/-
# The grammar of `--module-transport`

`NAME=PROTOCOL[,k=v...]`: the documentation's grammar is stated as what a flag's text is made
of, and the parser of the older front-end is compared with it.  The parser knows a little more:
a comma may close the flag, and a port may carry blanks in front and a sign, because `stoi` takes
them.  `moduleTransport_eq_ok_iff` says exactly what it accepts and what listener it makes;
`accepts_grammar_iff` says on which flags that is the documented grammar.
-/
import Logosctl.Legacy
import Mathlib.Data.List.Induction
import Mathlib.Data.List.TakeWhile

namespace Logosctl.Legacy

open Library

/-! ## 1. The grammar -/

/-- A plain decimal number that is a port. -/
def PlainPort (v : String) : Prop :=
  v.toList ≠ [] ∧ (∀ c ∈ v.toList, c.isDigit = true) ∧ Nat.ofDigitChars 10 v.toList 0 ≤ 0xFFFF

/-- What may stand in front of a number's digits. -/
def signs : List (List Char) := [[], ['+'], ['-']]

/-- The numbers that `stoi` reads as ports: blanks, a sign, digits. -/
def StoiPort (v : String) : Prop :=
  ∃ blanks sign ds : List Char, v.toList = blanks ++ (sign ++ ds)
    ∧ (∀ c ∈ blanks, isSpace c = true) ∧ sign ∈ signs
    ∧ ds ≠ [] ∧ (∀ c ∈ ds, c.isDigit = true) ∧ Nat.ofDigitChars 10 ds 0 ≤ 0xFFFF
    ∧ (sign = ['-'] → Nat.ofDigitChars 10 ds 0 = 0)

/-- The number that the digits of a text write. -/
def portValue (v : String) : Nat := Nat.ofDigitChars 10 (v.toList.filter Char.isDigit) 0

/-- A pair that may follow the protocol; `port` says which numbers are ports. -/
def KnownPair (port : String → Prop) (kv : String × String) : Prop :=
  kv.1 ∈ ["host", "codec", "ca", "cert", "key"]
    ∨ (kv.1 = "verify_peer" ∧ kv.2 ∈ ["true", "1", "false", "0"])
    ∨ (kv.1 = "port" ∧ port kv.2)

/-- What the last pair with the key says. -/
def lastOf (k : String) (kvs : List (String × String)) : Option String := kvs.reverse.lookup k

/-- The listener with the given values over the defaults. -/
def listener (protocol : String) (kvs : List (String × String)) : TransportInfo where
  protocol := protocol
  host := (lastOf "host" kvs).getD
    (if protocol = "tcp" ∨ protocol = "tcp_ssl" then "127.0.0.1" else "")
  port := .ofNat (((lastOf "port" kvs).map portValue).getD 0)
  caFile := (lastOf "ca" kvs).getD ""
  verifyPeer := ((lastOf "verify_peer" kvs).map fun v => decide (v = "true" ∨ v = "1")).getD true
  codec := (lastOf "codec" kvs).getD "json"
  certFile := (lastOf "cert" kvs).getD ""
  keyFile := (lastOf "key" kvs).getD ""

def pairText (kv : String × String) : List Char := kv.1.toList ++ '=' :: kv.2.toList

/-- The text after the name. -/
def bodyText (protocol : String) (kvs : List (String × String)) (closing : List Char) :
    List Char :=
  protocol.toList ++ (kvs.map pairText).flatMap (fun part => ',' :: part) ++ closing

/-- A flag of the documented form, up to what counts as a port and what closes the flag. -/
structure Form (port : String → Prop) (closing : List Char) (spec name protocol : String)
    (kvs : List (String × String)) : Prop where
  text : spec.toList = name.toList ++ '=' :: bodyText protocol kvs closing
  name_ne : name ≠ ""
  name_eq : '=' ∉ name.toList
  protocol_mem : protocol ∈ ["local", "tcp", "tcp_ssl"]
  known : ∀ kv ∈ kvs, KnownPair port kv
  comma : ∀ kv ∈ kvs, ',' ∉ kv.2.toList
  required : protocol = "local" ∨
    ((listener protocol kvs).codec ∈ ["json", "cbor"] ∧ (protocol = "tcp_ssl" →
      (listener protocol kvs).certFile ≠ "" ∧ (listener protocol kvs).keyFile ≠ ""))

/-- The documented grammar: what a flag of it says. -/
def Denotes (spec : String) (r : String × TransportInfo) : Prop :=
  ∃ protocol kvs, Form PlainPort [] spec r.1 protocol kvs ∧ r.2 = listener protocol kvs

/-- Of the form but for a closing comma, or a port with blanks or a sign. -/
def Tolerated (spec : String) : Prop :=
  ∃ name protocol kvs, Form StoiPort [','] spec name protocol kvs
    ∨ (Form StoiPort [] spec name protocol kvs ∧ ∃ kv ∈ kvs, kv.1 = "port" ∧ ¬ PlainPort kv.2)

/-! ## 2. Splitting -/

theorem splitFirst_eq_some_iff {sep : Char} : ∀ {cs a b : List Char},
    splitFirst sep cs = some (a, b) ↔ cs = a ++ sep :: b ∧ sep ∉ a
  | [], a, b => by simp [splitFirst]
  | c :: cs, a, b => by
    by_cases hc : c = sep
    · subst hc
      cases a with
      | nil => simp [splitFirst]
      | cons d a =>
        simp only [splitFirst, ↓reduceIte, Option.some.injEq, Prod.mk.injEq, List.cons_append,
          List.cons.injEq, List.mem_cons, not_or]
        refine ⟨fun h => absurd h.1 (by simp), fun h => absurd h.1.1 h.2.1⟩
    · cases a with
      | nil => simp [splitFirst, hc]
      | cons d a =>
        have ih : splitFirst sep cs = some (a, b) ↔ cs = a ++ sep :: b ∧ sep ∉ a :=
          splitFirst_eq_some_iff
        simp only [splitFirst, if_neg hc, Option.map_eq_some_iff, Prod.mk.injEq, List.cons.injEq,
          List.cons_append, List.mem_cons, not_or]
        constructor
        · rintro ⟨⟨x, y⟩, hxy, ⟨rfl, rfl⟩, rfl⟩
          obtain ⟨rfl, hsep⟩ := ih.mp hxy
          exact ⟨⟨rfl, rfl⟩, Ne.symm hc, hsep⟩
        · rintro ⟨⟨rfl, hcs⟩, -, hsep⟩
          exact ⟨(a, b), ih.mpr ⟨hcs, hsep⟩, ⟨rfl, rfl⟩, rfl⟩

theorem commaParts_append_comma {rest : List Char} : ∀ {part : List Char}, ',' ∉ part →
    commaParts (part ++ ',' :: rest) = part :: commaParts rest
  | [], _ => by simp [commaParts]
  | c :: part, h => by
    obtain ⟨hc, hpart⟩ := not_or.mp (List.mem_cons.not.mp h)
    rw [List.cons_append, commaParts, if_neg (Ne.symm hc), commaParts_append_comma hpart]

theorem commaParts_single : ∀ {part : List Char}, part ≠ [] → ',' ∉ part →
    commaParts part = [part]
  | [c], _, h => by simp [commaParts, show c ≠ ',' by rintro rfl; simp at h]
  | c :: d :: part, _, h => by
    obtain ⟨hc, hpart⟩ := not_or.mp (List.mem_cons.not.mp h)
    rw [commaParts, if_neg (Ne.symm hc), commaParts_single (List.cons_ne_nil d part) hpart]

/-- Parts with commas between them, and perhaps one more at the end, split into the parts. -/
theorem commaParts_join {closing : List Char} (hclosing : closing = [] ∨ closing = [',']) :
    ∀ {parts : List (List Char)} {part : List Char},
      (∀ q ∈ part :: parts, q ≠ [] ∧ ',' ∉ q) →
      commaParts (part ++ parts.flatMap (fun q => ',' :: q) ++ closing) = part :: parts
  | [], part, h => by
    obtain ⟨hne, hcomma⟩ := h part List.mem_cons_self
    rcases hclosing with rfl | rfl
    · simp [commaParts_single hne hcomma]
    · simp [commaParts_append_comma hcomma, commaParts]
  | q :: parts, part, h => by
    obtain ⟨hne, hcomma⟩ := h part List.mem_cons_self
    have htail : commaParts (q ++ parts.flatMap (fun q => ',' :: q) ++ closing) = q :: parts :=
      commaParts_join hclosing fun p hp => h p (List.mem_cons_of_mem _ hp)
    rw [List.flatMap_cons, List.append_assoc, List.cons_append, List.cons_append,
      commaParts_append_comma hcomma, htail]

theorem commaParts_eq_nil_iff {cs : List Char} : commaParts cs = [] ↔ cs = [] := by
  cases cs with
  | nil => simp [commaParts]
  | cons c cs =>
    rw [commaParts]
    split
    · simp
    · split <;> simp

/-- And the other way round: the parts are what stood between commas. -/
theorem exists_of_commaParts : ∀ {cs part : List Char} {parts : List (List Char)},
    commaParts cs = part :: parts → ∃ closing, (closing = [] ∨ closing = [','])
      ∧ cs = part ++ parts.flatMap (fun q => ',' :: q) ++ closing ∧ ∀ q ∈ part :: parts, ',' ∉ q
  | [], _, _, h => by simp [commaParts] at h
  | c :: cs, part, parts, h => by
    rw [commaParts] at h
    split at h
    · rename_i hc
      subst hc
      obtain ⟨rfl, hparts⟩ := List.cons.inj h
      cases parts with
      | nil =>
        have hcs := commaParts_eq_nil_iff.mp hparts
        exact ⟨[','], .inr rfl, by simp [hcs], by simp⟩
      | cons q parts =>
        obtain ⟨closing, hclosing, hcs, hcomma⟩ := exists_of_commaParts hparts
        refine ⟨closing, hclosing, by simp [hcs], ?_⟩
        exact List.forall_mem_cons.mpr ⟨List.not_mem_nil, hcomma⟩
    · rename_i hc
      split at h
      · rename_i hnil
        obtain ⟨rfl, rfl⟩ := List.cons.inj h
        exact ⟨[], .inl rfl, by simp [commaParts_eq_nil_iff.mp hnil], by simpa using Ne.symm hc⟩
      · rename_i q qs hqs
        obtain ⟨rfl, rfl⟩ := List.cons.inj h
        obtain ⟨closing, hclosing, hcs, hcomma⟩ := exists_of_commaParts hqs
        obtain ⟨hq, hqs⟩ := List.forall_mem_cons.mp hcomma
        refine ⟨closing, hclosing, by simp [hcs], List.forall_mem_cons.mpr ⟨?_, hqs⟩⟩
        exact fun hmem => (List.mem_cons.mp hmem).elim (fun h => hc h.symm) hq

/-! ## 3. Ports -/

theorem digitsValue_eq_some_iff {cs : List Char} {i : Int} : digitsValue cs = some i ↔
    cs ≠ [] ∧ (∀ c ∈ cs, c.isDigit = true) ∧ i = Nat.ofDigitChars 10 cs 0 := by
  unfold digitsValue
  by_cases h : cs ≠ [] ∧ ∀ c ∈ cs, c.isDigit = true
  · rw [if_pos (by simpa using h), Option.some.injEq]
    exact ⟨fun hi => ⟨h.1, h.2, hi.symm⟩, fun hi => hi.2.2.symm⟩
  · rw [if_neg (by simpa using h)]
    simp only [reduceCtorEq, false_iff]
    exact fun hi => h ⟨hi.1, hi.2.1⟩

theorem filter_isDigit_append {pre ds : List Char} (hpre : ∀ c ∈ pre, c.isDigit = false)
    (hds : ∀ c ∈ ds, c.isDigit = true) : (pre ++ ds).filter Char.isDigit = ds := by
  rw [List.filter_append, List.filter_eq_nil_iff.mpr (by simpa using hpre),
    List.filter_eq_self.mpr hds, List.nil_append]

theorem portValue_eq {v : String} {blanks sign ds : List Char}
    (hv : v.toList = blanks ++ (sign ++ ds)) (hblanks : ∀ c ∈ blanks, isSpace c = true)
    (hsign : sign ∈ signs) (hds : ∀ c ∈ ds, c.isDigit = true) :
    portValue v = Nat.ofDigitChars 10 ds 0 := by
  have hpre : ∀ c ∈ blanks ++ sign, c.isDigit = false := by
    intro c hc
    rcases List.mem_append.mp hc with hc | hc
    · exact isDigit_eq_false_of_isSpace (hblanks c hc)
    · have hsigns : signs.all (fun s => s.all (!·.isDigit)) = true := by decide
      have hno := List.all_eq_true.mp (List.all_eq_true.mp hsigns sign hsign) c hc
      simpa using hno
  rw [portValue, hv, ← List.append_assoc, filter_isDigit_append hpre hds]

/-- Blanks end where a sign or a digit stands. -/
theorem not_isSpace_head {sign ds : List Char} (hsign : sign ∈ signs) (hne : ds ≠ [])
    (hds : ∀ c ∈ ds, c.isDigit = true) : ∀ c ∈ (sign ++ ds).head?, isSpace c = false := by
  simp only [signs, List.mem_cons, List.not_mem_nil, or_false] at hsign
  obtain ⟨d, ds, rfl⟩ := List.exists_cons_of_ne_nil hne
  rcases hsign with rfl | rfl | rfl
  · rintro c ⟨⟩
    exact isSpace_eq_false_of_isDigit (hds _ List.mem_cons_self)
  · rintro c ⟨⟩
    decide
  · rintro c ⟨⟩
    decide

/-- **What `stoi` makes a port of**: blanks, a sign and the digits of a number that fits. -/
theorem stoi_port_iff {v : String} {i : Int} :
    stoi v = some i ∧ ¬ (i < 0 ∨ 0xFFFF < i) ↔ StoiPort v ∧ i = portValue v := by
  constructor
  · rintro ⟨hstoi, hrange⟩
    obtain ⟨hi, hfit⟩ := Option.filter_eq_some_iff.mp hstoi
    have hblanks : ∀ c ∈ v.toList.takeWhile isSpace, isSpace c = true := fun c hc =>
      List.mem_takeWhile_imp hc
    have hv := (List.takeWhile_append_dropWhile (p := isSpace) (l := v.toList)).symm
    obtain ⟨sign, ds, hdrop, hsign, hne, hds, hvalue⟩ : ∃ sign ds,
        v.toList.dropWhile isSpace = sign ++ ds ∧ sign ∈ signs ∧ ds ≠ []
        ∧ (∀ c ∈ ds, c.isDigit = true)
        ∧ i = if sign = ['-'] then -(Nat.ofDigitChars 10 ds 0 : Int)
            else Nat.ofDigitChars 10 ds 0 := by
      split at hi
      · rename_i ds hdrop
        obtain ⟨j, hj, rfl⟩ := Option.map_eq_some_iff.mp hi
        obtain ⟨hne, hds, rfl⟩ := digitsValue_eq_some_iff.mp hj
        exact ⟨['-'], ds, hdrop, by decide, hne, hds, rfl⟩
      · rename_i ds hdrop
        obtain ⟨hne, hds, rfl⟩ := digitsValue_eq_some_iff.mp hi
        exact ⟨['+'], ds, hdrop, by decide, hne, hds, by simp⟩
      · obtain ⟨hne, hds, rfl⟩ := digitsValue_eq_some_iff.mp hi
        exact ⟨[], _, rfl, by decide, hne, hds, by simp⟩
    rw [hdrop] at hv
    have hport := portValue_eq hv hblanks hsign hds
    split at hvalue
    · rename_i hminus
      have hzero : Nat.ofDigitChars 10 ds 0 = 0 := by omega
      exact ⟨⟨_, sign, ds, hv, hblanks, hsign, hne, hds, by omega, fun _ => hzero⟩, by omega⟩
    · rename_i hplus
      exact ⟨⟨_, sign, ds, hv, hblanks, hsign, hne, hds, by omega, fun h => absurd h hplus⟩,
        by omega⟩
  · rintro ⟨⟨blanks, sign, ds, hv, hblanks, hsign, hne, hds, hfit, hminus⟩, rfl⟩
    rw [portValue_eq hv hblanks hsign hds]
    have hdigits : digitsValue ds = some (Nat.ofDigitChars 10 ds 0 : Int) :=
      digitsValue_eq_some_iff.mpr ⟨hne, hds, rfl⟩
    refine ⟨?_, by omega⟩
    rw [stoi, hv, dropWhile_isSpace hblanks (not_isSpace_head hsign hne hds)]
    refine Option.filter_eq_some_iff.mpr ⟨?_, decide_eq_true (by omega)⟩
    simp only [signs, List.mem_cons, List.not_mem_nil, or_false] at hsign
    rcases hsign with rfl | rfl | rfl
    · split
      · rename_i hcons
        rw [List.nil_append] at hcons
        exact absurd (hds '-' (hcons ▸ List.mem_cons_self)) (by decide)
      · rename_i hcons
        rw [List.nil_append] at hcons
        exact absurd (hds '+' (hcons ▸ List.mem_cons_self)) (by decide)
      · exact hdigits
    · simpa using hdigits
    · simp [hdigits, hminus rfl]

/-- A plain port is one of them, the one that needs no blanks and no sign. -/
theorem PlainPort.stoiPort {v : String} (h : PlainPort v) : StoiPort v :=
  ⟨[], [], v.toList, rfl, List.forall_mem_nil _, by decide, h.1, h.2.1, h.2.2,
    fun h => absurd h (by decide)⟩

/-! ## 4. Pairs -/

/-- One pair laid over a listener. -/
def place (t : TransportInfo) (kv : String × String) : TransportInfo :=
  if kv.1 = "host" then { t with host := kv.2 }
  else if kv.1 = "codec" then { t with codec := kv.2 }
  else if kv.1 = "ca" then { t with caFile := kv.2 }
  else if kv.1 = "cert" then { t with certFile := kv.2 }
  else if kv.1 = "key" then { t with keyFile := kv.2 }
  else if kv.1 = "verify_peer" then { t with verifyPeer := decide (kv.2 = "true" ∨ kv.2 = "1") }
  else if kv.1 = "port" then { t with port := .ofNat (portValue kv.2) }
  else t

theorem setField_port_eq_ok_iff {spec v : String} {t t' : TransportInfo} :
    setField spec "port" v t = .ok t' ↔
      StoiPort v ∧ t' = { t with port := .ofNat (portValue v) } := by
  simp only [setField, String.reduceEq, if_false, if_true]
  cases hstoi : stoi v with
  | none =>
    simp only [reduceCtorEq, false_iff, not_and]
    intro hv
    have hread := stoi_port_iff.mpr ⟨hv, rfl⟩
    rw [hstoi] at hread
    exact absurd hread.1 (by simp)
  | some i =>
    by_cases hrange : i < 0 ∨ 0xFFFF < i
    · simp only [if_pos hrange, reduceCtorEq, false_iff, not_and]
      intro hv
      have hread := stoi_port_iff.mpr ⟨hv, rfl⟩
      rw [hstoi] at hread
      exact absurd (Option.some.inj hread.1 ▸ hrange) hread.2
    · obtain ⟨hv, rfl⟩ := stoi_port_iff.mp ⟨hstoi, hrange⟩
      simp only [if_neg hrange, hv, true_and, Int.toNat_natCast, Except.ok.injEq, eq_comm]

theorem setField_verifyPeer_eq_ok_iff {spec v : String} {t t' : TransportInfo} :
    setField spec "verify_peer" v t = .ok t' ↔ v ∈ ["true", "1", "false", "0"]
      ∧ t' = { t with verifyPeer := decide (v = "true" ∨ v = "1") } := by
  simp only [setField, String.reduceEq, if_false, if_true]
  by_cases htrue : v = "true" ∨ v = "1"
  · rcases htrue with rfl | rfl <;> simp [eq_comm]
  · obtain ⟨h₁, h₂⟩ := not_or.mp htrue
    by_cases hfalse : v = "false" ∨ v = "0"
    · rcases hfalse with rfl | rfl <;> simp [eq_comm]
    · obtain ⟨h₃, h₄⟩ := not_or.mp hfalse
      simp [h₁, h₂, h₃, h₄]

theorem setField_eq_ok_iff {spec k v : String} {t t' : TransportInfo} :
    setField spec k v t = .ok t' ↔ KnownPair StoiPort (k, v) ∧ t' = place t (k, v) := by
  by_cases hverify : k = "verify_peer"
  · subst hverify
    simp [setField_verifyPeer_eq_ok_iff, KnownPair, place]
  · by_cases hport : k = "port"
    · subst hport
      simp [setField_port_eq_ok_iff, KnownPair, place]
    · by_cases hplain : k ∈ ["host", "codec", "ca", "cert", "key"]
      · simp only [KnownPair, hplain, true_or, true_and]
        simp only [List.mem_cons, List.not_mem_nil, or_false] at hplain
        rcases hplain with rfl | rfl | rfl | rfl | rfl <;> simp [setField, place, eq_comm]
      · have hskip := hplain
        simp only [List.mem_cons, List.not_mem_nil, or_false, not_or] at hskip
        simp [setField, KnownPair, hplain, hskip, hverify, hport]

theorem KnownPair.key_plain {port : String → Prop} {kv : String × String} (h : KnownPair port kv) :
    '=' ∉ kv.1.toList ∧ ',' ∉ kv.1.toList := by
  have hplain : ∀ k ∈ ["host", "codec", "ca", "cert", "key", "verify_peer", "port"],
      '=' ∉ String.toList k ∧ ',' ∉ String.toList k := by decide
  refine hplain kv.1 ?_
  rcases h with h | ⟨h, -⟩ | ⟨h, -⟩
  · exact List.mem_append_left ["verify_peer", "port"] h
  · simp [h]
  · simp [h]

theorem splitFirst_pairText {kv : String × String} (h : '=' ∉ kv.1.toList) :
    splitFirst '=' (pairText kv) = some (kv.1.toList, kv.2.toList) :=
  splitFirst_eq_some_iff.mpr ⟨rfl, h⟩

/-- The pairs are known ones, and go over the listener one after the other. -/
theorem setFields_eq_ok_iff {spec : String} {t' : TransportInfo} :
    ∀ {parts : List (List Char)} {t : TransportInfo}, setFields spec parts t = .ok t' ↔
      ∃ kvs : List (String × String), parts = kvs.map pairText
        ∧ (∀ kv ∈ kvs, KnownPair StoiPort kv) ∧ t' = kvs.foldl place t
  | [], t => by
    constructor
    · intro h
      exact ⟨[], rfl, List.forall_mem_nil _, (Except.ok.inj h).symm⟩
    · rintro ⟨kvs, hparts, -, rfl⟩
      rw [List.map_eq_nil_iff.mp hparts.symm]
      rfl
  | part :: parts, t => by
    constructor
    · intro h
      rw [setFields] at h
      split at h
      · cases h
      · rename_i k v hsplit
        obtain ⟨rfl, hk⟩ := splitFirst_eq_some_iff.mp hsplit
        split at h
        · cases h
        · rename_i t₁ hset
          obtain ⟨hknown, rfl⟩ := setField_eq_ok_iff.mp hset
          obtain ⟨kvs, rfl, hkvs, rfl⟩ := setFields_eq_ok_iff.mp h
          refine ⟨(String.ofList k, String.ofList v) :: kvs, ?_, ?_, rfl⟩
          · simp [pairText]
          · exact List.forall_mem_cons.mpr ⟨hknown, hkvs⟩
    · rintro ⟨_ | ⟨kv, kvs⟩, hparts, hknown, rfl⟩
      · cases hparts
      · obtain ⟨rfl, rfl⟩ := List.cons.inj hparts
        obtain ⟨hkv, hkvs⟩ := List.forall_mem_cons.mp hknown
        have hset : setField spec (String.ofList kv.1.toList) (String.ofList kv.2.toList) t
            = .ok (place t kv) :=
          setField_eq_ok_iff.mpr ⟨by simpa using hkv, by simp⟩
        rw [setFields, splitFirst_pairText hkv.key_plain.1]
        simp only [hset]
        exact setFields_eq_ok_iff.mpr ⟨kvs, rfl, hkvs, rfl⟩

/-! ## 5. Listeners -/

theorem lastOf_append (k : String) (kvs : List (String × String)) (key v : String) :
    lastOf k (kvs ++ [(key, v)]) = if k = key then some v else lastOf k kvs := by
  rw [lastOf, List.reverse_append, List.reverse_singleton, List.singleton_append,
    List.lookup_cons]
  by_cases hk : k = key
  · simp [hk]
  · simp [hk, beq_eq_false_iff_ne.mpr hk, lastOf]

theorem listener_nil (protocol : String) : listener protocol [] = listenerDefaults protocol := by
  by_cases h : protocol = "tcp" ∨ protocol = "tcp_ssl"
  · simp [listener, listenerDefaults, lastOf, h]
  · simp [listener, listenerDefaults, lastOf, h]

theorem listener_append (protocol : String) (kvs : List (String × String))
    (kv : String × String) :
    listener protocol (kvs ++ [kv]) = place (listener protocol kvs) kv := by
  obtain ⟨k, v⟩ := kv
  simp only [listener, lastOf_append]
  by_cases hk : k ∈ ["host", "codec", "ca", "cert", "key", "verify_peer", "port"]
  · simp only [List.mem_cons, List.not_mem_nil, or_false] at hk
    rcases hk with rfl | rfl | rfl | rfl | rfl | rfl | rfl <;> simp [place]
  · simp only [List.mem_cons, List.not_mem_nil, or_false, not_or] at hk
    simp [place, hk, eq_comm (b := k)]

/-- Laid over one after the other, the last pair of each key is what stays. -/
theorem foldl_place (protocol : String) (kvs : List (String × String)) :
    kvs.foldl place (listenerDefaults protocol) = listener protocol kvs := by
  induction kvs using List.reverseRecOn with
  | nil => exact (listener_nil protocol).symm
  | append_singleton kvs kv ih => rw [List.foldl_append, ih, listener_append]; rfl

theorem validateListener_eq_ok_iff {moduleName : String} {made t : TransportInfo} :
    validateListener moduleName made = .ok t ↔ made.protocol ∈ ["local", "tcp", "tcp_ssl"]
      ∧ (made.protocol = "local" ∨ (made.codec ∈ ["json", "cbor"]
        ∧ (made.protocol = "tcp_ssl" → made.certFile ≠ "" ∧ made.keyFile ≠ ""))) ∧ made = t := by
  have hcodec : made.codec ∈ ["json", "cbor"] ↔ validateCodec made.codec = true := by
    simp [validateCodec]
  rw [hcodec]
  by_cases hlocal : made.protocol = "local"
  · simp [validateListener, hlocal]
  · by_cases htcp : made.protocol = "tcp"
    · cases hvalid : validateCodec made.codec <;> simp [validateListener, htcp, hvalid]
    · by_cases hssl : made.protocol = "tcp_ssl"
      · cases hvalid : validateCodec made.codec
        · simp [validateListener, hssl, hvalid]
        · by_cases hkeys : made.certFile = "" ∨ made.keyFile = ""
          · have hnot : ¬ (made.certFile ≠ "" ∧ made.keyFile ≠ "") := by tauto
            simp only [validateListener, hssl, hvalid, String.reduceEq, if_false, if_true,
              Bool.not_true, Bool.false_eq_true, Bool.or_eq_true, String.isEmpty_iff, hkeys,
              reduceCtorEq, false_or, forall_const, hnot, false_and, and_false]
          · obtain ⟨hcert, hkey⟩ := not_or.mp hkeys
            simp [validateListener, hssl, hvalid, hcert, hkey]
      · simp [validateListener, hlocal, htcp, hssl]

/-! ## 6. What the parser accepts -/

section Form

variable {port port' : String → Prop} {closing closing' : List Char}
  {spec name name' protocol protocol' : String} {kvs kvs' : List (String × String)}

theorem Form.splitFirst_eq (h : Form port closing spec name protocol kvs) :
    splitFirst '=' spec.toList = some (name.toList, bodyText protocol kvs closing) :=
  splitFirst_eq_some_iff.mpr ⟨h.text, h.name_eq⟩

theorem Form.protocol_plain (h : Form port closing spec name protocol kvs) :
    protocol.toList ≠ [] ∧ ',' ∉ protocol.toList := by
  have hplain : ∀ p ∈ ["local", "tcp", "tcp_ssl"], String.toList p ≠ [] ∧ ',' ∉ p.toList := by
    decide
  exact hplain protocol h.protocol_mem

theorem Form.commaParts_eq (h : Form port closing spec name protocol kvs)
    (hclosing : closing = [] ∨ closing = [',']) :
    commaParts (bodyText protocol kvs closing) = protocol.toList :: kvs.map pairText := by
  refine commaParts_join hclosing (List.forall_mem_cons.mpr ⟨h.protocol_plain, ?_⟩)
  rintro _ hpart
  obtain ⟨kv, hkv, rfl⟩ := List.mem_map.mp hpart
  refine ⟨by simp [pairText], ?_⟩
  simp only [pairText, List.mem_append, List.mem_cons, not_or]
  exact ⟨(h.known kv hkv).key_plain.2, by decide, h.comma kv hkv⟩

theorem Form.mono (h : Form port closing spec name protocol kvs)
    (hport : ∀ kv ∈ kvs, kv.1 = "port" → port kv.2 → port' kv.2) :
    Form port' closing spec name protocol kvs where
  text := h.text
  name_ne := h.name_ne
  name_eq := h.name_eq
  protocol_mem := h.protocol_mem
  comma := h.comma
  required := h.required
  known := fun kv hkv => (h.known kv hkv).imp_right
    (Or.imp_right fun hp => ⟨hp.1, hport kv hkv hp.1 hp.2⟩)

theorem pairText_injOn : ∀ {kvs kvs' : List (String × String)},
    (∀ kv ∈ kvs, '=' ∉ kv.1.toList) → (∀ kv ∈ kvs', '=' ∉ kv.1.toList) →
    kvs.map pairText = kvs'.map pairText → kvs = kvs'
  | [], [], _, _, _ => rfl
  | [], _ :: _, _, _, h => by simp at h
  | _ :: _, [], _, _, h => by simp at h
  | kv :: kvs, kv' :: kvs', h, h', heq => by
    obtain ⟨hhead, htail⟩ := List.cons.inj heq
    have hsplit := splitFirst_pairText (h kv List.mem_cons_self)
    rw [hhead, splitFirst_pairText (h' kv' List.mem_cons_self)] at hsplit
    simp only [Option.some.injEq, Prod.mk.injEq, String.toList_inj] at hsplit
    rw [Prod.ext hsplit.1 hsplit.2,
      pairText_injOn (fun kv hkv => h kv (List.mem_cons_of_mem _ hkv))
        (fun kv hkv => h' kv (List.mem_cons_of_mem _ hkv)) htail]

/-- **The form is unambiguous**: a flag has one set of pairs and one ending. -/
theorem Form.unique (h : Form port closing spec name protocol kvs)
    (h' : Form port' closing' spec name' protocol' kvs')
    (hclosing : closing = [] ∨ closing = [',']) (hclosing' : closing' = [] ∨ closing' = [',']) :
    kvs = kvs' ∧ closing = closing' := by
  have hsplit := h.splitFirst_eq
  rw [h'.splitFirst_eq, Option.some.injEq, Prod.mk.injEq] at hsplit
  obtain ⟨-, hbody⟩ := hsplit
  have hparts := h.commaParts_eq hclosing
  rw [← hbody, h'.commaParts_eq hclosing'] at hparts
  obtain ⟨hprotocol, hpairs⟩ := List.cons.inj hparts
  have hkvs := pairText_injOn (fun kv hkv => (h'.known kv hkv).key_plain.1)
    (fun kv hkv => (h.known kv hkv).key_plain.1) hpairs
  refine ⟨hkvs.symm, ?_⟩
  rw [hkvs, String.toList_inj.mp hprotocol] at hbody
  exact (List.append_cancel_left hbody).symm

end Form

/-- **What the parser accepts, and what it makes of it.** -/
theorem moduleTransport_eq_ok_iff {spec name : String} {t : TransportInfo} :
    moduleTransport spec = .ok (name, t) ↔ ∃ protocol kvs closing,
      (closing = [] ∨ closing = [',']) ∧ Form StoiPort closing spec name protocol kvs
      ∧ t = listener protocol kvs := by
  constructor
  · intro h
    unfold moduleTransport at h
    split at h
    case h_2 => cases h
    rename_i n ns b bs hsplit
    obtain ⟨htext, hname⟩ := splitFirst_eq_some_iff.mp hsplit
    dsimp only at h
    split at h
    case h_2 => cases h
    rename_i p ps parts hparts
    obtain ⟨closing, hclosing, hbody, hcomma⟩ := exists_of_commaParts hparts
    split at h
    case h_1 => cases h
    rename_i made hset
    obtain ⟨kvs, rfl, hknown, rfl⟩ := setFields_eq_ok_iff.mp hset
    rw [foldl_place] at h
    split at h
    case h_1 => cases h
    rename_i t' hvalid
    obtain ⟨hprotocol, hrequired, rfl⟩ := validateListener_eq_ok_iff.mp hvalid
    obtain ⟨rfl, rfl⟩ := Prod.mk.inj (Except.ok.inj h)
    refine ⟨String.ofList (p :: ps), kvs, closing, hclosing, ?_, rfl⟩
    exact
      { text := by rw [htext, hbody, bodyText, String.toList_ofList, String.toList_ofList]
        name_ne := fun hempty => by simpa using congrArg String.toList hempty
        name_eq := by rwa [String.toList_ofList]
        protocol_mem := hprotocol
        known := hknown
        comma := fun kv hkv hmem => hcomma (pairText kv)
          (List.mem_cons_of_mem _ (List.mem_map_of_mem hkv)) (by simp [pairText, hmem])
        required := hrequired }
  · rintro ⟨protocol, kvs, closing, hclosing, hform, rfl⟩
    have hname : name.toList ≠ [] := fun hnil =>
      hform.name_ne (String.toList_inj.mp hnil)
    obtain ⟨n, ns, hn⟩ := List.exists_cons_of_ne_nil hname
    obtain ⟨p, ps, hp⟩ := List.exists_cons_of_ne_nil hform.protocol_plain.1
    have hsplit := hform.splitFirst_eq
    have hparts := hform.commaParts_eq hclosing
    obtain ⟨b, bs, hb⟩ : ∃ b bs, bodyText protocol kvs closing = b :: bs :=
      ⟨p, _, by rw [bodyText, hp]; rfl⟩
    rw [hn, hb] at hsplit
    rw [hb, hp] at hparts
    have hset : setFields spec (kvs.map pairText) (listenerDefaults protocol)
        = .ok (listener protocol kvs) :=
      setFields_eq_ok_iff.mpr ⟨kvs, rfl, hform.known, (foldl_place protocol kvs).symm⟩
    have hvalid : validateListener name (listener protocol kvs) = .ok (listener protocol kvs) :=
      validateListener_eq_ok_iff.mpr ⟨hform.protocol_mem, hform.required, rfl⟩
    simp only [moduleTransport, hsplit, hparts]
    rw [← hn, ← hp, String.ofList_toList, String.ofList_toList]
    simp only [hset, hvalid]

/-! ## 7. Where that is the documented grammar -/

/-- What is only tolerated is accepted, and is not of the grammar: forms are unambiguous. -/
theorem accepted_of_tolerated {spec : String} (h : Tolerated spec) :
    ∃ r, moduleTransport spec = .ok r ∧ ¬ Denotes spec r := by
  obtain ⟨name, protocol, kvs, hform⟩ := h
  have hplain : ∀ {closing : List Char}, closing = [] ∨ closing = [','] →
      Form StoiPort closing spec name protocol kvs → Denotes spec (name, listener protocol kvs) →
      closing = [] ∧ ∀ kv ∈ kvs, kv.1 = "port" → PlainPort kv.2 := by
    rintro closing hclosing hform ⟨protocol', kvs', hplain, -⟩
    obtain ⟨rfl, rfl⟩ := hform.unique hplain hclosing (.inl rfl)
    refine ⟨rfl, fun kv hkv hport => ?_⟩
    rcases hplain.known kv hkv with h | ⟨h, -⟩ | ⟨-, h⟩
    · exact absurd (hport ▸ h) (by decide)
    · exact absurd (hport ▸ h) (by decide)
    · exact h
  refine ⟨(name, listener protocol kvs), ?_⟩
  rcases hform with hform | ⟨hform, kv, hkv, hport, hnot⟩
  · exact ⟨moduleTransport_eq_ok_iff.mpr ⟨protocol, kvs, _, .inr rfl, hform, rfl⟩,
      fun h => absurd (hplain (.inr rfl) hform h).1 (by decide)⟩
  · exact ⟨moduleTransport_eq_ok_iff.mpr ⟨protocol, kvs, _, .inl rfl, hform, rfl⟩,
      fun h => hnot ((hplain (.inl rfl) hform h).2 kv hkv hport)⟩

/-- **The parser accepts exactly the documented grammar** on every flag but those that end in a
comma or give a port with blanks or a sign; these it accepts as well. -/
theorem accepts_grammar_iff (spec : String) :
    (∀ r, moduleTransport spec = .ok r ↔ Denotes spec r) ↔ ¬ Tolerated spec := by
  constructor
  · intro hgrammar htolerated
    obtain ⟨r, hok, hnot⟩ := accepted_of_tolerated htolerated
    exact hnot ((hgrammar r).mp hok)
  · rintro hnot ⟨name, t⟩
    rw [moduleTransport_eq_ok_iff]
    constructor
    · rintro ⟨protocol, kvs, closing, rfl | rfl, hform, rfl⟩
      · refine ⟨protocol, kvs, hform.mono fun kv hkv hport _ => ?_, rfl⟩
        by_contra hplain
        exact hnot ⟨name, protocol, kvs, .inr ⟨hform, kv, hkv, hport, hplain⟩⟩
      · exact absurd ⟨name, protocol, kvs, .inl hform⟩ hnot
    · rintro ⟨protocol, kvs, hform, rfl⟩
      exact ⟨protocol, kvs, [], .inl rfl, hform.mono fun _ _ _ => PlainPort.stoiPort, rfl⟩

/-- A port with a blank in front is accepted, and is not of the grammar. -/
theorem blank_port_accepted :
    ¬ ∀ spec r, moduleTransport spec = .ok r ↔ Denotes spec r := by
  intro h
  have hform : Form StoiPort [] "core_service=tcp,port= 80" "core_service" "tcp"
      [("port", " 80")] :=
    { text := by decide
      name_ne := by decide
      name_eq := by decide
      protocol_mem := by decide
      known := List.forall_mem_singleton.mpr (.inr (.inr ⟨rfl,
        [' '], [], ['8', '0'], by decide, List.forall_mem_singleton.mpr rfl, by decide, by decide,
        List.forall_mem_cons.mpr ⟨rfl, List.forall_mem_singleton.mpr rfl⟩, by decide, by decide⟩))
      comma := by decide
      required := .inr ⟨by decide, fun h => absurd h (by decide)⟩ }
  obtain ⟨r, hok, hnot⟩ := accepted_of_tolerated ⟨_, _, _, .inr ⟨hform, _,
    List.mem_singleton_self _, rfl, fun h => absurd (h.2.1 ' ' (by decide)) (by decide)⟩⟩
  exact hnot ((h _ r).mp hok)

end Logosctl.Legacy
