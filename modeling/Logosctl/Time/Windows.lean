/-
# The two readers of a stamp

Where there is no `strptime`, the stamp is read with `sscanf` and checked by hand; the comment at
the code calls this branch strict.  `%Nd` takes blanks in front and a sign, though, and the check
has no lower bounds for the hour, the minute and the second.  The POSIX branch in turn stops at
the `Z`.  `parsers_agree_iff` says on which strings both are the strict reader of complete stamps.
-/
import Logosctl.Time.Stamp

namespace Logosctl.Time

open Library

/-! ## 1. The Windows branch -/

/-- `struct tm` as the Windows branch fills it, the month counted from 1 and the year in full. -/
structure IntTm where
  year : Int
  month : Int
  day : Int
  hour : Int
  minute : Int
  second : Int
  deriving DecidableEq

def Tm.ints (tm : Tm) : IntTm :=
  ⟨tm.year, tm.month, tm.day, tm.hour, tm.minute, tm.second⟩

/-- The digits among the next `n` characters, at least one. -/
def scanDigits (n : Nat) (cs : List Char) : Option (Nat × List Char) :=
  let ds := (cs.take n).takeWhile Char.isDigit
  if ds.isEmpty then none else some (value ds, cs.drop ds.length)

/-- `%nd`: blanks, then a sign and digits, together at most `n` characters. -/
def scanInt (n : Nat) (cs : List Char) : Option (Int × List Char) :=
  match cs.dropWhile isSpace with
  | '-' :: ds => (scanDigits (n - 1) ds).map fun p => (-(p.1 : Int), p.2)
  | '+' :: ds => (scanDigits (n - 1) ds).map fun p => ((p.1 : Int), p.2)
  | ds => (scanDigits n ds).map fun p => ((p.1 : Int), p.2)

/-- The Windows branch of `strptimeIso8601Utc`. -/
def strptimeWindows (s : String) : Option IntTm := do
  let (y, cs) ← scanInt 4 s.toList
  let (mo, cs) ← scanInt 2 (← matchChar '-' cs)
  let (d, cs) ← scanInt 2 (← matchChar '-' cs)
  let (h, cs) ← scanInt 2 (← matchChar 'T' cs)
  let (mi, cs) ← scanInt 2 (← matchChar ':' cs)
  let (sec, cs) ← scanInt 2 (← matchChar ':' cs)
  -- without the `Z`, `consumed` stays 0
  let rest ← matchChar 'Z' cs
  if rest.head? ≠ none ∧ rest.head? ≠ some (Char.ofNat 0) then none   -- trailing junk
  else if mo < 1 ∨ mo > 12 ∨ d < 1 ∨ d > 31 then none
  else if h > 23 ∨ mi > 59 ∨ sec > 60 then none   -- 60 = leap second
  else some ⟨y, mo, d, h, mi, sec⟩

/-- `isExpired` there; what `_mkgmtime` makes of the fields is the C library's. -/
def isExpiredWindows (mkgmtime : IntTm → Int) (now : Int) (expiresAt : String) : Bool :=
  if expiresAt.isEmpty then false
  else
    match strptimeWindows expiresAt with
    | none => true
    | some tm => decide (mkgmtime tm ≤ now)

/-! ## 2. What it reads -/

/-- What `sscanf` takes for a number. -/
def WindowsField (n : Nat) (text : List Char) (v : Int) : Prop :=
  ∃ blanks sign ds, text = blanks ++ (sign ++ ds) ∧ (∀ c ∈ blanks, isSpace c = true)
    ∧ sign ∈ [[], ['+'], ['-']] ∧ ds ≠ [] ∧ Digits ds ∧ (sign ++ ds).length ≤ n
    ∧ v = if sign = ['-'] then -(value ds : Int) else value ds

/-- What the Windows branch takes for a stamp; a C string ends at a NUL. -/
def WindowsStamp (s : String) (tm : IntTm) : Prop :=
  ∃ year month day hour minute second tail,
    s.toList = sixFields year month day hour minute second tail
    ∧ WindowsField 4 year tm.year ∧ WindowsField 2 month tm.month ∧ WindowsField 2 day tm.day
    ∧ WindowsField 2 hour tm.hour ∧ WindowsField 2 minute tm.minute
    ∧ WindowsField 2 second tm.second
    ∧ (tail.head? = none ∨ tail.head? = some (Char.ofNat 0))
    ∧ 1 ≤ tm.month ∧ tm.month ≤ 12 ∧ 1 ≤ tm.day ∧ tm.day ≤ 31
    ∧ tm.hour ≤ 23 ∧ tm.minute ≤ 59 ∧ tm.second ≤ 60

theorem scanDigits_eq_some_iff {n v : Nat} {c : Char} {cs rest : List Char}
    (hc : c.isDigit = false) : scanDigits n cs = some (v, c :: rest) ↔
      ∃ ds, cs = ds ++ c :: rest ∧ ds ≠ [] ∧ Digits ds ∧ ds.length ≤ n ∧ v = value ds := by
  constructor
  · intro h
    unfold scanDigits at h
    dsimp only at h
    split at h
    · cases h
    · rename_i hne
      obtain ⟨hv, hrest⟩ := Prod.mk.inj (Option.some.inj h)
      have hprefix : (cs.take n).takeWhile Char.isDigit <+: cs :=
        (List.takeWhile_prefix _).trans (List.take_prefix n cs)
      have hcs := List.prefix_iff_eq_append.mp hprefix
      have hlen : ((cs.take n).takeWhile Char.isDigit).length ≤ n :=
        Nat.le_trans (List.takeWhile_prefix _).length_le (List.length_take_le n cs)
      rw [hrest] at hcs
      exact ⟨_, hcs.symm, by simpa using hne, fun d hd => List.mem_takeWhile_imp hd, hlen,
        hv.symm⟩
  · rintro ⟨ds, rfl, hne, hds, hlen, rfl⟩
    have htake : ((ds ++ c :: rest).take n).takeWhile Char.isDigit = ds := by
      rw [List.take_append, List.take_of_length_le hlen, List.takeWhile_append_of_pos hds]
      cases hk : n - ds.length with
      | zero => simp
      | succ k => simp [hc]
    unfold scanDigits
    simp [htake, hne]

/-- The same, for the number with its sign. -/
theorem scanDigits_map_eq_some {n : Nat} {v : Int} {c : Char} {cs rest : List Char}
    (hc : c.isDigit = false) (f : Nat → Int)
    (h : (scanDigits n cs).map (fun p => (f p.1, p.2)) = some (v, c :: rest)) :
    ∃ ds, cs = ds ++ c :: rest ∧ ds ≠ [] ∧ Digits ds ∧ ds.length ≤ n ∧ v = f (value ds) := by
  obtain ⟨⟨w, r⟩, hscan, hpair⟩ := Option.map_eq_some_iff.mp h
  obtain ⟨rfl, rfl⟩ := Prod.mk.inj hpair
  obtain ⟨ds, hcs, hne, hds, hlen, rfl⟩ := (scanDigits_eq_some_iff hc).mp hscan
  exact ⟨ds, hcs, hne, hds, hlen, rfl⟩

/-- **A number up to the character after it.** -/
theorem scanInt_eq_some_iff {n : Nat} {v : Int} {c : Char} {cs rest : List Char} (hn : 1 ≤ n)
    (hc : c.isDigit = false) : scanInt n cs = some (v, c :: rest) ↔
      ∃ text, cs = text ++ c :: rest ∧ WindowsField n text v := by
  constructor
  · intro h
    have hblanks : ∀ d ∈ cs.takeWhile isSpace, isSpace d = true := fun d hd =>
      List.mem_takeWhile_imp hd
    have hcs := (List.takeWhile_append_dropWhile (p := isSpace) (l := cs)).symm
    obtain ⟨sign, ds, hdrop, hsign, hne, hds, hlen, hv⟩ : ∃ sign ds,
        cs.dropWhile isSpace = sign ++ ds ++ c :: rest ∧ sign ∈ [[], ['+'], ['-']] ∧ ds ≠ []
        ∧ Digits ds ∧ (sign ++ ds).length ≤ n
        ∧ v = if sign = ['-'] then -(value ds : Int) else value ds := by
      unfold scanInt at h
      split at h
      · rename_i tail hdrop
        obtain ⟨ds, rfl, hne, hds, hlen, rfl⟩ := scanDigits_map_eq_some hc (fun k => -(k : Int)) h
        exact ⟨['-'], ds, hdrop, by decide, hne, hds, by simp; omega, rfl⟩
      · rename_i tail hdrop
        obtain ⟨ds, rfl, hne, hds, hlen, rfl⟩ := scanDigits_map_eq_some hc (fun k => (k : Int)) h
        exact ⟨['+'], ds, hdrop, by decide, hne, hds, by simp; omega, by simp⟩
      · obtain ⟨ds, hdrop, hne, hds, hlen, rfl⟩ :=
          scanDigits_map_eq_some hc (fun k => (k : Int)) h
        exact ⟨[], ds, hdrop, by decide, hne, hds, hlen, by simp⟩
    refine ⟨cs.takeWhile isSpace ++ (sign ++ ds), ?_, _, sign, ds, rfl, hblanks, hsign, hne, hds,
      hlen, hv⟩
    rw [hdrop] at hcs
    rw [List.append_assoc]
    exact hcs
  · rintro ⟨text, rfl, blanks, sign, ds, rfl, hblanks, hsign, hne, hds, hlen, rfl⟩
    obtain ⟨d, ds, rfl⟩ := List.exists_cons_of_ne_nil hne
    have hd : d.isDigit = true := (digits_cons.mp hds).1
    have hspace : isSpace d = false := isSpace_eq_false_of_isDigit hd
    have hscan : ∀ m, (d :: ds).length ≤ m → scanDigits m (d :: (ds ++ c :: rest))
        = some (value (d :: ds), c :: rest) := fun m hm =>
      (scanDigits_eq_some_iff hc).mpr ⟨d :: ds, rfl, hne, hds, hm, rfl⟩
    simp only [List.mem_cons, List.not_mem_nil, or_false] at hsign
    rw [scanInt, List.append_assoc, List.append_assoc]
    rcases hsign with rfl | rfl | rfl
    · rw [List.nil_append, List.cons_append, dropWhile_isSpace hblanks (by simpa using hspace)]
      split
      · rename_i hcons
        rw [(List.cons.inj hcons).1] at hd
        exact absurd hd (by decide)
      · rename_i hcons
        rw [(List.cons.inj hcons).1] at hd
        exact absurd hd (by decide)
      · rw [hscan n (by simpa using hlen)]
        simp
    · rw [dropWhile_isSpace hblanks (by simp [isSpace])]
      simp [hscan (n - 1) (by simp at hlen ⊢; omega)]
    · rw [dropWhile_isSpace hblanks (by simp [isSpace])]
      simp [hscan (n - 1) (by simp at hlen ⊢; omega)]

theorem scanInt_matchChar_iff {n : Nat} {v : Int} {c : Char} {cs rest : List Char} (hn : 1 ≤ n)
    (hc : c.isDigit = false) :
    (∃ r, scanInt n cs = some (v, r) ∧ matchChar c r = some rest) ↔
      ∃ text, cs = text ++ c :: rest ∧ WindowsField n text v := by
  rw [← scanInt_eq_some_iff hn hc]
  simp only [matchChar_eq_some_iff, exists_eq_right]

/-- **What the Windows branch accepts, and what it makes of it.** -/
theorem strptimeWindows_eq_some_iff {s : String} {tm : IntTm} :
    strptimeWindows s = some tm ↔ WindowsStamp s tm := by
  have hchecks : ∀ {y mo d h mi sec : Int} {rest : List Char},
      (if rest.head? ≠ none ∧ rest.head? ≠ some (Char.ofNat 0) then none
        else if mo < 1 ∨ mo > 12 ∨ d < 1 ∨ d > 31 then none
        else if h > 23 ∨ mi > 59 ∨ sec > 60 then none
        else some (⟨y, mo, d, h, mi, sec⟩ : IntTm)) = some tm ↔
      tm = ⟨y, mo, d, h, mi, sec⟩ ∧ (rest.head? = none ∨ rest.head? = some (Char.ofNat 0))
        ∧ 1 ≤ mo ∧ mo ≤ 12 ∧ 1 ≤ d ∧ d ≤ 31 ∧ h ≤ 23 ∧ mi ≤ 59 ∧ sec ≤ 60 := by
    intro y mo d h mi sec rest
    split_ifs with hjunk hdate htime
    · simp only [false_iff]
      rintro ⟨-, hend, -⟩
      exact hend.elim hjunk.1 hjunk.2
    · simp only [false_iff]
      omega
    · simp only [false_iff]
      omega
    · rw [Option.some.injEq, eq_comm]
      have hend := (not_and_or.mp hjunk).imp not_not.mp not_not.mp
      exact (and_iff_left ⟨hend, by omega⟩).symm
  simp only [strptimeWindows, Option.bind_eq_bind, Option.bind_eq_some_iff, Prod.exists, hchecks]
  constructor
  · rintro ⟨y, r₁, hy, r₁', my, mo, r₂, hmo, r₂', mmo, d, r₃, hd, r₃', md, h, r₄, hh, r₄', mh,
      mi, r₅, hmi, r₅', mmi, sec, r₆, hsec, tail, msec, rfl, hend, hrange⟩
    obtain ⟨ty, hy, fy⟩ := (scanInt_matchChar_iff (by decide) (by decide)).mp ⟨r₁, hy, my⟩
    obtain ⟨tmo, rfl, fmo⟩ := (scanInt_matchChar_iff (by decide) (by decide)).mp ⟨r₂, hmo, mmo⟩
    obtain ⟨td, rfl, fd⟩ := (scanInt_matchChar_iff (by decide) (by decide)).mp ⟨r₃, hd, md⟩
    obtain ⟨th, rfl, fh⟩ := (scanInt_matchChar_iff (by decide) (by decide)).mp ⟨r₄, hh, mh⟩
    obtain ⟨tmi, rfl, fmi⟩ := (scanInt_matchChar_iff (by decide) (by decide)).mp ⟨r₅, hmi, mmi⟩
    obtain ⟨ts, rfl, fs⟩ := (scanInt_matchChar_iff (by decide) (by decide)).mp ⟨r₆, hsec, msec⟩
    exact ⟨ty, tmo, td, th, tmi, ts, tail, hy, fy, fmo, fd, fh, fmi, fs, hend, hrange⟩
  · rintro ⟨ty, tmo, td, th, tmi, ts, tail, htext, fy, fmo, fd, fh, fmi, fs, hend, hrange⟩
    obtain ⟨r₁, hy, my⟩ := (scanInt_matchChar_iff (c := '-') (by decide) (by decide)).mpr
      ⟨ty, htext, fy⟩
    obtain ⟨r₂, hmo, mmo⟩ := (scanInt_matchChar_iff (c := '-') (by decide) (by decide)).mpr
      ⟨tmo, rfl, fmo⟩
    obtain ⟨r₃, hd, md⟩ := (scanInt_matchChar_iff (c := 'T') (by decide) (by decide)).mpr
      ⟨td, rfl, fd⟩
    obtain ⟨r₄, hh, mh⟩ := (scanInt_matchChar_iff (c := ':') (by decide) (by decide)).mpr
      ⟨th, rfl, fh⟩
    obtain ⟨r₅, hmi, mmi⟩ := (scanInt_matchChar_iff (c := ':') (by decide) (by decide)).mpr
      ⟨tmi, rfl, fmi⟩
    obtain ⟨r₆, hs, ms⟩ := (scanInt_matchChar_iff (c := 'Z') (by decide) (by decide)).mpr
      ⟨ts, rfl, fs⟩
    exact ⟨_, _, hy, _, my, _, _, hmo, _, mmo, _, _, hd, _, md, _, _, hh, _, mh, _, _, hmi, _,
      mmi, _, _, hs, _, ms, rfl, hend, hrange⟩

theorem windowsField_fixedDigits {n v : Nat} (hn : 1 ≤ n) (hlt : v < 10 ^ n) :
    WindowsField n (fixedDigits n v) v := by
  refine ⟨[], [], fixedDigits n v, rfl, List.forall_mem_nil _, by decide, ?_,
    digits_fixedDigits n v, by simp, by simp [value_fixedDigits hlt]⟩
  exact List.ne_nil_of_length_pos (by rw [length_fixedDigits]; omega)

theorem IsStamp.windows {s : String} {tm : Tm} (h : IsStamp s tm) : WindowsStamp s tm.ints := by
  obtain ⟨htext, hrange⟩ := h
  have := hrange.year
  have := hrange.month
  have := hrange.day
  have := hrange.hour
  have := hrange.minute
  have := hrange.second
  refine ⟨_, _, _, _, _, _, [], htext, windowsField_fixedDigits ?_ ?_,
    windowsField_fixedDigits ?_ ?_, windowsField_fixedDigits ?_ ?_, windowsField_fixedDigits ?_ ?_,
    windowsField_fixedDigits ?_ ?_, windowsField_fixedDigits ?_ ?_, .inl rfl, ?_⟩
  all_goals try simp only [Tm.ints]
  all_goals omega

theorem IsStamp.strptimeWindows_eq {s : String} {tm : Tm} (h : IsStamp s tm) :
    strptimeWindows s = some tm.ints := strptimeWindows_eq_some_iff.mpr h.windows

/-! ## 3. The two of them -/

/-- Both branches accept `s` exactly if it is a complete stamp, with the same fields, and what is
no stamp has expired on both. -/
structure ParsersAgree (s : String) : Prop where
  posix : ∀ tm, strptimeIso8601Utc s = some tm ↔ IsStamp s tm
  windows : ∀ tm, strptimeWindows s = some tm ↔ ∃ fields, IsStamp s fields ∧ tm = fields.ints
  expired : s ≠ "" → (∀ tm, ¬ IsStamp s tm) → ∀ mkgmtime now,
    isExpired now s = true ∧ isExpiredWindows mkgmtime now s = true

/-- **The two readers of a stamp are equivalent and strict** exactly on the strings that are
complete stamps or that neither of them takes for one. -/
theorem parsers_agree_iff (s : String) :
    ParsersAgree s ↔
      ((∃ tm, PosixStamp s tm) ∨ (∃ tm, WindowsStamp s tm) → ∃ tm, IsStamp s tm) := by
  constructor
  · rintro h (⟨tm, hposix⟩ | ⟨tm, hwindows⟩)
    · exact ⟨tm, (h.posix tm).mp (strptimeIso8601Utc_eq_some_iff.mpr hposix)⟩
    · obtain ⟨fields, hstamp, -⟩ := (h.windows tm).mp (strptimeWindows_eq_some_iff.mpr hwindows)
      exact ⟨fields, hstamp⟩
  · intro h
    have hposix : ∀ tm, strptimeIso8601Utc s = some tm ↔ IsStamp s tm := by
      intro tm
      refine ⟨fun hread => ?_, IsStamp.strptime_eq⟩
      obtain ⟨fields, hstamp⟩ := h (.inl ⟨tm, strptimeIso8601Utc_eq_some_iff.mp hread⟩)
      rw [hstamp.strptime_eq, Option.some.injEq] at hread
      exact hread ▸ hstamp
    have hwindows : ∀ tm, strptimeWindows s = some tm ↔
        ∃ fields, IsStamp s fields ∧ tm = fields.ints := by
      intro tm
      constructor
      · intro hread
        obtain ⟨fields, hstamp⟩ := h (.inr ⟨tm, strptimeWindows_eq_some_iff.mp hread⟩)
        rw [hstamp.strptimeWindows_eq, Option.some.injEq] at hread
        exact ⟨fields, hstamp, hread.symm⟩
      · rintro ⟨fields, hstamp, rfl⟩
        exact hstamp.strptimeWindows_eq
    refine ⟨hposix, hwindows, fun hne hnone mkgmtime now => ?_⟩
    have hp : strptimeIso8601Utc s = none :=
      Option.eq_none_iff_forall_ne_some.mpr fun tm hread => hnone tm ((hposix tm).mp hread)
    have hw : strptimeWindows s = none :=
      Option.eq_none_iff_forall_ne_some.mpr fun tm hread =>
        have ⟨fields, hstamp, _⟩ := (hwindows tm).mp hread
        hnone fields hstamp
    simp [isExpired, isExpiredWindows, deadline, hp, hw, hne]

/-- Text after the `Z` keeps a token alive where there is `strptime`. -/
theorem trailing_text_accepted : ¬ ∀ s, ParsersAgree s := by
  intro h
  have hread : strptimeIso8601Utc "2030-01-01T00:00:00Zx" = some ⟨2030, 1, 1, 0, 0, 0⟩ := by
    decide +kernel
  obtain ⟨htext, -⟩ := ((h _).posix _).mp hread
  exact absurd htext (by decide)

example : strptimeWindows " 2030-01-01T00:-1:00Z" = some ⟨2030, 1, 1, 0, -1, 0⟩ := by
  decide +kernel

end Logosctl.Time
