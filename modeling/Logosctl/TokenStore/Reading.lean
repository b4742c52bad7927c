/-
# Reading whatever is in `tokens.json`

The token list is read when a client authenticates, when tokens are listed and before one is
issued, and what is in the file may be anything.  Nothing of what is there is meant to raise an
exception, and a file that is not of the current version is meant to let nobody in.

The reads are `value(key, default)`, which raise one on a member of another type, and on a document
that is no object; and the version is converted to `int` before it is compared.  `Readable` says
which files raise none, and `readsSafely_iff` when the file is read as it is meant to be.
-/
import Logosctl.TokenStore

namespace Logosctl.TokenStore

open Library

/-! ## 1. Members as they are read -/

section Members

variable {j : Json} {key s : String} {b : Bool}

/-- The member is a string, or there is none. -/
def TextOrAbsent (j : Json) (key : String) : Prop := ∀ v, j.find? key = some v → v.isString = true

@[inherit_doc TextOrAbsent] def FlagOrAbsent (j : Json) (key : String) : Prop :=
  ∀ v, j.find? key = some v → v.isBoolean = true

theorem valueStr_eq_ok_iff (hobj : j.isObject = true) :
    j.valueStr key = .ok s ↔ TextOrAbsent j key ∧ j.textOf key = s := by
  cases j with
  | obj kvs =>
    simp only [Json.valueStr, Json.value, TextOrAbsent, Json.textOf, Json.find?]
    rcases kvs.lookup key with _ | v
    · simp
    · cases v <;> simp [Json.getString, Json.isString]
  | _ => cases hobj

theorem valueBool_eq_ok_iff (hobj : j.isObject = true) :
    j.valueBool key false = .ok b ↔ FlagOrAbsent j key ∧ j.flagOf key = b := by
  cases j with
  | obj kvs =>
    simp only [Json.valueBool, Json.value, FlagOrAbsent, Json.flagOf, Json.find?]
    rcases kvs.lookup key with _ | v
    · simp
    · cases v <;> simp [Json.getBool, Json.isBoolean]
  | _ => cases hobj

/-- An expiry may also be null. -/
def ExpiryReadable (j : Json) : Prop :=
  ∀ v, j.find? "expires_at" = some v → v.isNull = true ∨ v.isString = true

theorem expiresAtFromJson_eq_ok_iff (hobj : j.isObject = true) :
    expiresAtFromJson j = .ok s ↔ ExpiryReadable j ∧ j.textOf "expires_at" = s := by
  unfold expiresAtFromJson ExpiryReadable
  rcases hfind : j.find? "expires_at" with _ | v
  · simp [Json.textOf, hfind, pure, Except.pure]
  · cases v with
    | null => simp [Json.textOf, hfind, Json.isNull, pure, Except.pure]
    | _ => simp [valueStr_eq_ok_iff hobj, TextOrAbsent, hfind, Json.isNull]

end Members

/-! ## 2. Entries and files as they are read -/

/-- The members of an entry are of the types they are read at.  What is no object is passed over,
and of what has no name or no hash nothing more is read. -/
structure EntryReadable (j : Json) : Prop where
  name : TextOrAbsent j "name"
  hash : TextOrAbsent j "hash"
  issuedAt : TextOrAbsent j "issued_at"
  rest : j.textOf "name" ≠ "" → j.textOf "hash" ≠ "" →
    ExpiryReadable j ∧ FlagOrAbsent j "local_only"

/-- The entry that is read, if it is one. -/
def entryOf (j : Json) : Option TokenEntry :=
  if j.isObject ∧ j.textOf "name" ≠ "" ∧ j.textOf "hash" ≠ "" then
    some ⟨j.textOf "name", j.textOf "hash", j.textOf "issued_at", j.textOf "expires_at",
      j.flagOf "local_only"⟩
  else none

/-- The number 2, however it is written. -/
def IsTwo : Json → Prop
  | .int i => i = 2
  | .float m e => m * 2 ^ e.toNat = 2 * 2 ^ (-e).toNat
  | _ => False

namespace FileContent

/-- The version converts to 2. -/
def CountsAsTwo : FileContent → Prop
  | .document j => ∃ v, j.find? "version" = some v ∧ v.getInt = .ok kTokensFileSchemaVersion
  | _ => False

/-- The entries of the file. -/
def entries : FileContent → List Json
  | .document j => ((j.find? "tokens").map Json.elems).getD []
  | _ => []

/-- Reading the file raises no exception. -/
structure Readable (f : FileContent) : Prop where
  object : ∀ j, f = .document j → j.isObject = true
  version : ∀ j v, f = .document j → j.find? "version" = some v →
    v.isNumber = true ∨ v.isBoolean = true
  entries : f.CountsAsTwo → ∀ j ∈ f.entries, j.isObject = true → EntryReadable j

/-- The file is a document of schema version 2. -/
def IsCurrent : FileContent → Prop
  | .document j => ∃ v, j.find? "version" = some v ∧ IsTwo v
  | _ => False

end FileContent

section Read

variable {j : Json} {o : Option TokenEntry} {js : List Json} {es : List TokenEntry}
  {f : FileContent}

theorem tokenEntryFromJson_eq_ok_iff : tokenEntryFromJson j = .ok o ↔
    (j.isObject = true → EntryReadable j) ∧ o = entryOf j := by
  by_cases hobj : j.isObject = true
  · have hentry : entryOf j = if j.textOf "name" ≠ "" ∧ j.textOf "hash" ≠ "" then
        some ⟨j.textOf "name", j.textOf "hash", j.textOf "issued_at", j.textOf "expires_at",
          j.flagOf "local_only"⟩ else none := by
      simp only [entryOf, hobj, true_and]
    have hempty : ((j.textOf "name").isEmpty || (j.textOf "hash").isEmpty) = true ↔
        ¬ (j.textOf "name" ≠ "" ∧ j.textOf "hash" ≠ "") := by
      simp [or_iff_not_imp_left]
    simp only [tokenEntryFromJson, hobj, Bool.not_true, Bool.false_eq_true, if_false,
      except_bind_eq_ok, valueStr_eq_ok_iff hobj, true_imp_iff]
    constructor
    · rintro ⟨name, ⟨hname, rfl⟩, hash, ⟨hhash, rfl⟩, issuedAt, ⟨hissued, rfl⟩, hrest⟩
      by_cases hnamed : j.textOf "name" ≠ "" ∧ j.textOf "hash" ≠ ""
      · rw [if_neg (by rw [hempty]; exact not_not.mpr hnamed)] at hrest
        simp only [except_bind_eq_ok, expiresAtFromJson_eq_ok_iff hobj,
          valueBool_eq_ok_iff hobj] at hrest
        obtain ⟨_, ⟨hexpires, rfl⟩, _, ⟨hlocal, rfl⟩, hres⟩ := hrest
        refine ⟨⟨hname, hhash, hissued, fun _ _ => ⟨hexpires, hlocal⟩⟩, ?_⟩
        rw [hentry, if_pos hnamed]
        exact (Except.ok.inj hres).symm
      · rw [if_pos (hempty.mpr hnamed)] at hrest
        refine ⟨⟨hname, hhash, hissued, fun h₁ h₂ => absurd ⟨h₁, h₂⟩ hnamed⟩, ?_⟩
        rw [hentry, if_neg hnamed]
        exact (Except.ok.inj hrest).symm
    · rintro ⟨hreadable, rfl⟩
      refine ⟨_, ⟨hreadable.name, rfl⟩, _, ⟨hreadable.hash, rfl⟩, _, ⟨hreadable.issuedAt, rfl⟩, ?_⟩
      by_cases hnamed : j.textOf "name" ≠ "" ∧ j.textOf "hash" ≠ ""
      · obtain ⟨hexpires, hlocal⟩ := hreadable.rest hnamed.1 hnamed.2
        rw [if_neg (by rw [hempty]; exact not_not.mpr hnamed), hentry, if_pos hnamed]
        simp only [except_bind_eq_ok, expiresAtFromJson_eq_ok_iff hobj, valueBool_eq_ok_iff hobj]
        exact ⟨_, ⟨hexpires, rfl⟩, _, ⟨hlocal, rfl⟩, rfl⟩
      · rw [if_pos (hempty.mpr hnamed), hentry, if_neg hnamed]
        rfl
  · have hentry : entryOf j = none := if_neg fun h => hobj h.1
    rw [hentry, tokenEntryFromJson, if_pos (by simpa using hobj)]
    constructor
    · exact fun h => ⟨fun h' => absurd h' hobj, (Except.ok.inj h).symm⟩
    · rintro ⟨-, rfl⟩
      rfl

/-- The loop reads the entries when each of them is readable. -/
theorem readEntries_eq_ok_iff : readEntries js = .ok es ↔
    (∀ j ∈ js, j.isObject = true → EntryReadable j) ∧ es = js.filterMap entryOf := by
  induction js generalizing es with
  | nil =>
    simp only [readEntries, pure, Except.pure, Except.ok.injEq, List.filterMap_nil]
    exact ⟨fun h => ⟨nofun, h.symm⟩, fun h => h.2.symm⟩
  | cons j js ih =>
    simp only [readEntries, except_bind_eq_ok, tokenEntryFromJson_eq_ok_iff, ih,
      List.forall_mem_cons]
    have hcons : (entryOf j).toList ++ js.filterMap entryOf = (j :: js).filterMap entryOf := by
      rw [List.filterMap_cons]
      cases entryOf j <;> rfl
    constructor
    · rintro ⟨_, ⟨hj, rfl⟩, _, ⟨hjs, rfl⟩, hres⟩
      exact ⟨⟨hj, hjs⟩, (Except.ok.inj hres).symm.trans hcons⟩
    · rintro ⟨⟨hj, hjs⟩, rfl⟩
      exact ⟨_, ⟨hj, rfl⟩, _, ⟨hjs, rfl⟩, congrArg Except.ok hcons⟩

theorem exists_getInt_iff {v : Json} :
    (∃ i, v.getInt = .ok i) ↔ v.isNumber = true ∨ v.isBoolean = true := by
  cases v <;> simp [Json.getInt, Json.isNumber, Json.isBoolean]

/-- The version as the reader has it; what has none counts as 0. -/
theorem valueInt_eq_ok_iff {i : Int} (hobj : j.isObject = true) :
    j.valueInt "version" 0 = .ok i ↔ (j.find? "version" = none ∧ i = 0) ∨
      ∃ v, j.find? "version" = some v ∧ v.getInt = .ok i := by
  cases j with
  | obj kvs =>
    simp only [Json.valueInt, Json.value, Json.find?]
    rcases kvs.lookup "version" with _ | v
    · simp [eq_comm]
    · simp
  | _ => cases hobj

/-- A version that can be read is there or not. -/
theorem exists_valueInt_iff (hobj : j.isObject = true) :
    (∃ i, j.valueInt "version" 0 = .ok i) ↔
      ∀ v, j.find? "version" = some v → v.isNumber = true ∨ v.isBoolean = true := by
  simp only [valueInt_eq_ok_iff hobj, ← exists_getInt_iff]
  rcases j.find? "version" with _ | v
  · simp
  · simp

theorem valueInt_eq_two_iff (hobj : j.isObject = true) :
    j.valueInt "version" 0 = .ok kTokensFileSchemaVersion ↔
      (FileContent.document j).CountsAsTwo := by
  rw [valueInt_eq_ok_iff hobj, FileContent.CountsAsTwo]
  exact or_iff_right fun h => absurd h.2 (by decide)

theorem readable_document_iff : (FileContent.document j).Readable ↔ j.isObject = true ∧
    (∃ i, j.valueInt "version" 0 = .ok i) ∧ ((FileContent.document j).CountsAsTwo →
      ∀ e ∈ (FileContent.document j).entries, e.isObject = true → EntryReadable e) := by
  constructor
  · intro h
    have hobj := h.object j rfl
    exact ⟨hobj, (exists_valueInt_iff hobj).mpr fun v hv => h.version j v rfl hv, h.entries⟩
  · rintro ⟨hobj, hversion, hentries⟩
    refine ⟨?_, ?_, hentries⟩
    · rintro _ ⟨⟩
      exact hobj
    · rintro _ v ⟨⟩ hv
      exact (exists_valueInt_iff hobj).mp hversion v hv

/-- Whatever `tokens` is, it is the entries that are read. -/
theorem read_document : TokensFile.read (.document j) =
    (do
      let v ← j.valueInt "version" 0
      if v ≠ kTokensFileSchemaVersion then pure []
      else readEntries (FileContent.document j).entries) := by
  refine congrArg (j.valueInt "version" 0 >>= ·) (funext fun v => ?_)
  unfold FileContent.entries
  dsimp only
  split
  · rfl
  · rcases j.find? "tokens" with _ | ⟨_ | _ | _ | _ | _ | xs | _⟩ <;> rfl

/-- **What is read of a document**: nothing unless it counts as version 2, and then its entries. -/
theorem read_document_eq_ok_iff : TokensFile.read (.document j) = .ok es ↔
    (FileContent.document j).Readable ∧
      ((FileContent.document j).CountsAsTwo →
        es = (FileContent.document j).entries.filterMap entryOf) ∧
      (¬ (FileContent.document j).CountsAsTwo → es = []) := by
  rw [read_document, except_bind_eq_ok, readable_document_iff]
  constructor
  · rintro ⟨i, hi, hrest⟩
    have hobj := Json.isObject_of_value hi
    by_cases htwo : (FileContent.document j).CountsAsTwo
    · have hv := hi.symm.trans ((valueInt_eq_two_iff hobj).mpr htwo)
      rw [if_neg (not_not.mpr (Except.ok.inj hv)), readEntries_eq_ok_iff] at hrest
      exact ⟨⟨hobj, ⟨i, hi⟩, fun _ => hrest.1⟩, fun _ => hrest.2, fun h => absurd htwo h⟩
    · have hne : i ≠ kTokensFileSchemaVersion := by
        rintro rfl
        exact htwo ((valueInt_eq_two_iff hobj).mp hi)
      rw [if_pos hne] at hrest
      exact ⟨⟨hobj, ⟨i, hi⟩, fun h => absurd h htwo⟩, fun h => absurd h htwo,
        fun _ => (Except.ok.inj hrest).symm⟩
  · rintro ⟨⟨hobj, ⟨i, hi⟩, hentries⟩, hlisted, hnone⟩
    refine ⟨i, hi, ?_⟩
    by_cases htwo : (FileContent.document j).CountsAsTwo
    · have hv := hi.symm.trans ((valueInt_eq_two_iff hobj).mpr htwo)
      rw [if_neg (not_not.mpr (Except.ok.inj hv)), readEntries_eq_ok_iff]
      exact ⟨hentries htwo, hlisted htwo⟩
    · have hne : i ≠ kTokensFileSchemaVersion := by
        rintro rfl
        exact htwo ((valueInt_eq_two_iff hobj).mp hi)
      rw [if_pos hne, hnone htwo]
      rfl

/-- The same for a file that may be missing or no JSON, which nothing is read of. -/
theorem read_eq_ok_iff : TokensFile.read f = .ok es ↔
    f.Readable ∧ (f.CountsAsTwo → es = f.entries.filterMap entryOf) ∧
      (¬ f.CountsAsTwo → es = []) := by
  have hnone : ∀ g : FileContent, (∀ j, g ≠ .document j) → g.Readable ∧ ¬ g.CountsAsTwo := by
    intro g hg
    have htwo : ¬ g.CountsAsTwo := by
      cases g with
      | document j => exact absurd rfl (hg j)
      | _ => exact id
    exact ⟨⟨fun j h => absurd h (hg j), fun j _ h => absurd h (hg j), fun h => absurd h htwo⟩, htwo⟩
  cases f with
  | document j => exact read_document_eq_ok_iff
  | missing =>
    obtain ⟨hreadable, htwo⟩ := hnone .missing nofun
    simp [TokensFile.read, hreadable, htwo, pure, Except.pure, eq_comm]
  | unparseable =>
    obtain ⟨hreadable, htwo⟩ := hnone .unparseable nofun
    simp [TokensFile.read, hreadable, htwo, pure, Except.pure, eq_comm]

/-- A file is read exactly when it is readable. -/
theorem exists_read_iff : (∃ es, TokensFile.read f = .ok es) ↔ f.Readable := by
  simp only [read_eq_ok_iff]
  refine ⟨fun ⟨_, h, _⟩ => h, fun h => ?_⟩
  by_cases htwo : f.CountsAsTwo
  · exact ⟨_, h, fun _ => rfl, fun hno => absurd htwo hno⟩
  · exact ⟨_, h, fun hyes => absurd hyes htwo, fun _ => rfl⟩

theorem exists_onDiskVersionUnsupported (h : f.Readable) :
    ∃ b, TokensFile.onDiskVersionUnsupported f = .ok b := by
  cases f with
  | document j =>
    obtain ⟨hobj, ⟨i, hi⟩, -⟩ := readable_document_iff.mp h
    refine ⟨i != kTokensFileSchemaVersion, ?_⟩
    simp only [TokensFile.onDiskVersionUnsupported, hobj, Bool.not_true, Bool.false_eq_true,
      if_false, hi]
    rfl
  | _ => exact ⟨false, rfl⟩

end Read

/-! ## 3. Who is let in -/

section Lookup

variable {sha256 : String → Vector UInt8 32} {d : Dir} {f : FileContent} {token tr : String}
  {now : Int} {es : List TokenEntry}

/-- The first entry with the hash lets the caller in: it has not expired, and the transport is the
local one if it has to be. -/
def Admits (es : List TokenEntry) (h transportProtocol : String) (now : Int) : Prop :=
  ∃ e, es.find? (·.hash == h) = some e ∧ Time.isExpired now e.expiresAt = false ∧
    (e.localOnly = true → transportProtocol = "local")

theorem lookupHash_eq_none_iff {h : String} :
    lookupHash h tr now es = none ↔ ¬ Admits es h tr now := by
  unfold Admits
  induction es with
  | nil => simp [lookupHash]
  | cons e es ih =>
    unfold lookupHash
    by_cases hh : e.hash = h
    · rw [if_neg (not_not.mpr hh), List.find?_cons_of_pos (by simpa using hh)]
      cases hexpired : Time.isExpired now e.expiresAt <;> cases hlocal : e.localOnly <;>
        simp [hexpired, hlocal]
    · rw [if_pos hh, ih, List.find?_cons_of_neg (by simpa using hh)]

/-- Reading `tokens.json` as it is meant to be: no operation raises an exception, and of a file that
is not of the current version no token is accepted. -/
structure ReadsSafely (sha256 : String → Vector UInt8 32) (d : Dir) (token tr : String)
    (now : Int) : Prop where
  read : ∃ es, TokensFile.read d.tokens = .ok es
  unsupported : ∃ b, TokensFile.onDiskVersionUnsupported d.tokens = .ok b
  list : ∃ ts, listTokens d = .ok ts
  lookup : ∃ r, lookupByToken sha256 d.tokens token tr now = .ok r
  closed : ¬ d.tokens.IsCurrent → lookupByToken sha256 d.tokens token tr now = .ok none

/-- A lookup in a readable file. -/
theorem lookupByToken_of_readable (h : f.Readable) :
    ∃ r, lookupByToken sha256 f token tr now = .ok r ∧ (r = none ↔ (f.CountsAsTwo → token ≠ "" →
      ¬ Admits (f.entries.filterMap entryOf) (hashToken sha256 token) tr now)) := by
  unfold lookupByToken
  by_cases htoken : token = ""
  · subst htoken
    exact ⟨none, rfl, iff_of_true rfl fun _ h => absurd rfl h⟩
  · obtain ⟨es, hes⟩ := exists_read_iff.mpr h
    obtain ⟨-, hlisted, hnone⟩ := read_eq_ok_iff.mp hes
    rw [if_neg (by simpa using htoken), hes]
    refine ⟨_, rfl, lookupHash_eq_none_iff.trans ?_⟩
    by_cases htwo : f.CountsAsTwo
    · rw [hlisted htwo]
      exact ⟨fun h _ _ => h, fun h => h htwo htoken⟩
    · rw [hnone htwo]
      exact iff_of_true (by simp [Admits]) fun hyes => absurd hyes htwo

/-- **When `tokens.json` is read as it is meant to be**: when its members are of the types they are
read at, and it is not another version that counts as 2 and admits the token. -/
theorem readsSafely_iff : ReadsSafely sha256 d token tr now ↔ d.tokens.Readable ∧
    (d.tokens.CountsAsTwo → ¬ d.tokens.IsCurrent → token ≠ "" →
      ¬ Admits (d.tokens.entries.filterMap entryOf) (hashToken sha256 token) tr now) := by
  constructor
  · intro h
    have hreadable := exists_read_iff.mp h.read
    obtain ⟨r, hr, hnone⟩ := @lookupByToken_of_readable sha256 _ token tr now hreadable
    refine ⟨hreadable, fun htwo hold htoken => ?_⟩
    have hclosed : r = none := Except.ok.inj (hr.symm.trans (h.closed hold))
    exact hnone.mp hclosed htwo htoken
  · rintro ⟨hreadable, hclosed⟩
    obtain ⟨es, hes⟩ := exists_read_iff.mpr hreadable
    obtain ⟨r, hr, hnone⟩ := @lookupByToken_of_readable sha256 _ token tr now hreadable
    refine ⟨⟨es, hes⟩, exists_onDiskVersionUnsupported hreadable, ?_, ⟨r, hr⟩, fun hold => ?_⟩
    · unfold listTokens
      rw [hes]
      exact ⟨_, rfl⟩
    · rw [hr, hnone.mpr fun htwo => hclosed htwo hold]

end Lookup

/-- A `tokens.json` that holds `[]` raises an exception when a client authenticates. -/
theorem array_raises : ¬ ReadsSafely (fun _ => Vector.replicate 32 0)
    ⟨.document (.arr []), fun _ => none, fun _ => none⟩ "token" "local" 0 := by
  intro h
  obtain ⟨r, hr⟩ := h.lookup
  cases hr

end Logosctl.TokenStore
