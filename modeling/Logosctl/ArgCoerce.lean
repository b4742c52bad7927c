/-
# What a scalar argument becomes

An argument on the command line has no type, so `call` infers one.  A decimal number is a number,
`true` and `false` are booleans, and everything else is the text as it was typed.  The numbers are
read by three functions of the C library, which accept far more than decimal numbers and of which
each has its own range, so that the order in which they are tried and the grammar in front of them
matter.

`scalar_exact`: an integer that fits either 64-bit type is that integer, and what is no number and
no boolean is untouched.

A text is the list of its bytes, a byte being the character with its number.
-/
import Logosctl.Json
import Logosctl.Library.Decimal
import Mathlib.Data.List.DropRight
import Mathlib.Data.List.TakeWhile
import Mathlib.Tactic.Common

namespace Logosctl.ArgCoerce

open Library

/-! ## 1. The source -/

/-- `strutil::trim`; the blanks it lists are those of `isspace`. -/
def trim (s : List Char) : List Char := (s.dropWhile isSpace).rdropWhile isSpace

/-- What follows a sign, if there is one. -/
def skipSign : List Char → List Char
  | [] => []
  | c :: cs => if c = '+' ∨ c = '-' then cs else c :: cs

/-- The digits behind a point, if there is one, and what follows. -/
def fraction : List Char → List Char × List Char
  | [] => ([], [])
  | c :: cs =>
    if c = '.' then (cs.takeWhile Char.isDigit, cs.dropWhile Char.isDigit) else ([], c :: cs)

/-- Whether the rest is an exponent, or nothing at all. -/
def endsAfterExponent : List Char → Bool
  | [] => true
  | c :: cs =>
    if c = 'e' ∨ c = 'E' then
      !((skipSign cs).takeWhile Char.isDigit).isEmpty &&
        ((skipSign cs).dropWhile Char.isDigit).isEmpty
    else false

def isDecimalNumber (text : List Char) : Bool :=
  let intDigits := (skipSign text).takeWhile Char.isDigit
  let (fracDigits, rest) := fraction ((skipSign text).dropWhile Char.isDigit)
  if intDigits.isEmpty && fracDigits.isEmpty then false else endsAfterExponent rest

/-- What `strtoll` and `strtoull` read: blanks, a sign and digits.  Whether the sign is a minus, the
number, and how many characters that were. -/
def readInteger (s : List Char) : Option (Bool × Nat × Nat) :=
  let signed := s.dropWhile isSpace
  let digits := (skipSign signed).takeWhile Char.isDigit
  if digits.isEmpty then none
  else
    some (signed.head? == some '-', value digits,
      s.length - (skipSign signed).length + digits.length)

/-- `std::stoll`, with `pos`; nothing when it throws. -/
def stoll (s : List Char) : Option (Int × Nat) :=
  (readInteger s).bind fun (negative, n, pos) =>
    let i : Int := if negative then -n else n
    if -2 ^ 63 ≤ i ∧ i < 2 ^ 63 then some (i, pos) else none

/-- `std::stoull`: a minus negates what was read within the type. -/
def stoull (s : List Char) : Option (Int × Nat) :=
  (readInteger s).bind fun (negative, n, pos) =>
    if n < 2 ^ 64 then some (if negative then ((2 ^ 64 - n) % 2 ^ 64 : Nat) else n, pos) else none

/-- A conversion counts when it has consumed the whole text. -/
def whole {α : Type} (num : List Char) (r : Option (α × Nat)) : Option α :=
  r.bind fun (x, pos) => if pos = num.length then some x else none

/-- `argcoerce::scalar`.  `std::stod` answers a double `m * 2 ^ e`. -/
def scalar (stod : List Char → Option ((Int × Int) × Nat)) (text : String) : Json :=
  if text = "true" then .bool true
  else if text = "false" then .bool false
  else
    let num := trim text.toList
    if !isDecimalNumber num then .str text
    else
      match whole num (stoll num) with
      | some intVal => .int intVal
      | none =>
        match if num.head? != some '-' then whole num (stoull num) else none with
        | some uintVal => .int uintVal
        | none =>
          match whole num (stod num) with
          | some (m, e) => .float m e
          | none => .str text

/-! ## 2. The grammar -/

def IsSign (s : List Char) : Prop := s = [] ∨ s = ['+'] ∨ s = ['-']

/-- A point with digits behind it, or nothing. -/
def IsFraction (f digits : List Char) : Prop :=
  Digits digits ∧ (f = [] ∧ digits = [] ∨ f = '.' :: digits)

/-- An `e` with digits behind it that may have a sign, or nothing. -/
def IsExponent (x : List Char) : Prop :=
  x = [] ∨ ∃ e sign digits, (e = 'e' ∨ e = 'E') ∧ IsSign sign ∧ Digits digits ∧ digits ≠ [] ∧
    x = e :: (sign ++ digits)

/-- **A decimal number**: a digit at least on one side of the point. -/
def IsDecimal (text : List Char) : Prop :=
  ∃ sign int frac fracDigits exponent, IsSign sign ∧ Digits int ∧ IsFraction frac fracDigits ∧
    (int ≠ [] ∨ fracDigits ≠ []) ∧ IsExponent exponent ∧
    text = sign ++ (int ++ (frac ++ exponent))

/-- **An integer**: digits that may have a sign, and the number they denote. -/
def DenotesInt (text : List Char) (i : Int) : Prop :=
  ∃ sign digits, Digits digits ∧ digits ≠ [] ∧ text = sign ++ digits ∧
    ((sign = [] ∨ sign = ['+']) ∧ i = value digits ∨ sign = ['-'] ∧ i = -(value digits : Int))

section Grammar

variable {s ds rest f x text : List Char} {c : Char} {i : Int}

/-- Digits are read up to the first character that is none. -/
theorem span_digits (hds : Digits ds) (hrest : ∀ c ∈ rest.head?, c.isDigit = false) :
    (ds ++ rest).takeWhile Char.isDigit = ds ∧ (ds ++ rest).dropWhile Char.isDigit = rest := by
  rw [List.takeWhile_append_of_pos hds, List.dropWhile_append_of_pos hds]
  cases rest with
  | nil => simp
  | cons c cs =>
    have hc := hrest c rfl
    rw [List.takeWhile_cons_of_neg (by simp [hc]), List.dropWhile_cons_of_neg (by simp [hc])]
    exact ⟨List.append_nil _, rfl⟩

theorem span_digits_all (hds : Digits ds) :
    ds.takeWhile Char.isDigit = ds ∧ ds.dropWhile Char.isDigit = [] := by
  have hspan : (ds ++ []).takeWhile Char.isDigit = ds ∧ (ds ++ []).dropWhile Char.isDigit = [] :=
    span_digits hds nofun
  rwa [List.append_nil] at hspan

theorem digits_takeWhile (cs : List Char) : Digits (cs.takeWhile Char.isDigit) :=
  fun _ hc => List.mem_takeWhile_imp hc

theorem skipSign_append (hs : IsSign s) (hrest : ∀ c ∈ rest.head?, c ≠ '+' ∧ c ≠ '-') :
    skipSign (s ++ rest) = rest := by
  rcases hs with rfl | rfl | rfl
  · cases rest with
    | nil => rfl
    | cons c cs => exact if_neg (not_or.mpr (hrest c rfl))
  · rfl
  · rfl

theorem exists_sign (cs : List Char) : ∃ s, IsSign s ∧ cs = s ++ skipSign cs := by
  cases cs with
  | nil => exact ⟨[], Or.inl rfl, rfl⟩
  | cons c cs =>
    by_cases hc : c = '+' ∨ c = '-'
    · refine ⟨[c], ?_, ?_⟩
      · rcases hc with rfl | rfl
        · exact Or.inr (Or.inl rfl)
        · exact Or.inr (Or.inr rfl)
      · rw [skipSign, if_pos hc, List.singleton_append]
    · exact ⟨[], Or.inl rfl, by rw [skipSign, if_neg hc, List.nil_append]⟩

/-- A digit is no sign, no point and no `e`. -/
theorem ne_of_isDigit (h : c.isDigit = true) :
    (c ≠ '+' ∧ c ≠ '-') ∧ c ≠ '.' ∧ ¬ (c = 'e' ∨ c = 'E') := by
  have hnone : ['+', '-', '.', 'e', 'E'].all (fun d => !d.isDigit) = true := by decide
  have hne : ∀ d ∈ ['+', '-', '.', 'e', 'E'], c ≠ d := by
    rintro d hd rfl
    have := List.all_eq_true.mp hnone c hd
    simp [h] at this
  simp only [List.forall_mem_cons] at hne
  simp [hne]

/-- Digits, or what does not begin with a sign, do not begin with a sign. -/
theorem head_ne_sign (hds : Digits ds) (hrest : ∀ c ∈ rest.head?, c ≠ '+' ∧ c ≠ '-') :
    ∀ c ∈ (ds ++ rest).head?, c ≠ '+' ∧ c ≠ '-' := by
  cases ds with
  | nil => exact hrest
  | cons d ds =>
    rintro c ⟨⟩
    exact (ne_of_isDigit (hds _ List.mem_cons_self)).1

theorem fraction_spec (cs : List Char) :
    ∃ f, IsFraction f (fraction cs).1 ∧ cs = f ++ (fraction cs).2 := by
  cases cs with
  | nil => exact ⟨[], ⟨digits_nil, Or.inl ⟨rfl, rfl⟩⟩, rfl⟩
  | cons c cs =>
    by_cases hc : c = '.'
    · subst hc
      rw [fraction, if_pos rfl]
      exact ⟨_, ⟨digits_takeWhile cs, Or.inr rfl⟩, by simp⟩
    · rw [fraction, if_neg hc]
      exact ⟨[], ⟨digits_nil, Or.inl ⟨rfl, rfl⟩⟩, rfl⟩

/-- An exponent begins with an `e`, if with anything. -/
theorem IsExponent.head (hx : IsExponent x) :
    ∀ c ∈ x.head?, c.isDigit = false ∧ c ≠ '.' ∧ c ≠ '+' ∧ c ≠ '-' := by
  rcases hx with rfl | ⟨e, sign, digits, rfl | rfl, -, -, -, rfl⟩
  · exact nofun
  · rintro c ⟨⟩
    decide
  · rintro c ⟨⟩
    decide

theorem fraction_append (hf : IsFraction f ds) (hx : IsExponent x) :
    fraction (f ++ x) = (ds, x) := by
  obtain ⟨hds, ⟨rfl, rfl⟩ | rfl⟩ := hf
  · cases x with
    | nil => rfl
    | cons c x => exact if_neg (hx.head c rfl).2.1
  · obtain ⟨htake, hdrop⟩ := span_digits hds fun c hc => (hx.head c hc).1
    rw [List.cons_append, fraction, if_pos rfl, htake, hdrop]

theorem endsAfterExponent_iff : endsAfterExponent x = true ↔ IsExponent x := by
  constructor
  · intro h
    cases x with
    | nil => exact Or.inl rfl
    | cons e x =>
      by_cases he : e = 'e' ∨ e = 'E'
      · rw [endsAfterExponent, if_pos he, Bool.and_eq_true, Bool.not_eq_true',
          List.isEmpty_eq_false_iff, List.isEmpty_iff] at h
        obtain ⟨hdigits, hend⟩ := h
        obtain ⟨sign, hsign, hx⟩ := exists_sign x
        refine Or.inr ⟨e, sign, _, he, hsign, digits_takeWhile (skipSign x), hdigits, ?_⟩
        have hall := List.takeWhile_append_dropWhile (p := Char.isDigit) (l := skipSign x)
        rw [hend, List.append_nil] at hall
        rw [hall, ← hx]
      · rw [endsAfterExponent, if_neg he] at h
        cases h
  · rintro (rfl | ⟨e, sign, digits, he, hsign, hdigits, hne, rfl⟩)
    · rfl
    · have hskip : skipSign (sign ++ digits) = digits := skipSign_append hsign fun c hc =>
        (ne_of_isDigit (hdigits c (List.mem_of_mem_head? hc))).1
      obtain ⟨htake, hdrop⟩ := span_digits_all hdigits
      rw [endsAfterExponent, if_pos he, hskip, htake, hdrop]
      simpa using hne

/-- **`isDecimalNumber` decides the grammar.** -/
theorem isDecimalNumber_iff : isDecimalNumber text = true ↔ IsDecimal text := by
  constructor
  · intro h
    simp only [isDecimalNumber] at h
    obtain ⟨sign, hsign, htext⟩ := exists_sign text
    obtain ⟨frac, hfrac, hrest⟩ := fraction_spec ((skipSign text).dropWhile Char.isDigit)
    split at h
    · cases h
    · next hsome =>
      rw [Bool.and_eq_true, List.isEmpty_iff, List.isEmpty_iff, not_and_or] at hsome
      refine ⟨sign, _, frac, _, _, hsign, digits_takeWhile (skipSign text), hfrac, hsome,
        endsAfterExponent_iff.mp h, ?_⟩
      rw [← hrest, List.takeWhile_append_dropWhile, ← htext]
  · rintro ⟨sign, int, frac, fracDigits, exponent, hsign, hint, hfrac, hsome, hexp, rfl⟩
    have hfracHead : ∀ c ∈ (frac ++ exponent).head?,
        c.isDigit = false ∧ c ≠ '+' ∧ c ≠ '-' := by
      obtain ⟨-, ⟨rfl, -⟩ | rfl⟩ := hfrac
      · exact fun c hc => ⟨(hexp.head c hc).1, (hexp.head c hc).2.2⟩
      · rintro c ⟨⟩
        decide
    have hskip := skipSign_append hsign (head_ne_sign hint fun c hc => (hfracHead c hc).2)
    obtain ⟨htake, hdrop⟩ := span_digits hint fun c hc => (hfracHead c hc).1
    simp only [isDecimalNumber, hskip, htake, hdrop, fraction_append hfrac hexp]
    rw [if_neg (by simpa only [Bool.and_eq_true, List.isEmpty_iff, not_and_or] using hsome)]
    exact endsAfterExponent_iff.mpr hexp

theorem DenotesInt.isDecimal (h : DenotesInt text i) : IsDecimal text := by
  obtain ⟨sign, digits, hdigits, hne, rfl, hsign⟩ := h
  refine ⟨sign, digits, [], [], [], ?_, hdigits, ⟨digits_nil, Or.inl ⟨rfl, rfl⟩⟩, Or.inl hne,
    Or.inl rfl, by simp⟩
  rcases hsign with ⟨rfl | rfl, -⟩ | ⟨rfl, -⟩
  · exact Or.inl rfl
  · exact Or.inr (Or.inl rfl)
  · exact Or.inr (Or.inr rfl)

end Grammar

/-! ## 3. The conversions -/

section Conversions

variable {num : List Char} {i : Int}

/-- Of an integer all is read. -/
theorem readInteger_of_denotesInt (h : DenotesInt num i) :
    ∃ negative n, readInteger num = some (negative, n, num.length) ∧
      i = (if negative then -n else n : Int) ∧ (negative = false ↔ num.head? ≠ some '-') := by
  obtain ⟨sign, digits, hdigits, hne, rfl, hsign⟩ := h
  have hhead : ∀ c ∈ digits.head?, c ≠ '+' ∧ c ≠ '-' :=
    fun c hc => (ne_of_isDigit (hdigits c (List.mem_of_mem_head? hc))).1
  have hsign' : IsSign sign := by
    rcases hsign with ⟨rfl | rfl, -⟩ | ⟨rfl, -⟩
    · exact Or.inl rfl
    · exact Or.inr (Or.inl rfl)
    · exact Or.inr (Or.inr rfl)
  have hblank : (sign ++ digits).dropWhile isSpace = sign ++ digits := by
    rcases hsign' with rfl | rfl | rfl
    · cases digits with
      | nil => rfl
      | cons d ds =>
        have hd := isSpace_eq_false_of_isDigit (hdigits d List.mem_cons_self)
        exact List.dropWhile_cons_of_neg (by simp [hd])
    · rfl
    · rfl
  have htake := (span_digits_all hdigits).1
  refine ⟨(sign ++ digits).head? == some '-', value digits, ?_, ?_, by simp⟩
  · simp only [readInteger, hblank, skipSign_append hsign' hhead, htake]
    rw [if_neg (by simpa using hne), List.length_append]
    simp
  · have hminus : ∀ ds : List Char, Digits ds → (ds.head? == some '-') = false := by
      intro ds hds
      cases ds with
      | nil => rfl
      | cons d ds => simpa using (ne_of_isDigit (hds d List.mem_cons_self)).1.2
    rcases hsign with ⟨rfl | rfl, rfl⟩ | ⟨rfl, rfl⟩
    · simp [hminus digits hdigits]
    · simp
    · simp

theorem whole_some {α : Type} (num : List Char) (x : α) :
    whole num (some (x, num.length)) = some x := if_pos rfl

/-- The signed conversion takes what fits it. -/
theorem stoll_of_denotesInt (h : DenotesInt num i) :
    stoll num = if -2 ^ 63 ≤ i ∧ i < 2 ^ 63 then some (i, num.length) else none := by
  obtain ⟨negative, n, hread, rfl, -⟩ := readInteger_of_denotesInt h
  rw [stoll, hread]
  rfl

/-- The unsigned one takes what is too large for the other. -/
theorem stoull_of_denotesInt (h : DenotesInt num i) (hmin : 2 ^ 63 ≤ i) (hmax : i < 2 ^ 64) :
    num.head? ≠ some '-' ∧ stoull num = some (i, num.length) := by
  obtain ⟨negative, n, hread, rfl, hhead⟩ := readInteger_of_denotesInt h
  cases negative with
  | true => simp at hmin; omega
  | false =>
    refine ⟨hhead.mp rfl, ?_⟩
    have hfits : n < 2 ^ 64 := by simp at hmax; omega
    rw [stoull, hread]
    exact if_pos hfits

end Conversions

/-! ## 4. Scalars -/

section Scalar

variable (stod : List Char → Option ((Int × Int) × Nat)) (text : String)

/-- **Scalars are exact**: an integer of 64 bits, signed or not, is that integer, whatever `stod`
does, and what is neither a decimal number nor a boolean is the text itself. -/
theorem scalar_exact :
    (∀ i : Int, DenotesInt (trim text.toList) i → -2 ^ 63 ≤ i → i < 2 ^ 64 →
      scalar stod text = .int i) ∧
    (¬ IsDecimal (trim text.toList) → text ≠ "true" → text ≠ "false" →
      scalar stod text = .str text) := by
  constructor
  · intro i hi hmin hmax
    have hdecimal := isDecimalNumber_iff.mpr hi.isDecimal
    have htrue : text ≠ "true" := by
      rintro rfl
      exact absurd hdecimal (by decide)
    have hfalse : text ≠ "false" := by
      rintro rfl
      exact absurd hdecimal (by decide)
    simp only [scalar, if_neg htrue, if_neg hfalse, hdecimal, Bool.not_true, Bool.false_eq_true,
      if_false, stoll_of_denotesInt hi]
    by_cases hsmall : i < 2 ^ 63
    · rw [if_pos ⟨hmin, hsmall⟩, whole_some]
    · obtain ⟨hhead, hstoull⟩ := stoull_of_denotesInt hi (Int.not_lt.mp hsmall) hmax
      rw [if_neg fun h => hsmall h.2]
      simp only [whole, Option.bind_none, hstoull, bne_iff_ne, ne_eq, hhead, not_false_iff, if_true,
        Option.bind_some]
  · intro hnone htrue hfalse
    have hdecimal : isDecimalNumber (trim text.toList) = false :=
      Bool.eq_false_iff.mpr fun h => hnone (isDecimalNumber_iff.mp h)
    simp only [scalar, if_neg htrue, if_neg hfalse, hdecimal, Bool.not_false, if_true]

end Scalar

/-- What `std::stod` makes of a hexadecimal number, and of one just below `2 ^ 64`, which it
rounds. -/
def stodOfTwo (num : List Char) : Option ((Int × Int) × Nat) :=
  if num = "0x1F".toList then some ((31, 0), num.length) else some ((1, 64), num.length)

/-- Neither becomes a double. -/
theorem two_scalars :
    scalar stodOfTwo " +18446744073709551615\n" = .int 18446744073709551615 ∧
      scalar stodOfTwo "0x1F" = .str "0x1F" := by
  refine ⟨(scalar_exact stodOfTwo _).1 _ ?_ (by decide) (by decide),
    (scalar_exact stodOfTwo "0x1F").2 ?_ (by decide) (by decide)⟩
  · exact ⟨['+'], "18446744073709551615".toList, by decide, by decide, by decide,
      Or.inl ⟨Or.inr rfl, by decide⟩⟩
  · rw [← isDecimalNumber_iff]
    decide

end Logosctl.ArgCoerce
