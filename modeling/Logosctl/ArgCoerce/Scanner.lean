/-
# The scanner for decimal numbers

`isDecimalNumber` goes over the text once, with one index that each of its optional parts may move
and a count of the digits of each part.  Where the index stands, what is ahead of it is what the
parts read so far leave of the text, so the scanner decides the grammar (`scanner_recognises`).
-/
import Logosctl.ArgCoerce

namespace Logosctl.ArgCoerce

open Library

/-! ## 1. The source -/

namespace Scanner

/-- The index behind a sign, if one stands at `i`. -/
def skipSign (text : List Char) (i : Nat) : Nat :=
  if text[i]? = some '+' ∨ text[i]? = some '-' then i + 1 else i

/-- A loop over digits from `i` on: where it ends, and how many digits there are with those counted
before. -/
def skipDigits (text : List Char) (i digits : Nat) : Nat × Nat :=
  if h : i < text.length then
    if text[i].isDigit then skipDigits text (i + 1) (digits + 1) else (i, digits)
  else (i, digits)
termination_by text.length - i

/-- The point and the digits behind it, if there is one at `i`: where they end, and how many digits
they are. -/
def skipFraction (text : List Char) (i : Nat) : Nat × Nat :=
  if text[i]? = some '.' then skipDigits text (i + 1) 0 else (i, 0)

/-- From `i` on, an exponent and then the end, or the end at once. -/
def endsAfterExponent (text : List Char) (i : Nat) : Bool :=
  if text[i]? = some 'e' ∨ text[i]? = some 'E' then
    let (i, expDigits) := skipDigits text (skipSign text (i + 1)) 0
    if expDigits = 0 then false else i == text.length
  else i == text.length

/-- `isDecimalNumber`. -/
def isDecimalNumber (text : List Char) : Bool :=
  let (i, intDigits) := skipDigits text (skipSign text 0) 0
  let (i, fracDigits) := skipFraction text i
  if intDigits = 0 ∧ fracDigits = 0 then false else endsAfterExponent text i

end Scanner

/-! ## 2. Where the index stands -/

section Index

variable {text rest : List Char} {i digits : Nat}

/-- The index stands in front of `rest`. -/
structure At (text : List Char) (i : Nat) (rest : List Char) : Prop where
  le : i ≤ text.length
  ahead : text.drop i = rest

theorem At.head (h : At text i rest) : text[i]? = rest.head? := by
  rw [← h.ahead, List.head?_drop]

/-- The end of the text. -/
theorem At.atEnd (h : At text i rest) : (i == text.length) = rest.isEmpty := by
  rw [← h.ahead, Bool.eq_iff_iff, beq_iff_eq, List.isEmpty_iff, List.drop_eq_nil_iff]
  exact ⟨fun heq => heq ▸ Nat.le_refl _, fun hle => Nat.le_antisymm h.le hle⟩

theorem At.next {c : Char} (h : At text i (c :: rest)) : At text (i + 1) rest := by
  have hlt : i < text.length := by
    have hlen := congrArg List.length h.ahead
    rw [List.length_drop, List.length_cons] at hlen
    omega
  refine ⟨hlt, ?_⟩
  rw [← List.drop_drop, h.ahead, List.drop_one, List.tail_cons]

theorem At.skipSign (h : At text i rest) : At text (Scanner.skipSign text i) (skipSign rest) := by
  unfold Scanner.skipSign
  rw [h.head]
  cases rest with
  | nil => exact h
  | cons c rest =>
    simp only [List.head?_cons, Option.some.injEq, ArgCoerce.skipSign]
    split
    · exact h.next
    · exact h

/-- **A loop over digits** ends behind those that are ahead, and has counted them. -/
theorem At.skipDigits (h : At text i rest) :
    At text (Scanner.skipDigits text i digits).1 (rest.dropWhile Char.isDigit) ∧
      (Scanner.skipDigits text i digits).2 = digits + (rest.takeWhile Char.isDigit).length := by
  induction rest generalizing i digits with
  | nil =>
    have hend : ¬ i < text.length := Nat.not_lt.mpr (List.drop_eq_nil_iff.mp h.ahead)
    rw [Scanner.skipDigits, dif_neg hend]
    exact ⟨h, rfl⟩
  | cons c rest ih =>
    have hchar := h.head
    rw [List.head?_cons, List.getElem?_eq_some_iff] at hchar
    obtain ⟨hlt, hc⟩ := hchar
    rw [Scanner.skipDigits, dif_pos hlt, hc]
    by_cases hdigit : c.isDigit = true
    · obtain ⟨hat, hcount⟩ := @ih (i + 1) (digits + 1) h.next
      rw [if_pos hdigit, List.dropWhile_cons_of_pos hdigit, List.takeWhile_cons_of_pos hdigit]
      exact ⟨hat, by rw [hcount, List.length_cons]; omega⟩
    · rw [if_neg hdigit, List.dropWhile_cons_of_neg hdigit, List.takeWhile_cons_of_neg hdigit]
      exact ⟨h, rfl⟩

theorem At.skipFraction (h : At text i rest) :
    At text (Scanner.skipFraction text i).1 (fraction rest).2 ∧
      (Scanner.skipFraction text i).2 = (fraction rest).1.length := by
  unfold Scanner.skipFraction
  rw [h.head]
  cases rest with
  | nil => exact ⟨h, rfl⟩
  | cons c rest =>
    by_cases hc : c = '.'
    · obtain ⟨hat, hcount⟩ := @At.skipDigits _ _ _ 0 (hc ▸ h).next
      rw [List.head?_cons, if_pos (congrArg some hc), fraction, if_pos hc]
      exact ⟨hat, hcount.trans (Nat.zero_add _)⟩
    · rw [List.head?_cons, if_neg (by simpa using hc), fraction, if_neg hc]
      exact ⟨h, rfl⟩

theorem At.endsAfterExponent (h : At text i rest) :
    Scanner.endsAfterExponent text i = endsAfterExponent rest := by
  unfold Scanner.endsAfterExponent
  rw [h.head, h.atEnd]
  cases rest with
  | nil => rfl
  | cons c rest =>
    obtain ⟨hat, hcount⟩ := @At.skipDigits _ _ _ 0 h.next.skipSign
    simp only [List.head?_cons, Option.some.injEq, ArgCoerce.endsAfterExponent, hat.atEnd, hcount,
      Nat.zero_add, List.length_eq_zero_iff, List.isEmpty_cons]
    by_cases hnone : (ArgCoerce.skipSign rest).takeWhile Char.isDigit = []
    · simp [hnone]
    · have hsome : ((ArgCoerce.skipSign rest).takeWhile Char.isDigit).isEmpty = false :=
        List.isEmpty_eq_false_iff.mpr hnone
      simp [hnone, hsome]

/-- The scanner with its index answers what the parts of the text answer. -/
theorem scanner_eq (text : List Char) : Scanner.isDecimalNumber text = isDecimalNumber text := by
  have hstart : At text 0 text := ⟨Nat.zero_le _, List.drop_zero⟩
  obtain ⟨hint, hints⟩ := @At.skipDigits _ _ _ 0 hstart.skipSign
  obtain ⟨hfrac, hfracs⟩ := hint.skipFraction
  simp only [Scanner.isDecimalNumber, isDecimalNumber, hints, hfracs, hfrac.endsAfterExponent,
    Nat.zero_add, List.length_eq_zero_iff, Bool.and_eq_true, List.isEmpty_iff]

end Index

/-- **The scanner recognises exactly the decimal numbers**: an optional sign, digits with an
optional fraction of which there is at least one, an optional exponent, and nothing else. -/
theorem scanner_recognises (text : List Char) :
    Scanner.isDecimalNumber text = true ↔ IsDecimal text := by
  rw [scanner_eq, isDecimalNumber_iff]

end Logosctl.ArgCoerce
