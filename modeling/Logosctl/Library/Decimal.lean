/-
# Decimal numbers

A number written with `w` digits, leading zeros included, and the value that a text of digits
writes: read back, the number written is the number.  `Digits` is a text that consists of digits.

The C library skips blanks in front of a number (`isSpace`), and no digit is a blank.
-/
import Mathlib.Algebra.Group.Nat.Defs
import Mathlib.Data.List.TakeWhile

namespace Logosctl.Library

/-- Digits only. -/
def Digits (ds : List Char) : Prop := ∀ c ∈ ds, c.isDigit = true

instance (ds : List Char) : Decidable (Digits ds) :=
  decidable_of_iff (ds.all Char.isDigit = true) List.all_eq_true

/-- `isspace`. -/
def isSpace (c : Char) : Bool :=
  c == ' ' || c == '\t' || c == '\n' || c == '\x0b' || c == '\x0c' || c == '\r'

/-- The number that digits write. -/
def value (ds : List Char) : Nat := Nat.ofDigitChars 10 ds 0

/-- The last `w` digits of a number. -/
def fixedDigits : Nat → Nat → List Char
  | 0, _ => []
  | w + 1, n => fixedDigits w (n / 10) ++ [Nat.digitChar (n % 10)]

section

variable {c : Char} {ds es : List Char} {n w : Nat}

@[simp] theorem digits_nil : Digits [] := List.forall_mem_nil _

@[simp] theorem digits_cons : Digits (c :: ds) ↔ c.isDigit = true ∧ Digits ds :=
  List.forall_mem_cons

@[simp] theorem digits_append : Digits (ds ++ es) ↔ Digits ds ∧ Digits es := List.forall_mem_append

theorem isDigit_eq_false_of_isSpace (h : isSpace c = true) : c.isDigit = false := by
  simp only [isSpace, Bool.or_eq_true, beq_iff_eq] at h
  rcases h with ((((rfl | rfl) | rfl) | rfl) | rfl) | rfl <;> decide

theorem isSpace_eq_false_of_isDigit (h : c.isDigit = true) : isSpace c = false := by
  by_contra hspace
  rw [isDigit_eq_false_of_isSpace (by simpa using hspace)] at h
  exact absurd h (by decide)

/-- Blanks are skipped up to what is none. -/
theorem dropWhile_isSpace {blanks tail : List Char} (hblanks : ∀ c ∈ blanks, isSpace c = true)
    (htail : ∀ c ∈ tail.head?, isSpace c = false) : (blanks ++ tail).dropWhile isSpace = tail := by
  rw [List.dropWhile_append_of_pos hblanks]
  cases tail with
  | nil => rfl
  | cons c tail => exact List.dropWhile_cons_of_neg (by simp [htail c rfl])

@[simp] theorem value_nil : value [] = 0 := by simp [value]

theorem value_singleton (c : Char) : value [c] = c.toNat - '0'.toNat := by
  simp [value, Nat.ofDigitChars_cons]

theorem value_append (ds es : List Char) :
    value (ds ++ es) = 10 ^ es.length * value ds + value es := by
  rw [value, Nat.ofDigitChars_append, Nat.ofDigitChars_eq_ofDigitChars_zero]
  rfl

theorem value_append_singleton (ds : List Char) (c : Char) :
    value (ds ++ [c]) = value ds * 10 + (c.toNat - '0'.toNat) := by
  rw [value_append, value_singleton, List.length_singleton, Nat.pow_one, Nat.mul_comm]

theorem value_cons (c : Char) (ds : List Char) :
    value (c :: ds) = 10 ^ ds.length * (c.toNat - '0'.toNat) + value ds := by
  rw [← List.singleton_append, value_append, value_singleton]

theorem toNat_digitChar (h : n < 10) : (Nat.digitChar n).toNat - '0'.toNat = n := by
  have hten : ∀ k < 10, (Nat.digitChar k).toNat - '0'.toNat = k := by decide
  exact hten n h

@[simp] theorem length_fixedDigits (w n : Nat) : (fixedDigits w n).length = w := by
  induction w generalizing n with
  | zero => rfl
  | succ w ih => simp [fixedDigits, ih]

theorem digits_fixedDigits (w n : Nat) : Digits (fixedDigits w n) := by
  induction w generalizing n with
  | zero => exact digits_nil
  | succ w ih =>
    simp [fixedDigits, ih, Nat.isDigit_digitChar, Nat.mod_lt]

theorem value_fixedDigits (h : n < 10 ^ w) : value (fixedDigits w n) = n := by
  induction w generalizing n with
  | zero => simp_all [fixedDigits]
  | succ w ih =>
    have hdiv : n / 10 < 10 ^ w := by rw [Nat.pow_succ] at h; omega
    rw [fixedDigits, value_append_singleton, ih hdiv, toNat_digitChar (Nat.mod_lt _ (by decide))]
    omega

/-- A longer number is at least its beginning. -/
theorem value_le_append (ds es : List Char) : value ds ≤ value (ds ++ es) := by
  rw [value_append]
  have hpos : 1 ≤ 10 ^ es.length := Nat.one_le_pow _ _ (by decide)
  calc value ds = 1 * value ds := (Nat.one_mul _).symm
    _ ≤ 10 ^ es.length * value ds := Nat.mul_le_mul_right _ hpos
    _ ≤ 10 ^ es.length * value ds + value es := Nat.le_add_right _ _

end

end Logosctl.Library
