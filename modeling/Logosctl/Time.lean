/-
# Expiry stamps

A token's `expires_at` is the UTC stamp `%Y-%m-%dT%H:%M:%SZ`, parsed with `strptime` and turned
into seconds since the epoch with `timegm`.  Both are the C library's.  `strptime` is not strict:
each number may follow blanks, may have fewer digits than its width, and whatever follows the
final `Z` is ignored.  `timegm` takes a day beyond the end of its month, or a leap second, as
that many days or seconds from the start of the month or minute.
-/
import Logosctl.Library.Decimal
import Mathlib.Data.Int.Notation

namespace Logosctl.Time

open Library

/-- The fields of `struct tm` that a stamp sets, with the month counted from 1 and the year in
full. -/
structure Tm where
  year : Nat
  month : Nat
  day : Nat
  hour : Nat
  minute : Nat
  second : Nat
  deriving DecidableEq, Repr

/-- Up to `n` more digits onto `val`, as long as the next one can stay in range. -/
def moreDigits (hi : Nat) : Nat → Nat → List Char → Nat × List Char
  | n + 1, val, c :: cs =>
    if c.isDigit ∧ val * 10 ≤ hi then moreDigits hi n (val * 10 + (c.toNat - '0'.toNat)) cs
    else (val, c :: cs)
  | _, val, cs => (val, cs)

/-- `get_number(lo, hi, n)`: blanks, then one to `n` digits. -/
def getNumber (lo hi n : Nat) (cs : List Char) : Option (Nat × List Char) :=
  match cs.dropWhile isSpace with
  | c :: cs =>
    if c.isDigit then
      let (val, rest) := moreDigits hi (n - 1) (c.toNat - '0'.toNat) cs
      if lo ≤ val ∧ val ≤ hi then some (val, rest) else none
    else none
  | [] => none

/-- A character of the format that stands for itself. -/
def matchChar (c : Char) : List Char → Option (List Char)
  | c' :: cs => if c' = c then some cs else none
  | [] => none

/-- `strptime(s, "%Y-%m-%dT%H:%M:%SZ")`. -/
def strptimeIso8601Utc (s : String) : Option Tm := do
  let (year, cs) ← getNumber 0 9999 4 s.toList
  let (month, cs) ← getNumber 1 12 2 (← matchChar '-' cs)
  let (day, cs) ← getNumber 1 31 2 (← matchChar '-' cs)
  let (hour, cs) ← getNumber 0 23 2 (← matchChar 'T' cs)
  let (minute, cs) ← getNumber 0 59 2 (← matchChar ':' cs)
  let (second, cs) ← getNumber 0 61 2 (← matchChar ':' cs)
  let _ ← matchChar 'Z' cs
  return ⟨year, month, day, hour, minute, second⟩

/-- Days from 1970-01-01 to the given day, in the proleptic Gregorian calendar.  The year is
counted from March, so that the leap day is its last. -/
def daysFromCivil (year : Int) (month day : Int) : Int :=
  let y := if month ≤ 2 then year - 1 else year
  let era := y / 400
  let yearOfEra := y - era * 400
  let dayOfYear := (153 * (if month ≤ 2 then month + 9 else month - 3) + 2) / 5 + (day - 1)
  let dayOfEra := yearOfEra * 365 + yearOfEra / 4 - yearOfEra / 100 + dayOfYear
  era * 146097 + dayOfEra - 719468

/-- `timegm`: the seconds from the epoch to the stamp. -/
def timegmUtc (tm : Tm) : Int :=
  daysFromCivil tm.year tm.month tm.day * 86400 + tm.hour * 3600 + tm.minute * 60 + tm.second

/-- The deadline that a stamp stands for, if it parses. -/
def deadline (stamp : String) : Option Int := (strptimeIso8601Utc stamp).map timegmUtc

/-- `isExpired`: empty never expires; what does not parse has expired. -/
def isExpired (now : Int) (expiresAt : String) : Bool :=
  if expiresAt.isEmpty then false
  else
    match deadline expiresAt with
    | none => true
    | some t => decide (t ≤ now)

/-- **A stamp has not expired** when it is empty, or parses to a deadline still to come. -/
theorem isExpired_eq_false_iff {now : Int} {expiresAt : String} :
    isExpired now expiresAt = false ↔
      expiresAt = "" ∨ ∃ t, deadline expiresAt = some t ∧ now < t := by
  unfold isExpired
  by_cases hempty : expiresAt = ""
  · simp [hempty]
  · rw [if_neg (by simpa using hempty), or_iff_right hempty]
    cases deadline expiresAt with
    | none => simp
    | some t => simp

example : deadline "2030-01-01T00:00:00Z" = some 1893456000 := by decide +kernel

end Logosctl.Time
