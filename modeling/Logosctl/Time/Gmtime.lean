/-
# Times as stamps

`gmtime` breaks a time down, and `%Y-%m-%dT%H:%M:%SZ` writes it as a stamp.  Years are counted
from March, in eras of 400 years; within an era centuries, then four-year spans, then years are
taken off, the last of each being the one that may be a day longer.  What is written reads back
as the same time (`deadline_stampOf`), as long as the year has four digits.
-/
import Logosctl.Time.Stamp

namespace Logosctl.Time

open Library

/-- Day 0 is 0000-03-01 here; the days of an era, `[0, 146097)`, as year and day of the year. -/
def yearOfEraDay (dayOfEra : Int) : Int × Int :=
  let century := min (dayOfEra / 36524) 3
  let dayOfCentury := dayOfEra - century * 36524
  let span := dayOfCentury / 1461
  let dayOfSpan := dayOfCentury - span * 1461
  let year := min (dayOfSpan / 365) 3
  (century * 100 + span * 4 + year, dayOfSpan - year * 365)

/-- `gmtime`. -/
def gmtime (t : Int) : Tm :=
  let days := t / 86400 + 719468
  let seconds := t % 86400
  let era := days / 146097
  let (yearOfEra, dayOfYear) := yearOfEraDay (days % 146097)
  let month := (5 * dayOfYear + 2) / 153
  let day := dayOfYear - (153 * month + 2) / 5 + 1
  let year := era * 400 + yearOfEra
  { year := (if month < 10 then year else year + 1).toNat
    month := (if month < 10 then month + 3 else month - 9).toNat
    day := day.toNat
    hour := (seconds / 3600).toNat
    minute := (seconds % 3600 / 60).toNat
    second := (seconds % 60).toNat }

/-- The stamp that `put_time` writes of a time. -/
def stampOf (t : Int) : String := String.ofList (stampText (gmtime t))

/-- The years taken off leave a day of the year, and make up the days they took. -/
theorem yearOfEraDay_spec {dayOfEra : Int} (h₀ : 0 ≤ dayOfEra) (h₁ : dayOfEra < 146097) :
    ∃ y d : Int, yearOfEraDay dayOfEra = (y, d) ∧ 0 ≤ y ∧ y ≤ 399 ∧ 0 ≤ d ∧ d ≤ 365
      ∧ y * 365 + y / 4 - y / 100 + d = dayOfEra := by
  obtain ⟨c, hc⟩ : ∃ c, c = min (dayOfEra / 36524) 3 := ⟨_, rfl⟩
  obtain ⟨q, hq⟩ : ∃ q, q = (dayOfEra - c * 36524) / 1461 := ⟨_, rfl⟩
  obtain ⟨r, hr⟩ : ∃ r, r = min ((dayOfEra - c * 36524 - q * 1461) / 365) 3 := ⟨_, rfl⟩
  have hcentury : 0 ≤ c ∧ c ≤ 3 ∧ 0 ≤ dayOfEra - c * 36524 ∧ dayOfEra - c * 36524 ≤ 36524 := by
    omega
  have hspan : 0 ≤ q ∧ q ≤ 24 ∧ 0 ≤ dayOfEra - c * 36524 - q * 1461
      ∧ dayOfEra - c * 36524 - q * 1461 ≤ 1460 := by omega
  have hyear : 0 ≤ r ∧ r ≤ 3 ∧ 0 ≤ dayOfEra - c * 36524 - q * 1461 - r * 365
      ∧ dayOfEra - c * 36524 - q * 1461 - r * 365 ≤ 365 := by omega
  have hfour : (c * 100 + q * 4 + r) / 4 = c * 25 + q := by omega
  have hhundred : (c * 100 + q * 4 + r) / 100 = c := by omega
  refine ⟨c * 100 + q * 4 + r, dayOfEra - c * 36524 - q * 1461 - r * 365, ?_, by omega, by omega,
    hyear.2.2.1, hyear.2.2.2, ?_⟩
  · simp only [yearOfEraDay, ← hc, ← hq, ← hr]
  · rw [hfour, hhundred]
    omega

/-- What `daysFromCivil` makes of a day given by its place in a year that begins in March. -/
theorem daysFromCivil_march {era y m d : Int} (hy₀ : 0 ≤ y) (hy₁ : y ≤ 399) (hm₀ : 0 ≤ m)
    (hm₁ : m ≤ 11) : daysFromCivil (if m < 10 then era * 400 + y else era * 400 + y + 1)
      (if m < 10 then m + 3 else m - 9) (d - (153 * m + 2) / 5 + 1)
      = era * 146097 + (y * 365 + y / 4 - y / 100 + d) - 719468 := by
  have hera : (era * 400 + y) / 400 = era := by omega
  have hyear : era * 400 + y - era * 400 = y := by omega
  by_cases hm : m < 10
  · have hlate : ¬ m + 3 ≤ 2 := by omega
    have hmonth : m + 3 - 3 = m := by omega
    have hday : (153 * m + 2) / 5 + (d - (153 * m + 2) / 5 + 1 - 1) = d := by omega
    simp only [daysFromCivil, if_pos hm, if_neg hlate, hmonth, hday, hera, hyear]
  · have hearly : m - 9 ≤ 2 := by omega
    have hmonth : m - 9 + 9 = m := by omega
    have hprev : era * 400 + y + 1 - 1 = era * 400 + y := by omega
    have hday : (153 * m + 2) / 5 + (d - (153 * m + 2) / 5 + 1 - 1) = d := by omega
    simp only [daysFromCivil, if_neg hm, if_pos hearly, hmonth, hprev, hday, hera, hyear]

/-- The times whose year has four digits, from year 1 on. -/
def HasStamp (t : Int) : Prop := -62135596800 ≤ t ∧ t < 253402300800

/-- **`timegm` undoes `gmtime`**, and what `gmtime` gives is in range. -/
theorem gmtime_spec {t : Int} (h : HasStamp t) :
    timegmUtc (gmtime t) = t ∧ (gmtime t).InRange := by
  obtain ⟨hlo, hhi⟩ := h
  obtain ⟨days, hdays⟩ : ∃ days, days = t / 86400 + 719468 := ⟨_, rfl⟩
  obtain ⟨y, d, hera, hy₀, hy₁, hd₀, hd₁, hsum⟩ :=
    yearOfEraDay_spec (Int.emod_nonneg days (by decide)) (Int.emod_lt_of_pos days (by decide))
  obtain ⟨m, hm⟩ : ∃ m, m = (5 * d + 2) / 153 := ⟨_, rfl⟩
  have hm₀ : 0 ≤ m := by omega
  have hm₁ : m ≤ 11 := by omega
  have hday : 1 ≤ d - (153 * m + 2) / 5 + 1 ∧ d - (153 * m + 2) / 5 + 1 ≤ 31 := by omega
  -- January and February belong to the year before, and the year is one of four digits
  have hera₀ : 0 ≤ days / 146097 := by omega
  have hera₁ : days / 146097 < 24 ∨ days / 146097 = 24 ∧ days % 146097 ≤ 146036 := by omega
  have hlast : days / 146097 = 24 → y = 399 → m < 10 := by omega
  have hyear : 0 ≤ (if m < 10 then days / 146097 * 400 + y else days / 146097 * 400 + y + 1)
      ∧ (if m < 10 then days / 146097 * 400 + y else days / 146097 * 400 + y + 1) ≤ 9999 := by
    split <;> omega
  have hmonth : 1 ≤ (if m < 10 then m + 3 else m - 9)
      ∧ (if m < 10 then m + 3 else m - 9) ≤ 12 := by split <;> omega
  have htm : gmtime t =
      { year := (if m < 10 then days / 146097 * 400 + y else days / 146097 * 400 + y + 1).toNat
        month := (if m < 10 then m + 3 else m - 9).toNat
        day := (d - (153 * m + 2) / 5 + 1).toNat
        hour := (t % 86400 / 3600).toNat
        minute := (t % 86400 % 3600 / 60).toNat
        second := (t % 86400 % 60).toNat } := by
    simp only [gmtime, ← hdays, hera, ← hm]
  rw [htm]
  constructor
  · simp only [timegmUtc]
    rw [Int.toNat_of_nonneg hyear.1,
      Int.toNat_of_nonneg (Int.le_trans (by decide) hmonth.1),
      Int.toNat_of_nonneg (Int.le_trans (by decide) hday.1),
      daysFromCivil_march hy₀ hy₁ hm₀ hm₁, hsum]
    omega
  · constructor <;> simp only <;> omega

/-- **A stamp reads back** as the time it was written of. -/
theorem deadline_stampOf {t : Int} (h : HasStamp t) : deadline (stampOf t) = some t := by
  obtain ⟨htimegm, hrange⟩ := gmtime_spec h
  have hstamp : IsStamp (stampOf t) (gmtime t) := ⟨String.toList_ofList, hrange⟩
  rw [deadline, hstamp.strptime_eq, Option.map_some, htimegm]

example : stampOf 1709164800 = "2024-02-29T00:00:00Z" := by decide +kernel

end Logosctl.Time
