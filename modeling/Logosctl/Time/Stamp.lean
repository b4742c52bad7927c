/-
# What a stamp looks like, and what is read as one

A stamp is six numbers of a fixed width between fixed characters.  `strptime` reads more than
that: `strptimeIso8601Utc_eq_some_iff` says exactly which texts, field by field.  Each field is
followed by a character that is no digit, which is why a number is read to its end.
-/
import Logosctl.Time

namespace Logosctl.Time

open Library

/-! ## 1. Stamps -/

/-- Six texts in the places of the format. -/
def sixFields (year month day hour minute second tail : List Char) : List Char :=
  year ++ '-' :: (month ++ '-' :: (day ++ 'T' ::
    (hour ++ ':' :: (minute ++ ':' :: (second ++ 'Z' :: tail)))))

/-- The stamp of a time: every number at its full width. -/
def stampText (tm : Tm) : List Char :=
  sixFields (fixedDigits 4 tm.year) (fixedDigits 2 tm.month) (fixedDigits 2 tm.day)
    (fixedDigits 2 tm.hour) (fixedDigits 2 tm.minute) (fixedDigits 2 tm.second) []

/-- Every field by itself in range; 60 is a leap second. -/
structure Tm.InRange (tm : Tm) : Prop where
  year : tm.year ≤ 9999
  month : 1 ≤ tm.month ∧ tm.month ≤ 12
  day : 1 ≤ tm.day ∧ tm.day ≤ 31
  hour : tm.hour ≤ 23
  minute : tm.minute ≤ 59
  second : tm.second ≤ 60

/-- A complete stamp with its fields in range, and nothing after the `Z`. -/
def IsStamp (s : String) (tm : Tm) : Prop := s.toList = stampText tm ∧ tm.InRange

/-! ## 2. One number -/

/-- What `strptime` takes for a number: blanks, and one to `n` digits in range. -/
def PosixField (lo hi n : Nat) (text : List Char) (v : Nat) : Prop :=
  ∃ blanks ds, text = blanks ++ ds ∧ (∀ c ∈ blanks, isSpace c = true) ∧ ds ≠ []
    ∧ ds.length ≤ n ∧ Digits ds ∧ v = value ds ∧ lo ≤ v ∧ v ≤ hi

theorem matchChar_eq_some_iff {c : Char} {cs rest : List Char} :
    matchChar c cs = some rest ↔ cs = c :: rest := by
  cases cs with
  | nil => simp [matchChar]
  | cons d cs =>
    by_cases hd : d = c
    · simp [matchChar, hd]
    · simp [matchChar, hd]

theorem moreDigits_spec {hi : Nat} : ∀ {n val v : Nat} {cs rest : List Char},
    moreDigits hi n val cs = (v, rest) → ∃ ds, cs = ds ++ rest ∧ Digits ds ∧ ds.length ≤ n
      ∧ v = 10 ^ ds.length * val + value ds
  | 0, val, v, cs, rest, h => by
    obtain ⟨rfl, rfl⟩ := Prod.mk.inj h
    exact ⟨[], rfl, digits_nil, Nat.le_refl _, by simp⟩
  | n + 1, val, v, [], rest, h => by
    obtain ⟨rfl, rfl⟩ := Prod.mk.inj h
    exact ⟨[], rfl, digits_nil, Nat.zero_le _, by simp⟩
  | n + 1, val, v, c :: cs, rest, h => by
    rw [moreDigits] at h
    split at h
    · rename_i hc
      obtain ⟨ds, rfl, hds, hlen, rfl⟩ := moreDigits_spec h
      refine ⟨c :: ds, rfl, digits_cons.mpr ⟨hc.1, hds⟩, Nat.succ_le_succ hlen, ?_⟩
      rw [value_cons, List.length_cons, Nat.pow_succ]
      grind
    · obtain ⟨rfl, rfl⟩ := Prod.mk.inj h
      exact ⟨[], rfl, digits_nil, Nat.zero_le _, by simp⟩

/-- Digits that stay in range are read to their end. -/
theorem moreDigits_append {hi : Nat} {c : Char} (hc : c.isDigit = false) (rest : List Char) :
    ∀ {ds pre : List Char} {n : Nat}, Digits ds → ds.length ≤ n → value (pre ++ ds) ≤ hi →
      moreDigits hi n (value pre) (ds ++ c :: rest) = (value (pre ++ ds), c :: rest)
  | [], pre, n, _, _, _ => by
    cases n <;> simp [moreDigits, hc]
  | d :: ds, pre, n + 1, hds, hlen, hhi => by
    obtain ⟨hd, hds⟩ := digits_cons.mp hds
    have hsplit : pre ++ d :: ds = (pre ++ [d]) ++ ds := by simp
    have hnext : value (pre ++ [d]) ≤ hi := by
      rw [hsplit] at hhi
      exact Nat.le_trans (value_le_append _ _) hhi
    rw [value_append_singleton] at hnext
    rw [List.cons_append, moreDigits, if_pos ⟨hd, by omega⟩, ← value_append_singleton, hsplit]
    exact moreDigits_append hc rest hds (Nat.le_of_succ_le_succ hlen) (hsplit ▸ hhi)

/-- **A number up to the character after it.** -/
theorem getNumber_eq_some_iff {lo hi n v : Nat} {c : Char} {cs rest : List Char} (hn : 1 ≤ n)
    (hc : c.isDigit = false) : getNumber lo hi n cs = some (v, c :: rest) ↔
      ∃ text, cs = text ++ c :: rest ∧ PosixField lo hi n text v := by
  constructor
  · intro h
    have hblanks : ∀ d ∈ cs.takeWhile isSpace, isSpace d = true := fun d hd =>
      List.mem_takeWhile_imp hd
    have hcs := (List.takeWhile_append_dropWhile (p := isSpace) (l := cs)).symm
    unfold getNumber at h
    split at h
    · rename_i d ds hdrop
      split at h
      · rename_i hd
        dsimp only at h
        split at h
        · rename_i hrange
          obtain ⟨hv, hrest⟩ := Prod.mk.inj (Option.some.inj h)
          obtain ⟨es, hes, hdes, hlen, hval⟩ := moreDigits_spec
            (Prod.ext hv hrest : moreDigits hi (n - 1) (d.toNat - '0'.toNat) ds = (v, c :: rest))
          have hvalue : v = value (d :: es) := by rw [hval, value_cons]
          refine ⟨cs.takeWhile isSpace ++ d :: es, ?_, _, d :: es, rfl, hblanks,
            List.cons_ne_nil _ _, ?_, digits_cons.mpr ⟨hd, hdes⟩, hvalue, hv ▸ hrange.1,
            hv ▸ hrange.2⟩
          · rw [hdrop, hes] at hcs
            simpa using hcs
          · rw [List.length_cons]
            omega
        · cases h
      · cases h
    · cases h
  · rintro ⟨text, rfl, blanks, ds, rfl, hblanks, hne, hlen, hds, rfl, hlo, hhi⟩
    obtain ⟨d, ds, rfl⟩ := List.exists_cons_of_ne_nil hne
    obtain ⟨hd, htail⟩ := digits_cons.mp hds
    have hdrop : (blanks ++ (d :: ds) ++ c :: rest).dropWhile isSpace
        = d :: (ds ++ c :: rest) := by
      rw [List.append_assoc, dropWhile_isSpace hblanks
        (by rintro _ ⟨⟩; exact isSpace_eq_false_of_isDigit hd)]
      rfl
    have hfirst : d.toNat - '0'.toNat = value [d] := (value_singleton d).symm
    have hmore : moreDigits hi (n - 1) (value [d]) (ds ++ c :: rest)
        = (value ([d] ++ ds), c :: rest) :=
      moreDigits_append hc rest htail (by rw [List.length_cons] at hlen; omega) hhi
    rw [getNumber, hdrop]
    simp only [hd, if_true, hfirst, hmore]
    rw [List.singleton_append, if_pos ⟨hlo, hhi⟩]

/-! ## 3. A whole stamp -/

/-- What `strptime` takes for a stamp: the fields in order, and anything behind the `Z`. -/
def PosixStamp (s : String) (tm : Tm) : Prop :=
  ∃ year month day hour minute second tail,
    s.toList = sixFields year month day hour minute second tail
    ∧ PosixField 0 9999 4 year tm.year ∧ PosixField 1 12 2 month tm.month
    ∧ PosixField 1 31 2 day tm.day ∧ PosixField 0 23 2 hour tm.hour
    ∧ PosixField 0 59 2 minute tm.minute ∧ PosixField 0 61 2 second tm.second

/-- A number and the character after it. -/
theorem getNumber_matchChar_iff {lo hi n v : Nat} {c : Char} {cs rest : List Char} (hn : 1 ≤ n)
    (hc : c.isDigit = false) :
    (∃ r, getNumber lo hi n cs = some (v, r) ∧ matchChar c r = some rest) ↔
      ∃ text, cs = text ++ c :: rest ∧ PosixField lo hi n text v := by
  rw [← getNumber_eq_some_iff hn hc]
  simp only [matchChar_eq_some_iff, exists_eq_right]

/-- **What the POSIX branch accepts, and what it makes of it.** -/
theorem strptimeIso8601Utc_eq_some_iff {s : String} {tm : Tm} :
    strptimeIso8601Utc s = some tm ↔ PosixStamp s tm := by
  simp only [strptimeIso8601Utc, Option.bind_eq_bind, Option.bind_eq_some_iff, Prod.exists,
    Option.pure_def, Option.some.injEq]
  constructor
  · rintro ⟨y, r₁, hy, r₁', my, mo, r₂, hmo, r₂', mmo, d, r₃, hd, r₃', md, h, r₄, hh, r₄', mh,
      mi, r₅, hmi, r₅', mmi, sec, r₆, hsec, tail, msec, rfl⟩
    obtain ⟨ty, hy, fy⟩ := (getNumber_matchChar_iff (by decide) (by decide)).mp ⟨r₁, hy, my⟩
    obtain ⟨tmo, rfl, fmo⟩ := (getNumber_matchChar_iff (by decide) (by decide)).mp ⟨r₂, hmo, mmo⟩
    obtain ⟨td, rfl, fd⟩ := (getNumber_matchChar_iff (by decide) (by decide)).mp ⟨r₃, hd, md⟩
    obtain ⟨th, rfl, fh⟩ := (getNumber_matchChar_iff (by decide) (by decide)).mp ⟨r₄, hh, mh⟩
    obtain ⟨tmi, rfl, fmi⟩ := (getNumber_matchChar_iff (by decide) (by decide)).mp ⟨r₅, hmi, mmi⟩
    obtain ⟨ts, rfl, fs⟩ := (getNumber_matchChar_iff (by decide) (by decide)).mp ⟨r₆, hsec, msec⟩
    exact ⟨ty, tmo, td, th, tmi, ts, tail, hy, fy, fmo, fd, fh, fmi, fs⟩
  · rintro ⟨ty, tmo, td, th, tmi, ts, tail, htext, fy, fmo, fd, fh, fmi, fs⟩
    obtain ⟨r₁, hy, my⟩ := (getNumber_matchChar_iff (c := '-') (by decide) (by decide)).mpr
      ⟨ty, htext, fy⟩
    obtain ⟨r₂, hmo, mmo⟩ := (getNumber_matchChar_iff (c := '-') (by decide) (by decide)).mpr
      ⟨tmo, rfl, fmo⟩
    obtain ⟨r₃, hd, md⟩ := (getNumber_matchChar_iff (c := 'T') (by decide) (by decide)).mpr
      ⟨td, rfl, fd⟩
    obtain ⟨r₄, hh, mh⟩ := (getNumber_matchChar_iff (c := ':') (by decide) (by decide)).mpr
      ⟨th, rfl, fh⟩
    obtain ⟨r₅, hmi, mmi⟩ := (getNumber_matchChar_iff (c := ':') (by decide) (by decide)).mpr
      ⟨tmi, rfl, fmi⟩
    obtain ⟨r₆, hs, ms⟩ := (getNumber_matchChar_iff (c := 'Z') (by decide) (by decide)).mpr
      ⟨ts, rfl, fs⟩
    exact ⟨_, _, hy, _, my, _, _, hmo, _, mmo, _, _, hd, _, md, _, _, hh, _, mh, _, _, hmi, _,
      mmi, _, _, hs, _, ms, rfl⟩

/-- A number at its full width is one that `strptime` takes. -/
theorem posixField_fixedDigits {lo hi n v : Nat} (hn : 1 ≤ n) (hlt : v < 10 ^ n) (hlo : lo ≤ v)
    (hhi : v ≤ hi) : PosixField lo hi n (fixedDigits n v) v := by
  refine ⟨[], fixedDigits n v, rfl, List.forall_mem_nil _, ?_, by simp, digits_fixedDigits n v,
    (value_fixedDigits hlt).symm, hlo, hhi⟩
  exact List.ne_nil_of_length_pos (by rw [length_fixedDigits]; omega)

/-- **A stamp is read as the time it is the stamp of.** -/
theorem IsStamp.posix {s : String} {tm : Tm} (h : IsStamp s tm) : PosixStamp s tm := by
  obtain ⟨htext, hrange⟩ := h
  have := hrange.year
  have := hrange.month
  have := hrange.day
  have := hrange.hour
  have := hrange.minute
  have := hrange.second
  refine ⟨_, _, _, _, _, _, [], htext, posixField_fixedDigits ?_ ?_ ?_ ?_,
    posixField_fixedDigits ?_ ?_ ?_ ?_, posixField_fixedDigits ?_ ?_ ?_ ?_,
    posixField_fixedDigits ?_ ?_ ?_ ?_, posixField_fixedDigits ?_ ?_ ?_ ?_,
    posixField_fixedDigits ?_ ?_ ?_ ?_⟩
  all_goals omega

theorem IsStamp.strptime_eq {s : String} {tm : Tm} (h : IsStamp s tm) :
    strptimeIso8601Utc s = some tm := strptimeIso8601Utc_eq_some_iff.mpr h.posix

end Logosctl.Time
