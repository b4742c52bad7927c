/-
# Expiry at issue

`token issue --expires` takes a number with a unit, a date or a timestamp, and makes of it the
stamp that the token is stored with; at lookup the stamp is read again.  A token is accepted
until the deadline that its stamp reads back as (`acceptedUntil_of_deadline`), so what is left to
ask is which deadline that is.

Of the two parts here neither keeps its promise for every input.  A duration is added as
nanoseconds to a 64-bit clock, and wraps beyond what that holds; a date or timestamp is checked
for its digits only.
-/
import Logosctl.Time.Gmtime
import Logosctl.TokenStore.Semantics

namespace Logosctl.IssueTokenCommand

open Library Time TokenStore

/-! ## 1. `resolveExpires` -/

/-- The seconds of a unit. -/
def unitSeconds (suffix : Char) : Option Nat :=
  if suffix = 's' then some 1
  else if suffix = 'm' then some 60
  else if suffix = 'h' then some 3600
  else if suffix = 'd' then some 86400
  else none

/-- `^(\d+)([smhd])$`: the digits, and the seconds of the unit. -/
def relative (s : String) : Option (List Char × Nat) :=
  match s.toList.getLast?.bind unitSeconds with
  | none => none
  | some scale =>
    let ds := s.toList.dropLast
    if ds ≠ [] ∧ ds.all Char.isDigit then some (ds, scale) else none

/-- The texts of a format in which `0` stands for any digit. -/
def matchesFormat (format s : List Char) : Bool :=
  s.length == format.length &&
    (s.zip format).all fun p => if p.2 = '0' then p.1.isDigit else p.1 == p.2

/-- `^\d{4}-\d{2}-\d{2}$` -/
def dateOnly (s : String) : Bool := matchesFormat "0000-00-00".toList s.toList

/-- `^\d{4}-\d{2}-\d{2}T\d{2}:\d{2}:\d{2}Z$` -/
def fullStamp (s : String) : Bool := matchesFormat "0000-00-00T00:00:00Z".toList s.toList

/-- The largest `long`, and the largest number of a 64-bit clock. -/
def maxLong : Nat := 2 ^ 63 - 1

/-- A time point plus seconds, both in nanoseconds of 64 bits. -/
def addSeconds (nowNs : Int) (seconds : Nat) : Int :=
  Int.bmod (nowNs + seconds * 1000000000) (2 ^ 64)

/-- `system_clock::to_time_t` -/
def toTimeT (ns : Int) : Int := ns.tdiv 1000000000

/-- `resolveExpires`, when the clock reads `nowNs`. -/
def resolveExpires (nowNs : Int) (s : String) : Option String :=
  if s.isEmpty then some ""
  else
    match relative s with
    | some (ds, scale) =>
      let n := value ds
      -- `stol` refuses what is no `long`, `checkedMul` a product that is none
      if n > maxLong then none
      else if n > maxLong / scale then none
      else some (stampOf (toTimeT (addSeconds nowNs (n * scale))))
    | none =>
      if dateOnly s then some (s ++ "T00:00:00Z")
      else if fullStamp s then some s
      else none

/-! ## 2. What a deadline means -/

/-- Whatever the store, a token issued with this expiry under a fresh hash is accepted before `t`,
where its locality admits it, and rejected from `t` on. -/
def AcceptedUntil (expiresAt : String) (t : Int) : Prop :=
  ∀ (sha256 : String → Vector UInt8 32) (c : Call) (name : String) (localOnly replace : Bool)
    (d d' : Dir) (token : String), c.op = .issue name expiresAt localOnly replace →
    (c.perform sha256).exec d = (.ok (.issued ⟨.ok, token⟩), d') →
    (∀ ts, TokensFile.read d.tokens = .ok ts → ∀ e ∈ ts, e.hash ≠ hashToken sha256 token) →
    ∀ tr now, lookupByToken sha256 d'.tokens token tr now
      = .ok (if now < t ∧ (localOnly = true → tr = "local") then some name else none)

theorem isExpired_of_deadline {expiresAt : String} {t : Int} (h : deadline expiresAt = some t)
    (now : Int) : isExpired now expiresAt = decide (t ≤ now) := by
  have hne : expiresAt ≠ "" := by
    rintro rfl
    have hnone : deadline "" = none := by decide
    rw [hnone] at h
    cases h
  simp [isExpired, hne, h]

/-- The loop passes over entries of other hashes. -/
theorem lookupHash_append {h tr : String} {now : Int} {e : TokenEntry} :
    ∀ {ts : List TokenEntry}, (∀ x ∈ ts, x.hash ≠ h) →
      lookupHash h tr now (ts ++ [e]) = lookupHash h tr now [e]
  | [], _ => rfl
  | x :: ts, hts => by
    rw [List.cons_append, lookupHash, if_pos (hts x List.mem_cons_self)]
    exact lookupHash_append fun y hy => hts y (List.mem_cons_of_mem _ hy)

/-- **A token lives until the deadline that its stamp reads back as.** -/
theorem acceptedUntil_of_deadline {expiresAt : String} {t : Int}
    (h : deadline expiresAt = some t) : AcceptedUntil expiresAt t := by
  intro sha256 c name localOnly replace d d' token hop hexec hfresh tr now
  rcases perform_cases hexec with hrefuses | hcommits
  · exact absurd rfl (hrefuses.2 _ rfl)
  obtain ⟨ts, ch, hread, hamend, hresult, hread'⟩ := hcommits.read
  rcases amend_cases hamend with
    ⟨name', expiresAt', localOnly', replace', hop', hraw, htokens, hstaged⟩ | ⟨_, hop', _⟩
  swap
  · rw [hop] at hop'
    cases hop'
  rw [hop] at hop'
  cases hop'
  have htoken : token = generateToken c.io.random := by
    simpa [Change.outcome, hstaged] using hresult
  have hlist : ∀ x ∈ ts.eraseP (fun e => e.name == name), x.hash ≠ hashToken sha256 token :=
    fun x hx => hfresh ts hread x (List.mem_of_mem_eraseP hx)
  have hnonempty : token.isEmpty = false := by
    rw [htoken]
    simpa using hraw
  have hlookup : lookupHash (hashToken sha256 token) tr now ch.tokens
      = if now < t ∧ (localOnly = true → tr = "local") then some name else none := by
    rw [htokens, lookupHash_append hlist]
    have hhash : (issuedEntry sha256 c.io name expiresAt localOnly).hash
        = hashToken sha256 token := by rw [htoken]; rfl
    rw [lookupHash, if_neg (not_not.mpr hhash)]
    simp only [issuedEntry, isExpired_of_deadline h, decide_eq_true_eq]
    by_cases hlive : now < t
    · rw [if_neg (by omega)]
      cases localOnly with
      | false => simp [hlive]
      | true =>
        by_cases htr : tr = "local"
        · simp [hlive, htr]
        · simp [htr]
    · rw [if_pos (by omega), if_neg (by simp [hlive])]
  simp only [lookupByToken, hnonempty, hread', bind, Except.bind, pure, Except.pure, hlookup]
  rfl

/-! ## 3. Durations -/

/-- If `s` is accepted, its deadline is `seconds` from now, and the token lives until then. -/
def RelativeExact (nowNs : Int) (s : String) (seconds : Nat) : Prop :=
  ∀ stamp, resolveExpires nowNs s = some stamp →
    deadline stamp = some (toTimeT nowNs + seconds)
      ∧ AcceptedUntil stamp (toTimeT nowNs + seconds)

theorem unitSeconds_pos {suffix : Char} {scale : Nat} (h : unitSeconds suffix = some scale) :
    0 < scale := by
  unfold unitSeconds at h
  split_ifs at h <;> cases h <;> decide

theorem relative_eq {ds : List Char} {suffix : Char} {scale : Nat} (hne : ds ≠ [])
    (hds : Digits ds) (hunit : unitSeconds suffix = some scale) :
    relative (String.ofList (ds ++ [suffix])) = some (ds, scale) := by
  have hall : ds.all Char.isDigit = true := List.all_eq_true.mpr hds
  simp [relative, hunit, hne, hall]

/-- A duration is refused when it is no `long` number of seconds, and else added to the clock. -/
theorem resolveExpires_relative (nowNs : Int) {ds : List Char} {suffix : Char} {scale : Nat}
    (hne : ds ≠ []) (hds : Digits ds) (hunit : unitSeconds suffix = some scale) :
    resolveExpires nowNs (String.ofList (ds ++ [suffix]))
      = if maxLong < value ds * scale then none
        else some (stampOf (toTimeT (addSeconds nowNs (value ds * scale)))) := by
  have hpos := unitSeconds_pos hunit
  have hempty : (String.ofList (ds ++ [suffix])).isEmpty = false := by simp
  rw [resolveExpires, hempty, if_neg (by decide), relative_eq hne hds hunit]
  dsimp only
  by_cases hbig : maxLong < value ds * scale
  · rw [if_pos hbig]
    split
    · rfl
    · rw [if_pos ((Nat.div_lt_iff_lt_mul hpos).mpr hbig)]
  · have hfit : ¬ maxLong / scale < value ds := fun h =>
      hbig ((Nat.div_lt_iff_lt_mul hpos).mp h)
    have hlong : ¬ maxLong < value ds := fun h =>
      hbig (Nat.lt_of_lt_of_le h (Nat.le_mul_of_pos_right _ hpos))
    rw [if_neg hbig, if_neg hlong, if_neg hfit]

theorem toTimeT_eq (ns : Int) : toTimeT ns
    = if 0 ≤ ns then ns / 1000000000 else -(-ns / 1000000000) := by
  split
  · rename_i h
    exact Int.tdiv_eq_ediv_of_nonneg h
  · rename_i h
    rw [toTimeT, ← Int.neg_neg ns, Int.neg_tdiv, Int.neg_neg, Int.tdiv_eq_ediv_of_nonneg (by omega)]

/-- The sum as 64 bits hold it. -/
theorem addSeconds_spec (nowNs : Int) (seconds : Nat) : ∃ k : Int,
    addSeconds nowNs seconds = nowNs + seconds * 1000000000 - k * 18446744073709551616
      ∧ -9223372036854775808 ≤ addSeconds nowNs seconds
      ∧ addSeconds nowNs seconds < 9223372036854775808 := by
  refine ⟨_, Int.bmod_eq_self_sub_bdiv_mul _ _, ?_, ?_⟩
  · exact Int.le_bmod (by decide)
  · exact Int.bmod_lt (by decide)

/-- Whatever the clock can hold has a stamp, and is read back. -/
theorem deadline_addSeconds (nowNs : Int) (seconds : Nat) :
    deadline (stampOf (toTimeT (addSeconds nowNs seconds)))
      = some (toTimeT (addSeconds nowNs seconds)) := by
  obtain ⟨k, -, hlo, hhi⟩ := addSeconds_spec nowNs seconds
  refine deadline_stampOf ?_
  rw [HasStamp, toTimeT_eq]
  split <;> omega

/-- The clock is set exactly as far ahead as it should be when the sum fits. -/
theorem toTimeT_addSeconds_eq_iff {nowNs : Int} (h₀ : 0 ≤ nowNs)
    (h₁ : nowNs < 9223372036854775808) (seconds : Nat) :
    toTimeT (addSeconds nowNs seconds) = toTimeT nowNs + seconds
      ↔ nowNs + seconds * 1000000000 < 9223372036854775808 := by
  obtain ⟨k, hsum, hlo, hhi⟩ := addSeconds_spec nowNs seconds
  have hnow : toTimeT nowNs = nowNs / 1000000000 := by rw [toTimeT_eq, if_pos h₀]
  rw [hnow, toTimeT_eq]
  constructor
  · intro heq
    -- a wrapped sum is at least a whole round of the clock behind
    by_contra hbig
    have hk : 1 ≤ k := by omega
    split at heq <;> omega
  · intro hfit
    have hk : k = 0 := by omega
    rw [if_pos (by omega), hsum, hk]
    omega

/-- **A duration is exact** exactly when it is refused as no `long`, or the deadline still fits
the 64-bit clock. -/
theorem relative_exact_iff {nowNs : Int} (h₀ : 0 ≤ nowNs) (h₁ : nowNs < 2 ^ 63) {ds : List Char}
    {suffix : Char} {scale : Nat} (hne : ds ≠ []) (hds : Digits ds)
    (hunit : unitSeconds suffix = some scale) :
    RelativeExact nowNs (String.ofList (ds ++ [suffix])) (value ds * scale)
      ↔ maxLong < value ds * scale ∨ nowNs + (value ds * scale : Nat) * 1000000000 < 2 ^ 63 := by
  rw [RelativeExact, resolveExpires_relative nowNs hne hds hunit]
  by_cases hbig : maxLong < value ds * scale
  · simp [hbig]
  · rw [if_neg hbig, or_iff_right hbig]
    have hfit := toTimeT_addSeconds_eq_iff h₀ h₁ (value ds * scale)
    constructor
    · intro h
      have hdeadline := (h _ rfl).1
      rw [deadline_addSeconds, Option.some.injEq] at hdeadline
      exact hfit.mp hdeadline
    · rintro hsum stamp hstamp
      obtain rfl := Option.some.inj hstamp
      have hdeadline := deadline_addSeconds nowNs (value ds * scale)
      rw [hfit.mpr hsum] at hdeadline ⊢
      exact ⟨hdeadline, acceptedUntil_of_deadline hdeadline⟩

/-- Thirty days from the first of January 2026. -/
theorem thirty_days_exact : RelativeExact 1767225600000000000 "30d" 2592000
    ∧ resolveExpires 1767225600000000000 "30d" = some "2026-01-31T00:00:00Z" :=
  ⟨(@relative_exact_iff 1767225600000000000 (by decide) (by decide) "30".toList 'd' 86400
    (by decide) (by decide) (by decide)).mpr (.inr (by decide)), by decide +kernel⟩

/-- A hundred thousand days from then are taken for a time that passed long ago. -/
theorem duration_wraps : ¬ ∀ nowNs : Int, 0 ≤ nowNs → nowNs < 2 ^ 63 →
    ∀ ds suffix scale, ds ≠ [] → Digits ds → unitSeconds suffix = some scale →
      RelativeExact nowNs (String.ofList (ds ++ [suffix])) (value ds * scale) := by
  intro h
  have hissued : resolveExpires 1767225600000000000 (String.ofList ("100000".toList ++ ['d']))
      = some "1715-03-29T00:25:27Z" := by decide +kernel
  have hdeadline : deadline "1715-03-29T00:25:27Z" = some (-8039518473) := by decide +kernel
  have hclaimed := (h 1767225600000000000 (by decide) (by decide) "100000".toList 'd' 86400
    (by decide) (by decide) (by decide) _ hissued).1
  rw [hdeadline] at hclaimed
  exact absurd hclaimed (by decide)

/-! ## 4. Dates and timestamps -/

def isLeapYear (year : Nat) : Bool := year % 4 = 0 && (year % 100 ≠ 0 || year % 400 = 0)

def daysInMonth (year month : Nat) : Nat :=
  if month = 2 then if isLeapYear year then 29 else 28
  else if month ∈ [4, 6, 9, 11] then 30
  else 31

/-- A day of the calendar and a time of that day. -/
structure ValidInstant (tm : Tm) : Prop where
  year : tm.year ≤ 9999
  month : 1 ≤ tm.month ∧ tm.month ≤ 12
  day : 1 ≤ tm.day ∧ tm.day ≤ daysInMonth tm.year tm.month
  hour : tm.hour ≤ 23
  minute : tm.minute ≤ 59
  second : tm.second ≤ 59

/-- The stamp of a valid instant, and the seconds from the epoch to it. -/
def DenotesInstant (s : String) (t : Int) : Prop :=
  ∃ tm, ValidInstant tm ∧ s.toList = stampText tm ∧ t = timegmUtc tm

/-- A timestamp or a date denotes an instant; a date its first one. -/
def AbsoluteInstant (s : String) (t : Int) : Prop :=
  DenotesInstant s t ∨ DenotesInstant (s ++ "T00:00:00Z") t

/-- What is accepted is stored as a valid instant, at which the token ends, and what denotes none
is refused. -/
def AbsoluteUsable (nowNs : Int) (s : String) : Prop :=
  (∀ stored, resolveExpires nowNs s = some stored →
    ∃ t, DenotesInstant stored t ∧ deadline stored = some t ∧ AcceptedUntil stored t)
  ∧ ((∀ t, ¬ AbsoluteInstant s t) → resolveExpires nowNs s = none)

theorem daysInMonth_le (year month : Nat) : daysInMonth year month ≤ 31 := by
  unfold daysInMonth
  split_ifs <;> decide

theorem ValidInstant.inRange {tm : Tm} (h : ValidInstant tm) : tm.InRange where
  year := h.year
  month := h.month
  day := ⟨h.day.1, Nat.le_trans h.day.2 (daysInMonth_le _ _)⟩
  hour := h.hour
  minute := h.minute
  second := Nat.le_succ_of_le h.second

theorem DenotesInstant.deadline_eq {s : String} {t : Int} (h : DenotesInstant s t) :
    deadline s = some t := by
  obtain ⟨tm, hvalid, htext, rfl⟩ := h
  have hstamp : IsStamp s tm := ⟨htext, hvalid.inRange⟩
  rw [deadline, hstamp.strptime_eq, Option.map_some]

theorem DenotesInstant.length_eq {s : String} {t : Int} (h : DenotesInstant s t) :
    s.toList.length = 20 := by
  obtain ⟨tm, -, htext, -⟩ := h
  rw [htext]
  simp [stampText, sixFields]

theorem length_of_matchesFormat {format s : List Char} (h : matchesFormat format s = true) :
    s.length = format.length := by
  simp only [matchesFormat, Bool.and_eq_true, beq_iff_eq] at h
  exact h.1

/-- What is neither empty nor a duration is stored as it is, or with the time of midnight. -/
theorem resolveExpires_absolute (nowNs : Int) {s : String} (hne : s ≠ "")
    (hrelative : relative s = none) : resolveExpires nowNs s
      = if dateOnly s then some (s ++ "T00:00:00Z") else if fullStamp s then some s else none := by
  rw [resolveExpires, if_neg (by simpa using hne), hrelative]

/-- An accepted text denotes an instant exactly if what is stored does. -/
theorem absoluteInstant_iff_of_resolve {nowNs : Int} {s stored : String} (hne : s ≠ "")
    (hrelative : relative s = none) (h : resolveExpires nowNs s = some stored) (t : Int) :
    AbsoluteInstant s t ↔ DenotesInstant stored t := by
  rw [resolveExpires_absolute nowNs hne hrelative] at h
  split_ifs at h with hdate hfull
  · obtain rfl := Option.some.inj h
    have hlen := length_of_matchesFormat hdate
    refine or_iff_right fun hs => ?_
    have := hs.length_eq
    simp at hlen
    omega
  · obtain rfl := Option.some.inj h
    have hlen := length_of_matchesFormat hfull
    refine or_iff_left fun hs => ?_
    have := hs.length_eq
    simp [String.toList_append] at this hlen
    omega

/-- **An accepted absolute expiry is a usable one** exactly when the text has the digits of
neither form, or denotes a valid instant. -/
theorem absolute_usable_iff {nowNs : Int} {s : String} (hne : s ≠ "")
    (hrelative : relative s = none) : AbsoluteUsable nowNs s ↔
      (dateOnly s = true ∨ fullStamp s = true → ∃ t, AbsoluteInstant s t) := by
  have hresolve := resolveExpires_absolute nowNs hne hrelative
  constructor
  · intro h hshape
    obtain ⟨stored, hstored⟩ : ∃ stored, resolveExpires nowNs s = some stored := by
      rw [hresolve]
      split_ifs with hdate hfull
      · exact ⟨_, rfl⟩
      · exact ⟨_, rfl⟩
      · exact absurd hshape (by simp [hdate, hfull])
    obtain ⟨t, hinstant, -⟩ := h.1 stored hstored
    exact ⟨t, (absoluteInstant_iff_of_resolve hne hrelative hstored t).mpr hinstant⟩
  · intro h
    constructor
    · intro stored hstored
      have hshape : dateOnly s = true ∨ fullStamp s = true := by
        by_contra hshape
        obtain ⟨hdate, hfull⟩ := not_or.mp hshape
        rw [hresolve, if_neg hdate, if_neg hfull] at hstored
        cases hstored
      obtain ⟨t, ht⟩ := h hshape
      have hinstant := (absoluteInstant_iff_of_resolve hne hrelative hstored t).mp ht
      exact ⟨t, hinstant, hinstant.deadline_eq, acceptedUntil_of_deadline hinstant.deadline_eq⟩
    · intro hnone
      have hshape : ¬ (dateOnly s = true ∨ fullStamp s = true) := fun hshape =>
        (h hshape).elim hnone
      obtain ⟨hdate, hfull⟩ := not_or.mp hshape
      rw [hresolve, if_neg hdate, if_neg hfull]

/-- A leap day. -/
theorem leap_day_usable : AbsoluteUsable 1767225600000000000 "2028-02-29"
    ∧ resolveExpires 1767225600000000000 "2028-02-29" = some "2028-02-29T00:00:00Z" :=
  ⟨(absolute_usable_iff (by decide) (by decide)).mpr fun _ => ⟨_, .inr ⟨⟨2028, 2, 29, 0, 0, 0⟩,
    ⟨by decide, by decide, by decide, by decide, by decide, by decide⟩, by decide, rfl⟩⟩,
    by decide +kernel⟩

/-- The thirty-first of February is accepted. -/
theorem no_such_day_accepted : ¬ ∀ (nowNs : Int) (s : String), s ≠ "" → relative s = none →
    AbsoluteUsable nowNs s := by
  intro h
  have hread : strptimeIso8601Utc "2026-02-31T00:00:00Z" = some ⟨2026, 2, 31, 0, 0, 0⟩ := by
    decide +kernel
  obtain ⟨t, ⟨tm, hvalid, htext, -⟩, -⟩ :=
    (h 0 "2026-02-31" (by decide) (by decide)).1 "2026-02-31T00:00:00Z" (by decide +kernel)
  have hstamp : IsStamp "2026-02-31T00:00:00Z" tm := ⟨htext, hvalid.inRange⟩
  rw [hstamp.strptime_eq, Option.some.injEq] at hread
  have hday := hvalid.day.2
  rw [hread] at hday
  exact absurd hday (by decide)

end Logosctl.IssueTokenCommand
