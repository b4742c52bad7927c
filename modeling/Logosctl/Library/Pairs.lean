/-
# Replacing adjacent pairs

`collapse f` goes through a list once and puts one element in place of two neighbours wherever
`f` knows the pair.  When no second half of a known pair is also a first half, pairs do not
overlap, and the pass can be compared with one that looks at a single place: they agree exactly
when no pair stands anywhere else.  Lengths settle it, since every replacement loses one.
-/
import Mathlib.Data.List.Basic

namespace Logosctl.Library

variable {α : Type} {f : α → α → Option α} {l pre rest : List α} {a b c : α}

/-- One pass over the list, each known pair replaced. -/
def collapse (f : α → α → Option α) : List α → List α
  | [] => []
  | [a] => [a]
  | a :: b :: l =>
    match f a b with
    | some c => c :: collapse f l
    | none => a :: collapse f (b :: l)

/-- Only the pair at the head replaced, if there is one. -/
def collapseHead (f : α → α → Option α) : List α → List α
  | a :: b :: l =>
    match f a b with
    | some c => c :: l
    | none => a :: b :: l
  | l => l

/-- A known pair stands right after `pre`. -/
def PairAfter (f : α → α → Option α) (pre l : List α) : Prop :=
  ∃ a b post, l = pre ++ a :: b :: post ∧ (f a b).isSome

/-- No second half of a known pair is a first half. -/
def Apart (f : α → α → Option α) : Prop := ∀ ⦃a b⦄, (f a b).isSome → ∀ c, f b c = none

/-- Read the other way: no first half is a second half. -/
theorem Apart.eq_none (hapart : Apart f) (hab : (f a b).isSome) (x : α) : f x a = none := by
  by_contra hx
  have hnone := hapart (Option.isSome_iff_ne_none.mpr hx) b
  simp [hnone] at hab

/-! ## 1. Lengths -/

theorem length_collapse_le (f : α → α → Option α) (l : List α) :
    (collapse f l).length ≤ l.length := by
  induction l using collapse.induct f with
  | case1 => exact Nat.le_refl _
  | case2 a => exact Nat.le_refl _
  | case3 a b l c hf ih => simp only [collapse, hf, List.length_cons]; omega
  | case4 a b l hf ih => simpa [collapse, hf] using ih

/-- A pair anywhere costs the pass at least one element. -/
theorem length_collapse_lt (h : PairAfter f pre l) : (collapse f l).length < l.length := by
  induction l using collapse.induct f generalizing pre with
  | case1 =>
    obtain ⟨a, b, post, hl, -⟩ := h
    simp at hl
  | case2 a =>
    obtain ⟨b, c, post, hl, -⟩ := h
    have := congrArg List.length hl
    simp at this
    omega
  | case3 a b l c hf ih =>
    have := length_collapse_le f l
    simp only [collapse, hf, List.length_cons]
    omega
  | case4 a b l hf ih =>
    obtain ⟨x, y, post, hl, hxy⟩ := h
    cases pre with
    | nil =>
      simp only [List.nil_append, List.cons.injEq] at hl
      obtain ⟨rfl, rfl, -⟩ := hl
      simp [hf] at hxy
    | cons z pre =>
      have := ih ⟨x, y, post, (List.cons.inj hl).2, hxy⟩
      simp only [collapse, hf, List.length_cons] at this ⊢
      omega

/-- Without pairs the pass changes nothing. -/
theorem collapse_of_forall_not_pairAfter (h : ∀ pre, ¬ PairAfter f pre l) : collapse f l = l := by
  induction l using collapse.induct f with
  | case1 => rfl
  | case2 a => rfl
  | case3 a b l c hf ih => exact absurd ⟨a, b, l, rfl, by simp [hf]⟩ (h [])
  | case4 a b l hf ih =>
    have htail : ∀ pre, ¬ PairAfter f pre (b :: l) := by
      rintro pre ⟨x, y, post, hl, hxy⟩
      exact h (a :: pre) ⟨x, y, post, by rw [hl, List.cons_append], hxy⟩
    simp [collapse, hf, ih htail]

/-! ## 2. Around a first half -/

/-- What is no second half starts afresh. -/
theorem collapse_append (ha : ∀ x, f x a = none) (l : List α) :
    ∀ pre : List α, collapse f (pre ++ a :: l) = collapse f pre ++ collapse f (a :: l) := by
  intro pre
  induction pre using collapse.induct f with
  | case1 => rfl
  | case2 x => simp [collapse, ha x]
  | case3 x y pre z hf ih => simp [collapse, hf, ih]
  | case4 x y pre hf ih => simpa [collapse, hf] using ih

/-- A pair in a list with a known pair inside it is that pair, or stands before or behind it. -/
theorem pairAfter_append_pair (hapart : Apart f) (hab : (f a b).isSome) {post : List α}
    (h : PairAfter f pre (rest ++ a :: b :: post)) :
    pre = rest ∨ PairAfter f pre rest ∨ ∃ p, PairAfter f p post := by
  obtain ⟨x, y, tail, hl, hxy⟩ := h
  rcases List.append_eq_append_iff.mp hl with ⟨u, rfl, hu⟩ | ⟨u, rfl, hu⟩
  · rcases u with _ | ⟨u₀, _ | ⟨u₁, u⟩⟩
    · exact .inl (by simp)
    · -- the pair would begin with `b`
      simp only [List.cons_append, List.nil_append, List.cons.injEq] at hu
      obtain ⟨-, rfl, -⟩ := hu
      simp [hapart hab] at hxy
    · simp only [List.cons_append, List.cons.injEq] at hu
      exact .inr (.inr ⟨u, x, y, tail, hu.2.2, hxy⟩)
  · rcases u with _ | ⟨u₀, _ | ⟨u₁, u⟩⟩
    · exact .inl (by simp)
    · -- the pair would end with `a`
      simp only [List.cons_append, List.nil_append, List.cons.injEq] at hu
      obtain ⟨-, rfl, -⟩ := hu
      simp [hapart.eq_none hab] at hxy
    · simp only [List.cons_append, List.cons.injEq] at hu
      obtain ⟨rfl, rfl, -⟩ := hu
      exact .inr (.inl ⟨x, y, u, rfl, hxy⟩)

/-! ## 3. One place -/

theorem collapseHead_of_pair (hab : f a b = some c) (l : List α) :
    collapseHead f (a :: b :: l) = c :: l := by simp [collapseHead, hab]

/-- Without a pair at the head there is nothing for `collapseHead` to do. -/
theorem collapseHead_of_not_pairAfter (h : ¬ PairAfter f [] l) : collapseHead f l = l := by
  match l with
  | [] => rfl
  | [a] => rfl
  | a :: b :: l =>
    have hf : f a b = none := by
      by_contra hf
      exact h ⟨a, b, l, rfl, Option.isSome_iff_ne_none.mpr hf⟩
    simp [collapseHead, hf]

/-- **The pass touches one place only** exactly when pairs stand nowhere else. -/
theorem collapse_eq_append_collapseHead_iff (hapart : Apart f) :
    collapse f (pre ++ rest) = pre ++ collapseHead f rest ↔
      ∀ p, PairAfter f p (pre ++ rest) → p = pre := by
  by_cases hhead : PairAfter f [] rest
  · obtain ⟨a, b, post, rfl, hab⟩ := hhead
    obtain ⟨c, hc⟩ := Option.isSome_iff_exists.mp hab
    have hpass : collapse f (pre ++ ([] ++ a :: b :: post))
        = collapse f pre ++ c :: collapse f post := by
      rw [List.nil_append, collapse_append (hapart.eq_none hab)]
      simp [collapse, hc]
    rw [hpass, List.nil_append, collapseHead_of_pair hc]
    constructor
    · intro heq p hp
      have hlen := congrArg List.length heq
      have hpre := length_collapse_le f pre
      have hpost := length_collapse_le f post
      simp only [List.length_append, List.length_cons] at hlen
      rcases pairAfter_append_pair hapart hab hp with rfl | hp | ⟨q, hq⟩
      · rfl
      · have := length_collapse_lt hp
        omega
      · have := length_collapse_lt hq
        omega
    · intro h
      have hpre : ∀ p, ¬ PairAfter f p pre := by
        rintro p ⟨x, y, tail, rfl, hxy⟩
        have := h p ⟨x, y, tail ++ a :: b :: post, by simp, hxy⟩
        simpa using congrArg List.length this
      have hpost : ∀ p, ¬ PairAfter f p post := by
        rintro p ⟨x, y, tail, rfl, hxy⟩
        have := h (pre ++ a :: b :: p) ⟨x, y, tail, by simp, hxy⟩
        simpa using congrArg List.length this
      rw [collapse_of_forall_not_pairAfter hpre, collapse_of_forall_not_pairAfter hpost]
  · have hshift : PairAfter f pre (pre ++ rest) → PairAfter f [] rest := by
      rintro ⟨a, b, post, hl, hab⟩
      exact ⟨a, b, post, List.append_cancel_left hl, hab⟩
    rw [collapseHead_of_not_pairAfter hhead]
    constructor
    · intro heq p hp
      exact absurd (congrArg List.length heq) (Nat.ne_of_lt (length_collapse_lt hp))
    · intro h
      refine collapse_of_forall_not_pairAfter fun p hp => ?_
      exact hhead (hshift (h p hp ▸ hp))

/-! ## 4. Dropping elements -/

section Filter

variable {keep : α → Bool} {tail : List α}

/-- A pair comes about across dropped elements. -/
def PairAcross (f : α → α → Option α) (keep : α → Bool) (l : List α) : Prop :=
  ∃ pre a between b post, l = pre ++ a :: (between ++ b :: post) ∧ between ≠ [] ∧
    (∀ x ∈ between, keep x = false) ∧ (f a b).isSome

theorem not_pairAcross_nil : ¬ PairAcross f keep [] := by
  rintro ⟨pre, a, between, b, post, hl, -⟩
  simp at hl

/-- Behind what is no first half. -/
theorem PairAcross.of_cons (h : PairAcross f keep (a :: tail)) (ha : ∀ x, f a x = none) :
    PairAcross f keep tail := by
  obtain ⟨pre, b, between, c, post, hl, hrest⟩ := h
  cases pre with
  | nil =>
    obtain ⟨rfl, -⟩ := List.cons.inj hl
    simp [ha] at hrest
  | cons d pre => exact ⟨pre, b, between, c, post, (List.cons.inj hl).2, hrest⟩

theorem PairAcross.of_suffix (h : PairAcross f keep rest) (hsuffix : rest <:+ tail) :
    PairAcross f keep tail := by
  obtain ⟨head, rfl⟩ := hsuffix
  obtain ⟨pre, a, between, b, post, rfl, hpair⟩ := h
  exact ⟨head ++ pre, a, between, b, post, by simp, hpair⟩

/-- What stands first after dropping: nothing, or the first that is kept. -/
theorem filter_eq_nil_or_cons (keep : α → Bool) (l : List α) :
    l.filter keep = [] ∨ ∃ between b post, l = between ++ b :: post ∧
      (∀ x ∈ between, keep x = false) ∧ keep b = true ∧ l.filter keep = b :: post.filter keep := by
  induction l with
  | nil => exact .inl rfl
  | cons a l ih =>
    by_cases ha : keep a = true
    · exact .inr ⟨[], a, l, rfl, List.forall_mem_nil _, ha, List.filter_cons_of_pos ha⟩
    · rw [List.filter_cons_of_neg ha]
      rcases ih with hnil | ⟨between, b, post, rfl, hbetween, hb, hfilter⟩
      · exact .inl hnil
      · refine .inr ⟨a :: between, b, post, rfl, ?_, hb, hfilter⟩
        intro x hx
        rcases List.mem_cons.mp hx with rfl | hx
        · simpa using ha
        · exact hbetween x hx

/-- An element that pairs with nothing behind it. -/
theorem collapse_cons_of_unpaired (h : ∀ b, tail.head? = some b → f a b = none) :
    collapse f (a :: tail) = a :: collapse f tail := by
  cases tail with
  | nil => rfl
  | cons b tail => simp [collapse, h b rfl]

theorem filter_of_dropped {between post : List α} (hbetween : ∀ x ∈ between, keep x = false)
    (hb : keep b = true) : (between ++ b :: post).filter keep = b :: post.filter keep := by
  rw [List.filter_append, List.filter_eq_nil_iff.mpr (by simpa using hbetween), List.nil_append,
    List.filter_cons_of_pos hb]

/-- **The first element of the pass, with dropping and without.**  It is dropped, or it comes
first both times, or a pair comes about across what is dropped behind it. -/
theorem collapse_first (hapart : Apart f)
    (hkeep : ∀ {a b c}, f a b = some c → keep a = true ∧ keep b = true ∧ keep c = true)
    (a : α) (tail : List α) :
    ∃ w rest, collapse f (a :: tail) = w :: collapse f rest ∧ rest <:+ tail ∧
      ((keep w = false ∧ collapse f ((a :: tail).filter keep) = collapse f (rest.filter keep)
          ∧ (PairAcross f keep (a :: tail) → PairAcross f keep rest))
        ∨ (keep w = true
          ∧ collapse f ((a :: tail).filter keep) = w :: collapse f (rest.filter keep)
          ∧ (PairAcross f keep (a :: tail) → PairAcross f keep rest))
        ∨ ∃ between b c post, w = a ∧ rest = between ++ b :: post
          ∧ (∀ x ∈ between, keep x = false) ∧ f a b = some c
          ∧ collapse f ((a :: tail).filter keep) = c :: collapse f (post.filter keep)
          ∧ PairAcross f keep (a :: tail)) := by
  by_cases hpair : ∃ b c l, tail = b :: l ∧ f a b = some c
  · obtain ⟨b, c, l, rfl, hc⟩ := hpair
    obtain ⟨ha, hb, hkept⟩ := hkeep hc
    refine ⟨c, l, by simp [collapse, hc], List.suffix_cons b l,
      .inr (.inl ⟨hkept, ?_, fun hacross => ?_⟩)⟩
    · rw [List.filter_cons_of_pos ha, List.filter_cons_of_pos hb]
      simp [collapse, hc]
    · -- neither half of the pair that is there begins another
      obtain ⟨pre, x, between, y, post, hl, hne, hdropped, hxy⟩ := hacross
      cases pre with
      | nil =>
        obtain ⟨-, hl⟩ := List.cons.inj hl
        cases between with
        | nil => exact absurd rfl hne
        | cons z between =>
          obtain ⟨rfl, -⟩ := List.cons.inj hl
          exact absurd hb (by simp [hdropped b List.mem_cons_self])
      | cons z pre =>
        have hrest : PairAcross f keep (b :: l) :=
          ⟨pre, x, between, y, post, (List.cons.inj hl).2, hne, hdropped, hxy⟩
        have hsome : (f a b).isSome := by simp [hc]
        exact hrest.of_cons (hapart hsome)
  · have hfree : ∀ b, tail.head? = some b → f a b = none := by
      intro b hb
      obtain ⟨l, rfl⟩ := List.head?_eq_some_iff.mp hb
      by_contra hc
      obtain ⟨c, hc⟩ := Option.ne_none_iff_exists'.mp hc
      exact hpair ⟨b, c, l, rfl, hc⟩
    refine ⟨a, tail, collapse_cons_of_unpaired hfree, List.suffix_refl tail, ?_⟩
    by_cases ha : keep a = true
    · rw [List.filter_cons_of_pos ha]
      have hhead : PairAcross f keep (a :: tail) → PairAcross f keep tail ∨
          ∃ b post, keep b = true ∧ (f a b).isSome ∧ tail.filter keep = b :: post := by
        rintro ⟨pre, x, between, y, post, hl, hne, hdropped, hxy⟩
        cases pre with
        | nil =>
          obtain ⟨rfl, rfl⟩ := List.cons.inj hl
          obtain ⟨c, hc⟩ := Option.isSome_iff_exists.mp hxy
          have hy := (hkeep hc).2.1
          exact .inr ⟨y, _, hy, hxy, filter_of_dropped hdropped hy⟩
        | cons z pre =>
          exact .inl ⟨pre, x, between, y, post, (List.cons.inj hl).2, hne, hdropped, hxy⟩
      rcases filter_eq_nil_or_cons keep tail with hnil | ⟨between, b, post, rfl, hdropped, hb, hf⟩
      · refine .inr (.inl ⟨ha, by rw [hnil]; rfl, fun hacross => ?_⟩)
        rcases hhead hacross with htail | ⟨b, post, -, -, hf⟩
        · exact htail
        · simp [hnil] at hf
      · by_cases hc : f a b = none
        · refine .inr (.inl ⟨ha, ?_, fun hacross => ?_⟩)
          · exact collapse_cons_of_unpaired (by rw [hf]; simpa using hc)
          · rcases hhead hacross with htail | ⟨b', post', -, hpair, hf'⟩
            · exact htail
            · rw [hf] at hf'
              obtain ⟨rfl, -⟩ := List.cons.inj hf'
              simp [hc] at hpair
        · obtain ⟨c, hc⟩ := Option.ne_none_iff_exists'.mp hc
          have hne : between ≠ [] := by
            rintro rfl
            exact hpair ⟨b, c, post, rfl, hc⟩
          refine .inr (.inr ⟨between, b, c, post, rfl, rfl, hdropped, hc, ?_,
            [], a, between, b, post, rfl, hne, hdropped, by simp [hc]⟩)
          rw [hf]
          simp [collapse, hc]
    · have hnone : ∀ x, f a x = none := by
        intro x
        by_contra hx
        obtain ⟨c, hc⟩ := Option.ne_none_iff_exists'.mp hx
        exact ha (hkeep hc).1
      exact .inl ⟨by simpa using ha, by rw [List.filter_cons_of_neg ha], fun h => h.of_cons hnone⟩

/-- Without pairs across, dropping and the pass commute. -/
theorem collapse_filter (hapart : Apart f)
    (hkeep : ∀ {a b c}, f a b = some c → keep a = true ∧ keep b = true ∧ keep c = true)
    (l : List α) (hno : ¬ PairAcross f keep l) :
    collapse f (l.filter keep) = (collapse f l).filter keep := by
  match l with
  | [] => rfl
  | a :: tail =>
    obtain ⟨w, rest, hw, hsuffix, hcases⟩ := collapse_first hapart hkeep a tail
    have hsmaller : rest.length < (a :: tail).length := Nat.lt_succ_of_le hsuffix.length_le
    have hrest : ¬ PairAcross f keep rest := fun h =>
      hno (h.of_suffix (hsuffix.trans (List.suffix_cons a tail)))
    have ih := collapse_filter hapart hkeep rest hrest
    rcases hcases with ⟨hdrop, hf, -⟩ | ⟨hkept, hf, -⟩ | ⟨_, _, _, _, -, -, -, -, -, hacross⟩
    · rw [hw, hf, ih, List.filter_cons_of_neg (by simp [hdrop])]
    · rw [hw, hf, ih, List.filter_cons_of_pos hkept]
    · exact absurd hacross hno
termination_by l.length
decreasing_by exact hsmaller

/-- A dropped element is in no pair, so the pass leaves it. -/
theorem mem_collapse_of_dropped
    (hkeep : ∀ {a b c}, f a b = some c → keep a = true ∧ keep b = true ∧ keep c = true)
    {x : α} (hx : keep x = false) (hmem : x ∈ l) : x ∈ collapse f l := by
  induction l using collapse.induct f with
  | case1 => exact hmem
  | case2 a => exact hmem
  | case3 a b l c hf ih =>
    obtain ⟨ha, hb, -⟩ := hkeep hf
    have hrest : x ∈ l := by
      rcases List.mem_cons.mp hmem with rfl | hmem
      · simp [ha] at hx
      rcases List.mem_cons.mp hmem with rfl | hmem
      · simp [hb] at hx
      · exact hmem
    simp only [collapse, hf]
    exact List.mem_cons_of_mem _ (ih hrest)
  | case4 a b l hf ih =>
    simp only [collapse, hf]
    rcases List.mem_cons.mp hmem with rfl | hmem
    · exact List.mem_cons_self
    · exact List.mem_cons_of_mem _ (ih hmem)

/-- What the pass makes of kept elements is kept. -/
theorem forall_keep_collapse
    (hkeep : ∀ {a b c}, f a b = some c → keep a = true ∧ keep b = true ∧ keep c = true)
    (h : ∀ x ∈ l, keep x = true) : ∀ x ∈ collapse f l, keep x = true := by
  induction l using collapse.induct f with
  | case1 => exact h
  | case2 a => exact h
  | case3 a b l c hf ih =>
    simp only [collapse, hf]
    have hrest : ∀ x ∈ l, keep x = true := fun x hx =>
      h x (List.mem_cons_of_mem _ (List.mem_cons_of_mem _ hx))
    exact List.forall_mem_cons.mpr ⟨(hkeep hf).2.2, ih hrest⟩
  | case4 a b l hf ih =>
    simp only [collapse, hf]
    obtain ⟨ha, hrest⟩ := List.forall_mem_cons.mp h
    exact List.forall_mem_cons.mpr ⟨ha, ih hrest⟩

/-- If dropping before the pass does not show behind it, there was nothing to drop. -/
theorem forall_keep_of_collapse_eq
    (hkeep : ∀ {a b c}, f a b = some c → keep a = true ∧ keep b = true ∧ keep c = true)
    (h : collapse f (l.filter keep) = collapse f l) : ∀ x ∈ l, keep x = true := by
  intro x hx
  by_contra hdrop
  have hmem := mem_collapse_of_dropped hkeep (by simpa using hdrop) hx
  rw [← h] at hmem
  exact hdrop (forall_keep_collapse hkeep (fun y hy => (List.mem_filter.mp hy).2) x hmem)

theorem not_pairAcross_of_forall_keep (h : ∀ x ∈ l, keep x = true) : ¬ PairAcross f keep l := by
  rintro ⟨pre, a, between, b, post, rfl, hne, hdropped, -⟩
  obtain ⟨x, hx⟩ := List.exists_mem_of_ne_nil _ hne
  have hkept := h x (by simp [hx])
  simp [hdropped x hx] at hkept

end Filter

end Logosctl.Library
