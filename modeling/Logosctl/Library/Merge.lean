/-
# Merging lists that are in dependency order

Over a relation `R x y` read as "`x` depends on `y`".  A list is in order when what depends on a
member stands before it, and closed when it has every dependent of its members.  `keepFirst acc l`
goes on from `acc` with the members of `l` that are new.  Merging lists so, each of them closed and
in order, gives a list that is closed and in order again (`dependentsFirst_mergeAll`): a member of a
later list that is new cannot be what an earlier list was waiting for.
-/
import Mathlib.Data.List.Nodup
import Mathlib.Logic.Relation

namespace Logosctl.Library

variable {α : Type} [DecidableEq α]

/-! ## 1. Keeping first occurrences -/

/-- `acc`, and then what `l` has that was not there before. -/
def keepFirst (acc l : List α) : List α :=
  l.foldl (fun acc x => if x ∈ acc then acc else acc ++ [x]) acc

/-- Several lists, one after the other. -/
def mergeAll (ls : List (List α)) : List α := ls.foldl keepFirst []

section KeepFirst

variable {x : α} {acc l : List α}

@[simp] theorem keepFirst_nil : keepFirst acc [] = acc := rfl

theorem keepFirst_cons :
    keepFirst acc (x :: l) = keepFirst (if x ∈ acc then acc else acc ++ [x]) l := rfl

@[simp] theorem mem_keepFirst : x ∈ keepFirst acc l ↔ x ∈ acc ∨ x ∈ l := by
  induction l generalizing acc with
  | nil => simp
  | cons y l ih =>
    rw [keepFirst_cons, ih, List.mem_cons]
    split_ifs with hy
    · constructor
      · exact Or.imp_right Or.inr
      · rintro (h | rfl | h)
        · exact Or.inl h
        · exact Or.inl hy
        · exact Or.inr h
    · rw [List.mem_append, List.mem_singleton, or_assoc]

theorem nodup_keepFirst (h : acc.Nodup) : (keepFirst acc l).Nodup := by
  induction l generalizing acc with
  | nil => exact h
  | cons y l ih =>
    rw [keepFirst_cons]
    refine ih ?_
    split_ifs with hy
    · exact h
    · refine List.nodup_append.mpr ⟨h, List.nodup_singleton y, ?_⟩
      rintro a ha b hb rfl
      exact hy (List.mem_singleton.mp hb ▸ ha)

end KeepFirst

/-! ## 2. Closed lists in order -/

variable {R : α → α → Prop}

/-- Every dependent of a member is a member. -/
def HasDependents (R : α → α → Prop) (l : List α) : Prop := ∀ y ∈ l, ∀ x, R x y → x ∈ l

/-- What depends on a member stands before it. -/
def DependentsFirst (R : α → α → Prop) (l : List α) : Prop :=
  ∀ x ∈ l, ∀ y ∈ l, R x y → l.idxOf x < l.idxOf y

section Order

variable {x : α} {acc l : List α}

theorem dependentsFirst_nil : DependentsFirst R ([] : List α) := nofun

/-- One more member at the end, that depends on none of the others and not on itself. -/
theorem dependentsFirst_push (h : DependentsFirst R l) (hx : x ∉ l) (hself : ¬ R x x)
    (hnone : ∀ a ∈ l, ¬ R x a) : DependentsFirst R (l ++ [x]) := by
  intro a ha b hb hab
  rcases List.mem_append.mp ha with ha | ha
  · rw [List.idxOf_append_of_mem ha]
    rcases List.mem_append.mp hb with hb | hb
    · rw [List.idxOf_append_of_mem hb]
      exact h a ha b hb hab
    · rw [List.mem_singleton.mp hb, List.idxOf_append_of_notMem hx]
      exact Nat.lt_of_lt_of_le (List.idxOf_lt_length_of_mem ha) (Nat.le_add_right _ _)
  · rw [List.mem_singleton.mp ha] at hab
    rcases List.mem_append.mp hb with hb | hb
    · exact absurd hab (hnone b hb)
    · rw [List.mem_singleton.mp hb] at hab
      exact absurd hab hself

/-- Nothing in an ordered list depends on itself. -/
theorem DependentsFirst.irrefl (h : DependentsFirst R l) (hx : x ∈ l) : ¬ R x x :=
  fun hxx => absurd (h x hx x hx hxx) (Nat.lt_irrefl _)

/-- The head of an ordered list is depended on by none of the others, unless it comes again. -/
theorem DependentsFirst.not_of_head (h : DependentsFirst R (x :: l)) {y : α} (hy : y ∈ l) :
    ¬ R y x := by
  intro hyx
  have hlt := h y (List.mem_cons_of_mem x hy) x List.mem_cons_self hyx
  rw [List.idxOf_cons_self] at hlt
  exact absurd hlt (Nat.not_lt_zero _)

theorem DependentsFirst.tail (h : DependentsFirst R (x :: l)) (hx : x ∉ l) :
    DependentsFirst R l := by
  intro a ha b hb hab
  have hlt := h a (List.mem_cons_of_mem x ha) b (List.mem_cons_of_mem x hb) hab
  have hax : x ≠ a := fun heq => hx (heq ▸ ha)
  have hbx : x ≠ b := fun heq => hx (heq ▸ hb)
  rw [List.idxOf_cons_ne _ hax, List.idxOf_cons_ne _ hbx] at hlt
  exact Nat.lt_of_succ_lt_succ hlt

/-- Going on with an ordered list keeps the order, when the list waits for nothing of what is
there that is not there already. -/
theorem dependentsFirst_keepFirst (hacc : DependentsFirst R acc) (hl : DependentsFirst R l)
    (hnodup : l.Nodup) (hthere : ∀ x ∈ l, ∀ a ∈ acc, R x a → x ∈ acc) :
    DependentsFirst R (keepFirst acc l) := by
  induction l generalizing acc with
  | nil => exact hacc
  | cons x l ih =>
    obtain ⟨hx, hnodup⟩ := List.nodup_cons.mp hnodup
    rw [keepFirst_cons]
    split_ifs with hmem
    · exact ih hacc (hl.tail hx) hnodup fun y hy => hthere y (List.mem_cons_of_mem x hy)
    · refine ih ?_ (hl.tail hx) hnodup ?_
      · refine dependentsFirst_push hacc hmem (hl.irrefl List.mem_cons_self) ?_
        exact fun a ha hxa => hmem (hthere x List.mem_cons_self a ha hxa)
      · intro y hy a ha hya
        rcases List.mem_append.mp ha with ha | ha
        · exact List.mem_append_left _ (hthere y (List.mem_cons_of_mem x hy) a ha hya)
        · rw [List.mem_singleton.mp ha] at hya
          exact absurd hya (hl.not_of_head hy)

theorem hasDependents_keepFirst (hacc : HasDependents R acc) (hl : HasDependents R l) :
    HasDependents R (keepFirst acc l) := by
  intro y hy x hxy
  rcases mem_keepFirst.mp hy with hy | hy
  · exact mem_keepFirst.mpr (Or.inl (hacc y hy x hxy))
  · exact mem_keepFirst.mpr (Or.inr (hl y hy x hxy))

/-! ## 3. Several lists -/

/-- What the lists merged so far keep, whatever comes next. -/
theorem foldl_keepFirst {ls : List (List α)} :
    ∀ {acc : List α}, acc.Nodup → HasDependents R acc → DependentsFirst R acc →
      (∀ l ∈ ls, l.Nodup ∧ HasDependents R l ∧ DependentsFirst R l) →
      (ls.foldl keepFirst acc).Nodup ∧ DependentsFirst R (ls.foldl keepFirst acc) ∧
        ∀ x, x ∈ ls.foldl keepFirst acc ↔ x ∈ acc ∨ ∃ l ∈ ls, x ∈ l := by
  induction ls with
  | nil => exact fun hnodup _ hordered _ => ⟨hnodup, hordered, fun x => by simp⟩
  | cons l ls ih =>
    intro acc hnodup hclosed hordered hls
    obtain ⟨hlNodup, hlClosed, hlOrdered⟩ := hls l List.mem_cons_self
    have hthere : ∀ x ∈ l, ∀ a ∈ acc, R x a → x ∈ acc := fun x _ a ha => hclosed a ha x
    obtain ⟨hmergedNodup, hmergedOrdered, hmem⟩ := ih (nodup_keepFirst hnodup)
      (hasDependents_keepFirst hclosed hlClosed)
      (dependentsFirst_keepFirst hordered hlOrdered hlNodup hthere)
      fun l' hl' => hls l' (List.mem_cons_of_mem l hl')
    refine ⟨hmergedNodup, hmergedOrdered, fun x => (hmem x).trans ?_⟩
    rw [mem_keepFirst, List.exists_mem_cons_iff, or_assoc]

/-- **Closed lists in order merge into a list in order**, without repetition and with the members
of all of them. -/
theorem dependentsFirst_mergeAll {ls : List (List α)}
    (h : ∀ l ∈ ls, l.Nodup ∧ HasDependents R l ∧ DependentsFirst R l) :
    (mergeAll ls).Nodup ∧ DependentsFirst R (mergeAll ls) ∧
      ∀ x, x ∈ mergeAll ls ↔ ∃ l ∈ ls, x ∈ l := by
  obtain ⟨hnodup, hordered, hmem⟩ :=
    foldl_keepFirst (R := R) List.nodup_nil nofun dependentsFirst_nil h
  exact ⟨hnodup, hordered, fun x => (hmem x).trans (by simp)⟩

end Order

end Logosctl.Library
