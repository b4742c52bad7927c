/-
# One cell under a history of writes

A cell that some of the events of a history write, each of those its own value, and the others
leave alone: `writes e` is `some v` when `e` writes `v`.  What the cell holds after a history is
what the last write in it left, or what it held before when nothing wrote.

A whole store is a family of such cells, one for each key, read off one history.
-/
import Mathlib.Data.List.Basic

namespace Logosctl.Library

variable {α β : Type}

/-- What the cell holds after the history, when it held `b` before it. -/
def lastWrite (writes : α → Option β) (b : β) (history : List α) : β :=
  history.foldl (fun b a => (writes a).getD b) b

section LastWrite

variable {writes : α → Option β} {b v : β} {a : α} {l l' : List α}

@[simp] theorem lastWrite_nil : lastWrite writes b [] = b := rfl

@[simp] theorem lastWrite_cons :
    lastWrite writes b (a :: l) = lastWrite writes ((writes a).getD b) l := rfl

theorem lastWrite_append :
    lastWrite writes b (l ++ l') = lastWrite writes (lastWrite writes b l) l' :=
  List.foldl_append

/-- A history that does not write the cell leaves it as it was. -/
theorem lastWrite_of_none (h : ∀ a ∈ l, writes a = none) : lastWrite writes b l = b := by
  induction l with
  | nil => rfl
  | cons a l ih =>
    rw [lastWrite_cons, h a (by simp)]
    exact ih fun x hx => h x (by simp [hx])

/-- Cells that the events of a history write alike hold the same after it. -/
theorem lastWrite_congr {writes' : α → Option β} (h : ∀ a ∈ l, writes a = writes' a) :
    lastWrite writes b l = lastWrite writes' b l := by
  induction l generalizing b with
  | nil => rfl
  | cons a l ih =>
    rw [lastWrite_cons, lastWrite_cons, h a List.mem_cons_self]
    exact ih fun x hx => h x (List.mem_cons_of_mem a hx)

/-- A cell that holds the image of what another one holds. -/
theorem lastWrite_map {γ : Type} (f : β → γ) :
    lastWrite (fun a => (writes a).map f) (f b) l = f (lastWrite writes b l) := by
  induction l generalizing b with
  | nil => rfl
  | cons a l ih =>
    rw [lastWrite_cons, lastWrite_cons, ← ih, Option.getD_map]

/-- The last event of a history, if it writes, decides. -/
theorem lastWrite_concat :
    lastWrite writes b (l ++ [a]) = (writes a).getD (lastWrite writes b l) := by
  rw [lastWrite_append]
  rfl

/-- **The last write wins.**  The cell holds `v` after a history exactly when the last event
that wrote it wrote `v`, or nothing wrote it and it held `v` before. -/
theorem lastWrite_eq_iff :
    lastWrite writes b l = v ↔
      (∃ pre a post, l = pre ++ a :: post ∧ writes a = some v ∧ ∀ x ∈ post, writes x = none) ∨
        (b = v ∧ ∀ x ∈ l, writes x = none) := by
  induction l generalizing b with
  | nil => simp
  | cons a l ih =>
    rw [lastWrite_cons, ih]
    constructor
    · rintro (⟨pre, x, post, rfl, hx, hpost⟩ | ⟨hv, hnone⟩)
      · exact Or.inl ⟨a :: pre, x, post, rfl, hx, hpost⟩
      · cases ha : writes a with
        | some u =>
          rw [ha, Option.getD_some] at hv
          exact Or.inl ⟨[], a, l, rfl, hv ▸ ha, hnone⟩
        | none =>
          rw [ha, Option.getD_none] at hv
          exact Or.inr ⟨hv, List.forall_mem_cons.mpr ⟨ha, hnone⟩⟩
    · rintro (⟨pre, x, post, heq, hx, hpost⟩ | ⟨hb, hnone⟩)
      · cases pre with
        | nil =>
          obtain ⟨rfl, rfl⟩ := List.cons.inj heq
          exact Or.inr ⟨by rw [hx, Option.getD_some], hpost⟩
        | cons y pre =>
          obtain ⟨-, rfl⟩ := List.cons.inj heq
          exact Or.inl ⟨pre, x, post, rfl, hx, hpost⟩
      · obtain ⟨ha, hnone⟩ := List.forall_mem_cons.mp hnone
        exact Or.inr ⟨by rw [ha, Option.getD_none, hb], hnone⟩

end LastWrite

end Logosctl.Library
