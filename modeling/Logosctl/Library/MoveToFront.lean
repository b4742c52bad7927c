/-
# Moving the first match to the front

`moveToFront p d l` is `l` with the first element that satisfies `p` in front of the others, or
with `d` in front when there is none.  The elements that do not satisfy `p` keep their order, and
doing it again changes nothing; but only the first match is moved, so the others stay where they
are, and the front is the only match exactly when there was at most one.
-/
import Mathlib.Data.List.Basic

namespace Logosctl.Library

variable {α : Type} {p : α → Bool} {d : α}

def moveToFront (p : α → Bool) (d : α) (l : List α) : List α :=
  match l.find? p with
  | some x => x :: l.eraseP p
  | none => d :: l

/-- In front there is a match. -/
theorem exists_moveToFront (hd : p d = true) (l : List α) :
    ∃ x rest, moveToFront p d l = x :: rest ∧ p x = true := by
  unfold moveToFront
  cases h : l.find? p with
  | none => exact ⟨d, l, rfl, hd⟩
  | some x => exact ⟨x, l.eraseP p, rfl, List.find?_some h⟩

/-- A list with a match in front stays as it is. -/
theorem moveToFront_cons {x : α} (hx : p x = true) (l : List α) :
    moveToFront p d (x :: l) = x :: l := by
  simp [moveToFront, hx]

theorem moveToFront_moveToFront (hd : p d = true) (l : List α) :
    moveToFront p d (moveToFront p d l) = moveToFront p d l := by
  obtain ⟨x, rest, hfront, hx⟩ := exists_moveToFront hd l
  rw [hfront, moveToFront_cons hx]

theorem filter_not_eraseP (l : List α) :
    (l.eraseP p).filter (fun x => !p x) = l.filter (fun x => !p x) := by
  induction l with
  | nil => rfl
  | cons x l ih =>
    cases hx : p x with
    | true => simp [hx]
    | false => simp [hx, ih]

/-- **What does not match keeps its order.** -/
theorem filter_not_moveToFront (hd : p d = true) (l : List α) :
    (moveToFront p d l).filter (fun x => !p x) = l.filter (fun x => !p x) := by
  unfold moveToFront
  cases h : l.find? p with
  | none => simp [hd]
  | some x => simp [List.find?_some h, filter_not_eraseP]

theorem countP_moveToFront (hd : p d = true) (l : List α) :
    (moveToFront p d l).countP p = max 1 (l.countP p) := by
  unfold moveToFront
  cases h : l.find? p with
  | none =>
    have hnone : l.countP p = 0 := List.countP_eq_zero.mpr (List.find?_eq_none.mp h)
    simp [hd, hnone]
  | some x =>
    have hmem : x ∈ l := List.mem_of_find?_eq_some h
    have hx : p x = true := List.find?_some h
    obtain ⟨y, l₁, l₂, -, hy, hl, herase⟩ := List.exists_of_eraseP hmem hx
    dsimp only
    rw [List.countP_cons_of_pos hx, herase, hl, List.countP_append, List.countP_append,
      List.countP_cons_of_pos hy]
    omega

/-- **The front is the only match** exactly when there was at most one. -/
theorem only_front_iff (hd : p d = true) (l : List α) :
    (∃ x rest, moveToFront p d l = x :: rest ∧ p x = true ∧ ∀ y ∈ rest, p y = false) ↔
      l.countP p ≤ 1 := by
  have hcount := countP_moveToFront hd l
  constructor
  · rintro ⟨x, rest, hfront, hx, hrest⟩
    have hzero : rest.countP p = 0 :=
      List.countP_eq_zero.mpr fun y hy => by simp [hrest y hy]
    rw [hfront, List.countP_cons_of_pos hx, hzero] at hcount
    omega
  · intro hone
    obtain ⟨x, rest, hfront, hx⟩ := exists_moveToFront hd l
    refine ⟨x, rest, hfront, hx, ?_⟩
    rw [hfront, List.countP_cons_of_pos hx] at hcount
    have hzero : rest.countP p = 0 := by omega
    intro y hy
    simpa using List.countP_eq_zero.mp hzero y hy

end Logosctl.Library
