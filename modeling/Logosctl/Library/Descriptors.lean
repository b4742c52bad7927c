/-
# Descriptors

A process refers to its open files by numbers.  What opens a file takes the lowest number that is
free, a duplicate refers to the file that another number refers to, and `dup2` makes a number refer
to that file whatever it referred to before.  A file is counted when it is opened, so that one that
is opened later is none of those before.

`Adds` is what a stretch of a program has opened; when that and nothing else is closed, every number
refers to what it did before (`Adds.closeAll`).
-/
import Mathlib.Data.List.Basic
import Mathlib.Logic.Function.Basic

namespace Logosctl.Library

/-! ## 1. Tables -/

/-- What each number refers to, and how many files were ever opened. -/
structure Descriptors where
  file : Nat → Option Nat
  size : Nat
  opened : Nat
  free : ∀ fd, size ≤ fd → file fd = none
  below : ∀ fd x, file fd = some x → x < opened

namespace Descriptors

/-- The lowest number that is free. -/
def lowest (d : Descriptors) : Nat :=
  ((List.range (d.size + 1)).find? fun fd => (d.file fd).isNone).getD d.size

/-- Let a number refer to a file that has been opened, or to none. -/
def assign (d : Descriptors) (fd : Nat) (x : Option Nat) (hx : ∀ y, x = some y → y < d.opened) :
    Descriptors where
  file := Function.update d.file fd x
  size := max d.size (fd + 1)
  opened := d.opened
  free := by
    intro k hk
    rw [Function.update_of_ne (by omega)]
    exact d.free k (by omega)
  below := by
    intro k y hy
    rw [Function.update_apply] at hy
    split at hy
    · exact hx y hy
    · exact d.below k y hy

def close (d : Descriptors) (fd : Nat) : Descriptors := d.assign fd none nofun

/-- Close each of these. -/
def closeAll (d : Descriptors) (fds : List Nat) : Descriptors := fds.foldl close d

/-- A file more, which no number refers to yet. -/
def count (d : Descriptors) : Descriptors where
  file := d.file
  size := d.size
  opened := d.opened + 1
  free := d.free
  below fd x h := Nat.lt_succ_of_lt (d.below fd x h)

/-- Open a file. -/
def openFile (d : Descriptors) : Descriptors × Nat :=
  (d.count.assign d.lowest (some d.opened) fun _ h => Option.some.inj h ▸ Nat.lt_succ_self _,
    d.lowest)

/-- A pipe: the end to read from and the end to write into. -/
def pipe (d : Descriptors) : Descriptors × Nat × Nat :=
  let (d, readEnd) := d.openFile
  let (d, writeEnd) := d.openFile
  (d, readEnd, writeEnd)

/-- None when `fd` is not open. -/
def dup (d : Descriptors) (fd : Nat) : Option (Descriptors × Nat) :=
  match h : d.file fd with
  | none => none
  | some x => some (d.assign d.lowest (some x) fun _ hy => d.below fd _ (h.trans hy), d.lowest)

/-- None when `fd` is not open. -/
def dup2 (d : Descriptors) (fd new : Nat) : Option Descriptors :=
  match h : d.file fd with
  | none => none
  | some x => some (d.assign new (some x) fun _ hy => d.below fd _ (h.trans hy))

/-! ## 2. What each operation does -/

section Operations

variable {d d' : Descriptors} {fd new k : Nat} {x : Option Nat} {fds : List Nat}

/-- It is free, and none below it is. -/
theorem lowest_spec (d : Descriptors) :
    d.file d.lowest = none ∧ ∀ fd, d.file fd = none → d.lowest ≤ fd := by
  unfold lowest
  cases h : (List.range (d.size + 1)).find? fun fd => (d.file fd).isNone with
  | none =>
    rw [List.find?_eq_none] at h
    have hsize := d.free d.size (Nat.le_refl _)
    exact absurd (by rw [hsize]; rfl) (h d.size (List.mem_range.mpr (Nat.lt_succ_self _)))
  | some fd =>
    obtain ⟨hnone, i, hi, hget, hfirst⟩ := List.find?_eq_some_iff_getElem.mp h
    simp only [List.getElem_range] at hget hfirst
    subst hget
    refine ⟨Option.isNone_iff_eq_none.mp hnone, ?_⟩
    intro k hk
    by_contra hlt
    have := hfirst k (Nat.not_le.mp hlt)
    simp [hk] at this

theorem file_lowest (d : Descriptors) : d.file d.lowest = none := d.lowest_spec.1

theorem lowest_le (h : d.file fd = none) : d.lowest ≤ fd := d.lowest_spec.2 fd h

theorem lowest_ne (h : d.file fd ≠ none) : d.lowest ≠ fd := by
  rintro rfl
  exact h d.file_lowest

@[simp] theorem assign_file (hx : ∀ y, x = some y → y < d.opened) :
    (d.assign fd x hx).file = Function.update d.file fd x := rfl

@[simp] theorem close_file : (d.close fd).file = Function.update d.file fd none := rfl

theorem openFile_file : d.openFile.1.file = Function.update d.file d.openFile.2 (some d.opened) :=
  rfl

/-- What was open stays open when a file is opened, and the number it gets is open as well. -/
theorem openFile_open (h : d.file k ≠ none ∨ k = d.lowest) : d.openFile.1.file k ≠ none := by
  rw [openFile_file, Function.update_apply]
  split
  · exact nofun
  · next hne => exact h.resolve_right hne

theorem closeAll_file (fds : List Nat) :
    (d.closeAll fds).file k = if k ∈ fds then none else d.file k := by
  induction fds generalizing d with
  | nil => simp [closeAll]
  | cons fd fds ih =>
    have hall : d.closeAll (fd :: fds) = (d.close fd).closeAll fds := rfl
    rw [hall, ih, close_file, Function.update_apply]
    by_cases hk : k = fd
    · simp [hk]
    · simp [hk]

theorem dup_eq_some (h : d.file fd = some k) : ∃ d', d.dup fd = some (d', d.lowest) ∧
    d'.file = Function.update d.file d.lowest (some k) ∧ d'.opened = d.opened := by
  unfold dup
  split
  · next hnone => exact absurd (h.symm.trans hnone) nofun
  · next y hy =>
    have hyk : y = k := Option.some.inj (hy.symm.trans h)
    subst hyk
    exact ⟨_, rfl, rfl, rfl⟩

theorem dup_eq_none_iff : d.dup fd = none ↔ d.file fd = none := by
  unfold dup
  split <;> simp_all

theorem dup2_eq_some (h : d.file fd = some k) : ∃ d', d.dup2 fd new = some d' ∧
    d'.file = Function.update d.file new (some k) ∧ d'.opened = d.opened := by
  unfold dup2
  split
  · next hnone => exact absurd (h.symm.trans hnone) nofun
  · next y hy =>
    have hyk : y = k := Option.some.inj (hy.symm.trans h)
    subst hyk
    exact ⟨_, rfl, rfl, rfl⟩

end Operations

/-! ## 3. What was opened -/

/-- What has happened since `d` is that these numbers, which were free, have been taken. -/
structure Adds (d d' : Descriptors) (fds : List Nat) : Prop where
  fresh : ∀ fd ∈ fds, d.file fd = none
  same : ∀ fd, fd ∉ fds → d'.file fd = d.file fd
  opened : d.opened ≤ d'.opened

section Adds

variable {d d' d'' : Descriptors} {fd : Nat} {x : Option Nat} {fds : List Nat}

theorem Adds.refl (d : Descriptors) : Adds d d [] where
  fresh := nofun
  same _ _ := rfl
  opened := Nat.le_refl _

/-- A number that was free is one more, whatever it refers to now. -/
theorem Adds.cons (h : Adds d d' fds) (hfree : d'.file fd = none)
    (hfile : d''.file = Function.update d'.file fd x) (hopened : d'.opened ≤ d''.opened) :
    Adds d d'' (fd :: fds) where
  fresh := by
    rw [List.forall_mem_cons]
    refine ⟨?_, h.fresh⟩
    by_cases hmem : fd ∈ fds
    · exact h.fresh fd hmem
    · exact (h.same fd hmem).symm.trans hfree
  same := by
    intro k hk
    rw [List.mem_cons, not_or] at hk
    rw [hfile, Function.update_of_ne hk.1]
    exact h.same k hk.2
  opened := Nat.le_trans h.opened hopened

theorem Adds.openFile (h : Adds d d' fds) : Adds d d'.openFile.1 (d'.openFile.2 :: fds) :=
  h.cons d'.file_lowest openFile_file (Nat.le_succ _)

/-- Another file behind a number that was taken. -/
theorem Adds.update (h : Adds d d' fds) (hmem : fd ∈ fds)
    (hfile : d''.file = Function.update d'.file fd x) (hopened : d'.opened ≤ d''.opened) :
    Adds d d'' fds where
  fresh := h.fresh
  same := by
    intro k hk
    have hne : k ≠ fd := fun heq => hk (heq.symm ▸ hmem)
    rw [hfile, Function.update_of_ne hne]
    exact h.same k hk
  opened := Nat.le_trans h.opened hopened

/-- **What was taken and is closed leaves everything as it was.** -/
theorem Adds.closeAll (h : Adds d d' fds) {closed : List Nat}
    (hclosed : ∀ fd, fd ∈ closed ↔ fd ∈ fds) : (d'.closeAll closed).file = d.file := by
  funext k
  rw [closeAll_file]
  by_cases hk : k ∈ closed
  · rw [if_pos hk, h.fresh k ((hclosed k).mp hk)]
  · rw [if_neg hk]
    exact h.same k fun hmem => hk ((hclosed k).mpr hmem)

end Adds

end Descriptors

end Logosctl.Library
