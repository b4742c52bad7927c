/-
# Files behind names

A file system as a program meets it through descriptors and names.  A name stands for an inode, an
inode holds a mode and data, and a descriptor goes on writing to its inode whatever becomes of the
name: a rename puts the inode under another name in one step, an unlink takes the name away, and an
open that truncates empties the inode that is there, for every descriptor on it.

There are no hard links: two names never share an inode.  That, and that no name stands for an
inode yet to be made, are fields, so every operation keeps them and the frame lemmas need no
hypothesis about the files.
-/
import Mathlib.Logic.Function.Basic

namespace Logosctl.Library

/-! ## 1. Inodes and names -/

/-- What is behind a name. -/
structure Inode (β : Type) where
  mode : Nat
  data : List β

/-- Names `ν` for inodes with data of `β`. -/
structure Files (ν β : Type) where
  inode : ν → Option Nat
  node : Nat → Inode β
  next : Nat
  below : ∀ n i, inode n = some i → i < next
  apart : ∀ m n i, inode m = some i → inode n = some i → m = n

namespace Files

variable {ν β : Type}

/-- What stands under a name. -/
def find (f : Files ν β) (n : ν) : Option (Inode β) := (f.inode n).map f.node

/-- The data under a name. -/
def read (f : Files ν β) (n : ν) : Option (List β) := (f.find n).map Inode.data

theorem find_eq {f : Files ν β} {n : ν} {i : Nat} (h : f.inode n = some i) :
    f.find n = some (f.node i) := by
  rw [find, h]
  rfl

/-- A name that stands for the same inode, left alone, reads the same. -/
theorem find_congr {f f' : Files ν β} {n : ν} (hinode : f'.inode n = f.inode n)
    (hnode : ∀ i, f.inode n = some i → f'.node i = f.node i) : f'.find n = f.find n := by
  unfold find
  rw [hinode]
  cases h : f.inode n with
  | none => rfl
  | some i => rw [Option.map_some, Option.map_some, hnode i h]

/-- No file at all. -/
def empty : Files ν β where
  inode _ := none
  node _ := ⟨0, []⟩
  next := 0
  below := nofun
  apart := nofun

/-! ## 2. Operations on an inode -/

/-- `data` with `chunk` written at `offset`; a gap is filled. -/
def overwrite [Inhabited β] (data : List β) (offset : Nat) (chunk : List β) : List β :=
  data.take offset ++ List.replicate (offset - data.length) default ++ chunk ++
    data.drop (offset + chunk.length)

/-- At the end of the data a write is an append. -/
theorem overwrite_length [Inhabited β] (data chunk : List β) :
    overwrite data data.length chunk = data ++ chunk := by
  simp [overwrite]

/-- Another inode in the place of one. -/
def setNode (f : Files ν β) (i : Nat) (x : Inode β) : Files ν β :=
  { f with node := Function.update f.node i x }

@[simp] theorem setNode_node_self (f : Files ν β) (i : Nat) (x : Inode β) :
    (f.setNode i x).node i = x := Function.update_self ..

theorem setNode_node_of_ne (f : Files ν β) {i j : Nat} (x : Inode β) (h : j ≠ i) :
    (f.setNode i x).node j = f.node j := Function.update_of_ne h ..

/-- A name of another inode is not affected. -/
theorem setNode_find_of_ne {f : Files ν β} {i : Nat} {x : Inode β} {n : ν}
    (h : f.inode n ≠ some i) : (f.setNode i x).find n = f.find n := by
  refine find_congr rfl ?_
  rintro j hj
  refine setNode_node_of_ne f x ?_
  rintro rfl
  exact h hj

/-- A write through a descriptor. -/
def write [Inhabited β] (f : Files ν β) (i offset : Nat) (chunk : List β) : Files ν β :=
  f.setNode i { f.node i with data := overwrite (f.node i).data offset chunk }

theorem write_find_of_ne [Inhabited β] {f : Files ν β} {i offset : Nat} {chunk : List β} {n : ν}
    (h : f.inode n ≠ some i) : (f.write i offset chunk).find n = f.find n :=
  setNode_find_of_ne h

/-- A write at the end is an append. -/
theorem write_node_end [Inhabited β] {f : Files ν β} {i offset : Nat} {x : Inode β}
    (hnode : f.node i = x) (hend : offset = x.data.length) (chunk : List β) :
    (f.write i offset chunk).node i = { x with data := x.data ++ chunk } := by
  subst hnode hend
  rw [write, setNode_node_self, overwrite_length]

/-- A write into an empty file. -/
theorem write_read_of_empty [Inhabited β] {f : Files ν β} {i : Nat} {n : ν}
    (h : f.inode n = some i) (hempty : (f.node i).data = []) (data : List β) :
    (f.write i 0 data).read n = some data := by
  have hinode : (f.write i 0 data).inode n = some i := h
  have hwrite := overwrite_length [] data
  rw [read, find_eq hinode, write, setNode_node_self, hempty]
  exact congrArg some hwrite

/-- The truncation of an inode. -/
def truncate (f : Files ν β) (i : Nat) : Files ν β := f.setNode i { f.node i with data := [] }

/-- Change the mode of what stands under a name. -/
def chmod (f : Files ν β) (mode : Nat) (n : ν) : Files ν β :=
  match f.inode n with
  | some i => f.setNode i { f.node i with mode := mode }
  | none => f

@[simp] theorem chmod_inode (f : Files ν β) (mode : Nat) (n : ν) :
    (f.chmod mode n).inode = f.inode := by
  unfold chmod
  split <;> rfl

/-- A change of mode is no change of data. -/
@[simp] theorem chmod_data (f : Files ν β) (mode : Nat) (n : ν) (i : Nat) :
    ((f.chmod mode n).node i).data = (f.node i).data := by
  unfold chmod
  split
  · rename_i j _
    by_cases h : i = j
    · rw [h, setNode_node_self]
    · rw [setNode_node_of_ne f _ h]
  · rfl

@[simp] theorem chmod_read (f : Files ν β) (mode : Nat) (n m : ν) :
    (f.chmod mode n).read m = f.read m := by
  unfold read find
  rw [chmod_inode]
  cases f.inode m with
  | none => rfl
  | some i => exact congrArg some (chmod_data f mode n i)

theorem chmod_find_of_ne {f : Files ν β} {mode : Nat} {n m : ν} (h : m ≠ n) :
    (f.chmod mode n).find m = f.find m := by
  refine find_congr (by rw [chmod_inode]) ?_
  intro i hi
  unfold chmod
  split
  · rename_i j hj
    refine setNode_node_of_ne f _ ?_
    rintro rfl
    exact h (f.apart m n i hi hj)
  · rfl

/-! ## 3. Operations on names -/

section Names

variable [DecidableEq ν]

/-- A new empty file under a name that has none. -/
def create (f : Files ν β) (mode : Nat) (n : ν) : Files ν β where
  inode := Function.update f.inode n (some f.next)
  node := Function.update f.node f.next ⟨mode, []⟩
  next := f.next + 1
  below := by
    intro m i h
    rw [Function.update_apply] at h
    split at h
    · cases h
      omega
    · have := f.below m i h
      omega
  apart := by
    intro a b i ha hb
    rw [Function.update_apply] at ha hb
    split at ha <;> split at hb
    · rename_i hx hy
      rw [hx, hy]
    · cases ha
      exact absurd (f.below b _ hb) (Nat.lt_irrefl _)
    · cases hb
      exact absurd (f.below a _ ha) (Nat.lt_irrefl _)
    · exact f.apart a b i ha hb

/-- Open for writing, created with `mode` if missing and truncated if not: the descriptor's
inode. -/
def openTrunc (f : Files ν β) (mode : Nat) (n : ν) : Files ν β × Nat :=
  match f.inode n with
  | some i => (f.truncate i, i)
  | none => (f.create mode n, f.next)

/-- Take a name away. -/
def unlink (f : Files ν β) (n : ν) : Files ν β where
  inode := Function.update f.inode n none
  node := f.node
  next := f.next
  below := by
    intro m i h
    rw [Function.update_apply] at h
    split at h
    · cases h
    · exact f.below m i h
  apart := by
    intro a b i ha hb
    rw [Function.update_apply] at ha hb
    split at ha
    · cases ha
    · split at hb
      · cases hb
      · exact f.apart a b i ha hb

/-- The inode of `a` under the name `b` in its stead. -/
def move (f : Files ν β) (a b : ν) (i : Nat) (h : f.inode a = some i) : Files ν β where
  inode := Function.update (Function.update f.inode a none) b (some i)
  node := f.node
  next := f.next
  below := by
    intro m j hj
    rw [Function.update_apply, Function.update_apply] at hj
    split at hj
    · cases hj
      exact f.below a _ h
    · split at hj
      · cases hj
      · exact f.below m j hj
  apart := by
    have hmoved : ∀ m, m ≠ a → f.inode m ≠ some i := fun m hm hi => hm (f.apart m a i hi h)
    intro m n j hm hn
    rw [Function.update_apply, Function.update_apply] at hm hn
    split at hm <;> split at hn
    · rename_i hx hy
      rw [hx, hy]
    · cases hm
      split at hn
      · cases hn
      · rename_i hne
        exact absurd hn (hmoved n hne)
    · cases hn
      split at hm
      · cases hm
      · rename_i hne
        exact absurd hm (hmoved m hne)
    · split at hm
      · cases hm
      · split at hn
        · cases hn
        · exact f.apart m n j hm hn

/-- Rename, in one step; none when there is nothing under the name. -/
def rename (f : Files ν β) (a b : ν) : Option (Files ν β) :=
  match h : f.inode a with
  | none => none
  | some i => some (f.move a b i h)

/-! ## 4. What each operation leaves -/

section Frames

variable {f f' : Files ν β} {a b n m : ν} {mode : Nat}

/-- An opened file is empty, and its descriptor is on what stands under the name. -/
theorem openTrunc_self (f : Files ν β) (mode : Nat) (n : ν) :
    (f.openTrunc mode n).1.inode n = some (f.openTrunc mode n).2 ∧
      ((f.openTrunc mode n).1.node (f.openTrunc mode n).2).data = [] := by
  unfold openTrunc
  cases h : f.inode n with
  | none => exact ⟨Function.update_self .., by simp [create]⟩
  | some i => exact ⟨h, by simp [truncate]⟩

/-- The mode under a name, or the one that a file made there would get. -/
def modeAt (f : Files ν β) (mode : Nat) (n : ν) : Nat := ((f.find n).map Inode.mode).getD mode

/-- An open that truncates keeps the mode of what was there. -/
theorem openTrunc_mode (f : Files ν β) (mode : Nat) (n : ν) :
    ((f.openTrunc mode n).1.node (f.openTrunc mode n).2).mode = f.modeAt mode n := by
  unfold openTrunc modeAt find
  cases f.inode n with
  | none => simp [create]
  | some i => simp [truncate]

/-- What an open and one write leave under the name. -/
theorem openTrunc_write_find [Inhabited β] (f : Files ν β) (mode : Nat) (n : ν) (data : List β) :
    ((f.openTrunc mode n).1.write (f.openTrunc mode n).2 0 data).find n
      = some ⟨f.modeAt mode n, data⟩ := by
  obtain ⟨hself, hempty⟩ := f.openTrunc_self mode n
  have hself' : ((f.openTrunc mode n).1.write (f.openTrunc mode n).2 0 data).inode n
      = some (f.openTrunc mode n).2 := hself
  have hdata : overwrite [] 0 data = data := overwrite_length [] data
  rw [find_eq hself', write, setNode_node_self, hempty, hdata]
  simp only [openTrunc_mode]

omit [DecidableEq ν] in
/-- A change of mode under a name changes that and nothing else. -/
theorem chmod_find_self {x : Inode β} (h : f.find n = some x) :
    (f.chmod mode n).find n = some { x with mode := mode } := by
  obtain ⟨i, hi, rfl⟩ := Option.map_eq_some_iff.mp h
  have hinode : (f.chmod mode n).inode n = some i := by rw [chmod_inode, hi]
  rw [find_eq hinode, chmod, hi, setNode_node_self]

theorem openTrunc_inode_of_ne (h : m ≠ n) :
    (f.openTrunc mode n).1.inode m = f.inode m := by
  unfold openTrunc
  cases hn : f.inode n with
  | none => exact Function.update_of_ne h ..
  | some i => rfl

/-- An open leaves every other name as it was. -/
theorem openTrunc_find_of_ne (h : m ≠ n) : (f.openTrunc mode n).1.find m = f.find m := by
  refine find_congr (openTrunc_inode_of_ne h) ?_
  intro i hi
  unfold openTrunc
  cases hn : f.inode n with
  | none =>
    have := f.below m i hi
    exact Function.update_of_ne (by omega) ..
  | some j =>
    refine setNode_node_of_ne f _ ?_
    rintro rfl
    exact h (f.apart m n i hi hn)

/-- An open and one write leave every other name as it was. -/
theorem openTrunc_write_find_of_ne [Inhabited β] (h : m ≠ n) (data : List β) :
    ((f.openTrunc mode n).1.write (f.openTrunc mode n).2 0 data).find m = f.find m := by
  have hother : (f.openTrunc mode n).1.inode m ≠ some (f.openTrunc mode n).2 := fun hm =>
    h ((f.openTrunc mode n).1.apart m n _ hm (f.openTrunc_self mode n).1)
  exact (write_find_of_ne hother).trans (openTrunc_find_of_ne h)

theorem unlink_inode_of_ne (h : m ≠ n) : (f.unlink n).inode m = f.inode m :=
  Function.update_of_ne h ..

@[simp] theorem unlink_inode_self : (f.unlink n).inode n = none := Function.update_self ..

theorem unlink_find_of_ne (h : m ≠ n) : (f.unlink n).find m = f.find m :=
  find_congr (unlink_inode_of_ne h) fun _ _ => rfl

/-- A rename goes through exactly when there is something to rename. -/
theorem rename_eq_some_iff :
    f.rename a b = some f' ↔ ∃ i, ∃ h : f.inode a = some i, f' = f.move a b i h := by
  unfold rename
  split
  · rename_i hnone
    refine iff_of_false nofun ?_
    rintro ⟨i, h, -⟩
    rw [hnone] at h
    cases h
  · rename_i i hi
    constructor
    · intro h
      exact ⟨i, hi, (Option.some.inj h).symm⟩
    · rintro ⟨j, hj, rfl⟩
      have hij : i = j := Option.some.inj (hi.symm.trans hj)
      subst hij
      rfl

theorem move_inode_dest {i : Nat} (h : f.inode a = some i) :
    (f.move a b i h).inode b = some i := Function.update_self ..

theorem move_inode_of_ne {i : Nat} (h : f.inode a = some i) (ha : n ≠ a) (hb : n ≠ b) :
    (f.move a b i h).inode n = f.inode n :=
  (Function.update_of_ne hb ..).trans (Function.update_of_ne ha ..)

/-- What stood under the source stands under the destination. -/
theorem rename_find_dest (h : f.rename a b = some f') : f'.find b = f.find a := by
  obtain ⟨i, hi, rfl⟩ := rename_eq_some_iff.mp h
  rw [find_eq (move_inode_dest hi), find_eq hi]
  rfl

/-- Nothing is left under the source. -/
theorem rename_find_source (h : f.rename a b = some f') (hab : a ≠ b) : f'.find a = none := by
  obtain ⟨i, hi, rfl⟩ := rename_eq_some_iff.mp h
  have hnone : (f.move a b i hi).inode a = none :=
    (Function.update_of_ne hab ..).trans (Function.update_self ..)
  rw [find, hnone, Option.map_none]

theorem rename_find_of_ne (h : f.rename a b = some f') (ha : n ≠ a) (hb : n ≠ b) :
    f'.find n = f.find n := by
  obtain ⟨i, hi, rfl⟩ := rename_eq_some_iff.mp h
  exact find_congr (move_inode_of_ne hi ha hb) fun _ _ => rfl

/-- What was opened, written and restricted can be renamed. -/
theorem exists_rename_written [Inhabited β] (f : Files ν β) (a b : ν) (created mode : Nat)
    (data : List β) :
    ∃ f', (((f.openTrunc created a).1.write (f.openTrunc created a).2 0 data).chmod mode a).rename
      a b = some f' :=
  ⟨_, rename_eq_some_iff.mpr
    ⟨_, by rw [chmod_inode]; exact (f.openTrunc_self created a).1, rfl⟩⟩

end Frames

end Names

end Files

end Logosctl.Library
