/-
# Where a path string leads

A path string names a place in a tree without links: its components are walked from the root, an
empty one and `.` stay where they are, `..` goes up.  Two different strings may lead to one place,
so what a program touches is stated about places.  A string that is a file name (`IsFileName`)
leads from a directory to an entry of that directory, and different file names to different entries.
-/
import Mathlib.Data.List.Basic

namespace Logosctl.Library

/-! ## 1. Resolution -/

/-- A place: the names from the root down. -/
abbrev Place := List String

/-- One component of a path. -/
def walk (p : Place) (component : List Char) : Place :=
  if component = [] ∨ component = ['.'] then p
  else if component = ['.', '.'] then p.dropLast
  else p ++ [String.ofList component]

/-- Where a path string leads from a place. -/
def resolveFrom (p : Place) (path : String) : Place := (path.toList.splitOn '/').foldl walk p

/-- Where a path string leads. -/
def resolve (path : String) : Place := resolveFrom [] path

/-- A path below a directory is walked from where the directory leads. -/
theorem resolveFrom_slash (p : Place) (dir path : String) :
    resolveFrom p (dir ++ "/" ++ path) = resolveFrom (resolveFrom p dir) path := by
  have hlist : (dir ++ "/" ++ path).toList = dir.toList ++ '/' :: path.toList := by
    simp [String.toList_append]
  simp only [resolveFrom, hlist, List.splitOn_append_cons_self, List.foldl_append]

/-- `operator/` of two paths. -/
def joinPath (dir path : String) : String :=
  if path.toList.head? = some '/' ∨ dir = "" then path
  else if dir.toList.getLast? = some '/' then dir ++ path
  else dir ++ "/" ++ path

/-! ## 2. File names -/

/-- A string that names an entry of a directory. -/
def IsFileName (s : String) : Prop := '/' ∉ s.toList ∧ s ≠ "" ∧ s ≠ "." ∧ s ≠ ".."

instance (s : String) : Decidable (IsFileName s) :=
  inferInstanceAs (Decidable (_ ∧ _ ∧ _ ∧ _))

theorem resolveFrom_fileName {s : String} (h : IsFileName s) (p : Place) :
    resolveFrom p s = p ++ [s] := by
  obtain ⟨hslash, hne, hdot, hdots⟩ := h
  have hlist : ∀ t : String, s ≠ t → s.toList ≠ t.toList :=
    fun t ht heq => ht (String.toList_inj.mp heq)
  have hnil : s.toList ≠ [] := hlist "" hne
  have hone : s.toList ≠ ['.'] := hlist "." hdot
  have htwo : s.toList ≠ ['.', '.'] := hlist ".." hdots
  simp only [resolveFrom, List.splitOn_eq_singleton hslash, List.foldl_cons, List.foldl_nil, walk]
  rw [if_neg (not_or.mpr ⟨hnil, hone⟩), if_neg htwo, String.ofList_toList]

/-- **A file name below a directory leads to its entry there.** -/
theorem resolve_entry (dir name : String) (h : IsFileName name) :
    resolve (dir ++ "/" ++ name) = resolve dir ++ [name] := by
  rw [resolve, resolveFrom_slash, resolveFrom_fileName h]
  rfl

/-! ## 3. A longer last component -/

/-- The last component of a path is walked from where those before it lead. -/
theorem exists_last (path : List Char) : ∃ (p : Place) (last : List Char), ∀ suffix : List Char,
    '/' ∉ suffix → ((path ++ suffix).splitOn '/').foldl walk [] = walk p (last ++ suffix) := by
  by_cases h : '/' ∈ path
  · obtain ⟨back, front, hback, hnone⟩ := List.eq_append_cons_of_mem (List.mem_reverse.mpr h)
    have hpath : path = front.reverse ++ '/' :: back.reverse := by
      rw [← path.reverse_reverse, hback]
      simp
    refine ⟨(front.reverse.splitOn '/').foldl walk [], back.reverse, fun suffix hsuffix => ?_⟩
    have hend : '/' ∉ back.reverse ++ suffix := by simp [hnone, hsuffix]
    rw [hpath, List.append_assoc, List.cons_append, List.splitOn_append_cons_self,
      List.foldl_append, List.splitOn_eq_singleton hend, List.foldl_cons, List.foldl_nil]
  · refine ⟨[], path, fun suffix hsuffix => ?_⟩
    rw [List.splitOn_eq_singleton (by simp [h, hsuffix]), List.foldl_cons, List.foldl_nil]

/-- A path that is made longer within its last component leads elsewhere, unless what it is made
longer by is dots. -/
theorem resolve_append_ne {suffix : String} (hslash : '/' ∉ suffix.toList)
    (hlong : 3 ≤ suffix.toList.length) (path : String) :
    resolve (path ++ suffix) ≠ resolve path := by
  obtain ⟨p, last, hlast⟩ := exists_last path.toList
  have hpath := hlast [] List.not_mem_nil
  rw [List.append_nil, List.append_nil] at hpath
  have hlonger := hlast suffix.toList hslash
  have hname : walk p (last ++ suffix.toList) = p ++ [String.ofList (last ++ suffix.toList)] := by
    have hnot : ∀ short : List Char, short.length < 3 → last ++ suffix.toList ≠ short := by
      rintro short hshort rfl
      rw [List.length_append] at hshort
      omega
    rw [walk, if_neg (not_or.mpr ⟨hnot _ (by decide), hnot _ (by decide)⟩),
      if_neg (hnot _ (by decide))]
  rw [resolve, resolve, resolveFrom, resolveFrom, String.toList_append, hpath, hlonger, hname]
  intro heq
  unfold walk at heq
  split at heq
  · simp at heq
  · split at heq
    · have hlength := congrArg List.length heq
      simp only [List.length_append, List.length_singleton, List.length_dropLast] at hlength
      omega
    · have hsame := List.append_cancel_left heq
      simp only [List.cons.injEq, and_true] at hsame
      have hnil := congrArg List.length (String.ofList_inj.mp hsame)
      rw [List.length_append] at hnil
      omega

end Logosctl.Library
