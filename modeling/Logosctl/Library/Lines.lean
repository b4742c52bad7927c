/-
# A stream cut into lines

A stream of units with a separator among them, as a reader gets it: in pieces, whose edges have
nothing to do with where the lines end.  A reader keeps what follows the last separator and puts
the next piece behind it.  What it hands over is the lines of the stream (`List.splitOn` without
its last part), whatever the pieces (`lines_append`), and the stream is what was
written when each line was written with a separator behind it (`lines_joinLines`).
-/
import Mathlib.Data.List.Basic
import Mathlib.Tactic.Common

namespace Logosctl.Library

variable {α : Type} [BEq α] [LawfulBEq α] {sep : α}

/-! ## 1. Lines and what follows them -/

/-- The separator of lines of bytes. -/
def newline : UInt8 := 10

/-- The complete lines of a stream, without their separators. -/
def lines (sep : α) (s : List α) : List (List α) := (s.splitOn sep).dropLast

/-- What follows the last separator. -/
def unfinished (sep : α) (s : List α) : List α :=
  (s.splitOn sep).getLast (List.splitOn_ne_nil sep s)

/-- Lines, each with a separator behind it. -/
def joinLines (sep : α) (ls : List (List α)) : List α := ls.flatMap (· ++ [sep])

omit [LawfulBEq α] in
theorem splitOn_eq (sep : α) (s : List α) : s.splitOn sep = lines sep s ++ [unfinished sep s] :=
  (List.dropLast_append_getLast _).symm

omit [LawfulBEq α] in
theorem lines_of_splitOn {s tail : List α} {ls : List (List α)}
    (h : s.splitOn sep = ls ++ [tail]) : lines sep s = ls ∧ unfinished sep s = tail := by
  rw [splitOn_eq] at h
  obtain ⟨hls, htail⟩ := List.append_inj' h rfl
  exact ⟨hls, (List.cons.inj htail).1⟩

/-- Without a separator there is no line yet. -/
theorem lines_of_notMem {s : List α} (h : sep ∉ s) : lines sep s = [] ∧ unfinished sep s = s :=
  @lines_of_splitOn _ _ _ _ s [] (List.splitOn_eq_singleton h)

/-- The first line and the lines after it. -/
theorem lines_cons {l s : List α} (h : sep ∉ l) :
    lines sep (l ++ sep :: s) = l :: lines sep s ∧
      unfinished sep (l ++ sep :: s) = unfinished sep s := by
  refine lines_of_splitOn ?_
  rw [List.splitOn_append_cons_self_of_not_mem h, splitOn_eq, List.cons_append]

variable (sep) in
/-- **Streams by their lines**: what holds of a stream without a separator, and of a line in front
of a stream of which it holds, holds of every stream. -/
theorem lines_induction {P : List α → Prop} (htail : ∀ s, sep ∉ s → P s)
    (hline : ∀ l s, sep ∉ l → P s → P (l ++ sep :: s)) (s : List α) : P s := by
  by_cases hmem : sep ∈ s
  · obtain ⟨l, s', heq, hl⟩ := List.eq_append_cons_of_mem hmem
    subst heq
    exact hline l s' hl (lines_induction htail hline s')
  · exact htail s hmem
termination_by s.length
decreasing_by
  subst heq
  simp only [List.length_append, List.length_cons]
  omega

/-! ## 2. Pieces -/

/-- **A cut in the stream is not seen**: what was left before the cut goes in front of what comes
after it. -/
theorem lines_append (a b : List α) :
    lines sep (a ++ b) = lines sep a ++ lines sep (unfinished sep a ++ b) ∧
      unfinished sep (a ++ b) = unfinished sep (unfinished sep a ++ b) := by
  induction a using lines_induction sep with
  | htail s hs =>
    obtain ⟨hlines, htail⟩ := lines_of_notMem hs
    rw [hlines, htail]
    exact ⟨(List.nil_append _).symm, rfl⟩
  | hline l s hl ih =>
    obtain ⟨hlines, htail⟩ := lines_cons (s := s) hl
    obtain ⟨hlines', htail'⟩ := lines_cons (s := s ++ b) hl
    rw [hlines, htail, List.append_assoc, List.cons_append, hlines', htail', ih.1, ih.2]
    exact ⟨(List.cons_append ..).symm, rfl⟩

/-- What is left over before a cut is the beginning of a part of the whole. -/
theorem exists_splitOn_unfinished (a b : List α) :
    ∃ l ∈ (a ++ b).splitOn sep, unfinished sep a <+: l := by
  induction a using lines_induction sep with
  | htail a ha =>
    rw [(lines_of_notMem ha).2]
    induction b using lines_induction sep with
    | htail b hb =>
      rw [List.splitOn_eq_singleton (by simp [ha, hb])]
      exact ⟨a ++ b, List.mem_singleton_self _, List.prefix_append ..⟩
    | hline l b hl _ =>
      rw [← List.append_assoc, List.splitOn_append_cons_self_of_not_mem (by simp [ha, hl])]
      exact ⟨a ++ l, List.mem_cons_self, List.prefix_append ..⟩
  | hline l a hl ih =>
    obtain ⟨m, hm, hprefix⟩ := ih
    rw [(lines_cons hl).2, List.append_assoc, List.cons_append,
      List.splitOn_append_cons_self_of_not_mem hl]
    exact ⟨m, List.mem_cons_of_mem _ hm, hprefix⟩

/-- No separator is left over. -/
theorem notMem_unfinished (s : List α) : sep ∉ unfinished sep s := by
  induction s using lines_induction sep with
  | htail s hs => rwa [(lines_of_notMem hs).2]
  | hline l s hl ih => rwa [(lines_cons hl).2]

/-- Nothing but the separators is lost. -/
theorem flatten_lines (s : List α) :
    (lines sep s).flatten ++ unfinished sep s = s.filter (· != sep) := by
  induction s using lines_induction sep with
  | htail s hs =>
    obtain ⟨hlines, htail⟩ := lines_of_notMem hs
    rw [hlines, htail, List.flatten_nil, List.nil_append, eq_comm, List.filter_eq_self]
    rintro c hc
    simpa using fun heq : c = sep => hs (heq ▸ hc)
  | hline l s hl ih =>
    obtain ⟨hlines, htail⟩ := lines_cons (s := s) hl
    have hkept : l.filter (· != sep) = l := by
      rw [List.filter_eq_self]
      rintro c hc
      simpa using fun heq : c = sep => hl (heq ▸ hc)
    rw [hlines, htail, List.flatten_cons, List.append_assoc, ih, List.filter_append, hkept,
      List.filter_cons_of_neg (by simp)]

/-! ## 3. What was written -/

omit [BEq α] [LawfulBEq α] in
theorem joinLines_cons (l : List α) (ls : List (List α)) :
    joinLines sep (l :: ls) = l ++ sep :: joinLines sep ls := by
  simp [joinLines]

/-- **What was written line by line is read line by line**, whatever follows. -/
theorem lines_joinLines {ls : List (List α)} (h : ∀ l ∈ ls, sep ∉ l) (s : List α) :
    lines sep (joinLines sep ls ++ s) = ls ++ lines sep s ∧
      unfinished sep (joinLines sep ls ++ s) = unfinished sep s := by
  induction ls with
  | nil => exact ⟨rfl, rfl⟩
  | cons l ls ih =>
    obtain ⟨hl, hls⟩ := List.forall_mem_cons.mp h
    obtain ⟨hlines, htail⟩ := ih hls
    rw [joinLines_cons, List.append_assoc, List.cons_append, (lines_cons hl).1, (lines_cons hl).2,
      hlines, htail]
    exact ⟨(List.cons_append ..).symm, rfl⟩

/-! ## 4. A loop that takes lines off the front -/

/-- Find the separator, take what is before it and erase both, as long as there is one: the lines,
and what is left. -/
def takeLines (sep : α) (inbox : List α) : List (List α) × List α :=
  let nl := inbox.idxOf sep
  if nl < inbox.length then
    let (ls, left) := takeLines sep (inbox.drop (nl + 1))
    (inbox.take nl :: ls, left)
  else ([], inbox)
termination_by inbox.length
decreasing_by
  rw [List.length_drop]
  omega

/-- **The loop takes the lines and leaves what follows them.** -/
theorem takeLines_eq (s : List α) : takeLines sep s = (lines sep s, unfinished sep s) := by
  induction s using lines_induction sep with
  | htail s hs =>
    obtain ⟨hlines, htail⟩ := lines_of_notMem hs
    rw [takeLines, if_neg (by rw [List.idxOf_lt_length_iff]; exact hs), hlines, htail]
  | hline l s hl ih =>
    obtain ⟨hlines, htail⟩ := lines_cons (s := s) hl
    have hidx : (l ++ sep :: s).idxOf sep = l.length := by
      rw [List.idxOf_append_of_notMem hl, List.idxOf_cons_self, Nat.add_zero]
    have hdrop : (l ++ sep :: s).drop (l.length + 1) = s := by simp
    rw [takeLines, if_pos (by simp [hidx]), hidx, hdrop, ih, hlines, htail, List.take_left]

end Logosctl.Library
