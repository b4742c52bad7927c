/-
# Which log files are pruned

At a start the oldest log files make room for the new one.  A file counts as one of them by the
beginning of its name and by its extension, and by no more than that: nothing asks whether a stamp
stands between them, or whether the entry is a file or a link to one.  And a link that leads nowhere
leaves an error behind that ends the search at the next entry.

So what is pruned is the daemon's own session logs, the oldest and as many as it takes, exactly in
the directories where nothing else looks like one of them and no such link is in front of one
(`prunesOwn_iff`).
-/
import Logosctl.Library.Decimal
import Mathlib.Data.List.DropRight
import Mathlib.Data.List.TakeWhile
import Mathlib.Tactic.Common

namespace Logosctl.LogSink

open Library

/-! ## 1. Names -/

/-- `stem()` and `extension()` of a file name: the last dot divides them, unless it is in front. -/
def splitExtension (name : List Char) : List Char × List Char :=
  let before := (name.rdropWhile (· != '.')).dropLast
  if before = [] ∨ name = ['.', '.'] then (name, [])
  else (before, '.' :: name.rtakeWhile (· != '.'))

def stem (name : List Char) : List Char := (splitExtension name).1

def extension (name : List Char) : List Char := (splitExtension name).2

/-- The parts of a file name; an extension begins with its only dot. -/
structure NameParts where
  stem : List Char
  ext : List Char
  dotted : ext = [] ∨ ∃ e, ext = '.' :: e ∧ '.' ∉ e

/-- What is behind the last dot has none. -/
theorem extension_dotted (name : List Char) :
    extension name = [] ∨ ∃ e, extension name = '.' :: e ∧ '.' ∉ e := by
  unfold extension splitExtension
  dsimp only
  split
  · exact Or.inl rfl
  · refine Or.inr ⟨_, rfl, fun hmem => ?_⟩
    have hne := List.mem_rtakeWhile_imp hmem
    exact absurd hne (by decide)

/-- `split`, of the last component of the configured name. -/
def split (file : List Char) : NameParts where
  stem := stem (file.rtakeWhile (· != '/'))
  ext := extension (file.rtakeWhile (· != '/'))
  dotted := extension_dotted _

/-- The extension of a name that was put together with one. -/
theorem extension_append {x e : List Char} (hx : x ≠ []) (hdots : x ≠ ['.']) (he : '.' ∉ e) :
    extension (x ++ '.' :: e) = '.' :: e := by
  have hpass : ∀ c ∈ e.reverse, (c != '.') = true := by
    intro c hc
    simpa using fun heq : c = '.' => he (heq ▸ List.mem_reverse.mp hc)
  have hafter : (x ++ '.' :: e).rtakeWhile (· != '.') = e := by
    rw [List.rtakeWhile, List.reverse_append, List.reverse_cons, List.append_assoc,
      List.takeWhile_append_of_pos hpass, List.singleton_append,
      List.takeWhile_cons_of_neg (by simp), List.append_nil, List.reverse_reverse]
  have hbefore : ((x ++ '.' :: e).rdropWhile (· != '.')).dropLast = x := by
    rw [List.rdropWhile, List.reverse_append, List.reverse_cons, List.append_assoc,
      List.dropWhile_append_of_pos hpass, List.singleton_append,
      List.dropWhile_cons_of_neg (by simp)]
    simp
  have hname : x ++ '.' :: e ≠ ['.', '.'] := by
    intro heq
    cases x with
    | nil => exact hx rfl
    | cons c x =>
      obtain ⟨rfl, htail⟩ := List.cons.inj heq
      cases x with
      | nil => exact hdots rfl
      | cons d x =>
        obtain ⟨-, hnil⟩ := List.cons.inj htail
        simp at hnil
  simp only [extension, splitExtension, hbefore, hafter, if_neg (not_or.mpr ⟨hx, hname⟩)]

/-- `<yyyymmdd>_<HHMMSS>`. -/
def IsStamp (s : List Char) : Prop :=
  s.length = 15 ∧ Digits (s.take 8) ∧ s[8]? = some '_' ∧ Digits (s.drop 9)

instance (s : List Char) : Decidable (IsStamp s) := inferInstanceAs (Decidable (_ ∧ _ ∧ _ ∧ _))

/-- Nothing, or a rotation index behind a dot. -/
def IsIndex (i : List Char) : Prop := i = [] ∨ ∃ ds, i = '.' :: ds ∧ ds ≠ [] ∧ Digits ds

/-- A name of the daemon's session logs. -/
def IsSessionLog (n : NameParts) (name : List Char) : Prop :=
  ∃ stamp index, IsStamp stamp ∧ IsIndex index ∧
    name = n.stem ++ '_' :: (stamp ++ (index ++ n.ext))

/-- What `pruneOldLogs` asks of a name. -/
def isCandidate (n : NameParts) (name : List Char) : Bool :=
  (n.stem ++ ['_']).isPrefixOf name && (n.ext.isEmpty || extension name == n.ext)

/-- Session logs are among them. -/
theorem isCandidate_of_isSessionLog {n : NameParts} {name : List Char} (h : IsSessionLog n name) :
    isCandidate n name = true := by
  obtain ⟨stamp, index, -, -, rfl⟩ := h
  unfold isCandidate
  rw [Bool.and_eq_true]
  refine ⟨?_, ?_⟩
  · rw [List.isPrefixOf_iff_prefix]
    exact ⟨stamp ++ (index ++ n.ext), by simp⟩
  · rcases n.dotted with hnil | ⟨e, hext, he⟩
    · simp [hnil]
    · have hname : n.stem ++ '_' :: (stamp ++ (index ++ n.ext)) =
          (n.stem ++ '_' :: (stamp ++ index)) ++ '.' :: e := by simp [hext]
      have hunder : '_' ∈ n.stem ++ '_' :: (stamp ++ index) := by simp
      rw [hname, extension_append (List.ne_nil_of_mem hunder) ?_ he, hext]
      · simp
      · intro heq
        rw [heq] at hunder
        exact absurd hunder (by decide)

/-! ## 2. Pruning -/

/-- A directory entry: a file, a link to one, a link that leads nowhere, or anything else. -/
inductive FileKind
  | regular
  | linkToFile
  | linkToNothing
  | other
  deriving DecidableEq

structure Entry where
  name : List Char
  kind : FileKind
  when : Nat
  deriving DecidableEq

/-- `is_regular_file(ec)`, which follows links: the answer, and whether `ec` is set. -/
def Entry.isRegularFile (e : Entry) : Bool × Bool :=
  match e.kind with
  | .regular | .linkToFile => (true, false)
  | .linkToNothing => (false, true)
  | .other => (false, false)

/-- The loop over the directory, with the error that the entry before left behind: what is found. -/
def findLogs (n : NameParts) : (ec : Bool) → List Entry → List Entry
  | _, [] => []
  | true, _ :: _ => []
  | false, e :: entries =>
    let (regular, ec) := e.isRegularFile
    if regular && isCandidate n e.name then e :: findLogs n ec entries
    else findLogs n ec entries

/-- The order of `std::sort` by time, where files of one time may come in any order. -/
structure SortsByTime (sort : List Entry → List Entry) : Prop where
  perm : ∀ l, (sort l).Perm l
  sorted : ∀ l, (sort l).Pairwise fun a b => a.when ≤ b.when

/-- `pruneOldLogs`: the entries it removes. -/
def pruneOldLogs (sort : List Entry → List Entry) (n : NameParts) (keep : Nat)
    (entries : List Entry) : List Entry :=
  let found := findLogs n false entries
  if found.length ≤ keep then [] else (sort found).take (found.length - keep)

/-- A session log of the daemon. -/
def Entry.IsOwn (n : NameParts) (e : Entry) : Prop := e.kind = .regular ∧ IsSessionLog n e.name

open Classical in
/-- The session logs of a directory. -/
noncomputable def ownLogs (n : NameParts) (entries : List Entry) : List Entry :=
  entries.filter fun e => e.IsOwn n

/-- **What is removed is the daemon's own**, the oldest of its session logs, and as many as are more
than `keep`. -/
structure PrunesOwn (n : NameParts) (keep : Nat) (entries removed : List Entry) : Prop where
  own : ∀ e ∈ removed, e.IsOwn n
  oldest : ∀ e ∈ removed, ∀ s ∈ ownLogs n entries, s ∉ removed → e.when ≤ s.when
  count : removed.length = (ownLogs n entries).length - keep

/-- What the search gets to: all up to a link that leads nowhere. -/
def searched (entries : List Entry) : List Entry := entries.takeWhile (·.kind != .linkToNothing)

/-- What it does not get to. -/
def unsearched (entries : List Entry) : List Entry := entries.dropWhile (·.kind != .linkToNothing)

/-- Nothing else looks like a session log, and none is behind a link that leads nowhere. -/
structure OnlyOwn (n : NameParts) (entries : List Entry) : Prop where
  noOther : ∀ e ∈ searched entries, e.kind = .regular ∨ e.kind = .linkToFile →
    isCandidate n e.name = true → e.IsOwn n
  noneBehind : ∀ e ∈ unsearched entries, ¬ e.IsOwn n

section Prune

variable {n : NameParts} {entries : List Entry} {sort : List Entry → List Entry} {keep : Nat}
  {e : Entry}

/-- What is found is the candidates among what is searched. -/
theorem findLogs_eq (n : NameParts) (entries : List Entry) : findLogs n false entries =
    (searched entries).filter fun e => e.isRegularFile.1 && isCandidate n e.name := by
  induction entries with
  | nil => rfl
  | cons e entries ih =>
    have hstop : findLogs n true entries = [] := by cases entries <;> rfl
    unfold findLogs searched
    cases hkind : e.kind with
    | linkToNothing => simp [Entry.isRegularFile, hkind, hstop]
    | regular => simp [Entry.isRegularFile, hkind, ih, searched, List.filter_cons]
    | linkToFile => simp [Entry.isRegularFile, hkind, ih, searched, List.filter_cons]
    | other => simp [Entry.isRegularFile, hkind, ih, searched]

theorem mem_findLogs : e ∈ findLogs n false entries ↔
    e ∈ searched entries ∧ (e.kind = .regular ∨ e.kind = .linkToFile) ∧
      isCandidate n e.name = true := by
  rw [findLogs_eq, List.mem_filter, Bool.and_eq_true]
  unfold Entry.isRegularFile
  cases e.kind <;> simp

theorem ownLogs_eq (n : NameParts) (entries : List Entry) :
    ownLogs n entries = ownLogs n (searched entries) ++ ownLogs n (unsearched entries) := by
  unfold ownLogs searched unsearched
  rw [← List.filter_append, List.takeWhile_append_dropWhile]

/-- With nothing but own logs among the candidates, these are what is found. -/
theorem findLogs_of_noOther (h : ∀ e ∈ searched entries, e.kind = .regular ∨ e.kind = .linkToFile →
    isCandidate n e.name = true → e.IsOwn n) :
    findLogs n false entries = ownLogs n (searched entries) := by
  classical
  rw [findLogs_eq, ownLogs]
  refine List.filter_congr fun e he => ?_
  rw [Bool.eq_iff_iff, Bool.and_eq_true, decide_eq_true_iff]
  constructor
  · rintro ⟨hregular, hcandidate⟩
    refine h e he ?_ hcandidate
    unfold Entry.isRegularFile at hregular
    cases hkind : e.kind <;> simp_all
  · rintro ⟨hregular, hlog⟩
    exact ⟨by simp [Entry.isRegularFile, hregular], isCandidate_of_isSessionLog hlog⟩

/-- In a directory where nothing else looks like one, exactly the session logs are found. -/
theorem OnlyOwn.findLogs_eq (h : OnlyOwn n entries) :
    findLogs n false entries = ownLogs n entries := by
  classical
  have hnone : ownLogs n (unsearched entries) = [] := by
    unfold ownLogs
    rw [List.filter_eq_nil_iff]
    exact fun e he => by simpa using h.noneBehind e he
  rw [findLogs_of_noOther h.noOther, ownLogs_eq n entries, hnone, List.append_nil]

/-- Of what is found and sorted, all go that are in front of the last `keep`. -/
theorem pruneOldLogs_eq (sort : List Entry → List Entry) (n : NameParts) (keep : Nat)
    (entries : List Entry) : pruneOldLogs sort n keep entries =
      (sort (findLogs n false entries)).take ((findLogs n false entries).length - keep) := by
  simp only [pruneOldLogs]
  split
  · next hle => rw [Nat.sub_eq_zero_of_le hle, List.take_zero]
  · rfl

theorem length_pruneOldLogs (hsort : SortsByTime sort) :
    (pruneOldLogs sort n keep entries).length = (findLogs n false entries).length - keep := by
  rw [pruneOldLogs_eq, List.length_take, (hsort.perm _).length_eq]
  omega

theorem mem_of_mem_pruneOldLogs (hsort : SortsByTime sort)
    (h : e ∈ pruneOldLogs sort n keep entries) : e ∈ findLogs n false entries := by
  rw [pruneOldLogs_eq] at h
  exact (hsort.perm _).mem_iff.mp (List.mem_of_mem_take h)

/-- Nothing that is found and stays is older than what goes. -/
theorem when_le_of_mem_pruneOldLogs (hsort : SortsByTime sort)
    (he : e ∈ pruneOldLogs sort n keep entries) {s : Entry} (hs : s ∈ findLogs n false entries)
    (hstays : s ∉ pruneOldLogs sort n keep entries) : e.when ≤ s.when := by
  rw [pruneOldLogs_eq] at he hstays
  have hsorted := hsort.sorted (findLogs n false entries)
  have hmem := (hsort.perm _).mem_iff.mpr hs
  rw [← List.take_append_drop ((findLogs n false entries).length - keep)
    (sort (findLogs n false entries))] at hsorted hmem
  have hlater := (List.mem_append.mp hmem).resolve_left hstays
  exact (List.pairwise_append.mp hsorted).2.2 e he s hlater

/-- In a directory where nothing else looks like one, pruning removes session logs as it should. -/
theorem OnlyOwn.prunesOwn (hsort : SortsByTime sort) (h : OnlyOwn n entries) (keep : Nat) :
    PrunesOwn n keep entries (pruneOldLogs sort n keep entries) := by
  have hfound := h.findLogs_eq
  refine ⟨fun e he => ?_, fun e he s hs hstays => ?_, ?_⟩
  · obtain ⟨hsearched, hkind, hcandidate⟩ := mem_findLogs.mp (mem_of_mem_pruneOldLogs hsort he)
    exact h.noOther e hsearched hkind hcandidate
  · exact when_le_of_mem_pruneOldLogs hsort he (hfound.symm ▸ hs) hstays
  · rw [length_pruneOldLogs hsort, hfound]

/-- **When pruning removes only the daemon's own session logs**, and as many as it should, whatever
number is kept: exactly when nothing else that is searched looks like one of them, and none of them
is behind a link that leads nowhere. -/
theorem prunesOwn_iff (hsort : SortsByTime sort) :
    (∀ keep, PrunesOwn n keep entries (pruneOldLogs sort n keep entries)) ↔
      OnlyOwn n entries := by
  refine ⟨fun h => ?_, fun h keep => h.prunesOwn hsort keep⟩
  -- with nothing to be kept, everything that is found goes
  have hall : ∀ e, e ∈ findLogs n false entries → e ∈ pruneOldLogs sort n 0 entries := by
    intro e he
    rw [pruneOldLogs_eq, Nat.sub_zero, ← (hsort.perm _).length_eq, List.take_length]
    exact (hsort.perm _).mem_iff.mpr he
  have hnoOther : ∀ e ∈ searched entries, e.kind = .regular ∨ e.kind = .linkToFile →
      isCandidate n e.name = true → e.IsOwn n :=
    fun e he hkind hcandidate => (h 0).own e (hall e (mem_findLogs.mpr ⟨he, hkind, hcandidate⟩))
  refine ⟨hnoOther, fun e he hown => ?_⟩
  have hcount := (h 0).count
  rw [length_pruneOldLogs hsort, findLogs_of_noOther hnoOther, ownLogs_eq n entries,
    List.length_append] at hcount
  have hbehind : e ∈ ownLogs n (unsearched entries) := by
    classical
    unfold ownLogs
    exact List.mem_filter.mpr ⟨he, by simpa using hown⟩
  have hpos := List.length_pos_of_mem hbehind
  omega

end Prune

/-- A sort by time that keeps the order of files of one time. -/
def oldestFirst (l : List Entry) : List Entry := l.mergeSort fun a b => decide (a.when ≤ b.when)

theorem sortsByTime_oldestFirst : SortsByTime oldestFirst where
  perm l := List.mergeSort_perm l _
  sorted l := by
    have hsorted := @List.pairwise_mergeSort Entry (fun a b => decide (a.when ≤ b.when))
      (fun a b c hab hbc => by simp only [decide_eq_true_iff] at hab hbc ⊢; omega)
      (fun a b => by simp only [Bool.or_eq_true, decide_eq_true_iff]; omega) l
    exact hsorted.imp of_decide_eq_true

/-- The name the log has by default. -/
def daemonLog : NameParts := split "daemon.log".toList

/-- Two sessions, and the link to the second. -/
def twoSessions : List Entry :=
  [⟨"daemon.log".toList, .linkToFile, 20⟩, ⟨"daemon_20260729_180404.log".toList, .regular, 10⟩,
    ⟨"daemon_20260729_180411.1.log".toList, .regular, 15⟩]

/-- Of the two one is kept. -/
theorem twoSessions_pruned :
    PrunesOwn daemonLog 1 twoSessions (pruneOldLogs oldestFirst daemonLog 1 twoSessions) := by
  refine (prunesOwn_iff sortsByTime_oldestFirst).mpr ⟨?_, ?_⟩ 1
  · have hfirst : IsSessionLog daemonLog "daemon_20260729_180404.log".toList :=
      ⟨"20260729_180404".toList, [], by decide, Or.inl rfl, by decide⟩
    have hsecond : IsSessionLog daemonLog "daemon_20260729_180411.1.log".toList :=
      ⟨"20260729_180411".toList, ".1".toList, by decide,
        Or.inr ⟨['1'], by decide, by decide, by decide⟩, by decide⟩
    have hsearched : searched twoSessions = twoSessions := by decide
    rw [hsearched]
    simp only [twoSessions, List.forall_mem_cons]
    exact ⟨fun _ h => absurd h (by decide), fun _ _ => ⟨rfl, hfirst⟩, fun _ _ => ⟨rfl, hsecond⟩,
      List.forall_mem_nil _⟩
  · have hnone : unsearched twoSessions = [] := by decide
    rw [hnone]
    exact List.forall_mem_nil _

/-- A file of the operator's beside the logs. -/
def notes : List Entry := [⟨"daemon_notes.log".toList, .regular, 10⟩]

/-- **Someone else's file is removed**: all it takes is a name like `daemon_notes.log`. -/
theorem notes_removed :
    ¬ ∀ (sort : List Entry → List Entry) (n : NameParts) (keep : Nat) (entries : List Entry),
      SortsByTime sort → PrunesOwn n keep entries (pruneOldLogs sort n keep entries) := by
  intro h
  have hprunes := h oldestFirst daemonLog 0 notes sortsByTime_oldestFirst
  have hremoved : pruneOldLogs oldestFirst daemonLog 0 notes = notes := by
    have hfound : findLogs daemonLog false notes = notes := by decide
    have hsorted : oldestFirst notes = notes := List.mergeSort_singleton _
    rw [pruneOldLogs_eq, hfound, hsorted]
    rfl
  have hmem : ⟨"daemon_notes.log".toList, .regular, 10⟩ ∈
      pruneOldLogs oldestFirst daemonLog 0 notes := hremoved.symm ▸ List.mem_singleton_self _
  obtain ⟨-, stamp, index, hstamp, -, hname⟩ := hprunes.own _ hmem
  -- `notes` is too short for a stamp
  have hlength := congrArg List.length hname
  simp only [List.length_append, List.length_cons, hstamp.1] at hlength
  have hfixed : "daemon_notes.log".toList.length = 16 ∧ daemonLog.stem.length = 6 ∧
      daemonLog.ext.length = 4 := by decide
  omega

end Logosctl.LogSink
