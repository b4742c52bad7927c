/-
# How many session logs there are

Two mechanisms bound the logs.  A start prunes over all sessions, so that with the file it opens
there are at most `maxFiles`; and the sink that writes the file keeps, besides it, at most
`maxFiles - 1` files that it has rotated out.  Either is right alone.  Together they let a session
that begins beside older logs rotate past the bound: the next start is the first to see it.

The bound holds at every moment exactly when no session but the first rotates once as many files
have been opened as there may be (`retained_iff`).
-/
import Logosctl.LogSink.Prune
import Mathlib.Data.List.Range
import Mathlib.Data.List.Perm.Basic
import Mathlib.Data.List.Nodup

namespace Logosctl.LogSink

open Library

/-! ## 1. Log files -/

/-- What `sessionStamp` gives. -/
abbrev Stamp := { s : List Char // IsStamp s }

/-- A file of a session: the one it writes, which has index 0, or one it has rotated out. -/
structure LogFile where
  stamp : Stamp
  index : Nat
  deriving DecidableEq

/-- The index in a file's name. -/
def indexText : Nat → List Char
  | 0 => []
  | i + 1 => '.' :: Nat.toDigits 10 (i + 1)

def LogFile.name (n : NameParts) (f : LogFile) : List Char :=
  n.stem ++ '_' :: (f.stamp.val ++ (indexText f.index ++ n.ext))

/-! ## 2. Starts and rotations -/

/-- The rotating sink, as far as it matters here: how many files it has rotated out and kept, with
room for `limit` of them, after so many rotations. -/
structure RotatingSink where
  kept : (limit rotations : Nat) → Nat

/-- It keeps each until there is no room. -/
def RotatingSink.AsDocumented (sink : RotatingSink) : Prop :=
  ∀ limit rotations, sink.kept limit rotations = min rotations limit

/-- The options, the sort of the standard library, and the sink. -/
structure Logging where
  parts : NameParts
  maxFiles : Nat
  sort : List Entry → List Entry
  sink : RotatingSink

/-- The room that is left for rotated files beside the live one. -/
def Logging.rotated (l : Logging) : Nat := if l.maxFiles > 1 then l.maxFiles - 1 else 0

/-- The files of earlier sessions, and the session that writes, if any does, with the number of its
rotations. -/
structure Logs where
  earlier : List LogFile := []
  live : Option (Stamp × Nat) := none

/-- The files of a session after so many rotations. -/
def Logging.sessionFiles (l : Logging) (stamp : Stamp) (rotations : Nat) : List LogFile :=
  (List.range (l.sink.kept l.rotated rotations + 1)).map fun i => ⟨stamp, i⟩

/-- All session logs in the directory. -/
def Logs.files (l : Logging) (s : Logs) : List LogFile :=
  s.earlier ++
    match s.live with
    | none => []
    | some (stamp, rotations) => l.sessionFiles stamp rotations

/-- A start, with its stamp and with what it finds in the directory, or a rotation. -/
inductive LogEvent
  | start (stamp : Stamp) (listing : List Entry)
  | rotate

/-- What is there is the session logs, and nothing that looks like one; the stamp is new. -/
def Logs.Meets (l : Logging) (s : Logs) : LogEvent → Prop
  | .start stamp listing =>
    OnlyOwn l.parts listing ∧
      ((ownLogs l.parts listing).map Entry.name).Perm ((s.files l).map (LogFile.name l.parts)) ∧
      ∀ f ∈ s.files l, f.stamp ≠ stamp
  | .rotate => True

/-- `LogSink::start`, from the pruning to the new file, and a rotation of the sink. -/
def Logs.next (l : Logging) (s : Logs) : LogEvent → Option Logs
  | .start stamp listing =>
    let removed :=
      if l.maxFiles > 0 then pruneOldLogs l.sort l.parts (l.maxFiles - 1) listing else []
    some
      { earlier := (s.files l).filter fun f => f.name l.parts ∉ removed.map Entry.name
        live := some (stamp, 0) }
  | .rotate => s.live.map fun (stamp, rotations) => { s with live := some (stamp, rotations + 1) }

/-- The events so far, from an empty log directory, and what they have led to. -/
inductive History (l : Logging) : List LogEvent → Logs → Prop
  | empty : History l [] {}
  | step {es : List LogEvent} {s s' : Logs} {e : LogEvent} :
      History l es s → s.Meets l e → s.next l e = some s' → History l (es ++ [e]) s'

def LogEvent.isStart : LogEvent → Bool
  | .start _ _ => true
  | .rotate => false

/-- How often the daemon was started. -/
def starts (es : List LogEvent) : Nat := es.countP LogEvent.isStart

/-- How often a file was rotated. -/
def rotations (es : List LogEvent) : Nat := es.countP fun e => !e.isStart

/-- **What retention promises**: no more than so many logs, and the one being written among them. -/
structure Retained (l : Logging) (s : Logs) : Prop where
  bound : (s.files l).length ≤ l.maxFiles
  written : ∀ stamp k, s.live = some (stamp, k) → ⟨stamp, 0⟩ ∈ s.files l

/-- A session that is not the first rotates only while no more files than may be kept have been
opened, with the one that the rotation opens. -/
def RotatesInRoom (l : Logging) (es : List LogEvent) : Prop :=
  ∀ pre, pre ++ [.rotate] <+: es → 2 ≤ starts pre →
    starts pre + rotations pre + 1 ≤ l.maxFiles

/-! ## 3. Names -/

section Names

variable {n : NameParts} {f g : LogFile}

theorem indexText_injective : Function.Injective indexText := by
  intro i j h
  cases i with
  | zero =>
    cases j with
    | zero => rfl
    | succ j => cases h
  | succ i =>
    cases j with
    | zero => cases h
    | succ j =>
      have hdigits := (List.cons.inj h).2
      have hvalue := congrArg (fun ds => Nat.ofDigitChars 10 ds 0) hdigits
      simpa only [Nat.ofDigitChars_ten_toDigits] using hvalue

/-- No two files of the sessions have one name. -/
theorem name_injective (n : NameParts) : Function.Injective (LogFile.name n) := by
  intro f g h
  have htail := (List.cons.inj (List.append_cancel_left h)).2
  have hlength : f.stamp.val.length = g.stamp.val.length :=
    f.stamp.property.1.trans g.stamp.property.1.symm
  obtain ⟨hstamp, hindex⟩ := List.append_inj htail hlength
  have hsame := indexText_injective (List.append_cancel_right hindex)
  cases f
  cases g
  simp only [LogFile.mk.injEq]
  exact ⟨Subtype.ext hstamp, hsame⟩

end Names

/-! ## 4. One start, one rotation -/

section Step

variable {l : Logging} {s s' : Logs} {e : LogEvent} {es : List LogEvent}

theorem rotated_eq (h : 0 < l.maxFiles) : l.rotated = l.maxFiles - 1 := by
  unfold Logging.rotated
  split
  · rfl
  · omega

/-- How many files there are. -/
theorem length_files (hsink : l.sink.AsDocumented) (hmax : 0 < l.maxFiles) (s : Logs) :
    (s.files l).length = s.earlier.length +
      match s.live with
      | none => 0
      | some (_, k) => min k (l.maxFiles - 1) + 1 := by
  have hown : ∀ stamp k, (l.sessionFiles stamp k).length = min k (l.maxFiles - 1) + 1 := by
    intro stamp k
    rw [Logging.sessionFiles, List.length_map, List.length_range, hsink, rotated_eq hmax]
  unfold Logs.files
  cases s.live with
  | none => simp
  | some run => rw [List.length_append, hown]

/-- Of a list without repetitions, so many elements are left as are not taken away. -/
theorem length_filter_notMem {α : Type} {xs ys : List α} [DecidablePred (· ∈ ys)]
    (hxs : xs.Nodup) (hys : ys.Nodup) (hsub : ∀ y ∈ ys, y ∈ xs) :
    (xs.filter fun x => x ∉ ys).length = xs.length - ys.length := by
  have hperm : (xs.filter fun x => x ∈ ys).Perm ys := by
    refine (List.perm_ext_iff_of_nodup (hxs.filter _) hys).mpr fun x => ?_
    rw [List.mem_filter, decide_eq_true_iff]
    exact ⟨fun h => h.2, fun h => ⟨hsub x h, h⟩⟩
  have hsum := List.length_eq_length_filter_add (l := xs) fun x => decide (x ∈ ys)
  have hneg : (xs.filter fun x => !decide (x ∈ ys)) = xs.filter fun x => x ∉ ys := by
    refine List.filter_congr fun x _ => ?_
    rw [decide_not]
  rw [hneg, hperm.length_eq] at hsum
  omega

/-- What is pruned at a start: as many files as make room for one more. -/
theorem length_earlier_start (hsort : SortsByTime l.sort) (hmax : 0 < l.maxFiles) {stamp : Stamp}
    {listing : List Entry} (hnodup : (s.files l).Nodup) (hmeets : s.Meets l (.start stamp listing))
    (hnext : s.next l (.start stamp listing) = some s') :
    s'.live = some (stamp, 0) ∧ s'.earlier.Sublist (s.files l) ∧
      s'.earlier.length = min (s.files l).length (l.maxFiles - 1) := by
  obtain ⟨hown, hperm, -⟩ := hmeets
  have hfound := hown.findLogs_eq
  cases hnext
  refine ⟨rfl, List.filter_sublist, ?_⟩
  rw [if_pos hmax]
  have hnames : ((s.files l).map (LogFile.name l.parts)).Nodup :=
    hnodup.map (name_injective l.parts)
  have hsorted : ((l.sort (findLogs l.parts false listing)).map Entry.name).Perm
      ((s.files l).map (LogFile.name l.parts)) := by
    rw [hfound]
    exact ((hsort.perm _).map _).trans hperm
  have hsub : ((pruneOldLogs l.sort l.parts (l.maxFiles - 1) listing).map Entry.name).Sublist
      ((l.sort (findLogs l.parts false listing)).map Entry.name) := by
    rw [pruneOldLogs_eq]
    exact (List.take_sublist _ _).map _
  have hlength := length_filter_notMem hnames (hsub.nodup (hsorted.nodup_iff.mpr hnames))
    fun y hy => hsorted.mem_iff.mp (hsub.mem hy)
  rw [List.filter_map, List.length_map, List.length_map, List.length_map,
    length_pruneOldLogs hsort, hfound] at hlength
  have hcount : (ownLogs l.parts listing).length = (s.files l).length := by
    simpa using hperm.length_eq
  refine hlength.trans ?_
  rw [hcount]
  omega

/-- **What holds of the logs after any history.** -/
structure Standing (l : Logging) (es : List LogEvent) (s : Logs) : Prop where
  earlier : s.earlier.Nodup
  fresh : ∀ stamp k, s.live = some (stamp, k) → ∀ f ∈ s.earlier, f.stamp ≠ stamp
  idle : s.live = none ↔ starts es = 0
  unrotated : s.live = none → rotations es = 0
  first : starts es ≤ 1 → s.earlier = []
  later : 2 ≤ starts es → 2 ≤ l.maxFiles → 1 ≤ s.earlier.length
  few : s.earlier.length ≤ l.maxFiles - 1

theorem Standing.nodup (h : Standing l es s) : (s.files l).Nodup := by
  unfold Logs.files
  cases hlive : s.live with
  | none => simpa using h.earlier
  | some run =>
    obtain ⟨stamp, k⟩ := run
    refine List.nodup_append'.mpr ⟨h.earlier, ?_, ?_⟩
    · refine List.nodup_range.map ?_
      intro i j heq
      exact (LogFile.mk.inj heq).2
    · intro f hf hown
      obtain ⟨i, -, rfl⟩ := List.mem_map.mp hown
      exact h.fresh stamp k hlive _ hf rfl

theorem starts_append_start (es : List LogEvent) (stamp : Stamp) (listing : List Entry) :
    starts (es ++ [.start stamp listing]) = starts es + 1 ∧
      rotations (es ++ [.start stamp listing]) = rotations es := by
  simp [starts, rotations, LogEvent.isStart]

theorem starts_append_rotate (es : List LogEvent) :
    starts (es ++ [.rotate]) = starts es ∧ rotations (es ++ [.rotate]) = rotations es + 1 := by
  simp [starts, rotations, LogEvent.isStart]

theorem Standing.start (h : Standing l es s) (hsort : SortsByTime l.sort)
    (hsink : l.sink.AsDocumented) (hmax : 0 < l.maxFiles) {stamp : Stamp} {listing : List Entry}
    (hmeets : s.Meets l (.start stamp listing))
    (hnext : s.next l (.start stamp listing) = some s') :
    Standing l (es ++ [.start stamp listing]) s' := by
  obtain ⟨hlive, hsub, hlength⟩ := length_earlier_start hsort hmax h.nodup hmeets hnext
  have hfiles := length_files hsink hmax s
  obtain ⟨hstarts, -⟩ := starts_append_start es stamp listing
  refine ⟨hsub.nodup h.nodup, ?_, ?_, ?_, ?_, ?_, by omega⟩
  · intro stamp' k hlive' f hf
    obtain ⟨rfl, -⟩ := Prod.mk.inj (Option.some.inj (hlive.symm.trans hlive'))
    exact hmeets.2.2 f (hsub.mem hf)
  · rw [hlive, hstarts]
    exact iff_of_false nofun (by omega)
  · intro hnone
    rw [hlive] at hnone
    cases hnone
  · -- the first start finds nothing
    intro hone
    have hzero : starts es = 0 := by omega
    rw [h.idle.mpr hzero, h.first (by omega)] at hfiles
    refine List.eq_nil_of_length_eq_zero ?_
    simp only [List.length_nil] at hfiles
    omega
  · intro htwo hroom
    have hsome : s.live ≠ none := fun hnone => by
      have := h.idle.mp hnone
      omega
    obtain ⟨⟨run, k⟩, hrun⟩ := Option.ne_none_iff_exists'.mp hsome
    rw [hrun] at hfiles
    simp only at hfiles
    omega

theorem Standing.rotate (h : Standing l es s) (hnext : s.next l .rotate = some s') :
    Standing l (es ++ [.rotate]) s' ∧ s'.earlier = s.earlier ∧
      ∃ stamp k, s.live = some (stamp, k) ∧ s'.live = some (stamp, k + 1) := by
  obtain ⟨⟨stamp, k⟩, hlive, rfl⟩ := Option.map_eq_some_iff.mp hnext
  obtain ⟨hstarts, -⟩ := starts_append_rotate es
  have hone : starts es ≠ 0 := fun hzero => by
    have hnone := h.idle.mpr hzero
    rw [hlive] at hnone
    cases hnone
  refine ⟨⟨h.earlier, ?_, ?_, nofun, ?_, ?_, h.few⟩, rfl, stamp, k, hlive, rfl⟩
  · rintro stamp' k' heq f hf
    obtain ⟨rfl, -⟩ := Prod.mk.inj (Option.some.inj heq)
    exact h.fresh stamp k hlive f hf
  · rw [hstarts]
    exact iff_of_false nofun hone
  · rw [hstarts]
    exact h.first
  · rw [hstarts]
    exact h.later

theorem standing_of_history (hsort : SortsByTime l.sort) (hsink : l.sink.AsDocumented)
    (hmax : 0 < l.maxFiles) (h : History l es s) : Standing l es s := by
  induction h with
  | empty => exact ⟨List.nodup_nil, nofun, by simp [starts], fun _ => rfl, fun _ => rfl, by
      simp [starts], Nat.zero_le _⟩
  | @step es s s' e _ hmeets hnext ih =>
    cases e with
    | start stamp listing => exact ih.start hsort hsink hmax hmeets hnext
    | rotate => exact (ih.rotate hnext).1

/-- The file that is written is there. -/
theorem mem_files_of_live {stamp : Stamp} {k : Nat} (h : s.live = some (stamp, k)) :
    ⟨stamp, 0⟩ ∈ s.files l := by
  refine List.mem_append_right _ ?_
  rw [h]
  exact List.mem_map.mpr ⟨0, List.mem_range.mpr (Nat.succ_pos _), rfl⟩

end Step

/-! ## 5. Histories -/

section History

variable {l : Logging} {s s' : Logs} {e : LogEvent} {es es' : List LogEvent}

theorem RotatesInRoom.mono (h : RotatesInRoom l es) (hinit : es' <+: es) : RotatesInRoom l es' :=
  fun pre hpre => h pre (hpre.trans hinit)

/-- **In room, every file that was opened is still there**, up to the bound. -/
theorem length_files_of_room (hsort : SortsByTime l.sort) (hsink : l.sink.AsDocumented)
    (hmax : 0 < l.maxFiles) (h : History l es s) (hroom : l.maxFiles = 1 ∨ RotatesInRoom l es) :
    (s.files l).length = min (starts es + rotations es) l.maxFiles := by
  induction h with
  | empty => simp [length_files hsink hmax, starts, rotations]
  | @step es s s' e hrun hmeets hnext ih =>
    have hbefore := ih (hroom.imp_right fun h => h.mono (List.prefix_append _ _))
    have hstanding := standing_of_history hsort hsink hmax hrun
    cases e with
    | start stamp listing =>
      obtain ⟨hlive, -, hlength⟩ :=
        length_earlier_start hsort hmax hstanding.nodup hmeets hnext
      obtain ⟨hstarts, hrotations⟩ := starts_append_start es stamp listing
      rw [length_files hsink hmax, hlive, hstarts, hrotations]
      simp only
      omega
    | rotate =>
      obtain ⟨-, hearlier, stamp, k, hlive, hlive'⟩ := hstanding.rotate hnext
      obtain ⟨hstarts, hrotations⟩ := starts_append_rotate es
      have hfew := hstanding.few
      rw [length_files hsink hmax, hlive] at hbefore
      rw [length_files hsink hmax, hlive', hearlier, hstarts, hrotations]
      simp only at hbefore ⊢
      by_cases hfirst : starts es ≤ 1
      · rw [hstanding.first hfirst, List.length_nil] at hbefore ⊢
        have hone : starts es ≠ 0 := fun hzero => by
          have hnone := hstanding.idle.mpr hzero
          rw [hlive] at hnone
          cases hnone
        omega
      · rcases hroom with hone | hroom
        · omega
        · have hin := hroom es (List.prefix_refl _) (by omega)
          omega

/-- **When retention is bounded**: at every moment of a history there are at most `maxFiles` session
logs, the one being written among them, exactly when one is all there may be, or no session but the
first rotates beyond the number of files that may be kept. -/
theorem retained_iff (hsort : SortsByTime l.sort) (hsink : l.sink.AsDocumented)
    (hmax : 0 < l.maxFiles) (h : History l es s) :
    (∀ es' s', es' <+: es → History l es' s' → Retained l s') ↔
      l.maxFiles = 1 ∨ RotatesInRoom l es := by
  constructor
  · intro hretained
    by_cases hone : l.maxFiles = 1
    · exact Or.inl hone
    refine Or.inr ?_
    induction h with
    | empty =>
      intro pre hpre
      simp at hpre
    | @step es s s' e hrun hmeets hnext ih =>
      have hroom : RotatesInRoom l es :=
        ih fun es' s' hinit => hretained es' s' (hinit.trans (List.prefix_append _ _))
      intro pre hpre htwo
      rcases List.prefix_concat_iff.mp hpre with heq | hpre
      · obtain ⟨rfl, hrotate⟩ := List.append_inj' heq rfl
        cases hrotate
        -- the rotation adds a file to those there are
        have hstanding := standing_of_history hsort hsink hmax hrun
        have hbefore := length_files_of_room hsort hsink hmax hrun (Or.inr hroom)
        obtain ⟨-, hearlier, stamp, k, hlive, hlive'⟩ := hstanding.rotate hnext
        have hbound := (hretained _ _ (List.prefix_refl _) (hrun.step hmeets hnext)).bound
        have hlater := hstanding.later htwo (by omega)
        rw [length_files hsink hmax, hlive] at hbefore
        rw [length_files hsink hmax, hlive', hearlier] at hbound
        simp only at hbefore hbound
        omega
      · exact hroom pre hpre htwo
  · intro hroom es' s' hinit hrun
    refine ⟨?_, fun stamp k hlive => mem_files_of_live hlive⟩
    rw [length_files_of_room hsort hsink hmax hrun (hroom.imp_right fun h => h.mono hinit)]
    exact Nat.min_le_right _ _

end History

/-! ## 6. A restart in a log directory for two -/

/-- Two logs are kept, by a sink that does as it should. -/
def twoKept : Logging where
  parts := daemonLog
  maxFiles := 2
  sort := oldestFirst
  sink := ⟨fun limit rotations => min rotations limit⟩

theorem twoKept_asDocumented : twoKept.sink.AsDocumented := fun _ _ => rfl

def firstStamp : Stamp := ⟨"20260729_180404".toList, by decide⟩

def secondStamp : Stamp := ⟨"20260729_180411".toList, by decide⟩

/-- The first session. -/
theorem firstSession :
    History twoKept [.start firstStamp []] { live := some (firstStamp, 0) } := by
  have hown : OnlyOwn daemonLog [] := ⟨List.forall_mem_nil _, List.forall_mem_nil _⟩
  exact @History.step _ [] _ _ _ .empty ⟨hown, List.Perm.nil, List.forall_mem_nil _⟩ rfl

/-- It rotates, with a file for each of its two. -/
theorem firstSession_retained :
    Retained twoKept { live := some (firstStamp, 1) } := by
  have hrun : History twoKept [.start firstStamp [], .rotate] { live := some (firstStamp, 1) } :=
    @History.step _ [_] _ _ _ firstSession trivial rfl
  refine (retained_iff sortsByTime_oldestFirst twoKept_asDocumented (by decide) hrun).mpr
    (Or.inr fun pre hpre htwo => ?_) _ _ (List.prefix_refl _) hrun
  -- there is one start in all
  have hle := (hpre.sublist.countP_le (p := LogEvent.isStart))
  rw [List.countP_append] at hle
  have hone : ([.start firstStamp [], .rotate] : List LogEvent).countP LogEvent.isStart = 1 := rfl
  unfold starts at htwo
  omega

/-- What the second session finds. -/
def firstLog : Entry := ⟨"daemon_20260729_180404.log".toList, .regular, 10⟩

theorem isOwn_firstLog : firstLog.IsOwn daemonLog :=
  ⟨rfl, "20260729_180404".toList, [], by decide, Or.inl rfl, by decide⟩

/-- **A restart, and then a rotation**: of the two logs that are kept there are three. -/
theorem third_kept :
    ¬ ∀ (l : Logging) (es : List LogEvent) (s : Logs), SortsByTime l.sort → l.sink.AsDocumented →
      0 < l.maxFiles → History l es s → Retained l s := by
  intro h
  have hown : OnlyOwn daemonLog [firstLog] := by
    refine ⟨fun e he _ _ => ?_, ?_⟩
    · have hsearched : searched [firstLog] = [firstLog] := rfl
      rw [hsearched, List.mem_singleton] at he
      exact he ▸ isOwn_firstLog
    · have hunsearched : unsearched [firstLog] = [] := rfl
      rw [hunsearched]
      exact List.forall_mem_nil _
  have hlogs : ownLogs daemonLog [firstLog] = [firstLog] := by
    classical
    unfold ownLogs
    exact List.filter_eq_self.mpr (by simpa using isOwn_firstLog)
  have hmeets : Logs.Meets twoKept { live := some (firstStamp, 0) }
      (.start secondStamp [firstLog]) := by
    refine ⟨hown, ?_, ?_⟩
    · rw [show twoKept.parts = daemonLog from rfl, hlogs]
      exact List.Perm.refl _
    · decide
  have hsecond := @History.step _ [_] _ _ _ firstSession hmeets rfl
  have hrotated := @History.step _ [_, _] _ _ .rotate hsecond trivial rfl
  have hbound := (h _ _ _ sortsByTime_oldestFirst twoKept_asDocumented (by decide) hrotated).bound
  rw [length_files twoKept_asDocumented (by decide)] at hbound
  exact absurd hbound (by decide)

end Logosctl.LogSink
