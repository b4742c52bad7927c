/-
# What a detached start reports

The parent of a detached start removes `state.json`, launches its child and then looks for the
file again and again; between two looks it asks whether the child has exited.  It reports
success as soon as the file exists, whoever wrote it.

`detach_reports_own_child` says under which runs that is the child: the parent's removal leaves
no file behind, and until it has reported nobody but its child publishes.  A child that exits
without having published is then always reported as a failure.
-/
import Logosctl.Session

namespace Logosctl.Session

open Library

/-- The parent waits for `child`. -/
def Parent.Awaits (child : Nat) : Parent → Prop
  | .polling c _ => c = child
  | .waiting c _ => c = child
  | _ => False

/-- A step that leaves detached starts undisturbed: a publish finds no parent that has removed
the file and waits for another process, and the parent's removal leaves no file. -/
def Undisturbed (s : State) : Action → Prop
  | .publish p ok => ok = true → ∀ k, s.parent k ≠ .removed ∧
      ∀ child, (s.parent k).Awaits child → child = p
  | .detach _ ok => ok = true ∨ s.file = none
  | _ => True

/-- What a step does to parent `k`. -/
inductive Turns (s s' : State) (k : Nat) : Action → Prop
  | still {a : Action} (h : s'.parent k = s.parent k) : Turns s s' k a
  | detach {ok : Bool} (h : s'.parent k = .removed) (hfile : s'.file = if ok then none else s.file) :
      Turns s s' k (.detach k ok)
  | spawn {id : String} (h : s'.parent k = .polling s.nextPid 0) (hk : s.parent k = .removed)
      (hfile : s'.file = s.file) (hborn : s'.phase s.nextPid = .booting) :
      Turns s s' k (.spawn k id)
  | found {child round : Nat} {d : Doc} (h : s'.parent k = .succeeded child d)
      (hk : s.parent k = .polling child round) (hfile : s.file = some d) : Turns s s' k (.look k)
  | notFound {child round : Nat} (h : s'.parent k = .waiting child round)
      (hk : s.parent k = .polling child round) : Turns s s' k (.look k)
  | again {child round : Nat} (h : s'.parent k = .polling child (round + 1))
      (hk : s.parent k = .waiting child round) : Turns s s' k (.askChild k)
  | fails {a : Action} (h : s'.parent k = .failed) : Turns s s' k a

section Detach

variable {s s' : State} {a : Action} {k child : Nat}

/-! ## 1. What a step does to a parent, and to a published process -/

/-- A step that sets parent `l` turns `l` and no other parent. -/
theorem turns_of_setParent {t : State} {l : Nat} {parent : Parent} (ht : t.parent = s.parent)
    (hmove : (t.setParent l parent).parent l = parent → Turns s (t.setParent l parent) l a)
    (k : Nat) : Turns s (t.setParent l parent) k a := by
  by_cases hkl : k = l
  · subst hkl
    exact hmove (parent_setParent_self _ _ _)
  · exact .still (by rw [parent_setParent_of_ne _ hkl, ht])

theorem turns_of_step (h : Step s a s') (k : Nat) : Turns s s' k a := by
  cases h with
  | @detach l ok hk =>
    exact turns_of_setParent (parent_removeFile s ok) (fun h => .detach h (file_removeFile s ok)) k
  | @spawn l id hk hid =>
    exact turns_of_setParent (parent_launch s id)
      (fun h => .spawn h hk rfl (phase_launch_self s id)) k
  | spawnFails hk => exact turns_of_setParent rfl (fun h => .fails h) k
  | found hk hfile => exact turns_of_setParent rfl (fun h => .found h hk hfile) k
  | notFound hk hfile => exact turns_of_setParent rfl (fun h => .notFound h hk) k
  | childExited hk hchild => exact turns_of_setParent rfl (fun h => .fails h) k
  | again hk hchild hround => exact turns_of_setParent rfl (fun h => .again h hk) k
  | giveUp hk hchild hround => exact turns_of_setParent rfl (fun h => .fails h) k
  | _ => exact .still rfl

/-- A process that has published stays one that has. -/
theorem published_of_step (hw : WellFormed s) (h : Step s a s') {q : Nat}
    (hq : (s.phase q).published = true) : (s'.phase q).published = true := by
  cases moves_of_step h q with
  | still hphase => rw [hphase, hq]
  | born hnew _ _ _ =>
    rw [hw.fresh q (Nat.le_of_eq hnew.symm)] at hq
    cases hq
  | read _ hp => rw [hp] at hq; cases hq
  | refuse _ hp => rw [hp] at hq; cases hq
  | pass _ hp _ => rw [hp] at hq; cases hq
  | publishFails _ hp => rw [hp] at hq; cases hq
  | publish hphase _ _ => rw [hphase]; rfl
  | leaveLoop hphase _ => rw [hphase]; rfl
  | aboutToQuit hphase _ => rw [hphase]; rfl
  | cleanup hphase _ => rw [hphase]; rfl
  | die hphase _ => rw [hphase]; exact hq

/-- A process that has been born stays so. -/
theorem born_of_step (hw : WellFormed s) (h : Step s a s') {q : Nat}
    (hq : s.phase q ≠ .absent) : s'.phase q ≠ .absent := by
  cases moves_of_step h q with
  | still hphase => rwa [hphase]
  | born hnew _ _ _ => exact absurd (hw.fresh q (Nat.le_of_eq hnew.symm)) hq
  | read hphase _ => rw [hphase]; exact nofun
  | refuse hphase _ => rw [hphase]; exact nofun
  | pass hphase _ _ => rw [hphase]; exact nofun
  | publishFails hphase _ => rw [hphase]; exact nofun
  | publish hphase _ _ => rw [hphase]; exact nofun
  | leaveLoop hphase _ => rw [hphase]; exact nofun
  | aboutToQuit hphase _ => rw [hphase]; exact nofun
  | cleanup hphase _ => rw [hphase]; exact nofun
  | die hphase _ => rw [hphase]; exact nofun

/-! ## 2. What a waiting parent can find -/

/-- The file is absent while a parent that has removed it has no child yet, and is the child's or
absent while it waits; what it found was its child's. -/
structure Reported (s : State) : Prop where
  removed : ∀ k, s.parent k = .removed → s.file = none
  awaited : ∀ k child, (s.parent k).Awaits child → s.phase child ≠ .absent ∧
    (s.file = none ∨ (s.file = some (s.doc child) ∧ (s.phase child).published = true))
  succeeded : ∀ k child d, s.parent k = .succeeded child d →
    d = s.doc child ∧ (s.phase child).published = true

theorem reported_init : Reported init := by
  refine ⟨nofun, ?_, nofun⟩
  intro k child h
  exact h.elim

/-- The file as a waiting parent can find it, carried across a step. -/
theorem awaited_step (hw : WellFormed s) (hs : Reported s) (hc : Undisturbed s a)
    (h : Step s a s') (hawait : (s.parent k).Awaits child) :
    s'.phase child ≠ .absent ∧
      (s'.file = none ∨ (s'.file = some (s'.doc child) ∧ (s'.phase child).published = true)) := by
  obtain ⟨hborn, hfile⟩ := hs.awaited k child hawait
  refine ⟨born_of_step hw h hborn, ?_⟩
  rw [doc_of_step h (hw.ne_nextPid hborn)]
  cases writes_of_step h with
  | still hsame =>
    rw [hsame]
    rcases hfile with hnone | ⟨hdoc, hpublished⟩
    · exact Or.inl hnone
    · exact Or.inr ⟨hdoc, published_of_step hw h hpublished⟩
  | @publish p hdoc hp =>
    obtain rfl := (hc rfl k).2 child hawait
    refine Or.inr ⟨hdoc, ?_⟩
    cases h with
    | publish hp => simp [State.setPhase, Phase.published]
  | detach hnone => exact Or.inl hnone
  | aboutToQuit hnone _ => exact Or.inl hnone
  | cleanup hnone _ => exact Or.inl hnone

/-- The file as a parent without a child leaves it. -/
theorem removed_step (hs : Reported s) (hc : Undisturbed s a) (h : Step s a s')
    (hk : s'.parent k = .removed) : s'.file = none := by
  cases turns_of_step h k with
  | still hsame =>
    rw [hsame] at hk
    cases writes_of_step h with
    | still hfile => rw [hfile, hs.removed k hk]
    | publish _ _ => exact absurd hk (hc rfl k).1
    | detach hnone => exact hnone
    | aboutToQuit hnone _ => exact hnone
    | cleanup hnone _ => exact hnone
  | @detach ok _ hfile =>
    rw [hfile]
    cases ok with
    | true => rfl
    | false => exact hc.resolve_left (by simp)
  | spawn hk' _ _ _ => rw [hk] at hk'; cases hk'
  | found hk' _ _ => rw [hk] at hk'; cases hk'
  | notFound hk' _ => rw [hk] at hk'; cases hk'
  | again hk' _ => rw [hk] at hk'; cases hk'
  | fails hk' => rw [hk] at hk'; cases hk'

/-- A published process keeps its document. -/
theorem doc_published_of_step {d : Doc} (hw : WellFormed s) (h : Step s a s')
    (hd : d = s.doc child) (hpublished : (s.phase child).published = true) :
    d = s'.doc child ∧ (s'.phase child).published = true := by
  have hborn : s.phase child ≠ .absent := by
    intro habsent
    rw [habsent] at hpublished
    cases hpublished
  rw [doc_of_step h (hw.ne_nextPid hborn)]
  exact ⟨hd, published_of_step hw h hpublished⟩

/-- What a parent has found stays its child's. -/
theorem succeeded_step {d : Doc} (hw : WellFormed s) (hs : Reported s) (h : Step s a s')
    (hk : s'.parent k = .succeeded child d) :
    d = s'.doc child ∧ (s'.phase child).published = true := by
  cases turns_of_step h k with
  | still hsame =>
    obtain ⟨hd, hpublished⟩ := hs.succeeded k child d (hsame ▸ hk)
    exact doc_published_of_step hw h hd hpublished
  | found hk' hbefore hfile =>
    rw [hk] at hk'
    injection hk' with hchild hd
    subst hchild hd
    obtain ⟨-, hfound⟩ := hs.awaited k child (by rw [hbefore]; rfl)
    rcases hfound with hnone | ⟨hdoc, hpublished⟩
    · rw [hfile] at hnone
      cases hnone
    · rw [hfile, Option.some.injEq] at hdoc
      exact doc_published_of_step hw h hdoc hpublished
  | detach hk' _ => rw [hk] at hk'; cases hk'
  | spawn hk' _ _ _ => rw [hk] at hk'; cases hk'
  | notFound hk' _ => rw [hk] at hk'; cases hk'
  | again hk' _ => rw [hk] at hk'; cases hk'
  | fails hk' => rw [hk] at hk'; cases hk'

theorem reported_step (hw : WellFormed s) (hs : Reported s) (hc : Undisturbed s a)
    (h : Step s a s') : Reported s' := by
  refine ⟨fun k hk => removed_step hs hc h hk, ?_, fun k child d hk => succeeded_step hw hs h hk⟩
  intro k child hawait
  cases turns_of_step h k with
  | still hsame => exact awaited_step hw hs hc h (hsame ▸ hawait)
  | spawn hk hremoved hfile hborn =>
    rw [hk] at hawait
    obtain rfl : s.nextPid = child := hawait
    rw [hfile, hs.removed k hremoved, hborn]
    exact ⟨nofun, Or.inl rfl⟩
  | notFound hk hbefore =>
    rw [hk] at hawait
    exact awaited_step (k := k) hw hs hc h (hbefore ▸ hawait)
  | again hk hbefore =>
    rw [hk] at hawait
    exact awaited_step (k := k) hw hs hc h (hbefore ▸ hawait)
  | detach hk _ => rw [hk] at hawait; exact hawait.elim
  | found hk _ _ => rw [hk] at hawait; exact hawait.elim
  | fails hk => rw [hk] at hawait; exact hawait.elim

theorem reported_of_run (h : Run Undisturbed s) : Reported s :=
  invariant_of_run reported_init reported_step h

/-! ## 3. The report -/

/-- **A detached start reports its own child**, in every state of every run that leaves it
undisturbed: a success was its child's file, written by its child; and when the child has exited
without publishing, the parent has not reported success, its next look finds no file, and its
next question ends in failure. -/
theorem detach_reports_own_child (h : Run Undisturbed s) (k child : Nat) :
    (∀ d, s.parent k = .succeeded child d → d.pid = child ∧ (s.phase child).published = true) ∧
      (s.phase child = .gone false →
        (∀ d, s.parent k ≠ .succeeded child d) ∧
          ∀ round,
            (s.parent k = .polling child round →
              next s (.look k) = some (s.setParent k (.waiting child round))) ∧
            (s.parent k = .waiting child round →
              next s (.askChild k) = some (s.setParent k .failed))) := by
  have hs := reported_of_run h
  refine ⟨?_, ?_⟩
  · intro d hk
    obtain ⟨rfl, hpublished⟩ := hs.succeeded k child d hk
    exact ⟨rfl, hpublished⟩
  · intro hgone
    refine ⟨?_, ?_⟩
    · intro d hk
      have hpublished := (hs.succeeded k child d hk).2
      rw [hgone] at hpublished
      cases hpublished
    · intro round
      refine ⟨?_, ?_⟩
      · intro hk
        have hfile : s.file = none := by
          rcases (hs.awaited k child (by rw [hk]; rfl)).2 with hnone | ⟨-, hpublished⟩
          · exact hnone
          · rw [hgone] at hpublished
            cases hpublished
        simp only [next, hk, hfile]
      · intro hk
        simp [next, hk, hgone, Phase.alive]

/-- A detached start with the directory to itself reports the pid of its child. -/
theorem lone_detach_reports_child :
    ∃ s d, Run Undisturbed s ∧ s.parent 0 = .succeeded 1 d ∧ d.pid = 1 := by
  have h₁ : Run Undisturbed ((init.removeFile true).setParent 0 .removed) :=
    Reaches.tail .refl (a := .detach 0 true) (Or.inl rfl) rfl
  have h₂ : Run Undisturbed _ := h₁.tail (a := .spawn 0 "0a1b2c3d4e5f") trivial rfl
  have h₃ : Run Undisturbed _ := h₂.tail (a := .read 1) trivial rfl
  have h₄ : Run Undisturbed _ := h₃.tail (a := .check 1) trivial rfl
  have hlone : ∀ s : State, s.parent 0 = .polling 1 0 → (∀ k, k ≠ 0 → s.parent k = .idle) →
      Undisturbed s (.publish 1 true) := by
    rintro s hzero hothers - k
    by_cases hk : k = 0
    · subst hk
      rw [hzero]
      exact ⟨nofun, fun child h => h.symm⟩
    · rw [hothers k hk]
      exact ⟨nofun, fun child h => h.elim⟩
  have h₅ : Run Undisturbed _ := h₄.tail (a := .publish 1 true)
    (hlone _ rfl fun k hk => (parent_setParent_of_ne _ hk _).trans
      (parent_setParent_of_ne _ hk _)) rfl
  have h₆ : Run Undisturbed _ := h₅.tail (a := .look 0) trivial rfl
  exact ⟨_, ⟨"0a1b2c3d4e5f", 1⟩, h₆, rfl, ((detach_reports_own_child h₆ 0 1).1 _ rfl).1⟩

/-- **A detached start reports another daemon.**  A foreground start publishes while the parent
waits for its child, process 2; the parent reports success on the file of process 1. -/
theorem detach_reports_other_daemon :
    ∃ s, Run (fun _ _ => True) s ∧ s.parent 0 = .succeeded 2 ⟨"0a1b2c3d4e5f", 1⟩ := by
  obtain ⟨s, hs⟩ : ∃ s, runActions next init [.start "0a1b2c3d4e5f", .detach 0 true, .read 1,
      .check 1, .spawn 0 "6f7a8b9c0d1e", .publish 1 true, .look 0] = some s := ⟨_, rfl⟩
  refine ⟨s, runActions_reaches _ .refl hs, ?_⟩
  cases hs
  rfl

end Detach

end Logosctl.Session
