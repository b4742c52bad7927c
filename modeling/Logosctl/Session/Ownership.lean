/-
# Who owns state.json

Two runs of the same idea.  A daemon owns the session from the moment its guard lets it pass;
if `state.json` names every live daemon truthfully, the guard turns a second one away.  What
breaks this is what happens to the file behind a daemon's back: another process that passes the
guard before this one has published, and a removal by somebody else.

`at_most_one_live` rules these out by asking that nobody removes the file under a live daemon.
`state_file_names_live` asks instead that nobody passes the guard while a stopping daemon still
has a removal to make, and concludes that every daemon removes only a file of its own.
-/
import Logosctl.Session

namespace Logosctl.Session

open Library

/-- The guard lets `p` pass on what it has read. -/
def Passes (s : State) (p : Nat) (existing : Option Doc) : Prop :=
  s.phase p = .checking existing ∧ s.refuses existing = false

/-- What `p` read is still what the file says, unless the file is gone by now. -/
def StillReads (s : State) (existing : Option Doc) : Prop := s.file = existing ∨ s.file = none

section Ownership

variable {s s' : State} {a : Action}

/-! ## 1. At most one live daemon -/

/-- A step that respects the session: a process passes the guard only while no other is between
the guard and its publish, and on a file that nobody has written since it was read; and nobody
removes the file while a daemon is live. -/
def Respectful (s : State) : Action → Prop
  | .check p => ∀ existing, Passes s p existing →
      (∀ q, q ≠ p → s.phase q ≠ .guarded) ∧ StillReads s existing
  | .detach _ ok => ok = true → ∀ q, s.phase q ≠ .live
  | .aboutToQuit _ ok => ok = true → ∀ q, s.phase q ≠ .live
  | .cleanup _ ok => ok = true → ∀ q, s.phase q ≠ .live
  | _ => True

/-- The file names whoever is live, and the one process that may publish next is alone. -/
structure Owned (s : State) : Prop where
  file : ∀ q, s.phase q = .live → s.file = some (s.doc q)
  alone : ∀ p q, s.phase p = .guarded → s.phase q = .guarded → p = q
  clear : ∀ p q, s.phase p = .guarded → s.phase q ≠ .live

theorem owned_init : Owned init := ⟨nofun, nofun, nofun⟩

/-- A process that is live after a step was live before it, or has just published. -/
theorem Moves.of_live {q : Nat} (h : Moves s s' q a) (hq : s'.phase q = .live) :
    s.phase q = .live ∨
      (a = .publish q true ∧ s.phase q = .guarded ∧ s'.file = some (s.doc q)) := by
  cases h with
  | still h => exact Or.inl (h ▸ hq)
  | publish _ hp hfile => exact Or.inr ⟨rfl, hp, hfile⟩
  | _ => simp_all

/-- A process that is guarded after a step was so before it, or has just passed the guard. -/
theorem Moves.of_guarded {q : Nat} (h : Moves s s' q a) (hq : s'.phase q = .guarded) :
    s.phase q = .guarded ∨ (a = .check q ∧ ∃ existing, Passes s q existing) := by
  cases h with
  | still h => exact Or.inl (h ▸ hq)
  | pass _ hp hpass => exact Or.inr ⟨rfl, _, hp, hpass⟩
  | _ => simp_all

/-- **No one passes the guard beside a live daemon** whose file is as it was read. -/
theorem not_live_of_passes (hw : WellFormed s) {p q : Nat} {existing : Option Doc}
    (hpass : Passes s p existing) (hread : StillReads s existing)
    (hfile : s.phase q = .live → s.file = some (s.doc q)) : s.phase q ≠ .live := by
  intro hlive
  have hdoc := hfile hlive
  have hexisting : existing = some (s.doc q) := by
    rcases hread with h | h
    · rw [← h, hdoc]
    · rw [hdoc] at h
      cases h
  have hrefuse := refuses_of_alive hw (q := q) (by rw [hlive]; rfl)
  rw [← hexisting, hpass.2] at hrefuse
  cases hrefuse

/-- The phase and the document of a live process, carried across a step. -/
theorem doc_of_live (hw : WellFormed s) (h : Step s a s') {q : Nat} (hq : s.phase q ≠ .absent) :
    s'.doc q = s.doc q := doc_of_step h (hw.ne_nextPid hq)

theorem owned_step (hw : WellFormed s) (hs : Owned s) (hc : Respectful s a) (h : Step s a s') :
    Owned s' := by
  have hne : ∀ {q}, s.phase q = .live → s.phase q ≠ .absent := by
    intro q hq
    rw [hq]
    exact nofun
  refine ⟨?_, ?_, ?_⟩
  · intro q hq
    rcases (moves_of_step h q).of_live hq with hlive | ⟨-, hguarded, hfile⟩
    · rw [doc_of_live hw h (hne hlive)]
      cases writes_of_step h with
      | still hfile => rw [hfile, hs.file q hlive]
      | publish _ hp => exact absurd hlive (hs.clear _ q hp)
      | detach _ => exact absurd hlive (hc rfl q)
      | aboutToQuit _ _ => exact absurd hlive (hc rfl q)
      | cleanup _ _ => exact absurd hlive (hc rfl q)
    · rw [hfile, doc_of_step h (hw.ne_nextPid (by rw [hguarded]; exact nofun))]
  · intro p q hp hq
    rcases (moves_of_step h p).of_guarded hp with hp' | ⟨rfl, existing, hpass⟩
    · rcases (moves_of_step h q).of_guarded hq with hq' | ⟨rfl, existing, hpass⟩
      · exact hs.alone p q hp' hq'
      · by_contra hpq
        exact (hc existing hpass).1 p hpq hp'
    · rcases (moves_of_step h q).of_guarded hq with hq' | ⟨heq, -⟩
      · by_contra hpq
        exact (hc existing hpass).1 q (fun h => hpq h.symm) hq'
      · injection heq
  · intro p q hp hq
    rcases (moves_of_step h q).of_live hq with hlive | ⟨rfl, hguarded, -⟩
    · rcases (moves_of_step h p).of_guarded hp with hp' | ⟨rfl, existing, hpass⟩
      · exact hs.clear p q hp' hlive
      · exact not_live_of_passes hw hpass (hc existing hpass).2 (hs.file q) hlive
    · rcases (moves_of_step h p).of_guarded hp with hp' | ⟨heq, -⟩
      · -- the process that publishes was the only one past the guard
        obtain rfl := hs.alone p q hp' hguarded
        rw [hp] at hq
        cases hq
      · cases heq

theorem owned_of_run (h : Run Respectful s) : Owned s :=
  invariant_of_run owned_init owned_step h

/-- **At most one live daemon**, in every state of every run that respects the session. -/
theorem at_most_one_live (h : Run Respectful s) {p q : Nat} (hp : s.phase p = .live)
    (hq : s.phase q = .live) : p = q := by
  have hs := owned_of_run h
  have hdoc := (hs.file p hp).symm.trans (hs.file q hq)
  simp only [Option.some.injEq, State.doc, Doc.mk.injEq] at hdoc
  exact hdoc.2

/-- The first daemon has left its event loop. -/
def firstQuitting : State := firstLive.setPhase 1 .quitting

/-- It has removed its file. -/
def firstCleaning : State := (firstQuitting.removeFile true).setPhase 1 .cleaning

/-- It has removed it once more and ended. -/
def firstGone : State := (firstCleaning.removeFile true).setPhase 1 (.gone true)

/-- A second start has read no file. -/
def secondChecking : State := (firstGone.launch "6f7a8b9c0d1e").setPhase 2 (.checking none)

/-- The second start has become a daemon in its turn. -/
def secondLive : State :=
  { (secondChecking.setPhase 2 .guarded).setPhase 2 .live with
    file := some ⟨"6f7a8b9c0d1e", 2⟩ }

/-- Once the first daemon has left its event loop, no daemon is live until the next one is. -/
theorem firstQuitting_not_live {q : Nat} : firstQuitting.phase q ≠ .live := by
  by_cases hq : q = 1
  · subst hq
    exact nofun
  · unfold firstQuitting firstLive firstChecking
    simp [State.setPhase, State.launch, init, hq]

theorem firstCleaning_not_live {q : Nat} : firstCleaning.phase q ≠ .live := by
  by_cases hq : q = 1
  · subst hq
    exact nofun
  · unfold firstCleaning
    simp only [State.setPhase, State.removeFile, Function.update_of_ne hq]
    exact firstQuitting_not_live

theorem secondChecking_not_guarded {q : Nat} (hq : q ≠ 2) : secondChecking.phase q ≠ .guarded := by
  by_cases hfirst : q = 1
  · subst hfirst
    exact nofun
  · unfold secondChecking firstGone firstCleaning firstQuitting firstLive firstChecking
    simp [State.setPhase, State.launch, State.removeFile, init, hq, hfirst]

/-- **Two starts that take turns.**  The first daemon stops and takes its file away, the second
start finds none, and is then the only live daemon. -/
theorem successor_only :
    secondLive.phase 1 = .gone true ∧ secondLive.phase 2 = .live ∧
      ∀ q, secondLive.phase q = .live → q = 2 := by
  have hfirst : Run Respectful firstLive := by
    refine run_firstLive trivial trivial ?_ trivial
    rintro existing ⟨hexisting, -⟩
    refine ⟨fun q hq => ?_, Or.inr rfl⟩
    rw [phase_firstChecking hq]
    exact nofun
  have hquitting : Run Respectful firstQuitting := hfirst.tail (a := .leaveLoop 1) trivial rfl
  have hcleaning : Run Respectful firstCleaning :=
    hquitting.tail (a := .aboutToQuit 1 true) (fun _ _ => firstQuitting_not_live) rfl
  have hgone : Run Respectful firstGone :=
    hcleaning.tail (a := .cleanup 1 true) (fun _ _ => firstCleaning_not_live) rfl
  have hstarted : Run Respectful (firstGone.launch "6f7a8b9c0d1e") :=
    hgone.tail (a := .start "6f7a8b9c0d1e") trivial rfl
  have hchecking : Run Respectful secondChecking := hstarted.tail (a := .read 2) trivial rfl
  have hpassed : Run Respectful (secondChecking.setPhase 2 .guarded) :=
    hchecking.tail (a := .check 2)
      (fun _ _ => ⟨fun _ hq => secondChecking_not_guarded hq, Or.inr rfl⟩) rfl
  have hlive : Run Respectful secondLive := hpassed.tail (a := .publish 2 true) trivial rfl
  exact ⟨rfl, rfl, fun q hq => at_most_one_live hlive hq rfl⟩

/-- A detach parent finds a live daemon's file and takes it for a stale one. -/
def detachBesideLive : List Action :=
  [.start "0a1b2c3d4e5f", .read 1, .check 1, .publish 1 true, .detach 0 true]

/-- **Two live daemons.**  A daemon is live, a detached start removes its file, and the child,
which finds no file, becomes live beside it. -/
theorem two_live_daemons :
    ∃ s, Run (fun _ _ => True) s ∧ s.phase 1 = .live ∧ s.phase 2 = .live := by
  obtain ⟨s, hs⟩ : ∃ s, runActions next init (detachBesideLive ++
      [.spawn 0 "6f7a8b9c0d1e", .read 2, .check 2, .publish 2 true]) = some s := ⟨_, rfl⟩
  refine ⟨s, runActions_reaches _ .refl hs, ?_⟩
  cases hs
  exact ⟨rfl, rfl⟩

/-! ## 2. The file tells the truth -/

/-- The process owns the session: it has passed the guard and has not ended. -/
def Phase.owning : Phase → Bool
  | .guarded | .live | .quitting | .cleaning => true
  | _ => false

/-- The process has left its event loop and has not ended. -/
def Phase.stopping : Phase → Bool
  | .quitting | .cleaning => true
  | _ => false

/-- A step that takes turns: a process passes the guard only while no other is past it without
being live, and on a file that nobody has written since it was read; and no detach parent
removes the file while a daemon is live. -/
def TakesTurns (s : State) : Action → Prop
  | .check p => ∀ existing, Passes s p existing →
      (∀ q, q ≠ p → s.phase q ≠ .guarded ∧ (s.phase q).stopping = false) ∧ StillReads s existing
  | .detach _ ok => ok = true → ∀ q, s.phase q ≠ .live
  | _ => True

/-- One process owns the session, and the file is its own or is gone once it is live. -/
structure Truthful (s : State) : Prop where
  alone : ∀ p q, (s.phase p).owning = true → (s.phase q).owning = true → p = q
  file : ∀ q, s.phase q = .live → s.file = some (s.doc q)
  left : ∀ q, (s.phase q).stopping = true → s.file = none ∨ s.file = some (s.doc q)

theorem truthful_init : Truthful init := ⟨nofun, nofun, nofun⟩

/-- A process that owns the session after a step did so before, or has just passed the guard. -/
theorem Moves.of_owning {q : Nat} (h : Moves s s' q a) (hq : (s'.phase q).owning = true) :
    (s.phase q).owning = true ∨ (a = .check q ∧ ∃ existing, Passes s q existing) := by
  cases h with
  | still h => exact Or.inl (h ▸ hq)
  | pass _ hp hpass => exact Or.inr ⟨rfl, _, hp, hpass⟩
  | publish _ hp _ => exact Or.inl (by rw [hp]; rfl)
  | leaveLoop _ hp => exact Or.inl (by rw [hp]; rfl)
  | aboutToQuit _ hp => exact Or.inl (by rw [hp]; rfl)
  | _ => simp_all [Phase.owning]

/-- A process that is stopping after a step was so before it, or was live. -/
theorem Moves.of_stopping {q : Nat} (h : Moves s s' q a) (hq : (s'.phase q).stopping = true) :
    (s.phase q).stopping = true ∨ s.phase q = .live := by
  cases h with
  | still h => exact Or.inl (h ▸ hq)
  | leaveLoop _ hp => exact Or.inr hp
  | aboutToQuit _ hp => exact Or.inl (by rw [hp]; rfl)
  | _ => simp_all [Phase.stopping]

/-- Owning is being past the guard, live or stopping. -/
theorem Phase.owning_cases {phase : Phase} (h : phase.owning = true) :
    phase = .guarded ∨ phase = .live ∨ phase.stopping = true := by
  cases phase with
  | guarded => exact Or.inl rfl
  | live => exact Or.inr (Or.inl rfl)
  | quitting => exact Or.inr (Or.inr rfl)
  | cleaning => exact Or.inr (Or.inr rfl)
  | _ => cases h

/-- Passing the guard in turn, nobody else owns the session. -/
theorem not_owning_of_passes (hw : WellFormed s) (hs : Truthful s) {p q : Nat}
    {existing : Option Doc} (hpass : Passes s p existing) (hc : TakesTurns s (.check p))
    (hne : q ≠ p) : (s.phase q).owning = false := by
  obtain ⟨hothers, hread⟩ := hc existing hpass
  obtain ⟨hguarded, hstopping⟩ := hothers q hne
  rw [← Bool.not_eq_true]
  intro howning
  rcases Phase.owning_cases howning with h | h | h
  · exact hguarded h
  · exact not_live_of_passes hw hpass hread (hs.file q) h
  · rw [hstopping] at h
    cases h

/-- **What a step in turn may write** beside a process that was live or stopping. -/
theorem file_of_takesTurns (hs : Truthful s) (hc : TakesTurns s a) (h : Step s a s') {q : Nat}
    (hq : s.phase q = .live ∨ (s.phase q).stopping = true) :
    s'.file = s.file ∨ (s'.file = none ∧ s.phase q ≠ .live) := by
  have howning : (s.phase q).owning = true := by
    rcases hq with hq | hq
    · rw [hq]
      rfl
    · cases hphase : s.phase q <;> simp_all [Phase.stopping, Phase.owning]
  -- whoever stops owns the session, so beside a live `q` nobody does
  have hstop : ∀ p, (s.phase p).stopping = true → s.phase q ≠ .live := by
    intro p hp hlive
    have hown : (s.phase p).owning = true := by
      cases hphase : s.phase p <;> simp_all [Phase.stopping, Phase.owning]
    obtain rfl := hs.alone p q hown howning
    rw [hlive] at hp
    cases hp
  cases writes_of_step h with
  | still hfile => exact Or.inl hfile
  | @publish p hfile hp =>
    obtain rfl := hs.alone p q (by rw [hp]; rfl) howning
    rw [hp] at hq
    rcases hq with hq | hq <;> cases hq
  | detach hfile => exact Or.inr ⟨hfile, hc rfl q⟩
  | @aboutToQuit p hfile hp => exact Or.inr ⟨hfile, hstop p (by rw [hp]; rfl)⟩
  | @cleanup p hfile hp => exact Or.inr ⟨hfile, hstop p (by rw [hp]; rfl)⟩

theorem truthful_step (hw : WellFormed s) (hs : Truthful s) (hc : TakesTurns s a)
    (h : Step s a s') : Truthful s' := by
  refine ⟨?_, ?_, ?_⟩
  · intro p q hp hq
    rcases (moves_of_step h p).of_owning hp with hp' | ⟨rfl, existing, hpass⟩
    · rcases (moves_of_step h q).of_owning hq with hq' | ⟨rfl, existing, hpass⟩
      · exact hs.alone p q hp' hq'
      · by_contra hpq
        rw [not_owning_of_passes hw hs hpass hc hpq] at hp'
        cases hp'
    · rcases (moves_of_step h q).of_owning hq with hq' | ⟨heq, -⟩
      · by_contra hpq
        rw [not_owning_of_passes hw hs hpass hc (fun h => hpq h.symm)] at hq'
        cases hq'
      · injection heq
  · intro q hq
    rcases (moves_of_step h q).of_live hq with hlive | ⟨-, hguarded, hfile⟩
    · rw [doc_of_live hw h (by rw [hlive]; exact nofun)]
      rcases file_of_takesTurns hs hc h (Or.inl hlive) with hfile | ⟨-, hnot⟩
      · rw [hfile, hs.file q hlive]
      · exact absurd hlive hnot
    · rw [hfile, doc_of_live hw h (by rw [hguarded]; exact nofun)]
  · intro q hq
    have hbefore := (moves_of_step h q).of_stopping hq
    have hborn : s.phase q ≠ .absent := by
      intro habsent
      rw [habsent] at hbefore
      rcases hbefore with h | h <;> cases h
    rw [doc_of_live hw h hborn]
    rcases file_of_takesTurns hs hc h hbefore.symm with hfile | ⟨hnone, -⟩
    · rw [hfile]
      rcases hbefore with hstopping | hlive
      · exact hs.left q hstopping
      · exact Or.inr (hs.file q hlive)
    · exact Or.inl hnone

theorem truthful_of_run (h : Run TakesTurns s) : Truthful s :=
  invariant_of_run truthful_init truthful_step h

/-- **`state.json` tells the truth** in every state of every run that takes turns: it names
every live daemon, no further step in turn changes it while that daemon stays live, and a daemon
that is stopping finds its own file or none when it removes it. -/
theorem state_file_names_live (h : Run TakesTurns s) :
    (∀ q, s.phase q = .live → s.file = some (s.doc q)) ∧
      (∀ q a s', s.phase q = .live → TakesTurns s a → next s a = some s' →
        s'.phase q = .live → s'.file = s.file) ∧
      ∀ q, (s.phase q).stopping = true → s.file = none ∨ s.file = some (s.doc q) := by
  have hs := truthful_of_run h
  refine ⟨hs.file, ?_, hs.left⟩
  intro q a s' hlive hc hstep _
  rcases file_of_takesTurns hs hc (step_of_next hstep) (Or.inl hlive) with hfile | ⟨-, hnot⟩
  · exact hfile
  · exact absurd hlive hnot

/-- The first daemon's file names it. -/
theorem firstLive_truthful : firstLive.file = some (firstLive.doc 1) := by
  have hrun : Run TakesTurns firstLive := by
    refine run_firstLive trivial trivial ?_ trivial
    rintro existing ⟨hexisting, -⟩
    refine ⟨fun q hq => ?_, Or.inr rfl⟩
    rw [phase_firstChecking hq]
    exact ⟨nofun, rfl⟩
  exact (state_file_names_live hrun).1 1 rfl

/-- **A live daemon without its file.**  A detached start removes it. -/
theorem live_daemon_loses_file :
    ∃ s, Run (fun _ _ => True) s ∧ s.phase 1 = .live ∧ s.file = none := by
  obtain ⟨s, hs⟩ : ∃ s, runActions next init detachBesideLive = some s := ⟨_, rfl⟩
  refine ⟨s, runActions_reaches _ .refl hs, ?_⟩
  cases hs
  exact ⟨rfl, rfl⟩

end Ownership

end Logosctl.Session
