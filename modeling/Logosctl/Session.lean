/-
# One session directory: daemons, detach parents and state.json

Everything that starts, stops or reports a daemon in one config directory goes through one
file, `daemon/state.json`.  A starting daemon reads it and refuses when it names a live process;
much later it writes its own.  A stopping daemon removes it twice: when its event loop quits and
again when its cleanup is done.  A `--detach` parent removes it before it launches its child,
and takes its existence for the sign that the child is ready.

`State` holds the file, the daemons and the detach parents; `next` takes one file-system step of
one of them, and any interleaving of such steps is a run.  `Step` says once what a step can do,
and every proof goes by it.  Process ids are not reused.
-/
import Logosctl.Library.Transition
import Mathlib.Logic.Function.Basic

namespace Logosctl.Session

open Library

/-! ## 1. States -/

/-- What `state.json` says of its writer. -/
structure Doc where
  instanceId : String
  pid : Nat
  deriving DecidableEq, Repr

/-- `fileOk`: the file names an instance. -/
def Doc.fileOk (d : Doc) : Bool := !d.instanceId.isEmpty

/-- How far a daemon process has come. -/
inductive Phase
  | absent
  /-- before it looks for a running daemon -/
  | booting
  /-- it has read `state.json`, and not yet tested the pid it found -/
  | checking (existing : Option Doc)
  /-- it found no running daemon, and has not yet written `state.json` -/
  | guarded
  /-- it has written `state.json` and has not left its event loop -/
  | live
  /-- it has left the event loop -/
  | quitting
  /-- it has removed `state.json` once, and cleans up -/
  | cleaning
  | gone (published : Bool)
  deriving DecidableEq, Repr

/-- `processAlive`. -/
def Phase.alive : Phase → Bool
  | .absent | .gone _ => false
  | _ => true

/-- The process has written its `state.json`. -/
def Phase.published : Phase → Bool
  | .live | .quitting | .cleaning => true
  | .gone published => published
  | _ => false

/-- How far a `--detach` parent has come: `polling` is about to look for the file, `waiting` is
about to ask whether the child has exited, and `succeeded` has read the file it found. -/
inductive Parent
  | idle
  | removed
  | polling (child round : Nat)
  | waiting (child round : Nat)
  | succeeded (child : Nat) (observed : Doc)
  | failed
  deriving DecidableEq, Repr

structure State where
  file : Option Doc
  instanceId : Nat → String
  phase : Nat → Phase
  parent : Nat → Parent
  nextPid : Nat

/-- A fresh config directory. -/
def init : State where
  file := none
  instanceId _ := ""
  phase _ := .absent
  parent _ := .idle
  nextPid := 1

/-- What `p` writes. -/
def State.doc (s : State) (p : Nat) : Doc := ⟨s.instanceId p, p⟩

def State.setPhase (s : State) (p : Nat) (phase : Phase) : State :=
  { s with phase := Function.update s.phase p phase }

def State.setParent (s : State) (k : Nat) (parent : Parent) : State :=
  { s with parent := Function.update s.parent k parent }

/-- `remove(state.json)`, which may fail. -/
def State.removeFile (s : State) (ok : Bool) : State := { s with file := if ok then none else s.file }

/-- A new daemon process. -/
def State.launch (s : State) (instanceId : String) : State where
  file := s.file
  instanceId := Function.update s.instanceId s.nextPid instanceId
  phase := Function.update s.phase s.nextPid .booting
  parent := s.parent
  nextPid := s.nextPid + 1

/-- The already-running check: a usable file that names a live process. -/
def State.refuses (s : State) : Option Doc → Bool
  | some d => d.fileOk && 0 < d.pid && (s.phase d.pid).alive
  | none => false

/-! ## 2. Steps -/

inductive Action
  | start (instanceId : String)
  | read (p : Nat)
  | check (p : Nat)
  | publish (p : Nat) (ok : Bool)
  | leaveLoop (p : Nat)
  | aboutToQuit (p : Nat) (ok : Bool)
  | cleanup (p : Nat) (ok : Bool)
  /-- an early exit of a start, or a crash -/
  | die (p : Nat)
  | detach (k : Nat) (ok : Bool)
  | spawn (k : Nat) (instanceId : String)
  | spawnFails (k : Nat)
  | look (k : Nat)
  | askChild (k : Nat)

/-- How often a detach parent looks for the file. -/
def pollRounds : Nat := 600

/-- One step; `none` when it cannot be taken.  Every instance id is a dozen hex digits. -/
def next (s : State) : Action → Option State
  | .start instanceId => if instanceId.isEmpty then none else some (s.launch instanceId)
  | .read p =>
    match s.phase p with
    | .booting => some (s.setPhase p (.checking s.file))
    | _ => none
  | .check p =>
    match s.phase p with
    | .checking existing =>
      some (s.setPhase p (if s.refuses existing then .gone false else .guarded))
    | _ => none
  | .publish p ok =>
    match s.phase p with
    | .guarded =>
      if ok then some { s.setPhase p .live with file := some (s.doc p) }
      else some (s.setPhase p (.gone false))
    | _ => none
  | .leaveLoop p =>
    match s.phase p with
    | .live => some (s.setPhase p .quitting)
    | _ => none
  | .aboutToQuit p ok =>
    match s.phase p with
    | .quitting => some ((s.removeFile ok).setPhase p .cleaning)
    | _ => none
  | .cleanup p ok =>
    match s.phase p with
    | .cleaning => some ((s.removeFile ok).setPhase p (.gone true))
    | _ => none
  | .die p =>
    if (s.phase p).alive then some (s.setPhase p (.gone (s.phase p).published)) else none
  | .detach k ok =>
    match s.parent k with
    | .idle => some ((s.removeFile ok).setParent k .removed)
    | _ => none
  | .spawn k instanceId =>
    match s.parent k with
    | .removed =>
      if instanceId.isEmpty then none
      else some ((s.launch instanceId).setParent k (.polling s.nextPid 0))
    | _ => none
  | .spawnFails k =>
    match s.parent k with
    | .removed => some (s.setParent k .failed)
    | _ => none
  | .look k =>
    match s.parent k with
    | .polling child round =>
      match s.file with
      | some d => some (s.setParent k (.succeeded child d))
      | none => some (s.setParent k (.waiting child round))
    | _ => none
  | .askChild k =>
    match s.parent k with
    | .waiting child round =>
      if !(s.phase child).alive then some (s.setParent k .failed)
      else if round + 1 < pollRounds then some (s.setParent k (.polling child (round + 1)))
      else some (s.setParent k .failed)
    | _ => none

/-- What each action does, and when it can be taken. -/
inductive Step (s : State) : Action → State → Prop
  | start {id : String} (hid : id.isEmpty = false) : Step s (.start id) (s.launch id)
  | read {p : Nat} (hp : s.phase p = .booting) :
      Step s (.read p) (s.setPhase p (.checking s.file))
  | refuse {p : Nat} {existing : Option Doc} (hp : s.phase p = .checking existing)
      (hrefuse : s.refuses existing = true) : Step s (.check p) (s.setPhase p (.gone false))
  | pass {p : Nat} {existing : Option Doc} (hp : s.phase p = .checking existing)
      (hpass : s.refuses existing = false) : Step s (.check p) (s.setPhase p .guarded)
  | publish {p : Nat} (hp : s.phase p = .guarded) :
      Step s (.publish p true) { s.setPhase p .live with file := some (s.doc p) }
  | publishFails {p : Nat} (hp : s.phase p = .guarded) :
      Step s (.publish p false) (s.setPhase p (.gone false))
  | leaveLoop {p : Nat} (hp : s.phase p = .live) : Step s (.leaveLoop p) (s.setPhase p .quitting)
  | aboutToQuit {p : Nat} {ok : Bool} (hp : s.phase p = .quitting) :
      Step s (.aboutToQuit p ok) ((s.removeFile ok).setPhase p .cleaning)
  | cleanup {p : Nat} {ok : Bool} (hp : s.phase p = .cleaning) :
      Step s (.cleanup p ok) ((s.removeFile ok).setPhase p (.gone true))
  | die {p : Nat} (hp : (s.phase p).alive = true) :
      Step s (.die p) (s.setPhase p (.gone (s.phase p).published))
  | detach {k : Nat} {ok : Bool} (hk : s.parent k = .idle) :
      Step s (.detach k ok) ((s.removeFile ok).setParent k .removed)
  | spawn {k : Nat} {id : String} (hk : s.parent k = .removed) (hid : id.isEmpty = false) :
      Step s (.spawn k id) ((s.launch id).setParent k (.polling s.nextPid 0))
  | spawnFails {k : Nat} (hk : s.parent k = .removed) :
      Step s (.spawnFails k) (s.setParent k .failed)
  | found {k child round : Nat} {d : Doc} (hk : s.parent k = .polling child round)
      (hfile : s.file = some d) : Step s (.look k) (s.setParent k (.succeeded child d))
  | notFound {k child round : Nat} (hk : s.parent k = .polling child round)
      (hfile : s.file = none) : Step s (.look k) (s.setParent k (.waiting child round))
  | childExited {k child round : Nat} (hk : s.parent k = .waiting child round)
      (hchild : (s.phase child).alive = false) : Step s (.askChild k) (s.setParent k .failed)
  | again {k child round : Nat} (hk : s.parent k = .waiting child round)
      (hchild : (s.phase child).alive = true) (hround : round + 1 < pollRounds) :
      Step s (.askChild k) (s.setParent k (.polling child (round + 1)))
  | giveUp {k child round : Nat} (hk : s.parent k = .waiting child round)
      (hchild : (s.phase child).alive = true) (hround : ¬ round + 1 < pollRounds) :
      Step s (.askChild k) (s.setParent k .failed)

/-- **A step is one of those.** -/
theorem step_of_next {s s' : State} {a : Action} (h : next s a = some s') : Step s a s' := by
  cases a with
  | start id =>
    simp only [next] at h
    split at h
    · cases h
    · next hid =>
      cases h
      exact .start (by simpa using hid)
  | read p =>
    simp only [next] at h
    split at h
    · next hp => cases h; exact .read hp
    · cases h
  | check p =>
    simp only [next] at h
    split at h
    · next existing hp =>
      cases hrefuses : s.refuses existing with
      | true => rw [hrefuses] at h; cases h; exact .refuse hp hrefuses
      | false => rw [hrefuses] at h; cases h; exact .pass hp hrefuses
    · cases h
  | publish p ok =>
    simp only [next] at h
    split at h
    · next hp =>
      cases ok with
      | true => cases h; exact .publish hp
      | false => cases h; exact .publishFails hp
    · cases h
  | leaveLoop p =>
    simp only [next] at h
    split at h
    · next hp => cases h; exact .leaveLoop hp
    · cases h
  | aboutToQuit p ok =>
    simp only [next] at h
    split at h
    · next hp => cases h; exact .aboutToQuit hp
    · cases h
  | cleanup p ok =>
    simp only [next] at h
    split at h
    · next hp => cases h; exact .cleanup hp
    · cases h
  | die p =>
    simp only [next] at h
    split at h
    · next hp => cases h; exact .die hp
    · cases h
  | detach k ok =>
    simp only [next] at h
    split at h
    · next hk => cases h; exact .detach hk
    · cases h
  | spawn k id =>
    simp only [next] at h
    split at h
    · next hk =>
      split at h
      · cases h
      · next hid => cases h; exact .spawn hk (by simpa using hid)
    · cases h
  | spawnFails k =>
    simp only [next] at h
    split at h
    · next hk => cases h; exact .spawnFails hk
    · cases h
  | look k =>
    simp only [next] at h
    split at h
    · next child round hk =>
      split at h
      · next d hfile => cases h; exact .found hk hfile
      · next hfile => cases h; exact .notFound hk hfile
    · cases h
  | askChild k =>
    simp only [next] at h
    split at h
    · next child round hk =>
      cases hchild : (s.phase child).alive with
      | false => rw [hchild] at h; cases h; exact .childExited hk hchild
      | true =>
        rw [hchild] at h
        simp only [Bool.not_true, Bool.false_eq_true, if_false] at h
        split at h
        · next hround => cases h; exact .again hk hchild hround
        · next hround => cases h; exact .giveUp hk hchild hround
    · cases h

/-- A run of the session whose steps all meet `C`. -/
abbrev Run (C : State → Action → Prop) : State → Prop :=
  Reaches (fun s a s' => next s a = some s') C init

/-! ## 3. What the updates change -/

section Updates

variable (s : State) (p q k : Nat)

@[simp] theorem phase_setPhase_self (phase : Phase) : (s.setPhase p phase).phase p = phase :=
  Function.update_self ..

theorem phase_setPhase_of_ne {p q : Nat} (h : q ≠ p) (phase : Phase) :
    (s.setPhase p phase).phase q = s.phase q := Function.update_of_ne h ..

@[simp] theorem file_setPhase (phase : Phase) : (s.setPhase p phase).file = s.file := rfl

@[simp] theorem doc_setPhase (phase : Phase) : (s.setPhase p phase).doc q = s.doc q := rfl

@[simp] theorem parent_setPhase (phase : Phase) : (s.setPhase p phase).parent = s.parent := rfl

@[simp] theorem phase_setParent (parent : Parent) : (s.setParent k parent).phase = s.phase := rfl

@[simp] theorem parent_setParent_self (parent : Parent) :
    (s.setParent k parent).parent k = parent := Function.update_self ..

theorem parent_setParent_of_ne {k l : Nat} (h : l ≠ k) (parent : Parent) :
    (s.setParent k parent).parent l = s.parent l := Function.update_of_ne h ..

/-- Setting a parent to what it is changes nothing. -/
theorem setParent_self : s.setParent k (s.parent k) = s := by
  unfold State.setParent
  rw [Function.update_eq_self]

@[simp] theorem file_setParent (parent : Parent) : (s.setParent k parent).file = s.file := rfl

@[simp] theorem doc_setParent (parent : Parent) : (s.setParent k parent).doc q = s.doc q := rfl

@[simp] theorem phase_removeFile (ok : Bool) : (s.removeFile ok).phase = s.phase := rfl

@[simp] theorem parent_removeFile (ok : Bool) : (s.removeFile ok).parent = s.parent := rfl

@[simp] theorem doc_removeFile (ok : Bool) : (s.removeFile ok).doc q = s.doc q := rfl

@[simp] theorem file_removeFile (ok : Bool) :
    (s.removeFile ok).file = if ok then none else s.file := rfl

@[simp] theorem file_launch (id : String) : (s.launch id).file = s.file := rfl

@[simp] theorem parent_launch (id : String) : (s.launch id).parent = s.parent := rfl

@[simp] theorem nextPid_launch (id : String) : (s.launch id).nextPid = s.nextPid + 1 := rfl

@[simp] theorem phase_launch_self (id : String) : (s.launch id).phase s.nextPid = .booting :=
  Function.update_self ..

theorem phase_launch_of_ne {q : Nat} (h : q ≠ s.nextPid) (id : String) :
    (s.launch id).phase q = s.phase q := Function.update_of_ne h ..

theorem doc_launch_of_ne {q : Nat} (h : q ≠ s.nextPid) (id : String) :
    (s.launch id).doc q = s.doc q := by
  simp [State.doc, State.launch, Function.update_of_ne h]

end Updates

/-! ## 4. What a step does to one process, and to the file -/

/-- What a step does to the phase of process `q`. -/
inductive Moves (s s' : State) (q : Nat) : Action → Prop
  | still {a : Action} (h : s'.phase q = s.phase q) : Moves s s' q a
  | born {a : Action} (hq : q = s.nextPid) (h : s'.phase q = .booting)
      (hnext : s'.nextPid = s.nextPid + 1) (hdoc : (s'.doc q).fileOk = true) : Moves s s' q a
  | read (h : s'.phase q = .checking s.file) (hq : s.phase q = .booting) : Moves s s' q (.read q)
  | refuse {existing : Option Doc} (h : s'.phase q = .gone false)
      (hq : s.phase q = .checking existing) : Moves s s' q (.check q)
  | pass {existing : Option Doc} (h : s'.phase q = .guarded) (hq : s.phase q = .checking existing)
      (hpass : s.refuses existing = false) : Moves s s' q (.check q)
  | publish (h : s'.phase q = .live) (hq : s.phase q = .guarded)
      (hfile : s'.file = some (s.doc q)) : Moves s s' q (.publish q true)
  | publishFails (h : s'.phase q = .gone false) (hq : s.phase q = .guarded) :
      Moves s s' q (.publish q false)
  | leaveLoop (h : s'.phase q = .quitting) (hq : s.phase q = .live) : Moves s s' q (.leaveLoop q)
  | aboutToQuit {ok : Bool} (h : s'.phase q = .cleaning) (hq : s.phase q = .quitting) :
      Moves s s' q (.aboutToQuit q ok)
  | cleanup {ok : Bool} (h : s'.phase q = .gone true) (hq : s.phase q = .cleaning) :
      Moves s s' q (.cleanup q ok)
  | die (h : s'.phase q = .gone (s.phase q).published) (hq : (s.phase q).alive = true) :
      Moves s s' q (.die q)

/-- What a step does to `state.json`. -/
inductive Writes (s s' : State) : Action → Prop
  | still {a : Action} (h : s'.file = s.file) : Writes s s' a
  | publish {p : Nat} (h : s'.file = some (s.doc p)) (hp : s.phase p = .guarded) :
      Writes s s' (.publish p true)
  | detach {k : Nat} (h : s'.file = none) : Writes s s' (.detach k true)
  | aboutToQuit {p : Nat} (h : s'.file = none) (hp : s.phase p = .quitting) :
      Writes s s' (.aboutToQuit p true)
  | cleanup {p : Nat} (h : s'.file = none) (hp : s.phase p = .cleaning) :
      Writes s s' (.cleanup p true)

section Observations

variable {s s' : State} {a : Action}

/-- A step that sets the phase of `p` moves `p` and no other process. -/
theorem moves_of_setPhase (t : State) {p : Nat} {phase : Phase} (ht : t.phase = s.phase)
    (hs' : s'.phase = (t.setPhase p phase).phase) (hmove : s'.phase p = phase → Moves s s' p a)
    (q : Nat) : Moves s s' q a := by
  by_cases hqp : q = p
  · subst hqp
    exact hmove (by rw [hs', phase_setPhase_self])
  · exact .still (by rw [hs', phase_setPhase_of_ne _ hqp, ht])

/-- A step that launches a process moves that one and no other. -/
theorem moves_of_launch (id : String) (hid : id.isEmpty = false)
    (hs' : ∃ k, s' = (s.launch id).setParent k (s'.parent k)) (q : Nat) : Moves s s' q a := by
  obtain ⟨k, hs'⟩ := hs'
  have hphase : s'.phase = (s.launch id).phase := by rw [hs', phase_setParent]
  by_cases hqp : q = s.nextPid
  · refine .born hqp (by rw [hphase, hqp, phase_launch_self]) (by rw [hs']; rfl) ?_
    rw [hs', doc_setParent, hqp]
    simp [State.doc, State.launch, Doc.fileOk, hid]
  · exact .still (by rw [hphase, phase_launch_of_ne _ hqp])

/-- **A process moves by its own steps only**, once it is born. -/
theorem moves_of_step (h : Step s a s') (q : Nat) : Moves s s' q a := by
  cases h with
  | @start id hid =>
    refine moves_of_launch id hid ⟨0, ?_⟩ q
    exact (setParent_self _ 0).symm
  | @spawn k id hk hid =>
    refine moves_of_launch id hid ⟨k, ?_⟩ q
    rw [parent_setParent_self]
  | read hp => exact moves_of_setPhase s rfl rfl (fun h => .read h hp) q
  | refuse hp hrefuse => exact moves_of_setPhase s rfl rfl (fun h => .refuse h hp) q
  | pass hp hpass => exact moves_of_setPhase s rfl rfl (fun h => .pass h hp hpass) q
  | publish hp =>
    refine moves_of_setPhase s rfl (?_ : _ = (s.setPhase _ .live).phase) (fun h => .publish h hp rfl) q
    rfl
  | publishFails hp => exact moves_of_setPhase s rfl rfl (fun h => .publishFails h hp) q
  | leaveLoop hp => exact moves_of_setPhase s rfl rfl (fun h => .leaveLoop h hp) q
  | @aboutToQuit p ok hp =>
    exact moves_of_setPhase (s.removeFile ok) (phase_removeFile s ok) rfl
      (fun h => .aboutToQuit h hp) q
  | @cleanup p ok hp =>
    exact moves_of_setPhase (s.removeFile ok) (phase_removeFile s ok) rfl
      (fun h => .cleanup h hp) q
  | die hp => exact moves_of_setPhase s rfl rfl (fun h => .die h hp) q
  | _ => exact .still rfl

/-- **`state.json` changes only by a publish or a removal.** -/
theorem writes_of_step (h : Step s a s') : Writes s s' a := by
  cases h with
  | publish hp => exact .publish rfl hp
  | @aboutToQuit p ok hp =>
    cases ok with
    | true => exact .aboutToQuit rfl hp
    | false => exact .still rfl
  | @cleanup p ok hp =>
    cases ok with
    | true => exact .cleanup rfl hp
    | false => exact .still rfl
  | @detach k ok hk =>
    cases ok with
    | true => exact .detach rfl
    | false => exact .still rfl
  | _ => exact .still rfl

/-- A process that has been born keeps its document. -/
theorem doc_of_step (h : Step s a s') {q : Nat} (hq : q ≠ s.nextPid) : s'.doc q = s.doc q := by
  cases h with
  | start hid => exact doc_launch_of_ne s hq _
  | spawn hk hid => exact doc_launch_of_ne s hq _
  | _ => rfl

/-! ## 5. What holds in every run -/

/-- Unused pids are unborn, and every process that was born has a usable document. -/
structure WellFormed (s : State) : Prop where
  fresh : ∀ q, s.nextPid ≤ q → s.phase q = .absent
  positive : 0 < s.nextPid
  zero : s.phase 0 = .absent
  named : ∀ q, s.phase q ≠ .absent → (s.doc q).fileOk = true

theorem WellFormed.ne_nextPid {q : Nat} (hs : WellFormed s) (hq : s.phase q ≠ .absent) :
    q ≠ s.nextPid := by
  rintro rfl
  exact hq (hs.fresh _ (Nat.le_refl _))

theorem wellFormed_init : WellFormed init where
  fresh _ _ := rfl
  positive := by decide
  zero := rfl
  named _ h := absurd rfl h

/-- A process that was not born yet is born by the step, or still is not. -/
theorem Moves.of_absent {q : Nat} (h : Moves s s' q a) (hq : s.phase q = .absent) :
    s'.phase q = .absent ∨
      (q = s.nextPid ∧ s'.nextPid = s.nextPid + 1 ∧ (s'.doc q).fileOk = true) := by
  cases h with
  | still h => exact Or.inl (h.trans hq)
  | born hnew _ hnext hdoc => exact Or.inr ⟨hnew, hnext, hdoc⟩
  | read _ hp => rw [hq] at hp; cases hp
  | refuse _ hp => rw [hq] at hp; cases hp
  | pass _ hp _ => rw [hq] at hp; cases hp
  | publish _ hp _ => rw [hq] at hp; cases hp
  | publishFails _ hp => rw [hq] at hp; cases hp
  | leaveLoop _ hp => rw [hq] at hp; cases hp
  | aboutToQuit _ hp => rw [hq] at hp; cases hp
  | cleanup _ hp => rw [hq] at hp; cases hp
  | die _ hp => rw [hq] at hp; cases hp

theorem nextPid_le_of_step (h : Step s a s') : s.nextPid ≤ s'.nextPid := by
  cases h with
  | start hid => exact Nat.le_succ _
  | spawn hk hid => exact Nat.le_succ _
  | _ => exact Nat.le_refl _

theorem wellFormed_step (hs : WellFormed s) (h : Step s a s') : WellFormed s' := by
  have hle := nextPid_le_of_step h
  refine ⟨?_, Nat.lt_of_lt_of_le hs.positive hle, ?_, ?_⟩
  · intro q hq
    have habsent := hs.fresh q (Nat.le_trans hle hq)
    rcases (moves_of_step h q).of_absent habsent with h | ⟨rfl, hnext, -⟩
    · exact h
    · omega
  · rcases (moves_of_step h 0).of_absent hs.zero with h | ⟨hzero, -, -⟩
    · exact h
    · exact absurd hzero (Nat.ne_of_lt hs.positive)
  · intro q hq
    by_cases hborn : s.phase q = .absent
    · rcases (moves_of_step h q).of_absent hborn with h | ⟨-, -, hdoc⟩
      · exact absurd h hq
      · exact hdoc
    · rw [doc_of_step h (hs.ne_nextPid hborn)]
      exact hs.named q hborn

/-- Every state of every run is well formed, so an invariant has to be kept by the steps out of
well-formed states only. -/
theorem invariant_of_run {C : State → Action → Prop} {I : State → Prop} (h₀ : I init)
    (hstep : ∀ {s s' a}, WellFormed s → I s → C s a → Step s a s' → I s') (h : Run C s) : I s :=
  h.invariant_beside wellFormed_init (fun hs hnext => wellFormed_step hs (step_of_next hnext)) h₀
    fun hw hs hc hnext => hstep hw hs hc (step_of_next hnext)

/-- **The guard turns a process away** when the file it read names a live process. -/
theorem refuses_of_alive (hs : WellFormed s) {q : Nat} (hq : (s.phase q).alive = true) :
    s.refuses (some (s.doc q)) = true := by
  have hborn : s.phase q ≠ .absent := by
    intro habsent
    rw [habsent] at hq
    cases hq
  have hpos : 0 < q := by
    refine Nat.pos_of_ne_zero ?_
    rintro rfl
    exact hborn hs.zero
  simp only [State.refuses, Bool.and_eq_true, decide_eq_true_eq]
  exact ⟨⟨hs.named q hborn, hpos⟩, hq⟩

end Observations

/-! ## 6. A first daemon

The plain start of a daemon in a fresh directory: the run that the concrete cases begin with. -/

/-- The first daemon has read the file, and found none. -/
def firstChecking : State := (init.launch "0a1b2c3d4e5f").setPhase 1 (.checking none)

/-- The first daemon is live. -/
def firstLive : State :=
  { (firstChecking.setPhase 1 .guarded).setPhase 1 .live with
    file := some ⟨"0a1b2c3d4e5f", 1⟩ }

theorem run_firstLive {C : State → Action → Prop} (hstart : C init (.start "0a1b2c3d4e5f"))
    (hread : C (init.launch "0a1b2c3d4e5f") (.read 1)) (hcheck : C firstChecking (.check 1))
    (hpublish : C (firstChecking.setPhase 1 .guarded) (.publish 1 true)) : Run C firstLive := by
  have h₁ : Run C (init.launch "0a1b2c3d4e5f") := .tail .refl hstart rfl
  have h₂ : Run C firstChecking := h₁.tail hread rfl
  have h₃ : Run C (firstChecking.setPhase 1 .guarded) := h₂.tail hcheck rfl
  exact h₃.tail hpublish rfl

theorem phase_firstChecking {q : Nat} (hq : q ≠ 1) : firstChecking.phase q = .absent := by
  have hnext : q ≠ init.nextPid := hq
  unfold firstChecking
  rw [phase_setPhase_of_ne _ hq, phase_launch_of_ne _ hnext]
  rfl

end Logosctl.Session
