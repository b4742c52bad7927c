/-
# Refusing a session whose daemon is gone

Before a command dials it asks whether the daemon it would dial is provably dead.  It reads
`state.json`, probes the process named there, and then reads the client's configuration; in between
daemons boot, stop and crash, process ids are handed out again, and an operator edits.

The two files are written at different moments by different boots.  What ties them together is that
`state.json`, whoever left it there, names an instance along with the process that instance ran in
(`Inv`).  So a verdict against an instance is never given while that instance lives
(`live_daemon_not_refused`).
-/
import Logosctl.ClientArtifacts
import Logosctl.DaemonState.Publish

namespace Logosctl

open Library JsonSchema YamlJson

/-! ## 1. The verdict -/

structure StaleSession where
  pid : Int
  reason : String
  deriving DecidableEq, Repr

/-- `state.json` names a process, and that process is gone. -/
def namesDeadProcess (processAlive : Int → Bool) (rs : DaemonRuntimeState) : Bool :=
  rs.fileOk && decide (0 < rs.pid) && !processAlive rs.pid

/-- The last question: whether the file describes the daemon this client would dial. -/
def staleVerdict (rs : DaemonRuntimeState) (cs : ClientState) : Option StaleSession :=
  if cs.instanceId.isEmpty || cs.instanceId != rs.instanceId then none
  else some ⟨rs.pid, "stale state file: pid " ++ toString rs.pid ++ " is gone"⟩

/-- The questions in one go; the liveness question comes before the file read. -/
def detectStaleSession (processAlive : Int → Bool) (rs : DaemonRuntimeState) (cs : ClientState) :
    Option StaleSession :=
  if !rs.fileOk || decide (rs.pid ≤ 0) then none
  else if processAlive rs.pid then none
  else staleVerdict rs cs

/-- What a command does about its connection: its exit code, whether it dialled, and what it
printed. -/
structure Connecting where
  exitCode : Nat
  dialled : Bool
  error : Option (String × String)
  deriving DecidableEq, Repr

/-- `Command::ensureConnected`; `connect` is what dialling gives. -/
def ensureConnected (isConnected : Bool) (stale : Option StaleSession)
    (connect : Except String Unit) : Connecting :=
  if isConnected then ⟨0, false, none⟩
  else
    match stale with
    | some stale => ⟨2, false, some ("NO_DAEMON", "No daemon running (" ++ stale.reason ++ ").")⟩
    | none =>
      match connect with
      | .ok () => ⟨0, true, none⟩
      | .error lastError => ⟨2, true, some ("NO_DAEMON", lastError)⟩

/-! ## 2. One host -/

inductive DaemonPhase
  | booting
  | serving
  | stopping
  deriving DecidableEq, Repr

/-- Who runs under a process id; a daemon may belong to another session. -/
inductive Process
  | daemon (instanceId : String) (phase : DaemonPhase) (here : Bool)
  | other
  deriving DecidableEq, Repr

/-- How far a command has come with its question. -/
inductive Asking
  | notYet
  | hasRead (rs : DaemonRuntimeState)
  | foundDead (rs : DaemonRuntimeState)
  | answered (verdict : Option StaleSession)

/-- `booted` lists every boot there ever was, on this host, with its process id. -/
structure Host where
  stateJson : Option Json
  client : ClientDir
  process : Int → Option Process
  asking : Nat → Asking
  booted : List (String × Int)

namespace Host

def setProcess (s : Host) (pid : Int) (p : Option Process) : Host :=
  { s with process := Function.update s.process pid p }

def setAsking (s : Host) (k : Nat) (a : Asking) : Host :=
  { s with asking := Function.update s.asking k a }

/-- `remove(state.json)`, which may fail. -/
def removeState (s : Host) (ok : Bool) : Host :=
  { s with stateJson := if ok then none else s.stateJson }

/-- `processAlive`. -/
def processAlive (s : Host) (pid : Int) : Bool := decide (0 < pid) && (s.process pid).isSome

/-- What `state.json` says. -/
def published (s : Host) : DaemonRuntimeState :=
  (DaemonRuntimeStateFile.read "daemon/state.json" s.stateJson).1

/-- A host on which no daemon has booted yet, whatever else runs there. -/
def fresh (client : ClientDir) (others : Int → Bool) : Host where
  stateJson := none
  client := client
  process pid := if others pid then some .other else none
  asking _ := .notYet
  booted := []

end Host

inductive HostAction
  | boot (pid : Int) (instanceId : String) (here : Bool)
  | publish (pid : Int) (ok : Bool)
  | writeArtifacts (pid : Int)
  | stop (pid : Int) (ok : Bool)
  | cleanup (pid : Int) (ok : Bool)
  /-- a crash, an early exit, or the end of some other process -/
  | exit (pid : Int)
  | spawn (pid : Int)
  /-- a parent that is about to launch a daemon removes the file -/
  | detach (ok : Bool)
  | edit (config : ConfigFile)
  | readState (k : Nat)
  | probe (k : Nat)
  | readConfig (k : Nat) (overrideSlot : Option ClientState)

/-- What the client's flags put together, if they did, or else its configuration says. -/
def Host.clientState (s : Host) (yaml : YamlCpp) (overrideSlot : Option ClientState) :
    ClientState :=
  (ClientStateFile.read yaml "client/config.yaml" overrideSlot s.client.config).1

/-- One step of the host, each of the parties going its own way. -/
inductive HostStep (fmt : Format) (s : Host) : HostAction → Host → Prop
  | boot {pid : Int} {id : String} (here : Bool) (hpos : 0 < pid) (hmax : pid < 2 ^ 31)
      (hfree : s.process pid = none) (hid : id ≠ "") :
      HostStep fmt s (.boot pid id here)
        { s.setProcess pid (some (.daemon id .booting here)) with
          booted := (id, pid) :: s.booted }
  | publish {pid : Int} {id : String} {here : Bool} (startedAt configSource : String)
      (cfg : DaemonConfig) (core capability : List LogosTransportConfig)
      (hbooting : s.process pid = some (.daemon id .booting here)) :
      HostStep fmt s (.publish pid true)
        { s.setProcess pid (some (.daemon id .serving here)) with
          stateJson :=
            if here then some (.obj (DaemonRuntimeStateFile.document
              (runtimeState id pid startedAt configSource cfg core capability)))
            else s.stateJson }
  | publishFails {pid : Int} {id : String} {here : Bool}
      (hbooting : s.process pid = some (.daemon id .booting here)) :
      HostStep fmt s (.publish pid false) (s.setProcess pid none)
  | writeArtifacts {pid : Int} (b : BootedDaemon) (io : ArtifactIo)
      (hserving : s.process pid = some (.daemon b.instanceId .serving true)) :
      HostStep fmt s (.writeArtifacts pid)
        { s with client := (writeLocalClientArtifacts fmt b io s.client).2 }
  | stop {pid : Int} {id : String} {here : Bool} {ok : Bool}
      (hserving : s.process pid = some (.daemon id .serving here)) :
      HostStep fmt s (.stop pid ok)
        ((s.removeState (here && ok)).setProcess pid (some (.daemon id .stopping here)))
  | cleanup {pid : Int} {id : String} {here : Bool} {ok : Bool}
      (hstopping : s.process pid = some (.daemon id .stopping here)) :
      HostStep fmt s (.cleanup pid ok) ((s.removeState (here && ok)).setProcess pid none)
  | exit {pid : Int} : HostStep fmt s (.exit pid) (s.setProcess pid none)
  | spawn {pid : Int} (hfree : s.process pid = none) :
      HostStep fmt s (.spawn pid) (s.setProcess pid (some .other))
  | detach {ok : Bool} : HostStep fmt s (.detach ok) (s.removeState ok)
  | edit {config : ConfigFile} :
      HostStep fmt s (.edit config) { s with client := { s.client with config } }
  | readState {k : Nat} (hk : s.asking k = .notYet) :
      HostStep fmt s (.readState k) (s.setAsking k (.hasRead s.published))
  | probe {k : Nat} {rs : DaemonRuntimeState} (hk : s.asking k = .hasRead rs) :
      HostStep fmt s (.probe k) (s.setAsking k
        (if namesDeadProcess s.processAlive rs then .foundDead rs else .answered none))
  | readConfig {k : Nat} {rs : DaemonRuntimeState} (overrideSlot : Option ClientState)
      (hk : s.asking k = .foundDead rs) :
      HostStep fmt s (.readConfig k overrideSlot) (s.setAsking k
        (.answered (staleVerdict rs (s.clientState fmt.yaml.toYamlCpp overrideSlot))))

/-! ## 3. What ties the files together -/

/-- Instance ids are not drawn twice. -/
def FreshIds (s : Host) : HostAction → Prop
  | .boot _ id _ => ∀ pid, (id, pid) ∉ s.booted
  | _ => True

/-- Runs of a host. -/
abbrev HostRun (fmt : Format) (client : ClientDir) (others : Int → Bool) : Host → Prop :=
  Reaches (HostStep fmt) FreshIds (Host.fresh client others)

/-- An instance lives. -/
def Host.Lives (s : Host) (id : String) : Prop :=
  ∃ pid phase here, s.process pid = some (.daemon id phase here)

/-- Every file and every answer names an instance along with the process it booted in. -/
structure Host.Inv (s : Host) : Prop where
  once : ∀ {id pid pid'}, (id, pid) ∈ s.booted → (id, pid') ∈ s.booted → pid = pid'
  process : ∀ {pid id phase here}, s.process pid = some (.daemon id phase here) →
    (id, pid) ∈ s.booted ∧ 0 < pid ∧ pid < 2 ^ 31
  published : s.published.fileOk = true → (s.published.instanceId, s.published.pid) ∈ s.booted
  hasRead : ∀ {k rs}, s.asking k = .hasRead rs → rs.fileOk = true →
    (rs.instanceId, rs.pid) ∈ s.booted
  /-- once a process is found dead its instance does not come back -/
  foundDead : ∀ {k rs}, s.asking k = .foundDead rs →
    (∃ pid, (rs.instanceId, pid) ∈ s.booted) ∧ ¬ s.Lives rs.instanceId

section Inv

variable {fmt : Format} {s s' : Host} {a : HostAction} {id : String} {pid : Int}

theorem inv_fresh (client : ClientDir) (others : Int → Bool) : (Host.fresh client others).Inv where
  once := nofun
  process := by
    intro pid id phase here h
    simp only [Host.fresh] at h
    split at h <;> cases h
  published := nofun
  hasRead := nofun
  foundDead := nofun

/-- A boot is added to those there were, and to nothing else. -/
theorem booted_step (h : HostStep fmt s a s') :
    s'.booted = s.booted ∨
      ∃ pid id here, a = .boot pid id here ∧ s'.booted = (id, pid) :: s.booted := by
  cases h with
  | boot here => exact Or.inr ⟨_, _, here, rfl, rfl⟩
  | _ => exact Or.inl rfl

theorem booted_mono (h : HostStep fmt s a s') {b : String × Int} (hb : b ∈ s.booted) :
    b ∈ s'.booted := by
  rcases booted_step h with heq | ⟨_, _, _, -, heq⟩
  · rw [heq]
    exact hb
  · rw [heq]
    exact List.mem_cons_of_mem _ hb

theorem process_update {q : Int} {p r : Option Process}
    (h : Function.update s.process q p pid = r) : (pid = q ∧ p = r) ∨ s.process pid = r := by
  by_cases hq : pid = q
  · subst hq
    rw [Function.update_self] at h
    exact Or.inl ⟨rfl, h⟩
  · rw [Function.update_of_ne hq] at h
    exact Or.inr h

/-- A daemon that runs has just booted, or ran before under the same process id. -/
theorem daemon_step (h : HostStep fmt s a s') {phase : DaemonPhase} {here : Bool}
    (hp : s'.process pid = some (.daemon id phase here)) :
    (∃ phase' here', s.process pid = some (.daemon id phase' here')) ∨
      (a = .boot pid id here ∧ 0 < pid ∧ pid < 2 ^ 31) := by
  cases h with
  | boot _ hpos hmax =>
    rcases process_update hp with ⟨rfl, heq⟩ | hold
    · cases heq
      exact Or.inr ⟨rfl, hpos, hmax⟩
    · exact Or.inl ⟨_, _, hold⟩
  | publish _ _ _ _ _ hbooting =>
    rcases process_update hp with ⟨rfl, heq⟩ | hold
    · cases heq
      exact Or.inl ⟨_, _, hbooting⟩
    · exact Or.inl ⟨_, _, hold⟩
  | stop hserving =>
    rcases process_update hp with ⟨rfl, heq⟩ | hold
    · cases heq
      exact Or.inl ⟨_, _, hserving⟩
    · exact Or.inl ⟨_, _, hold⟩
  | publishFails | cleanup | exit | spawn =>
    rcases process_update hp with ⟨-, heq⟩ | hold
    · cases heq
    · exact Or.inl ⟨_, _, hold⟩
  | _ => exact Or.inl ⟨_, _, hp⟩

/-- The file is as it was, or gone, or has just been written by a daemon of its own. -/
theorem stateJson_step (h : HostStep fmt s a s') :
    s'.stateJson = s.stateJson ∨ s'.stateJson = none ∨
      ∃ (pid : Int) (state : DaemonRuntimeState),
        s'.process pid = some (.daemon state.instanceId .serving true) ∧ state.pid = pid ∧
        s'.stateJson = some (.obj (DaemonRuntimeStateFile.document state)) := by
  have hremove : ∀ ok, (s.removeState ok).stateJson = s.stateJson ∨
      (s.removeState ok).stateJson = none := by
    intro ok
    cases ok with
    | true => exact Or.inr rfl
    | false => exact Or.inl rfl
  cases h with
  | @publish pid id here startedAt configSource cfg core capability hbooting =>
    cases here with
    | true =>
      exact Or.inr (Or.inr ⟨pid, runtimeState id pid startedAt configSource cfg core capability,
        Function.update_self .., rfl, rfl⟩)
    | false => exact Or.inl rfl
  | stop | cleanup | detach => exact (hremove _).imp_right Or.inl
  | _ => exact Or.inl rfl

theorem asking_setAsking (s : Host) (j : Nat) (x : Asking) (k : Nat) :
    (s.setAsking j x).asking k = s.asking k ∨ (k = j ∧ (s.setAsking j x).asking k = x) := by
  by_cases hj : k = j
  · subst hj
    exact Or.inr ⟨rfl, Function.update_self ..⟩
  · exact Or.inl (Function.update_of_ne hj ..)

/-- What a command knows is what it knew, or what it has just read, or what it has just found. -/
theorem asking_step (h : HostStep fmt s a s') (k : Nat) :
    s'.asking k = s.asking k ∨ s'.asking k = .hasRead s.published ∨
      (∃ verdict, s'.asking k = .answered verdict) ∨
      ∃ rs, s.asking k = .hasRead rs ∧ namesDeadProcess s.processAlive rs = true ∧
        s'.asking k = .foundDead rs ∧ s'.process = s.process := by
  cases h with
  | @readState j hj =>
    rcases asking_setAsking s j (.hasRead s.published) k with hsame | ⟨-, hnew⟩
    · exact Or.inl hsame
    · exact Or.inr (Or.inl hnew)
  | @probe j rs hj =>
    rcases asking_setAsking s j
      (if namesDeadProcess s.processAlive rs then .foundDead rs else .answered none) k with
      hsame | ⟨rfl, hnew⟩
    · exact Or.inl hsame
    · cases hdead : namesDeadProcess s.processAlive rs with
      | true =>
        rw [hdead] at hnew
        exact Or.inr (Or.inr (Or.inr ⟨rs, hj, hdead, hnew, rfl⟩))
      | false =>
        rw [hdead] at hnew
        exact Or.inr (Or.inr (Or.inl ⟨none, hnew⟩))
  | @readConfig j rs overrideSlot hj =>
    rcases asking_setAsking s j
      (.answered (staleVerdict rs (s.clientState fmt.yaml.toYamlCpp overrideSlot))) k with
      hsame | ⟨-, hnew⟩
    · exact Or.inl hsame
    · exact Or.inr (Or.inr (Or.inl ⟨_, hnew⟩))
  | _ => exact Or.inl rfl

theorem inv_step (hinv : s.Inv) (hfresh : FreshIds s a) (h : HostStep fmt s a s') : s'.Inv := by
  have hprocess : ∀ {pid id phase here}, s'.process pid = some (.daemon id phase here) →
      (id, pid) ∈ s'.booted ∧ 0 < pid ∧ pid < 2 ^ 31 := by
    intro pid id phase here hp
    rcases daemon_step h hp with ⟨phase', here', hold⟩ | ⟨rfl, hpos, hmax⟩
    · obtain ⟨hbooted, hbounds⟩ := hinv.process hold
      exact ⟨booted_mono h hbooted, hbounds⟩
    · cases h
      exact ⟨List.mem_cons_self, hpos, hmax⟩
  refine ⟨?_, hprocess, ?_, ?_, ?_⟩
  · intro id pid pid' hpid hpid'
    rcases booted_step h with heq | ⟨p, i, here, rfl, heq⟩
    · rw [heq] at hpid hpid'
      exact hinv.once hpid hpid'
    · rw [heq] at hpid hpid'
      rcases List.mem_cons.mp hpid with hnew | hold <;>
        rcases List.mem_cons.mp hpid' with hnew' | hold'
      · exact (Prod.mk.inj hnew).2.trans (Prod.mk.inj hnew').2.symm
      · rw [(Prod.mk.inj hnew).1] at hold'
        exact absurd hold' (hfresh _)
      · rw [(Prod.mk.inj hnew').1] at hold
        exact absurd hold (hfresh _)
      · exact hinv.once hold hold'
  · intro hok
    rcases stateJson_step h with heq | heq | ⟨pid, state, hrunning, rfl, heq⟩
    · have hsame : s'.published = s.published := by rw [Host.published, heq, Host.published]
      rw [hsame] at hok ⊢
      exact booted_mono h (hinv.published hok)
    · rw [Host.published, heq] at hok
      cases hok
    · obtain ⟨hbooted, hpos, hmax⟩ := hprocess hrunning
      rw [Host.published, heq] at hok ⊢
      obtain ⟨hid, hpid⟩ := identity_of_read_document "daemon/state.json"
        (le_trans (by decide) hpos.le) (le_trans hmax.le (by decide)) hok
      rw [hid, hpid]
      exact hbooted
  · intro k rs hk hok
    rcases asking_step h k with heq | heq | ⟨_, heq⟩ | ⟨_, -, -, heq, -⟩
    · exact booted_mono h (hinv.hasRead (heq.symm.trans hk) hok)
    · cases heq.symm.trans hk
      exact booted_mono h (hinv.published hok)
    · cases heq.symm.trans hk
    · cases heq.symm.trans hk
  · intro k rs hk
    rcases asking_step h k with heq | heq | ⟨_, heq⟩ | ⟨rs', hread, hdead, heq, hsame⟩
    · obtain ⟨⟨pid, hpid⟩, hgone⟩ := hinv.foundDead (heq.symm.trans hk)
      refine ⟨⟨pid, booted_mono h hpid⟩, ?_⟩
      rintro ⟨q, phase, here, hq⟩
      rcases daemon_step h hq with ⟨phase', here', hold⟩ | ⟨rfl, -⟩
      · exact hgone ⟨q, phase', here', hold⟩
      · exact hfresh pid hpid
    · cases heq.symm.trans hk
    · cases heq.symm.trans hk
    · cases heq.symm.trans hk
      simp only [namesDeadProcess, Host.processAlive, Bool.and_eq_true, decide_eq_true_eq,
        Bool.not_eq_true', Bool.and_eq_false_iff, decide_eq_false_iff_not] at hdead
      obtain ⟨⟨hok, hpos⟩, hnone⟩ := hdead
      have hbooted := hinv.hasRead hread hok
      refine ⟨⟨rs.pid, booted_mono h hbooted⟩, ?_⟩
      rintro ⟨q, phase, here, hq⟩
      rw [hsame] at hq
      -- it would be running under the process id that was just found dead
      have hpid := hinv.once (hinv.process hq).1 hbooted
      rw [hpid] at hq
      rcases hnone with hnone | hnone
      · exact hnone hpos
      · rw [hq] at hnone
        cases hnone

theorem inv_of_run {client : ClientDir} {others : Int → Bool} (h : HostRun fmt client others s) :
    s.Inv :=
  h.invariant (inv_fresh client others) fun hinv hfresh hstep => inv_step hinv hfresh hstep

end Inv

/-! ## 4. No live daemon is refused -/

section Verdict

variable {fmt : Format} {s : Host} {rs : DaemonRuntimeState} {cs : ClientState}
  {processAlive : Int → Bool} {verdict : StaleSession}

/-- A verdict is about the instance the client names. -/
theorem staleVerdict_eq_some (h : staleVerdict rs cs = some verdict) :
    cs.instanceId = rs.instanceId ∧ verdict.pid = rs.pid := by
  unfold staleVerdict at h
  split at h
  · cases h
  · next hnot =>
    cases h
    simp only [Bool.or_eq_true, bne_iff_ne, not_or, not_not] at hnot
    exact ⟨hnot.2, rfl⟩

/-- A session is refused only when the file names the same instance, and its process is gone. -/
theorem detectStaleSession_eq_some (h : detectStaleSession processAlive rs cs = some verdict) :
    (rs.fileOk = true ∧ 0 < rs.pid) ∧ processAlive rs.pid = false ∧
      cs.instanceId = rs.instanceId := by
  unfold detectStaleSession at h
  split_ifs at h with hclaim halive
  refine ⟨by simpa using hclaim, by simpa using halive, (staleVerdict_eq_some h).1⟩

/-- **A live daemon is never refused.**  On every run of the host: while the instance that the
client names lives, the question, asked in one go or in three steps with anything in between, is
answered with nothing, and the command dials.  A session is refused only when `state.json` names
the same instance and its process is gone. -/
theorem live_daemon_not_refused {client : ClientDir} {others : Int → Bool}
    (h : HostRun fmt client others s) (overrideSlot : Option ClientState) :
    (s.Lives (s.clientState fmt.yaml.toYamlCpp overrideSlot).instanceId →
      detectStaleSession s.processAlive s.published
          (s.clientState fmt.yaml.toYamlCpp overrideSlot) = none ∧
        (∀ connect, (ensureConnected false (detectStaleSession s.processAlive s.published
          (s.clientState fmt.yaml.toYamlCpp overrideSlot)) connect).dialled = true) ∧
        ∀ k s', HostStep fmt s (.readConfig k overrideSlot) s' → s'.asking k = .answered none) ∧
      ∀ verdict, detectStaleSession s.processAlive s.published
          (s.clientState fmt.yaml.toYamlCpp overrideSlot) = some verdict →
        s.published.instanceId = (s.clientState fmt.yaml.toYamlCpp overrideSlot).instanceId ∧
          s.processAlive s.published.pid = false := by
  have hinv := inv_of_run h
  refine ⟨?_, ?_⟩
  · intro hlives
    have hnone : detectStaleSession s.processAlive s.published
        (s.clientState fmt.yaml.toYamlCpp overrideSlot) = none := by
      refine Option.eq_none_iff_forall_ne_some.mpr ?_
      intro verdict hsome
      obtain ⟨⟨hok, hpos⟩, hdead, hid⟩ := detectStaleSession_eq_some hsome
      obtain ⟨pid, phase, here, hpid⟩ := hlives
      rw [hid] at hpid
      have hsame := hinv.once (hinv.process hpid).1 (hinv.published hok)
      rw [Host.processAlive, ← hsame, hpid] at hdead
      simp [(hinv.process hpid).2.1] at hdead
    refine ⟨hnone, ?_, ?_⟩
    · intro connect
      rw [hnone]
      rcases connect with _ | ⟨⟩ <;> rfl
    · intro k s' hstep
      cases hstep with
      | @readConfig _ rs _ hk =>
        have hverdict : staleVerdict rs (s.clientState fmt.yaml.toYamlCpp overrideSlot) = none := by
          refine Option.eq_none_iff_forall_ne_some.mpr ?_
          intro verdict hsome
          rw [(staleVerdict_eq_some hsome).1] at hlives
          exact (hinv.foundDead hk).2 hlives
        rw [hverdict]
        exact Function.update_self ..
  · intro verdict hsome
    obtain ⟨-, hdead, hid⟩ := detectStaleSession_eq_some hsome
    exact ⟨hid.symm, hdead⟩

end Verdict

/-- A daemon that boots, and then publishes. -/
def Host.booting (s : Host) (pid : Int) (id : String) : Host :=
  { s.setProcess pid (some (.daemon id .booting true)) with booted := (id, pid) :: s.booted }

def Host.publishing (s : Host) (pid : Int) (id : String) : Host :=
  { s.setProcess pid (some (.daemon id .serving true)) with
    stateJson := some (.obj (DaemonRuntimeStateFile.document
      (runtimeState id pid "2025-01-01T00:00:00Z" "defaults" {} localBound localBound))) }

/-- A daemon has published its state and crashed. -/
def crashed : Host :=
  (((Host.fresh ⟨.absent, none⟩ fun _ => false).booting 4711 "a81b04ff93c6").publishing 4711
    "a81b04ff93c6").setProcess 4711 none

/-- Another has just booted, and it is the one the client names. -/
def crashedThenBooted : Host :=
  { crashed.booting 4712 "0f3a9c21d7b4" with client := ⟨.text refreshedText, none⟩ }

theorem crashedThenBooted_run :
    HostRun twoTexts ⟨.absent, none⟩ (fun _ => false) crashedThenBooted := by
  have hboot : HostRun twoTexts ⟨.absent, none⟩ (fun _ => false)
      ((Host.fresh ⟨.absent, none⟩ fun _ => false).booting 4711 "a81b04ff93c6") :=
    .tail (a := .boot 4711 "a81b04ff93c6" true) .refl nofun
      (.boot true (by decide) (by decide) rfl (by decide))
  have hpublish : HostRun twoTexts ⟨.absent, none⟩ (fun _ => false) (((Host.fresh
      ⟨.absent, none⟩ fun _ => false).booting 4711 "a81b04ff93c6").publishing 4711
        "a81b04ff93c6") :=
    .tail (a := .publish 4711 true) hboot trivial (@HostStep.publish twoTexts _ 4711
      "a81b04ff93c6" true "2025-01-01T00:00:00Z" "defaults" {} localBound localBound
      (by decide +kernel))
  have hcrash : HostRun twoTexts ⟨.absent, none⟩ (fun _ => false) crashed :=
    .tail (a := .exit 4711) hpublish trivial .exit
  have hagain : HostRun twoTexts ⟨.absent, none⟩ (fun _ => false)
      (crashed.booting 4712 "0f3a9c21d7b4") := by
    refine .tail (a := .boot 4712 "0f3a9c21d7b4" true) hcrash ?_
      (.boot true (by decide) (by decide) (by decide +kernel) (by decide))
    intro pid hpid
    have hsame : "0f3a9c21d7b4" = "a81b04ff93c6" := (Prod.mk.inj (List.mem_singleton.mp hpid)).1
    exact absurd hsame (by decide)
  exact .tail (a := .edit (.text refreshedText)) hagain trivial .edit

/-- The stale file is nothing against it. -/
theorem crashedThenBooted_dials : (ensureConnected false
    (detectStaleSession crashedThenBooted.processAlive crashedThenBooted.published
      (crashedThenBooted.clientState twoTexts.yaml.toYamlCpp none)) (.ok ())).dialled = true := by
  have hstate : (crashedThenBooted.clientState twoTexts.yaml.toYamlCpp none).instanceId =
      "0f3a9c21d7b4" := by
    simp only [Host.clientState, crashedThenBooted, ClientStateFile.read, parse_refreshedText]
    decide +kernel
  have hlives : crashedThenBooted.Lives "0f3a9c21d7b4" :=
    ⟨4712, .booting, true, by decide +kernel⟩
  exact ((live_daemon_not_refused crashedThenBooted_run none).1 (hstate ▸ hlives)).2.1 (.ok ())

end Logosctl
