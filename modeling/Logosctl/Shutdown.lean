/-
# Asking a daemon to stop

`RpcClient::shutdown` asks, and when no answer comes it looks for evidence that the daemon is
gone.  With a state file of the same boot it watches the process; without one it goes on asking
the endpoint, and takes the first `getStatus` that stays unanswered for a daemon that is gone.

Watching the process is proof, whatever the network does (`truthful_of_watchable`).  A missing
answer is not: `truthful_iff` says that a report is then truthful exactly when no probe of the
loop goes missing while the daemon still runs, and `lost_probe_reports_stop` is the run of a
daemon that neither answers the shutdown nor exits, loses one reply, and is reported as stopped.
An error, on the other hand, is never early (`late_of_error`).
-/
import Logosctl.DaemonState
import Logosctl.Library.Polling

namespace Logosctl.Shutdown

open Library

/-! ## 1. The daemon, its host and the network -/

/-- What becomes of one request.  `answer` is the daemon's, if it handles the request, and after
how long it is back, if it is not lost; `gaveUp` is how long a client that gets nothing waits,
its own deadline apart. -/
structure Exchange where
  answer : Option (Json × Option ℕ)
  gaveUp : ℕ

/-- Everything a shutdown meets, over time in milliseconds: `daemon/state.json` as it is when the
client looks, the instance the client's configuration names, the process of the daemon that is
dialled and when it exits, the other processes of the client's host, the requests, and how much
longer than asked the client sleeps. -/
structure World where
  statePath : String
  stateFile : Option Json
  instanceId : String
  daemonPid : Int
  exitsAt : Option ℕ
  others : Int → ℕ → Bool
  exchange : String → ℕ → Exchange
  oversleep : ℕ → ℕ

/-! ## 2. What the client waits for, and what it reports -/

def kShutdownTimeoutMs : ℕ := 5 * 1000

def kShutdownConfirmMs : ℕ := 15 * 1000

def kShutdownProbeMs : ℕ := 1500

def kShutdownProbeGapMs : ℕ := 200

def stopped (how : String) : Json :=
  .obj [("confirmed_by", .str how), ("message", .str "Daemon shutting down."),
    ("status", .str "ok")]

def stillRunning (pid : Int) : Json :=
  .obj [("code", .str "RPC_FAILED"),
    ("message", .str (if 0 < pid then
      "shutdown RPC returned no reply and the daemon (pid " ++ toString pid ++
        ") is still running " ++ toString (kShutdownConfirmMs / 1000) ++ "s later."
      else "shutdown RPC returned no reply and the daemon is still answering " ++
        toString (kShutdownConfirmMs / 1000) ++ "s later.")),
    ("status", .str "error")]

namespace World

variable (w : World)

/-! ## 3. Processes and requests -/

/-- The daemon has exited. -/
def exited (t : ℕ) : Bool :=
  match w.exitsAt with
  | none => false
  | some e => e ≤ t

/-- Some process has this pid: the daemon while it runs, or another one. -/
def pidInUse (pid : Int) (t : ℕ) : Bool := (pid == w.daemonPid && !w.exited t) || w.others pid t

/-- `Impl::invoke`, begun at `t`: the reply, `null` when none arrives in time, and when the call
returns. -/
def invoke (method : String) (timeoutMs t : ℕ) : Json × ℕ :=
  let x := w.exchange method t
  match x.answer with
  | some (reply, some delay) =>
    if delay < timeoutMs then (reply, t + delay) else (.null, t + timeoutMs)
  | _ => (.null, t + min x.gaveUp timeoutMs)

/-! ## 4. Watching a process -/

def processAlive (pid : Int) (t : ℕ) : Bool := if pid ≤ 0 then false else w.pidInUse pid t

/-- Looking at a process, every `pollMs`. -/
def exitPoll (pid pollMs : Int) : Poll where
  yes t := !w.processAlive pid t
  answered t := t
  resume t := t + (if pollMs ≤ 0 then 1 else pollMs.toNat) + w.oversleep t
  le_answered _ := Nat.le_refl _
  lt_resume t := by split <;> omega

def waitForProcessExit (pid : Int) (timeoutMs t : ℕ) (pollMs : Int := 50) : Bool × ℕ :=
  if pid ≤ 0 then (false, t) else (w.exitPoll pid pollMs).run (t + timeoutMs) t

/-! ## 5. Asking the endpoint, and the shutdown -/

theorem le_invoke (method : String) (timeoutMs t : ℕ) : t ≤ (w.invoke method timeoutMs t).2 := by
  simp only [invoke]
  repeat' split
  all_goals exact Nat.le_add_right _ _

/-- A `getStatus` that stays unanswered. -/
def missing (t : ℕ) : Bool := !(w.invoke "getStatus" kShutdownProbeMs t).1.isObject

/-- When a probe sent at `t` is over. -/
def probed (t : ℕ) : ℕ := (w.invoke "getStatus" kShutdownProbeMs t).2

/-- Asking the endpoint. -/
def probePoll : Poll where
  yes := w.missing
  answered := w.probed
  resume t := t + kShutdownProbeGapMs + w.oversleep t
  le_answered := w.le_invoke _ _
  lt_resume t := by simp only [kShutdownProbeGapMs]; omega

/-- Whether the daemon stopped, then by what evidence, and when that is known. -/
def confirmDaemonStopped (pid : Int) (t : ℕ) : Option String × ℕ :=
  if 0 < pid then
    let (gone, t) := w.waitForProcessExit pid kShutdownConfirmMs t
    (if gone then some "process-exit" else none, t)
  else
    let (gone, t) := w.probePoll.run (t + kShutdownConfirmMs) t
    (if gone then some "endpoint-unreachable" else none, t)

/-- The daemon's state, as the client reads it before it asks. -/
def before : DaemonRuntimeState := (DaemonRuntimeStateFile.read w.statePath w.stateFile).1

/-- There is a process to watch: the state file is of the same boot as the client's
configuration, and its process is alive. -/
def watchable (t : ℕ) : Bool :=
  w.before.fileOk && decide (0 < w.before.pid) && !w.before.instanceId.isEmpty &&
    w.before.instanceId == w.instanceId && w.processAlive w.before.pid t

/-- `RpcClient::shutdown`, begun at `t`: what it reports, and when. -/
def shutdown (t : ℕ) : Json × ℕ :=
  let pid := if w.watchable t then w.before.pid else -1
  let (ret, t) := w.invoke "shutdown" kShutdownTimeoutMs t
  if ret.isObject then (ret, t)
  else
    match w.confirmDaemonStopped pid t with
    | (some how, t) => (stopped how, t)
    | (none, t) => (stillRunning pid, t)

end World

/-! ## 6. What the report is worth -/

def status (report : Json) : Option Json := report.find? "status"

namespace World

/-- The daemon handles the shutdown request that is sent at `t`. -/
def answers (w : World) (t : ℕ) : Prop := (w.exchange "shutdown" t).answer.isSome

/-- A report of success stands for an answer of the daemon or for its exit, and a daemon that
does neither is reported as an error. -/
structure Truthful (w : World) (t : ℕ) : Prop where
  ok : status (w.shutdown t).1 = some (.str "ok") →
    w.answers t ∨ w.exited (w.shutdown t).2 = true
  silent : ¬ w.answers t → w.exited (w.shutdown t).2 = false →
    status (w.shutdown t).1 = some (.str "error")

/-- The state file and the client's configuration are written by the same boot, so a state file
with the client's own instance id records the process of the daemon it dials. -/
def OneBoot (w : World) : Prop :=
  w.before.fileOk = true → w.before.instanceId = w.instanceId → w.before.pid = w.daemonPid

/-- When the shutdown request is over, and the search for evidence begins. -/
def asked (w : World) (t : ℕ) : ℕ := (w.invoke "shutdown" kShutdownTimeoutMs t).2

/-- A shutdown begun at `t` that probes the endpoint sends a probe at `s`. -/
def Probes (w : World) (t s : ℕ) : Prop :=
  w.probePoll.Asked (w.asked t + kShutdownConfirmMs) (w.asked t) s

variable {w : World} {t s : ℕ}

/-! ## 7. The two kinds of evidence -/

/-- Nothing comes back from a daemon that does not answer. -/
theorem invoke_of_not_answers (h : ¬ w.answers t) :
    (w.invoke "shutdown" kShutdownTimeoutMs t).1 = .null := by
  have hnone : (w.exchange "shutdown" t).answer = none :=
    Option.not_isSome_iff_eq_none.mp h
  simp only [invoke, hnone]

/-- Without an answer, the report is what the search for evidence comes to. -/
theorem shutdown_of_not_answers (h : ¬ w.answers t) {pid : Int}
    (hpid : (if w.watchable t then w.before.pid else -1) = pid) :
    w.shutdown t = match w.confirmDaemonStopped pid (w.asked t) with
      | (some how, t) => (stopped how, t)
      | (none, t) => (stillRunning pid, t) := by
  have hnull := invoke_of_not_answers h
  unfold shutdown
  rw [hpid]
  dsimp only
  rw [hnull]
  rfl

/-- **Watching the process is proof**: a process with the daemon's pid that is gone was the
daemon's, whatever took the pid later. -/
theorem exited_of_not_alive (hpos : 0 < w.daemonPid)
    (h : w.processAlive w.daemonPid t = false) : w.exited t = true := by
  rw [processAlive, if_neg (Int.not_le.mpr hpos), pidInUse] at h
  by_contra hrunning
  simp [Bool.eq_false_iff.mpr hrunning] at h

theorem pos_of_processAlive {pid : Int} (h : w.processAlive pid t = true) : 0 < pid := by
  rw [processAlive] at h
  split at h
  · cases h
  · omega

/-- Two of the five tests follow from the others: a state that can be used has an identity, and a
process that is alive has a pid. -/
theorem watchable_iff : w.watchable t = true ↔ w.before.fileOk = true ∧
    w.before.instanceId = w.instanceId ∧ w.processAlive w.before.pid t = true := by
  simp only [watchable, Bool.and_eq_true, decide_eq_true_eq, beq_iff_eq, Bool.not_eq_true',
    String.isEmpty_eq_false_iff]
  constructor
  · rintro ⟨⟨⟨⟨hok, -⟩, -⟩, hinstance⟩, halive⟩
    exact ⟨hok, hinstance, halive⟩
  · rintro ⟨hok, hinstance, halive⟩
    exact ⟨⟨⟨⟨hok, pos_of_processAlive halive⟩, instanceId_ne_of_fileOk hok⟩, hinstance⟩, halive⟩

/-- What watching the process comes to: it is over with the process gone, or with the process
alive and the time up. -/
theorem shutdown_of_watchable (h : ¬ w.answers t) (hwatch : w.watchable t = true) :
    (∃ s, w.shutdown t = (stopped "process-exit", s) ∧
      w.processAlive w.before.pid s = false) ∨
    ∃ s, w.shutdown t = (stillRunning w.before.pid, s) ∧ w.asked t + kShutdownConfirmMs ≤ s := by
  have hpos := pos_of_processAlive (watchable_iff.mp hwatch).2.2
  obtain ⟨s, -, hrun, hlate⟩ := Poll.exists_asked_run (w.exitPoll w.before.pid 50)
    (w.asked t + kShutdownConfirmMs) (w.asked t)
  have hshut := shutdown_of_not_answers h (if_pos hwatch)
  rw [confirmDaemonStopped, if_pos hpos, waitForProcessExit,
    if_neg (Int.not_le.mpr hpos), hrun] at hshut
  cases halive : w.processAlive w.before.pid s with
  | false => exact .inl ⟨s, by rw [hshut]; simp [exitPoll, halive], halive⟩
  | true =>
    have hno : (w.exitPoll w.before.pid 50).yes s = false := by simp [exitPoll, halive]
    exact .inr ⟨s, by rw [hshut, hno]; rfl, hlate hno⟩

/-- What probing the endpoint comes to: it is over with a probe that goes missing, or with one
that is answered and the time up. -/
theorem shutdown_of_not_watchable (h : ¬ w.answers t) (hwatch : w.watchable t = false) :
    (∃ s, w.shutdown t = (stopped "endpoint-unreachable", w.probed s) ∧ w.Probes t s ∧
      w.missing s = true) ∨
    ∃ s, w.shutdown t = (stillRunning (-1), s) ∧ w.asked t + kShutdownConfirmMs ≤ s := by
  have hshut := shutdown_of_not_answers h (if_neg (Bool.eq_false_iff.mp hwatch))
  obtain ⟨s, hprobe, hrun, hlate⟩ := Poll.exists_asked_run w.probePoll
    (w.asked t + kShutdownConfirmMs) (w.asked t)
  rw [confirmDaemonStopped, if_neg (by decide), hrun] at hshut
  cases hmissing : w.probePoll.yes s with
  | true => exact .inl ⟨s, by rw [hshut, hmissing]; rfl, hprobe, hmissing⟩
  | false => exact .inr ⟨w.probed s, by rw [hshut, hmissing]; rfl, hlate hmissing⟩

/-- **The first probe that goes missing ends the search**, with the daemon reported as
stopped. -/
theorem shutdown_of_missing (h : ¬ w.answers t) (hwatch : w.watchable t = false)
    (hprobe : w.Probes t s) (hmissing : w.missing s = true) :
    w.shutdown t = (stopped "endpoint-unreachable", w.probed s) := by
  have hshut := shutdown_of_not_answers h (if_neg (Bool.eq_false_iff.mp hwatch))
  rw [confirmDaemonStopped, if_neg (by decide), hprobe.run_of_yes hmissing] at hshut
  exact hshut

/-! ## 8. When the report is truthful -/

theorem status_stopped (how : String) : status (stopped how) = some (.str "ok") := rfl

theorem status_stillRunning (pid : Int) : status (stillRunning pid) = some (.str "error") := rfl

/-- A report that the daemon stopped is truthful once the daemon has exited. -/
theorem truthful_of_stopped {how : String} (h : w.shutdown t = (stopped how, s))
    (hexited : w.exited s = true) : w.Truthful t := by
  refine ⟨fun _ => .inr (by rw [h]; exact hexited), ?_⟩
  intro _ hrunning
  rw [h] at hrunning
  exact absurd (hexited.symm.trans hrunning) (by decide)

/-- A report that it did not is always truthful. -/
theorem truthful_of_stillRunning {pid : Int} (h : w.shutdown t = (stillRunning pid, s)) :
    w.Truthful t := by
  refine ⟨?_, fun _ _ => by rw [h]; exact status_stillRunning pid⟩
  rw [h, status_stillRunning]
  intro hok
  simp at hok

/-- **An error is not reported early**: without an answer, it takes the whole time that its
message names. -/
theorem late_of_error (h : ¬ w.answers t)
    (herror : status (w.shutdown t).1 = some (.str "error")) :
    w.asked t + kShutdownConfirmMs ≤ (w.shutdown t).2 := by
  have hends : (∃ how s, w.shutdown t = (stopped how, s)) ∨
      ∃ pid s, w.shutdown t = (stillRunning pid, s) ∧ w.asked t + kShutdownConfirmMs ≤ s := by
    cases hwatch : w.watchable t with
    | true =>
      exact (shutdown_of_watchable h hwatch).imp (fun ⟨s, hshut, _⟩ => ⟨_, s, hshut⟩)
        fun ⟨s, hshut⟩ => ⟨_, s, hshut⟩
    | false =>
      exact (shutdown_of_not_watchable h hwatch).imp (fun ⟨s, hshut, _⟩ => ⟨_, _, hshut⟩)
        fun ⟨s, hshut⟩ => ⟨_, s, hshut⟩
  rcases hends with ⟨how, s, hshut⟩ | ⟨pid, s, hshut, hlate⟩
  · rw [hshut, status_stopped] at herror
    simp at herror
  · rw [hshut]
    exact hlate

end World

section Results

variable {w : World} {t : ℕ}

/-- **With a process to watch, the report is truthful**, whatever the network loses. -/
theorem truthful_of_watchable (hboot : w.OneBoot) (hwatch : w.watchable t = true) :
    w.Truthful t := by
  by_cases hanswer : w.answers t
  · exact ⟨fun _ => .inl hanswer, fun h => absurd hanswer h⟩
  · obtain ⟨hok, hinstance, halive⟩ := World.watchable_iff.mp hwatch
    have hpos := World.pos_of_processAlive halive
    have hpid := hboot hok hinstance
    rcases World.shutdown_of_watchable hanswer hwatch with ⟨s, hshut, hdead⟩ | ⟨s, hshut, -⟩
    · rw [hpid] at hpos hdead
      exact World.truthful_of_stopped hshut (World.exited_of_not_alive hpos hdead)
    · exact World.truthful_of_stillRunning hshut

/-- **When a shutdown's report is truthful**: exactly when the daemon answered, or its process can
be watched, or no probe of the loop goes missing before the daemon has exited. -/
theorem truthful_iff (w : World) (t : ℕ) (hboot : w.OneBoot) :
    w.Truthful t ↔ w.answers t ∨ w.watchable t = true ∨
      ∀ s, w.Probes t s → w.missing s = true → w.exited (w.probed s) = true := by
  constructor
  · intro htruth
    by_cases hanswer : w.answers t
    · exact .inl hanswer
    cases hwatch : w.watchable t with
    | true => exact .inr (.inl rfl)
    | false =>
      refine .inr (.inr fun s hprobe hmissing => ?_)
      have hshut := World.shutdown_of_missing hanswer hwatch hprobe hmissing
      have hok := htruth.ok
      rw [hshut] at hok
      exact (hok (World.status_stopped _)).resolve_left hanswer
  · rintro (hanswer | hwatch | hprobes)
    · exact ⟨fun _ => .inl hanswer, fun h => absurd hanswer h⟩
    · exact truthful_of_watchable hboot hwatch
    · by_cases hanswer : w.answers t
      · exact ⟨fun _ => .inl hanswer, fun h => absurd hanswer h⟩
      cases hwatch : w.watchable t with
      | true => exact truthful_of_watchable hboot hwatch
      | false =>
        rcases World.shutdown_of_not_watchable hanswer hwatch with
          ⟨s, hshut, hprobe, hmissing⟩ | ⟨s, hshut, -⟩
        · exact World.truthful_of_stopped hshut (hprobes s hprobe hmissing)
        · exact World.truthful_of_stillRunning hshut

/-- A daemon that neither handles the shutdown nor exits, seen without a state file.  It answers
every other request at once, but the answer to the first `getStatus` is lost. -/
def deaf : World where
  statePath := "daemon/state.json"
  stateFile := none
  instanceId := ""
  daemonPid := 4242
  exitsAt := none
  others _ _ := false
  exchange method t :=
    if method = "shutdown" then ⟨none, 5000⟩
    else ⟨some (.obj [], if t = 5000 then none else some 5), 5000⟩
  oversleep _ := 0

/-- **One lost reply makes a running daemon a stopped one.** -/
theorem lost_probe_reports_stop :
    deaf.OneBoot ∧ ¬ deaf.answers 0 ∧ (∀ t, deaf.exited t = false) ∧
      deaf.shutdown 0 = (stopped "endpoint-unreachable", 6500) ∧ ¬ deaf.Truthful 0 := by
  have hanswer : ¬ deaf.answers 0 := Bool.false_ne_true
  have hprobe : deaf.Probes 0 5000 := .first
  have hshut : deaf.shutdown 0 = (stopped "endpoint-unreachable", 6500) :=
    World.shutdown_of_missing hanswer rfl hprobe rfl
  refine ⟨fun h => absurd h Bool.false_ne_true, hanswer, fun _ => rfl, hshut, fun htruth => ?_⟩
  have hok := htruth.ok
  rw [hshut] at hok
  rcases hok (World.status_stopped _) with h | h
  · exact hanswer h
  · exact Bool.false_ne_true h

/-- The same daemon beside its state file; it never answers, and dies four seconds after the
client has given up on an answer. -/
def resident : World where
  statePath := "daemon/state.json"
  stateFile := some (.obj [("instance_id", .str "0f1e2d3c4b5a"), ("pid", .int 4242),
    ("version", .int 2)])
  instanceId := "0f1e2d3c4b5a"
  daemonPid := 4242
  exitsAt := some 9000
  others _ _ := false
  exchange _ _ := ⟨none, 5000⟩
  oversleep _ := 0

theorem resident_exit_confirmed :
    resident.OneBoot ∧ ¬ resident.answers 0 ∧ resident.watchable 0 = true ∧
      resident.Truthful 0 := by
  have hboot : resident.OneBoot := fun _ _ => by decide +kernel
  have hwatch : resident.watchable 0 = true := by decide +kernel
  exact ⟨hboot, Bool.false_ne_true, hwatch,
    (truthful_iff resident 0 hboot).mpr (.inr (.inl hwatch))⟩

end Results

end Logosctl.Shutdown
