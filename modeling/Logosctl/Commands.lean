/-
# The commands that ask the daemon one thing

Loading, unloading and reloading a module, showing one, listing them, their statistics and the
status of the daemon: each command parses its arguments, sees to its connection, makes one call over
the wire, and turns what comes back into a report and an exit code.  A call can be lost on the way,
and its answer can.

For a script the exit code and the one document on stdout are all there is.  Zero is only ever
reported for a call that arrived, was carried out once and was answered, and what an unsuccessful
command leaves undone or done is one call at most (`carried_out`).  In JSON mode each command prints
one document, an error exactly when the exit code is not zero (`one_document`).  For the commands
that change something the exit code is worked out to the end, through the dispatcher and the runtime
(`lifecycle_exit`), and for `status` it is what the document says of the daemon (`status_exit`).
-/
import Logosctl.CoreService.Dispatch
import Logosctl.CoreService.Queries
import Logosctl.CoreService.Unloading
import Logosctl.DaemonConfig.Write
import Logosctl.PackageCommand
import Logosctl.StaleSession

namespace Logosctl.Commands

open Library YamlJson CoreService

/-! ## 1. Printing -/

/-- What is printed: a JSON document on a line of stdout, another line of stdout, a question there
that leaves the line open, or a line of stderr. -/
inductive Printed
  | document (j : Json)
  | out (line : String)
  | question (text : String)
  | err (line : String)

/-- What a loop over the members of an object visits. -/
def members : Json → List (String × Json)
  | .obj kvs => kvs
  | _ => []

/-- `Output::printError`: every member of `extra` goes over what is said already. -/
def printError (jsonMode : Bool) (code message : String) (extra : Json := .obj []) :
    List Printed :=
  if jsonMode then
    [.document (.obj ((members extra).foldl (fun obj kv => assign kv.1 kv.2 obj)
      [("code", .str code), ("message", .str message), ("status", .str "error")]))]
  else [.err ("Error: " ++ message)]

/-- `formatVersion`. -/
def formatVersion (version : String) : String := if version.isEmpty then "-" else "v" ++ version

/-- The layouts for a person of what is not printed as JSON. -/
structure Layouts where
  moduleList : Json → List String
  moduleInfo : Json → List String
  stats : Json → List String
  status : Json → List String

/-- A report: as a document, or laid out. -/
def report (jsonMode : Bool) (layout : Json → List String) (j : Json) : List Printed :=
  if jsonMode then [.document j] else (layout j).map .out

/-- What a range-for visits: null has nothing, an array its elements, an object the values of its
members; any other value is one thing. -/
def items : Json → List Json
  | .null => []
  | .arr xs => xs
  | .obj kvs => kvs.map Prod.snd
  | j => [j]

/-- `Output::printReload`. -/
def printReload (jsonMode : Bool) (result : Json) : Except TypeError (List Printed) :=
  if jsonMode then .ok [.document result]
  else do
    let status ← result.valueStr "status"
    let module ← result.valueStr "module"
    if status = "loaded" ∨ status = "ok" then
      let version ← result.valueStr "version"
      let pid ← result.value Json.getInt64 "pid" 0
      return [.out ("Module \"" ++ module ++ "\" reloaded successfully (" ++
        formatVersion version ++ ", pid " ++ toString pid ++ ")")]
    else if status = "error" then
      let error ← result.valueStr "error"
      if result.contains "last_log_line" then
        let last ← result.valueStr "last_log_line"
        return [.err ("Error: " ++ error), .err ("  Last log: \"" ++ last ++ "\"")]
      else return [.err ("Error: " ++ error)]
    else return []

/-! ## 2. The client's side of a call -/

/-- What becomes of a call: it does not arrive, or its answer does not, or both do. -/
inductive Fate
  | lost
  | unanswered
  | answered
  deriving DecidableEq

/-- What a command meets: whether the session has a readable configuration, the verdict on it, what
dialling gives, the instance that the configuration names, the version of the client, whether it
prints JSON and how it lays out a report otherwise, and what becomes of its call. -/
structure Client where
  configured : Bool
  stale : Option StaleSession
  connect : Except String Unit
  instanceId : String
  version : String
  jsonMode : Bool
  layouts : Layouts
  fate : Fate

/-- `ensureConnected`, of a client that has just been made. -/
def Client.connecting (c : Client) : Connecting := ensureConnected false c.stale c.connect

section Calls

variable {σ : Type} (svc : Service σ) (c : Client)

/-- `RpcClient::Impl::invoke`: the answer is null when none comes. -/
def invoke (method : String) (args : List Json) (s : σ) : Json × σ :=
  match c.fate with
  | .lost => (.null, s)
  | .unanswered => (.null, (callMethodStd svc method (.arr args) s).2)
  | .answered => callMethodStd svc method (.arr args) s

/-- The answer of a call that brings back no object. -/
def rpcFailed (call : String) : Json :=
  .obj [("code", .str "RPC_FAILED"), ("message", .str (call ++ " RPC call failed.")),
    ("status", .str "error")]

def objectOr (failed : Json) (ret : Json) : Json := if ret.isObject then ret else failed

/-- `RpcClient::loadModule`. -/
def loadModule (name : String) (s : σ) : Json × σ :=
  let (ret, s) := invoke svc c "loadModule" [.str name] s
  (objectOr (rpcFailed ("loadModule('" ++ name ++ "')")) ret, s)

/-- `RpcClient::unloadModule`. -/
def unloadModule (name : String) (withDependents : Bool) (s : σ) : Json × σ :=
  let (ret, s) := invoke svc c "unloadModule" [.str name, .bool withDependents] s
  (objectOr (rpcFailed ("unloadModule('" ++ name ++ "')")) ret, s)

/-- `RpcClient::reloadModule`. -/
def reloadModule (name : String) (s : σ) : Json × σ :=
  let (ret, s) := invoke svc c "reloadModule" [.str name] s
  (objectOr (rpcFailed ("reloadModule('" ++ name ++ "')")) ret, s)

/-- `RpcClient::getModuleInfo`. -/
def getModuleInfo (name : String) (s : σ) : Json × σ :=
  let (ret, s) := invoke svc c "getModuleInfo" [.str name] s
  (objectOr (rpcFailed ("getModuleInfo('" ++ name ++ "')")) ret, s)

/-- `RpcClient::listModules`: nothing is not an empty list. -/
def listModules (filter : String) (s : σ) : Option Json × σ :=
  let (ret, s) := invoke svc c "listModules" [.str filter] s
  (if ret.isArray then some ret else none, s)

/-- `RpcClient::getModuleStats`. -/
def getModuleStats (s : σ) : Option Json × σ :=
  let (ret, s) := invoke svc c "getModuleStats" [] s
  (if ret.isArray then some ret else none, s)

/-- The report that `RpcClient::getStatus` makes up when none comes. -/
def unreachable : Json :=
  .obj [("daemon", .obj ((if c.instanceId.isEmpty then []
      else [("instance_id", .str c.instanceId)]) ++
      [("status", .str "not_running"), ("version", .str c.version)])),
    ("modules", .arr []), ("rpc_error", .str "core_service not reachable")]

/-- `RpcClient::getStatus`. -/
def getStatus (s : σ) : Json × σ :=
  let (ret, s) := invoke svc c "getStatus" [] s
  (objectOr (unreachable c) ret, s)

end Calls

/-! ## 3. The commands -/

/-- How a command ends: its exit code and what it has printed, or an exception that nothing
catches; and what the daemon is then. -/
abbrev Ended (σ : Type) := Except TypeError (Nat × List Printed) × σ

section Execute

variable {σ : Type} (svc : Service σ) (c : Client)

/-- Arguments that cannot be parsed. -/
def invalidArgs (usage : String) (s : σ) : Ended σ :=
  (.ok (1, printError c.jsonMode "INVALID_ARGS" usage), s)

/-- A command goes on once it is connected. -/
def connected (s : σ) (run : Ended σ) : Ended σ :=
  match c.connecting.error with
  | some (code, message) => (.ok (c.connecting.exitCode, printError c.jsonMode code message), s)
  | none => run

/-- What a command does with an answer: an error is reported with all that it says. -/
def reportAnswer (result : Json) (success : Except TypeError (List Printed)) :
    Except TypeError (Nat × List Printed) := do
  let status ← result.valueStr "status"
  if status = "error" then
    let code ← result.valueStr "code"
    let message ← result.valueStr "message"
    return (3, printError c.jsonMode code message result)
  else return (0, ← success)

/-- What a load prints when it went well. -/
def printLoaded (name : String) (result : Json) : Except TypeError (List Printed) := do
  if c.jsonMode then return [.document result]
  let version ← result.valueStr "version"
  let deps ← result.value Json.getJson "dependencies_loaded" (.arr [])
  let depNames ← (items deps).mapM Json.getString
  return .out ("Loaded module: " ++ name ++ " (v" ++ version ++ ")") ::
    if depNames.isEmpty then []
    else [.out ("  Dependencies loaded: " ++ ", ".intercalate depNames)]

/-- `LoadModuleCommand::execute`, of the name that was parsed. -/
def LoadModuleCommand (parsed : Option String) (s : σ) : Ended σ :=
  match parsed with
  | none => invalidArgs c "Usage: logosctl module load <name>" s
  | some name => connected c s <|
    let (result, s) := loadModule svc c name s
    (reportAnswer c result (printLoaded c name result), s)

/-- What an unload prints when it went well. -/
def printUnloaded (name : String) (result : Json) : Except TypeError (List Printed) := do
  if c.jsonMode then return [.document result]
  let dependents ← result.value Json.getJson "dependents_unloaded" (.arr [])
  let names ← dependents.elems.mapM Json.getString
  return .out ("Unloaded module: " ++ name) ::
    if names.isEmpty then []
    else [.out ("Also unloaded " ++ toString names.length ++ " dependent(s): " ++
      ", ".intercalate names)]

/-- `UnloadModuleCommand::execute`, of the name and the flag `--no-dependents`. -/
def UnloadModuleCommand (parsed : Option (String × Bool)) (s : σ) : Ended σ :=
  match parsed with
  | none => invalidArgs c "Usage: logosctl module unload <name> [--no-dependents]" s
  | some (name, noDependents) => connected c s <|
    let (result, s) := unloadModule svc c name (!noDependents) s
    (reportAnswer c result (printUnloaded c name result), s)

/-- What a reload says before it asks. -/
def announced (name : String) : List Printed :=
  if c.jsonMode then [] else [.err ("Reloading " ++ name ++ "...")]

/-- `ReloadModuleCommand::execute`. -/
def ReloadModuleCommand (parsed : Option String) (s : σ) : Ended σ :=
  match parsed with
  | none => invalidArgs c "Usage: logosctl module reload <name>" s
  | some name => connected c s <|
    let (result, s) := reloadModule svc c name s
    ((reportAnswer c result (printReload c.jsonMode result)).map
      (fun r => (r.1, announced c name ++ r.2)), s)

/-- `ModuleInfoCommand::execute`. -/
def ModuleInfoCommand (parsed : Option String) (s : σ) : Ended σ :=
  match parsed with
  | none => invalidArgs c "Usage: logosctl module show <name>" s
  | some name => connected c s <|
    let (info, s) := getModuleInfo svc c name s
    (reportAnswer c info (.ok (report c.jsonMode c.layouts.moduleInfo info)), s)

/-- What is said when no list comes. -/
def reportList (unknown : String) (layout : Json → List String) (list : Option Json) :
    Nat × List Printed :=
  match list with
  | none => (2, printError c.jsonMode "DAEMON_UNREACHABLE" ("The daemon did not answer, so " ++
      unknown ++ " unknown (this is not an empty list)."))
  | some list => (0, report c.jsonMode layout list)

/-- `ListModulesCommand::execute`, of the flag `--loaded`. -/
def ListModulesCommand (parsed : Option Bool) (s : σ) : Ended σ :=
  match parsed with
  | none => invalidArgs c "Usage: logosctl module ls [--loaded]" s
  | some loadedOnly => connected c s <|
    let (modules, s) := listModules svc c (if loadedOnly then "loaded" else "all") s
    (.ok (reportList c "the module list is" c.layouts.moduleList modules), s)

/-- `StatsCommand::execute`. -/
def StatsCommand (parsed : Bool) (s : σ) : Ended σ :=
  if parsed then connected c s <|
    let (stats, s) := getModuleStats svc c s
    (.ok (reportList c "module stats are" c.layouts.stats stats), s)
  else invalidArgs c "Usage: logosctl stats" s

/-- A status report on a daemon that is not there. -/
def absentDaemon (daemon : List (String × Json)) : Nat × List Printed :=
  (1, report c.jsonMode c.layouts.status (.obj [("daemon", .obj daemon)]))

/-- What `status` makes of an answer. -/
def reportStatus (status : Json) : Except TypeError (Nat × List Printed) := do
  let s ← status.valueStr "status"
  if s = "error" then
    let code ← status.valueStr "code"
    let message ← status.valueStr "message"
    return (1, printError c.jsonMode code message)
  else if !status.contains "daemon" then
    return absentDaemon c [("status", .str "not_running")]
  else
    return (if status.contains "rpc_error" then 1 else 0,
      report c.jsonMode c.layouts.status status)

/-- `StatusCommand::execute`: that there is no daemon is an answer here, and no error. -/
def StatusCommand (s : σ) : Ended σ :=
  if !c.configured then (.ok (absentDaemon c [("status", .str "not_configured")]), s)
  else
    match c.stale, c.connect with
    | some stale, _ => (.ok (absentDaemon c [("pid", .int stale.pid), ("reason", .str stale.reason),
        ("status", .str "not_running")]), s)
    | none, .error lastError => (.ok (absentDaemon c [("reason", .str lastError),
        ("status", .str "not_running")]), s)
    | none, .ok () =>
      let (status, s) := getStatus svc c s
      (reportStatus c status, s)

/-- The commands, each with what its arguments are parsed to, if they can be. -/
inductive Command
  | load (parsed : Option String)
  | unload (parsed : Option (String × Bool))
  | reload (parsed : Option String)
  | info (parsed : Option String)
  | list (parsed : Option Bool)
  | stats (parsed : Bool)
  | status

/-- `Command::execute`. -/
def execute : Command → σ → Ended σ
  | .load parsed => LoadModuleCommand svc c parsed
  | .unload parsed => UnloadModuleCommand svc c parsed
  | .reload parsed => ReloadModuleCommand svc c parsed
  | .info parsed => ModuleInfoCommand svc c parsed
  | .list parsed => ListModulesCommand svc c parsed
  | .stats parsed => StatsCommand svc c parsed
  | .status => StatusCommand svc c

end Execute

/-! ## 4. What a command asks for, and whether it was carried out -/

/-- The one call that a command makes, once its arguments are parsed. -/
def Command.request : Command → Option Request
  | .load parsed => parsed.map .loadModule
  | .unload parsed => parsed.map fun (name, noDependents) => .unloadModule name (!noDependents)
  | .reload parsed => parsed.map .reloadModule
  | .info parsed => parsed.map .getModuleInfo
  | .list parsed => parsed.map fun loadedOnly =>
    .listModules (if loadedOnly then "loaded" else "all")
  | .stats parsed => if parsed then some .getModuleStats else none
  | .status => some .getStatus

section CarriedOut

variable {σ : Type} {svc : Service σ} {c : Client} {s s' : σ} {r : Request}

/-- What the service answers a request, and is then. -/
def answer (svc : Service σ) (r : Request) (s : σ) : Json × σ := settled ((perform svc r).exec s)

/-- The wire carries a request to the business method, or it does not. -/
theorem invoke_request (r : Request) : invoke svc c r.method r.args s =
    match c.fate with
    | .lost => (.null, s)
    | .unanswered => (.null, (answer svc r s).2)
    | .answered => answer svc r s := by
  have hcall : callMethodStd svc r.method (.arr r.args) s = answer svc r s := by
    rw [callMethodStd, callMethod_of_asks (asks_request r), answer]
  unfold invoke
  rw [hcall]

/-- What the wire leaves of an answer that is an object. -/
theorem got_of_answer {j : Json} (call : String) (h : answer svc r s = (j, s'))
    (hobj : j.isObject = true) :
    (objectOr (rpcFailed call) (invoke svc c r.method r.args s).1,
      (invoke svc c r.method r.args s).2) =
    match c.fate with
    | .lost => (rpcFailed call, s)
    | .unanswered => (rpcFailed call, s')
    | .answered => (j, s') := by
  rw [invoke_request, h]
  cases c.fate with
  | lost => rfl
  | unanswered => rfl
  | answered => simp [objectOr, hobj]

/-- What a command for a request may do: it has it carried out once at most, and its exit code is
zero only when that was done and answered; in JSON mode it prints the answer. -/
structure Honest (svc : Service σ) (c : Client) (r : Request) (s : σ) (ended : Ended σ) : Prop where
  atMostOnce : ended.2 = s ∨ ended.2 = (answer svc r s).2
  carriedOut : ∀ printed, ended.1 = .ok (0, printed) →
    c.connecting.exitCode = 0 ∧ c.fate = .answered ∧ ended.2 = (answer svc r s).2 ∧
      (c.jsonMode = true → printed = [.document (answer svc r s).1])

theorem invoke_atMostOnce (r : Request) : (invoke svc c r.method r.args s).2 = s ∨
    (invoke svc c r.method r.args s).2 = (answer svc r s).2 := by
  rw [invoke_request]
  cases c.fate with
  | lost => exact Or.inl rfl
  | unanswered | answered => exact Or.inr rfl

/-- What is not null has been answered. -/
theorem answered_of_invoke (r : Request) (h : (invoke svc c r.method r.args s).1 ≠ .null) :
    c.fate = .answered ∧ invoke svc c r.method r.args s = answer svc r s := by
  rw [invoke_request] at h ⊢
  cases hfate : c.fate with
  | lost | unanswered => simp [hfate] at h
  | answered => exact ⟨rfl, rfl⟩

/-- Before the call nothing is done, and nothing is reported as done. -/
theorem honest_before {code : Nat} {printed : List Printed} (hcode : code ≠ 0) :
    Honest svc c r s (.ok (code, printed), s) where
  atMostOnce := Or.inl rfl
  carriedOut printed' h := by
    simp only [Except.ok.injEq, Prod.mk.injEq] at h
    exact absurd h.1 hcode

theorem exitCode_of_error {code message : String} (h : c.connecting.error = some (code, message)) :
    c.connecting.exitCode ≠ 0 := by
  unfold Client.connecting ensureConnected at h ⊢
  cases hstale : c.stale with
  | some stale => simp
  | none =>
    cases hconnect : c.connect with
    | error e => simp
    | ok u => simp [hstale, hconnect] at h

theorem exitCode_of_no_error (h : c.connecting.error = none) : c.connecting.exitCode = 0 := by
  unfold Client.connecting ensureConnected at h ⊢
  cases hstale : c.stale with
  | some stale => simp [hstale] at h
  | none =>
    cases hconnect : c.connect with
    | error e => simp [hstale, hconnect] at h
    | ok u => simp

theorem honest_connected {run : Ended σ}
    (h : c.connecting.exitCode = 0 → Honest svc c r s run) :
    Honest svc c r s (connected c s run) := by
  unfold connected
  split
  · next code message herror => exact honest_before (exitCode_of_error herror)
  · next herror => exact h (exitCode_of_no_error herror)

/-- A report of success is one of an object without the status `error`. -/
theorem status_of_report {result : Json} {success : Except TypeError (List Printed)}
    {printed : List Printed} (h : reportAnswer c result success = .ok (0, printed)) :
    (∃ st, result.valueStr "status" = .ok st ∧ st ≠ "error") ∧ success = .ok printed := by
  obtain ⟨st, hst, h⟩ := except_bind_eq_ok.mp h
  split at h
  · obtain ⟨code, -, h⟩ := except_bind_eq_ok.mp h
    obtain ⟨message, -, h⟩ := except_bind_eq_ok.mp h
    cases h
  · next hne =>
    obtain ⟨printed', hsuccess, h⟩ := except_bind_eq_ok.mp h
    cases h
    exact ⟨⟨st, hst, hne⟩, hsuccess⟩

/-- An object that was not made up here is the answer to the call. -/
theorem answered_of_objectOr {call st : String} {r : Request}
    (hst : (objectOr (rpcFailed call) (invoke svc c r.method r.args s).1).valueStr "status" =
      .ok st)
    (hne : st ≠ "error") :
    c.fate = .answered ∧ invoke svc c r.method r.args s = answer svc r s ∧
      objectOr (rpcFailed call) (invoke svc c r.method r.args s).1 = (answer svc r s).1 := by
  unfold objectOr at hst ⊢
  split at hst
  · next hobj =>
    have hnull : (invoke svc c r.method r.args s).1 ≠ .null := by
      intro heq
      rw [heq] at hobj
      cases hobj
    obtain ⟨hfate, heq⟩ := answered_of_invoke r hnull
    rw [if_pos hobj]
    exact ⟨hfate, heq, congrArg Prod.fst heq⟩
  · cases hst
    exact absurd rfl hne

/-- A command that reports an object is honest, if what it prints of a success is that object. -/
theorem honest_report {call : String} {success : Json → Except TypeError (List Printed)}
    (hconn : c.connecting.exitCode = 0)
    (hsuccess : c.jsonMode = true → ∀ j, success j = .ok [.document j]) :
    Honest svc c r s (reportAnswer c (objectOr (rpcFailed call) (invoke svc c r.method r.args s).1)
      (success (objectOr (rpcFailed call) (invoke svc c r.method r.args s).1)),
        (invoke svc c r.method r.args s).2) where
  atMostOnce := invoke_atMostOnce r
  carriedOut printed h := by
    obtain ⟨⟨st, hst, hne⟩, hshown⟩ := status_of_report h
    obtain ⟨hfate, heq, hanswer⟩ := answered_of_objectOr hst hne
    refine ⟨hconn, hfate, congrArg Prod.snd heq, fun hjson => ?_⟩
    rw [hsuccess hjson, hanswer] at hshown
    exact (Except.ok.inj hshown).symm

/-- What has been said before is nothing in JSON mode. -/
theorem Honest.after {ended : Ended σ} {before : List Printed} (h : Honest svc c r s ended)
    (hbefore : c.jsonMode = true → before = []) :
    Honest svc c r s (ended.1.map (fun x => (x.1, before ++ x.2)), ended.2) where
  atMostOnce := h.atMostOnce
  carriedOut printed heq := by
    obtain ⟨⟨code, shown⟩, hended, heq⟩ := except_map_eq_ok.mp heq
    obtain ⟨rfl, rfl⟩ := Prod.mk.inj heq
    obtain ⟨hconn, hfate, hstate, hshown⟩ := h.carriedOut shown hended
    refine ⟨hconn, hfate, hstate, fun hjson => ?_⟩
    rw [hbefore hjson, List.nil_append, hshown hjson]

/-- So is one that reports a list. -/
theorem honest_list {unknown : String} {layout : Json → List String}
    (hconn : c.connecting.exitCode = 0) :
    Honest svc c r s (.ok (reportList c unknown layout
      (if (invoke svc c r.method r.args s).1.isArray then some (invoke svc c r.method r.args s).1
        else none)), (invoke svc c r.method r.args s).2) where
  atMostOnce := invoke_atMostOnce r
  carriedOut printed h := by
    split at h
    · next harr =>
      have hnull : (invoke svc c r.method r.args s).1 ≠ .null := by
        intro heq
        rw [heq] at harr
        cases harr
      obtain ⟨hfate, heq⟩ := answered_of_invoke r hnull
      cases h
      refine ⟨hconn, hfate, congrArg Prod.snd heq, fun hjson => ?_⟩
      rw [report, if_pos hjson, heq]
    · cases h

/-- A status report that exits with zero has come from the daemon. -/
theorem honest_status : Honest svc c .getStatus s (StatusCommand svc c s) := by
  unfold StatusCommand
  split
  · exact honest_before one_ne_zero
  · split
    · exact honest_before one_ne_zero
    · exact honest_before one_ne_zero
    · next hstale hconnect =>
      refine ⟨invoke_atMostOnce .getStatus, fun printed h => ?_⟩
      obtain ⟨st, hst, h⟩ := except_bind_eq_ok.mp h
      split at h
      · obtain ⟨code, -, h⟩ := except_bind_eq_ok.mp h
        obtain ⟨message, -, h⟩ := except_bind_eq_ok.mp h
        cases h
      · split at h
        · cases h
        · simp only [pure, Except.pure, Except.ok.injEq, Prod.mk.injEq] at h
          obtain ⟨hcode, rfl⟩ := h
          have hno : (getStatus svc c s).1.contains "rpc_error" = false := by
            by_contra hrpc
            rw [Bool.not_eq_false] at hrpc
            simp [hrpc] at hcode
          have hconn : c.connecting.exitCode = 0 := by
            simp [Client.connecting, ensureConnected, hstale, hconnect]
          by_cases hobj : (invoke svc c "getStatus" [] s).1.isObject = true
          · have hstatus : getStatus svc c s = invoke svc c "getStatus" [] s :=
              Prod.ext (if_pos hobj) rfl
            have hnull : (invoke svc c "getStatus" [] s).1 ≠ .null := by
              intro heq
              rw [heq] at hobj
              cases hobj
            obtain ⟨hfate, heq⟩ := answered_of_invoke .getStatus hnull
            rw [hstatus]
            refine ⟨hconn, hfate, congrArg Prod.snd heq, fun hjson => ?_⟩
            rw [report, if_pos hjson]
            exact congrArg (fun x => [Printed.document x.1]) heq
          · have hstatus : (getStatus svc c s).1 = unreachable c := if_neg hobj
            rw [hstatus] at hno
            simp [unreachable, Json.contains, Json.find?, List.lookup_cons] at hno

/-- **Zero means done.**  Whatever becomes of its call, a command has it carried out once at most.
It exits with zero only if it was connected, the call was carried out, and the answer came back; in
JSON mode it prints that answer. -/
theorem carried_out (svc : Service σ) (c : Client) (command : Command) (s : σ) :
    match command.request with
    | none => (execute svc c command s).2 = s ∧
        ∀ printed, (execute svc c command s).1 ≠ .ok (0, printed)
    | some r => Honest svc c r s (execute svc c command s) := by
  cases command with
  | load parsed =>
    cases parsed with
    | none => exact ⟨rfl, fun printed => by simp [execute, LoadModuleCommand, invalidArgs]⟩
    | some name =>
      refine honest_connected fun hconn => honest_report (r := .loadModule name) hconn ?_
      exact fun hjson j => by rw [printLoaded, if_pos hjson]; rfl
  | unload parsed =>
    cases parsed with
    | none => exact ⟨rfl, fun printed => by simp [execute, UnloadModuleCommand, invalidArgs]⟩
    | some parsed =>
      obtain ⟨name, noDependents⟩ := parsed
      refine honest_connected fun hconn =>
        honest_report (r := .unloadModule name !noDependents) hconn ?_
      exact fun hjson j => by rw [printUnloaded, if_pos hjson]; rfl
  | reload parsed =>
    cases parsed with
    | none => exact ⟨rfl, fun printed => by simp [execute, ReloadModuleCommand, invalidArgs]⟩
    | some name =>
      refine honest_connected fun hconn => ?_
      have h : Honest svc c (.reloadModule name) s
          (reportAnswer c (reloadModule svc c name s).1
            (printReload c.jsonMode (reloadModule svc c name s).1),
              (reloadModule svc c name s).2) :=
        honest_report (r := .reloadModule name) hconn fun hjson j => by
          rw [printReload, if_pos hjson]
      exact h.after fun hjson => if_pos hjson
  | info parsed =>
    cases parsed with
    | none => exact ⟨rfl, fun printed => by simp [execute, ModuleInfoCommand, invalidArgs]⟩
    | some name =>
      refine honest_connected fun hconn => @honest_report _ _ _ _ (.getModuleInfo name) _
        (fun j => .ok (report c.jsonMode c.layouts.moduleInfo j)) hconn fun hjson j => ?_
      rw [report, if_pos hjson]
  | list parsed =>
    cases parsed with
    | none => exact ⟨rfl, fun printed => by simp [execute, ListModulesCommand, invalidArgs]⟩
    | some loadedOnly => exact honest_connected fun hconn => honest_list hconn
  | stats parsed =>
    cases parsed with
    | false => exact ⟨rfl, fun printed => by simp [execute, StatsCommand, invalidArgs]⟩
    | true => exact honest_connected fun hconn => honest_list hconn
  | status => exact honest_status

end CarriedOut

/-! ## 5. One document, and whether it is an error -/

section Documents

variable {σ : Type} {svc : Service σ} {c : Client} {s : σ} {r : Request} {code : Nat}
  {printed : List Printed}

/-- What the service answers has each key once, as every JSON object has. -/
def KeysOnce (svc : Service σ) : Prop :=
  ∀ r s, ((members (answer svc r s).1).map Prod.fst).Nodup

/-- What is printed is one document, and it is an error exactly when the exit code is not zero. -/
def Tells (x : Except TypeError (Nat × List Printed)) : Prop :=
  ∀ code printed, x = .ok (code, printed) →
    ∃ d, printed = [.document d] ∧ (code ≠ 0 ↔ d.textOf "status" = "error")

/-- Members put over others: each is found, and the others where there is none. -/
theorem lookup_foldl_assign {kvs obj : List (String × Json)} {key : String}
    (h : (kvs.map Prod.fst).Nodup) :
    (kvs.foldl (fun obj kv => assign kv.1 kv.2 obj) obj).lookup key =
      (kvs.lookup key).or (obj.lookup key) := by
  induction kvs generalizing obj with
  | nil => rfl
  | cons kv kvs ih =>
    obtain ⟨hnot, hnodup⟩ := List.nodup_cons.mp h
    rw [List.foldl_cons, ih hnodup, lookup_assign, lookup_cons]
    split
    · next heq =>
      have hnone : kvs.lookup key = none := by
        rw [List.lookup_eq_none_iff]
        intro kv' hkv'
        rw [bne_iff_ne]
        rintro rfl
        exact hnot (heq ▸ List.mem_map_of_mem hkv')
      rw [hnone]
      rfl
    · rfl

theorem tells_printError {message : String} {code : Nat} {errorCode : String} (hcode : code ≠ 0)
    (hjson : c.jsonMode = true) :
    Tells (.ok (code, printError c.jsonMode errorCode message)) := by
  intro code' printed h
  obtain ⟨rfl, rfl⟩ := Prod.mk.inj (Except.ok.inj h)
  rw [printError, if_pos hjson]
  exact ⟨_, rfl, by simp [hcode, members, Json.textOf, Json.find?, List.lookup_cons]⟩

theorem tells_connected {run : Ended σ} (hjson : c.jsonMode = true) (h : Tells run.1) :
    Tells (connected c s run).1 := by
  unfold connected
  split
  · next herror => exact tells_printError (exitCode_of_error herror) hjson
  · exact h

theorem textOf_of_valueStr {j : Json} {key st : String} (h : j.valueStr key = .ok st) :
    j.textOf key = st := by
  cases j with
  | obj kvs =>
    simp only [Json.valueStr, Json.value] at h
    simp only [Json.textOf, Json.find?]
    cases hkey : kvs.lookup key with
    | none =>
      rw [hkey] at h
      cases h
      rfl
    | some v =>
      rw [hkey] at h
      cases v with
      | str s =>
        cases h
        rfl
      | null | bool | int | float | arr | obj => cases h
  | null | bool | int | float | str | arr => cases h

/-- A text that is found is there. -/
theorem lookup_of_textOf {j : Json} {key st : String} (h : j.textOf key = st) (hne : st ≠ "") :
    (members j).lookup key = some (.str st) := by
  unfold Json.textOf at h
  split at h
  · next s hfind =>
    subst h
    cases j with
    | obj kvs => exact hfind
    | null | bool | int | float | str | arr => cases hfind
  · exact absurd h.symm hne

theorem tells_report {result : Json} {success : Except TypeError (List Printed)}
    (hjson : c.jsonMode = true) (hnodup : ((members result).map Prod.fst).Nodup)
    (hsuccess : success = .ok [.document result]) : Tells (reportAnswer c result success) := by
  intro code printed h
  obtain ⟨st, hst, h⟩ := except_bind_eq_ok.mp h
  split at h
  · next heq =>
    obtain ⟨errorCode, -, h⟩ := except_bind_eq_ok.mp h
    obtain ⟨message, -, h⟩ := except_bind_eq_ok.mp h
    obtain ⟨rfl, rfl⟩ := Prod.mk.inj (Except.ok.inj h)
    rw [printError, if_pos hjson]
    refine ⟨_, rfl, iff_of_true (by decide) ?_⟩
    have hstatus := lookup_of_textOf (textOf_of_valueStr (heq ▸ hst)) (by decide)
    simp only [Json.textOf, Json.find?, lookup_foldl_assign hnodup, hstatus, Option.some_or]
  · next hne =>
    rw [hsuccess] at h
    obtain ⟨rfl, rfl⟩ := Prod.mk.inj (Except.ok.inj h)
    refine ⟨result, rfl, ?_⟩
    simp [textOf_of_valueStr hst, hne]

theorem tells_list {unknown : String} {layout : Json → List String} {ret : Json}
    (hjson : c.jsonMode = true) :
    Tells (.ok (reportList c unknown layout (if ret.isArray then some ret else none))) := by
  cases ret with
  | arr xs =>
    intro code printed h
    obtain ⟨rfl, rfl⟩ := Prod.mk.inj (Except.ok.inj h)
    exact ⟨.arr xs, by rw [report, if_pos hjson], by simp [Json.textOf, Json.find?]⟩
  | null | bool | int | float | str | obj => exact tells_printError (by decide) hjson

/-- The object that a command reports has each key once. -/
theorem keysOnce_objectOr {call : String} (hkeys : KeysOnce svc) (r : Request) :
    ((members (objectOr (rpcFailed call) (invoke svc c r.method r.args s).1)).map
      Prod.fst).Nodup := by
  unfold objectOr
  split
  · rw [invoke_request]
    cases c.fate with
    | lost | unanswered => exact List.nodup_nil
    | answered => exact hkeys r s
  · simp [rpcFailed, members]

/-- A status report is one document. -/
theorem document_of_status (hjson : c.jsonMode = true)
    (h : (StatusCommand svc c s).1 = .ok (code, printed)) : ∃ d, printed = [.document d] := by
  have habsent : ∀ daemon, (Except.ok (absentDaemon c daemon) : Except TypeError _) =
      .ok (code, printed) → ∃ d, printed = [.document d] := by
    intro daemon h
    obtain ⟨rfl, rfl⟩ := Prod.mk.inj (Except.ok.inj h)
    exact ⟨_, by rw [report, if_pos hjson]⟩
  unfold StatusCommand at h
  split at h
  · exact habsent _ h
  · split at h
    · exact habsent _ h
    · exact habsent _ h
    · obtain ⟨st, -, h⟩ := except_bind_eq_ok.mp h
      split at h
      · obtain ⟨errorCode, -, h⟩ := except_bind_eq_ok.mp h
        obtain ⟨message, -, h⟩ := except_bind_eq_ok.mp h
        obtain ⟨rfl, rfl⟩ := Prod.mk.inj (Except.ok.inj h)
        exact ⟨_, by rw [printError, if_pos hjson]⟩
      · split at h
        · exact habsent _ h
        · obtain ⟨rfl, rfl⟩ := Prod.mk.inj (Except.ok.inj h)
          exact ⟨_, by rw [report, if_pos hjson]⟩

/-- **One document, and it says whether the command failed.**  In JSON mode a command prints one
document, whatever comes back; it has the status `error` exactly when the exit code is not zero,
but for the status report, where no daemon is an answer. -/
theorem one_document (hkeys : KeysOnce svc) (hjson : c.jsonMode = true) {command : Command}
    (h : (execute svc c command s).1 = .ok (code, printed)) :
    ∃ d, printed = [.document d] ∧
      (command ≠ .status → (code ≠ 0 ↔ d.textOf "status" = "error")) := by
  have hinvalid : ∀ usage, Tells (invalidArgs c usage s).1 :=
    fun usage => tells_printError (by decide) hjson
  have htells : command ≠ .status → Tells (execute svc c command s).1 := by
    intro hne
    cases command with
    | load parsed =>
      cases parsed with
      | none => exact hinvalid _
      | some name =>
        refine tells_connected hjson (tells_report hjson
          (keysOnce_objectOr hkeys (.loadModule name)) ?_)
        rw [printLoaded, if_pos hjson]
        rfl
    | unload parsed =>
      cases parsed with
      | none => exact hinvalid _
      | some parsed =>
        refine tells_connected hjson (tells_report hjson
          (keysOnce_objectOr hkeys (.unloadModule parsed.1 !parsed.2)) ?_)
        rw [printUnloaded, if_pos hjson]
        rfl
    | reload parsed =>
      cases parsed with
      | none => exact hinvalid _
      | some name =>
        have hreport : Tells (reportAnswer c (reloadModule svc c name s).1
            (printReload c.jsonMode (reloadModule svc c name s).1)) :=
          tells_report hjson (keysOnce_objectOr hkeys (.reloadModule name))
            (by rw [printReload, if_pos hjson])
        refine tells_connected hjson fun code printed h => ?_
        obtain ⟨⟨code', shown⟩, hended, heq⟩ := except_map_eq_ok.mp h
        obtain ⟨rfl, rfl⟩ := Prod.mk.inj heq
        obtain ⟨d, rfl, hd⟩ := hreport code' shown hended
        exact ⟨d, by rw [announced, if_pos hjson, List.nil_append], hd⟩
    | info parsed =>
      cases parsed with
      | none => exact hinvalid _
      | some name =>
        refine tells_connected hjson (tells_report hjson
          (keysOnce_objectOr hkeys (.getModuleInfo name)) ?_)
        rw [report, if_pos hjson]
    | list parsed =>
      cases parsed with
      | none => exact hinvalid _
      | some loadedOnly => exact tells_connected hjson (tells_list hjson)
    | stats parsed =>
      cases parsed with
      | false => exact hinvalid _
      | true => exact tells_connected hjson (tells_list hjson)
    | status => exact absurd rfl hne
  by_cases hne : command = .status
  · subst hne
    obtain ⟨d, hd⟩ := document_of_status hjson h
    exact ⟨d, hd, fun hno => absurd rfl hno⟩
  · obtain ⟨d, hd, hcode⟩ := htells hne code printed h
    exact ⟨d, hd, fun _ => hcode⟩

/-- A service that answers everything with ok. -/
def saysOk (σ : Type) : Service σ where
  loadModule _ := pure ⟨true, .obj [("status", .str "ok")], ""⟩
  unloadModule _ _ := pure ⟨true, .obj [("status", .str "ok")], ""⟩
  reloadModule _ := pure ⟨true, .obj [("status", .str "ok")], ""⟩
  refreshModules := pure (.obj [("status", .str "ok")])
  planPackageOperation _ _ _ := pure (.obj [("status", .str "ok")])
  applyPackageOperation _ _ _ := pure (.obj [("status", .str "ok")])
  downloadPackage _ _ := pure (.obj [("status", .str "ok")])
  listModules _ := pure (.arr [])
  getStatus := pure (.obj [("status", .str "ok")])
  getModuleInfo _ := pure (.obj [("status", .str "ok")])
  getModuleStats := pure (.arr [])
  callModuleMethod _ _ _ := pure ⟨true, .obj [("status", .str "ok")], ""⟩
  watchModuleEvents _ _ := pure true
  shutdown := pure (.obj [("status", .str "ok")])

/-- A script that is connected, and gets its answer. -/
def scripted : Client where
  configured := true
  stale := none
  connect := .ok ()
  instanceId := "0a1b2c3d4e5f"
  version := "0.1.0"
  jsonMode := true
  layouts := ⟨fun _ => [], fun _ => [], fun _ => [], fun _ => []⟩
  fate := .answered

theorem document_scripted :
    ∃ d, [Printed.document (.obj [("status", .str "ok")])] = [.document d] ∧
      (Command.load (some "waku") ≠ .status → (0 ≠ 0 ↔ d.textOf "status" = "error")) := by
  have hkeys : KeysOnce (saysOk Unit) := by
    intro r s
    cases r <;> simp [answer, perform, saysOk, settled, members]
  exact @one_document _ (saysOk Unit) scripted () 0 _ hkeys rfl (.load (some "waku")) rfl

end Documents

/-! ## 6. The daemon behind the commands -/

section Daemon

variable {ε σ α : Type}

/-- A business method; of what it throws there is the text. -/
def throwing (what : ε → String) (p : Prog σ ε α) : Prog σ String α := ExceptT.adapt what p

theorem exec_throwing (what : ε → String) (p : Prog σ ε α) (s : σ) :
    (throwing what p).exec s = ((p.exec s).1.mapError what, (p.exec s).2) := rfl

theorem exec_map (p : Prog σ ε α) {β : Type} (f : α → β) (s : σ) :
    (f <$> p).exec s = ((p.exec s).1.map f, (p.exec s).2) := by
  rw [map_eq_pure_bind]
  exact Prog.exec_bind_pure p f s

/-- The service of a daemon, as far as modules go: the other methods are those of `rest`. -/
def coreService (env : Env) (info : Info) (now pid : Int) (version : String)
    (what : TypeError → String) (rest : Service World) : Service World :=
  { rest with
    loadModule := fun name => throwing what (CoreService.loadModule env info name)
    unloadModule := fun name withDependents =>
      throwing what (CoreService.unloadModule env name withDependents)
    reloadModule := fun name => throwing what (CoreService.reloadModule env info name)
    refreshModules := throwing what (CoreService.refreshModules env info)
    listModules := fun filter => throwing what (CoreService.listModules now info filter)
    getStatus := throwing what (CoreService.getStatus now info pid version)
    getModuleInfo := fun name => throwing what (CoreService.getModuleInfo now env info name) }

variable (env : Env) (info : Info)

/-- The runtime starts the module. -/
def starts (name : String) (w : World) : Bool := (env.load w.log.length w.loaded name).1

/-- The runtime's document can be read as far as the version of the module. -/
def versionReadable (name : String) (w : World) : Bool :=
  (moduleVersion name (info.modulesInfo w)).isOk

/-- A module that is to be reloaded has been stopped, if it ran. -/
def stopped (name : String) (w : World) : World :=
  if w.loaded.contains name then w.after env (.unload name false) else w

/-- What the daemon does for a request to load, unload or reload a module.  A module that ran and
does not come back is started once more. -/
def done : Request → World → World
  | .loadModule name, w => w.after env (.load name)
  | .unloadModule name withDependents, w => w.after env (.unload name withDependents)
  | .reloadModule name, w =>
    let tried := (stopped env name w).after env (.load name)
    if !starts env name (stopped env name w) && w.loaded.contains name then
      tried.after env (.load name)
    else tried
  | _, w => w

/-- It has come to what was asked for, and the daemon can say so. -/
def wentWell : Request → World → Bool
  | .loadModule name, w => starts env name w && versionReadable info name (w.after env (.load name))
  | .unloadModule name withDependents, w =>
    !(w.after env (.unload name withDependents)).loaded.contains name
  | .reloadModule name, w => starts env name (stopped env name w) &&
      versionReadable info name ((stopped env name w).after env (.load name))
  | _, _ => false

/-- The requests that change what runs. -/
def Changes : Request → Prop
  | .loadModule _ | .unloadModule _ _ | .reloadModule _ => True
  | _ => False

end Daemon

section Exits

variable {env : Env} {info : Info} {now pid : Int} {version : String} {what : TypeError → String}
  {rest : Service World} {c : Client} {w : World} {name : String}

/-- How a request ends at the daemon, and what the command then makes of the answer. -/
def EndsAs (svc : Service World) (c : Client) (r : Request) (w : World) (code : Nat) (w' : World)
    (success : Json → Except TypeError (List Printed)) : Prop :=
  ∃ j, answer svc r w = (j, w') ∧ j.isObject = true ∧
    ∃ printed, reportAnswer c j (success j) = .ok (code, printed)

theorem report_error {j : Json} {success : Except TypeError (List Printed)} {code message : String}
    (hstatus : j.valueStr "status" = .ok "error") (hcode : j.valueStr "code" = .ok code)
    (hmessage : j.valueStr "message" = .ok message) :
    reportAnswer c j success = .ok (3, printError c.jsonMode code message j) := by
  simp [reportAnswer, hstatus, hcode, hmessage, bind, Except.bind, pure, Except.pure]

theorem report_success {j : Json} {success : Except TypeError (List Printed)} {st : String}
    {printed : List Printed} (hstatus : j.valueStr "status" = .ok st) (hne : st ≠ "error")
    (hsuccess : success = .ok printed) : reportAnswer c j success = .ok (0, printed) := by
  simp [reportAnswer, hstatus, hne, hsuccess, bind, Except.bind, pure, Except.pure]

theorem printUnloaded_ok {kvs : List (String × Json)} {xs : List String}
    (h : kvs.lookup "dependents_unloaded" = some (names xs)) :
    ∃ printed, printUnloaded c name (.obj kvs) = .ok printed := by
  unfold printUnloaded
  split
  · exact ⟨_, rfl⟩
  · simp only [Json.value, h, Json.getJson, names, Json.elems, bind, Except.bind,
      PackageCommand.mapM_getString]
    exact ⟨_, rfl⟩

theorem endsAs_unload (withDependents : Bool) :
    EndsAs (coreService env info now pid version what rest) c (.unloadModule name withDependents) w
      (if wentWell env info (.unloadModule name withDependents) w then 0 else 3)
      (done env (.unloadModule name withDependents) w) (printUnloaded c name) := by
  have hanswer : answer (coreService env info now pid version what rest)
      (.unloadModule name withDependents) w =
        ((unloadReply name w.loaded (w.after env (.unload name withDependents)).loaded).value,
          w.after env (.unload name withDependents)) := by
    rw [answer, perform, exec_map]
    simp only [coreService, exec_throwing, exec_unloadModule]
    rfl
  refine ⟨_, hanswer, ?_⟩
  cases hloaded : (w.after env (.unload name withDependents)).loaded.contains name with
  | true =>
    have hwell : wentWell env info (.unloadModule name withDependents) w = false := by
      rw [wentWell, hloaded]
      rfl
    rw [hwell, unloadReply, if_pos hloaded]
    exact ⟨rfl, _, report_error rfl rfl rfl⟩
  | false =>
    have hwell : wentWell env info (.unloadModule name withDependents) w = true := by
      rw [wentWell, hloaded]
      rfl
    rw [hwell, unloadReply, if_neg (hloaded ▸ Bool.false_ne_true)]
    exact ⟨rfl, Exists.imp (fun printed hprinted => report_success rfl (by decide) hprinted)
      (printUnloaded_ok rfl)⟩

theorem printLoaded_ok {kvs : List (String × Json)} {xs : List String} {v : String}
    (hv : kvs.lookup "version" = some (.str v))
    (h : kvs.lookup "dependencies_loaded" = some (names xs)) :
    ∃ printed, printLoaded c name (.obj kvs) = .ok printed := by
  unfold printLoaded
  split
  · exact ⟨_, rfl⟩
  · simp only [Json.valueStr, Json.value, hv, h, Json.getString, Json.getJson, names, items, bind,
      Except.bind, PackageCommand.mapM_getString]
    exact ⟨_, rfl⟩

/-- The reply to a load that went well. -/
def loadedReply (name v : String) (deps : List String) (skipped : Option Json) : Json :=
  .obj ([("dependencies_loaded", names deps), ("module", .str name)] ++
    skipped.toList.map ("optional_skipped", ·) ++ [("status", .str "ok"), ("version", .str v)])

theorem report_loadedReply {v : String} {deps : List String} {skipped : Option Json} :
    ∃ printed, reportAnswer c (loadedReply name v deps skipped)
      (printLoaded c name (loadedReply name v deps skipped)) = .ok (0, printed) := by
  have hstatus : (loadedReply name v deps skipped).valueStr "status" = .ok "ok" := by
    cases skipped <;> rfl
  have hprinted : ∃ printed,
      printLoaded c name (loadedReply name v deps skipped) = .ok printed := by
    cases skipped <;> exact printLoaded_ok rfl rfl
  exact hprinted.imp fun printed h => report_success hstatus (by decide) h

theorem exec_getModuleVersion : (getModuleVersion info name).exec w =
    (moduleVersion name (info.modulesInfo w), w) := by
  rw [getModuleVersion, Prog.exec_bind_of_ok (Prog.exec_get w)]
  cases moduleVersion name (info.modulesInfo w) <;> rfl

theorem endsAs_load :
    EndsAs (coreService env info now pid version what rest) c (.loadModule name) w
      (if wentWell env info (.loadModule name) w then 0 else 3)
      (done env (.loadModule name) w) (printLoaded c name) := by
  unfold EndsAs answer perform
  rw [exec_map]
  simp only [coreService, exec_throwing]
  unfold CoreService.loadModule getLoadedModuleNames
  rw [Prog.exec_bind_of_ok (exec_loadedModules w),
    Prog.exec_bind_of_ok (exec_logosCoreLoadModule name w)]
  cases hok : (env.load w.log.length w.loaded name).1 with
  | false =>
    have hwell : wentWell env info (.loadModule name) w = false := by simp [wentWell, starts, hok]
    rw [hwell]
    exact ⟨_, rfl, rfl, _, report_error rfl rfl rfl⟩
  | true =>
    simp only [Bool.not_true, Bool.false_eq_true, if_false]
    rw [Prog.exec_bind_of_ok (exec_loadedModules _), Prog.exec_bind, exec_getModuleVersion]
    cases hversion : moduleVersion name (info.modulesInfo (w.after env (.load name))) with
    | error e =>
      have hwell : wentWell env info (.loadModule name) w = false := by
        simp [wentWell, versionReadable, hversion, Except.isOk, Except.toBool]
      rw [hwell]
      exact ⟨_, rfl, rfl, _, report_error rfl rfl rfl⟩
    | ok v =>
      have hwell : wentWell env info (.loadModule name) w = true := by
        simp [wentWell, starts, hok, versionReadable, hversion, Except.isOk, Except.toBool]
      rw [hwell]
      exact ⟨_, rfl, rfl, report_loadedReply⟩

/-- The reply to a reload that went well. -/
def reloadedReply (name previous v : String) : Json :=
  .obj [("action", .str "reload"), ("module", .str name), ("previous_status", .str previous),
    ("status", .str "loaded"), ("version", .str v)]

theorem report_reloadedReply {v previous : String} : ∃ printed,
    reportAnswer c (reloadedReply name previous v)
      (printReload c.jsonMode (reloadedReply name previous v)) = .ok (0, printed) := by
  have hprinted : ∃ printed,
      printReload c.jsonMode (reloadedReply name previous v) = .ok printed := by
    unfold printReload
    split <;> exact ⟨_, rfl⟩
  have hne : "loaded" ≠ "error" := by decide
  exact hprinted.imp fun printed h => report_success rfl hne h

/-- The end of a reload: the last load worked, or what is said of a failure is an error. -/
theorem report_reload {previous : String} {restored : Option Bool} {ok : Bool} {w₁ w₂ : World}
    {run : Except TypeError StdLogosResult × World}
    (hok : ok = true → run = ((moduleVersion name (info.modulesInfo w₁)).map fun v =>
      ⟨true, reloadedReply name previous v, ""⟩, w₂))
    (hfailed : ok = false → run = (.ok (reloadFailed name previous restored), w₂)) :
    ∃ j, settled ((run.1.mapError what).map StdLogosResult.value, run.2) = (j, w₂) ∧
      j.isObject = true ∧ ∃ printed, reportAnswer c j (printReload c.jsonMode j) =
        .ok (if ok && versionReadable info name w₁ then 0 else 3, printed) := by
  cases ok with
  | true =>
    rw [hok rfl]
    unfold versionReadable
    cases moduleVersion name (info.modulesInfo w₁) with
    | error e => exact ⟨_, rfl, rfl, _, report_error rfl rfl rfl⟩
    | ok v => exact ⟨_, rfl, rfl, report_reloadedReply⟩
  | false =>
    rw [hfailed rfl]
    cases restored with
    | none => exact ⟨_, rfl, rfl, _, report_error rfl rfl rfl⟩
    | some b => cases b <;> exact ⟨_, rfl, rfl, _, report_error rfl rfl rfl⟩

/-- A reload whose load works. -/
theorem exec_reload_of_starts (hok : starts env name (stopped env name w) = true) :
    (CoreService.reloadModule env info name).exec w =
      ((moduleVersion name (info.modulesInfo ((stopped env name w).after env (.load name)))).map
        fun v => ⟨true, reloadedReply name (if w.loaded.contains name then "loaded"
          else "not_loaded") v, ""⟩, done env (.reloadModule name) w) := by
  have hdone : done env (.reloadModule name) w = (stopped env name w).after env (.load name) := by
    simp [done, hok]
  rw [hdone]
  unfold CoreService.reloadModule getLoadedModuleNames
  unfold starts stopped at hok
  unfold stopped
  rw [Prog.exec_bind_of_ok (exec_loadedModules w)]
  by_cases hloaded : w.loaded.contains name = true
  · simp only [hloaded, if_true] at hok ⊢
    rw [Prog.exec_bind_of_ok (exec_logosCoreUnloadModule name false w),
      Prog.exec_bind_of_ok (exec_logosCoreLoadModule name _), hok]
    simp only [Bool.not_true, Bool.false_eq_true, if_false]
    rw [Prog.exec_bind_pure, exec_getModuleVersion]
    rfl
  · simp only [hloaded, if_false, Bool.false_eq_true] at hok ⊢
    rw [Prog.exec_bind_of_ok (exec_logosCoreLoadModule name _), hok]
    simp only [Bool.not_true, Bool.false_eq_true, if_false]
    rw [Prog.exec_bind_pure, exec_getModuleVersion]
    rfl

/-- A reload whose load does not: a module that ran is started once more. -/
theorem exec_reload_of_not_starts (hok : starts env name (stopped env name w) = false) :
    (CoreService.reloadModule env info name).exec w =
      (.ok (reloadFailed name (if w.loaded.contains name then "loaded" else "not_loaded")
        (if w.loaded.contains name then
          some (starts env name ((stopped env name w).after env (.load name))) else none)),
        done env (.reloadModule name) w) := by
  unfold done
  simp only [hok, Bool.not_false, Bool.true_and]
  unfold CoreService.reloadModule getLoadedModuleNames
  unfold starts stopped at hok
  unfold stopped
  rw [Prog.exec_bind_of_ok (exec_loadedModules w)]
  by_cases hloaded : w.loaded.contains name = true
  · simp only [hloaded, if_true] at hok ⊢
    rw [Prog.exec_bind_of_ok (exec_logosCoreUnloadModule name false w),
      Prog.exec_bind_of_ok (exec_logosCoreLoadModule name _), hok]
    rfl
  · simp only [hloaded, if_false, Bool.false_eq_true] at hok ⊢
    rw [Prog.exec_bind_of_ok (exec_logosCoreLoadModule name _), hok]
    rfl

theorem endsAs_reload :
    EndsAs (coreService env info now pid version what rest) c (.reloadModule name) w
      (if wentWell env info (.reloadModule name) w then 0 else 3)
      (done env (.reloadModule name) w) (printReload c.jsonMode) := by
  unfold EndsAs answer perform wentWell
  rw [exec_map]
  exact report_reload exec_reload_of_starts exec_reload_of_not_starts

/-- What the wire makes of it. -/
theorem ends_of_endsAs {svc : Service World} {r : Request} {code : Nat} {w' : World}
    {success : Json → Except TypeError (List Printed)} (call : String)
    (h : EndsAs svc c r w code w' success) :
    ∃ printed, (reportAnswer c (objectOr (rpcFailed call) (invoke svc c r.method r.args w).1)
        (success (objectOr (rpcFailed call) (invoke svc c r.method r.args w).1)),
      (invoke svc c r.method r.args w).2) =
        (.ok (if c.fate = .answered then code else 3, printed),
          if c.fate = .lost then w else w') := by
  obtain ⟨j, hanswer, hobj, printed, hreport⟩ := h
  have hfailed : ∀ failed, reportAnswer c (rpcFailed call) failed =
      .ok (3, printError c.jsonMode "RPC_FAILED" (call ++ " RPC call failed.") (rpcFailed call)) :=
    fun failed => report_error rfl rfl rfl
  rw [invoke_request, hanswer]
  cases c.fate with
  | lost => exact ⟨_, Prod.ext (hfailed _) rfl⟩
  | unanswered => exact ⟨_, Prod.ext (hfailed _) rfl⟩
  | answered =>
    refine ⟨printed, Prod.ext ?_ rfl⟩
    simpa [objectOr, hobj] using hreport

/-- What becomes of a command, connected or not. -/
theorem ends_connected {σ : Type} {s s' : σ} {run : Ended σ} {code : Nat}
    (h : ∃ printed, run = (.ok (code, printed), s')) :
    ∃ printed, connected c s run = (.ok (if c.connecting.exitCode ≠ 0 then 2 else code, printed),
      if c.connecting.exitCode ≠ 0 then s else s') := by
  unfold connected
  obtain ⟨printed, rfl⟩ := h
  split
  · next herror =>
    have hcode : c.connecting.exitCode = 2 := by
      have hne := exitCode_of_error herror
      unfold Client.connecting ensureConnected at hne ⊢
      cases hstale : c.stale with
      | some stale => rfl
      | none =>
        cases hconnect : c.connect with
        | error e => rfl
        | ok u => simp [hstale, hconnect] at hne
    simp [hcode]
  · next herror =>
    simp [exitCode_of_no_error herror]

section Unfolded

variable {σ : Type} {svc : Service σ} {s : σ}

theorem execute_load : execute svc c (.load (some name)) s =
    connected c s (reportAnswer c
      (objectOr (rpcFailed ("loadModule('" ++ name ++ "')"))
        (invoke svc c (Request.loadModule name).method (Request.loadModule name).args s).1)
      (printLoaded c name (objectOr (rpcFailed ("loadModule('" ++ name ++ "')"))
        (invoke svc c (Request.loadModule name).method (Request.loadModule name).args s).1)),
      (invoke svc c (Request.loadModule name).method (Request.loadModule name).args s).2) := rfl

theorem execute_unload {b : Bool} {r : Request} (hr : r = .unloadModule name !b) :
    execute svc c (.unload (some (name, b))) s =
    connected c s (reportAnswer c
      (objectOr (rpcFailed ("unloadModule('" ++ name ++ "')")) (invoke svc c r.method r.args s).1)
      (printUnloaded c name (objectOr (rpcFailed ("unloadModule('" ++ name ++ "')"))
        (invoke svc c r.method r.args s).1)), (invoke svc c r.method r.args s).2) := by
  subst hr
  rfl

theorem execute_reload {x : Except TypeError (Nat × List Printed)} {s' : σ}
    (h : (reportAnswer c
      (objectOr (rpcFailed ("reloadModule('" ++ name ++ "')"))
        (invoke svc c (Request.reloadModule name).method (Request.reloadModule name).args s).1)
      (printReload c.jsonMode (objectOr (rpcFailed ("reloadModule('" ++ name ++ "')"))
        (invoke svc c (Request.reloadModule name).method (Request.reloadModule name).args s).1)),
      (invoke svc c (Request.reloadModule name).method (Request.reloadModule name).args s).2) =
        (x, s')) :
    execute svc c (.reload (some name)) s =
      connected c s (x.map (fun r => (r.1, announced c name ++ r.2)), s') := by
  obtain ⟨rfl, rfl⟩ := Prod.mk.inj h
  rfl

end Unfolded

/-- **The exit code of a load, an unload or a reload, from end to end.**  It is 2 without a
connection, 0 when the answer comes back and the runtime did what was asked for, and 3 otherwise.
The daemon does what the request stands for exactly when the call arrives, whatever is reported. -/
theorem lifecycle_exit {command : Command} {r : Request} (hr : command.request = some r)
    (hchanges : Changes r) :
    ∃ printed, execute (coreService env info now pid version what rest) c command w =
      (.ok (if c.connecting.exitCode ≠ 0 then 2
          else if c.fate = .answered then if wentWell env info r w then 0 else 3 else 3, printed),
        if c.connecting.exitCode ≠ 0 then w else if c.fate = .lost then w else done env r w) := by
  cases command with
  | load parsed =>
    obtain ⟨name, rfl, rfl⟩ := Option.map_eq_some_iff.mp hr
    rw [execute_load]
    exact ends_connected (ends_of_endsAs _ endsAs_load)
  | unload parsed =>
    obtain ⟨⟨name, noDependents⟩, rfl, rfl⟩ := Option.map_eq_some_iff.mp hr
    rw [execute_unload rfl]
    exact ends_connected (ends_of_endsAs _ (endsAs_unload !noDependents))
  | reload parsed =>
    obtain ⟨name, rfl, rfl⟩ := Option.map_eq_some_iff.mp hr
    obtain ⟨printed, hended⟩ := ends_of_endsAs ("reloadModule('" ++ name ++ "')") (endsAs_reload)
    rw [execute_reload hended]
    exact ends_connected ⟨announced c name ++ printed, rfl⟩
  | info parsed =>
    obtain ⟨name, rfl, rfl⟩ := Option.map_eq_some_iff.mp hr
    cases hchanges
  | list parsed =>
    obtain ⟨loadedOnly, rfl, rfl⟩ := Option.map_eq_some_iff.mp hr
    cases hchanges
  | stats parsed =>
    cases parsed with
    | false => cases hr
    | true =>
      cases hr
      cases hchanges
  | status =>
    cases hr
    cases hchanges

theorem exit_scripted : ∃ printed,
    (execute (coreService publishesNothing twoModules 1700000060 42 "0.1.0" (fun _ => "type error")
      (saysOk World)) scripted (.load (some "waku")) ⟨[], 0, []⟩).1 = .ok (0, printed) := by
  obtain ⟨printed, h⟩ := @lifecycle_exit publishesNothing twoModules 1700000060 42 "0.1.0"
    (fun _ => "type error") (saysOk World) scripted ⟨[], 0, []⟩ (.load (some "waku")) _ rfl trivial
  exact ⟨printed, congrArg Prod.fst h⟩

/-- What a status report says of the daemon. -/
def daemonStatus (d : Json) : String := ((d.find? "daemon").getD .null).textOf "status"

/-- The report of a daemon. -/
def runningReport (pid : Int) (version : String) (modules summary : Json) : Json :=
  .obj [("daemon", .obj [("pid", .int pid), ("status", .str "running"),
    ("version", .str version)]), ("modules", modules), ("modules_summary", summary)]

/-- The daemon makes that report, if it can make the list of all modules. -/
theorem answer_getStatus :
    (∃ modules summary, answer (coreService env info now pid version what rest) .getStatus w =
      (runningReport pid version modules summary, w)) ∨
      ∃ text, answer (coreService env info now pid version what rest) .getStatus w =
        (invalidArguments text, w) := by
  rw [answer, perform]
  simp only [coreService, exec_throwing]
  cases hlist : (CoreService.listModules now info "all").exec w with
  | mk r w' =>
    cases r with
    | ok modules =>
      rw [exec_getStatus hlist]
      exact Or.inl ⟨_, _, rfl⟩
    | error e =>
      have hw : w' = w := by
        rw [exec_listModules] at hlist
        exact (congrArg Prod.snd hlist).symm
      subst hw
      refine Or.inr ⟨what e, ?_⟩
      rw [CoreService.getStatus, Prog.exec_bind_of_error hlist]
      rfl

/-- What the client takes for the status. -/
theorem getStatus_cases :
    getStatus (coreService env info now pid version what rest) c w = (unreachable c, w) ∨
      getStatus (coreService env info now pid version what rest) c w =
        answer (coreService env info now pid version what rest) .getStatus w := by
  have hinvoke : getStatus (coreService env info now pid version what rest) c w =
      (objectOr (unreachable c) (invoke (coreService env info now pid version what rest) c
        (Request.getStatus).method (Request.getStatus).args w).1,
        (invoke (coreService env info now pid version what rest) c
        (Request.getStatus).method (Request.getStatus).args w).2) := rfl
  rw [hinvoke, invoke_request]
  rcases @answer_getStatus env info now pid version what rest w with
    ⟨modules, summary, hanswer⟩ | ⟨text, hanswer⟩ <;> rw [hanswer] <;> cases c.fate
  case inl.answered => exact Or.inr rfl
  case inr.answered => exact Or.inr rfl
  all_goals exact Or.inl rfl

theorem reportStatus_of_daemon {status : Json} {st : String} (hjson : c.jsonMode = true)
    (hst : status.valueStr "status" = .ok st) (hne : st ≠ "error")
    (hdaemon : status.contains "daemon" = true) :
    reportStatus c status =
      .ok (if status.contains "rpc_error" then 1 else 0, [.document status]) := by
  simp [reportStatus, hst, hne, hdaemon, report, hjson, bind, Except.bind, pure, Except.pure]

theorem reportStatus_unreachable (hjson : c.jsonMode = true) :
    reportStatus c (unreachable c) = .ok (1, [.document (unreachable c)]) ∧
      daemonStatus (unreachable c) = "not_running" := by
  rw [@reportStatus_of_daemon c (unreachable c) "" hjson rfl (by decide) rfl]
  unfold unreachable
  split <;> exact ⟨rfl, rfl⟩

/-- A document that a command prints on one line, with the exit code that belongs to it. -/
def Reports (x : Except TypeError (Nat × List Printed)) : Prop :=
  ∃ d, x = .ok (if daemonStatus d = "running" then 0 else 1, [.document d])

theorem reports_running (hjson : c.jsonMode = true) (modules summary : Json) :
    Reports (reportStatus c (runningReport pid version modules summary)) :=
  ⟨runningReport pid version modules summary,
    @reportStatus_of_daemon c _ "" hjson rfl (by decide) rfl⟩

theorem reports_invalidArguments (hjson : c.jsonMode = true) (text : String) :
    Reports (reportStatus c (invalidArguments text)) := by
  refine ⟨.obj [("code", .str "INVALID_ARGS"), ("message", .str ("invalid arguments: " ++ text)),
    ("status", .str "error")], ?_⟩
  have hstatus : (invalidArguments text).valueStr "status" = .ok "error" := rfl
  have hcode : (invalidArguments text).valueStr "code" = .ok "INVALID_ARGS" := rfl
  have hmessage : (invalidArguments text).valueStr "message" =
    .ok ("invalid arguments: " ++ text) := rfl
  simp [reportStatus, hstatus, hcode, hmessage, printError, hjson, members, daemonStatus,
    Json.find?, Json.textOf, List.lookup_cons, bind, Except.bind, pure, Except.pure]

/-- **The exit code of `status` is what its document says.**  It prints one document, leaves the
daemon as it is, and exits with zero when the document has a daemon that is running, else with
one. -/
theorem status_exit (hjson : c.jsonMode = true) :
    ∃ d, execute (coreService env info now pid version what rest) c .status w =
      (.ok (if daemonStatus d = "running" then 0 else 1, [.document d]), w) := by
  have habsent : ∀ kvs, (Json.obj kvs).textOf "status" ≠ "running" →
      ∃ d, ((.ok (absentDaemon c kvs), w) : Ended World) =
        (.ok (if daemonStatus d = "running" then 0 else 1, [.document d]), w) := by
    intro kvs hne
    refine ⟨.obj [("daemon", .obj kvs)], ?_⟩
    have hstatus : daemonStatus (.obj [("daemon", .obj kvs)]) = (Json.obj kvs).textOf "status" :=
      rfl
    rw [absentDaemon, report, if_pos hjson, hstatus, if_neg hne]
  change ∃ d, StatusCommand (coreService env info now pid version what rest) c w = _
  unfold StatusCommand
  split
  · exact habsent _ (by decide)
  · split
    · exact habsent _ (by simp [Json.textOf, Json.find?, List.lookup_cons])
    · exact habsent _ (by simp [Json.textOf, Json.find?, List.lookup_cons])
    · rcases @getStatus_cases env info now pid version what rest c w with hreply | hreply
      · obtain ⟨hreport, hstatus⟩ := reportStatus_unreachable hjson
        refine ⟨unreachable c, ?_⟩
        rw [hreply]
        exact Prod.ext (by rw [hstatus]; exact hreport) rfl
      · rcases @answer_getStatus env info now pid version what rest w with
          ⟨modules, summary, hanswer⟩ | ⟨text, hanswer⟩ <;> rw [hreply, hanswer]
        · exact (reports_running hjson modules summary).imp fun d h => Prod.ext h rfl
        · exact (reports_invalidArguments hjson text).imp fun d h => Prod.ext h rfl

theorem status_scripted : ∃ d,
    execute (coreService publishesNothing twoModules 1700000060 42 "0.1.0" (fun _ => "type error")
      (saysOk World)) { scripted with fate := .lost } .status ⟨[], 0, []⟩ =
        (.ok (if daemonStatus d = "running" then 0 else 1, [.document d]), ⟨[], 0, []⟩) :=
  status_exit rfl

end Exits

end Logosctl.Commands
