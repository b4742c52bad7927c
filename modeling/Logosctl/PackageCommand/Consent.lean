/-
# A package is changed when its user agrees

An install, an upgrade or a removal asks the daemon twice: what would change, and then to change it.
Between the two the user sees the plan and is asked; without a terminal to ask on, only `--yes`
will do.  Either call can be lost on the way, and so can its answer.

Whatever the daemon answers, it is asked to change something once at most, after a plan that is no
error and has a change in it, and only with consent; and zero is the exit code when there was
nothing to do, when nothing was to be done, and when the change was reported as done
(`changed_only_with_consent`).  With the package operations behind the wire the end of every such
command is known exactly (`mutate_exact`), and without consent the daemon keeps what it has loaded
and asks its modules nothing but what a plan asks (`kept_without_consent`).
-/
import Logosctl.Commands
import Logosctl.PackageCommand
import Logosctl.PackageOps.Idempotent

namespace Logosctl.PackageCommand

open Library PackageOps YamlJson
open CoreService (Service callMethodStd settled perform invalidArguments)
open Commands (Client Ended Fate Printed answer connected invoke objectOr printError rpcFailed)

/-! ## 1. The client -/

section Client

variable {σ : Type} (svc : Service σ) (c : Client)

/-- `RpcClient::planPackageOperation`. -/
def planPackageOperation (op : String) (names opts : Json) (s : σ) : Json × σ :=
  let (ret, s) := invoke svc c "planPackageOperation" [.str op, names, opts] s
  (objectOr (rpcFailed ("planPackageOperation('" ++ op ++ "')")) ret, s)

/-- `RpcClient::applyPackageOperation`. -/
def applyPackageOperation (op : String) (names opts : Json) (s : σ) : Json × σ :=
  let (ret, s) := invoke svc c "applyPackageOperation" [.str op, names, opts] s
  (objectOr (rpcFailed ("applyPackageOperation('" ++ op ++ "')")) ret, s)

end Client

/-- What decides, beside the plan, whether it is carried out: two flags, whether there is a terminal
to ask on, and the line that is read there. -/
structure Consent where
  yes : Bool := false
  dryRun : Bool := false
  isatty : Bool := false
  line : Option String := none

/-- `confirm`: without a terminal the answer is no. -/
def confirm (u : Consent) : Bool :=
  u.isatty && match u.line with
    | some line => line == "y" || line == "Y" || line == "yes" || line == "Yes"
    | none => false

def actionVerb (action : String) : String :=
  if action = "install" then "install"
  else if action = "upgrade" then "upgrade"
  else if action = "reinstall" then "reinstall"
  else if action = "remove" then "remove"
  else "keep"

/-- The format `{:<n}`. -/
def padRight (n : Nat) (s : String) : String :=
  s ++ String.ofList (List.replicate (n - s.length) ' ')

/-- The line of one change; one that is installed has none. -/
def changeLine (c : Json) : Except TypeError (Option String) := do
  let action ← c.valueStr "action"
  if action = "installed" then return none
  else
    let fromVersion ← c.valueStr "fromVersion"
    let toVersion ← c.valueStr "toVersion"
    let name ← c.valueStr "name"
    return some ("  " ++ padRight 10 (actionVerb action) ++ " " ++ name ++
      if toVersion.isEmpty then (if fromVersion.isEmpty then "" else " (" ++ fromVersion ++ ")")
      else if fromVersion.isEmpty then " " ++ toVersion
      else " " ++ fromVersion ++ " -> " ++ toVersion)

/-- What a person is shown of a plan. -/
def showPlan (op : Op) (plan : Json) (changes : List Json) : Except TypeError (List Printed) := do
  let lines ← changes.mapM changeLine
  let affected ← (((plan.find? "affected_loaded").getD .null).elems).mapM Json.getString
  return .out ("The following changes will be made (" ++ op.name ++ "):") ::
    (lines.reduceOption.map .out ++ if affected.isEmpty then [] else
      [.out ((if op = .remove then "These running modules will be stopped: "
        else "These running modules will be stopped and restarted: ") ++
          ", ".intercalate affected)])

/-- Some change is not there already. -/
def anyChange (changes : List Json) : Except TypeError Bool := do
  let actions ← changes.mapM (Json.valueStr · "action")
  return actions.any (· ≠ "installed")

/-- How a plan is received: the command ends, with an exit code, or goes on. -/
inductive Reception
  | stop (code : Nat) (printed : List Printed)
  | proceed (printed : List Printed)

/-- What `confirm` prints. -/
def prompt (u : Consent) : List Printed :=
  if u.isatty then [.question "Proceed? [y/N] "] else []

/-- The last question before something is changed. -/
def askFirst (jsonMode : Bool) (u : Consent) (shown : List Printed) : Reception :=
  if u.yes then .proceed shown
  else if confirm u then .proceed (shown ++ prompt u)
  else .stop 1 (shown ++ prompt u ++ printError jsonMode "CANCELLED"
    (if u.isatty then "Cancelled."
      else "Refusing to proceed without confirmation. Pass -y to continue."))

/-- What `PackageCommand::mutate` makes of the plan.  To ask for the changes of a plan that has none
puts a null there. -/
def receive (jsonMode : Bool) (u : Consent) (op : Op) (plan : Json) :
    Except TypeError Reception := do
  let status ← plan.valueStr "status"
  if status = "error" then
    let code ← plan.valueStr "code" "PLAN_FAILED"
    let message ← plan.valueStr "message"
    return .stop 1 (printError jsonMode code message plan)
  else
    let changes := (plan.find? "changes").getD .null
    let plan := if plan.contains "changes" then plan
      else .obj (assign "changes" .null (Commands.members plan))
    let any ← anyChange (Commands.items changes)
    if !any then
      return .stop 0 (if jsonMode then [.document plan]
        else [.out "Nothing to do — already up to date."])
    else if jsonMode then
      return if u.dryRun then .stop 0 [.document plan] else askFirst jsonMode u []
    else
      let shown ← showPlan op plan (Commands.items changes)
      return if u.dryRun then .stop 0 (shown ++ [.out "(dry run — nothing was changed)"])
        else askFirst jsonMode u shown

/-- The reason of a failure, which arrives in one of two shapes. -/
def reasonOf (result : Json) : Except TypeError String := do
  let error ← result.valueStr "error"
  if !error.isEmpty then return error
  else
    let message ← result.valueStr "message"
    return if message.isEmpty then "no reason reported" else message

/-- The lambda `names_of`. -/
def namesOf (result : Json) (key : String) : Except TypeError (List String) := do
  let arr ← result.value Json.getJson key (.arr [])
  arr.elems.mapM Json.getString

def namedLine (what : String) (names : List String) : List Printed :=
  if names.isEmpty then [] else [.out (what ++ ", ".intercalate names)]

/-- What `PackageCommand::mutate` makes of the result. -/
def reportResult (jsonMode : Bool) (op : Op) (names : List String) (result : Json) :
    Except TypeError (Nat × List Printed) := do
  let status ← result.valueStr "status"
  if status = "error" then
    let step ← result.valueStr "failed_step"
    let reason ← reasonOf result
    let code ← result.valueStr "code" "PACKAGE_OP_FAILED"
    return (1, printError jsonMode code
      (if step.isEmpty then op.name ++ " failed: " ++ reason
        else op.name ++ " failed at step '" ++ step ++ "': " ++ reason) result)
  else if jsonMode then return (0, [.document result])
  else
    let installed ← namesOf result "installed"
    let removed ← namesOf result "removed"
    let reloaded ← namesOf result "reloaded"
    return (0, namedLine "Installed: " installed ++ namedLine "Removed: " removed ++
      namedLine "Restarted: " reloaded ++
      match installed with
      | [] => []
      | front :: _ => [.out ("Load with: logosctl module load " ++ names.headD front)])

/-- What a user's machine and the wire do to a command: the client, whose `fate` is that of the
first call, the fate of the second, what the client can see, and the consent. -/
structure Desk where
  client : Client
  applyFate : Fate
  host : Host
  consent : Consent

/-- The client of the second call. -/
def Desk.applying (d : Desk) : Client := { d.client with fate := d.applyFate }

section Mutate

variable {σ : Type} (svc : Service σ) (d : Desk)

/-- `PackageCommand::mutate`, of what is settled. -/
def planAndApply (op : Op) (names : List String) (opts : Json) (s : σ) : Ended σ :=
  let nameList := Json.arr (names.map .str)
  let (plan, s) := planPackageOperation svc d.client op.name nameList opts s
  match receive d.client.jsonMode d.consent op plan with
  | .error e => (.error e, s)
  | .ok (.stop code printed) => (.ok (code, printed), s)
  | .ok (.proceed shown) =>
    let (result, s) := applyPackageOperation svc d.applying op.name nameList opts s
    ((reportResult d.client.jsonMode op names result).map (fun r => (r.1, shown ++ r.2)), s)

/-- What nothing catches: an exception of the JSON library, or of the file system. -/
inductive Uncaught
  | json (e : TypeError)
  | filesystem
  deriving DecidableEq

/-- `PackageCommand::mutate`, of the arguments that were parsed. -/
def mutateCommand (op : Op) (parsed : Option MutateArgs) (s : σ) :
    Except Uncaught (Nat × List Printed) × σ :=
  match parsed with
  | none => (.ok (1, printError d.client.jsonMode "INVALID_ARGS" ("Usage: logosctl package " ++
      op.name ++ " <name|file.lgx ...> [--version V] [-y] [--dry-run]")), s)
  | some a =>
    match mutate d.host op a with
    | .error (.usage message) => (.ok (1, printError d.client.jsonMode "INVALID_ARGS" message), s)
    | .error .threw => (.error .filesystem, s)
    | .ok (names, localFiles) =>
      let ended := connected d.client s (planAndApply svc d op names (mutateOpts a localFiles) s)
      (ended.1.mapError .json, ended.2)

end Mutate

/-! ## 2. Only with consent -/

/-- What a plan would change. -/
def changesOf (plan : Json) : List Json := Commands.items ((plan.find? "changes").getD .null)

/-- A plan that is no error, and in which something changes. -/
def HasChange (plan : Json) : Prop :=
  plan.textOf "status" ≠ "error" ∧ ∃ ch ∈ changesOf plan, ch.textOf "action" ≠ "installed"

/-- Something is to be changed, and the user agrees to it. -/
def Consent.agrees (u : Consent) : Bool := !u.dryRun && (u.yes || confirm u)

section Receive

variable {jsonMode : Bool} {u : Consent} {op : Op} {plan : Json} {printed : List Printed}

theorem any_of_mapM {changes : List Json} : ∀ {actions : List String},
    changes.mapM (Json.valueStr · "action") = .ok actions →
      (actions.any (· ≠ "installed") = true ↔
        ∃ ch ∈ changes, ch.textOf "action" ≠ "installed") := by
  induction changes with
  | nil =>
    rintro actions ⟨⟩
    simp
  | cons ch changes ih =>
    intro actions h
    rw [List.mapM_cons] at h
    obtain ⟨action, haction, h⟩ := except_bind_eq_ok.mp h
    obtain ⟨rest, hrest, h⟩ := except_bind_eq_ok.mp h
    cases h
    have hhead := Commands.textOf_of_valueStr haction
    simp only [List.any_cons, Bool.or_eq_true, ih hrest, List.exists_mem_cons_iff, hhead,
      decide_eq_true_eq]

theorem anyChange_iff {changes : List Json} {any : Bool} (h : anyChange changes = .ok any) :
    any = true ↔ ∃ ch ∈ changes, ch.textOf "action" ≠ "installed" := by
  obtain ⟨actions, hactions, h⟩ := except_bind_eq_ok.mp h
  cases h
  exact any_of_mapM hactions

theorem askFirst_cases (shown : List Printed) :
    (u.yes || confirm u) = true ∧ (∃ shown', askFirst jsonMode u shown = .proceed shown') ∨
      (u.yes || confirm u) = false ∧ ∃ printed, askFirst jsonMode u shown = .stop 1 printed := by
  unfold askFirst
  cases u.yes with
  | true => exact Or.inl ⟨rfl, _, rfl⟩
  | false =>
    cases confirm u with
    | true => exact Or.inl ⟨rfl, _, rfl⟩
    | false => exact Or.inr ⟨rfl, _, rfl⟩

/-- What can come of a plan, said once: an error, nothing to do, a dry run, or the last question. -/
theorem receive_cases {r : Reception} (h : receive jsonMode u op plan = .ok r) :
    (∃ printed, r = .stop 1 printed) ∨
      plan.valueStr "status" ≠ .ok "error" ∧ ∃ st, plan.valueStr "status" = .ok st ∧
        ((¬ HasChange plan ∨ u.dryRun = true) ∧ (∃ printed, r = .stop 0 printed) ∨
          HasChange plan ∧ u.dryRun = false ∧ ∃ shown, r = askFirst jsonMode u shown) := by
  obtain ⟨st, hst, h⟩ := except_bind_eq_ok.mp h
  split at h
  · obtain ⟨code, -, h⟩ := except_bind_eq_ok.mp h
    obtain ⟨message, -, h⟩ := except_bind_eq_ok.mp h
    cases h
    exact Or.inl ⟨_, rfl⟩
  · next hne =>
    obtain ⟨any, hany, h⟩ := except_bind_eq_ok.mp h
    have hhas : any = true ↔ HasChange plan := by
      rw [anyChange_iff hany, HasChange, Commands.textOf_of_valueStr hst]
      exact (and_iff_right hne).symm
    refine Or.inr ⟨fun heq => hne (Except.ok.inj (hst.symm.trans heq)), st, hst, ?_⟩
    split at h
    · next hno =>
      cases h
      exact Or.inl ⟨Or.inl (hhas.not.mp (by simpa using hno)), _, rfl⟩
    · next hyes =>
      have hchange := hhas.mp (by simpa using hyes)
      cases hdry : u.dryRun with
      | true =>
        refine Or.inl ⟨Or.inr rfl, ?_⟩
        rw [hdry] at h
        split at h
        · cases h
          exact ⟨_, rfl⟩
        · obtain ⟨shown, -, h⟩ := except_bind_eq_ok.mp h
          cases h
          exact ⟨_, rfl⟩
      | false =>
        refine Or.inr ⟨hchange, rfl, ?_⟩
        rw [hdry] at h
        split at h
        · cases h
          exact ⟨_, rfl⟩
        · obtain ⟨shown, -, h⟩ := except_bind_eq_ok.mp h
          cases h
          exact ⟨_, rfl⟩

end Receive

/-- What a package command may do, given the two requests that it can send.  It has the daemon
change something only after a plan with a change in it, and with consent.  Zero is its exit code
when there was nothing to do or to be done, and when the change was reported as done. -/
structure Careful {σ : Type} (svc : Service σ) (d : Desk) (plan apply : CoreService.Request) (s : σ)
    {ε : Type} (ended : Except ε (Nat × List Printed) × σ) : Prop where
  steps : ended.2 = s ∨ ended.2 = (answer svc plan s).2 ∨
    d.client.fate = .answered ∧ HasChange (answer svc plan s).1 ∧ d.consent.agrees = true ∧
      ended.2 = (answer svc apply (answer svc plan s).2).2
  zero : ∀ printed, ended.1 = .ok (0, printed) →
    d.client.connecting.exitCode = 0 ∧ d.client.fate = .answered ∧
      ((¬ HasChange (answer svc plan s).1 ∨ d.consent.dryRun = true) ∧
          ended.2 = (answer svc plan s).2 ∨
        HasChange (answer svc plan s).1 ∧ d.consent.agrees = true ∧ d.applyFate = .answered ∧
          (answer svc apply (answer svc plan s).2).1.textOf "status" ≠ "error" ∧
          ended.2 = (answer svc apply (answer svc plan s).2).2)

/-- What a call brings back that may get lost: it is made once at most, and what is no error is its
answer. -/
structure Brings {σ : Type} (svc : Service σ) (c : Client) (r : CoreService.Request) (s : σ)
    (got : Json × σ) : Prop where
  atMostOnce : got.2 = s ∨ got.2 = (answer svc r s).2
  answered : ∀ st, got.1.valueStr "status" = .ok st → st ≠ "error" →
    c.fate = .answered ∧ got = answer svc r s

section Careful

variable {σ : Type} {svc : Service σ} {c : Client} {d : Desk} {op : Op} {names : List String}
  {opts : Json} {s : σ}

/-- The request that asks what would change. -/
def planRequest (op : Op) (names : List String) (opts : Json) : CoreService.Request :=
  .planPackageOperation op.name (.arr (names.map .str)) opts

/-- The request to change it. -/
def applyRequest (op : Op) (names : List String) (opts : Json) : CoreService.Request :=
  .applyPackageOperation op.name (.arr (names.map .str)) opts

theorem brings_invoke (call : String) (r : CoreService.Request) :
    Brings svc c r s (objectOr (rpcFailed call) (invoke svc c r.method r.args s).1,
      (invoke svc c r.method r.args s).2) where
  atMostOnce := Commands.invoke_atMostOnce r
  answered st hst hne := by
    obtain ⟨hfate, heq, hanswer⟩ := Commands.answered_of_objectOr hst hne
    have hstate : (invoke svc c r.method r.args s).2 = (answer svc r s).2 := congrArg Prod.snd heq
    exact ⟨hfate, Prod.ext hanswer hstate⟩

theorem brings_plan : Brings svc c (planRequest op names opts) s
    (planPackageOperation svc c op.name (.arr (names.map .str)) opts s) :=
  brings_invoke _ (planRequest op names opts)

theorem brings_apply : Brings svc c (applyRequest op names opts) s
    (applyPackageOperation svc c op.name (.arr (names.map .str)) opts s) :=
  brings_invoke _ (applyRequest op names opts)

theorem status_of_reportResult {jsonMode : Bool} {result : Json} {printed : List Printed}
    (h : reportResult jsonMode op names result = .ok (0, printed)) :
    ∃ st, result.valueStr "status" = .ok st ∧ st ≠ "error" := by
  obtain ⟨st, hst, h⟩ := except_bind_eq_ok.mp h
  refine ⟨st, hst, ?_⟩
  rintro rfl
  rw [if_pos rfl] at h
  obtain ⟨step, -, h⟩ := except_bind_eq_ok.mp h
  obtain ⟨reason, -, h⟩ := except_bind_eq_ok.mp h
  obtain ⟨code, -, h⟩ := except_bind_eq_ok.mp h
  cases h

theorem careful_planAndApply (hconn : d.client.connecting.exitCode = 0) :
    Careful svc d (planRequest op names opts) (applyRequest op names opts) s
      (planAndApply svc d op names opts s) := by
  have hplan := @brings_plan _ svc d.client op names opts s
  unfold planAndApply
  dsimp only
  cases hreceived : receive d.client.jsonMode d.consent op
      (planPackageOperation svc d.client op.name (.arr (names.map .str)) opts s).1 with
  | error e => exact ⟨hplan.atMostOnce.imp_right Or.inl, fun printed h => by cases h⟩
  | ok r =>
    rcases receive_cases hreceived with ⟨printed, rfl⟩ | ⟨hne, st, hst, hr⟩
    · exact ⟨hplan.atMostOnce.imp_right Or.inl, fun printed' h => by cases h⟩
    obtain ⟨hfate, heq⟩ := hplan.answered st hst fun herror => hne (herror ▸ hst)
    rw [heq] at hr ⊢
    rcases hr with ⟨hstop, printed, rfl⟩ | ⟨hchange, hdry, shown, rfl⟩
    · exact ⟨Or.inr (Or.inl rfl), fun printed' h => ⟨hconn, hfate, Or.inl ⟨hstop, rfl⟩⟩⟩
    rcases @askFirst_cases d.client.jsonMode d.consent shown with
      ⟨hyes, shown', hasked⟩ | ⟨hno, printed, hasked⟩
    · rw [hasked]
      have hagrees : d.consent.agrees = true := by simp [Consent.agrees, hdry, hyes]
      have happly := @brings_apply _ svc d.applying op names opts
        (answer svc (planRequest op names opts) s).2
      refine ⟨Or.inr (happly.atMostOnce.imp_right fun h => ⟨hfate, hchange, hagrees, h⟩), ?_⟩
      intro printed h
      obtain ⟨⟨code, printed'⟩, hresult, h⟩ := except_map_eq_ok.mp h
      obtain ⟨rfl, -⟩ := Prod.mk.inj h
      obtain ⟨st', hst', hne'⟩ := status_of_reportResult hresult
      obtain ⟨hfate', heq'⟩ := happly.answered st' hst' hne'
      refine ⟨hconn, hfate, Or.inr ⟨hchange, hagrees, hfate', ?_, congrArg Prod.snd heq'⟩⟩
      rw [← heq', Commands.textOf_of_valueStr hst']
      exact hne'
    · rw [hasked]
      exact ⟨Or.inr (Or.inl rfl), fun printed' h => by cases h⟩

/-- Without a connection nothing is asked. -/
theorem careful_connected {r r' : CoreService.Request} {run : Ended σ}
    (h : d.client.connecting.exitCode = 0 → Careful svc d r r' s run) :
    Careful svc d r r' s (connected d.client s run) := by
  unfold connected
  split
  · next herror =>
    refine ⟨Or.inl rfl, fun printed hended => ?_⟩
    exact absurd (Prod.mk.inj (Except.ok.inj hended)).1 (Commands.exitCode_of_error herror)
  · next herror => exact h (Commands.exitCode_of_no_error herror)

/-- A command that is not settled asks nothing. -/
theorem mutateCommand_unsettled {parsed : Option MutateArgs}
    (hno : ∀ a ∈ parsed, ∀ sent, mutate d.host op a ≠ .ok sent) :
    (mutateCommand svc d op parsed s).2 = s ∧
      ∀ printed, (mutateCommand svc d op parsed s).1 ≠ .ok (0, printed) := by
  unfold mutateCommand
  cases parsed with
  | none => exact ⟨rfl, fun printed h => by cases h⟩
  | some a =>
    cases hsettled : mutate d.host op a with
    | error refusal =>
      cases refusal with
      | usage message =>
        simp only [hsettled]
        exact ⟨trivial, fun printed h => by cases h⟩
      | threw =>
        simp only [hsettled]
        exact ⟨trivial, fun printed h => by cases h⟩
    | ok sent => exact absurd hsettled (hno a rfl sent)

/-- One that is settled is careful. -/
theorem careful_mutateCommand {a : MutateArgs} {localFiles : List String}
    (hsettled : mutate d.host op a = .ok (names, localFiles)) :
    Careful svc d (planRequest op names (mutateOpts a localFiles))
      (applyRequest op names (mutateOpts a localFiles)) s
      (mutateCommand svc d op (some a) s) := by
  have h : Careful svc d (planRequest op names (mutateOpts a localFiles))
      (applyRequest op names (mutateOpts a localFiles)) s
      (connected d.client s (planAndApply svc d op names (mutateOpts a localFiles) s)) :=
    careful_connected careful_planAndApply
  simp only [mutateCommand, hsettled]
  refine ⟨h.steps, fun printed hended => h.zero printed ?_⟩
  revert hended
  cases (connected d.client s (planAndApply svc d op names (mutateOpts a localFiles) s)).1 with
  | error e => exact fun hended => by cases hended
  | ok x =>
    intro hended
    cases hended
    rfl

/-- **Nothing is changed without consent**, whatever the daemon answers and whatever gets lost.  A
command that is not settled asks nothing; one that is settled is careful. -/
theorem changed_only_with_consent (svc : Service σ) (d : Desk) (op : Op)
    (parsed : Option MutateArgs) (s : σ) :
    ((∀ a ∈ parsed, ∀ sent, mutate d.host op a ≠ .ok sent) →
      (mutateCommand svc d op parsed s).2 = s ∧
        ∀ printed, (mutateCommand svc d op parsed s).1 ≠ .ok (0, printed)) ∧
    ∀ a ∈ parsed, ∀ names localFiles, mutate d.host op a = .ok (names, localFiles) →
      Careful svc d (planRequest op names (mutateOpts a localFiles))
        (applyRequest op names (mutateOpts a localFiles)) s
        (mutateCommand svc d op parsed s) := by
  refine ⟨mutateCommand_unsettled, ?_⟩
  rintro a ⟨⟩ names localFiles hsettled
  exact careful_mutateCommand hsettled

end Careful

/-! ## 3. The daemon behind the wire -/

/-- A member of a map that may be absent. -/
def optionalField {α : Type} (key : String) (toJson : α → Json) (x : Option α) :
    List (String × Json) :=
  x.toList.map fun v => (key, toJson v)

def strings (xs : List String) : Json := .arr (xs.map .str)

/-- A report as it goes over the wire, members in key order. -/
def reportJson (r : Report) : Json :=
  .obj ([("affected_loaded", strings r.affectedLoaded),
      ("changes", .arr (r.changes.map Change.toJson))] ++
    optionalField "error" .str r.error ++ optionalField "failed_step" .str r.failedStep ++
    optionalField "installed" strings r.installed ++ [("op", .str r.op.name)] ++
    optionalField "reloaded" strings r.reloaded ++ optionalField "removed" strings r.removed ++
    [("status", .str (if r.status = .ok then "ok" else "error"))])

def answerJson : Answer → Json
  | .err code message =>
    .obj [("code", .str code), ("message", .str message), ("status", .str "error")]
  | .report r => reportJson r

section Service

variable (env : Env)

/-- What `planPackageOperation` and `applyPackageOperation` share: the operation, its names and its
options are read first. -/
def packageOperation (run : Op → List String → Options → M Answer) (op : String)
    (names opts : Json) : M Json :=
  match toOp op with
  | none => return answerJson (.err "INVALID_ARGS" ("Unknown package operation: " ++ op))
  | some op => do
    let names ← read (toNames names)
    let opts ← read (toOptions opts)
    return answerJson (← run op names opts)

/-- The service of a daemon, as far as package operations go: the other methods are those of
`rest`. -/
def packageService (what : Exit → String) (rest : Service World) : Service World :=
  { rest with
    planPackageOperation := fun op names opts =>
      Commands.throwing what (packageOperation (plan env) op names opts)
    applyPackageOperation := fun op names opts =>
      Commands.throwing what (packageOperation (apply env) op names opts) }

end Service

/-- What a client gets of an operation, as JSON. -/
def wire (what : Exit → String) : Except Exit Answer → Json
  | .ok a => answerJson a
  | .error e => invalidArguments (what e)

section Wire

variable {env : Env} {what : Exit → String} {rest : Service World} {op : Op} {names : List String}
  {a : MutateArgs} {localFiles : List String} {w : World}

theorem settled_packageOperation (run : Op → List String → Options → M Answer) :
    settled ((Commands.throwing what (packageOperation run op.name (.arr (names.map .str))
      (mutateOpts a localFiles))).exec w) =
    (wire what ((run op names (a.options localFiles)).exec w).1,
      ((run op names (a.options localFiles)).exec w).2) := by
  have hnames : toNames (.arr (names.map .str)) = .ok names := mapM_getString names
  have hrun : (packageOperation run op.name (.arr (names.map .str))
      (mutateOpts a localFiles)).exec w =
        ((((run op names (a.options localFiles)).exec w).1).map answerJson,
          ((run op names (a.options localFiles)).exec w).2) := by
    rw [packageOperation, toOp_name, hnames, toOptions_mutateOpts]
    exact Prog.exec_bind_pure _ _ w
  rw [Commands.exec_throwing, hrun]
  cases ((run op names (a.options localFiles)).exec w).1 <;> rfl

theorem answer_plan :
    answer (packageService env what rest) (planRequest op names (mutateOpts a localFiles)) w =
      (wire what ((plan env op names (a.options localFiles)).exec w).1,
        ((plan env op names (a.options localFiles)).exec w).2) :=
  settled_packageOperation (plan env)

theorem answer_apply :
    answer (packageService env what rest) (applyRequest op names (mutateOpts a localFiles)) w =
      (wire what ((apply env op names (a.options localFiles)).exec w).1,
        ((apply env op names (a.options localFiles)).exec w).2) :=
  settled_packageOperation (apply env)

end Wire

/-! ## 4. How a command ends -/

/-- The exit code of a package command that is settled and connected, and what the daemon is then:
`plan` and `apply` are the daemon's, and `wire` has no part in it any more. -/
def outcome (env : Env) (d : Desk) (op : Op) (names : List String) (o : Options) (w : World) :
    Nat × World :=
  match d.client.fate, (plan env op names o).exec w with
  | .lost, _ => (1, w)
  | .unanswered, (_, w₁) => (1, w₁)
  | .answered, (.ok (.report p), w₁) =>
    if nothingToDo p || d.consent.dryRun then (0, w₁)
    else if d.consent.agrees then
      match d.applyFate, (apply env op names o).exec w₁ with
      | .lost, _ => (1, w₁)
      | .unanswered, (_, w₂) => (1, w₂)
      | .answered, (.ok (.report r), w₂) => (if r.status = .ok then 0 else 1, w₂)
      | .answered, (_, w₂) => (1, w₂)
    else (1, w₁)
  | .answered, (_, w₁) => (1, w₁)

section Exact

variable {env : Env} {what : Exit → String} {rest : Service World} {d : Desk} {op : Op}
  {names : List String} {a : MutateArgs} {localFiles : List String} {w : World}
  {jsonMode : Bool} {u : Consent} {r : Report} {key k : String}

theorem lookup_optionalField {α : Type} (toJson : α → Json) (x : Option α) :
    (optionalField key toJson x).lookup k = if k = key then x.map toJson else none := by
  cases x with
  | none => simp [optionalField]
  | some v =>
    simp only [optionalField, Option.toList_some, List.map_cons, List.map_nil, lookup_cons,
      List.lookup_nil, Option.map_some]

/-- The members of a report. -/
theorem find_reportJson (r : Report) :
    (reportJson r).find? "affected_loaded" = some (strings r.affectedLoaded) ∧
    (reportJson r).find? "changes" = some (.arr (r.changes.map Change.toJson)) ∧
    (reportJson r).find? "error" = r.error.map .str ∧
    (reportJson r).find? "failed_step" = r.failedStep.map .str ∧
    (reportJson r).find? "installed" = r.installed.map strings ∧
    (reportJson r).find? "reloaded" = r.reloaded.map strings ∧
    (reportJson r).find? "removed" = r.removed.map strings ∧
    (reportJson r).find? "status" = some (.str (if r.status = .ok then "ok" else "error")) ∧
    (reportJson r).find? "message" = none ∧ (reportJson r).find? "code" = none := by
  simp only [reportJson, Json.find?, List.lookup_append, lookup_cons, List.lookup_nil,
    lookup_optionalField]
  simp

theorem valueStr_of_find {j : Json} {x : Option String} {dflt : String} (hobj : j.isObject = true)
    (h : j.find? key = x.map .str) : j.valueStr key dflt = .ok (x.getD dflt) := by
  cases j with
  | obj kvs =>
    have hlookup : kvs.lookup key = x.map .str := h
    cases x <;> simp [Json.valueStr, Json.value, hlookup, Json.getString]
  | null | bool | int | float | str | arr => cases hobj

theorem namesOf_of_find {j : Json} {x : Option (List String)} (hobj : j.isObject = true)
    (h : j.find? key = x.map strings) : namesOf j key = .ok (x.getD []) := by
  cases j with
  | obj kvs =>
    have hlookup : kvs.lookup key = x.map strings := h
    cases x with
    | none => simp [namesOf, Json.value, hlookup, Json.elems, bind, Except.bind, pure, Except.pure]
    | some xs =>
      simp only [namesOf, Json.value, hlookup, Option.map_some, Json.getJson, strings, Json.elems,
        bind, Except.bind]
      exact mapM_getString xs
  | null | bool | int | float | str | arr => cases hobj

/-- An answer that reports an error, in words that can be read. -/
structure Refused (j : Json) : Prop where
  status : j.valueStr "status" = .ok "error"
  code : ∃ code, ∀ dflt, j.valueStr "code" dflt = .ok code
  message : ∃ message, j.valueStr "message" = .ok message
  step : j.valueStr "failed_step" = .ok ""
  error : j.valueStr "error" = .ok ""

theorem refused_error (code message : String) :
    Refused (.obj [("code", .str code), ("message", .str message), ("status", .str "error")]) :=
  ⟨rfl, ⟨code, fun _ => rfl⟩, ⟨message, rfl⟩, rfl, rfl⟩

/-- What comes back that is no report is refused. -/
theorem refused_wire {res : Except Exit Answer} (h : ∀ p, res ≠ .ok (.report p)) :
    Refused (wire what res) := by
  cases res with
  | error e => exact refused_error _ _
  | ok answered =>
    cases answered with
    | err code message => exact refused_error code message
    | report p => exact absurd rfl (h p)

theorem receive_refused {plan : Json} (h : Refused plan) :
    ∃ printed, receive jsonMode u op plan = .ok (.stop 1 printed) := by
  obtain ⟨code, hcode⟩ := h.code
  obtain ⟨message, hmessage⟩ := h.message
  simp only [receive, h.status, hcode, hmessage, bind, Except.bind, if_true]
  exact ⟨_, rfl⟩

theorem reportResult_refused {result : Json} (h : Refused result) :
    ∃ printed, reportResult jsonMode op names result = .ok (1, printed) := by
  obtain ⟨code, hcode⟩ := h.code
  obtain ⟨message, hmessage⟩ := h.message
  have hreason : ∃ reason, reasonOf result = .ok reason := by
    simp only [reasonOf, h.error, hmessage, bind, Except.bind]
    exact ⟨_, rfl⟩
  obtain ⟨reason, hreason⟩ := hreason
  simp only [reportResult, h.status, h.step, hreason, hcode, bind, Except.bind, if_true]
  exact ⟨_, rfl⟩

theorem action_toJson (ch : Change) : ch.toJson.valueStr "action" = .ok ch.action.name := by
  obtain ⟨name, action, fromVersion, toVersion, origin⟩ := ch
  cases origin <;> rfl

theorem anyChange_toJson (changes : List Change) :
    anyChange (changes.map Change.toJson) =
      .ok (changes.any fun ch => ch.action.name != "installed") := by
  have hactions : (changes.map Change.toJson).mapM (Json.valueStr · "action") =
      .ok (changes.map (·.action.name)) := by
    induction changes with
    | nil => rfl
    | cons ch changes ih =>
      rw [List.map_cons, List.mapM_cons, action_toJson, ih]
      rfl
  simp only [anyChange, hactions, bind, Except.bind, pure, Except.pure, List.any_map]
  congr 2
  funext ch
  simp [bne, Bool.beq_eq_decide_eq]

theorem changeLine_toJson (ch : Change) : ∃ line, changeLine ch.toJson = .ok line := by
  unfold changeLine
  rw [action_toJson]
  simp only [bind, Except.bind]
  split
  · exact ⟨_, rfl⟩
  · obtain ⟨name, action, fromVersion, toVersion, origin⟩ := ch
    cases origin <;> exact ⟨_, rfl⟩

/-- The plan of the daemon can be shown to a person. -/
theorem showPlan_reportJson : ∃ printed,
    showPlan op (reportJson r) (r.changes.map Change.toJson) = .ok printed := by
  have hlines : ∀ changes : List Change,
      ∃ lines, (changes.map Change.toJson).mapM changeLine = .ok lines := by
    intro changes
    induction changes with
    | nil => exact ⟨[], rfl⟩
    | cons ch changes ih =>
      obtain ⟨line, hline⟩ := changeLine_toJson ch
      obtain ⟨lines, hlines⟩ := ih
      rw [List.map_cons, List.mapM_cons, hline, hlines]
      exact ⟨_, rfl⟩
  obtain ⟨lines, hlines⟩ := hlines r.changes
  have haffected : (((reportJson r).find? "affected_loaded").getD .null).elems.mapM
      Json.getString = .ok r.affectedLoaded := by
    rw [(find_reportJson r).1]
    exact mapM_getString _
  simp only [showPlan, hlines, haffected, bind, Except.bind]
  exact ⟨_, rfl⟩

/-- How the daemon's plan is received. -/
theorem receive_reportJson (hok : r.status = .ok) : ∃ received,
    receive jsonMode u op (reportJson r) = .ok received ∧
      if nothingToDo r || u.dryRun then ∃ printed, received = .stop 0 printed
      else ∃ shown, received = askFirst jsonMode u shown := by
  obtain ⟨-, hchanges, -, -, -, -, -, hfind, -, -⟩ := find_reportJson r
  have hstatus : (reportJson r).valueStr "status" = .ok "ok" :=
    @valueStr_of_find "status" _ (some "ok") "" rfl (by simp [hfind, hok])
  obtain ⟨shown, hshown⟩ := @showPlan_reportJson op r
  have hcontains : (reportJson r).contains "changes" = true := by rw [Json.contains, hchanges]; rfl
  have hitems : Commands.items (((reportJson r).find? "changes").getD .null) =
      r.changes.map Change.toJson := by rw [hchanges]; rfl
  have hno : nothingToDo r = !r.changes.any fun ch => ch.action.name != "installed" := rfl
  unfold receive
  simp only [hstatus, hcontains, hitems, anyChange_toJson, hshown, bind, Except.bind, if_true, hno]
  cases r.changes.any fun ch => ch.action.name != "installed" with
  | false => exact ⟨_, rfl, by simp⟩
  | true =>
    cases u.dryRun <;> cases jsonMode <;> exact ⟨_, rfl, by simp⟩

/-- How the daemon's report is reported. -/
theorem reportResult_reportJson : ∃ printed,
    reportResult jsonMode op names (reportJson r) =
      .ok (if r.status = .ok then 0 else 1, printed) := by
  obtain ⟨-, -, herror, hstep, hinstalled, hreloaded, hremoved, hfind, hmessage, hcode⟩ :=
    find_reportJson r
  have hstatus := @valueStr_of_find "status" _ (some (if r.status = .ok then "ok" else "error"))
    "" rfl hfind
  unfold reportResult
  simp only [hstatus, valueStr_of_find rfl hstep, valueStr_of_find rfl herror,
    @valueStr_of_find "code" _ none _ rfl hcode, @valueStr_of_find "message" _ none "" rfl hmessage,
    namesOf_of_find rfl hinstalled, namesOf_of_find rfl hremoved, namesOf_of_find rfl hreloaded,
    reasonOf, bind, Except.bind, Option.getD_some]
  by_cases hok : r.status = .ok
  · cases jsonMode <;> simp [hok, pure, Except.pure]
  · by_cases hempty : (r.error.getD "").isEmpty = true <;> simp [hok, hempty, pure, Except.pure]

theorem isObject_wire (res : Except Exit Answer) : (wire what res).isObject = true := by
  cases res with
  | error e => rfl
  | ok answered => cases answered <;> rfl

theorem got_plan (c : Client) :
    planPackageOperation (packageService env what rest) c op.name (.arr (names.map .str))
      (mutateOpts a localFiles) w =
    match c.fate, (plan env op names (a.options localFiles)).exec w with
    | .lost, _ => (rpcFailed ("planPackageOperation('" ++ op.name ++ "')"), w)
    | .unanswered, (_, w₁) => (rpcFailed ("planPackageOperation('" ++ op.name ++ "')"), w₁)
    | .answered, (res, w₁) => (wire what res, w₁) := by
  refine (Commands.got_of_answer _ answer_plan (isObject_wire _)).trans ?_
  cases c.fate <;> rfl

theorem got_apply (c : Client) :
    applyPackageOperation (packageService env what rest) c op.name (.arr (names.map .str))
      (mutateOpts a localFiles) w =
    match c.fate, (apply env op names (a.options localFiles)).exec w with
    | .lost, _ => (rpcFailed ("applyPackageOperation('" ++ op.name ++ "')"), w)
    | .unanswered, (_, w₁) => (rpcFailed ("applyPackageOperation('" ++ op.name ++ "')"), w₁)
    | .answered, (res, w₁) => (wire what res, w₁) := by
  refine (Commands.got_of_answer _ answer_apply (isObject_wire _)).trans ?_
  cases c.fate <;> rfl

theorem refused_rpcFailed (call : String) : Refused (rpcFailed call) := refused_error _ _

/-- The end of the second half, once the plan has been agreed to. -/
theorem ends_applying (w₁ : World) (shown : List Printed) : ∃ printed,
    ((reportResult d.client.jsonMode op names
        (applyPackageOperation (packageService env what rest) d.applying op.name
          (.arr (names.map .str)) (mutateOpts a localFiles) w₁).1).map
        (fun r => (r.1, shown ++ r.2)),
      (applyPackageOperation (packageService env what rest) d.applying op.name
        (.arr (names.map .str)) (mutateOpts a localFiles) w₁).2) =
    match d.applyFate, (apply env op names (a.options localFiles)).exec w₁ with
    | .lost, _ => (.ok (1, printed), w₁)
    | .unanswered, (_, w₂) => (.ok (1, printed), w₂)
    | .answered, (.ok (.report r), w₂) => (.ok (if r.status = .ok then 0 else 1, printed), w₂)
    | .answered, (_, w₂) => (.ok (1, printed), w₂) := by
  have hlost := @reportResult_refused op names d.client.jsonMode _
    (refused_rpcFailed ("applyPackageOperation('" ++ op.name ++ "')"))
  rw [got_apply]
  obtain ⟨res, w₂⟩ := (apply env op names (a.options localFiles)).exec w₁
  have hfate : d.applying.fate = d.applyFate := rfl
  rw [hfate]
  cases d.applyFate with
  | lost =>
    obtain ⟨printed, hprinted⟩ := hlost
    exact ⟨shown ++ printed, by simp only [hprinted]; rfl⟩
  | unanswered =>
    obtain ⟨printed, hprinted⟩ := hlost
    exact ⟨shown ++ printed, by simp only [hprinted]; rfl⟩
  | answered =>
    have hrefused : (∀ p, res ≠ .ok (.report p)) → ∃ printed,
        reportResult d.client.jsonMode op names (wire what res) = .ok (1, printed) :=
      fun h => reportResult_refused (refused_wire h)
    cases res with
    | error e =>
      obtain ⟨printed, hprinted⟩ := hrefused (by simp)
      exact ⟨shown ++ printed, by simp only [hprinted]; rfl⟩
    | ok answered =>
      cases answered with
      | err code message =>
        obtain ⟨printed, hprinted⟩ := hrefused (by simp)
        exact ⟨shown ++ printed, by simp only [hprinted]; rfl⟩
      | report r =>
        obtain ⟨printed, hprinted⟩ := @reportResult_reportJson op names d.client.jsonMode r
        exact ⟨shown ++ printed, by simp only [wire, answerJson, hprinted]; rfl⟩

theorem ends_planAndApply : ∃ printed,
    planAndApply (packageService env what rest) d op names (mutateOpts a localFiles) w =
      (.ok ((outcome env d op names (a.options localFiles) w).1, printed),
        (outcome env d op names (a.options localFiles) w).2) := by
  have hlost := @receive_refused op d.client.jsonMode d.consent _
    (refused_rpcFailed ("planPackageOperation('" ++ op.name ++ "')"))
  unfold planAndApply outcome
  dsimp only
  rw [got_plan]
  cases hplan : (plan env op names (a.options localFiles)).exec w with
  | mk res w₁ =>
    cases d.client.fate with
    | lost =>
      obtain ⟨printed, hprinted⟩ := hlost
      exact ⟨printed, by simp only [hprinted]⟩
    | unanswered =>
      obtain ⟨printed, hprinted⟩ := hlost
      exact ⟨printed, by simp only [hprinted]⟩
    | answered =>
      have hrefused : (∀ p, res ≠ .ok (.report p)) → ∃ printed,
          receive d.client.jsonMode d.consent op (wire what res) = .ok (.stop 1 printed) :=
        fun h => receive_refused (refused_wire h)
      cases res with
      | error e =>
        obtain ⟨printed, hprinted⟩ := hrefused (by simp)
        exact ⟨printed, by simp only [hprinted]⟩
      | ok answered =>
        cases answered with
        | err code message =>
          obtain ⟨printed, hprinted⟩ := hrefused (by simp)
          exact ⟨printed, by simp only [hprinted]⟩
        | report p =>
          obtain ⟨received, hreceived, hends⟩ :=
            @receive_reportJson op d.client.jsonMode d.consent p (plan_report hplan).1
          simp only [wire, answerJson, hreceived]
          by_cases hstop : (nothingToDo p || d.consent.dryRun) = true
          · rw [if_pos hstop] at hends ⊢
            obtain ⟨printed, rfl⟩ := hends
            exact ⟨printed, rfl⟩
          · rw [if_neg hstop] at hends ⊢
            obtain ⟨shown, rfl⟩ := hends
            have hdry : d.consent.dryRun = false := by
              simp only [Bool.or_eq_true, not_or, Bool.not_eq_true] at hstop
              exact hstop.2
            rcases @askFirst_cases d.client.jsonMode d.consent shown with
              ⟨hyes, shown', hasked⟩ | ⟨hno, printed, hasked⟩
            · have hagrees : d.consent.agrees = true := by simp [Consent.agrees, hdry, hyes]
              obtain ⟨printed, hprinted⟩ := @ends_applying env what rest d op names a localFiles w₁
                shown'
              refine ⟨printed, ?_⟩
              simp only [hasked, hagrees, if_true]
              refine hprinted.trans ?_
              obtain ⟨res, w₂⟩ := (apply env op names (a.options localFiles)).exec w₁
              cases d.applyFate with
              | lost | unanswered => rfl
              | answered =>
                cases res with
                | error e => rfl
                | ok answered => cases answered <;> rfl
            · have hagrees : d.consent.agrees = false := by simp [Consent.agrees, hno]
              refine ⟨printed, ?_⟩
              simp only [hasked, hagrees, Bool.false_eq_true, if_false]

/-- **How every package command ends.**  The exit code is 2 without a connection.  Else it is zero
when the plan was answered and had no change in it or was all that was asked for, and when it was
agreed to and its change was answered as done; the daemon has planned when the first call arrived,
and applied when there was consent and the second one arrived. -/
theorem mutate_exact (hsettled : mutate d.host op a = .ok (names, localFiles)) : ∃ printed,
    mutateCommand (packageService env what rest) d op (some a) w =
      if d.client.connecting.exitCode ≠ 0 then (.ok (2, printed), w)
      else (.ok ((outcome env d op names (a.options localFiles) w).1, printed),
        (outcome env d op names (a.options localFiles) w).2) := by
  obtain ⟨printed, hended⟩ := Commands.ends_connected (c := d.client) (s := w)
    (@ends_planAndApply env what rest d op names a localFiles w)
  refine ⟨printed, ?_⟩
  simp only [mutateCommand, hsettled, hended]
  split <;> rfl

/-- `app` is installed, and nothing depends on it. -/
def onlyApp : Env :=
  { CoreService.publishesNothing with
    reply := fun n => .ok (.arr (if n = 0 then
      [.obj [("name", .str "app"), ("version", .str "1.0")]] else [])) }

/-- A script that forgot `--yes`. -/
def forgetful : Desk where
  client := Commands.scripted
  applyFate := .answered
  host := ⟨some "/home", fun _ => false, fun _ => false, fun _ => []⟩
  consent := {}

theorem mutate_forgetful : ∃ printed,
    (mutateCommand (packageService onlyApp (fun _ => "type error") (Commands.saysOk World))
      forgetful .remove (some { names := ["app"] }) ⟨["app"], 0, []⟩).1 = .ok (1, printed) := by
  obtain ⟨printed, h⟩ := @mutate_exact onlyApp (fun _ => "type error") (Commands.saysOk World)
    forgetful .remove ["app"] { names := ["app"] } [] ⟨["app"], 0, []⟩ rfl
  exact ⟨printed, congrArg Prod.fst h⟩

/-- **Without consent the daemon keeps what it has.**  What is loaded stays loaded, and its modules
are only asked what a plan asks. -/
theorem kept_without_consent (parsed : Option MutateArgs) (h : d.consent.agrees = false) :
    (mutateCommand (packageService env what rest) d op parsed w).2.loaded = w.loaded ∧
      Performs env planFootprint.Allows w
        (mutateCommand (packageService env what rest) d op parsed w).2 := by
  have hperforms : Performs env planFootprint.Allows w
      (mutateCommand (packageService env what rest) d op parsed w).2 := by
    by_cases hno : ∀ a ∈ parsed, ∀ sent, mutate d.host op a ≠ .ok sent
    · rw [(mutateCommand_unsettled hno).1]
      exact Performs.refl w
    · push Not at hno
      obtain ⟨a, rfl, ⟨names, localFiles⟩, hsettled⟩ := hno
      rcases (careful_mutateCommand hsettled).steps with heq | heq | ⟨-, -, hagrees, -⟩
      · rw [heq]
        exact Performs.refl w
      · rw [heq, answer_plan]
        exact (does_plan op names (a.options localFiles) w).1
      · exact absurd hagrees (by simp [h])
  exact ⟨Performs.loaded_eq rfl rfl hperforms, hperforms⟩

theorem kept_forgetful :
    (mutateCommand (packageService onlyApp (fun _ => "type error") (Commands.saysOk World))
      forgetful .remove (some { names := ["app"] }) ⟨["app"], 0, []⟩).2.loaded = ["app"] :=
  (kept_without_consent _ rfl).1

end Exact

end Logosctl.PackageCommand
