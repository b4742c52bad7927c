/-
# Package operations: what the daemon plans and what it applies

`plan` works out what an install, an upgrade or a removal would change, from what is installed
and what the resolver answers; `apply` plans and then carries it out.  For an install or an
upgrade that means, for each package asked for, to open the package manager's gate, stop every
running module the plan touches, and confirm; then to download and install; and last to restart
what was stopped.

Three exits are kept apart.  `Exit.threw` is an exception out of a JSON read.  `Exit.returned` is
an early `return`, which carries the answer the caller gets.  A run that reaches the end answers
with its report.
-/
import Logosctl.Runtime

namespace Logosctl.PackageOps

open Library

/-! ## 1. Requests and answers -/

inductive Op
  | install
  | upgrade
  | remove
  deriving DecidableEq, Repr

def Op.name : Op → String
  | .install => "install"
  | .upgrade => "upgrade"
  | .remove => "remove"

structure Options where
  withDeps : Bool := true
  withDependents : Bool := true
  version : String := ""
  rootHash : String := ""
  catalog : String := ""
  localFiles : List String := []

/-- What would happen to one package. -/
inductive Action
  | install
  | installed
  | reinstall
  | upgrade
  | remove
  deriving DecidableEq, Repr

def Action.name : Action → String
  | .install => "install"
  | .installed => "installed"
  | .reinstall => "reinstall"
  | .upgrade => "upgrade"
  | .remove => "remove"

/-- The members of a change that depend on where it comes from. -/
inductive Origin
  | removal
  | localFile (file signature : String)
  | catalog (repository : String) (topLevel : Bool)
  deriving DecidableEq, Repr

structure Change where
  name : String
  action : Action
  fromVersion : String
  toVersion : String
  origin : Origin
  deriving DecidableEq, Repr

/-- `value("file", "")` on a change. -/
def Change.file (c : Change) : String :=
  match c.origin with
  | .localFile file _ => file
  | _ => ""

/-- A change as a JSON object, members in key order. -/
def Change.toJson (c : Change) : Json :=
  match c.origin with
  | .removal => .obj [("action", .str c.action.name), ("fromVersion", .str c.fromVersion),
      ("name", .str c.name), ("toVersion", .str c.toVersion)]
  | .localFile file signature => .obj [("action", .str c.action.name), ("file", .str file),
      ("fromVersion", .str c.fromVersion), ("name", .str c.name), ("signature", .str signature),
      ("toVersion", .str c.toVersion)]
  | .catalog repository topLevel => .obj [("action", .str c.action.name),
      ("fromVersion", .str c.fromVersion), ("name", .str c.name), ("repository", .str repository),
      ("toVersion", .str c.toVersion), ("topLevel", .bool topLevel)]

inductive Status
  | ok
  | error
  deriving DecidableEq, Repr

/-- The map `plan` and `apply` build up; the optional members are absent until they are set. -/
structure Report where
  status : Status := .ok
  op : Op
  changes : List Change
  affectedLoaded : List String
  installed : Option (List String) := none
  removed : Option (List String) := none
  reloaded : Option (List String) := none
  failedStep : Option String := none
  error : Option String := none
  deriving DecidableEq, Repr

/-- What the caller gets: the `{status: error, code, message}` map, or the report. -/
inductive Answer
  | err (code message : String)
  | report (r : Report)
  deriving DecidableEq, Repr

/-- `value("status", "") == "error"`. -/
def Answer.isError : Answer → Bool
  | .err _ _ => true
  | .report r => r.status == .error

/-- The two ways out of the middle of an operation. -/
inductive Exit
  | threw (e : TypeError)
  | returned (a : Answer)
  deriving DecidableEq, Repr

abbrev M := Prog World Exit

/-- A JSON read, whose exception leaves the operation. -/
def read {α : Type} (x : Except TypeError α) : M α := Prog.lift Exit.threw x

/-- Where a function returns to its caller: an early `return` is an ordinary answer there. -/
def catchReturn (p : M Answer) : M Answer := fun w =>
  match p w with
  | (.error (.returned a), w') => (.ok a, w')
  | r => r

/-! ## 2. Reading replies -/

def withReason (base why : String) : String :=
  if why.isEmpty then base else base ++ ": " ++ why

/-- `ok(r, &e)`: whether the module answered success, and the reason when it did not. -/
def ok (r : Json) : Except TypeError (Bool × String) :=
  if !r.isObject then .ok (false, "module did not respond")
  else do
    if ← r.valueBool "success" false then .ok (true, "")
    else
      let message ← r.valueStr "message" "unknown error"
      .ok (false, ← r.valueStr "error" message)

def installedPackages (env : Env) : M (List Json) := do
  let (r, _) ← call env kPackageManager "getInstalledPackages" []
  return r.elems

/-- `p["hashes"].value("root", "")`, when the package carries hashes. -/
def rootHashOf (p : Json) : Except TypeError String :=
  match p.find? "hashes" with
  | some (.obj kvs) => Json.valueStr (.obj kvs) "root"
  | _ => .ok ""

/-- `[{name, rootHash, version}]`, what the resolver needs to skip what is already installed. -/
def installedPackagesJson (installed : List Json) : Except TypeError Json := do
  let out ← installed.mapM fun p => do
    let name ← p.valueStr "name"
    let version ← p.valueStr "version"
    let rootHash ← rootHashOf p
    return Json.obj [("name", .str name), ("rootHash", .str rootHash), ("version", .str version)]
  return .arr out

/-- The dependency form the resolver expects: a bare name, or `{name, version}` when the caller
pinned one. -/
def dependenciesJson (names : List String) (opts : Options) : Json :=
  .arr (names.map fun n =>
    if opts.version.isEmpty then .str n
    else .obj [("name", .str n), ("version", .str opts.version)])

def depAction (installedVersion resolvedVersion installedHash resolvedHash : String) : Action :=
  if installedVersion.isEmpty then .install
  else if installedVersion ≠ resolvedVersion then .upgrade
  else if ¬ resolvedHash.isEmpty ∧ ¬ installedHash.isEmpty ∧ installedHash ≠ resolvedHash then
    .reinstall
  else .installed

structure InstalledInfo where
  version : String
  rootHash : String

/-- The installed packages by name; of two entries with one name the later one counts, so later
entries go in front. -/
def byName (installed : List Json) : Except TypeError (List (String × InstalledInfo)) :=
  installed.foldlM (fun m p => do
    let version ← p.valueStr "version"
    let rootHash ← rootHashOf p
    let name ← p.valueStr "name"
    return (name, ⟨version, rootHash⟩) :: m) []

/-- Which of `affected` are running right now. -/
def affectedLoaded (loaded affected : List String) : List String :=
  affected.filter (loaded.contains ·)

/-! ## 3. Planning -/

/-- Resolve the install or upgrade closure: the resolver's array, or `none` and the reason. -/
def resolveClosure (env : Env) (names : List String) (opts : Options) (installed : List Json) :
    M (Option (List Json) × String) := do
  if !opts.withDeps then
    let (r, why) ← call env kPackageDownloader "resolveDependencies"
      [.str (env.dump (dependenciesJson names opts)), .str ""]
    match r with
    | .arr es =>
      let filtered ← read (es.filterM fun e => e.valueBool "topLevel" false)
      return (some filtered, why)
    | _ => return (none, why)
  else
    let installedJson ← read (installedPackagesJson installed)
    let (r, why) ← call env kPackageDownloader "resolveDependencies"
      [.str (env.dump (dependenciesJson names opts)), .str (env.dump installedJson)]
    match r with
    | .arr es => return (some es, why)
    | _ => return (none, why)

/-- The cascade set of a removal, dependents first and the target last; empty with a reason when
it could not be resolved. -/
def removalSet (env : Env) (name : String) (withDependents : Bool) : M (List String × String) := do
  if !withDependents then return ([name], "")
  let (r, _) ← call env kPackageManager "resolveFlatDependents" [.str name, .bool true]
  match r with
  | .arr ds =>
    let dependents ← read (ds.mapM fun d => d.valueStr "name")
    return (dependents.filter (fun dn => !dn.isEmpty && dn != name) ++ [name], "")
  | _ => return ([], "could not resolve dependents of '" ++ name ++ "'")

/-- The changes of a removal and the packages affected, continuing from what was found so far. -/
def planRemove (env : Env) (installedByName : List (String × InstalledInfo))
    (withDependents : Bool) :
    List String → List Change × List String → M (List Change × List String)
  | [], acc => return acc
  | n :: ns, acc =>
    if (installedByName.lookup n).isNone then
      throw (.returned (.err "PACKAGE_NOT_INSTALLED"
        ("Package '" ++ n ++ "' is not installed.")))
    else do
      let (set, e) ← removalSet env n withDependents
      if set.isEmpty then throw (.returned (.err "RESOLVE_FAILED" e))
      else
        planRemove env installedByName withDependents ns
          (set.foldl (fun (changes, affected) r =>
            if affected.contains r then (changes, affected)
            else
              let version := ((installedByName.lookup r).map (·.version)).getD ""
              (changes ++ [⟨r, .remove, version, "", .removal⟩], affected ++ [r])) acc)

/-- The change that installing the inspected file `f` stands for. -/
def planInspected (f : String) (info : Json) : Except TypeError Change := do
  let n ← info.valueStr "name"
  let v ← info.valueStr "version"
  let iv ← info.valueStr "installedVersion"
  let isInstalled ← info.valueBool "isAlreadyInstalled" false
  let signature ← info.valueStr "signatureStatus"
  let action := if isInstalled then (if iv == v then Action.reinstall else .upgrade) else .install
  return ⟨n, action, iv, v, .localFile f signature⟩

/-- The changes that installing the given local files would make, and the packages affected. -/
def planLocal (env : Env) : List String → M (List Change × List String)
  | [] => return ([], [])
  | f :: fs => do
    let (info, why) ← call env kPackageManager "inspectPackage" [.str f]
    if !info.isObject then
      throw (.returned (.err "INSPECT_FAILED"
        (withReason ("Could not inspect '" ++ f ++ "'") why)))
    else do
      let error ← read (if info.contains "error" then info.valueStr "error" else .ok "")
      if !error.isEmpty then throw (.returned (.err "INSPECT_FAILED" error))
      else do
        let c ← read (planInspected f info)
        let (changes, affected) ← planLocal env fs
        return (c :: changes, c.name :: affected)

/-- The change one entry of the resolver's answer stands for. -/
def planEntry (installedByName : List (String × InstalledInfo)) (e : Json) :
    Except TypeError (Except String Change) := do
  -- the resolver reports unsatisfiable constraints inline
  if e.contains "error" then
    let n ← e.valueStr "name" "?"
    let error ← e.valueStr "error"
    return .error ("Cannot resolve '" ++ n ++ "': " ++ error)
  let n ← e.valueStr "name"
  let rv ← e.valueStr "version"
  let rh ← e.valueStr "rootHash"
  let info := (installedByName.lookup n).getD ⟨"", ""⟩
  let repository ← e.valueStr "repositoryUrl"
  let topLevel ← e.valueBool "topLevel" false
  return .ok ⟨n, depAction info.version rv info.rootHash rh, info.version, rv,
    .catalog repository topLevel⟩

/-- The changes of the resolver's answer, and the packages that are not already as resolved. -/
def planResolved (installedByName : List (String × InstalledInfo)) :
    List Json → M (List Change × List String)
  | [] => return ([], [])
  | e :: es => do
    match ← read (planEntry installedByName e) with
    | .error message => throw (.returned (.err "RESOLVE_FAILED" message))
    | .ok c =>
      let (changes, affected) ← planResolved installedByName es
      return (c :: changes, if c.action = .installed then affected else c.name :: affected)

/-- The changes the operation would make, and the packages affected. -/
def planChanges (env : Env) (op : Op) (names : List String) (opts : Options)
    (installed : List Json) (installedByName : List (String × InstalledInfo)) :
    M (List Change × List String) :=
  if op = .remove then planRemove env installedByName opts.withDependents names ([], [])
  else if !opts.localFiles.isEmpty then planLocal env opts.localFiles
  else do
    let (resolved, why) ← resolveClosure env names opts installed
    match resolved with
    | none => throw (.returned (.err "RESOLVE_FAILED" (withReason
        ("Could not resolve packages from the catalog. Check that a catalog is configured " ++
          "and reachable (`catalog ls`, `catalog refresh`)") why)))
    | some es => planResolved installedByName es

/-- The body of `plan`, early exits included. -/
def planBody (env : Env) (op : Op) (names : List String) (opts : Options) : M Answer := do
  let installed ← installedPackages env
  let installedByName ← read (byName installed)
  let (changes, affected) ← planChanges env op names opts installed installedByName
  let loaded ← loadedModules
  return .report { op, changes, affectedLoaded := affectedLoaded loaded affected }

/-- `plan`: what the operation would do, without doing any of it. -/
def plan (env : Env) (op : Op) (names : List String) (opts : Options) : M Answer :=
  catchReturn (planBody env op names opts)

/-! ## 4. Applying -/

/-- The report so far, marked as failed. -/
def failure (r : Report) (step message : String) : Exit :=
  .returned (.report { r with status := .error, failedStep := some step, error := some message })

/-- `return fail(step, message)`. -/
def fail {α : Type} (r : Report) (step message : String) : M α := throw (failure r step message)

/-- The method and arguments that ask for a gate. -/
def requestCall : Op → String → String → String × List Json
  | .install, name, depChangesJson =>
    ("requestInstall", [.str name, .str "", .str "", .str depChangesJson])
  | .upgrade, name, depChangesJson =>
    ("requestUpgrade", [.str name, .str "", .int 0, .str depChangesJson])
  | .remove, name, _ => ("requestUninstall", [.str name])

/-- The method and arguments that withdraw a gate. -/
def cancelCall : Op → String → String × List Json
  | .install, name => ("cancelInstall", [.str name])
  | .upgrade, name => ("cancelUpgrade", [.str name, .str ""])
  | .remove, name => ("cancelUninstall", [.str name])

/-- The method and arguments that confirm a gate: `confirmUpgrade` removes the old copy
in-module, `confirmInstall` has nothing to remove. -/
def confirmCall (op : Op) (name : String) : String × List Json :=
  if op = .upgrade then ("confirmUpgrade", [.str name, .str ""])
  else ("confirmInstall", [.str name])

/-- Open the gate and acknowledge it in one breath. -/
def openGate (env : Env) (op : Op) (name depChangesJson : String) : M (Bool × String) := do
  let (method, args) := requestCall op name depChangesJson
  let (r, _) ← call env kPackageManager method args
  let (opened, e) ← read (ok r)
  if !opened then return (false, e)
  else do
    let (ackR, _) ← call env kPackageManager "ackPendingAction" [.str name]
    read (ok ackR)

def closeGate (env : Env) (op : Op) (name : String) : M Unit := do
  let (method, args) := cancelCall op name
  let _ ← call env kPackageManager method args

/-- Stop each of the modules, with its dependents. -/
def unloadAll (env : Env) : List String → M Unit
  | [] => return ()
  | m :: ms => do
    logosCoreUnloadModule env m true
    unloadAll env ms

/-- One gated package: request, acknowledge, stop what the plan touches, confirm.  The local and
the catalog path both begin each of their packages with it. -/
def passGate (env : Env) (op : Op) (r : Report) (depChanges name : String) : M Unit := do
  let (opened, e) ← openGate env op name depChanges
  if !opened then fail r "request" e
  else do
    unloadAll env r.affectedLoaded
    let (method, args) := confirmCall op name
    let (confirmR, _) ← call env kPackageManager method args
    let (confirmed, e) ← read (ok confirmR)
    if !confirmed then do
      closeGate env op name
      fail r "confirm" e
    else return ()

/-- `installPlugin(path, false)`: the reason it failed, if it did. -/
def installPlugin (env : Env) (path : String) : M (Option String) := do
  let (ins, why) ← call env kPackageManager "installPlugin" [.str path, .bool false]
  if ins.isObject then
    let error ← read (ins.valueStr "error")
    return if error.isEmpty then none else some error
  else return some (withReason "package_manager did not respond" why)

/-- The local path: each file is gated and installed before the next one is looked at. -/
def installLocal (env : Env) (op : Op) (r : Report) (depChanges : String) :
    List Change → M (List String)
  | [] => return []
  | c :: cs => do
    passGate env op r depChanges c.name
    match ← installPlugin env c.file with
    | some e => fail r "install" e
    | none =>
      let installedNow ← installLocal env op r depChanges cs
      return c.name :: installedNow

/-- The gates of the catalog path: every package asked for, before any of them is fetched. -/
def passGates (env : Env) (op : Op) (r : Report) (depChanges : String) : List String → M Unit
  | [] => return ()
  | name :: names => do
    passGate env op r depChanges name
    passGates env op r depChanges names

/-- Install one downloaded file: the package's name, or nothing when there was nothing to
install. -/
def installOne (env : Env) (r : Report) (d : Json) : M (Option String) := do
  let error ← read (if d.contains "error" then d.valueStr "error" else .ok "")
  if !error.isEmpty then do
    let n ← read (d.valueStr "name" "?")
    fail r "download" (n ++ ": " ++ error)
  else do
    let path ← read (d.valueStr "path")
    -- already satisfied, nothing fetched
    if path.isEmpty then return none
    else do
      match ← installPlugin env path with
      | some e =>
        let n ← read (d.valueStr "name" "?")
        fail r "install" (n ++ ": " ++ e)
      | none =>
        let n ← read (d.valueStr "name")
        return some n

/-- Install what was downloaded, in order. -/
def installDownloaded (env : Env) (r : Report) : List Json → M (List String)
  | [] => return []
  | d :: ds => do
    let one ← installOne env r d
    let installedNow ← installDownloaded env r ds
    return one.toList ++ installedNow

/-- What the download may skip: the installed packages, unless dependencies are left out. -/
def downloadSkips (env : Env) (opts : Options) (installed : List Json) :
    Except TypeError String :=
  if opts.withDeps then (installedPackagesJson installed).map env.dump else .ok ""

/-- The download call of the catalog path and the installs that follow it. -/
def downloadAndInstall (env : Env) (r : Report) (names : List String) (opts : Options) :
    M (List String) := do
  let installed ← installedPackages env
  let installedArg ← read (downloadSkips env opts installed)
  let (downloaded, why) ← call env kPackageDownloader "downloadResolvedDependencies"
    [.str (env.dump (dependenciesJson names opts)), .str installedArg]
  match downloaded with
  | .arr ds => installDownloaded env r ds
  | _ => fail r "download" (withReason "package_downloader did not return a download set" why)

/-- Start each of the modules; those that came up. -/
def restart (env : Env) : List String → M (List String)
  | [] => return []
  | m :: ms => do
    let up ← logosCoreLoadModule env m
    let reloaded ← restart env ms
    return if up then m :: reloaded else reloaded

/-- The removal branch of `apply`. -/
def applyRemove (env : Env) (r : Report) : M Answer :=
  let victims := r.changes.map (·.name)
  match victims with
  | [] => fail r "plan" "nothing to remove"
  | front :: _ => do
    let victimArgs := [Json.arr (victims.map .str)]
    let (requestR, _) ← call env kPackageManager "requestMultiUninstall" victimArgs
    let (requested, e) ← read (ok requestR)
    if !requested then fail r "request" e
    else do
      let (ackR, _) ← call env kPackageManager "ackPendingAction" [.str front]
      let (acked, e) ← read (ok ackR)
      if !acked then do
        let _ ← call env kPackageManager "cancelMultiUninstall" victimArgs
        fail r "ack" e
      else do
        unloadAll env victims
        let (confirmR, _) ← call env kPackageManager "confirmMultiUninstall" victimArgs
        let (confirmed, e) ← read (ok confirmR)
        if !confirmed then fail r "confirm" e
        else do
          logosCoreRefreshModules env
          return .report { r with removed := some victims, reloaded := some [] }

/-- `result["changes"].dump()`. -/
def dumpChanges (env : Env) (r : Report) : String :=
  env.dump (.arr (r.changes.map Change.toJson))

/-- The install and upgrade branch of `apply`, up to its restart. -/
def installAll (env : Env) (op : Op) (r : Report) (names : List String) (opts : Options) :
    M (List String) :=
  if !opts.localFiles.isEmpty then installLocal env op r (dumpChanges env r) r.changes
  else do
    passGates env op r (dumpChanges env r) names
    downloadAndInstall env r names opts

/-- The install and upgrade branch of `apply`. -/
def applyInstall (env : Env) (op : Op) (r : Report) (names : List String) (opts : Options) :
    M Answer := do
  let installedNow ← installAll env op r names opts
  logosCoreRefreshModules env
  let reloaded ← restart env r.affectedLoaded
  return .report { r with installed := some installedNow, reloaded := some reloaded }

/-- `apply`: plan, then carry it out. -/
def apply (env : Env) (op : Op) (names : List String) (opts : Options) : M Answer := do
  match ← plan env op names opts with
  | .err code message => return .err code message
  | .report r =>
    if r.status = .error then return .report r
    else catchReturn (if op = .remove then applyRemove env r else applyInstall env op r names opts)

end Logosctl.PackageOps
