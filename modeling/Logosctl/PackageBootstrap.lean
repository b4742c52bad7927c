/-
# Bringing up the bundled package modules

At boot the daemon loads the two package modules and configures package_manager for the session:
its directories, its keyring, and the operator's signature policy if there is one.  A directory
that does not reach the module is warned about; a policy that does not is answered by taking the
module down again.
-/
import Logosctl.RunningSet

namespace Logosctl.PackageBootstrap

open Library

/-- The session directories; the embedded ones may be empty. -/
structure Dirs where
  embeddedModules : String
  embeddedUiPlugins : String
  userModules : String
  userUiPlugins : String
  keyring : String

/-- What happened. -/
structure Outcome where
  managerLoaded : Bool := false
  downloaderLoaded : Bool := false
  directoriesSet : Bool := false
  policyArmed : Bool := false
  managerDisabled : Bool := false
  deriving DecidableEq, Repr

/-- The bundled modules, with what is lost without each. -/
def kBundled : List (String × String) :=
  [(kPackageManager,
    "`package install`, `package ls`, `package rm` and `package info` will be " ++
      "unavailable in this session; catalog commands are unaffected"),
    (kPackageDownloader,
      "catalog commands (`package search`, `package download`) will be " ++
        "unavailable in this session; locally installed packages are unaffected")]

section Run

variable (env : Env) (verbose : Bool)

/-- `hooks.note`, which is wired up under `--verbose` only. -/
def note (line : String) : Prog World TypeError Unit := if verbose then warn env line else pure ()

/-- `hooks.configure`: one call into package_manager, and whether it was delivered. -/
def configure (method : String) (args : List String) : Prog World TypeError Bool := do
  let w ← get
  act env (.call kPackageManager method (args.map .str))
  match env.reply w.calls with
  | .ok _ => pure true
  | .error _ => pure false

/-- The loop over the bundled modules: those that came up. -/
def loadBundled : List (String × String) → Prog World TypeError (List String)
  | [] => pure []
  | (m, lostCapability) :: ms => do
    let ok ← logosCoreLoadModule env m
    if ok then note env verbose ("Loaded bundled module: " ++ m)
    else warn env ("Warning: failed to load bundled module '" ++ m ++ "'. " ++ lostCapability ++ ".")
    let up ← loadBundled ms
    pure (if ok then m :: up else up)

/-- The settings that are delivered one by one, whatever becomes of the others. -/
def setAll : List (String × String) → Prog World TypeError Bool
  | [] => pure true
  | (method, arg) :: settings => do
    let ok ← configure env method [arg]
    let rest ← setAll settings
    pure (ok && rest)

/-- The directory settings of a session. -/
def Dirs.settings (dirs : Dirs) : List (String × String) :=
  (if dirs.embeddedModules.isEmpty then []
    else [("setEmbeddedModulesDirectory", dirs.embeddedModules),
      ("setEmbeddedUiPluginsDirectory", dirs.embeddedUiPlugins)]) ++
  [("setUserModulesDirectory", dirs.userModules), ("setUserUiPluginsDirectory", dirs.userUiPlugins),
    ("setKeyringDirectory", dirs.keyring)]

/-- Fail closed: a package_manager without the policy is taken out of the session. -/
def failClosed (signaturePolicy : String) (out : Outcome) : Prog World TypeError Outcome := do
  warn env ("Warning: could not deliver signature_policy='" ++ signaturePolicy ++
    "' to package_manager. Unloading it: leaving it up would enforce the module default " ++
    "('warn') while this session's config advertises '" ++ signaturePolicy ++
    "'. Package commands are unavailable until the next daemon start.")
  logosCoreUnloadModule env kPackageManager true
  pure { out with managerLoaded := false, managerDisabled := true }

/-- What is left once the settings are through: a gated operation that a previous run left behind
is cleared. -/
def finishConfiguration (dirs : Dirs) (signaturePolicy : String) (out : Outcome) :
    Prog World TypeError Outcome := do
  if !out.directoriesSet then
    warn env ("Warning: one or more package_manager directory settings did not reach the " ++
      "module. `package ls` may report an empty session and installs will refuse until the " ++
      "daemon is restarted.")
  let _ ← configure env "resetPendingAction" []
  note env verbose ("Configured package_manager: user=" ++ dirs.userModules ++ " embedded=" ++
    dirs.embeddedModules ++ " keyring=" ++ dirs.keyring ++ " signature_policy=" ++
    (if signaturePolicy.isEmpty then "(module default)" else signaturePolicy))
  pure out

/-- The delivery of the policy; a policy that is not set is left to the module. -/
def setPolicy (signaturePolicy : String) : Prog World TypeError Bool :=
  if signaturePolicy.isEmpty then pure true
  else configure env "setSignaturePolicy" [signaturePolicy]

/-- The configuration of a package_manager that came up. -/
def configureManager (dirs : Dirs) (signaturePolicy : String) (out : Outcome) :
    Prog World TypeError Outcome := do
  let directoriesDelivered ← setAll env dirs.settings
  let policyDelivered ← setPolicy env signaturePolicy
  let out := { out with
    directoriesSet := directoriesDelivered && policyDelivered
    policyArmed := !signaturePolicy.isEmpty && policyDelivered }
  if !signaturePolicy.isEmpty && !policyDelivered then failClosed env signaturePolicy out
  else finishConfiguration env verbose dirs signaturePolicy out

/-- `package_bootstrap::run`. -/
def run (dirs : Dirs) (signaturePolicy : String) : Prog World TypeError Outcome := do
  let up ← loadBundled env verbose kBundled
  let out : Outcome := {
    managerLoaded := up.contains kPackageManager
    downloaderLoaded := up.contains kPackageDownloader }
  if !out.managerLoaded then pure out
  else configureManager env verbose dirs signaturePolicy out

end Run

end Logosctl.PackageBootstrap
