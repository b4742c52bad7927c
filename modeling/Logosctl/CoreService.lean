/-
# Module lifecycle in the core service

What the daemon does when a client asks it to load, unload or reload a module.  Each of them asks
the runtime for the loaded set around its call, since what the runtime brings up or takes down on
a module's behalf is reported back.  What else the runtime tells is `Info`.
-/
import Logosctl.Runtime

namespace Logosctl.CoreService

open Library

/-- `StdLogosResult`. -/
structure StdLogosResult where
  success : Bool
  value : Json
  error : String := ""

/-- What the runtime tells of its modules, beside which are loaded: the names it has discovered,
the entries of its information document, and for a module the report on its optional dependencies,
already parsed, when there is one and it says anything. -/
structure Info where
  known : World → List String
  modulesInfo : World → List Json
  optionalReport : World → String → Option Json

section Lifecycle

variable (env : Env) (info : Info)

def getLoadedModuleNames : Prog World TypeError (List String) := loadedModules

def names (xs : List String) : Json := .arr (xs.map .str)

/-- `getModuleVersion`, over the entries of the information document. -/
def moduleVersion (name : String) : List Json → Except TypeError String
  | [] => pure ""
  | entry :: entries => do
    let n ← entry.valueStr "name"
    if n = name then
      match entry.find? "metadata" with
      | some (.obj kvs) => (Json.obj kvs).valueStr "version"
      | _ => pure ""
    else moduleVersion name entries

def getModuleVersion (name : String) : Prog World TypeError String := do
  Prog.lift id (moduleVersion name (info.modulesInfo (← get)))

/-- `CoreServiceImpl::loadModule`. -/
def loadModule (name : String) : Prog World TypeError StdLogosResult := do
  let before ← getLoadedModuleNames
  let ok ← logosCoreLoadModule env name
  if !ok then
    let message := "Failed to load module '" ++ name ++ "'."
    return {
      success := false
      value := .obj [("code", .str "MODULE_LOAD_FAILED"), ("known_modules",
        names (info.known (← get))), ("message", .str message), ("status", .str "error")]
      error := message }
  else do
    let loaded ← getLoadedModuleNames
    let dependenciesLoaded := loaded.filter fun x => x != name && !before.contains x
    let version ← getModuleVersion info name
    let skipped := (info.optionalReport (← get) name).toList.map ("optional_skipped", ·)
    return {
      success := true
      value := .obj ([("dependencies_loaded", names dependenciesLoaded), ("module", .str name)] ++
        skipped ++ [("status", .str "ok"), ("version", .str version)]) }

/-- `CoreServiceImpl::unloadModule`. -/
def unloadModule (name : String) (withDependents : Bool) :
    Prog World TypeError StdLogosResult := do
  let before ← getLoadedModuleNames
  logosCoreUnloadModule env name withDependents
  let loaded ← getLoadedModuleNames
  if loaded.contains name then
    let message := "Module '" ++ name ++ "' is not loaded."
    return {
      success := false
      value := .obj [("code", .str "MODULE_NOT_LOADED"), ("message", .str message),
        ("status", .str "error")]
      error := message }
  else
    let dependentsUnloaded := before.filter fun x => x != name && !loaded.contains x
    return {
      success := true
      value := .obj [("dependents_unloaded", names dependentsUnloaded), ("module", .str name),
        ("status", .str "ok")] }

/-- The answer of a reload that failed, after the try to bring the module back if it was
running. -/
def reloadFailed (name : String) (previousStatus : String) (restored : Option Bool) :
    StdLogosResult :=
  let error :=
    match restored with
    | some true => "reload failed; previous instance restored"
    | some false => "reload failed; module is now unloaded"
    | none => "module failed to start"
  { success := false
    value := .obj ([("action", .str "reload"), ("error", .str error), ("module", .str name),
      ("previous_status", .str previousStatus)] ++
      restored.toList.map (fun b => ("restored", .bool b)) ++ [("status", .str "error")])
    error := error }

/-- `CoreServiceImpl::reloadModule`. -/
def reloadModule (name : String) : Prog World TypeError StdLogosResult := do
  let loaded ← getLoadedModuleNames
  let wasLoaded := loaded.contains name
  let previousStatus := if wasLoaded then "loaded" else "not_loaded"
  if wasLoaded then logosCoreUnloadModule env name false
  let ok ← logosCoreLoadModule env name
  if !ok then
    if wasLoaded then do
      let restored ← logosCoreLoadModule env name
      return reloadFailed name previousStatus (some restored)
    else return reloadFailed name previousStatus none
  else do
    let version ← getModuleVersion info name
    return {
      success := true
      value := .obj [("action", .str "reload"), ("module", .str name),
        ("previous_status", .str previousStatus), ("status", .str "loaded"),
        ("version", .str version)] }

end Lifecycle

/-! ## What the lifecycle calls do -/

section Does

variable {env : Env} {info : Info} {C : World → Act → Prop}

theorem does_getModuleVersion (name : String) :
    Does env C (fun _ => True) (getModuleVersion info name) :=
  does_bind (Prog.keeps_get Performs.refl) fun _ => does_lift (fun _ => trivial) _

theorem does_loadModule {name : String} (hload : ∀ w, C w (.load name)) :
    Does env C (fun _ => True) (loadModule env info name) := by
  unfold loadModule
  refine does_bind does_loadedModules fun before => does_bind (does_load hload) fun ok => ?_
  split
  · exact does_bind (Prog.keeps_get Performs.refl) fun _ => does_pure _
  · refine does_bind does_loadedModules fun loaded => ?_
    refine does_bind (does_getModuleVersion name) fun version => ?_
    exact does_bind (Prog.keeps_get Performs.refl) fun _ => does_pure _

theorem does_unloadModule {name : String} {withDependents : Bool}
    (hunload : ∀ w, C w (.unload name withDependents)) :
    Does env C (fun _ => True) (unloadModule env name withDependents) := by
  unfold unloadModule
  refine does_bind does_loadedModules fun before => does_bind (does_act hunload) fun _ => ?_
  refine does_bind does_loadedModules fun loaded => ?_
  split <;> exact does_pure _

theorem does_reloadModule {name : String} (hload : ∀ w, C w (.load name))
    (hunload : ∀ w, C w (.unload name false)) :
    Does env C (fun _ => True) (reloadModule env info name) := by
  unfold reloadModule
  refine does_bind does_loadedModules fun loaded => ?_
  dsimp only
  split
  · refine does_bind (does_act hunload) fun _ => does_bind (does_load hload) fun ok => ?_
    split
    · exact does_bind (does_load hload) fun _ => does_pure _
    · exact does_bind (does_getModuleVersion name) fun _ => does_pure _
  · refine does_bind (does_load hload) fun ok => ?_
    split
    · exact does_pure _
    · exact does_bind (does_getModuleVersion name) fun _ => does_pure _

theorem world_getModuleVersion (name : String) (w : World) :
    ((getModuleVersion info name).exec w).2 = w := by
  unfold getModuleVersion
  rw [Prog.exec_bind_of_ok (Prog.exec_get w)]
  cases moduleVersion name (info.modulesInfo w) <;> rfl

/-- A load does one thing to the world, whatever it then reports. -/
theorem world_loadModule (name : String) (w : World) :
    ((loadModule env info name).exec w).2 = w.after env (.load name) := by
  unfold loadModule getLoadedModuleNames
  rw [Prog.exec_bind_of_ok (exec_loadedModules w),
    Prog.exec_bind_of_ok (exec_logosCoreLoadModule name w)]
  cases (env.load w.log.length w.loaded name).1 with
  | false => rfl
  | true =>
    have hversion := @world_getModuleVersion info name (w.after env (.load name))
    simp only [Bool.not_true, Bool.false_eq_true, if_false]
    rw [Prog.exec_bind_of_ok (exec_loadedModules _), Prog.exec_bind]
    cases hrun : (getModuleVersion info name).exec (w.after env (.load name)) with
    | mk r t =>
      rw [hrun] at hversion
      cases r with
      | error e => exact hversion
      | ok version => exact hversion

/-- So does an unload. -/
theorem world_unloadModule (name : String) (withDependents : Bool) (w : World) :
    ((unloadModule env name withDependents).exec w).2 =
      w.after env (.unload name withDependents) := by
  unfold unloadModule getLoadedModuleNames
  rw [Prog.exec_bind_of_ok (exec_loadedModules w),
    Prog.exec_bind_of_ok (exec_logosCoreUnloadModule name withDependents w),
    Prog.exec_bind_of_ok (exec_loadedModules _)]
  split <;> rfl

end Does

end Logosctl.CoreService
