/-
# The published state of a daemon

A daemon that has come up leaves `daemon/state.json`: who it is, which process, and the
configuration it resolved.  `DaemonRuntimeStateFile.read` is how everybody else reads it.  It has
one answer for everything it cannot use, a state that is not `fileOk`, and what it does use has an
identity (`instanceId_ne_of_fileOk`).
-/
import Logosctl.DaemonConfig

namespace Logosctl

open JsonSchema

def kDaemonRuntimeStateSchemaVersion : Int := 2

structure DaemonRuntimeState where
  fileOk : Bool := false
  schemaVersion : Int := 0
  instanceId : String := ""
  pid : Int := -1
  startedAt : String := ""
  configSource : String := ""
  resolved : DaemonConfig := {}

/-- The fields after the version; none when the `resolved` block is refused. -/
def runtimeStateFields (obj : Json) (schemaVersion : Int) :
    Checked (Option DaemonRuntimeState) := do
  let r : Reader := ⟨obj, ""⟩
  let instanceId ← r.str "instance_id"
  let pid ← r.integer "pid" (-1)
  let startedAt ← r.str "started_at"
  let configSource ← r.str "config_source"
  match ← r.mapping "resolved" with
  | none => return some { schemaVersion, instanceId, pid, startedAt, configSource }
  | some resolvedObj =>
    match ← daemonConfigFromJson (.obj resolvedObj) "resolved." with
    | none => return none
    | some resolved =>
      return some { schemaVersion, instanceId, pid, startedAt, configSource, resolved }

/-- `DaemonRuntimeStateFile::read`, of the file at `filePath`: the state, and what is printed.  A
file that is missing or no JSON is `none`. -/
def DaemonRuntimeStateFile.read (filePath : String) : Option Json →
    DaemonRuntimeState × List String
  | none => ({}, [])
  | some obj =>
    if !obj.isObject then ({}, [])
    else
      let (v, errs) := (Reader.integer ⟨obj, ""⟩ "version" 0).run {}
      if !errs.ok then ({}, ["DaemonRuntimeState: " ++ filePath ++ ": " ++ errs.message])
      else
        let schemaVersion := Json.toInt32 v
        if schemaVersion ≠ kDaemonRuntimeStateSchemaVersion then
          ({ schemaVersion }, ["DaemonRuntimeState: unsupported schema version " ++
            toString schemaVersion ++ " in " ++ filePath ++
            " — relaunch the daemon to regenerate (expected version " ++
            toString kDaemonRuntimeStateSchemaVersion ++ ")."])
        else
          match (runtimeStateFields obj schemaVersion).run errs with
          | (none, _) =>
            ({}, ["DaemonRuntimeState: refusing to load partial resolved block from " ++ filePath])
          | (some state, errs) =>
            if !errs.ok then ({}, ["DaemonRuntimeState: " ++ filePath ++ ": " ++ errs.message])
            else ({ state with fileOk := !state.instanceId.isEmpty }, [])

/-- What is read is a state that nobody uses, or one whose use depends on its identity. -/
theorem read_cases (filePath : String) (file : Option Json) :
    (DaemonRuntimeStateFile.read filePath file).1.fileOk = false ∨
      ∃ state : DaemonRuntimeState, (DaemonRuntimeStateFile.read filePath file).1 =
        { state with fileOk := !state.instanceId.isEmpty } := by
  simp only [DaemonRuntimeStateFile.read]
  -- every exit but the last hands over a state that was never marked
  repeat' split
  all_goals first
    | exact .inl rfl
    | exact .inr ⟨_, rfl⟩

/-- **A usable state says whose it is**, whatever the file contains. -/
theorem instanceId_ne_of_fileOk {filePath : String} {file : Option Json}
    (h : (DaemonRuntimeStateFile.read filePath file).1.fileOk = true) :
    (DaemonRuntimeStateFile.read filePath file).1.instanceId ≠ "" := by
  rcases read_cases filePath file with hno | ⟨state, hread⟩
  · exact absurd (hno.symm.trans h) (by decide)
  · rw [hread] at h ⊢
    simpa using h

end Logosctl
