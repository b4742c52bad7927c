/-
# What a daemon publishes, it can read

At the end of its boot a daemon writes down who it is and what it resolved: the configuration it
runs with, its modules replaced by the two it serves itself, with the ports they were given.  The
reader refuses the file as a whole when any of that is not as it should be, and a file nobody can
use would hide a live daemon from the next one and from its clients.  It never comes to that
(`state_reads_back`): whatever either front-end hands to the daemon, and whatever ports the system
gives, what is written is read as what it was.
-/
import Logosctl.DaemonState
import Logosctl.Legacy
import Logosctl.Transport

namespace Logosctl

open Library JsonSchema YamlJson

/-! ## 1. What is written -/

/-- The document `DaemonRuntimeStateFile::write` writes. -/
def DaemonRuntimeStateFile.document (state : DaemonRuntimeState) : List (String × Json) :=
  let obj := assign "version" (.int kDaemonRuntimeStateSchemaVersion) []
  let obj := assign "instance_id" (.str state.instanceId) obj
  let obj := assign "pid" (.int state.pid) obj
  let obj := assign "started_at" (.str state.startedAt) obj
  let obj := assignNonEmpty "config_source" state.configSource obj
  assign "resolved" (.obj (daemonConfigToJson state.resolved false)) obj

/-- `getModuleInfos`. -/
def getModuleInfos (cfg : DaemonConfig) (name : String) : List TransportInfo :=
  (cfg.modules.get? name).getD []

/-- The state of a daemon that has bound its listeners. -/
def runtimeState (instanceId : String) (pid : Int) (startedAt configSource : String)
    (cfg : DaemonConfig) (coreTransports capabilityTransports : List LogosTransportConfig) :
    DaemonRuntimeState where
  instanceId := instanceId
  pid := pid
  startedAt := startedAt
  configSource := configSource
  resolved := { cfg with
    modules := OrderedMap.emplace "capability_module" (toAdvertised capabilityTransports)
      (OrderedMap.emplace "core_service" (toAdvertised coreTransports) ∅) }

/-- Refusing to start beside a live daemon. -/
def alreadyRunning (processAlive : Int → Bool) (existing : DaemonRuntimeState) : Bool :=
  existing.fileOk && decide (0 < existing.pid) && processAlive existing.pid

/-! ## 2. What is read -/

/-- A configuration that one of the front-ends hands to `Daemon::start`, and its source. -/
def HandedOver (cfg : DaemonConfig) (configSource : String) : Prop :=
  (∃ yaml filePath file, (daemonStart yaml filePath file).started = some (cfg, configSource)) ∨
    ∃ yaml env flags filePath file,
      (legacyStart yaml env flags filePath file).started = some (cfg, configSource)

/-- The same listener as a client sees it. -/
structure SamePublished (t u : TransportInfo) : Prop where
  protocol : t.protocol = u.protocol
  network : t.protocol ≠ "local" → t.host = u.host ∧ t.port = u.port ∧ t.codec = u.codec
  tls : t.protocol = "tcp_ssl" → t.caFile = u.caFile ∧ t.verifyPeer = u.verifyPeer

section ReadBack

variable {cfg : DaemonConfig} {configSource : String} {state : DaemonRuntimeState}

/-- What is handed over is normalised, and can be written. -/
theorem HandedOver.loaded (h : HandedOver cfg configSource) :
    Loaded cfg ∧ ∃ c, cfg = normalise c := by
  rcases h with ⟨yaml, filePath, file, h⟩ | ⟨yaml, env, flags, filePath, file, h⟩
  · exact ⟨loaded_of_started h, _, (started_eq_some_iff.mp h).1⟩
  · obtain ⟨c, -, hcfg, -⟩ := legacyStarted_eq_some h
    exact ⟨loaded_of_legacyStarted h, c, hcfg⟩

/-- A module that is always there has listeners. -/
theorem getModuleInfos_ne_nil (h : HandedOver cfg configSource) {name : String}
    (hname : name = "core_service" ∨ name = "capability_module") :
    getModuleInfos cfg name ≠ [] := by
  obtain ⟨hloaded, c, rfl⟩ := h.loaded
  have hkey : name ∈ (normalise c).modules.keys := by
    obtain ⟨hcore, hcapability⟩ := @wellKnown_mem_keys c
    rcases hname with rfl | rfl
    · exact hcore
    · exact hcapability
  obtain ⟨ts, hget, hmem⟩ := OrderedMap.exists_get? hkey
  unfold getModuleInfos
  rw [hget]
  exact (hloaded.named name ts hmem).2

/-- What is bound is as long as what was configured. -/
theorem toAdvertised_ne_nil {allocate : Nat → String → UInt16} {moduleName : String} {i : Nat}
    {infos : List TransportInfo} {set : List LogosTransportConfig}
    (h : buildTransportSet allocate moduleName i infos = .ok set) (hinfos : infos ≠ []) :
    toAdvertised set ≠ [] := by
  cases infos with
  | nil => exact absurd rfl hinfos
  | cons t ts =>
    obtain ⟨out, -, rfl⟩ := buildTransportSet_cons h
    exact List.cons_ne_nil _ _

theorem isKnownProtocol_of_mem_toAdvertised {set : List LogosTransportConfig} {t : TransportInfo}
    (h : t ∈ toAdvertised set) : isKnownProtocol t.protocol = true := by
  obtain ⟨c, -, rfl⟩ := List.mem_map.mp h
  show isKnownProtocol (protocolName c.protocol) = true
  cases c.protocol <;> rfl

/-- What the file keeps of a listener that names its codec. -/
theorem samePublished_asWritten {t : TransportInfo} {includeSecrets : Bool}
    (hknown : isKnownProtocol t.protocol = true) (hcodec : t.codec ≠ "") :
    SamePublished (t.asWritten includeSecrets) t := by
  have hsame := codecOrJson_eq_self_iff.mpr hcodec
  unfold TransportInfo.asWritten
  rcases isKnownProtocol_iff.mp hknown with hp | hp | hp
  · rw [if_neg (by simp [hp]), if_neg (by simp [hp])]
    exact ⟨rfl, fun h => absurd hp h, fun h => by simp [hp] at h⟩
  · rw [if_neg (by simp [hp]), if_pos hp]
    refine ⟨hp.symm, fun _ => ⟨rfl, rfl, hsame⟩, fun h => ?_⟩
    exact absurd (show "tcp" = "tcp_ssl" from h) (by decide)
  · rw [if_pos hp]
    exact ⟨rfl, fun _ => ⟨rfl, rfl, hsame⟩, fun _ => ⟨rfl, rfl⟩⟩

theorem samePublished_toAdvertised {set : List LogosTransportConfig} :
    List.Forall₂ SamePublished ((toAdvertised set).map (TransportInfo.asWritten false))
      (toAdvertised set) := by
  rw [List.forall₂_map_left_iff]
  refine List.forall₂_same.mpr fun t ht => ?_
  refine samePublished_asWritten (isKnownProtocol_of_mem_toAdvertised ht) ?_
  obtain ⟨c, -, rfl⟩ := List.mem_map.mp ht
  show codecName c.codec ≠ ""
  cases c.codec <;> decide

/-- The identity that was written is read whatever becomes of the configuration behind it. -/
theorem read_document_eq (filePath : String) (hmin : Reader.int64Min ≤ state.pid)
    (hmax : state.pid ≤ Reader.int64Max) :
    DaemonRuntimeStateFile.read filePath (some (.obj (DaemonRuntimeStateFile.document state))) =
      match (daemonConfigFromJson (.obj (daemonConfigToJson state.resolved false))
        "resolved.").run {} with
      | (none, _) =>
        ({}, ["DaemonRuntimeState: refusing to load partial resolved block from " ++ filePath])
      | (some resolved, errs) =>
        if !errs.ok then ({}, ["DaemonRuntimeState: " ++ filePath ++ ": " ++ errs.message])
        else ({ state with
          fileOk := !state.instanceId.isEmpty, schemaVersion := 2, resolved }, []) := by
  have hversion : Reads (Reader.integer ⟨.obj (DaemonRuntimeStateFile.document state), ""⟩
      "version" 0) 2 :=
    reads_integer (by simp [DaemonRuntimeStateFile.document, kDaemonRuntimeStateSchemaVersion])
      (by decide) (by decide) (by decide)
  have hid : Reads (Reader.str ⟨.obj (DaemonRuntimeStateFile.document state), ""⟩ "instance_id")
      state.instanceId := reads_str (by simp [DaemonRuntimeStateFile.document])
  have hpid : Reads (Reader.integer ⟨.obj (DaemonRuntimeStateFile.document state), ""⟩ "pid" (-1))
      state.pid := reads_integer (by simp [DaemonRuntimeStateFile.document]) hmin hmax hmax
  have hstarted : Reads (Reader.str ⟨.obj (DaemonRuntimeStateFile.document state), ""⟩
      "started_at") state.startedAt := reads_str (by simp [DaemonRuntimeStateFile.document])
  have hsource : Reads (Reader.str ⟨.obj (DaemonRuntimeStateFile.document state), ""⟩
      "config_source") state.configSource :=
    reads_str_nonEmpty (by simp [DaemonRuntimeStateFile.document])
  have hresolved : Reads (Reader.mapping ⟨.obj (DaemonRuntimeStateFile.document state), ""⟩
      "resolved") (some (daemonConfigToJson state.resolved false)) :=
    reads_mapping (by simp [DaemonRuntimeStateFile.document])
  have hfields : (runtimeStateFields (.obj (DaemonRuntimeStateFile.document state)) 2).run {} =
      match (daemonConfigFromJson (.obj (daemonConfigToJson state.resolved false))
        "resolved.").run {} with
      | (none, errs) => (none, errs)
      | (some resolved, errs) =>
        (some { state with fileOk := false, schemaVersion := 2, resolved }, errs) := by
    refine (run_bind_of_reads hid _).trans ((run_bind_of_reads hpid _).trans ?_)
    refine (run_bind_of_reads hstarted _).trans ((run_bind_of_reads hsource _).trans ?_)
    refine (run_bind_of_reads hresolved _).trans ((run_bind _ _ _).trans ?_)
    rcases (daemonConfigFromJson (.obj (daemonConfigToJson state.resolved false))
      "resolved.").run {} with ⟨_ | resolved, errs⟩ <;> rfl
  have hsupported : ¬ (2 : Int) ≠ kDaemonRuntimeStateSchemaVersion := by decide
  have hint : Json.toInt32 2 = 2 := by decide
  have hobj : ¬ (!(Json.obj (DaemonRuntimeStateFile.document state)).isObject) = true :=
    Bool.false_ne_true
  have hok : ¬ (!(⟨""⟩ : Errors).ok) = true := by decide
  unfold Reads at hversion
  simp only [DaemonRuntimeStateFile.read, if_neg hobj, hversion, if_neg hok, if_neg hsupported,
    hint, hfields]
  rcases (daemonConfigFromJson (.obj (daemonConfigToJson state.resolved false))
    "resolved.").run {} with ⟨_ | resolved, errs⟩ <;> rfl

/-- The document of a state whose configuration can be written is read as that state. -/
theorem read_runtimeState (filePath : String) (hcfg : Writable state.resolved)
    (hmin : Reader.int64Min ≤ state.pid) (hmax : state.pid ≤ Reader.int64Max) :
    DaemonRuntimeStateFile.read filePath (some (.obj (DaemonRuntimeStateFile.document state))) =
      ({ state with
          fileOk := !state.instanceId.isEmpty
          schemaVersion := 2
          resolved := state.resolved.asWritten false }, []) := by
  have hresolved : Reads (daemonConfigFromJson (.obj (daemonConfigToJson state.resolved false))
      "resolved.") (some (state.resolved.asWritten false)) :=
    reads_daemonConfigFromJson hcfg fun _ _ => rfl
  unfold Reads at hresolved
  rw [read_document_eq filePath hmin hmax, hresolved]
  rfl

/-- A file that can be used names the instance and the process it was written with. -/
theorem identity_of_read_document (filePath : String) (hmin : Reader.int64Min ≤ state.pid)
    (hmax : state.pid ≤ Reader.int64Max)
    (hok : (DaemonRuntimeStateFile.read filePath
      (some (.obj (DaemonRuntimeStateFile.document state)))).1.fileOk = true) :
    (DaemonRuntimeStateFile.read filePath
        (some (.obj (DaemonRuntimeStateFile.document state)))).1.instanceId = state.instanceId ∧
      (DaemonRuntimeStateFile.read filePath
        (some (.obj (DaemonRuntimeStateFile.document state)))).1.pid = state.pid := by
  rw [read_document_eq filePath hmin hmax] at hok ⊢
  revert hok
  rcases (daemonConfigFromJson (.obj (daemonConfigToJson state.resolved false))
    "resolved.").run {} with ⟨_ | resolved, errs⟩
  · exact nofun
  · dsimp only
    cases errs.ok with
    | true => exact fun _ => ⟨rfl, rfl⟩
    | false => exact nofun

/-- The modules of a published state, as they are read. -/
theorem modules_asWritten_published {core capability : List TransportInfo} (hcore : core ≠ [])
    (hcapability : capability ≠ []) :
    (Modules.asWritten false (OrderedMap.emplace "capability_module" capability
      (OrderedMap.emplace "core_service" core ∅))).entries =
      [("capability_module", capability.map (TransportInfo.asWritten false)),
        ("core_service", core.map (TransportInfo.asWritten false))] := by
  have hentries : (OrderedMap.emplace "capability_module" capability
      (OrderedMap.emplace "core_service" core ∅)).entries =
      [("capability_module", capability), ("core_service", core)] := by
    have hlt : "capability_module" < "core_service" := by decide
    show OrderedMap.emplaceEntry _ _ [("core_service", core)] = _
    rw [OrderedMap.emplaceEntry, if_pos hlt]
  show ((OrderedMap.emplace "capability_module" capability
    (OrderedMap.emplace "core_service" core ∅)).entries.filter _).map _ = _
  rw [hentries]
  simp [hcore, hcapability]

/-- **A daemon can read its own state.**  For every configuration that reaches the daemon and
every port its listeners are given, the file written at boot is usable, names the same instance,
process, time and source, and has the same listeners for both modules the daemon serves; so while
the process lives, a second daemon is refused. -/
theorem state_reads_back {parseJson : String → Option Json} {jsonText : Json → String}
    {filePath instanceId startedAt : String} {pid : Int}
    {allocate allocate' : Nat → String → UInt16} {core capability : List LogosTransportConfig}
    (hcfg : HandedOver cfg configSource)
    (hcore : buildTransportSet allocate "core_service" 0 (getModuleInfos cfg "core_service") =
      .ok core)
    (hcapability : buildTransportSet allocate' "capability_module" 0
      (getModuleInfos cfg "capability_module") = .ok capability)
    (hid : instanceId ≠ "") (hpos : 0 < pid) (hmax : pid ≤ Reader.int64Max)
    (hjson : parseJson (jsonText (.obj (DaemonRuntimeStateFile.document
        (runtimeState instanceId pid startedAt configSource cfg core capability)))) =
      some (.obj (DaemonRuntimeStateFile.document
        (runtimeState instanceId pid startedAt configSource cfg core capability)))) :
    ∃ state, DaemonRuntimeStateFile.read filePath (parseJson (jsonText (.obj
        (DaemonRuntimeStateFile.document
          (runtimeState instanceId pid startedAt configSource cfg core capability))))) =
        (state, []) ∧
      state.fileOk = true ∧ state.instanceId = instanceId ∧ state.pid = pid ∧
      state.startedAt = startedAt ∧ state.configSource = configSource ∧
      (∃ coreRead capabilityRead, state.resolved.modules.entries =
          [("capability_module", capabilityRead), ("core_service", coreRead)] ∧
        List.Forall₂ SamePublished coreRead (toAdvertised core) ∧
        List.Forall₂ SamePublished capabilityRead (toAdvertised capability)) ∧
      ∀ processAlive : Int → Bool, processAlive pid = true →
        alreadyRunning processAlive state = true := by
  obtain ⟨hloaded, -⟩ := hcfg.loaded
  have hcoreNe := toAdvertised_ne_nil hcore (getModuleInfos_ne_nil hcfg (Or.inl rfl))
  have hcapabilityNe := toAdvertised_ne_nil hcapability (getModuleInfos_ne_nil hcfg (Or.inr rfl))
  have hwritable : Writable
      (runtimeState instanceId pid startedAt configSource cfg core capability).resolved := by
    refine ⟨?_, hloaded.limits, hloaded.policy⟩
    intro name ts hts t ht
    rcases OrderedMap.mem_entries_emplace hts with ⟨-, heq⟩ | hts
    · obtain ⟨-, rfl⟩ := Prod.mk.inj heq
      exact isKnownProtocol_of_mem_toAdvertised ht
    · rcases OrderedMap.mem_entries_emplace hts with ⟨-, heq⟩ | hts
      · obtain ⟨-, rfl⟩ := Prod.mk.inj heq
        exact isKnownProtocol_of_mem_toAdvertised ht
      · cases hts
  have hmin : Reader.int64Min ≤ pid := le_trans (by decide) hpos.le
  have hok : (!instanceId.isEmpty) = true := by simpa using hid
  refine ⟨_, by rw [hjson]; exact read_runtimeState filePath hwritable hmin hmax, hok, rfl, rfl,
    rfl, rfl, ⟨_, _, modules_asWritten_published hcoreNe hcapabilityNe,
      samePublished_toAdvertised, samePublished_toAdvertised⟩, ?_⟩
  intro processAlive halive
  show (!instanceId.isEmpty && decide (0 < pid) && processAlive pid) = true
  rw [hok, halive, decide_eq_true hpos]
  rfl

end ReadBack

/-- The local listener every module has. -/
def localBound : List LogosTransportConfig := [transportConfig { protocol := "local" }]

/-- The state of a daemon on its defaults. -/
def defaultState : DaemonRuntimeState :=
  runtimeState "0f3a9c21d7b4" 4711 "2025-01-01T00:00:00Z" "defaults" (normalise {})
    localBound localBound

/-- Its file. -/
def defaultStateText : String :=
  "\x7b
    \"config_source\": \"defaults\",
    \"instance_id\": \"0f3a9c21d7b4\",
    \"pid\": 4711,
    \"resolved\": \x7b
        \"insecure_tcp\": false,
        \"logging\": \x7b
            \"console\": true,
            \"enabled\": true,
            \"file\": \"daemon.log\",
            \"max_files\": 5,
            \"max_size_mb\": 10
        \x7d,
        \"modules\": \x7b
            \"capability_module\": \x7b
                \"transports\": [
                    \x7b
                        \"protocol\": \"local\"
                    \x7d
                ]
            \x7d,
            \"core_service\": \x7b
                \"transports\": [
                    \x7b
                        \"protocol\": \"local\"
                    \x7d
                ]
            \x7d
        \x7d,
        \"modules_dirs\": [],
        \"persistence_path\": \"\",
        \"ssl\": \x7b
            \"ca\": \"\",
            \"cert\": \"\",
            \"key\": \"\"
        \x7d
    \x7d,
    \"started_at\": \"2025-01-01T00:00:00Z\",
    \"version\": 2
\x7d
"

/-- What the JSON parser makes of it. -/
def parseDefaultState (text : String) : Option Json :=
  if text = defaultStateText then
    some (.obj (DaemonRuntimeStateFile.document defaultState))
  else none

/-- A daemon on its defaults is found by the next one. -/
theorem default_state_found : ∃ state,
    (DaemonRuntimeStateFile.read "daemon/state.json" (parseDefaultState defaultStateText)).1 =
        state ∧
      state.fileOk = true ∧ state.instanceId = "0f3a9c21d7b4" ∧
      alreadyRunning (fun pid => pid == 4711) state = true := by
  have hcfg : HandedOver (normalise {}) "defaults" :=
    Or.inl ⟨readingAs .null, "daemon/config.yaml", .absent, by decide +kernel⟩
  have hbound : ∀ name, buildTransportSet (fun _ _ => 0) name 0 [{ protocol := "local" }] =
      .ok localBound := fun _ => rfl
  have hcore : getModuleInfos (normalise {}) "core_service" = [{ protocol := "local" }] := by
    decide +kernel
  have hcapability : getModuleInfos (normalise {}) "capability_module" =
      [{ protocol := "local" }] := by decide +kernel
  have hjson : parseDefaultState defaultStateText =
      some (.obj (DaemonRuntimeStateFile.document defaultState)) := if_pos rfl
  obtain ⟨state, hread, hok, hid, -, -, -, -, hguard⟩ :=
    @state_reads_back _ _ parseDefaultState (fun _ => defaultStateText) "daemon/state.json"
      "0f3a9c21d7b4" "2025-01-01T00:00:00Z" 4711 _ _ _ _ hcfg (by rw [hcore]; exact hbound _)
      (by rw [hcapability]; exact hbound _) (by decide) (by decide) (by decide) hjson
  exact ⟨state, congrArg Prod.fst hread, hok, hid, hguard _ rfl⟩

end Logosctl
