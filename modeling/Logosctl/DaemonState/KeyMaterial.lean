/-
# Server keys and the published state

The state a daemon publishes is for its clients; where the server keeps its certificate and its
private key is none of their business.  Two runs are compared here, of daemons that are the same in
everything but that.  The paths a listener carries stay out of the document: the encoder leaves
them out.  The `ssl` block's own paths do not: it is written whole.  So the documents are the same
exactly when the `ssl` blocks are (`document_eq_iff`).
-/
import Logosctl.DaemonState.Publish

namespace Logosctl

open Library JsonSchema YamlJson

/-! ## 1. States that differ in key material -/

/-- The listener without the server's own paths. -/
def TransportInfo.withoutKeys (t : TransportInfo) : TransportInfo :=
  { t with certFile := "", keyFile := "" }

/-- The configuration without them, and without the paths of the `ssl` block. -/
def DaemonConfig.withoutKeys (cfg : DaemonConfig) : DaemonConfig :=
  { cfg with
    modules := cfg.modules.mapValues (List.map TransportInfo.withoutKeys)
    sslCert := ""
    sslKey := "" }

def DaemonRuntimeState.withoutKeys (state : DaemonRuntimeState) : DaemonRuntimeState :=
  { state with resolved := state.resolved.withoutKeys }

/-! ## 2. What the document keeps of them -/

section Encoder

/-- Without secrets, a listener is written the same with its keys and without. -/
theorem transportToJson_withoutKeys (t : TransportInfo) :
    transportToJson t.withoutKeys false = transportToJson t false := by
  simp only [transportToJson, TransportInfo.withoutKeys, Bool.false_eq_true, if_false]
  rfl

theorem moduleToJson_withoutKeys (ts : List TransportInfo) :
    moduleToJson false (ts.map TransportInfo.withoutKeys) = moduleToJson false ts := by
  unfold moduleToJson
  rw [List.map_map]
  simp only [Function.comp_def, transportToJson_withoutKeys]

theorem modulesToJson_withoutKeys (modules : Modules) :
    modulesToJson false (modules.mapValues (List.map TransportInfo.withoutKeys)) =
      modulesToJson false modules := by
  rw [modulesToJson_eq, modulesToJson_eq]
  simp only [OrderedMap.mapValues, List.map_map, Function.comp_def, moduleToJson_withoutKeys]

/-- What is left to tell two such configurations apart is the `ssl` block. -/
theorem daemonConfigToJson_withoutKeys (cfg : DaemonConfig) :
    daemonConfigToJson { cfg.withoutKeys with sslCert := cfg.sslCert, sslKey := cfg.sslKey } false =
      daemonConfigToJson cfg false := by
  have hmodules := modulesToJson_withoutKeys cfg.modules
  simp only [daemonConfigToJson, DaemonConfig.withoutKeys, hmodules]
  rfl

theorem lookup_ssl (cfg : DaemonConfig) (includeSecrets : Bool) :
    (daemonConfigToJson cfg includeSecrets).lookup "ssl" = some (.obj (sslToJson cfg)) := by
  simp [daemonConfigToJson]

end Encoder

/-! ## 3. Two runs -/

section TwoRuns

variable {s s' : DaemonRuntimeState}

/-- The paths of the `ssl` block can be read off the document. -/
theorem ssl_eq_of_document_eq
    (h : DaemonRuntimeStateFile.document s = DaemonRuntimeStateFile.document s') :
    s.resolved.sslCert = s'.resolved.sslCert ∧ s.resolved.sslKey = s'.resolved.sslKey := by
  have hresolved : daemonConfigToJson s.resolved false = daemonConfigToJson s'.resolved false := by
    have := congrArg (·.lookup "resolved") h
    simpa [DaemonRuntimeStateFile.document] using this
  have hssl : sslToJson s.resolved = sslToJson s'.resolved := by
    have := congrArg (·.lookup "ssl") hresolved
    simpa [lookup_ssl] using this
  constructor
  · have := congrArg (·.lookup "cert") hssl
    simpa [sslToJson] using this
  · have := congrArg (·.lookup "key") hssl
    simpa [sslToJson] using this

/-- **What is published of the server's keys.**  Of two states that differ in nothing else, the
documents are the same exactly when the `ssl` blocks name the same certificate and key; the
listeners' own paths make no difference. -/
theorem document_eq_iff (h : s.withoutKeys = s'.withoutKeys) :
    DaemonRuntimeStateFile.document s = DaemonRuntimeStateFile.document s' ↔
      s.resolved.sslCert = s'.resolved.sslCert ∧ s.resolved.sslKey = s'.resolved.sslKey := by
  refine ⟨ssl_eq_of_document_eq, ?_⟩
  rintro ⟨hcert, hkey⟩
  have hresolved : daemonConfigToJson s.resolved false = daemonConfigToJson s'.resolved false := by
    have hcfg : s.resolved.withoutKeys = s'.resolved.withoutKeys := congrArg (·.resolved) h
    rw [← daemonConfigToJson_withoutKeys s.resolved, ← daemonConfigToJson_withoutKeys s'.resolved,
      hcfg, hcert, hkey]
  have hid : s.instanceId = s'.instanceId := congrArg (·.instanceId) h
  have hpid : s.pid = s'.pid := congrArg (·.pid) h
  have hstarted : s.startedAt = s'.startedAt := congrArg (·.startedAt) h
  have hsource : s.configSource = s'.configSource := congrArg (·.configSource) h
  simp only [DaemonRuntimeStateFile.document, hid, hpid, hstarted, hsource, hresolved]

end TwoRuns

/-- A TLS listener with a key. -/
def keyedListener (keyFile : String) : TransportInfo :=
  { protocol := "tcp_ssl", port := 6443, certFile := "/etc/logos/tls/server.pem", keyFile }

/-- A daemon with one TLS listener, and a key of its own for the `ssl` block. -/
def tlsState (listenerKey sslKey : String) : DaemonRuntimeState where
  instanceId := "a1b2c3d4e5f6"
  pid := 4711
  resolved.modules := OrderedMap.emplace "core_service" [keyedListener listenerKey] ∅
  resolved.sslCert := "/etc/logos/tls/server.pem"
  resolved.sslKey := sslKey

/-- The listener's key does not show. -/
theorem listener_key_unpublished :
    DaemonRuntimeStateFile.document (tlsState "/etc/logos/tls/server.key" "") =
      DaemonRuntimeStateFile.document (tlsState "" "") :=
  (document_eq_iff (by rfl)).mpr ⟨rfl, rfl⟩

/-- The key of the `ssl` block does. -/
theorem ssl_key_published :
    (tlsState "" "/etc/logos/tls/server.key").withoutKeys = (tlsState "" "").withoutKeys ∧
      DaemonRuntimeStateFile.document (tlsState "" "/etc/logos/tls/server.key") ≠
        DaemonRuntimeStateFile.document (tlsState "" "") := by
  refine ⟨rfl, fun h => ?_⟩
  exact absurd (ssl_eq_of_document_eq h).2 (by decide)

end Logosctl
