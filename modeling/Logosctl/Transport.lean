/-
# From a listener's configuration to its advertisement

The daemon turns the listeners of a module into the set its runtime binds, and the set it bound
back into the form that is published.  Both directions map text to an enumeration, and text that
is none of the names falls into the default.  For the protocol that never happens, since the
reader refuses what it does not know; for the codec nobody refuses, so a misspelt one is bound and
advertised as json (`faithful_iff`).
-/
import Logosctl.DaemonConfig.Write

namespace Logosctl

open Library

/-! ## 1. The two directions -/

inductive LogosProtocol
  | localSocket
  | tcp
  | tcpSsl
  deriving DecidableEq, Repr

inductive LogosWireCodec
  | json
  | cbor
  deriving DecidableEq, Repr

/-- What the runtime binds. -/
structure LogosTransportConfig where
  protocol : LogosProtocol
  host : String
  port : UInt16
  caFile : String
  certFile : String
  keyFile : String
  verifyPeer : Bool
  codec : LogosWireCodec
  deriving DecidableEq, Repr

def protocolOf (protocol : String) : LogosProtocol :=
  if protocol = "tcp" then .tcp else if protocol = "tcp_ssl" then .tcpSsl else .localSocket

def codecOf (codec : String) : LogosWireCodec := if codec = "cbor" then .cbor else .json

def transportConfig (eff : TransportInfo) : LogosTransportConfig where
  protocol := protocolOf eff.protocol
  host := eff.host
  port := eff.port
  caFile := eff.caFile
  certFile := eff.certFile
  keyFile := eff.keyFile
  verifyPeer := eff.verifyPeer
  codec := codecOf eff.codec

/-- The port to bind: `allocated` where a listener on the network names none. -/
def effectivePort (allocated : UInt16) (src : TransportInfo) : UInt16 :=
  if src.protocol ≠ "local" ∧ src.port = 0 then allocated else src.port

/-- A listener that is to be given a port. -/
def AsksForPort (t : TransportInfo) : Prop := t.protocol ≠ "local" ∧ t.port = 0

/-- The listeners of `moduleName` to bind.  `allocate i host` is the ephemeral port the system
gives the `i`-th of them, 0 when it has none; without a port the daemon does not start. -/
def buildTransportSet (allocate : Nat → String → UInt16) (moduleName : String) :
    Nat → List TransportInfo → Except String (List LogosTransportConfig)
  | _, [] => .ok []
  | i, src :: infos =>
    let port := effectivePort (allocate i src.host) src
    if src.protocol ≠ "local" ∧ port = 0 then
      .error ("[" ++ moduleName ++ "] Failed to allocate ephemeral port for " ++ src.protocol)
    else
      match buildTransportSet allocate moduleName (i + 1) infos with
      | .error e => .error e
      | .ok out => .ok (transportConfig { src with port } :: out)

def protocolName : LogosProtocol → String
  | .tcp => "tcp"
  | .tcpSsl => "tcp_ssl"
  | .localSocket => "local"

def codecName : LogosWireCodec → String
  | .cbor => "cbor"
  | .json => "json"

/-- What is published of a listener: not the server's own certificate and key. -/
def advertised (c : LogosTransportConfig) : TransportInfo where
  protocol := protocolName c.protocol
  host := c.host
  port := c.port
  caFile := c.caFile
  verifyPeer := c.verifyPeer
  codec := codecName c.codec

def toAdvertised (set : List LogosTransportConfig) : List TransportInfo := set.map advertised

/-! ## 2. Fidelity -/

/-- What a listener is to be advertised as: itself, with the port it was given, json for an empty
codec, and no certificate or key. -/
def asAdvertised (port : UInt16) (t : TransportInfo) : TransportInfo :=
  { t with
    port := if t.protocol ≠ "local" ∧ t.port = 0 then port else t.port
    codec := codecOrJson t.codec
    certFile := ""
    keyFile := "" }

/-- Every listener, in order. -/
def allAsAdvertised (allocate : Nat → String → UInt16) : Nat → List TransportInfo →
    List TransportInfo
  | _, [] => []
  | i, t :: ts => asAdvertised (allocate i t.host) t :: allAsAdvertised allocate (i + 1) ts

/-- Whatever ports the system gives, the listeners that are bound use the codecs that were named,
and are advertised as what was configured. -/
def Faithful (moduleName : String) (ts : List TransportInfo) : Prop :=
  ∀ allocate i set, buildTransportSet allocate moduleName i ts = .ok set →
    set.map (fun c => codecName c.codec) = ts.map (fun t => codecOrJson t.codec) ∧
      toAdvertised set = allAsAdvertised allocate i ts

/-- A codec the daemon knows, or none. -/
def KnownCodec (codec : String) : Prop := codec = "json" ∨ codec = "cbor" ∨ codec = ""

/-- Listeners of some module of an accepted document. -/
def Accepted (ts : List TransportInfo) : Prop :=
  ∃ doc cfg name, parseDaemonConfigDocument doc = .ok cfg ∧ (name, ts) ∈ cfg.modules.entries

section Faithful

variable {allocate : Nat → String → UInt16} {moduleName : String} {t : TransportInfo}
  {ts : List TransportInfo} {set : List LogosTransportConfig} {p : UInt16}

/-- The protocol survives both directions, since it is one of the three. -/
theorem protocolName_protocolOf {protocol : String} (h : isKnownProtocol protocol = true) :
    protocolName (protocolOf protocol) = protocol := by
  rcases isKnownProtocol_iff.mp h with rfl | rfl | rfl <;> rfl

/-- The codec survives exactly when it is one that is known. -/
theorem codecName_codecOf_iff {codec : String} :
    codecName (codecOf codec) = codecOrJson codec ↔ KnownCodec codec := by
  unfold codecOf KnownCodec
  by_cases hcbor : codec = "cbor"
  · rw [hcbor]
    exact iff_of_true rfl (by simp)
  · by_cases hempty : codec = ""
    · rw [hempty]
      exact iff_of_true rfl (by simp)
    · rw [if_neg hcbor, codecOrJson_eq_self_iff.mpr hempty]
      simp [hcbor, hempty, codecName, eq_comm]

/-- One listener that is bound. -/
theorem buildTransportSet_cons {i : Nat}
    (h : buildTransportSet allocate moduleName i (t :: ts) = .ok set) :
    ∃ out, buildTransportSet allocate moduleName (i + 1) ts = .ok out ∧
      set = transportConfig { t with port := effectivePort (allocate i t.host) t } :: out := by
  rw [buildTransportSet] at h
  by_cases hport : t.protocol ≠ "local" ∧ effectivePort (allocate i t.host) t = 0
  · rw [if_pos hport] at h
    cases h
  · rw [if_neg hport] at h
    cases hout : buildTransportSet allocate moduleName (i + 1) ts with
    | error e =>
      rw [hout] at h
      cases h
    | ok out =>
      rw [hout] at h
      exact ⟨out, rfl, (Except.ok.inj h).symm⟩

/-- A listener with a known codec is advertised as configured. -/
theorem advertised_transportConfig (hknown : isKnownProtocol t.protocol = true)
    (hcodec : KnownCodec t.codec) (port : UInt16) :
    advertised (transportConfig { t with port := effectivePort port t }) = asAdvertised port t := by
  have hprotocol := protocolName_protocolOf hknown
  have hname := codecName_codecOf_iff.mpr hcodec
  exact congrArg₂ (fun protocol codec =>
    { t with protocol, codec, port := effectivePort port t, certFile := "", keyFile := "" })
    hprotocol hname

/-- The codecs that are bound. -/
theorem codecs_buildTransportSet : ∀ {ts : List TransportInfo} {i : Nat}
    {set : List LogosTransportConfig}, buildTransportSet allocate moduleName i ts = .ok set →
      set.map (fun c => codecName c.codec) = ts.map fun t => codecName (codecOf t.codec) := by
  intro ts
  induction ts with
  | nil =>
    rintro i set ⟨⟩
    rfl
  | cons t ts ih =>
    intro i set hset
    obtain ⟨out, hout, rfl⟩ := buildTransportSet_cons hset
    rw [List.map_cons, List.map_cons, ih hout]
    rfl

theorem faithful_of_knownCodec (hknown : ∀ t ∈ ts, isKnownProtocol t.protocol = true)
    (hcodec : ∀ t ∈ ts, KnownCodec t.codec) : Faithful moduleName ts := by
  intro allocate i set hset
  refine ⟨?_, ?_⟩
  · rw [codecs_buildTransportSet hset]
    exact List.map_congr_left fun t ht => codecName_codecOf_iff.mpr (hcodec t ht)
  · induction ts generalizing i set with
    | nil =>
      cases hset
      rfl
    | cons t ts ih =>
      obtain ⟨out, hout, rfl⟩ := buildTransportSet_cons hset
      have hrest := ih (fun t ht => hknown t (List.mem_cons_of_mem _ ht))
        (fun t ht => hcodec t (List.mem_cons_of_mem _ ht)) (i + 1) out hout
      have hfirst := advertised_transportConfig (hknown t List.mem_cons_self)
        (hcodec t List.mem_cons_self) (allocate i t.host)
      exact congrArg₂ List.cons hfirst hrest

theorem effectivePort_of_asks (h : AsksForPort t) (p : UInt16) : effectivePort p t = p := if_pos h

theorem effectivePort_of_not_asks (h : ¬ AsksForPort t) (p : UInt16) : effectivePort p t = t.port :=
  if_neg h

/-- A set is built when one port is handed out to all who ask, and these are its ports. -/
theorem exists_ports_buildTransportSet (hp : p ≠ 0) : ∀ {ts : List TransportInfo} (i : Nat),
    (∀ t ∈ ts, AsksForPort t → ∀ i, allocate i t.host = p) →
      ∃ set, buildTransportSet allocate moduleName i ts = .ok set ∧
        set.map (·.port) = ts.map (effectivePort p) := by
  intro ts
  induction ts with
  | nil => exact fun i _ => ⟨[], rfl, rfl⟩
  | cons t ts ih =>
    intro i hall
    obtain ⟨out, hout, hports⟩ := ih (i + 1) fun t ht => hall t (List.mem_cons_of_mem _ ht)
    have hport : effectivePort (allocate i t.host) t = effectivePort p t := by
      by_cases hasks : AsksForPort t
      · rw [hall t List.mem_cons_self hasks i]
      · rw [effectivePort_of_not_asks hasks, effectivePort_of_not_asks hasks]
    have hbound : ¬ (t.protocol ≠ "local" ∧ effectivePort p t = 0) := by
      rintro ⟨hnetwork, hzero⟩
      by_cases hasks : AsksForPort t
      · exact hp (by rwa [effectivePort_of_asks hasks] at hzero)
      · rw [effectivePort_of_not_asks hasks] at hzero
        exact hasks ⟨hnetwork, hzero⟩
    refine ⟨transportConfig { t with port := effectivePort p t } :: out, ?_, ?_⟩
    · simp only [buildTransportSet, hport, if_neg hbound, hout]
    · rw [List.map_cons, List.map_cons, hports]
      rfl

/-- With a port for everybody, every list is bound. -/
theorem exists_buildTransportSet (ts : List TransportInfo) (i : Nat) :
    ∃ set, buildTransportSet (fun _ _ => 1) moduleName i ts = .ok set := by
  obtain ⟨set, hset, -⟩ := @exists_ports_buildTransportSet (fun _ _ => 1) moduleName 1 (by decide)
    ts i fun _ _ _ _ => rfl
  exact ⟨set, hset⟩

/-- **When the listeners are what the document says**: exactly when every codec it names is one
the daemon knows, or is left out. -/
theorem faithful_iff (haccepted : Accepted ts) :
    Faithful moduleName ts ↔ ∀ t ∈ ts, KnownCodec t.codec := by
  obtain ⟨doc, cfg, name, hparse, hmem⟩ := haccepted
  have hknown := (wellFormedModules_of_parse hparse name ts hmem).2.2
  refine ⟨?_, faithful_of_knownCodec hknown⟩
  intro h t ht
  obtain ⟨set, hset⟩ := @exists_buildTransportSet moduleName ts 0
  obtain ⟨hcodecs, -⟩ := h _ 0 set hset
  rw [codecs_buildTransportSet hset] at hcodecs
  exact codecName_codecOf_iff.mp (List.map_inj_left.mp hcodecs t ht)

end Faithful

/-- A tcp listener whose codec is misspelt. -/
def misspeltDocument : Json := .obj [("modules", .obj [("core_service", .arr [
    .obj [("codec", .str "cbro"), ("host", .str "127.0.0.1"), ("port", .int 6001),
      ("protocol", .str "tcp")]])]), ("version", .int 2)]

def misspelt : TransportInfo where
  protocol := "tcp"
  host := "127.0.0.1"
  port := 6001
  codec := "cbro"

/-- **A misspelt codec becomes json.**  The document is accepted, and the listener is bound and
advertised with a codec it does not name. -/
theorem misspelt_codec_is_json :
    Accepted [misspelt] ∧
      toAdvertised <$> (buildTransportSet (fun _ _ => 0) "core_service" 0 [misspelt]) =
        .ok [{ misspelt with codec := "json" }] ∧
      ¬ Faithful "core_service" [misspelt] := by
  have hparse : parseDaemonConfigDocument misspeltDocument =
      .ok { modules := OrderedMap.emplace "core_service" [misspelt] ∅ } := by decide +kernel
  refine ⟨⟨_, _, "core_service", hparse, List.mem_singleton_self _⟩, by decide +kernel, ?_⟩
  intro h
  have hbuilt : buildTransportSet (fun _ _ => 0) "core_service" 0 [misspelt] =
      .ok [transportConfig misspelt] := by decide +kernel
  obtain ⟨hcodecs, -⟩ := h _ 0 _ hbuilt
  exact absurd hcodecs (by decide +kernel)

/-- A listener that leaves the codec out. -/
def plainTcp : TransportInfo where
  protocol := "tcp"
  host := "127.0.0.1"
  port := 6001

/-- It is faithful. -/
theorem plainTcp_faithful : Faithful "core_service" [plainTcp] := by
  have hparse : parseDaemonConfigDocument (.obj [("modules", .obj [("core_service", .arr [
      .obj [("host", .str "127.0.0.1"), ("port", .int 6001), ("protocol", .str "tcp")]])]),
      ("version", .int 2)]) =
      .ok { modules := OrderedMap.emplace "core_service" [plainTcp] ∅ } := by decide +kernel
  refine (faithful_iff ⟨_, _, "core_service", hparse, List.mem_singleton_self _⟩).mpr ?_
  intro t ht
  rw [List.mem_singleton.mp ht]
  exact Or.inl rfl

end Logosctl
