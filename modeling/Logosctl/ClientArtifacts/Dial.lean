/-
# Dialling by the configuration that a boot leaves

The configuration names the addresses that the daemon bound, as addresses to dial.  The reader has
other keys and other defaults than the daemon's own documents, and accepts it all the same
(`read_config`): each module is dialled by a local listener if it has one and by its first listener
otherwise.

An address that every interface answers to cannot be dialled, so it is replaced by a loopback.  It
is recognised by its text, in four spellings; any other spelling is bound as well and is written
into the configuration as it is (`dialable_iff`).
-/
import Logosctl.ClientArtifacts
import Logosctl.ClientState.Write
import Logosctl.PortAllocator

namespace Logosctl

open Library JsonSchema YamlJson

/-! ## 1. What the configuration is read as -/

/-- How a listener is dialled on the same host. -/
def dialSpecOf (t : TransportInfo) : ClientModuleTransport where
  protocol := t.protocol
  host := toClientDialHost t.host
  port := t.port
  codec := t.codec
  caFile := t.caFile
  verifyPeer := t.verifyPeer

/-- The entry of a listener, read. -/
def dialled (t : TransportInfo) : ClientModuleTransport := (dialSpecOf t).asWritten

/-- The entry of a module, read. -/
def dialledModule (ts : List TransportInfo) : ClientModuleTransport :=
  match pickClientDialTransport ts with
  | some t => dialled t
  | none => { protocol := "local" }

/-- The whole configuration, read. -/
def dialState (b : BootedDaemon) (tokenFileName : String) : ClientState where
  fileOk := true
  schemaVersion := kClientStateSchemaVersion
  tokenFile := tokenFileName
  instanceId := b.instanceId
  daemon := OrderedMap.emplace "core_service" (dialledModule b.coreServiceTransports)
    (OrderedMap.emplace "capability_module" (dialledModule b.capabilityModuleTransports) ∅)

/-- The listeners of a boot: each has one of the three protocols. -/
def Resolved (ts : List TransportInfo) : Prop := ∀ t ∈ ts, isKnownProtocol t.protocol = true

section Read

variable {fmt : Format} {b : BootedDaemon} {t : TransportInfo} {ts : List TransportInfo}
  {tokenFileName : String}

/-- What is advertised is resolved. -/
theorem resolved_toAdvertised (set : List LogosTransportConfig) : Resolved (toAdvertised set) := by
  intro t ht
  obtain ⟨c, -, rfl⟩ := List.mem_map.mp ht
  cases hprotocol : c.protocol <;> simp [advertised, hprotocol, protocolName, isKnownProtocol]

/-- An empty codec is left out, and the reader takes json for one that is left out. -/
theorem reads_codec {r : Reader} {codec : String}
    (h : r.obj.find? "codec" = if codec.isEmpty then none else some (.str codec)) :
    Reads (r.str "codec" "json") (codecOrJson codec) := by
  unfold codecOrJson
  split at h
  · next hempty =>
    rw [if_pos hempty]
    exact reads_str_absent h
  · next hnamed =>
    rw [if_neg hnamed]
    exact reads_str h

/-- The entry has what the reader looks for, under its names. -/
theorem entryFor_toClientEntry (hknown : isKnownProtocol t.protocol = true) :
    EntryFor (.obj (toClientEntry t)) (dialSpecOf t) where
  isObject := rfl
  protocol := by
    rcases isKnownProtocol_iff.mp hknown with hp | hp | hp <;>
      simp [toClientEntry, dialSpecOf, hp]
  host hlocal := by
    have hnetwork := (isKnownProtocol_iff.mp hknown).resolve_left hlocal
    simp [toClientEntry, dialSpecOf, hnetwork]
  port hlocal := by
    have hnetwork := (isKnownProtocol_iff.mp hknown).resolve_left hlocal
    simp [toClientEntry, dialSpecOf, hnetwork]
  codec hlocal _ := by
    have hnetwork := (isKnownProtocol_iff.mp hknown).resolve_left hlocal
    exact reads_codec (by simp [toClientEntry, dialSpecOf, hnetwork])
  caFile hssl := by
    have hp : t.protocol = "tcp_ssl" := hssl
    simp [toClientEntry, dialSpecOf, hp]
  verifyPeer hssl := by
    have hp : t.protocol = "tcp_ssl" := hssl
    simp [toClientEntry, dialSpecOf, hp]

theorem pick_mem (h : pickClientDialTransport ts = some t) : t ∈ ts := by
  unfold pickClientDialTransport at h
  rcases Option.or_eq_some_iff.mp h with hfound | ⟨-, hfirst⟩
  · exact List.mem_of_find?_eq_some hfound
  · exact List.mem_of_mem_head? hfirst

theorem reads_dialEntry (h : Resolved ts) (path : String) :
    Reads (ClientState.transportFromJson (.obj (dialEntry ts)) path) (some (dialledModule ts)) := by
  unfold dialEntry dialledModule
  cases hpick : pickClientDialTransport ts with
  | some t =>
    have hknown := h t (pick_mem hpick)
    exact (entryFor_toClientEntry hknown).reads hknown path
  | none =>
    -- the entry of a local listener
    exact (@entryFor_toClientEntry { protocol := "local" } rfl).reads rfl path

theorem reads_dialDaemon (hcore : Resolved b.coreServiceTransports)
    (hcapability : Resolved b.capabilityModuleTransports) :
    Reads (ClientState.daemonBlock ⟨.obj (clientDocument b tokenFileName), ""⟩)
      (some (dialState b tokenFileName).daemon) := by
  have hfind : (Json.obj (clientDocument b tokenFileName)).find? "daemon" = some (.obj
      [("capability_module", .obj (dialEntry b.capabilityModuleTransports)),
        ("core_service", .obj (dialEntry b.coreServiceTransports))]) := by
    have hsorted : assign "capability_module" (.obj (dialEntry b.capabilityModuleTransports))
        (assign "core_service" (.obj (dialEntry b.coreServiceTransports)) []) = _ :=
      if_pos (show "capability_module" < "core_service" by decide)
    rw [← hsorted]
    simp [clientDocument]
  refine reads_bind (reads_mapping hfind) ?_
  refine reads_bind (reads_dialEntry hcapability _) (reads_bind (reads_dialEntry hcore _) ?_)
  exact reads_pure _

/-- **The configuration is accepted.** -/
theorem parse_clientDocument (hcore : Resolved b.coreServiceTransports)
    (hcapability : Resolved b.capabilityModuleTransports) (hname : tokenFileName ≠ "") :
    parseClientStateDocument (.obj (clientDocument b tokenFileName)) =
      .ok (dialState b tokenFileName) := by
  refine parse_of_fields rfl
    (reads_integer (i := 2) (by simp [clientDocument]) (by decide) (by decide) (by decide)) ?_
  unfold ClientState.fields
  refine reads_bind (reads_str (s := tokenFileName) (by simp [clientDocument])) ?_
  refine reads_bind (reads_str (s := b.instanceId) (by simp [clientDocument])) ?_
  refine reads_bind (reads_dialDaemon hcore hcapability) ?_
  refine reads_bind reads_allOk ?_
  have hmodules : (dialState b tokenFileName).daemon.entries.isEmpty = false := by
    rw [List.isEmpty_eq_false_iff]
    exact List.ne_nil_of_mem (OrderedMap.exists_get? OrderedMap.mem_keys_emplace).choose_spec.2
  have htoken : tokenFileName.isEmpty = false := by simpa using hname
  rw [hmodules, htoken]
  exact reads_pure _

/-- **Read from the file.** -/
theorem read_config (hread : ReadsScalars fmt.yaml)
    (hcarries : fmt.Carries (clientDocument b tokenFileName))
    (hcore : Resolved b.coreServiceTransports)
    (hcapability : Resolved b.capabilityModuleTransports) (hname : tokenFileName ≠ "")
    (filePath : String) :
    ClientStateFile.read fmt.yaml.toYamlCpp filePath none
        (.text (fmt.config (clientDocument b tokenFileName))) =
      (dialState b tokenFileName, []) := by
  have hparse := parse_config hread (storable_clientDocument b tokenFileName) hcarries
  simp only [ClientStateFile.read, hparse, parse_clientDocument hcore hcapability hname]

end Read

/-! ## 2. What it is to say -/

/-- The socket layer that the runtime binds with: the address it reads in a host.  The loopbacks
are what they are. -/
structure SocketLayer where
  address : String → Option Address
  loopback4 : address "127.0.0.1" = some (.v4 ⟨[127, 0, 0, 1], rfl⟩)
  loopback6 : address "::1" = some (.v6 ⟨[0, 0, 0, 0, 0, 0, 0, 1], rfl⟩)

/-- A host with which the daemon binds every interface, by the allocator's reading of it or by
that of the socket layer. -/
def Wildcard (layer : SocketLayer) (host : String) : Prop :=
  ∃ a : Address, (bindAddress host = some a ∨ layer.address host = some a) ∧ a.Unspecified

/-- The listener to dial: a local one, or else the first. -/
def ToDial (ts : List TransportInfo) (t : TransportInfo) : Prop :=
  t ∈ ts ∧ t.protocol = "local" ∨ (∀ u ∈ ts, u.protocol ≠ "local") ∧ ts.head? = some t

/-- The entry has what the protocol of the listener uses. -/
structure DialsAs (e : ClientModuleTransport) (t : TransportInfo) : Prop where
  protocol : e.protocol = t.protocol
  port : t.protocol ≠ "local" → e.port = t.port
  codec : t.protocol ≠ "local" → e.codec = codecOrJson t.codec
  caFile : t.protocol = "tcp_ssl" → e.caFile = t.caFile
  verifyPeer : t.protocol = "tcp_ssl" → e.verifyPeer = t.verifyPeer

/-- A module with these listeners can be dialled by the entry. -/
structure DialsModule (layer : SocketLayer) (ts : List TransportInfo)
    (e : ClientModuleTransport) : Prop where
  listener : ∀ t, ts.head? = some t → ∃ u, ToDial ts u ∧ DialsAs e u
  noListener : ts = [] → e.protocol = "local"
  host : e.protocol ≠ "local" → ¬ Wildcard layer e.host

/-- A client that reads the file can dial both modules. -/
def Dials (layer : SocketLayer) (yaml : YamlCpp) (filePath : String) (b : BootedDaemon)
    (file : ConfigFile) : Prop :=
  ∃ state, ClientStateFile.read yaml filePath none file = (state, []) ∧ state.fileOk = true ∧
    (∃ e, state.daemon.get? "core_service" = some e ∧
      DialsModule layer b.coreServiceTransports e) ∧
    ∃ e, state.daemon.get? "capability_module" = some e ∧
      DialsModule layer b.capabilityModuleTransports e

/-- The listener to dial is on the network, and its host is a spelling of the unspecified address
that is not one of the four that are replaced. -/
def PassedThrough (layer : SocketLayer) (ts : List TransportInfo) : Prop :=
  (∀ u ∈ ts, u.protocol ≠ "local") ∧ ∃ t, ts.head? = some t ∧
    Wildcard layer t.host ∧ t.host ∉ ["", "0.0.0.0", "::", "::0"]

section Dials

variable {layer : SocketLayer} {fmt : Format} {b : BootedDaemon} {io : ArtifactIo}
  {dir : ClientDir} {host tokenFileName : String} {t : TransportInfo} {ts : List TransportInfo}

theorem not_wildcard_loopback4 : ¬ Wildcard layer "127.0.0.1" := by
  have hbind : bindAddress "127.0.0.1" = some (.v4 ⟨[127, 0, 0, 1], rfl⟩) := by decide +kernel
  rintro ⟨a, ha, hunspecified⟩
  rw [hbind, layer.loopback4, or_self] at ha
  cases ha
  exact absurd hunspecified (by decide)

theorem not_wildcard_loopback6 : ¬ Wildcard layer "::1" := by
  have hbind : bindAddress "::1" = some (.v6 ⟨[0, 0, 0, 0, 0, 0, 0, 1], rfl⟩) := by decide +kernel
  rintro ⟨a, ha, hunspecified⟩
  rw [hbind, layer.loopback6, or_self] at ha
  cases ha
  exact absurd hunspecified (by decide)

/-- What is left of the wildcards by the translation. -/
theorem wildcard_toClientDialHost_iff : Wildcard layer (toClientDialHost host) ↔
    Wildcard layer host ∧ host ∉ ["", "0.0.0.0", "::", "::0"] := by
  unfold toClientDialHost
  split
  · next h =>
    refine iff_of_false not_wildcard_loopback4 ?_
    rintro ⟨-, hother⟩
    rcases h with h | h <;> simp_all
  · next h4 =>
    split
    · next h =>
      refine iff_of_false not_wildcard_loopback6 ?_
      rintro ⟨-, hother⟩
      rcases h with h | h <;> simp_all
    · next h6 =>
      refine (and_iff_left ?_).symm
      rw [not_or] at h4 h6
      simp_all

/-- Written for IPv4, the wildcard has one spelling, and that is replaced; so what is passed through
is written for IPv6, or has a NUL behind it. -/
theorem replaced_of_unspecified4 {octets : List.Vector Nat 4}
    (h : bindAddress host = some (.v4 octets)) (hunspecified : (Address.v4 octets).Unspecified)
    (hnul : ∀ c ∈ host.toList, c.toNat ≠ 0) : host ∈ ["", "0.0.0.0", "::", "::0"] := by
  by_cases hempty : host = ""
  · rw [hempty]
    exact List.mem_cons_self
  · unfold bindAddress numericAddress at h
    rw [if_neg (by simpa using hempty), cString_eq hnul] at h
    split at h
    · cases h
    · obtain ⟨_, hoctets, heq⟩ := Option.map_eq_some_iff.mp h
      cases heq
      have hzero : octets = .replicate 4 0 := by
        simpa [Address.Unspecified] using hunspecified
      rw [String.toList_inj.mp (eq_of_unspecified4 hoctets (congrArg List.Vector.toList hzero))]
      decide

/-- The listener that is picked. -/
theorem toDial_of_pick (h : pickClientDialTransport ts = some t) : ToDial ts t := by
  unfold pickClientDialTransport at h
  rcases Option.or_eq_some_iff.mp h with hfound | ⟨hnone, hfirst⟩
  · exact Or.inl ⟨List.mem_of_find?_eq_some hfound, by simpa using List.find?_some hfound⟩
  · exact Or.inr ⟨by simpa using hnone, hfirst⟩

theorem dialsAs_dialled (hknown : isKnownProtocol t.protocol = true) : DialsAs (dialled t) t := by
  unfold dialled ClientModuleTransport.asWritten dialSpecOf
  rcases isKnownProtocol_iff.mp hknown with hp | hp | hp <;> constructor <;> simp [hp]

theorem host_dialled (hnetwork : t.protocol = "tcp" ∨ t.protocol = "tcp_ssl") :
    (dialled t).host = toClientDialHost t.host := by
  unfold dialled ClientModuleTransport.asWritten dialSpecOf
  rcases hnetwork with hp | hp <;> simp [hp]

/-- Only a module without listeners has none to dial. -/
theorem eq_nil_of_pick (h : pickClientDialTransport ts = none) : ts = [] :=
  List.head?_eq_none_iff.mp (Option.or_eq_none_iff.mp h).2

/-- **One module**: its entry can be dialled unless a wildcard was passed through. -/
theorem dialsModule_iff (hresolved : Resolved ts) :
    DialsModule layer ts (dialledModule ts) ↔ ¬ PassedThrough layer ts := by
  unfold dialledModule
  cases hpick : pickClientDialTransport ts with
  | none =>
    have hnil := eq_nil_of_pick hpick
    subst hnil
    refine iff_of_true ⟨nofun, fun _ => rfl, fun hnetwork => absurd rfl hnetwork⟩ ?_
    rintro ⟨-, t, hfirst, -⟩
    cases hfirst
  | some t =>
    have hknown := hresolved t (pick_mem hpick)
    have hdials := dialsAs_dialled hknown
    have hnotNil : ts ≠ [] := List.ne_nil_of_mem (pick_mem hpick)
    have hmodule : DialsModule layer ts (dialled t) ↔
        (t.protocol ≠ "local" → ¬ Wildcard layer (dialled t).host) := by
      rw [← hdials.protocol]
      exact ⟨fun h => h.host, fun h =>
        ⟨fun _ _ => ⟨t, toDial_of_pick hpick, hdials⟩, fun hnil => absurd hnil hnotNil, h⟩⟩
    refine hmodule.trans ?_
    by_cases hlocal : t.protocol = "local"
    · refine iff_of_true (fun hnetwork => absurd hlocal hnetwork) ?_
      rintro ⟨hnone, -⟩
      exact hnone t (pick_mem hpick) hlocal
    · have hnetwork := (isKnownProtocol_iff.mp hknown).resolve_left hlocal
      rw [host_dialled hnetwork, wildcard_toClientDialHost_iff]
      rcases toDial_of_pick hpick with ⟨-, hp⟩ | ⟨hnone, hfirst⟩
      · exact absurd hp hlocal
      · -- the first listener is the one that is dialled
        constructor
        · rintro h ⟨-, u, hu, hpassed⟩
          rw [hfirst] at hu
          cases hu
          exact h hlocal hpassed
        · exact fun h _ hpassed => h ⟨hnone, t, hfirst, hpassed⟩

/-- The token file that is named has a name. -/
theorem tokenFileName_ne_empty {yaml : YamlCpp} {instanceId : String} {file : ConfigFile}
    (h : tokenFileToWrite yaml instanceId file = some tokenFileName) : tokenFileName ≠ "" := by
  rcases tokenFileToWrite_eq_some_iff.mp h with ⟨-, rfl⟩ | ⟨-, -, -, -, rfl⟩
  · decide
  · unfold orAuto
    split
    · decide
    · next hnamed => simpa using hnamed

/-- The configuration that is written. -/
theorem config_writeLocalClientArtifacts
    (hwrites : tokenFileToWrite fmt.yaml.toYamlCpp b.instanceId dir.config = some tokenFileName)
    (hdir : io.createDirectories = true) (hconfig : io.writeConfig = true) :
    (writeLocalClientArtifacts fmt b io dir).2.config =
      .text (fmt.config (clientDocument b tokenFileName)) := by
  unfold writeLocalClientArtifacts
  simp only [hdir, hconfig, hwrites]
  cases io.writeAutoToken <;> rfl

theorem get?_dialState : (dialState b tokenFileName).daemon.get? "core_service" =
      some (dialledModule b.coreServiceTransports) ∧
    (dialState b tokenFileName).daemon.get? "capability_module" =
      some (dialledModule b.capabilityModuleTransports) := by
  simp only [dialState, OrderedMap.get?_emplace]
  exact ⟨rfl, rfl⟩

/-- Both modules, read from the file. -/
theorem dials_config_iff (hread : ReadsScalars fmt.yaml)
    (hcarries : fmt.Carries (clientDocument b tokenFileName))
    (hcore : Resolved b.coreServiceTransports)
    (hcapability : Resolved b.capabilityModuleTransports) (hname : tokenFileName ≠ "")
    (filePath : String) :
    Dials layer fmt.yaml.toYamlCpp filePath b
        (.text (fmt.config (clientDocument b tokenFileName))) ↔
      ¬ PassedThrough layer b.coreServiceTransports ∧
        ¬ PassedThrough layer b.capabilityModuleTransports := by
  have hfile := read_config hread hcarries hcore hcapability hname filePath
  obtain ⟨hcoreEntry, hcapabilityEntry⟩ := @get?_dialState b tokenFileName
  rw [← dialsModule_iff hcore, ← dialsModule_iff hcapability]
  constructor
  · rintro ⟨state, hstate, -, ⟨e, he, hdialsCore⟩, u, hu, hdialsCapability⟩
    rw [hfile] at hstate
    cases hstate
    rw [hcoreEntry] at he
    rw [hcapabilityEntry] at hu
    cases he
    cases hu
    exact ⟨hdialsCore, hdialsCapability⟩
  · rintro ⟨hdialsCore, hdialsCapability⟩
    exact ⟨_, hfile, rfl, ⟨_, hcoreEntry, hdialsCore⟩, _, hcapabilityEntry, hdialsCapability⟩

/-- **When the configuration that a boot writes can be dialled**: exactly when neither module has
a wildcard passed through.  It is accepted in every case (`read_config`). -/
theorem dialable_iff (layer : SocketLayer) (hread : ReadsScalars fmt.yaml)
    (hcore : Resolved b.coreServiceTransports)
    (hcapability : Resolved b.capabilityModuleTransports)
    (hwrites : tokenFileToWrite fmt.yaml.toYamlCpp b.instanceId dir.config = some tokenFileName)
    (hcarries : fmt.Carries (clientDocument b tokenFileName))
    (hdir : io.createDirectories = true) (hconfig : io.writeConfig = true) (filePath : String) :
    Dials layer fmt.yaml.toYamlCpp filePath b (writeLocalClientArtifacts fmt b io dir).2.config ↔
      ¬ PassedThrough layer b.coreServiceTransports ∧
        ¬ PassedThrough layer b.capabilityModuleTransports := by
  rw [config_writeLocalClientArtifacts hwrites hdir hconfig]
  exact dials_config_iff hread hcarries hcore hcapability (tokenFileName_ne_empty hwrites) filePath

end Dials

/-- A socket layer that reads what the allocator reads. -/
def numericLayer : SocketLayer where
  address := numericAddress
  loopback4 := by decide +kernel
  loopback6 := by decide +kernel

/-- A boot with one listener on the network. -/
def bootOn (host : String) : BootedDaemon where
  instanceId := "0f3a9c21d7b4"
  autoTokenRaw := "5e884898da28"
  issuedAt := "2025-01-02T00:00:00Z"
  coreServiceTransports := [{ protocol := "tcp", host, port := 6000 }]
  capabilityModuleTransports := [{ protocol := "local" }]

def bootOnText (host : String) : String :=
  "daemon:\n  capability_module:\n    transport: local\n  core_service:\n    codec: json\n" ++
  "    host: \"" ++ toClientDialHost host ++ "\"\n    port: 6000\n    transport: tcp\n" ++
  "instance_id: 0f3a9c21d7b4\ntoken_file: auto.json\nversion: 2\n"

/-- The formats, on the configuration of this boot. -/
def bootOnFormat (host : String) : Format where
  yaml := knowingAll [(bootOnText host, clientDocument (bootOn host) "auto.json")]
  jsonText := Json.dump4 fun _ _ => ""
  parseJson := parseOnly (autoTokenDocument (bootOn host))
  flavor := .modern

theorem carries_bootOn (host : String) :
    (bootOnFormat host).Carries (clientDocument (bootOn host) "auto.json") :=
  carries_knowingAll (bootOnText host, clientDocument (bootOn host) "auto.json") []

theorem resolved_bootOn (host : String) : Resolved (bootOn host).coreServiceTransports ∧
    Resolved (bootOn host).capabilityModuleTransports := by
  refine ⟨fun t ht => ?_, fun t ht => ?_⟩ <;> rw [List.mem_singleton.mp ht] <;> rfl

/-- The IPv6 wildcard as it is usually written is replaced. -/
theorem usual_wildcard_dialable :
    Dials numericLayer (bootOnFormat "::").yaml.toYamlCpp "config.yaml" (bootOn "::")
      (writeLocalClientArtifacts (bootOnFormat "::") (bootOn "::") .smooth
        ⟨.absent, none⟩).2.config := by
  refine (dialable_iff numericLayer readsScalars_knowingAll (resolved_bootOn "::").1
    (resolved_bootOn "::").2 rfl (carries_bootOn "::") rfl rfl "config.yaml").mpr ⟨?_, ?_⟩
  · rintro ⟨-, t, ⟨⟩, -, hother⟩
    exact hother (by decide)
  · rintro ⟨hnone, -⟩
    exact hnone _ List.mem_cons_self rfl

/-- **A wildcard written in full.**  The allocator binds it, and the configuration tells the client
to dial it. -/
theorem full_wildcard_not_dialable :
    allocatedPort (insistent 6000) [] 0 "0:0:0:0:0:0:0:0" = 6000 ∧
      ¬ Dials numericLayer (bootOnFormat "0:0:0:0:0:0:0:0").yaml.toYamlCpp "config.yaml"
        (bootOn "0:0:0:0:0:0:0:0")
        (writeLocalClientArtifacts (bootOnFormat "0:0:0:0:0:0:0:0") (bootOn "0:0:0:0:0:0:0:0")
          .smooth ⟨.absent, none⟩).2.config := by
  have haddress : bindAddress "0:0:0:0:0:0:0:0" =
      some (.v6 ⟨[0, 0, 0, 0, 0, 0, 0, 0], rfl⟩) := by decide +kernel
  refine ⟨allocatedPort_insistent haddress 0, ?_⟩
  obtain ⟨hcore, hcapability⟩ := resolved_bootOn "0:0:0:0:0:0:0:0"
  rw [config_writeLocalClientArtifacts rfl rfl rfl, dials_config_iff readsScalars_knowingAll
    (carries_bootOn _) hcore hcapability (by decide) "config.yaml"]
  rintro ⟨hnot, -⟩
  refine hnot ⟨?_, _, rfl, ⟨_, Or.inl haddress, by decide⟩, by decide⟩
  intro t ht
  rw [List.mem_singleton.mp ht]
  decide

end Logosctl
