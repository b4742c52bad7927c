/-
# Writing the client's configuration

The encoder beside the client's reader.  It leaves out what a protocol makes no use of, an empty CA
and an empty instance id, and spells an empty codec as json.  A state whose modules have names and
known protocols is read as it was written (`parse_clientStateDocument`), and dials the same: what
is left out is what the protocol ignores (`dialSpec_asWritten`).

A module with any other protocol is written all the same.
-/
import Logosctl.ClientState
import Logosctl.Transport

namespace Logosctl

open Library JsonSchema YamlJson

/-! ## 1. The encoder -/

def ClientState.transportToJson (t : ClientModuleTransport) : Json :=
  let j := assign "transport" (.str t.protocol) []
  let j :=
    if t.protocol ≠ "local" then
      assign "codec" (.str (codecOrJson t.codec)) (assign "port" (.int t.port.toNat)
        (assign "host" (.str t.host) j))
    else j
  .obj (if t.protocol = "tcp_ssl" then
      assign "verify_peer" (.bool t.verifyPeer) (assignNonEmpty "ca" t.caFile j)
    else j)

def ClientState.daemonToJson (daemon : OrderedMap String ClientModuleTransport) :
    List (String × Json) :=
  daemon.entries.foldl (fun obj e => assign e.1 (ClientState.transportToJson e.2) obj) []

/-- The document `ClientStateFile::write` writes. -/
def ClientStateFile.document (state : ClientState) : List (String × Json) :=
  let obj := assign "version" (.int kClientStateSchemaVersion) []
  let obj := assign "token_file" (.str state.tokenFile) obj
  let obj := assignNonEmpty "instance_id" state.instanceId obj
  assign "daemon" (.obj (ClientState.daemonToJson state.daemon)) obj

/-! ## 2. What the reader hands over -/

/-- The modules have names, and each is dialled by one of the three protocols. -/
def Dialable (daemon : OrderedMap String ClientModuleTransport) : Prop :=
  ∀ name t, (name, t) ∈ daemon.entries → name ≠ "" ∧ isKnownProtocol t.protocol = true

section Dialable

variable {r : Reader} {t : ClientModuleTransport} {daemon : OrderedMap String ClientModuleTransport}
  {j obj : Json} {path name : String} {state : ClientState}

theorem dialable_empty : Dialable ∅ := nofun

theorem dialable_emplace (h : Dialable daemon) (hname : name ≠ "")
    (ht : isKnownProtocol t.protocol = true) : Dialable (daemon.emplace name t) := by
  intro name' t' hmem
  rcases OrderedMap.mem_entries_emplace hmem with ⟨-, heq⟩ | hmem
  · obtain ⟨rfl, rfl⟩ := Prod.mk.inj heq
    exact ⟨hname, ht⟩
  · exact h name' t' hmem

/-- The endpoint does not touch the protocol. -/
theorem yields_endpointFields :
    Yields (ClientState.endpointFields r t) fun t' => t'.protocol = t.protocol := by
  unfold ClientState.endpointFields
  split
  · exact yields_pure rfl
  · iterate 3 refine yields_after fun _ => ?_
    exact yields_pure rfl

theorem yields_tlsFields :
    Yields (ClientState.tlsFields r t) fun t' => t'.protocol = t.protocol := by
  unfold ClientState.tlsFields
  split
  · iterate 2 refine yields_after fun _ => ?_
    exact yields_pure rfl
  · exact yields_pure rfl

theorem yields_clientTransport : Yields (ClientState.transportFromJson j path) fun o =>
    ∀ t, o = some t → isKnownProtocol t.protocol = true := by
  unfold ClientState.transportFromJson
  refine yields_ite (fun _ => yields_after fun _ => yields_pure nofun) fun _ => ?_
  refine yields_after fun protocol => ?_
  refine yields_ite (fun _ => yields_after fun _ => yields_pure nofun) fun hknown => ?_
  rw [Bool.not_eq_true', Bool.not_eq_false] at hknown
  refine yields_bind yields_endpointFields fun t ht => ?_
  refine yields_bind yields_tlsFields fun t' ht' => ?_
  refine yields_after fun usable => yields_pure ?_
  intro u hu
  split at hu
  · cases hu
    rw [ht', ht]
    exact hknown
  · cases hu

theorem yields_daemonFromJson (kvs : List (String × Json)) :
    ∀ acc, Dialable acc → Yields (ClientState.daemonFromJson r kvs acc) fun o =>
      ∀ daemon, o = some daemon → Dialable daemon := by
  induction kvs with
  | nil =>
    intro acc hacc
    refine yields_pure ?_
    rintro _ ⟨⟩
    exact hacc
  | cons kv kvs ih =>
    intro acc hacc
    obtain ⟨name, j⟩ := kv
    unfold ClientState.daemonFromJson
    refine yields_ite (fun _ => ih acc hacc) fun hname => ?_
    refine yields_bind yields_clientTransport fun found hfound => ?_
    cases found with
    | none => exact yields_pure nofun
    | some t =>
      exact ih _ (dialable_emplace hacc (by simpa using hname) (hfound t rfl))

theorem yields_fields (schemaVersion : Int) :
    Yields (ClientState.fields obj schemaVersion) fun o =>
      ∀ state, o = some state → Dialable state.daemon := by
  have hblock : Yields (ClientState.daemonBlock ⟨obj, ""⟩) fun o =>
      ∀ daemon, o = some daemon → Dialable daemon := by
    refine yields_after fun found => ?_
    cases found with
    | none =>
      refine yields_pure ?_
      rintro _ ⟨⟩
      exact dialable_empty
    | some kvs => exact yields_daemonFromJson kvs ∅ dialable_empty
  refine yields_after fun _ => yields_after fun _ => yields_bind hblock fun found hfound => ?_
  cases found with
  | none => exact yields_pure nofun
  | some daemon =>
    refine yields_after fun usable => yields_pure ?_
    intro state hstate
    split at hstate
    · cases hstate
      exact hfound daemon rfl
    · cases hstate

/-- **What is accepted is dialable.** -/
theorem dialable_of_parse (h : parseClientStateDocument obj = .ok state) :
    Dialable state.daemon := by
  unfold parseClientStateDocument at h
  split at h
  · cases h
  · rcases hversion : (Reader.integer ⟨obj, ""⟩ "version" 0).run {} with ⟨v, errs⟩
    rw [hversion] at h
    dsimp only at h
    split_ifs at h
    have hfields := @yields_fields obj (Json.toInt32 v) errs
    cases hrun : (ClientState.fields obj (Json.toInt32 v)).run errs with
    | mk found errs' =>
      rw [hrun] at h hfields
      cases found with
      | none => cases h
      | some s =>
        cases h
        exact hfields state rfl

/-- Whatever is on disk, what is read of it is dialable. -/
theorem dialable_of_read (yaml : YamlCpp) (filePath : String) (file : ConfigFile) :
    Dialable (ClientStateFile.read yaml filePath none file).1.daemon := by
  unfold ClientStateFile.read
  split
  · next h => cases h
  · exact dialable_empty
  · exact dialable_empty
  · split
    · exact dialable_empty
    · split
      · exact dialable_empty
      · next h => exact dialable_of_parse h

end Dialable

/-! ## 3. Reading back what was written -/

/-- What the file keeps of an endpoint: what its protocol uses. -/
def ClientModuleTransport.asWritten (t : ClientModuleTransport) : ClientModuleTransport :=
  if t.protocol = "tcp_ssl" then { t with codec := codecOrJson t.codec }
  else if t.protocol = "tcp" then
    { protocol := "tcp", host := t.host, port := t.port, codec := codecOrJson t.codec }
  else { protocol := t.protocol }

/-- What the file keeps of a state. -/
def ClientState.asWritten (state : ClientState) : ClientState where
  fileOk := !state.daemon.entries.isEmpty && !state.tokenFile.isEmpty
  schemaVersion := kClientStateSchemaVersion
  tokenFile := state.tokenFile
  instanceId := state.instanceId
  daemon := state.daemon.mapValues ClientModuleTransport.asWritten

section ReadBack

variable {t : ClientModuleTransport} {state : ClientState} {j obj : Json} {dotted : String}

/-- In the entry `j` the reader finds what the protocol of `t` uses. -/
structure EntryFor (j : Json) (t : ClientModuleTransport) : Prop where
  isObject : j.isObject = true
  protocol : j.find? "transport" = some (.str t.protocol)
  host : t.protocol ≠ "local" → j.find? "host" = some (.str t.host)
  port : t.protocol ≠ "local" → j.find? "port" = some (.int t.port.toNat)
  codec : t.protocol ≠ "local" → ∀ path,
    Reads (Reader.str ⟨j, path⟩ "codec" "json") (codecOrJson t.codec)
  caFile : t.protocol = "tcp_ssl" →
    j.find? "ca" = if t.caFile.isEmpty then none else some (.str t.caFile)
  verifyPeer : t.protocol = "tcp_ssl" → j.find? "verify_peer" = some (.bool t.verifyPeer)

/-- The endpoint of a module that is not local. -/
theorem EntryFor.reads_endpointFields (h : EntryFor j t) (hlocal : t.protocol ≠ "local")
    (path : String) :
    Reads (ClientState.endpointFields ⟨j, path⟩ { protocol := t.protocol })
      { protocol := t.protocol, host := t.host, port := t.port, codec := codecOrJson t.codec } := by
  unfold ClientState.endpointFields
  rw [if_neg hlocal]
  refine reads_bind (reads_str (h.host hlocal)) ?_
  refine reads_bind (reads_port t.port (h.port hlocal)) ?_
  refine reads_bind (h.codec hlocal path) ?_
  rw [port_ofNat]
  exact reads_pure _

/-- The rest of what TLS reads. -/
theorem EntryFor.reads_tlsFields (h : EntryFor j t) (hssl : t.protocol = "tcp_ssl") (path : String)
    (u : ClientModuleTransport) (hu : u.protocol = "tcp_ssl") :
    Reads (ClientState.tlsFields ⟨j, path⟩ u)
      { u with caFile := t.caFile, verifyPeer := t.verifyPeer } := by
  unfold ClientState.tlsFields
  rw [if_pos hu]
  refine reads_bind (reads_str_nonEmpty (h.caFile hssl)) ?_
  refine reads_bind (reads_boolean (h.verifyPeer hssl)) ?_
  exact reads_pure _

/-- **An entry is read** as what the protocol uses, whoever wrote it. -/
theorem EntryFor.reads (h : EntryFor j t) (hknown : isKnownProtocol t.protocol = true)
    (path : String) : Reads (ClientState.transportFromJson j path) (some t.asWritten) := by
  unfold ClientState.transportFromJson
  rw [h.isObject]
  refine reads_bind (reads_str h.protocol) ?_
  rw [hknown]
  have hrest : ∀ u : ClientModuleTransport, Reads (do
      return if ← allOk then some u else none) (some u) :=
    fun u => reads_bind reads_allOk (reads_pure _)
  unfold ClientModuleTransport.asWritten
  rcases isKnownProtocol_iff.mp hknown with hp | hp | hp
  · rw [hp]
    exact reads_bind (reads_pure _) (reads_bind (reads_pure _) (hrest _))
  · have hlocal : t.protocol ≠ "local" := by
      rw [hp]
      decide
    refine reads_bind (h.reads_endpointFields hlocal _) ?_
    rw [hp]
    exact reads_bind (reads_pure _) (hrest _)
  · have hlocal : t.protocol ≠ "local" := by
      rw [hp]
      decide
    rw [if_pos hp]
    exact reads_bind (h.reads_endpointFields hlocal _)
      (reads_bind (h.reads_tlsFields hp _ _ hp) (hrest _))

/-- What the encoder writes. -/
theorem entryFor_transportToJson (t : ClientModuleTransport) :
    EntryFor (ClientState.transportToJson t) t where
  isObject := rfl
  protocol := by simp [ClientState.transportToJson]
  host hlocal := by simp [ClientState.transportToJson, hlocal]
  port hlocal := by simp [ClientState.transportToJson, hlocal]
  codec hlocal _ := reads_str (by simp [ClientState.transportToJson, hlocal])
  caFile hssl := by simp [ClientState.transportToJson, hssl]
  verifyPeer hssl := by simp [ClientState.transportToJson, hssl]

theorem daemonToJson_eq (daemon : OrderedMap String ClientModuleTransport) :
    ClientState.daemonToJson daemon =
      daemon.entries.map fun e => (e.1, ClientState.transportToJson e.2) :=
  foldl_assign ClientState.transportToJson [] nofun daemon.sorted

theorem storable_clientTransport (t : ClientModuleTransport) :
    Storable (ClientState.transportToJson t) := by
  have htransport := @storable_assign "transport" _ _ (.str t.protocol) storable_empty
  have hendpoint : Storable (.obj (if t.protocol ≠ "local" then
      assign "codec" (.str (codecOrJson t.codec)) (assign "port" (.int t.port.toNat)
        (assign "host" (.str t.host) (assign "transport" (.str t.protocol) [])))
      else assign "transport" (.str t.protocol) [])) := by
    split
    · exact storable_assign (.str _) (storable_assign (storable_port _)
        (storable_assign (.str _) htransport))
    · exact htransport
  unfold ClientState.transportToJson
  dsimp only
  split
  · exact storable_assign (.bool _) (storable_assignNonEmpty hendpoint)
  · exact hendpoint

/-- What is written can be stored. -/
theorem storable_clientState (state : ClientState) :
    Storable (.obj (ClientStateFile.document state)) := by
  have hdaemon : Storable (.obj (ClientState.daemonToJson state.daemon)) := by
    rw [daemonToJson_eq]
    refine .obj _ (state.daemon.sorted.map _ fun _ _ h => h) ?_
    intro kv hkv
    obtain ⟨e, -, rfl⟩ := List.mem_map.mp hkv
    exact storable_clientTransport e.2
  exact storable_assign hdaemon (storable_assignNonEmpty (storable_assign (.str _)
    (storable_assign (.int _ (by decide) (by decide)) storable_empty)))

/-- The modules written, read after the modules `acc` that come before them. -/
theorem reads_daemonFromJson (r : Reader) {entries : List (String × ClientModuleTransport)}
    (h : ∀ e ∈ entries, e.1 ≠ "" ∧ isKnownProtocol e.2.protocol = true) :
    ∀ acc : OrderedMap String ClientModuleTransport,
      (acc.entries ++ entries.map fun e => (e.1, e.2.asWritten)).Pairwise
        (fun a b => a.1 < b.1) →
      ∃ out : OrderedMap String ClientModuleTransport, Reads (ClientState.daemonFromJson r
          (entries.map fun e => (e.1, ClientState.transportToJson e.2)) acc) (some out) ∧
        out.entries = acc.entries ++ entries.map fun e => (e.1, e.2.asWritten) := by
  induction entries with
  | nil => exact fun acc _ => ⟨acc, reads_pure _, (List.append_nil _).symm⟩
  | cons e es ih =>
    intro acc hsorted
    obtain ⟨name, t⟩ := e
    obtain ⟨hname, hknown⟩ := h _ List.mem_cons_self
    have hpast : (acc.emplace name t.asWritten).entries = acc.entries ++ [(name, t.asWritten)] :=
      OrderedMap.emplaceEntry_past fun e he =>
        (List.pairwise_append.mp hsorted).2.2 e he _ List.mem_cons_self
    obtain ⟨out, hreads, hout⟩ := ih (fun e he => h e (List.mem_cons_of_mem _ he))
      (acc.emplace name t.asWritten) (by rw [hpast, List.append_assoc]; exact hsorted)
    refine ⟨out, ?_, by simp [hout, hpast]⟩
    rw [List.map_cons, ClientState.daemonFromJson, if_neg (by simpa using hname)]
    exact reads_bind ((entryFor_transportToJson t).reads hknown _) hreads

theorem reads_daemonBlock
    (hfind : obj.find? "daemon" = some (.obj (ClientState.daemonToJson state.daemon)))
    (h : Dialable state.daemon) :
    Reads (ClientState.daemonBlock ⟨obj, dotted⟩) (some state.asWritten.daemon) := by
  have hsorted : (state.daemon.entries.map fun e => (e.1, e.2.asWritten)).Pairwise
      fun a b => a.1 < b.1 := state.daemon.sorted.map _ fun _ _ h => h
  obtain ⟨out, hreads, hout⟩ := reads_daemonFromJson ⟨obj, dotted⟩ (fun e he => h e.1 e.2 he) ∅
    hsorted
  have heq : out = state.asWritten.daemon := OrderedMap.ext hout
  refine reads_bind (reads_mapping hfind) ?_
  rw [daemonToJson_eq, ← heq]
  exact hreads

/-- A document of the right version is accepted when its fields are read. -/
theorem parse_of_fields (hobj : obj.isObject = true)
    (hversion : Reads (Reader.integer ⟨obj, ""⟩ "version" 0) kClientStateSchemaVersion)
    (hfields : Reads (ClientState.fields obj kClientStateSchemaVersion) (some state)) :
    parseClientStateDocument obj = .ok state := by
  have h32 : Json.toInt32 kClientStateSchemaVersion = kClientStateSchemaVersion := by decide
  unfold Reads at hversion hfields
  unfold parseClientStateDocument
  rw [hobj, hversion]
  simp [Errors.ok, h32, hfields]

/-- **What was written is accepted**, and hands over what the file keeps. -/
theorem parse_clientStateDocument (h : Dialable state.daemon) :
    parseClientStateDocument (.obj (ClientStateFile.document state)) = .ok state.asWritten := by
  refine parse_of_fields rfl
    (reads_integer (by simp [ClientStateFile.document]) (by decide) (by decide) (by decide)) ?_
  unfold ClientState.fields
  refine reads_bind (reads_str (s := state.tokenFile) (by simp [ClientStateFile.document])) ?_
  refine reads_bind (reads_str_nonEmpty (s := state.instanceId)
    (by simp [ClientStateFile.document])) ?_
  refine reads_bind (reads_daemonBlock (by simp [ClientStateFile.document]) h) ?_
  refine reads_bind reads_allOk ?_
  have hempty : state.asWritten.daemon.entries.isEmpty = state.daemon.entries.isEmpty :=
    List.isEmpty_map
  simp only [hempty]
  exact reads_pure _

end ReadBack

/-! ## 4. Dialling -/

/-- What the SDK is handed to dial one module; a word that is none of the three dials the local
socket. -/
def toCfg (t : ClientModuleTransport) : LogosTransportConfig where
  protocol := protocolOf t.protocol
  host := t.host
  port := t.port
  caFile := t.caFile
  certFile := ""
  keyFile := ""
  verifyPeer := t.verifyPeer
  codec := codecOf t.codec

/-- Without what the protocol ignores: of a local socket everything else, of plain TCP what is for
TLS. -/
def LogosTransportConfig.used (cfg : LogosTransportConfig) : LogosTransportConfig :=
  match cfg.protocol with
  | .localSocket =>
    { protocol := .localSocket, host := "", port := 0, caFile := "", certFile := "", keyFile := "",
      verifyPeer := true, codec := .json }
  | .tcp => { cfg with caFile := "", verifyPeer := true }
  | .tcpSsl => cfg

/-- How each module is dialled. -/
def ClientState.dialSpec (state : ClientState) : OrderedMap String LogosTransportConfig :=
  state.daemon.mapValues fun t => (toCfg t).used

/-- An empty codec dials as json. -/
theorem codecOf_codecOrJson (codec : String) : codecOf (codecOrJson codec) = codecOf codec := by
  unfold codecOrJson
  split
  · next h =>
    rw [String.isEmpty_iff.mp h]
    rfl
  · rfl

/-- What is left out is what the protocol ignores. -/
theorem used_toCfg_asWritten (t : ClientModuleTransport) :
    (toCfg t.asWritten).used = (toCfg t).used := by
  by_cases hssl : t.protocol = "tcp_ssl"
  · simp [ClientModuleTransport.asWritten, toCfg, protocolOf, hssl, LogosTransportConfig.used,
      codecOf_codecOrJson]
  · by_cases htcp : t.protocol = "tcp"
    · simp [ClientModuleTransport.asWritten, toCfg, protocolOf, htcp, LogosTransportConfig.used,
        codecOf_codecOrJson]
    · simp [ClientModuleTransport.asWritten, toCfg, protocolOf, hssl, htcp,
        LogosTransportConfig.used]

/-- **What was written dials the same.** -/
theorem dialSpec_asWritten (state : ClientState) : state.asWritten.dialSpec = state.dialSpec := by
  unfold ClientState.dialSpec ClientState.asWritten
  rw [OrderedMap.mapValues_mapValues]
  exact congrArg state.daemon.mapValues (funext used_toCfg_asWritten)

end Logosctl
