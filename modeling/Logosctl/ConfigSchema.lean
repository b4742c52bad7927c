/-
# The keys of the two configuration documents

Which keys the daemon's reader and the client's reader look at, at every depth.  The two were never
unified: the daemon says `protocol` and `ca_file` where the client says `transport` and `ca`.  Both
readers are blind to every other key (`parseDaemonConfigDocument_prune`,
`parseClientStateDocument_prune`).
-/
import Logosctl.ClientState
import Logosctl.JsonSchema.Keys

namespace Logosctl

open Library JsonSchema

/-! ## 1. The daemon's document -/

/-- Keys under which nothing further is looked at. -/
def leaves (keys : List String) : List (String × Schema) := keys.map fun key => (key, .leaf)

def daemonTransportSchema : Schema :=
  .fields (leaves ["protocol", "host", "port", "ca_file", "verify_peer", "cert", "key", "codec"])

/-- Both spellings of a module's transports. -/
def daemonModuleSchema : Schema :=
  .listOrFields daemonTransportSchema [("transports", .list daemonTransportSchema)]

def sslSchema : Schema := .fields (leaves ["cert", "key", "ca"])

def dirsSchema : Schema :=
  .fields (leaves ["modules", "plugins", "keyring", "data", "cache", "logs"])

def loggingSchema : Schema :=
  .fields (leaves ["enabled", "file", "max_size_mb", "max_files", "console"])

/-- The blocks of the document, and the settings at its top level. -/
def daemonSchema : Schema :=
  .fields ([("modules", .named daemonModuleSchema), ("ssl", sslSchema), ("dirs", dirsSchema),
    ("logging", loggingSchema)] ++
    leaves ["version", "modules_dirs", "persistence_path", "insecure_tcp", "container",
      "access_policy", "access_group", "signature_policy"])

section Daemon

variable {obj j : Json} {dotted path : String}

theorem transportFromJson_prune :
    transportFromJson (prune daemonTransportSchema j) path = transportFromJson j path := by
  have hprotocol : daemonTransportSchema.field? "protocol" = some .leaf := rfl
  have hhost : daemonTransportSchema.field? "host" = some .leaf := rfl
  have hport : daemonTransportSchema.field? "port" = some .leaf := rfl
  have hca : daemonTransportSchema.field? "ca_file" = some .leaf := rfl
  have hverify : daemonTransportSchema.field? "verify_peer" = some .leaf := rfl
  have hcert : daemonTransportSchema.field? "cert" = some .leaf := rfl
  have hkey : daemonTransportSchema.field? "key" = some .leaf := rfl
  have hcodec : daemonTransportSchema.field? "codec" = some .leaf := rfl
  simp only [transportFromJson, transportFields, isObject_prune, mismatch_prune,
    str_prune hprotocol, str_prune hhost, integer_prune hport, str_prune hca,
    boolean_prune hverify, str_prune hcert, str_prune hkey, str_prune hcodec, Reader.path]

theorem transportsFromJson_prune (js : List Json) : ∀ i,
    transportsFromJson path i (pruneElems daemonTransportSchema js) =
      transportsFromJson path i js := by
  induction js with
  | nil => exact fun _ => rfl
  | cons j js ih =>
    intro i
    simp only [pruneElems, transportsFromJson, transportFromJson_prune, ih]

/-- The same block, of the transports without what is not looked at. -/
def ModuleBlock.prune : ModuleBlock → ModuleBlock
  | .skipped => .skipped
  | .refused => .refused
  | .transports entries => .transports (pruneElems daemonTransportSchema entries)

theorem moduleBlock_prune :
    moduleBlock (prune daemonModuleSchema j) path = ModuleBlock.prune <$> moduleBlock j path := by
  cases j with
  | obj kvs =>
    have htransports : daemonModuleSchema.field? "transports" =
        some (.list daemonTransportSchema) := rfl
    have hlist := @list_prune _ _ (.obj kvs) (path ++ ".") _ htransports "a list of transports"
    rw [prune] at hlist ⊢
    simp only [moduleBlock, hlist, map_bind, bind_map_left]
    refine bind_congr (m := Checked) fun found => ?_
    cases found with
    | none =>
      simp only [Option.map_none, map_bind, map_pure]
      refine bind_congr (m := Checked) fun usable => ?_
      cases usable <;> rfl
    | some es => rfl
  | _ => rfl

theorem modulesFromJson_prune (kvs : List (String × Json)) : ∀ acc : Modules,
    modulesFromJson ⟨prune daemonSchema obj, dotted⟩ (pruneMembers (.named daemonModuleSchema) kvs)
        acc = modulesFromJson ⟨obj, dotted⟩ kvs acc := by
  induction kvs with
  | nil => exact fun _ => rfl
  | cons kv kvs ih =>
    intro acc
    obtain ⟨moduleName, moduleObj⟩ := kv
    rw [pruneMembers, Schema.field?]
    cases hname : moduleName.isEmpty with
    | true => simp only [modulesFromJson, hname, if_true, ih]
    | false =>
      simp only [modulesFromJson, hname, Bool.false_eq_true, if_false, moduleBlock_prune,
        bind_map_left]
      refine bind_congr (m := Checked) fun block => ?_
      cases block with
      | skipped => exact ih acc
      | refused => rfl
      | transports es => simp only [ModuleBlock.prune, transportsFromJson_prune, ih, Reader.path]

theorem modulesBlock_prune :
    modulesBlock ⟨prune daemonSchema obj, dotted⟩ = modulesBlock ⟨obj, dotted⟩ := by
  have hmodules : daemonSchema.field? "modules" = some (.named daemonModuleSchema) := rfl
  simp only [modulesBlock, mapping_prune hmodules, bind_map_left]
  refine bind_congr (m := Checked) fun found => ?_
  cases found with
  | none => rfl
  | some kvs => exact modulesFromJson_prune kvs ∅

theorem sslFromJson_prune :
    sslFromJson ⟨prune daemonSchema obj, dotted⟩ = sslFromJson ⟨obj, dotted⟩ := by
  have hssl : daemonSchema.field? "ssl" = some sslSchema := rfl
  have hcert : sslSchema.field? "cert" = some .leaf := rfl
  have hkey : sslSchema.field? "key" = some .leaf := rfl
  have hca : sslSchema.field? "ca" = some .leaf := rfl
  simp only [sslFromJson, mapping_prune hssl, bind_map_left]
  refine bind_congr (m := Checked) fun found => ?_
  cases found with
  | none => rfl
  | some kvs =>
    simp only [Option.map_some, ← prune_obj, str_prune hcert, str_prune hkey, str_prune hca,
      Reader.path]

theorem dirsFromJson_prune :
    dirsFromJson ⟨prune daemonSchema obj, dotted⟩ = dirsFromJson ⟨obj, dotted⟩ := by
  have hdirs : daemonSchema.field? "dirs" = some dirsSchema := rfl
  have hmodules : dirsSchema.field? "modules" = some .leaf := rfl
  have hplugins : dirsSchema.field? "plugins" = some .leaf := rfl
  have hkeyring : dirsSchema.field? "keyring" = some .leaf := rfl
  have hdata : dirsSchema.field? "data" = some .leaf := rfl
  have hcache : dirsSchema.field? "cache" = some .leaf := rfl
  have hlogs : dirsSchema.field? "logs" = some .leaf := rfl
  simp only [dirsFromJson, mapping_prune hdirs, bind_map_left]
  refine bind_congr (m := Checked) fun found => ?_
  cases found with
  | none => rfl
  | some kvs =>
    simp only [Option.map_some, ← prune_obj, str_prune hmodules, str_prune hplugins,
      str_prune hkeyring, str_prune hdata, str_prune hcache, str_prune hlogs, Reader.path]

theorem loggingFromJson_prune :
    loggingFromJson ⟨prune daemonSchema obj, dotted⟩ = loggingFromJson ⟨obj, dotted⟩ := by
  have hlogging : daemonSchema.field? "logging" = some loggingSchema := rfl
  have henabled : loggingSchema.field? "enabled" = some .leaf := rfl
  have hfile : loggingSchema.field? "file" = some .leaf := rfl
  have hsize : loggingSchema.field? "max_size_mb" = some .leaf := rfl
  have hfiles : loggingSchema.field? "max_files" = some .leaf := rfl
  have hconsole : loggingSchema.field? "console" = some .leaf := rfl
  simp only [loggingFromJson, mapping_prune hlogging, bind_map_left]
  refine bind_congr (m := Checked) fun found => ?_
  cases found with
  | none => rfl
  | some kvs =>
    simp only [Option.map_some, ← prune_obj, boolean_prune henabled, str_prune hfile,
      integer_prune hsize, integer_prune hfiles, boolean_prune hconsole, Reader.path]

/-- **The daemon's reader is blind to the other keys.** -/
theorem daemonConfigFromJson_prune :
    daemonConfigFromJson (prune daemonSchema obj) dotted = daemonConfigFromJson obj dotted := by
  have hmodulesDirs : daemonSchema.field? "modules_dirs" = some .leaf := rfl
  have hpersistence : daemonSchema.field? "persistence_path" = some .leaf := rfl
  have hinsecure : daemonSchema.field? "insecure_tcp" = some .leaf := rfl
  have hcontainer : daemonSchema.field? "container" = some .leaf := rfl
  have hpolicy : daemonSchema.field? "access_policy" = some .leaf := rfl
  have hgroup : daemonSchema.field? "access_group" = some .leaf := rfl
  have hsignature : daemonSchema.field? "signature_policy" = some .leaf := rfl
  simp only [daemonConfigFromJson, restFromJson, modulesBlock_prune, sslFromJson_prune,
    dirsFromJson_prune, loggingFromJson_prune, stringList_prune hmodulesDirs,
    str_prune hpersistence, boolean_prune hinsecure, str_prune hcontainer, str_prune hpolicy,
    str_prune hgroup, str_prune hsignature, Reader.path]

theorem parseDaemonConfigDocument_prune :
    parseDaemonConfigDocument (prune daemonSchema obj) = parseDaemonConfigDocument obj := by
  have hversion : daemonSchema.field? "version" = some .leaf := rfl
  simp only [parseDaemonConfigDocument, isObject_prune, integer_prune hversion,
    daemonConfigFromJson_prune]

/-- Each of the keys of a listener is looked at: none of them takes a number with a fraction. -/
example : ∀ key ∈ ["protocol", "host", "port", "ca_file", "verify_peer", "cert", "key", "codec"],
    ((transportFromJson (.obj (YamlJson.assign key (.float 5 (-1))
      [("protocol", .str "tcp_ssl")])) "t").run {}).2.ok = false := by decide +kernel

/-- Setting the key can change what the reader makes of a document. -/
def LoaderReads (key : String) : Prop :=
  ∃ kvs v, parseDaemonConfigDocument (.obj (YamlJson.assign key v kvs)) ≠
    parseDaemonConfigDocument (.obj kvs)

theorem pruneMembers_assign {s : Schema} {key : String} {v : Json} (h : s.field? key = none)
    (kvs : List (String × Json)) :
    pruneMembers s (YamlJson.assign key v kvs) = pruneMembers s kvs := by
  induction kvs with
  | nil => simp only [YamlJson.assign, pruneMembers, h]
  | cons kv kvs ih =>
    obtain ⟨k, w⟩ := kv
    unfold YamlJson.assign
    split_ifs with hlt heq
    · rw [pruneMembers, h]
    · rw [pruneMembers, pruneMembers, h, ← show key = k from heq, h]
    · rw [pruneMembers, pruneMembers, ih]

/-- What is read at the top level is in the schema. -/
theorem mem_of_loaderReads {key : String} (h : LoaderReads key) :
    key ∈ ["modules", "ssl", "dirs", "logging", "version", "modules_dirs", "persistence_path",
      "insecure_tcp", "container", "access_policy", "access_group", "signature_policy"] := by
  obtain ⟨kvs, v, hreads⟩ := h
  cases hfield : daemonSchema.field? key with
  | none =>
    refine absurd ?_ hreads
    rw [← @parseDaemonConfigDocument_prune (.obj (YamlJson.assign key v kvs)), prune_obj,
      pruneMembers_assign hfield, ← prune_obj, parseDaemonConfigDocument_prune]
  | some child =>
    obtain ⟨before, after, heq, -⟩ := List.lookup_eq_some_iff.mp hfield
    have hmem : (key, child) ∈ before ++ (key, child) :: after :=
      List.mem_append_right _ List.mem_cons_self
    rw [← heq] at hmem
    exact List.mem_map_of_mem (f := Prod.fst) hmem

end Daemon

/-! ## 2. The client's document -/

def clientTransportSchema : Schema :=
  .fields (leaves ["transport", "host", "port", "codec", "ca", "verify_peer"])

def clientSchema : Schema :=
  .fields (("daemon", .named clientTransportSchema) ::
    leaves ["version", "token_file", "instance_id"])

section Client

variable {obj j : Json} {dotted path : String}

theorem client_transportFromJson_prune :
    ClientState.transportFromJson (prune clientTransportSchema j) path =
      ClientState.transportFromJson j path := by
  have htransport : clientTransportSchema.field? "transport" = some .leaf := rfl
  have hhost : clientTransportSchema.field? "host" = some .leaf := rfl
  have hport : clientTransportSchema.field? "port" = some .leaf := rfl
  have hcodec : clientTransportSchema.field? "codec" = some .leaf := rfl
  have hca : clientTransportSchema.field? "ca" = some .leaf := rfl
  have hverify : clientTransportSchema.field? "verify_peer" = some .leaf := rfl
  simp only [ClientState.transportFromJson, ClientState.endpointFields, ClientState.tlsFields,
    isObject_prune, mismatch_prune, str_prune htransport, str_prune hhost, integer_prune hport,
    str_prune hcodec, str_prune hca, boolean_prune hverify, Reader.path]

example : ∀ key ∈ ["transport", "host", "port", "codec", "ca", "verify_peer"],
    ((ClientState.transportFromJson (.obj (YamlJson.assign key (.float 5 (-1))
      [("transport", .str "tcp_ssl")])) "t").run {}).2.ok = false := by decide +kernel

theorem daemonFromJson_prune (kvs : List (String × Json)) :
    ∀ acc : OrderedMap String ClientModuleTransport,
      ClientState.daemonFromJson ⟨prune clientSchema obj, dotted⟩
          (pruneMembers (.named clientTransportSchema) kvs) acc =
        ClientState.daemonFromJson ⟨obj, dotted⟩ kvs acc := by
  induction kvs with
  | nil => exact fun _ => rfl
  | cons kv kvs ih =>
    intro acc
    obtain ⟨moduleName, entry⟩ := kv
    rw [pruneMembers, Schema.field?]
    cases hname : moduleName.isEmpty with
    | true => simp only [ClientState.daemonFromJson, hname, if_true, ih]
    | false => simp only [ClientState.daemonFromJson, hname, Bool.false_eq_true, if_false,
        client_transportFromJson_prune, ih, Reader.path]

/-- **So is the client's.** -/
theorem parseClientStateDocument_prune :
    parseClientStateDocument (prune clientSchema obj) = parseClientStateDocument obj := by
  have hdaemon : clientSchema.field? "daemon" = some (.named clientTransportSchema) := rfl
  have hversion : clientSchema.field? "version" = some .leaf := rfl
  have htoken : clientSchema.field? "token_file" = some .leaf := rfl
  have hinstance : clientSchema.field? "instance_id" = some .leaf := rfl
  have hblock : ClientState.daemonBlock ⟨prune clientSchema obj, ""⟩ =
      ClientState.daemonBlock ⟨obj, ""⟩ := by
    simp only [ClientState.daemonBlock, mapping_prune hdaemon, bind_map_left]
    refine bind_congr (m := Checked) fun found => ?_
    cases found with
    | none => rfl
    | some kvs => exact daemonFromJson_prune kvs ∅
  simp only [parseClientStateDocument, ClientState.fields, isObject_prune, integer_prune hversion,
    str_prune htoken, str_prune hinstance, hblock]

end Client

end Logosctl
