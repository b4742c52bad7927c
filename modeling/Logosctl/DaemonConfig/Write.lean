/-
# Writing the daemon's configuration

The encoder beside the reader.  `daemonConfigToJson` feeds two files: the operator's configuration,
where certificates and keys are authored, and the published state, which leaves them out.  It
leaves out more than that: what a listener's protocol ignores, the strings that are empty, and a
`dirs` block with nothing in it.

What is left out is what the reader supplies (`reads_daemonConfigToJson`): with listeners of the
three protocols, a valid signature policy and log limits in range, the reader accepts what was
written and hands over `asWritten`, the configuration without what its listeners ignore.  The other
results are what `asWritten` keeps, and when it keeps everything.
-/
import Logosctl.DaemonConfig
import Logosctl.YamlJson.Dump

namespace Logosctl

open Library JsonSchema YamlJson

/-! ## 1. The encoder -/

/-- `if (!value.empty()) obj[key] = value`. -/
def assignNonEmpty (key value : String) (obj : List (String × Json)) : List (String × Json) :=
  if value.isEmpty then obj else assign key (.str value) obj

/-- An empty codec means json. -/
def codecOrJson (codec : String) : String := if codec.isEmpty then "json" else codec

def transportToJson (t : TransportInfo) (includeSecrets : Bool) : Json :=
  let j := assign "protocol" (.str t.protocol) []
  let j :=
    if t.protocol ≠ "local" then
      assign "codec" (.str (codecOrJson t.codec)) (assign "port" (.int t.port.toNat)
        (assign "host" (.str t.host) j))
    else j
  let j :=
    if t.protocol = "tcp_ssl" then
      let j := assign "verify_peer" (.bool t.verifyPeer) (assignNonEmpty "ca_file" t.caFile j)
      if includeSecrets then
        assignNonEmpty "key" t.keyFile (assignNonEmpty "cert" t.certFile j)
      else j
    else j
  .obj j

def moduleToJson (includeSecrets : Bool) (transports : List TransportInfo) : Json :=
  .obj (assign "transports" (.arr (transports.map fun t => transportToJson t includeSecrets)) [])

def modulesToJson (includeSecrets : Bool) (modules : Modules) : List (String × Json) :=
  modules.entries.foldl (fun obj e => assign e.1 (moduleToJson includeSecrets e.2) obj) []

def sslToJson (cfg : DaemonConfig) : List (String × Json) :=
  assign "ca" (.str cfg.sslCa) (assign "key" (.str cfg.sslKey)
    (assign "cert" (.str cfg.sslCert) []))

/-- Only what is redirected. -/
def dirsToJson (dirs : SessionDirs) : List (String × Json) :=
  assignNonEmpty "logs" dirs.logs (assignNonEmpty "cache" dirs.cache
    (assignNonEmpty "data" dirs.data (assignNonEmpty "keyring" dirs.keyring
      (assignNonEmpty "plugins" dirs.plugins (assignNonEmpty "modules" dirs.modules [])))))

def loggingToJson (logging : LoggingConfig) : List (String × Json) :=
  assign "console" (.bool logging.console) (assign "max_files" (.int logging.maxFiles)
    (assign "max_size_mb" (.int logging.maxSizeMb) (assign "file" (.str logging.file)
      (assign "enabled" (.bool logging.enabled) []))))

/-- `if (!dirsObj.empty()) obj["dirs"] = dirsObj`. -/
def assignDirs (dirsObj obj : List (String × Json)) : List (String × Json) :=
  if dirsObj.isEmpty then obj else assign "dirs" (.obj dirsObj) obj

/-- The members of the document. -/
def daemonConfigToJson (cfg : DaemonConfig) (includeSecrets : Bool) : List (String × Json) :=
  let obj := assign "modules_dirs" (.arr (cfg.modulesDirs.map Json.str)) []
  let obj := assign "persistence_path" (.str cfg.persistencePath) obj
  let obj := assign "modules" (.obj (modulesToJson includeSecrets cfg.modules)) obj
  let obj := assign "ssl" (.obj (sslToJson cfg)) obj
  let obj := assignDirs (dirsToJson cfg.dirs) obj
  let obj := assign "logging" (.obj (loggingToJson cfg.logging)) obj
  let obj := assign "insecure_tcp" (.bool cfg.insecureTcp) obj
  let obj := assignNonEmpty "container" cfg.container obj
  let obj := assignNonEmpty "access_policy" cfg.accessPolicy obj
  let obj := assignNonEmpty "access_group" cfg.accessGroup obj
  assignNonEmpty "signature_policy" cfg.signaturePolicy obj

/-- The document `DaemonConfigFile::write` writes. -/
def DaemonConfigFile.document (cfg : DaemonConfig) : List (String × Json) :=
  assign "version" (.int kDaemonConfigSchemaVersion) (daemonConfigToJson cfg true)

/-! ## 2. Reading a document that was built up -/

section Lookup

variable {key key' s : String} {v : Json} {obj : List (String × Json)}

theorem lookup_cons :
    ((key, v) :: obj).lookup key' = if key' = key then some v else obj.lookup key' := by
  rw [List.lookup_cons]
  split_ifs with h
  · rw [beq_iff_eq.mpr h]
  · rw [beq_eq_false_iff_ne.mpr h]

/-- What is assigned is found under its key, and every other key is as it was. -/
@[simp] theorem lookup_assign :
    (assign key v obj).lookup key' = if key' = key then some v else obj.lookup key' := by
  induction obj with
  | nil => exact lookup_cons
  | cons kv obj ih =>
    obtain ⟨k, w⟩ := kv
    by_cases hlt : key < k
    · rw [assign, if_pos hlt, lookup_cons]
    · by_cases heq : key = k
      · rw [assign, if_neg hlt, if_pos heq, lookup_cons, lookup_cons, heq]
        split_ifs <;> rfl
      · rw [assign, if_neg hlt, if_neg heq, lookup_cons, ih, lookup_cons]
        by_cases hk : key' = k
        · rw [if_pos hk, if_pos hk, if_neg fun h => heq (h.symm.trans hk)]
        · rw [if_neg hk, if_neg hk]

@[simp] theorem lookup_assignNonEmpty :
    (assignNonEmpty key s obj).lookup key' =
      if key' = key ∧ s.isEmpty = false then some (.str s) else obj.lookup key' := by
  unfold assignNonEmpty
  cases h : s.isEmpty <;> simp

@[simp] theorem lookup_ite {c : Prop} [Decidable c] {obj' : List (String × Json)} :
    (if c then obj else obj').lookup key = if c then obj.lookup key else obj'.lookup key :=
  apply_ite _ c obj obj'

@[simp] theorem find?_obj : (Json.obj obj).find? key = obj.lookup key := rfl

end Lookup

/-! ## 3. Listeners and modules -/

/-- What the file keeps of a listener: what its protocol uses, and the server's own paths only
where they are authored. -/
def TransportInfo.asWritten (includeSecrets : Bool) (t : TransportInfo) : TransportInfo :=
  if t.protocol = "tcp_ssl" then
    { t with
      codec := codecOrJson t.codec
      certFile := if includeSecrets then t.certFile else ""
      keyFile := if includeSecrets then t.keyFile else "" }
  else if t.protocol = "tcp" then
    { protocol := "tcp", host := t.host, port := t.port, codec := codecOrJson t.codec }
  else { protocol := t.protocol }

section Transports

variable {includeSecrets : Bool} {t : TransportInfo} {ts : List TransportInfo}

theorem isKnownProtocol_iff {protocol : String} : isKnownProtocol protocol = true ↔
    protocol = "local" ∨ protocol = "tcp" ∨ protocol = "tcp_ssl" := by
  simp [isKnownProtocol, or_assoc]

theorem port_ofNat (port : UInt16) : UInt16.ofNat (Int.toNat port.toNat) = port := by
  simp

theorem port_le (port : UInt16) : (port.toNat : Int) ≤ 0xFFFF := by
  have hlt := port.toNat_lt
  omega

theorem storable_port (port : UInt16) : Storable (.int port.toNat) :=
  .int _ (by omega) ((port_le port).trans_lt (by decide))

/-- A port that was written. -/
theorem reads_port (port : UInt16) {r : Reader} (h : r.obj.find? "port" = some (.int port.toNat)) :
    Reads (r.integer "port" 0 0 0xFFFF) port.toNat :=
  reads_integer h (by omega) (port_le port) ((port_le port).trans (by decide))

/-- The fields of a listener, read from what was written of it. -/
theorem reads_transportFields (hknown : isKnownProtocol t.protocol = true) (path : String) :
    Reads (transportFields ⟨transportToJson t includeSecrets, path⟩ t.protocol)
      (t.asWritten includeSecrets) := by
  unfold transportFields transportToJson TransportInfo.asWritten
  rcases isKnownProtocol_iff.mp hknown with hp | hp | hp
  · rw [hp]
    refine reads_bind (reads_str_absent (by simp)) ?_
    refine reads_bind (reads_integer_absent (by simp)) ?_
    refine reads_bind (reads_str_absent (by simp)) ?_
    refine reads_bind (reads_boolean_absent (by simp)) ?_
    refine reads_bind (reads_str_absent (by simp)) ?_
    refine reads_bind (reads_str_absent (by simp)) ?_
    refine reads_bind (reads_str_absent (by simp)) ?_
    exact reads_pure _
  · rw [hp]
    refine reads_bind (reads_str (s := t.host) (by simp)) ?_
    refine reads_bind (reads_port t.port (by simp)) ?_
    refine reads_bind (reads_str_absent (by simp)) ?_
    refine reads_bind (reads_boolean_absent (by simp)) ?_
    refine reads_bind (reads_str_absent (by simp)) ?_
    refine reads_bind (reads_str_absent (by simp)) ?_
    refine reads_bind (reads_str (s := codecOrJson t.codec) (by simp)) ?_
    rw [port_ofNat]
    exact reads_pure _
  · rw [hp]
    refine reads_bind (reads_str (s := t.host) (by simp)) ?_
    refine reads_bind (reads_port t.port (by simp)) ?_
    refine reads_bind (reads_str_nonEmpty (s := t.caFile) (by simp)) ?_
    refine reads_bind (reads_boolean (v := t.verifyPeer) (by simp)) ?_
    refine reads_bind (a := if includeSecrets then t.certFile else "") ?_ ?_
    · cases includeSecrets with
      | true => exact reads_str_nonEmpty (by simp)
      | false => exact reads_str_absent (by simp)
    refine reads_bind (a := if includeSecrets then t.keyFile else "") ?_ ?_
    · cases includeSecrets with
      | true => exact reads_str_nonEmpty (by simp)
      | false => exact reads_str_absent (by simp)
    refine reads_bind (reads_str (s := codecOrJson t.codec) (by simp)) ?_
    rw [port_ofNat]
    exact reads_pure _

theorem reads_transportFromJson (includeSecrets : Bool)
    (hknown : isKnownProtocol t.protocol = true) (path : String) :
    Reads (transportFromJson (transportToJson t includeSecrets) path)
      (some (t.asWritten includeSecrets)) := by
  have hobj : (transportToJson t includeSecrets).isObject = true := rfl
  have hprotocol :
      (transportToJson t includeSecrets).find? "protocol" = some (.str t.protocol) := by
    simp [transportToJson]
  unfold transportFromJson
  rw [hobj]
  refine reads_bind (reads_str hprotocol) ?_
  rw [hknown]
  exact reads_bind (reads_transportFields hknown _) (reads_bind reads_allOk (reads_pure _))

theorem reads_transportsFromJson (includeSecrets : Bool)
    (hknown : ∀ t ∈ ts, isKnownProtocol t.protocol = true)
    (modulePath : String) : ∀ i,
    Reads (transportsFromJson modulePath i (ts.map fun t => transportToJson t includeSecrets))
      (some (ts.map (TransportInfo.asWritten includeSecrets))) := by
  induction ts with
  | nil => exact fun _ => reads_pure _
  | cons t ts ih =>
    intro i
    have hfirst := reads_transportFromJson includeSecrets (hknown t List.mem_cons_self)
      (modulePath ++ ".transports[" ++ toString i ++ "]")
    have hrest := ih (fun t ht => hknown t (List.mem_cons_of_mem _ ht)) (i + 1)
    exact reads_bind hfirst (reads_bind hrest (reads_pure _))

theorem reads_moduleBlock (modulePath : String) :
    Reads (moduleBlock (moduleToJson includeSecrets ts) modulePath)
      (.transports (ts.map fun t => transportToJson t includeSecrets)) :=
  reads_bind (reads_list (by simp)) (reads_pure _)

end Transports

/-- What the file keeps of the modules: those with a name and with listeners. -/
def Modules.asWritten (includeSecrets : Bool) (modules : Modules) : Modules :=
  (modules.filter fun e => !e.1.isEmpty && !e.2.isEmpty).mapValues
    (List.map (TransportInfo.asWritten includeSecrets))

section Modules

variable {includeSecrets : Bool}

/-- Assignments in key order list what is assigned. -/
theorem foldl_assign {α : Type} {entries : List (String × α)} (f : α → Json) :
    ∀ obj : List (String × Json), (∀ kv ∈ obj, ∀ e ∈ entries, kv.1 < e.1) →
      entries.Pairwise (fun a b => a.1 < b.1) →
      entries.foldl (fun obj e => assign e.1 (f e.2) obj) obj =
        obj ++ entries.map fun e => (e.1, f e.2) := by
  induction entries with
  | nil => exact fun obj _ _ => (List.append_nil obj).symm
  | cons e es ih =>
    intro obj hobj hsorted
    obtain ⟨hfirst, hsorted⟩ := List.pairwise_cons.mp hsorted
    have hpast : assign e.1 (f e.2) obj = obj ++ [(e.1, f e.2)] :=
      assign_past fun kv hkv => hobj kv hkv e List.mem_cons_self
    rw [List.foldl_cons, hpast, ih _ ?_ hsorted, List.append_assoc]
    · rfl
    · intro kv hkv e' he'
      rcases List.mem_append.mp hkv with hkv | hkv
      · exact hobj kv hkv e' (List.mem_cons_of_mem _ he')
      · rw [List.mem_singleton.mp hkv]
        exact hfirst e' he'

theorem modulesToJson_eq (modules : Modules) : modulesToJson includeSecrets modules =
    modules.entries.map fun e => (e.1, moduleToJson includeSecrets e.2) :=
  foldl_assign (moduleToJson includeSecrets) [] nofun modules.sorted

/-- Every listener has one of the three protocols. -/
def KnownProtocols (modules : Modules) : Prop :=
  ∀ name ts, (name, ts) ∈ modules.entries → ∀ t ∈ ts, isKnownProtocol t.protocol = true

/-- The modules written, read after the modules `acc` that come before them. -/
theorem reads_modulesFromJson (includeSecrets : Bool) (r : Reader)
    {entries : List (String × List TransportInfo)}
    (hknown : ∀ e ∈ entries, ∀ t ∈ e.2, isKnownProtocol t.protocol = true) :
    ∀ acc : Modules, (acc.entries ++ entries.map fun e =>
        (e.1, e.2.map (TransportInfo.asWritten includeSecrets))).Pairwise (fun a b => a.1 < b.1) →
      ∃ out : Modules, Reads (modulesFromJson r
          (entries.map fun e => (e.1, moduleToJson includeSecrets e.2)) acc) (some out) ∧
        out.entries = acc.entries ++ (entries.filter fun e => !e.1.isEmpty && !e.2.isEmpty).map
          fun e => (e.1, e.2.map (TransportInfo.asWritten includeSecrets)) := by
  induction entries with
  | nil => exact fun acc _ => ⟨acc, reads_pure _, (List.append_nil _).symm⟩
  | cons e es ih =>
    intro acc hsorted
    obtain ⟨name, ts⟩ := e
    have hskip : (acc.entries ++ es.map fun e =>
        (e.1, e.2.map (TransportInfo.asWritten includeSecrets))).Pairwise (fun a b => a.1 < b.1) :=
      hsorted.sublist ((List.sublist_cons_self _ _).append_left _)
    have hes := fun e he => hknown e (List.mem_cons_of_mem _ he)
    rw [List.map_cons, modulesFromJson]
    split
    · next hname =>
      obtain ⟨out, hreads, hout⟩ := ih hes acc hskip
      exact ⟨out, hreads, by simp [hout, hname]⟩
    · next hname =>
      have hlisted := reads_transportsFromJson includeSecrets
        (hknown _ List.mem_cons_self) (r.path "modules" ++ "." ++ name) 0
      by_cases hts : ts = []
      · obtain ⟨out, hreads, hout⟩ := ih hes acc hskip
        refine ⟨out, reads_bind (reads_moduleBlock _) (reads_bind hlisted ?_), ?_⟩
        · rw [hts]
          exact hreads
        · simp [hout, hts]
      · have hpast : (acc.emplace name (ts.map (TransportInfo.asWritten includeSecrets))).entries =
            acc.entries ++ [(name, ts.map (TransportInfo.asWritten includeSecrets))] :=
          OrderedMap.emplaceEntry_past fun e he =>
            (List.pairwise_append.mp hsorted).2.2 e he _ List.mem_cons_self
        obtain ⟨out, hreads, hout⟩ := ih hes
          (acc.emplace name (ts.map (TransportInfo.asWritten includeSecrets)))
          (by rw [hpast, List.append_assoc]; exact hsorted)
        refine ⟨out, reads_bind (reads_moduleBlock _) (reads_bind hlisted ?_), ?_⟩
        · simpa [hts] using hreads
        · simp [hout, hpast, hname, hts]

theorem reads_modulesBlock {obj : Json} {dotted : String} {modules : Modules}
    (h : obj.find? "modules" = some (.obj (modulesToJson includeSecrets modules)))
    (hknown : KnownProtocols modules) :
    Reads (modulesBlock ⟨obj, dotted⟩) (some (modules.asWritten includeSecrets)) := by
  have hsorted : (modules.entries.map fun e =>
      (e.1, e.2.map (TransportInfo.asWritten includeSecrets))).Pairwise fun a b => a.1 < b.1 :=
    modules.sorted.map _ fun _ _ h => h
  obtain ⟨out, hreads, hout⟩ := reads_modulesFromJson includeSecrets ⟨obj, dotted⟩
    (fun e he => hknown e.1 e.2 he) ∅ hsorted
  have heq : out = modules.asWritten includeSecrets := OrderedMap.ext hout
  refine reads_bind (reads_mapping h) ?_
  rw [modulesToJson_eq, ← heq]
  exact hreads

end Modules

/-! ## 4. The whole configuration -/

def LoggingConfig.InRange (logging : LoggingConfig) : Prop :=
  logging.maxSizeMb ≤ 1024 * 1024 ∧ logging.maxFiles ≤ 1000000

/-- A configuration whose document the reader takes. -/
structure Writable (cfg : DaemonConfig) : Prop where
  protocols : KnownProtocols cfg.modules
  limits : cfg.logging.InRange
  policy : cfg.signaturePolicy = "" ∨ isValidSignaturePolicy cfg.signaturePolicy = true

/-- What the file keeps of the configuration. -/
def DaemonConfig.asWritten (includeSecrets : Bool) (cfg : DaemonConfig) : DaemonConfig :=
  { cfg with
    modules := cfg.modules.asWritten includeSecrets
    dirs := if cfg.dirs.data.isEmpty then { cfg.dirs with data := cfg.persistencePath }
      else cfg.dirs }

section Document

variable {cfg : DaemonConfig} {includeSecrets : Bool} {obj : Json} {dotted : String}

@[simp] theorem lookup_assignDirs {dirsObj kvs : List (String × Json)} {key : String} :
    (assignDirs dirsObj kvs).lookup key =
      if key = "dirs" ∧ dirsObj.isEmpty = false then some (.obj dirsObj) else kvs.lookup key := by
  unfold assignDirs
  cases dirsObj <;> simp

theorem reads_sslFromJson (cfg : DaemonConfig)
    (h : obj.find? "ssl" = some (.obj (sslToJson cfg))) :
    Reads (sslFromJson ⟨obj, dotted⟩) (cfg.sslCert, cfg.sslKey, cfg.sslCa) := by
  refine reads_bind (reads_mapping h) ?_
  refine reads_bind (reads_str (s := cfg.sslCert) (by simp [sslToJson])) ?_
  refine reads_bind (reads_str (s := cfg.sslKey) (by simp [sslToJson])) ?_
  exact reads_bind (reads_str (s := cfg.sslCa) (by simp [sslToJson])) (reads_pure _)

theorem assign_ne_nil {key : String} {v : Json} {kvs : List (String × Json)} :
    assign key v kvs ≠ [] := by
  cases kvs with
  | nil => exact List.cons_ne_nil _ _
  | cons kv kvs =>
    unfold assign
    split_ifs <;> exact List.cons_ne_nil _ _

theorem assignNonEmpty_eq_nil_iff {key value : String} {kvs : List (String × Json)} :
    assignNonEmpty key value kvs = [] ↔ value = "" ∧ kvs = [] := by
  unfold assignNonEmpty
  split
  · next h => simp [String.isEmpty_iff.mp h]
  · next h =>
    refine iff_of_false assign_ne_nil ?_
    rintro ⟨rfl, -⟩
    exact h rfl

/-- The block is there exactly when something is redirected. -/
theorem dirsToJson_eq_nil_iff {dirs : SessionDirs} : dirsToJson dirs = [] ↔ dirs = {} := by
  obtain ⟨modules, plugins, keyring, data, cache, logs⟩ := dirs
  simp only [dirsToJson, assignNonEmpty_eq_nil_iff, SessionDirs.mk.injEq]
  tauto

theorem reads_dirsFromJson (dirs : SessionDirs) (h : obj.find? "dirs" =
      if (dirsToJson dirs).isEmpty then none else some (.obj (dirsToJson dirs))) :
    Reads (dirsFromJson ⟨obj, dotted⟩) dirs := by
  split at h
  · next hempty =>
    have hdirs := dirsToJson_eq_nil_iff.mp (List.isEmpty_iff.mp hempty)
    rw [hdirs]
    exact reads_bind (reads_mapping_absent h) (reads_pure _)
  · refine reads_bind (reads_mapping h) ?_
    refine reads_bind (reads_str_nonEmpty (s := dirs.modules) (by simp [dirsToJson])) ?_
    refine reads_bind (reads_str_nonEmpty (s := dirs.plugins) (by simp [dirsToJson])) ?_
    refine reads_bind (reads_str_nonEmpty (s := dirs.keyring) (by simp [dirsToJson])) ?_
    refine reads_bind (reads_str_nonEmpty (s := dirs.data) (by simp [dirsToJson])) ?_
    refine reads_bind (reads_str_nonEmpty (s := dirs.cache) (by simp [dirsToJson])) ?_
    exact reads_bind (reads_str_nonEmpty (s := dirs.logs) (by simp [dirsToJson])) (reads_pure _)

theorem reads_loggingFromJson (logging : LoggingConfig)
    (h : obj.find? "logging" = some (.obj (loggingToJson logging))) (hrange : logging.InRange) :
    Reads (loggingFromJson ⟨obj, dotted⟩) logging := by
  obtain ⟨hsize, hfiles⟩ := hrange
  have hmax : (2 : Int) ^ 20 ≤ Reader.int64Max := by decide
  refine reads_bind (reads_mapping h) ?_
  refine reads_bind (reads_boolean (v := logging.enabled) (by simp [loggingToJson])) ?_
  refine reads_bind (reads_str (s := logging.file) (by simp [loggingToJson])) ?_
  refine reads_bind (reads_integer (i := logging.maxSizeMb) (by simp [loggingToJson])
    (by omega) (by omega) (by omega)) ?_
  refine reads_bind (reads_integer (i := logging.maxFiles) (by simp [loggingToJson])
    (by omega) (by omega) (by omega)) ?_
  exact reads_bind (reads_boolean (v := logging.console) (by simp [loggingToJson])) (reads_pure _)

/-- **The reader takes what was written.** -/
theorem reads_daemonConfigFromJson (hcfg : Writable cfg)
    (hobj : ∀ key, key ≠ "version" →
      obj.find? key = (daemonConfigToJson cfg includeSecrets).lookup key) :
    Reads (daemonConfigFromJson obj dotted) (some (cfg.asWritten includeSecrets)) := by
  have hfind : ∀ {key v}, key ≠ "version" →
      (daemonConfigToJson cfg includeSecrets).lookup key = v → obj.find? key = v :=
    fun hkey hv => (hobj _ hkey).trans hv
  unfold daemonConfigFromJson
  refine reads_bind (reads_stringList cfg.modulesDirs
    (hfind (by decide) (by simp [daemonConfigToJson]))) ?_
  refine reads_bind (reads_str (s := cfg.persistencePath)
    (hfind (by decide) (by simp [daemonConfigToJson]))) ?_
  refine reads_bind (@reads_modulesBlock includeSecrets _ _ cfg.modules
    (hfind (by decide) (by simp [daemonConfigToJson])) hcfg.protocols) ?_
  -- what follows the modules
  refine reads_bind (reads_sslFromJson cfg
    (hfind (by decide) (by simp [daemonConfigToJson]))) ?_
  refine reads_bind (reads_dirsFromJson cfg.dirs
    (hfind (by decide) (by simp [daemonConfigToJson]))) ?_
  refine reads_bind (reads_loggingFromJson cfg.logging
    (hfind (by decide) (by simp [daemonConfigToJson])) hcfg.limits) ?_
  refine reads_bind (reads_boolean (v := cfg.insecureTcp)
    (hfind (by decide) (by simp [daemonConfigToJson]))) ?_
  refine reads_bind (reads_str_nonEmpty (s := cfg.container)
    (hfind (by decide) (by simp [daemonConfigToJson]))) ?_
  refine reads_bind (reads_str_nonEmpty (s := cfg.accessPolicy)
    (hfind (by decide) (by simp [daemonConfigToJson]))) ?_
  refine reads_bind (reads_str_nonEmpty (s := cfg.accessGroup)
    (hfind (by decide) (by simp [daemonConfigToJson]))) ?_
  refine reads_bind (reads_str_nonEmpty (s := cfg.signaturePolicy)
    (hfind (by decide) (by simp [daemonConfigToJson]))) ?_
  have hpolicy : (!cfg.signaturePolicy.isEmpty && !isValidSignaturePolicy cfg.signaturePolicy) =
      false := by
    rcases hcfg.policy with h | h <;> simp [h]
  rw [hpolicy]
  exact reads_bind reads_allOk (reads_pure _)

end Document

/-! ## 5. What the reader hands over -/

/-- A configuration as the reader hands it over. -/
structure Loaded (cfg : DaemonConfig) : Prop extends Writable cfg where
  named : ∀ name ts, (name, ts) ∈ cfg.modules.entries → name ≠ "" ∧ ts ≠ []
  data : cfg.dirs.data = "" → cfg.persistencePath = ""

/-- A read that hands something over has noted nothing. -/
def Vouches {α : Type} (x : Checked (Option α)) : Prop :=
  ∀ errs a, (x.run errs).1 = some a → (x.run errs).2.ok = true

section Loaded

variable {cfg : DaemonConfig} {obj : Json} {r : Reader} {α β : Type}

theorem vouches_none : Vouches (pure none : Checked (Option α)) := fun _ _ h => by cases h

theorem vouches_after {x : Checked β} {f : β → Checked (Option α)} (hf : ∀ b, Vouches (f b)) :
    Vouches (x >>= f) := fun errs => hf (x.run errs).1 (x.run errs).2

/-- The last thing asked. -/
theorem vouches_allOk (a : α) :
    Vouches (do return if ← allOk then some a else none : Checked (Option α)) := by
  intro errs b h
  cases hok : errs.ok with
  | true => exact hok
  | false =>
    have hnone : (if errs.ok = true then some a else none) = some b := h
    rw [hok] at hnone
    cases hnone

theorem vouches_daemonConfigFromJson (dotted : String) :
    Vouches (daemonConfigFromJson obj dotted) := by
  unfold daemonConfigFromJson
  refine vouches_after fun _ => vouches_after fun _ => vouches_after fun found => ?_
  cases found with
  | none => exact vouches_none
  | some modules =>
    unfold restFromJson
    refine vouches_after fun ssl => ?_
    iterate 7 refine vouches_after fun _ => ?_
    split
    · exact vouches_after fun _ => vouches_none
    · exact vouches_allOk _

/-- What it takes for a document to be accepted. -/
theorem parse_eq_ok_iff {kvs : List (String × Json)} :
    parseDaemonConfigDocument (.obj kvs) = .ok cfg ↔
      Reads (Reader.integer ⟨.obj kvs, ""⟩ "version" 0) kDaemonConfigSchemaVersion ∧
        Reads (daemonConfigFromJson (.obj kvs)) (some cfg) := by
  have hobj : ¬ (!(Json.obj kvs).isObject) = true := Bool.false_ne_true
  unfold parseDaemonConfigDocument
  rw [if_neg hobj]
  constructor
  · intro h
    rcases hversion : (Reader.integer ⟨.obj kvs, ""⟩ "version" 0).run {} with ⟨v, errs⟩
    rw [hversion] at h
    dsimp only at h
    split_ifs at h with hok hv
    have herrs : errs = {} := errors_eq (by simpa using hok)
    rw [not_ne_iff] at hv
    subst herrs hv
    refine ⟨hversion, ?_⟩
    cases hrun : (daemonConfigFromJson (.obj kvs)).run {} with
    | mk found errs' =>
      rw [hrun] at h
      cases found with
      | none => cases h
      | some c =>
        cases h
        have hclean := vouches_daemonConfigFromJson "" {} cfg (by rw [hrun])
        rw [hrun] at hclean
        have herrs' : errs' = {} := errors_eq hclean
        subst herrs'
        exact hrun
  · rintro ⟨hversion, hcfg⟩
    unfold Reads at hversion hcfg
    rw [hversion]
    simp [Errors.ok, hcfg]

theorem yields_ite {α : Type} {P : α → Prop} {c : Prop} [Decidable c] {x y : Checked α}
    (hx : c → Yields x P) (hy : ¬ c → Yields y P) : Yields (if c then x else y) P := by
  split
  · next h => exact hx h
  · next h => exact hy h

theorem yields_integer {key : String} {dflt min max : Int} (hmin : min ≤ dflt)
    (hmax : dflt ≤ max) : Yields (r.integer key dflt min max) fun i => min ≤ i ∧ i ≤ max := by
  unfold Reader.integer
  split
  · exact yields_pure ⟨hmin, hmax⟩
  · refine yields_ite (fun _ => yields_after fun _ => yields_pure ⟨hmin, hmax⟩) ?_
    intro hin
    exact yields_pure (by omega)
  · exact yields_after fun _ => yields_pure ⟨hmin, hmax⟩

theorem yields_loggingFromJson : Yields (loggingFromJson r) LoggingConfig.InRange := by
  unfold loggingFromJson
  refine yields_after fun found => ?_
  cases found with
  | none => exact yields_pure ⟨by decide, by decide⟩
  | some kvs =>
    refine yields_after fun enabled => yields_after fun file => ?_
    refine yields_bind (yields_integer (by decide) (by decide)) ?_
    intro maxSizeMb hsize
    refine yields_bind (yields_integer (by decide) (by decide)) ?_
    intro maxFiles hfiles
    refine yields_after fun console => yields_pure ⟨?_, ?_⟩
    · exact Int.toNat_le.mpr hsize.2
    · exact Int.toNat_le.mpr hfiles.2

theorem yields_rest {modulesDirs : List String} {persistencePath : String} {modules : Modules} :
    Yields (restFromJson r modulesDirs persistencePath modules) fun o => ∀ cfg, o = some cfg →
      cfg.logging.InRange ∧ (cfg.dirs.data = "" → cfg.persistencePath = "") ∧
        (cfg.signaturePolicy = "" ∨ isValidSignaturePolicy cfg.signaturePolicy = true) := by
  unfold restFromJson
  refine yields_after fun ssl => yields_after fun dirs => ?_
  refine yields_bind yields_loggingFromJson ?_
  intro logging hlogging
  iterate 4 refine yields_after fun _ => ?_
  refine yields_after fun policy => yields_ite ?_ ?_
  · exact fun _ => yields_after fun _ => yields_pure nofun
  · intro hpolicy
    refine yields_after fun usable => yields_pure ?_
    intro cfg hcfg
    split at hcfg
    · cases hcfg
      refine ⟨hlogging, ?_, ?_⟩
      · dsimp only
        split
        · exact id
        · next hdata =>
          intro h
          exact absurd (String.isEmpty_iff.mpr h) hdata
      · by_cases hempty : policy = ""
        · exact Or.inl hempty
        · exact Or.inr (by simpa [hempty] using hpolicy)
    · cases hcfg

/-- **What is accepted can be written**, and read again. -/
theorem loaded_of_parse (h : parseDaemonConfigDocument obj = .ok cfg) : Loaded cfg := by
  have hmodules := wellFormedModules_of_parse h
  cases obj with
  | obj kvs =>
    obtain ⟨-, hcfg⟩ := parse_eq_ok_iff.mp h
    have hyields : Yields (daemonConfigFromJson (.obj kvs)) fun o => ∀ cfg, o = some cfg →
        cfg.logging.InRange ∧ (cfg.dirs.data = "" → cfg.persistencePath = "") ∧
          (cfg.signaturePolicy = "" ∨ isValidSignaturePolicy cfg.signaturePolicy = true) := by
      refine yields_after fun _ => yields_after fun _ => yields_after fun found => ?_
      cases found with
      | none => exact yields_pure nofun
      | some modules => exact yields_rest
    have hrest := hyields {}
    rw [show (daemonConfigFromJson (.obj kvs)).run {} = (some cfg, {}) from hcfg] at hrest
    obtain ⟨hlimits, hdata, hpolicy⟩ := hrest cfg rfl
    exact {
      protocols := fun name ts hts => (hmodules name ts hts).2.2
      limits := hlimits
      policy := hpolicy
      named := fun name ts hts => ⟨(hmodules name ts hts).1, (hmodules name ts hts).2.1⟩
      data := hdata }
  | _ => cases h

end Loaded

/-! ## 6. Reading back what was written -/

section ReadBack

variable {cfg cfg' : DaemonConfig} {includeSecrets : Bool}

/-- **What was written is accepted**, and hands over what the file keeps. -/
theorem parse_document (hcfg : Writable cfg) :
    parseDaemonConfigDocument (.obj (DaemonConfigFile.document cfg)) =
      .ok (cfg.asWritten true) := by
  refine parse_eq_ok_iff.mpr ⟨reads_integer ?_ (by decide) (by decide) (by decide), ?_⟩
  · simp [DaemonConfigFile.document]
  · refine reads_daemonConfigFromJson hcfg ?_
    intro key hkey
    simp [DaemonConfigFile.document, hkey]

/-- Log limits that are read are in range. -/
theorem inRange_of_reads {r : Reader} {logging logging' : LoggingConfig}
    (h : r.obj.find? "logging" = some (.obj (loggingToJson logging)))
    (hreads : Reads (loggingFromJson r) logging') : logging.InRange := by
  have hmax : (2 : Int) ^ 20 ≤ Reader.int64Max := by decide
  have h1 := reads_of_bind (reads_mapping h) hreads
  have h2 := reads_of_bind (reads_boolean (v := logging.enabled) (by simp [loggingToJson])) h1
  have h3 := reads_of_bind (reads_str (s := logging.file) (by simp [loggingToJson])) h2
  obtain ⟨maxSizeMb, hsize, h4⟩ := reads_bind_inv (fun _ => keeps_bind (keeps_integer _ _ _)
    fun _ => keeps_bind (keeps_boolean _) fun _ => keeps_pure _) h3
  obtain ⟨maxFiles, hfiles, -⟩ := reads_bind_inv (fun _ => keeps_bind (keeps_boolean _)
    fun _ => keeps_pure _) h4
  have hsizeRange :=
    range_of_reads_integer (i := logging.maxSizeMb) hsize (by simp [loggingToJson])
  have hfilesRange :=
    range_of_reads_integer (i := logging.maxFiles) hfiles (by simp [loggingToJson])
  unfold LoggingConfig.InRange
  omega

/-- **When what was written is accepted**: with valid listeners and a valid policy, exactly when
the log limits are in range. -/
theorem parse_document_iff (hprotocols : KnownProtocols cfg.modules)
    (hpolicy : cfg.signaturePolicy = "" ∨ isValidSignaturePolicy cfg.signaturePolicy = true) :
    parseDaemonConfigDocument (.obj (DaemonConfigFile.document cfg)) = .ok cfg' ↔
      cfg.logging.InRange ∧ cfg' = cfg.asWritten true := by
  constructor
  · intro h
    obtain ⟨-, hreads⟩ := parse_eq_ok_iff.mp h
    have hfind : ∀ {key v}, key ≠ "version" → (daemonConfigToJson cfg true).lookup key = v →
        (Json.obj (DaemonConfigFile.document cfg)).find? key = v := by
      intro key v hkey hv
      simp [DaemonConfigFile.document, hkey, hv]
    unfold daemonConfigFromJson at hreads
    have h1 := reads_of_bind (reads_stringList cfg.modulesDirs
      (hfind (by decide) (by simp [daemonConfigToJson]))) hreads
    have h2 := reads_of_bind (reads_str (s := cfg.persistencePath)
      (hfind (by decide) (by simp [daemonConfigToJson]))) h1
    have h3 := reads_of_bind (@reads_modulesBlock true _ _ cfg.modules
      (hfind (by decide) (by simp [daemonConfigToJson])) hprotocols) h2
    have h4 := reads_of_bind (reads_sslFromJson cfg
      (hfind (by decide) (by simp [daemonConfigToJson]))) h3
    have h5 := reads_of_bind (reads_dirsFromJson cfg.dirs
      (hfind (by decide) (by simp [daemonConfigToJson]))) h4
    obtain ⟨logging, hlogging, -⟩ := reads_bind_inv (fun _ => keeps_bind (keeps_boolean _)
      fun _ => keeps_bind (keeps_str _) fun _ => keeps_bind (keeps_str _) fun _ =>
      keeps_bind (keeps_str _) fun _ => keeps_bind (keeps_str _) fun _ =>
      keeps_ite (keeps_bind (keeps_note _) fun _ => keeps_pure _)
        (keeps_bind keeps_allOk fun _ => keeps_pure _)) h5
    have hlimits : cfg.logging.InRange := inRange_of_reads
      (hfind (by decide) (by simp [daemonConfigToJson])) hlogging
    rw [parse_document ⟨hprotocols, hlimits, hpolicy⟩] at h
    exact ⟨hlimits, (Except.ok.inj h).symm⟩
  · rintro ⟨hlimits, rfl⟩
    exact parse_document ⟨hprotocols, hlimits, hpolicy⟩

/-- What is read from the file can be written. -/
theorem loaded_of_read {yaml : YamlCpp} {filePath : String} {file : ConfigFile}
    (h : (DaemonConfigFile.read yaml filePath file).1 = some cfg) : Loaded cfg := by
  cases file with
  | absent => cases h
  | unreadable => cases h
  | text content =>
    simp only [DaemonConfigFile.read] at h
    split at h
    · cases h
    · split at h
      · cases h
      · next hparse =>
        cases h
        exact loaded_of_parse hparse

/-- The text `DaemonConfigFile::write` leaves is read as its document. -/
theorem read_document {yaml : YamlCpp} (filePath : String) {text : String}
    (htext : parse yaml text = .ok (.obj (DaemonConfigFile.document cfg))) (h : Loaded cfg) :
    DaemonConfigFile.read yaml filePath (.text text) = (some (cfg.asWritten true), []) := by
  simp only [DaemonConfigFile.read, htext, parse_document h.toWritable]

end ReadBack

/-! ## 7. What the file keeps -/

/-- Nothing of the listener is left out or filled in. -/
def TransportInfo.KeptWhole (t : TransportInfo) : Prop :=
  if t.protocol = "local" then
    t.host = "" ∧ t.port = 0 ∧ t.codec = "json" ∧
      t.caFile = "" ∧ t.verifyPeer = true ∧ t.certFile = "" ∧ t.keyFile = ""
  else
    t.codec ≠ "" ∧ (t.protocol = "tcp" →
      t.caFile = "" ∧ t.verifyPeer = true ∧ t.certFile = "" ∧ t.keyFile = "")

section Kept

variable {cfg : DaemonConfig} {t : TransportInfo}

theorem codecOrJson_eq_self_iff {codec : String} : codecOrJson codec = codec ↔ codec ≠ "" := by
  unfold codecOrJson
  split
  · next h =>
    rw [String.isEmpty_iff.mp h]
    decide
  · next h => simpa using h

theorem asWritten_eq_self_iff (hknown : isKnownProtocol t.protocol = true) :
    t.asWritten true = t ↔ t.KeptWhole := by
  obtain ⟨protocol, host, port, caFile, verifyPeer, codec, certFile, keyFile⟩ := t
  have hcodec : codec = codecOrJson codec ↔ codec ≠ "" := eq_comm.trans codecOrJson_eq_self_iff
  unfold TransportInfo.asWritten TransportInfo.KeptWhole
  rw [eq_comm]
  rcases isKnownProtocol_iff.mp hknown with rfl | rfl | rfl
  · simp
    tauto
  · simp [hcodec]
    tauto
  · simp [hcodec]

/-- What the file keeps of a configuration is all of it exactly when every module has a name and
listeners, no listener has anything its protocol ignores or an empty codec, and the older spelling
of the data directory is not the only one. -/
structure KeptWhole (cfg : DaemonConfig) : Prop where
  named : ∀ name ts, (name, ts) ∈ cfg.modules.entries → name ≠ "" ∧ ts ≠ []
  listeners : ∀ name ts, (name, ts) ∈ cfg.modules.entries → ∀ t ∈ ts, t.KeptWhole
  data : cfg.dirs.data = "" → cfg.persistencePath = ""

theorem map_filter_eq_self_iff {α : Type} {p : α → Bool} {f : α → α} {l : List α} :
    (l.filter p).map f = l ↔ ∀ x ∈ l, p x = true ∧ f x = x := by
  constructor
  · intro h
    have hlength : (l.filter p).length = l.length := by rw [← List.length_map f, h]
    have hp := List.length_filter_eq_length_iff.mp hlength
    rw [List.filter_eq_self.mpr hp] at h
    exact fun x hx => ⟨hp x hx, map_eq_self_iff.mp h x hx⟩
  · intro h
    rw [List.filter_eq_self.mpr fun x hx => (h x hx).1]
    exact map_eq_self_iff.mpr fun x hx => (h x hx).2

theorem modules_asWritten_eq_self_iff (hknown : KnownProtocols cfg.modules) :
    cfg.modules.asWritten true = cfg.modules ↔
      ∀ name ts, (name, ts) ∈ cfg.modules.entries →
        (name ≠ "" ∧ ts ≠ []) ∧ ∀ t ∈ ts, t.KeptWhole := by
  rw [OrderedMap.ext_iff]
  refine map_filter_eq_self_iff.trans ?_
  rw [Prod.forall]
  refine forall_congr' fun name => forall_congr' fun ts => forall_congr' fun hts => ?_
  have hlist : (name, ts.map (TransportInfo.asWritten true)) = (name, ts) ↔
      ∀ t ∈ ts, t.KeptWhole := by
    rw [Prod.mk.injEq, eq_self, true_and, map_eq_self_iff]
    exact forall₂_congr fun t ht => asWritten_eq_self_iff (hknown name ts hts t ht)
  exact and_congr (by simp) hlist

theorem dirs_asWritten_eq_self_iff :
    (cfg.asWritten true).dirs = cfg.dirs ↔ (cfg.dirs.data = "" → cfg.persistencePath = "") := by
  rcases hdirs : cfg.dirs with ⟨modules, plugins, keyring, data, cache, logs⟩
  simp only [DaemonConfig.asWritten, hdirs]
  split
  · next h =>
    rw [String.isEmpty_iff.mp h]
    simp
  · next h =>
    refine iff_of_true rfl ?_
    intro hdata
    exact absurd (String.isEmpty_iff.mpr hdata) h

/-- **When all of it is kept.** -/
theorem asWritten_eq_self_iff_keptWhole (hknown : KnownProtocols cfg.modules) :
    cfg.asWritten true = cfg ↔ KeptWhole cfg := by
  have hmodules := modules_asWritten_eq_self_iff hknown
  constructor
  · intro h
    have hentries := hmodules.mp (congrArg DaemonConfig.modules h)
    exact ⟨fun name ts hts => (hentries name ts hts).1,
      fun name ts hts => (hentries name ts hts).2,
      dirs_asWritten_eq_self_iff.mp (congrArg DaemonConfig.dirs h)⟩
  · rintro ⟨hnamed, hlisteners, hdata⟩
    have hmods := hmodules.mpr fun name ts hts => ⟨hnamed name ts hts, hlisteners name ts hts⟩
    have hdirs := dirs_asWritten_eq_self_iff.mpr hdata
    exact congrArg₂ (fun modules dirs => { cfg with modules := modules, dirs := dirs })
      hmods hdirs

end Kept

/-! ## 8. The document on disk -/

section Storable

variable {cfg : DaemonConfig} {includeSecrets : Bool}

theorem storable_assignNonEmpty {key s : String} {kvs : List (String × Json)}
    (h : Storable (.obj kvs)) : Storable (.obj (assignNonEmpty key s kvs)) := by
  unfold assignNonEmpty
  split
  · exact h
  · exact storable_assign (.str s) h

theorem storable_transportToJson (t : TransportInfo) :
    Storable (transportToJson t includeSecrets) := by
  have hprotocol := @storable_assign "protocol" _ _ (.str t.protocol) storable_empty
  unfold transportToJson
  dsimp only
  have hnetwork : Storable (.obj (if t.protocol ≠ "local" then
      assign "codec" (.str (codecOrJson t.codec)) (assign "port" (.int t.port.toNat)
        (assign "host" (.str t.host) (assign "protocol" (.str t.protocol) [])))
      else assign "protocol" (.str t.protocol) [])) := by
    split
    · exact storable_assign (.str _) (storable_assign (storable_port _)
        (storable_assign (.str _) hprotocol))
    · exact hprotocol
  split
  · have htls := @storable_assign "verify_peer" _ _ (.bool t.verifyPeer)
      (@storable_assignNonEmpty "ca_file" t.caFile _ hnetwork)
    split
    · exact storable_assignNonEmpty (storable_assignNonEmpty htls)
    · exact htls
  · exact hnetwork

theorem storable_modulesToJson (modules : Modules) :
    Storable (.obj (modulesToJson includeSecrets modules)) := by
  rw [modulesToJson_eq]
  refine .obj _ (modules.sorted.map _ fun _ _ h => h) ?_
  intro kv hkv
  obtain ⟨e, -, rfl⟩ := List.mem_map.mp hkv
  refine storable_assign (.arr _ ?_) storable_empty
  intro j hj
  obtain ⟨t, -, rfl⟩ := List.mem_map.mp hj
  exact storable_transportToJson t

theorem storable_dirsToJson (dirs : SessionDirs) : Storable (.obj (dirsToJson dirs)) := by
  unfold dirsToJson
  iterate 6 refine storable_assignNonEmpty ?_
  exact storable_empty

theorem storable_loggingToJson {logging : LoggingConfig} (h : logging.InRange) :
    Storable (.obj (loggingToJson logging)) := by
  obtain ⟨hsize, hfiles⟩ := h
  refine storable_assign (.bool _) (storable_assign (.int _ (by omega) (by omega)) ?_)
  refine storable_assign (.int _ (by omega) (by omega)) ?_
  exact storable_assign (.str _) (storable_assign (.bool _) storable_empty)

theorem storable_daemonConfigToJson (h : cfg.logging.InRange) :
    Storable (.obj (daemonConfigToJson cfg includeSecrets)) := by
  unfold daemonConfigToJson assignDirs
  iterate 4 refine storable_assignNonEmpty ?_
  refine storable_assign (.bool _) (storable_assign (storable_loggingToJson h) ?_)
  have hfront : Storable (.obj (assign "ssl" (.obj (sslToJson cfg)) (assign "modules"
      (.obj (modulesToJson includeSecrets cfg.modules)) (assign "persistence_path"
        (.str cfg.persistencePath)
        (assign "modules_dirs" (.arr (cfg.modulesDirs.map Json.str)) []))))) := by
    refine storable_assign ?_ (storable_assign (storable_modulesToJson _) ?_)
    · exact storable_assign (.str _) (storable_assign (.str _) (storable_assign (.str _)
        storable_empty))
    · refine storable_assign (.str _) (storable_assign (.arr _ ?_) storable_empty)
      intro j hj
      obtain ⟨s, -, rfl⟩ := List.mem_map.mp hj
      exact .str s
  split
  · exact hfront
  · exact storable_assign (storable_dirsToJson _) hfront

/-- The document of a configuration can be stored as YAML. -/
theorem storable_document (h : cfg.logging.InRange) :
    Storable (.obj (DaemonConfigFile.document cfg)) :=
  storable_assign (.int _ (by decide) (by decide)) (storable_daemonConfigToJson h)

end Storable

end Logosctl
