/-
# Installing a configuration document

`daemon config set` and `client config set`: a document is parsed, its top-level keys are held
against a list, the schema version is stamped on it, and the canonical text that is going to be
written is parsed again and put through the loader.  Only then is the session touched, and only by
a rename.  So a document that installs is a document that loads (`loads_of_set`), and a command that
fails leaves the session as it was (`set_error`).

The list of keys is kept apart from the loader, and from the encoder.  `set_reproduces_iff` is when
what the daemon writes can be installed, and `noKeyIgnored_iff` when no key goes unnoticed.
-/
import Logosctl.ConfigSchema
import Logosctl.DaemonConfig.Write

namespace Logosctl

open Library JsonSchema YamlJson

/-! ## 1. The command -/

/-- Which of the two documents. -/
inductive Side
  | daemon
  | client
  deriving DecidableEq, Repr

def kDaemonKeys : List String :=
  ["access_group", "access_policy", "dirs", "insecure_tcp", "logging", "modules", "modules_dirs",
    "persistence_path", "signature_policy", "ssl", "version"]

def kClientKeys : List String := ["daemon", "instance_id", "token_file", "version"]

namespace Side

def known : Side → List String
  | daemon => kDaemonKeys
  | client => kClientKeys

def schemaVersion : Side → Int
  | daemon => kDaemonConfigSchemaVersion
  | client => kClientStateSchemaVersion

/-- What the loader says against a document. -/
def refuses : Side → Json → Option String
  | daemon, doc =>
    match parseDaemonConfigDocument doc with
    | .ok _ => none
    | .error e => some e
  | client, doc =>
    match parseClientStateDocument doc with
    | .ok _ => none
    | .error e => some e

/-- The top-level keys that are not known, in the document's order. -/
def unknown (side : Side) (kvs : List (String × Json)) : List String :=
  (kvs.map Prod.fst).filter fun key => !side.known.contains key

/-- The document with the schema version on it. -/
def stamp (side : Side) (kvs : List (String × Json)) : List (String × Json) :=
  assign "version" (.int side.schemaVersion) kvs

end Side

structure SetError where
  code : String
  message : String
  deriving DecidableEq, Repr

/-- Standard input, and the content of a file that can be opened. -/
structure DocumentSource where
  stdin : String
  open? : String → Option String

/-- `FILE`, `@FILE`, or `-` for standard input. -/
def readDocument (source : DocumentSource) (spec : String) : Except SetError String :=
  if spec = "-" then .ok source.stdin
  else
    let path := match spec.toList with
      | '@' :: cs => String.ofList cs
      | _ => spec
    match source.open? path with
    | some text => .ok text
    | none => .error ⟨"IO_ERROR", "Could not open '" ++ path ++ "'."⟩

/-- What is decided before the session is touched: the canonical text. -/
def canonicalText (side : Side) (yaml : YamlPair) (text : String) : Except SetError String :=
  match parse yaml.toYamlCpp text with
  | .error e => .error ⟨"INVALID_CONFIG", "Not valid YAML: " ++ e⟩
  | .ok (.obj kvs) =>
    if !(side.unknown kvs).isEmpty then
      .error ⟨"INVALID_CONFIG", "Unknown key(s): " ++ ", ".intercalate (side.unknown kvs) ++
        ". Known keys are: " ++ ", ".intercalate side.known ++ "."⟩
    else
      let canonical := dump yaml (.obj (side.stamp kvs))
      match parse yaml.toYamlCpp canonical with
      | .error e => .error ⟨"INVALID_CONFIG", "Not valid YAML: " ++ e⟩
      | .ok reparsed =>
        match side.refuses reparsed with
        | some e => .error ⟨"INVALID_CONFIG", e⟩
        | none => .ok canonical
  | .ok _ => .error ⟨"INVALID_CONFIG", "The config document must be a mapping at the top level."⟩

/-- The file at the path of the configuration. -/
structure InstalledFile where
  content : String
  mode : Nat
  deriving DecidableEq, Repr

/-- What the calls on the filesystem answer, and the permissions of a file that is created. -/
structure Installing where
  createDirectories : Bool
  openTmp : Bool
  writeTmp : Bool
  chmod : Bool
  rename : Bool
  newMode : Nat

/-- The permissions of the file being replaced are passed on, when that is possible. -/
def modeOfTmp (fs : Installing) (before : Option InstalledFile) : Nat :=
  match before with
  | some file => if fs.chmod then file.mode else fs.newMode
  | none => fs.newMode

/-- A temporary file beside the target, renamed into place. -/
def installText (path canonical : String) (fs : Installing) (before : Option InstalledFile) :
    Except SetError String × Option InstalledFile :=
  if !fs.createDirectories then (.error ⟨"IO_ERROR", "Could not create " ++ path⟩, before)
  else if !fs.openTmp || !fs.writeTmp then
    (.error ⟨"IO_ERROR", "Could not write " ++ path⟩, before)
  else if !fs.rename then (.error ⟨"IO_ERROR", "Could not write " ++ path⟩, before)
  else (.ok path, some ⟨canonical, modeOfTmp fs before⟩)

/-- `ConfigCommand::set`: the path that was written, or the error, and the file at the path
afterwards. -/
def ConfigCommand.set (side : Side) (yaml : YamlPair) (source : DocumentSource) (spec path : String)
    (fs : Installing) (before : Option InstalledFile) :
    Except SetError String × Option InstalledFile :=
  match readDocument source spec with
  | .error e => (.error e, before)
  | .ok text =>
    match canonicalText side yaml text with
    | .error e => (.error e, before)
    | .ok canonical => installText path canonical fs before

/-! ## 2. What installs -/

section Set

variable {side : Side} {yaml : YamlPair} {source : DocumentSource}
  {spec path text canonical : String} {fs : Installing} {before : Option InstalledFile}

/-- The filesystem does what it is asked to; whether permissions can be set does not matter. -/
def Installing.Succeeds (fs : Installing) : Prop :=
  fs.createDirectories = true ∧ fs.openTmp = true ∧ fs.writeTmp = true ∧ fs.rename = true

/-- Nothing fails. -/
def Installing.smooth : Installing := ⟨true, true, true, true, true, 0o644⟩

theorem succeeds_smooth : Installing.smooth.Succeeds := ⟨rfl, rfl, rfl, rfl⟩

/-- What it takes for a document to be let through. -/
theorem canonicalText_eq_ok_iff : canonicalText side yaml text = .ok canonical ↔
    ∃ kvs reparsed, parse yaml.toYamlCpp text = .ok (.obj kvs) ∧ side.unknown kvs = [] ∧
      canonical = dump yaml (.obj (side.stamp kvs)) ∧
      parse yaml.toYamlCpp canonical = .ok reparsed ∧ side.refuses reparsed = none := by
  constructor
  · intro h
    simp only [canonicalText] at h
    split at h
    · cases h
    · next kvs hparse =>
      split_ifs at h with hunknown
      split at h
      · cases h
      · next reparsed hreparsed =>
        split at h
        · cases h
        · next hloads =>
          cases h
          exact ⟨kvs, reparsed, hparse, by simpa using hunknown, rfl, hreparsed, hloads⟩
    · cases h
  · rintro ⟨kvs, reparsed, hparse, hunknown, rfl, hreparsed, hloads⟩
    simp [canonicalText, hparse, hunknown, hreparsed, hloads]

theorem installText_of_succeeds (h : fs.Succeeds) :
    installText path canonical fs before =
      (.ok path, some ⟨canonical, modeOfTmp fs before⟩) := by
  obtain ⟨hcreate, hopen, hwrite, hrename⟩ := h
  simp [installText, hcreate, hopen, hwrite, hrename]

/-- **A command that fails leaves the session as it was.** -/
theorem set_error {e : SetError} {after : Option InstalledFile}
    (h : ConfigCommand.set side yaml source spec path fs before = (.error e, after)) :
    after = before := by
  unfold ConfigCommand.set at h
  split at h
  · exact (Prod.mk.inj h).2.symm
  · split at h
    · exact (Prod.mk.inj h).2.symm
    · simp only [installText] at h
      split_ifs at h
      all_goals first | exact (Prod.mk.inj h).2.symm | cases h

/-- A command that succeeds installs the canonical text of the document. -/
theorem set_ok {p : String} {after : Option InstalledFile}
    (h : ConfigCommand.set side yaml source spec path fs before = (.ok p, after)) :
    ∃ text canonical, readDocument source spec = .ok text ∧
      canonicalText side yaml text = .ok canonical ∧
      after = some ⟨canonical, modeOfTmp fs before⟩ := by
  unfold ConfigCommand.set at h
  split at h
  · cases h
  · next text htext =>
    split at h
    · cases h
    · next canonical hcanonical =>
      unfold installText at h
      split_ifs at h
      · cases h
      · cases h
      · cases h
      · exact ⟨text, canonical, htext, hcanonical, (Prod.mk.inj h).2.symm⟩

/-- **A document that installs is a document that loads.** -/
theorem loads_of_set {p : String} {after : Option InstalledFile}
    (h : ConfigCommand.set side yaml source spec path fs before = (.ok p, after)) :
    ∃ file doc, after = some file ∧ parse yaml.toYamlCpp file.content = .ok doc ∧
      side.refuses doc = none := by
  obtain ⟨text, canonical, -, hcanonical, rfl⟩ := set_ok h
  obtain ⟨kvs, reparsed, -, -, -, hreparsed, hloads⟩ := canonicalText_eq_ok_iff.mp hcanonical
  exact ⟨_, reparsed, rfl, hreparsed, hloads⟩

end Set

/-! ## 3. What the daemon writes -/

/-- Given the text, `daemon config set` installs a file that is read as the configuration, whenever
the filesystem does what it is asked to. -/
def Reproduces (yaml : YamlPair) (text : String) (cfg : DaemonConfig) : Prop :=
  ∀ source spec path fs before, readDocument source spec = .ok text → Installing.Succeeds fs →
    ∃ file, ConfigCommand.set .daemon yaml source spec path fs before = (.ok path, some file) ∧
      DaemonConfigFile.read yaml.toYamlCpp path (.text file.content) = (some cfg, [])

section Reproduces

variable {yaml : YamlPair} {text : String} {cfg : DaemonConfig}

theorem assign_assign {key : String} {v w : Json} (kvs : List (String × Json)) :
    assign key v (assign key w kvs) = assign key v kvs := by
  induction kvs with
  | nil => simp [assign]
  | cons kv kvs ih =>
    by_cases hlt : key < kv.1
    · simp [assign, hlt]
    · by_cases heq : key = kv.1
      · simp [assign, heq]
      · simp [assign, hlt, heq, ih]

/-- The document is stamped already. -/
theorem stamp_document (cfg : DaemonConfig) :
    Side.daemon.stamp (DaemonConfigFile.document cfg) = DaemonConfigFile.document cfg :=
  assign_assign _

theorem key_mem_of_mem_assign {keys : List String} {key : String} {v : Json}
    {obj : List (String × Json)} (hkey : key ∈ keys) (hobj : ∀ kv ∈ obj, kv.1 ∈ keys) :
    ∀ kv ∈ assign key v obj, kv.1 ∈ keys := by
  intro kv hkv
  rcases mem_assign hkv with rfl | hkv
  · exact hkey
  · exact hobj kv hkv

theorem key_mem_of_mem_assignNonEmpty {keys : List String} {key s : String}
    {obj : List (String × Json)} (hkey : s ≠ "" → key ∈ keys) (hobj : ∀ kv ∈ obj, kv.1 ∈ keys) :
    ∀ kv ∈ assignNonEmpty key s obj, kv.1 ∈ keys := by
  unfold assignNonEmpty
  split
  · exact hobj
  · next hs => exact key_mem_of_mem_assign (hkey fun h => hs (String.isEmpty_iff.mpr h)) hobj

theorem key_mem_of_mem_assignDirs {keys : List String} {dirsObj obj : List (String × Json)}
    (hkey : "dirs" ∈ keys) (hobj : ∀ kv ∈ obj, kv.1 ∈ keys) :
    ∀ kv ∈ assignDirs dirsObj obj, kv.1 ∈ keys := by
  unfold assignDirs
  split
  · exact hobj
  · exact key_mem_of_mem_assign hkey hobj

/-- Without a container every key that is written is known. -/
theorem unknown_document_of_container (h : cfg.container = "") :
    Side.daemon.unknown (DaemonConfigFile.document cfg) = [] := by
  have hall : ∀ kv ∈ DaemonConfigFile.document cfg, kv.1 ∈ kDaemonKeys := by
    refine key_mem_of_mem_assign (by decide) ?_
    refine key_mem_of_mem_assignNonEmpty (fun _ => by decide) ?_
    refine key_mem_of_mem_assignNonEmpty (fun _ => by decide) ?_
    refine key_mem_of_mem_assignNonEmpty (fun _ => by decide) ?_
    refine key_mem_of_mem_assignNonEmpty (fun hne => absurd h hne) ?_
    iterate 2 refine key_mem_of_mem_assign (by decide) ?_
    refine key_mem_of_mem_assignDirs (by decide) ?_
    iterate 4 refine key_mem_of_mem_assign (by decide) ?_
    exact List.forall_mem_nil _
  refine List.filter_eq_nil_iff.mpr ?_
  intro key hkey
  obtain ⟨kv, hkv, rfl⟩ := List.mem_map.mp hkey
  simpa [Side.known] using hall kv hkv

/-- A container is written under a key that is not. -/
theorem unknown_document_of_ne (h : cfg.container ≠ "") :
    "container" ∈ Side.daemon.unknown (DaemonConfigFile.document cfg) := by
  have hlookup : (DaemonConfigFile.document cfg).lookup "container" =
      some (.str cfg.container) := by
    simp [DaemonConfigFile.document, daemonConfigToJson, h]
  obtain ⟨front, rest, heq, -⟩ := List.lookup_eq_some_iff.mp hlookup
  refine List.mem_filter.mpr ⟨?_, by decide⟩
  rw [heq]
  exact List.mem_map_of_mem (f := Prod.fst) (List.mem_append_right _ List.mem_cons_self)

/-- The text that is let through, when the document can be stored. -/
theorem canonicalText_document (hread : ReadsScalars yaml)
    (hcarries : Carries yaml (emit yaml (.obj (DaemonConfigFile.document cfg))))
    (htext : parse yaml.toYamlCpp text = .ok (.obj (DaemonConfigFile.document cfg)))
    (hcfg : Writable cfg) (hcontainer : cfg.container = "") :
    canonicalText .daemon yaml text =
      .ok (dump yaml (.obj (DaemonConfigFile.document cfg))) := by
  have hback := parse_dump_of_storable hread (storable_document hcfg.limits) hcarries
  refine canonicalText_eq_ok_iff.mpr
    ⟨_, _, htext, unknown_document_of_container hcontainer, ?_, hback, ?_⟩
  · rw [stamp_document]
  · simp only [Side.refuses, parse_document hcfg]

/-- What is read as the configuration is its document, if it was written from it. -/
theorem parse_written (hread : ReadsScalars yaml)
    (hcarries : Carries yaml (emit yaml (.obj (DaemonConfigFile.document cfg))))
    (hlimits : cfg.logging.InRange)
    (htext : text = dump yaml (.obj (DaemonConfigFile.document cfg)) ∨
      parse yaml.toYamlCpp text = .ok (.obj (DaemonConfigFile.document cfg))) :
    parse yaml.toYamlCpp text = .ok (.obj (DaemonConfigFile.document cfg)) := by
  rcases htext with rfl | htext
  · exact parse_dump_of_storable hread (storable_document hlimits) hcarries
  · exact htext

/-- **When what the daemon writes can be installed and reads back as it was**, whether it was
written as YAML or as any text the parser reads as the document: exactly when there is no container,
the log limits are in range and the encoder leaves nothing out.  And of the keys the loader reads,
`container` is the one that is not on the list. -/
theorem set_reproduces_iff (hread : ReadsScalars yaml)
    (hprotocols : KnownProtocols cfg.modules)
    (hpolicy : cfg.signaturePolicy = "" ∨ isValidSignaturePolicy cfg.signaturePolicy = true)
    (hcarries : Carries yaml (emit yaml (.obj (DaemonConfigFile.document cfg))))
    (htext : text = dump yaml (.obj (DaemonConfigFile.document cfg)) ∨
      parse yaml.toYamlCpp text = .ok (.obj (DaemonConfigFile.document cfg))) :
    (Reproduces yaml text cfg ↔
      cfg.container = "" ∧ cfg.logging.InRange ∧ KeptWhole cfg) ∧
    ∀ key, LoaderReads key → (key ∈ kDaemonKeys ↔ key ≠ "container") := by
  refine ⟨⟨?_, ?_⟩, ?_⟩
  · intro h
    obtain ⟨file, hset, hfile⟩ := h ⟨text, fun _ => none⟩ "-" "daemon/config.yaml"
      .smooth none rfl succeeds_smooth
    have hloaded : Loaded cfg := loaded_of_read (congrArg Prod.fst hfile)
    have hparse := parse_written hread hcarries hloaded.limits htext
    obtain ⟨text', canonical, htext', hcanonical, hinstalled⟩ := set_ok hset
    cases htext'
    cases hinstalled
    obtain ⟨kvs, reparsed, hkvs, hunknown, rfl, -, -⟩ := canonicalText_eq_ok_iff.mp hcanonical
    have hdoc : kvs = DaemonConfigFile.document cfg :=
      Json.obj.inj (Except.ok.inj (hkvs.symm.trans hparse))
    subst hdoc
    have hcontainer : cfg.container = "" := by
      by_contra hne
      have hmem := unknown_document_of_ne hne
      rw [hunknown] at hmem
      cases hmem
    have hback := parse_dump_of_storable hread (storable_document hloaded.limits) hcarries
    rw [stamp_document, read_document _ hback hloaded] at hfile
    have hkept : cfg.asWritten true = cfg := Option.some.inj (congrArg Prod.fst hfile)
    exact ⟨hcontainer, hloaded.limits, (asWritten_eq_self_iff_keptWhole hprotocols).mp hkept⟩
  · rintro ⟨hcontainer, hlimits, hkept⟩ source spec path fs before hsource hfs
    have hcfg : Loaded cfg := ⟨⟨hprotocols, hlimits, hpolicy⟩, hkept.named, hkept.data⟩
    have hparse := parse_written hread hcarries hlimits htext
    have hcanonical := canonicalText_document hread hcarries hparse hcfg.toWritable hcontainer
    refine ⟨⟨dump yaml (.obj (DaemonConfigFile.document cfg)), modeOfTmp fs before⟩, ?_, ?_⟩
    · simp only [ConfigCommand.set, hsource, hcanonical, installText_of_succeeds hfs]
    · have hback := parse_dump_of_storable hread (storable_document hlimits) hcarries
      rw [read_document path hback hcfg, (asWritten_eq_self_iff_keptWhole hprotocols).mpr hkept]
  · intro key hkey
    have hmem := mem_of_loaderReads hkey
    simp only [List.mem_cons, List.not_mem_nil, or_false] at hmem
    rcases hmem with rfl | rfl | rfl | rfl | rfl | rfl | rfl | rfl | rfl | rfl | rfl | rfl <;>
      decide

end Reproduces

/-- A listener on the loopback interface, and a data directory under both its names. -/
def loopback : DaemonConfig where
  persistencePath := "/srv/data"
  dirs := { data := "/srv/data" }
  modules := OrderedMap.emplace "core_service"
    [{ protocol := "local" }, { protocol := "tcp", host := "127.0.0.1", port := 6001 }] ∅
  signaturePolicy := "require"

/-- The blocks every document has. -/
def commonBlocks : String :=
  "insecure_tcp: false\nlogging:\n  console: true\n  enabled: true\n  file: daemon.log\n" ++
  "  max_files: 5\n  max_size_mb: 10\n"

def loopbackText : String :=
  "dirs:\n  data: /srv/data\n" ++ commonBlocks ++
  "modules:\n  core_service:\n    transports:\n      - protocol: local\n" ++
  "      - codec: json\n        host: 127.0.0.1\n        port: 6001\n        protocol: tcp\n" ++
  "modules_dirs:\n  []\npersistence_path: /srv/data\nsignature_policy: require\n" ++
  "ssl:\n  ca: \"\"\n  cert: \"\"\n  key: \"\"\nversion: 2\n"

/-- It can be installed as it was written. -/
theorem loopback_reproduced :
    Reproduces (writing loopbackText (.obj (DaemonConfigFile.document loopback))) loopbackText
      loopback := by
  have hlimits : loopback.logging.InRange := ⟨by decide, by decide⟩
  have hentries : ∀ name ts, (name, ts) ∈ loopback.modules.entries → name = "core_service" ∧
      ts = [{ protocol := "local" }, { protocol := "tcp", host := "127.0.0.1", port := 6001 }] :=
    fun name ts h => Prod.mk.inj (List.mem_singleton.mp h)
  have hprotocols : KnownProtocols loopback.modules := by
    intro name ts h
    rw [(hentries name ts h).2]
    decide
  have hkept : KeptWhole loopback := by
    refine ⟨?_, ?_, by decide⟩
    · intro name ts h
      obtain ⟨rfl, rfl⟩ := hentries name ts h
      exact ⟨by decide, List.cons_ne_nil _ _⟩
    · intro name ts h
      obtain ⟨-, rfl⟩ := hentries name ts h
      simp [TransportInfo.KeptWhole]
  exact (set_reproduces_iff readsScalars_knowing hprotocols (Or.inr (by decide))
    (carries_writing _ _) (Or.inr (parse_writing _ (storable_document hlimits)))).1.mpr
    ⟨rfl, hlimits, hkept⟩

/-- A configuration with a container and nothing else. -/
def contained : DaemonConfig where
  container := "subprocess"

def containedText : String :=
  "container: subprocess\n" ++ commonBlocks ++ "modules: \x7b\x7d\nmodules_dirs:\n  []\n" ++
  "persistence_path: \"\"\nssl:\n  ca: \"\"\n  cert: \"\"\n  key: \"\"\nversion: 2\n"

/-- The parser and the emitter on that document. -/
def containedYaml : YamlPair :=
  writing containedText (.obj (DaemonConfigFile.document contained))

/-- The loader reads the document, container and all, and the command refuses to install it. -/
theorem contained_refused :
    DaemonConfigFile.read containedYaml.toYamlCpp "daemon/config.yaml" (.text containedText) =
        (some contained, []) ∧
      ConfigCommand.set .daemon containedYaml ⟨containedText, fun _ => none⟩ "-"
          "daemon/config.yaml" .smooth none =
        (.error ⟨"INVALID_CONFIG", "Unknown key(s): container. Known keys are: access_group, " ++
          "access_policy, dirs, insecure_tcp, logging, modules, modules_dirs, persistence_path, " ++
          "signature_policy, ssl, version."⟩, none) ∧
      ¬ Reproduces containedYaml containedText contained := by
  have hlimits : contained.logging.InRange := ⟨by decide, by decide⟩
  have hloaded : Loaded contained := ⟨⟨nofun, hlimits, Or.inl rfl⟩, nofun, fun _ => rfl⟩
  have hparse : parse containedYaml.toYamlCpp containedText = _ :=
    parse_writing containedText (storable_document hlimits)
  have hunknown : Side.daemon.unknown (DaemonConfigFile.document contained) = ["container"] := by
    decide +kernel
  have hset : ConfigCommand.set .daemon containedYaml ⟨containedText, fun _ => none⟩ "-"
      "daemon/config.yaml" .smooth none =
      (.error ⟨"INVALID_CONFIG", "Unknown key(s): container. Known keys are: access_group, " ++
        "access_policy, dirs, insecure_tcp, logging, modules, modules_dirs, persistence_path, " ++
        "signature_policy, ssl, version."⟩, none) := by
    simp only [ConfigCommand.set, readDocument, if_true, canonicalText, hparse, hunknown]
    decide +kernel
  refine ⟨read_document _ hparse hloaded, hset, ?_⟩
  intro h
  obtain ⟨file, hok, -⟩ := h ⟨containedText, fun _ => none⟩ "-" "daemon/config.yaml" .smooth none
    rfl succeeds_smooth
  rw [hset] at hok
  cases hok

/-! ## 4. Keys nobody reads -/

/-- The keys the loader looks at. -/
def Side.schema : Side → Schema
  | .daemon => daemonSchema
  | .client => clientSchema

/-- A document with a key, at whatever depth, that the loader does not look at there is refused, and
nothing is installed. -/
def NoKeyIgnored (side : Side) (yaml : YamlPair) (text : String) : Prop :=
  ∀ kvs, parse yaml.toYamlCpp text = .ok (.obj kvs) → allRead side.schema (.obj kvs) = false →
    ∀ source spec path fs before, readDocument source spec = .ok text →
      ∃ e, ConfigCommand.set side yaml source spec path fs before = (.error e, before)

section Ignored

variable {side : Side} {yaml : YamlPair} {text : String} {kvs : List (String × Json)}

/-- The loader is blind to the other keys, whichever document it reads. -/
theorem refuses_prune (doc : Json) : side.refuses (prune side.schema doc) = side.refuses doc := by
  cases side with
  | daemon => simp only [Side.refuses, Side.schema, parseDaemonConfigDocument_prune]
  | client => simp only [Side.refuses, Side.schema, parseClientStateDocument_prune]

theorem unknown_eq_nil_iff : side.unknown kvs = [] ↔ ∀ kv ∈ kvs, kv.1 ∈ side.known := by
  simp [Side.unknown, List.filter_eq_nil_iff]

theorem held_stamp (h : Held (.obj kvs)) : Held (.obj (side.stamp kvs)) := by
  refine held_assign ?_ h
  cases side with
  | daemon => exact .int _ (by decide) (by decide)
  | client => exact .int _ (by decide) (by decide)

/-- A document is let through when its top level is known and the loader takes what its canonical
text is parsed as, without the keys the loader does not look at. -/
theorem canonicalText_isOk_iff (hkey : ∀ tag s, yaml.asString (.scalar tag s) = .ok s)
    (hint : ReadsInt64 yaml.toYamlCpp) (hparse : parse yaml.toYamlCpp text = .ok (.obj kvs))
    (hcarries : Carries yaml (emit yaml (.obj (side.stamp kvs)))) :
    (∃ canonical, canonicalText side yaml text = .ok canonical) ↔
      (∀ kv ∈ kvs, kv.1 ∈ side.known) ∧
        side.refuses (prune side.schema (.obj (rereadMembers yaml (side.stamp kvs)))) = none := by
  have hback := parse_dump hkey (held_stamp (held_of_parse hint hparse)) hcarries
  rw [refuses_prune, ← unknown_eq_nil_iff]
  constructor
  · rintro ⟨canonical, h⟩
    obtain ⟨kvs', reparsed, hkvs', hunknown, rfl, hreparsed, hloads⟩ :=
      canonicalText_eq_ok_iff.mp h
    cases hparse.symm.trans hkvs'
    cases hback.symm.trans hreparsed
    exact ⟨hunknown, hloads⟩
  · rintro ⟨hunknown, hloads⟩
    exact ⟨_, canonicalText_eq_ok_iff.mpr ⟨kvs, _, hparse, hunknown, rfl, hback, hloads⟩⟩

/-- **When no key goes unnoticed**: exactly when a key at the top level is unknown, or every key is
looked at where it stands, or what is left of the document without the keys that are not is refused
by itself. -/
theorem noKeyIgnored_iff (hkey : ∀ tag s, yaml.asString (.scalar tag s) = .ok s)
    (hint : ReadsInt64 yaml.toYamlCpp)
    (hcarries : ∀ kvs, parse yaml.toYamlCpp text = .ok (.obj kvs) →
      Carries yaml (emit yaml (.obj (side.stamp kvs)))) :
    NoKeyIgnored side yaml text ↔ ∀ kvs, parse yaml.toYamlCpp text = .ok (.obj kvs) →
      (∃ kv ∈ kvs, kv.1 ∉ side.known) ∨ allRead side.schema (.obj kvs) = true ∨
        side.refuses (prune side.schema (.obj (rereadMembers yaml (side.stamp kvs)))) ≠ none := by
  constructor
  · intro h kvs hparse
    by_contra hnot
    simp only [not_or, not_exists, not_and, not_not] at hnot
    obtain ⟨hknown, hunread, hloads⟩ := hnot
    rw [Bool.not_eq_true] at hunread
    obtain ⟨canonical, hcanonical⟩ := (canonicalText_isOk_iff hkey hint hparse
      (hcarries kvs hparse)).mpr ⟨hknown, hloads⟩
    obtain ⟨e, hset⟩ := h kvs hparse hunread ⟨text, fun _ => none⟩ "-" "config.yaml"
      .smooth none rfl
    simp only [ConfigCommand.set, readDocument, if_true, hcanonical,
      installText_of_succeeds succeeds_smooth] at hset
    cases hset
  · intro h kvs hparse hunread source spec path fs before hsource
    simp only [ConfigCommand.set, hsource]
    cases hcanonical : canonicalText side yaml text with
    | error e => exact ⟨e, rfl⟩
    | ok canonical =>
      obtain ⟨hknown, hloads⟩ := (canonicalText_isOk_iff hkey hint hparse
        (hcarries kvs hparse)).mp ⟨canonical, hcanonical⟩
      rcases h kvs hparse with ⟨kv, hkv, hnot⟩ | hall | hrefused
      · exact absurd (hknown kv hkv) hnot
      · exact absurd hall (ne_true_of_eq_false hunread)
      · exact absurd hloads hrefused

end Ignored

/-- How to reach a node on another host, the CA under the given key. -/
def dialSpec (caKey : String) : List (String × Json) :=
  [("daemon", .obj [("core_service", .obj [(caKey, .str "/etc/tls/ca.pem"),
      ("host", .str "node.example"), ("port", .int 8645), ("transport", .str "tcp_ssl")])]),
    ("token_file", .str "alice.json"), ("version", .int 2)]

def dialText (caKey : String) : String :=
  "daemon:\n  core_service:\n    " ++ caKey ++ ": /etc/tls/ca.pem\n    host: node.example\n" ++
  "    port: 8645\n    transport: tcp_ssl\ntoken_file: alice.json\nversion: 2\n"

/-- The parser and the emitter on it. -/
def dialYaml (caKey : String) : YamlPair := writing (dialText caKey) (.obj (dialSpec caKey))

theorem storable_dialSpec {caKey : String} (h : caKey < "host") :
    Storable (.obj (dialSpec caKey)) := by
  have hlistener : Storable (.obj [(caKey, .str "/etc/tls/ca.pem"),
      ("host", .str "node.example"), ("port", .int 8645), ("transport", .str "tcp_ssl")]) := by
    have hrest : ([("host", .str "node.example"), ("port", .int 8645),
        ("transport", .str "tcp_ssl")] : List (String × Json)).Pairwise fun a b => a.1 < b.1 := by
      decide +kernel
    refine .obj _ (List.pairwise_cons.mpr ⟨?_, hrest⟩) ?_
    · simp only [List.forall_mem_cons]
      exact ⟨h, h.trans (by decide +kernel), h.trans (by decide +kernel), List.forall_mem_nil _⟩
    · simp only [List.forall_mem_cons]
      exact ⟨.str _, .str _, .int _ (by decide) (by decide), .str _, List.forall_mem_nil _⟩
  have hkeys : ["daemon", "token_file", "version"].Pairwise (· < ·) := by decide +kernel
  refine .obj _ (List.pairwise_map.mp hkeys) ?_
  simp only [dialSpec, List.forall_mem_cons]
  refine ⟨.obj _ (List.pairwise_singleton _ _) ?_, .str _, .int _ (by decide) (by decide),
    List.forall_mem_nil _⟩
  simp only [List.forall_mem_cons]
  exact ⟨hlistener, List.forall_mem_nil _⟩

/-- With the client's own word for the CA every key is looked at. -/
theorem ca_not_ignored : NoKeyIgnored .client (dialYaml "ca") (dialText "ca") := by
  have hparse := parse_writing (dialText "ca") (@storable_dialSpec "ca" (by decide +kernel))
  refine (noKeyIgnored_iff (fun _ _ => rfl) readsInt64_knowing ?_).mpr ?_
  · intro kvs hkvs
    cases hparse.symm.trans hkvs
    exact carries_writing _ _
  · intro kvs hkvs
    cases hparse.symm.trans hkvs
    exact Or.inr (Or.inl (by decide +kernel))

/-- With the daemon's word for it the document installs as well, and is loaded without a CA. -/
theorem ca_file_ignored :
    ConfigCommand.set .client (dialYaml "ca_file") ⟨dialText "ca_file", fun _ => none⟩ "-"
        "client/config.yaml" .smooth none =
        (.ok "client/config.yaml", some ⟨dialText "ca_file", 0o644⟩) ∧
      (ClientStateFile.read (dialYaml "ca_file").toYamlCpp "client/config.yaml" none
        (.text (dialText "ca_file"))).1.daemon.entries =
        [("core_service", { protocol := "tcp_ssl", host := "node.example", port := 8645 })] ∧
      ¬ NoKeyIgnored .client (dialYaml "ca_file") (dialText "ca_file") := by
  have hparse : parse (dialYaml "ca_file").toYamlCpp (dialText "ca_file") = _ :=
    parse_writing (dialText "ca_file") (@storable_dialSpec "ca_file" (by decide +kernel))
  have hcanonical : canonicalText .client (dialYaml "ca_file") (dialText "ca_file") =
      .ok (dialText "ca_file") :=
    canonicalText_eq_ok_iff.mpr ⟨dialSpec "ca_file", .obj (dialSpec "ca_file"), hparse,
      by decide +kernel, by decide +kernel, hparse, by decide +kernel⟩
  have hset : ConfigCommand.set .client (dialYaml "ca_file")
      ⟨dialText "ca_file", fun _ => none⟩ "-" "client/config.yaml"
      .smooth none =
      (.ok "client/config.yaml", some ⟨dialText "ca_file", 0o644⟩) := by
    simp only [ConfigCommand.set, readDocument, if_true, hcanonical]
    rfl
  refine ⟨hset, ?_, ?_⟩
  · simp only [ClientStateFile.read, hparse]
    decide +kernel
  · intro h
    obtain ⟨e, herror⟩ := h (dialSpec "ca_file") hparse (by decide +kernel)
      ⟨dialText "ca_file", fun _ => none⟩ "-" "client/config.yaml"
      .smooth none rfl
    rw [hset] at herror
    cases herror

end Logosctl
