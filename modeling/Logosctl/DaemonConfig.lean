/-
# The daemon's configuration document

What `daemon/config.yaml` says and how it is read.  The reader is strict: a value of the wrong
type, a number out of range, a transport of an unknown protocol or a signature policy that is
none of the three makes the whole document unusable, with the first thing found wrong as the
reason.  What it hands over is therefore well formed: every listener has one of the three
protocols, and no module has an empty list.
-/
import Logosctl.JsonSchema
import Logosctl.YamlJson
import Logosctl.Library.OrderedMap
import Mathlib.Data.String.Basic

namespace Logosctl

open Library JsonSchema

/-! ## 1. The configuration -/

/-- One endpoint of one module.  `certFile` and `keyFile` are the server's own. -/
structure TransportInfo where
  protocol : String := ""
  host : String := ""
  port : UInt16 := 0
  caFile : String := ""
  verifyPeer : Bool := true
  codec : String := "json"
  certFile : String := ""
  keyFile : String := ""
  deriving DecidableEq, Repr

/-- Redirects for the session's subdirectories; empty means the default. -/
structure SessionDirs where
  modules : String := ""
  plugins : String := ""
  keyring : String := ""
  data : String := ""
  cache : String := ""
  logs : String := ""
  deriving DecidableEq, Repr

structure LoggingConfig where
  enabled : Bool := true
  file : String := "daemon.log"
  maxSizeMb : Nat := 10
  maxFiles : Nat := 5
  console : Bool := true
  deriving DecidableEq, Repr

/-- The listeners of each module, in module order. -/
abbrev Modules := OrderedMap String (List TransportInfo)

structure DaemonConfig where
  modulesDirs : List String := []
  persistencePath : String := ""
  dirs : SessionDirs := {}
  logging : LoggingConfig := {}
  modules : Modules := ∅
  sslCert : String := ""
  sslKey : String := ""
  sslCa : String := ""
  signaturePolicy : String := ""
  insecureTcp : Bool := false
  container : String := ""
  accessPolicy : String := ""
  accessGroup : String := ""
  deriving DecidableEq

def kDaemonConfigSchemaVersion : Int := 2

def isValidSignaturePolicy (policy : String) : Bool :=
  policy == "none" || policy == "warn" || policy == "require"

/-! ## 2. Transports -/

def isKnownProtocol (protocol : String) : Bool :=
  protocol == "local" || protocol == "tcp" || protocol == "tcp_ssl"

/-- The fields of a transport whose protocol has been read. -/
def transportFields (r : Reader) (protocol : String) : Checked TransportInfo := do
  let host ← r.str "host"
  let port ← r.integer "port" 0 0 0xFFFF
  let caFile ← r.str "ca_file"
  let verifyPeer ← r.boolean "verify_peer" true
  let certFile ← r.str "cert"
  let keyFile ← r.str "key"
  let codec ← r.str "codec" "json"
  return { protocol, host, port := .ofNat port.toNat, caFile, verifyPeer, codec, certFile, keyFile }

/-- One entry, `path` being where it lives in the document. -/
def transportFromJson (j : Json) (path : String) : Checked (Option TransportInfo) :=
  if !j.isObject then do
    mismatch path "a mapping describing one transport" j
    return none
  else do
    let r : Reader := ⟨j, path ++ "."⟩
    let protocol ← r.str "protocol"
    if !isKnownProtocol protocol then
      note (r.path "protocol" ++ ": expected one of \"local\", \"tcp\", \"tcp_ssl\"" ++
        (if protocol.isEmpty then ", but it is missing."
         else ", but got \"" ++ protocol ++ "\"."))
      return none
    else
      let t ← transportFields r protocol
      -- a field of the wrong type makes the entry as a whole unusable
      return if ← allOk then some t else none

def transportsFromJson (modulePath : String) :
    Nat → List Json → Checked (Option (List TransportInfo))
  | _, [] => return some []
  | i, j :: js => do
    match ← transportFromJson j (modulePath ++ ".transports[" ++ toString i ++ "]") with
    | none => return none
    | some t =>
      match ← transportsFromJson modulePath (i + 1) js with
      | none => return none
      | some ts => return some (t :: ts)

/-! ## 3. Modules -/

/-- What the block of one module amounts to. -/
inductive ModuleBlock
  | skipped
  | refused
  | transports (entries : List Json)

/-- Both spellings of a module's transports: a bare sequence, or a mapping with `transports`. -/
def moduleBlock (moduleObj : Json) (modulePath : String) : Checked ModuleBlock :=
  match moduleObj with
  | .null => return .skipped
  | .arr es => return .transports es
  | .obj kvs => do
    match ← Reader.list ⟨.obj kvs, modulePath ++ "."⟩ "transports" "a list of transports" with
    | some es => return .transports es
    | none => return if ← allOk then .skipped else .refused
  | v => do
    mismatch modulePath "a list of transports, or a mapping with a \"transports\" list" v
    return .refused

def modulesFromJson (r : Reader) : List (String × Json) → Modules → Checked (Option Modules)
  | [], acc => return some acc
  | (moduleName, moduleObj) :: rest, acc =>
    if moduleName.isEmpty then modulesFromJson r rest acc
    else do
      let modulePath := r.path "modules" ++ "." ++ moduleName
      match ← moduleBlock moduleObj modulePath with
      | .skipped => modulesFromJson r rest acc
      | .refused => return none
      | .transports es =>
        match ← transportsFromJson modulePath 0 es with
        | none => return none
        | some ts =>
          modulesFromJson r rest (if ts.isEmpty then acc else acc.emplace moduleName ts)

/-! ## 4. The document -/

/-- The three paths of the `ssl` block. -/
def sslFromJson (r : Reader) : Checked (String × String × String) := do
  match ← r.mapping "ssl" with
  | none => return ("", "", "")
  | some kvs =>
    let sr : Reader := ⟨.obj kvs, r.path "ssl" ++ "."⟩
    return (← sr.str "cert", ← sr.str "key", ← sr.str "ca")

def dirsFromJson (r : Reader) : Checked SessionDirs := do
  match ← r.mapping "dirs" with
  | none => return {}
  | some kvs =>
    let d : Reader := ⟨.obj kvs, r.path "dirs" ++ "."⟩
    return { modules := ← d.str "modules", plugins := ← d.str "plugins",
             keyring := ← d.str "keyring", data := ← d.str "data", cache := ← d.str "cache",
             logs := ← d.str "logs" }

def loggingFromJson (r : Reader) : Checked LoggingConfig := do
  match ← r.mapping "logging" with
  | none => return {}
  | some kvs =>
    let l : Reader := ⟨.obj kvs, r.path "logging" ++ "."⟩
    return { enabled := ← l.boolean "enabled" true, file := ← l.str "file" "daemon.log",
             maxSizeMb := (← l.integer "max_size_mb" 10 0 (1024 * 1024)).toNat,
             maxFiles := (← l.integer "max_files" 5 0 1000000).toNat,
             console := ← l.boolean "console" true }

/-- The `modules` block; none when it is refused. -/
def modulesBlock (r : Reader) : Checked (Option Modules) := do
  match ← r.mapping "modules" with
  | none => return some ∅
  | some kvs => modulesFromJson r kvs ∅

/-- What follows the `modules` block. -/
def restFromJson (r : Reader) (modulesDirs : List String) (persistencePath : String)
    (modules : Modules) : Checked (Option DaemonConfig) := do
  let (sslCert, sslKey, sslCa) ← sslFromJson r
  let dirs ← dirsFromJson r
  -- persistence_path is the older spelling of dirs.data; dirs.data wins when both are set
  let dirs := if dirs.data.isEmpty then { dirs with data := persistencePath } else dirs
  let logging ← loggingFromJson r
  let insecureTcp ← r.boolean "insecure_tcp" false
  let container ← r.str "container"
  let accessPolicy ← r.str "access_policy"
  let accessGroup ← r.str "access_group"
  let signaturePolicy ← r.str "signature_policy"
  if !signaturePolicy.isEmpty && !isValidSignaturePolicy signaturePolicy then
    note (r.path "signature_policy" ++
      ": expected one of \"none\", \"warn\", \"require\", but got \"" ++ signaturePolicy ++ "\".")
    return none
  else
    return if ← allOk then
      some { modulesDirs, persistencePath, dirs, logging, modules, sslCert, sslKey, sslCa,
             signaturePolicy, insecureTcp, container, accessPolicy, accessGroup }
    else none

def daemonConfigFromJson (obj : Json) (dotted : String := "") : Checked (Option DaemonConfig) := do
  let r : Reader := ⟨obj, dotted⟩
  let modulesDirs ← r.stringList "modules_dirs"
  let persistencePath ← r.str "persistence_path"
  match ← modulesBlock r with
  | none => return none
  | some modules => restFromJson r modulesDirs persistencePath modules

/-- `parseDaemonConfigDocument`: the configuration, or the one-line reason for refusing it. -/
def parseDaemonConfigDocument (obj : Json) : Except String DaemonConfig :=
  if !obj.isObject then .error "The config document must be a mapping at the top level."
  else
    let (v, errs) := (Reader.integer ⟨obj, ""⟩ "version" 0).run {}
    if !errs.ok then .error errs.message
    else if v ≠ kDaemonConfigSchemaVersion then
      .error ("unsupported schema version " ++ toString v ++
        " — rewrite it with `daemon config set` (expected version " ++
        toString kDaemonConfigSchemaVersion ++ ").")
    else
      match (daemonConfigFromJson obj).run errs with
      | (none, errs) =>
        .error (if errs.ok then "the document could not be read." else errs.message)
      | (some cfg, _) => .ok cfg

/-! ## 5. What is accepted is well formed -/

/-- Modules have names and listeners, and the listeners one of the three protocols. -/
def WellFormedModules (modules : Modules) : Prop :=
  ∀ name ts, (name, ts) ∈ modules.entries →
    name ≠ "" ∧ ts ≠ [] ∧ ∀ t ∈ ts, isKnownProtocol t.protocol = true

section WellFormed

theorem yields_transportFields (r : Reader) (protocol : String) :
    Yields (transportFields r protocol) fun t => t.protocol = protocol := by
  unfold transportFields
  iterate 7 refine yields_after fun _ => ?_
  exact yields_pure rfl

theorem yields_transportFromJson (j : Json) (path : String) :
    Yields (transportFromJson j path) fun o => ∀ t, o = some t →
      isKnownProtocol t.protocol = true := by
  unfold transportFromJson
  split
  · exact yields_after fun _ => yields_pure nofun
  · refine yields_after fun protocol => ?_
    split
    · exact yields_after fun _ => yields_pure nofun
    · next hknown =>
      refine yields_bind (yields_transportFields _ protocol) ?_
      rintro t rfl
      refine yields_after fun usable => yields_pure ?_
      intro t' ht'
      split at ht'
      · cases ht'
        simpa using hknown
      · cases ht'

theorem yields_transportsFromJson (modulePath : String) (js : List Json) : ∀ i,
    Yields (transportsFromJson modulePath i js) fun o => ∀ ts, o = some ts →
      ∀ t ∈ ts, isKnownProtocol t.protocol = true := by
  induction js with
  | nil =>
    intro i
    refine yields_pure ?_
    rintro ts ⟨⟩ t ht
    cases ht
  | cons j js ih =>
    intro i
    refine yields_bind (yields_transportFromJson j _) ?_
    intro first hfirst
    cases first with
    | none => exact yields_pure nofun
    | some t =>
      refine yields_bind (ih (i + 1)) ?_
      intro rest hrest
      cases rest with
      | none => exact yields_pure nofun
      | some ts =>
        refine yields_pure ?_
        rintro _ ⟨⟩ t' ht'
        rcases List.mem_cons.mp ht' with rfl | ht'
        · exact hfirst t' rfl
        · exact hrest ts rfl t' ht'

/-- One more module keeps them well formed. -/
theorem wellFormedModules_emplace {modules : Modules} {name : String} {ts : List TransportInfo}
    (h : WellFormedModules modules) (hname : name ≠ "") (hts : ts ≠ [])
    (hknown : ∀ t ∈ ts, isKnownProtocol t.protocol = true) :
    WellFormedModules (modules.emplace name ts) := by
  intro name' ts' hmem
  rcases OrderedMap.mem_entries_emplace hmem with ⟨-, heq⟩ | hmem
  · obtain ⟨rfl, rfl⟩ := Prod.mk.inj heq
    exact ⟨hname, hts, hknown⟩
  · exact h name' ts' hmem

theorem yields_modulesFromJson (r : Reader) (kvs : List (String × Json)) : ∀ acc : Modules,
    WellFormedModules acc → Yields (modulesFromJson r kvs acc) fun o => ∀ modules,
      o = some modules → WellFormedModules modules := by
  induction kvs with
  | nil =>
    intro acc hacc
    refine yields_pure ?_
    rintro _ ⟨⟩
    exact hacc
  | cons kv kvs ih =>
    intro acc hacc
    unfold modulesFromJson
    split
    · exact ih acc hacc
    · next hname =>
      refine yields_after fun block => ?_
      cases block with
      | skipped => exact ih acc hacc
      | refused => exact yields_pure nofun
      | transports es =>
        refine yields_bind (yields_transportsFromJson _ es 0) ?_
        intro listed hlisted
        cases listed with
        | none => exact yields_pure nofun
        | some ts =>
          refine ih _ ?_
          split
          · exact hacc
          · next hts =>
            refine wellFormedModules_emplace hacc ?_ ?_ (hlisted ts rfl)
            · simpa using hname
            · simpa using hts

theorem yields_restFromJson (r : Reader) (modulesDirs : List String) (persistencePath : String)
    {modules : Modules} (h : WellFormedModules modules) :
    Yields (restFromJson r modulesDirs persistencePath modules) fun o => ∀ cfg, o = some cfg →
      WellFormedModules cfg.modules := by
  unfold restFromJson
  refine yields_after fun ssl => ?_
  iterate 7 refine yields_after fun _ => ?_
  split
  · exact yields_after fun _ => yields_pure nofun
  · refine yields_after fun usable => yields_pure ?_
    intro cfg hcfg
    split at hcfg
    · cases hcfg
      exact h
    · cases hcfg

theorem wellFormedModules_empty : WellFormedModules ∅ := by
  intro name ts h
  cases h

/-- **An accepted document has well-formed modules.** -/
theorem wellFormedModules_of_parse {obj : Json} {cfg : DaemonConfig}
    (h : parseDaemonConfigDocument obj = .ok cfg) : WellFormedModules cfg.modules := by
  have hyields : Yields (daemonConfigFromJson obj) fun o => ∀ cfg, o = some cfg →
      WellFormedModules cfg.modules := by
    refine yields_after fun _ => yields_after fun _ => ?_
    have hblock : Yields (modulesBlock ⟨obj, ""⟩) fun o => ∀ modules, o = some modules →
        WellFormedModules modules := by
      refine yields_after fun found => ?_
      cases found with
      | none =>
        refine yields_pure ?_
        rintro _ ⟨⟩
        exact wellFormedModules_empty
      | some kvs => exact yields_modulesFromJson _ kvs ∅ wellFormedModules_empty
    refine yields_bind hblock ?_
    intro found hfound
    cases found with
    | none => exact yields_pure nofun
    | some modules => exact yields_restFromJson _ _ _ (hfound modules rfl)
  unfold parseDaemonConfigDocument at h
  split at h
  · cases h
  · rcases hversion : (Reader.integer ⟨obj, ""⟩ "version" 0).run {} with ⟨v, errs⟩
    rw [hversion] at h
    dsimp only at h
    split_ifs at h
    have hcfg := hyields errs
    cases hrun : (daemonConfigFromJson obj).run errs with
    | mk found errs' =>
      rw [hrun] at h hcfg
      cases found with
      | none => cases h
      | some c =>
        cases h
        exact hcfg cfg rfl

end WellFormed

/-! ## 6. The file -/

/-- What opening a file for reading gives. -/
inductive ConfigFile
  | absent
  | unreadable
  | text (content : String)
  deriving DecidableEq, Repr

/-- `DaemonConfigFile::read`, of the file at `filePath`: the configuration, or nothing, and what
is printed. -/
def DaemonConfigFile.read (yaml : YamlJson.YamlCpp) (filePath : String) :
    ConfigFile → Option DaemonConfig × List String
  | .absent | .unreadable => (none, [])
  | .text content =>
    match YamlJson.parse yaml content with
    | .error parseError =>
      (none, ["DaemonConfig: " ++ filePath ++ " is not valid YAML: " ++ parseError])
    | .ok parsed =>
      match parseDaemonConfigDocument parsed with
      | .error error => (none, ["DaemonConfig: " ++ filePath ++ ": " ++ error])
      | .ok cfg => (some cfg, [])

end Logosctl
