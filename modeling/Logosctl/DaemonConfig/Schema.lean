/-
# The schema of the daemon's configuration, and its reader

`Conforms` says which documents are configurations and `Denotes` what they configure, field by
field and without a word about reading.  The reader collects errors on the side and goes on with
defaults, and leaves the nested loops early.  It accepts what conforms and nothing else, hands over
what is denoted, and names a reason for everything it refuses (`parse_follows_schema`).

A number is denoted as it stands: ports and log limits are compared as integers, so one that had
been wrapped or cut would not be the one denoted.
-/
import Logosctl.DaemonConfig.Write
import Logosctl.JsonSchema.Settles
import Mathlib.Data.List.Forall2

namespace Logosctl

open Library JsonSchema

/-! ## 1. The schema -/

/-- What the fields of a transport have to be, next to its protocol. -/
structure TransportFieldsConform (j : Json) : Prop where
  host : IsText j "host"
  port : IsNumberIn 0 0xFFFF j "port"
  caFile : IsText j "ca_file"
  verifyPeer : IsFlag j "verify_peer"
  certFile : IsText j "cert"
  keyFile : IsText j "key"
  codec : IsText j "codec"

/-- What one transport has to be.  The protocol has to be there. -/
structure TransportConforms (j : Json) : Prop extends TransportFieldsConform j where
  object : j.isObject = true
  protocol : isKnownProtocol (j.textOf "protocol") = true

/-- What it says. -/
structure TransportDenotes (j : Json) (t : TransportInfo) : Prop where
  protocol : t.protocol = j.textOf "protocol"
  host : t.host = j.textOf "host"
  port : (t.port.toNat : Int) = j.numberOf "port"
  caFile : t.caFile = j.textOf "ca_file"
  verifyPeer : t.verifyPeer = j.flagOf "verify_peer" true
  certFile : t.certFile = j.textOf "cert"
  keyFile : t.keyFile = j.textOf "key"
  codec : t.codec = j.textOf "codec" "json"

/-- The transports of a module's block, in either spelling. -/
def transportsOf : Json → List Json
  | .arr es => es
  | .obj kvs => (elementsOf (.obj kvs) "transports").getD []
  | _ => []

/-- A block of one of the two spellings, or null. -/
def IsModuleBlock (block : Json) : Prop :=
  block = .null ∨ block.isArray = true ∨ block.isObject = true ∧ IsSequence block "transports"

/-- What the block of one module has to be. -/
structure ModuleConforms (block : Json) : Prop where
  shape : IsModuleBlock block
  transports : ∀ j ∈ transportsOf block, TransportConforms j

/-- The transports of the named module; none for a module without any. -/
def listenersIn (name : String) (blocks : List (String × Json)) : Option (List Json) :=
  blocks.findSome? fun b =>
    if b.1 = name ∧ name ≠ "" ∧ transportsOf b.2 ≠ [] then some (transportsOf b.2) else none

def membersOf : Json → List (String × Json)
  | .obj kvs => kvs
  | _ => []

/-- What `logging` has to be. -/
def IsLogging (block : Json) : Prop :=
  IsFlag block "enabled" ∧ IsText block "file" ∧ IsNumberIn 0 (1024 * 1024) block "max_size_mb" ∧
    IsNumberIn 0 1000000 block "max_files" ∧ IsFlag block "console"

/-- What the document has to be, apart from its version, its modules and the two paths before
them. -/
structure RestConforms (obj : Json) : Prop where
  ssl : IsMapping obj "ssl" ∧ ∀ key ∈ ["cert", "key", "ca"], IsText (blockOf obj "ssl") key
  dirs : IsMapping obj "dirs" ∧
    ∀ key ∈ ["modules", "plugins", "keyring", "data", "cache", "logs"],
      IsText (blockOf obj "dirs") key
  logging : IsMapping obj "logging" ∧ IsLogging (blockOf obj "logging")
  insecureTcp : IsFlag obj "insecure_tcp"
  texts : ∀ key ∈ ["container", "access_policy", "access_group", "signature_policy"],
    IsText obj key
  signaturePolicy : obj.textOf "signature_policy" = "" ∨
    isValidSignaturePolicy (obj.textOf "signature_policy") = true

/-- What the document has to be. -/
structure Conforms (obj : Json) : Prop extends RestConforms obj where
  object : obj.isObject = true
  version : obj.find? "version" = some (.int kDaemonConfigSchemaVersion)
  modulesDirs : IsTexts obj "modules_dirs"
  persistencePath : IsText obj "persistence_path"
  modules : IsMapping obj "modules" ∧
    ∀ b ∈ membersOf (blockOf obj "modules"), b.1 ≠ "" → ModuleConforms b.2

/-- What `dirs` says.  The older spelling of `dirs.data` counts where there is no newer one. -/
structure DirsDenote (block : Json) (persistencePath : String) (dirs : SessionDirs) : Prop where
  modules : dirs.modules = block.textOf "modules"
  plugins : dirs.plugins = block.textOf "plugins"
  keyring : dirs.keyring = block.textOf "keyring"
  data : dirs.data =
    if block.textOf "data" = "" then persistencePath else block.textOf "data"
  cache : dirs.cache = block.textOf "cache"
  logs : dirs.logs = block.textOf "logs"

structure LoggingDenotes (block : Json) (logging : LoggingConfig) : Prop where
  enabled : logging.enabled = block.flagOf "enabled" true
  file : logging.file = block.textOf "file" "daemon.log"
  maxSizeMb : (logging.maxSizeMb : Int) = block.numberOf "max_size_mb" 10
  maxFiles : (logging.maxFiles : Int) = block.numberOf "max_files" 5
  console : logging.console = block.flagOf "console" true

/-- The listeners of every module are what its block says. -/
def ModulesDenote (blocks : List (String × Json)) (modules : Modules) : Prop :=
  ∀ name, Option.Rel (List.Forall₂ TransportDenotes) (listenersIn name blocks) (modules.get? name)

structure RestDenotes (obj : Json) (cfg : DaemonConfig) : Prop where
  dirs : DirsDenote (blockOf obj "dirs") cfg.persistencePath cfg.dirs
  logging : LoggingDenotes (blockOf obj "logging") cfg.logging
  sslCert : cfg.sslCert = (blockOf obj "ssl").textOf "cert"
  sslKey : cfg.sslKey = (blockOf obj "ssl").textOf "key"
  sslCa : cfg.sslCa = (blockOf obj "ssl").textOf "ca"
  signaturePolicy : cfg.signaturePolicy = obj.textOf "signature_policy"
  insecureTcp : cfg.insecureTcp = obj.flagOf "insecure_tcp"
  container : cfg.container = obj.textOf "container"
  accessPolicy : cfg.accessPolicy = obj.textOf "access_policy"
  accessGroup : cfg.accessGroup = obj.textOf "access_group"

/-- What the document configures. -/
structure Denotes (obj : Json) (cfg : DaemonConfig) : Prop extends RestDenotes obj cfg where
  modulesDirs : cfg.modulesDirs = textsOf obj "modules_dirs"
  persistencePath : cfg.persistencePath = obj.textOf "persistence_path"
  modules : ModulesDenote (membersOf (blockOf obj "modules")) cfg.modules

/-! ## 2. Transports -/

section Transports

variable {j : Json} {path : String}

/-- A port that was read is the number in the document. -/
theorem port_eq_of_isNumberIn (h : IsNumberIn 0 0xFFFF j "port") :
    ((UInt16.ofNat (j.numberOf "port").toNat).toNat : Int) = j.numberOf "port" := by
  obtain ⟨hmin, hmax⟩ := numberOf_mem h 0 (by decide) (by decide)
  rw [UInt16.toNat_ofNat']
  omega

theorem settles_transportFields :
    Settles (transportFields ⟨j, path⟩ (j.textOf "protocol")) (TransportFieldsConform j)
      (TransportDenotes j) := by
  have hiff : TransportFieldsConform j ↔ IsText j "host" ∧ IsNumberIn 0 0xFFFF j "port" ∧
      IsText j "ca_file" ∧ IsFlag j "verify_peer" ∧ IsText j "cert" ∧ IsText j "key" ∧
        IsText j "codec" ∧ True := by
    constructor
    · rintro ⟨host, port, caFile, verifyPeer, certFile, keyFile, codec⟩
      exact ⟨host, port, caFile, verifyPeer, certFile, keyFile, codec, trivial⟩
    · rintro ⟨host, port, caFile, verifyPeer, certFile, keyFile, codec, -⟩
      exact ⟨host, port, caFile, verifyPeer, certFile, keyFile, codec⟩
  unfold transportFields
  refine Settles.of_iff (settles_read (settles_str "") fun _ => ?_) hiff
  refine settles_read (settles_integer (by decide)) fun hport => ?_
  refine settles_read (settles_str "") fun _ => ?_
  refine settles_read (settles_boolean true) fun _ => ?_
  refine settles_read (settles_str "") fun _ => ?_
  refine settles_read (settles_str "") fun _ => ?_
  refine settles_read (settles_str "json") fun _ => ?_
  exact settles_pure trivial ⟨rfl, rfl, port_eq_of_isNumberIn hport, rfl, rfl, rfl, rfl, rfl⟩

theorem keeps_transportFields (r : Reader) (protocol : String) :
    Keeps (transportFields r protocol) := by
  unfold transportFields
  refine keeps_bind (keeps_str _) fun _ => keeps_bind (keeps_integer _ _ _) fun _ => ?_
  refine keeps_bind (keeps_str _) fun _ => keeps_bind (keeps_boolean _) fun _ => ?_
  iterate 3 refine keeps_bind (keeps_str _) fun _ => ?_
  exact keeps_pure _

/-- **A transport** is accepted as what it denotes when it conforms. -/
theorem settles_transportFromJson : Settles (transportFromJson j path) (TransportConforms j)
    fun o => ∃ t, o = some t ∧ TransportDenotes j t := by
  unfold transportFromJson
  by_cases hobj : j.isObject = true
  · rw [if_neg (by simp [hobj])]
    have hread : TransportConforms j ↔ IsText j "protocol" ∧ TransportConforms j := by
      refine (and_iff_right_of_imp fun h => isText_of_textOf_ne fun hempty => ?_).symm
      have hknown := h.protocol
      rw [hempty] at hknown
      exact absurd hknown (by decide)
    refine Settles.of_iff (settles_read (settles_str "") ?_ ?_) hread
    · rintro -
      dsimp only
      by_cases hknown : isKnownProtocol (j.textOf "protocol") = true
      · rw [if_neg (by simp [hknown])]
        refine Settles.of_iff (settles_then settles_transportFields
          (fun _ => keeps_bind keeps_allOk fun _ => keeps_pure _) ?_) ?_
        · exact fun _ t ht => settles_allOk trivial ⟨t, rfl, ht⟩
        · exact ⟨fun h => h.toTransportFieldsConform, fun h => ⟨h, hobj, hknown⟩⟩
      · rw [if_pos (by simp [hknown])]
        exact settles_note (fun h => hknown h.protocol) (by simp)
    · intro protocol
      refine keeps_ite (keeps_bind (keeps_note _) fun _ => keeps_pure _) ?_
      refine keeps_bind (keeps_transportFields _ protocol) fun _ => ?_
      exact keeps_bind keeps_allOk fun _ => keeps_pure _
  · rw [if_pos (by simpa using hobj)]
    exact settles_mismatch fun h => hobj h.object

/-- **Transports** are accepted one for one, when each of them conforms. -/
theorem settles_transportsFromJson (modulePath : String) (js : List Json) : ∀ i,
    Settles (transportsFromJson modulePath i js) (∀ j ∈ js, TransportConforms j)
      fun o => ∃ ts, o = some ts ∧ List.Forall₂ TransportDenotes js ts := by
  induction js with
  | nil => exact fun i => settles_pure (List.forall_mem_nil _) ⟨[], rfl, .nil⟩
  | cons j js ih =>
    intro i
    refine Settles.of_iff (settles_bind settles_transportFromJson ?_ ?_) List.forall_mem_cons
    · rintro (_ | t)
      · exact keeps_pure _
      · refine keeps_bind (ih (i + 1)).keeps ?_
        rintro (_ | ts)
        · exact keeps_pure _
        · exact keeps_pure _
    · rintro - _ ⟨t, rfl, ht⟩
      refine settles_then (ih (i + 1)) ?_ ?_
      · rintro (_ | ts)
        · exact keeps_pure _
        · exact keeps_pure _
      · rintro - _ ⟨ts, rfl, hts⟩
        exact settles_pure trivial ⟨t :: ts, rfl, .cons ht hts⟩

end Transports

/-! ## 3. Modules -/

section Modules

variable {block : Json} {modulePath : String}

/-- A block that is skipped is one without transports. -/
theorem settles_moduleBlock : Settles (moduleBlock block modulePath) (IsModuleBlock block)
    fun b => b = .skipped ∧ transportsOf block = [] ∨ b = .transports (transportsOf block) := by
  unfold moduleBlock IsModuleBlock
  cases block with
  | null => exact settles_pure (Or.inl rfl) (Or.inl ⟨rfl, rfl⟩)
  | arr es => exact settles_pure (Or.inr (Or.inl rfl)) (Or.inr rfl)
  | obj kvs =>
    refine Settles.of_iff (settles_then settles_list ?_ ?_) (by simp [Json.isArray, Json.isObject])
    · rintro (_ | es)
      · exact keeps_bind keeps_allOk fun _ => keeps_pure _
      · exact keeps_pure _
    · rintro - _ rfl
      dsimp only [transportsOf]
      cases elementsOf (.obj kvs) "transports" with
      | none => exact settles_allOk trivial (Or.inl ⟨rfl, rfl⟩)
      | some es => exact settles_pure trivial (Or.inr rfl)
  | _ => exact settles_mismatch (by simp [Json.isArray, Json.isObject])

/-- The modules found so far, with what the remaining blocks say of the others. -/
def Extends (blocks : List (String × Json)) (acc modules : Modules) : Prop :=
  ∀ name, match acc.get? name with
    | some ts => modules.get? name = some ts
    | none => Option.Rel (List.Forall₂ TransportDenotes) (listenersIn name blocks)
        (modules.get? name)

theorem extends_nil (acc : Modules) : Extends [] acc acc := by
  intro name
  cases hget : acc.get? name with
  | none => exact .none
  | some ts => rfl

variable {name : String} {blocks : List (String × Json)} {acc modules : Modules}

/-- A block without listeners adds nothing. -/
theorem Extends.skip (h : Extends blocks acc modules) (hno : name = "" ∨ transportsOf block = []) :
    Extends ((name, block) :: blocks) acc modules := by
  intro name'
  have hlisteners : listenersIn name' ((name, block) :: blocks) = listenersIn name' blocks := by
    unfold listenersIn
    rw [List.findSome?_cons, if_neg]
    rintro ⟨rfl, hname, hne⟩
    exact hno.elim hname hne
  rw [hlisteners]
  exact h name'

/-- A block with listeners adds them, unless the module has some already. -/
theorem Extends.add {ts : List TransportInfo} (hname : name ≠ "") (hne : transportsOf block ≠ [])
    (hts : List.Forall₂ TransportDenotes (transportsOf block) ts)
    (h : Extends blocks (acc.emplace name ts) modules) :
    Extends ((name, block) :: blocks) acc modules := by
  intro name'
  have hafter := h name'
  rw [OrderedMap.get?_emplace] at hafter
  by_cases hsame : name' = name
  · subst hsame
    rw [if_pos rfl] at hafter
    cases hget : acc.get? name' with
    | some ts' =>
      rw [hget] at hafter
      exact hafter
    | none =>
      rw [hget] at hafter
      have hlisteners :
          listenersIn name' ((name', block) :: blocks) = some (transportsOf block) := by
        unfold listenersIn
        rw [List.findSome?_cons, if_pos ⟨rfl, hname, hne⟩]
      dsimp only [Option.getD] at hafter
      dsimp only
      rw [hlisteners, hafter]
      exact .some hts
  · rw [if_neg hsame] at hafter
    have hlisteners : listenersIn name' ((name, block) :: blocks) = listenersIn name' blocks := by
      unfold listenersIn
      rw [List.findSome?_cons, if_neg fun h => hsame h.1.symm]
    rw [hlisteners]
    exact hafter

/-- What a named block has to be comes before what the others have to be. -/
theorem moduleConforms_cons (hname : name ≠ "") :
    (∀ b ∈ (name, block) :: blocks, b.1 ≠ "" → ModuleConforms b.2) ↔ IsModuleBlock block ∧
      (∀ j ∈ transportsOf block, TransportConforms j) ∧
        ∀ b ∈ blocks, b.1 ≠ "" → ModuleConforms b.2 := by
  rw [List.forall_mem_cons]
  constructor
  · rintro ⟨hblock, hrest⟩
    obtain ⟨hshape, htransports⟩ := hblock hname
    exact ⟨hshape, htransports, hrest⟩
  · rintro ⟨hshape, htransports, hrest⟩
    exact ⟨fun _ => ⟨hshape, htransports⟩, hrest⟩

/-- **Modules** are accepted as what their blocks denote, when each named one conforms. -/
theorem settles_modulesFromJson (r : Reader) (blocks : List (String × Json)) : ∀ acc : Modules,
    Settles (modulesFromJson r blocks acc) (∀ b ∈ blocks, b.1 ≠ "" → ModuleConforms b.2)
      fun o => ∃ modules, o = some modules ∧ Extends blocks acc modules := by
  induction blocks with
  | nil => exact fun acc => settles_pure (List.forall_mem_nil _) ⟨acc, rfl, extends_nil acc⟩
  | cons b blocks ih =>
    obtain ⟨name, block⟩ := b
    intro acc
    unfold modulesFromJson
    by_cases hname : name = ""
    · rw [if_pos (String.isEmpty_iff.mpr hname)]
      refine (ih acc).congr ?_ ?_
      · rw [List.forall_mem_cons]
        exact and_iff_right fun hne => absurd hname hne
      · rintro o ⟨modules, rfl, hext⟩
        exact ⟨modules, rfl, hext.skip (Or.inl hname)⟩
    · rw [if_neg (by simpa using hname)]
      refine Settles.of_iff (settles_bind settles_moduleBlock ?_ ?_) (moduleConforms_cons hname)
      · rintro (_ | _ | es)
        · exact (ih acc).keeps
        · exact keeps_pure _
        · refine keeps_bind (settles_transportsFromJson _ es 0).keeps ?_
          rintro (_ | ts)
          · exact keeps_pure _
          · exact (ih _).keeps
      · rintro - _ (⟨rfl, hnone⟩ | rfl)
        · refine (ih acc).congr ?_ ?_
          · rw [hnone]
            exact and_iff_right (List.forall_mem_nil _)
          · rintro o ⟨modules, rfl, hext⟩
            exact ⟨modules, rfl, hext.skip (Or.inr hnone)⟩
        · refine settles_bind (settles_transportsFromJson _ _ 0) ?_ ?_
          · rintro (_ | ts)
            · exact keeps_pure _
            · exact (ih _).keeps
          rintro - _ ⟨ts, rfl, hts⟩
          refine (ih _).congr Iff.rfl ?_
          rintro o ⟨modules, rfl, hext⟩
          refine ⟨modules, rfl, ?_⟩
          by_cases hempty : transportsOf block = []
          · rw [hempty, List.forall₂_nil_left_iff] at hts
            subst hts
            exact hext.skip (Or.inr hempty)
          · have hne : ts.isEmpty = false := by
              cases ts with
              | nil => exact absurd (List.forall₂_nil_right_iff.mp hts) hempty
              | cons t ts => rfl
            rw [hne] at hext
            exact hext.add hname hempty hts

theorem settles_modulesBlock {obj : Json} {dotted : String} :
    Settles (modulesBlock ⟨obj, dotted⟩)
      (IsMapping obj "modules" ∧
        ∀ b ∈ membersOf (blockOf obj "modules"), b.1 ≠ "" → ModuleConforms b.2)
      fun o => ∃ modules, o = some modules ∧
        ModulesDenote (membersOf (blockOf obj "modules")) modules := by
  unfold modulesBlock
  refine settles_bind settles_mapping ?_ ?_
  · rintro (_ | blocks)
    · exact keeps_pure _
    · exact (settles_modulesFromJson _ blocks ∅).keeps
  · rintro - _ rfl
    unfold blockOf
    cases mappingOf obj "modules" with
    | none => exact settles_pure (List.forall_mem_nil _) ⟨∅, rfl, extends_nil ∅⟩
    | some blocks => exact settles_modulesFromJson _ blocks ∅

end Modules

/-! ## 4. The document -/

section Document

variable {obj : Json} {dotted : String}

theorem settles_sslFromJson : Settles (sslFromJson ⟨obj, dotted⟩)
    (IsMapping obj "ssl" ∧ ∀ key ∈ ["cert", "key", "ca"], IsText (blockOf obj "ssl") key)
    (· = ((blockOf obj "ssl").textOf "cert", (blockOf obj "ssl").textOf "key",
      (blockOf obj "ssl").textOf "ca")) := by
  refine settles_block (P := fun block => ∀ key ∈ ["cert", "key", "ca"], IsText block key)
    (Q := fun block => (· = (block.textOf "cert", block.textOf "key", block.textOf "ca"))) ?_
  rintro (_ | kvs)
  · exact settles_pure (fun _ _ => optional_of_none rfl) rfl
  · iterate 3
      refine Settles.of_iff (settles_read (settles_str "") fun _ => ?_) List.forall_mem_cons
    exact settles_pure (List.forall_mem_nil _) rfl

theorem settles_dirsFromJson : Settles (dirsFromJson ⟨obj, dotted⟩)
    (IsMapping obj "dirs" ∧ ∀ key ∈ ["modules", "plugins", "keyring", "data", "cache", "logs"],
      IsText (blockOf obj "dirs") key)
    (· = { modules := (blockOf obj "dirs").textOf "modules",
           plugins := (blockOf obj "dirs").textOf "plugins",
           keyring := (blockOf obj "dirs").textOf "keyring",
           data := (blockOf obj "dirs").textOf "data",
           cache := (blockOf obj "dirs").textOf "cache",
           logs := (blockOf obj "dirs").textOf "logs" }) := by
  refine settles_block
    (P := fun block => ∀ key ∈ ["modules", "plugins", "keyring", "data", "cache", "logs"],
      IsText block key)
    (Q := fun block => (· = ({
      modules := block.textOf "modules", plugins := block.textOf "plugins",
      keyring := block.textOf "keyring", data := block.textOf "data",
      cache := block.textOf "cache", logs := block.textOf "logs" } : SessionDirs))) ?_
  rintro (_ | kvs)
  · exact settles_pure (fun _ _ => optional_of_none rfl) rfl
  · iterate 6
      refine Settles.of_iff (settles_read (settles_str "") fun _ => ?_) List.forall_mem_cons
    exact settles_pure (List.forall_mem_nil _) rfl

theorem settles_loggingFromJson : Settles (loggingFromJson ⟨obj, dotted⟩)
    (IsMapping obj "logging" ∧ IsLogging (blockOf obj "logging"))
    (LoggingDenotes (blockOf obj "logging")) := by
  refine settles_block (P := IsLogging) (Q := LoggingDenotes) ?_
  rintro (_ | kvs)
  · refine settles_pure ?_ ⟨rfl, rfl, rfl, rfl, rfl⟩
    exact ⟨optional_of_none rfl, optional_of_none rfl, optional_of_none rfl,
      optional_of_none rfl, optional_of_none rfl⟩
  · have hiff : IsLogging (.obj kvs) ↔ IsFlag (.obj kvs) "enabled" ∧ IsText (.obj kvs) "file" ∧
        IsNumberIn 0 (1024 * 1024) (.obj kvs) "max_size_mb" ∧
        IsNumberIn 0 1000000 (.obj kvs) "max_files" ∧ IsFlag (.obj kvs) "console" ∧ True := by
      simp only [IsLogging, and_true]
    refine Settles.of_iff (settles_read (settles_boolean true) fun _ => ?_) hiff
    refine settles_read (settles_str "daemon.log") fun _ => ?_
    refine settles_read (settles_integer (by decide)) fun hsize => ?_
    refine settles_read (settles_integer (by decide)) fun hfiles => ?_
    refine settles_read (settles_boolean true) fun _ => ?_
    have hsize' := (numberOf_mem hsize 10 (by decide) (by decide)).1
    have hfiles' := (numberOf_mem hfiles 5 (by decide) (by decide)).1
    exact settles_pure trivial
      ⟨rfl, rfl, Int.toNat_of_nonneg hsize', Int.toNat_of_nonneg hfiles', rfl⟩

theorem dirsDenote_of {block : Json} (persistencePath : String) {dirs : SessionDirs}
    (h : dirs =
      { modules := block.textOf "modules", plugins := block.textOf "plugins",
        keyring := block.textOf "keyring", data := block.textOf "data",
        cache := block.textOf "cache", logs := block.textOf "logs" }) :
    DirsDenote block persistencePath
      (if dirs.data.isEmpty then { dirs with data := persistencePath } else dirs) := by
  subst h
  dsimp only
  by_cases hdata : block.textOf "data" = ""
  · rw [if_pos (String.isEmpty_iff.mpr hdata)]
    exact ⟨rfl, rfl, rfl, (if_pos hdata).symm, rfl, rfl⟩
  · rw [if_neg (by simpa using hdata)]
    exact ⟨rfl, rfl, rfl, (if_neg hdata).symm, rfl, rfl⟩

theorem restConforms_iff : RestConforms obj ↔
    (IsMapping obj "ssl" ∧ ∀ key ∈ ["cert", "key", "ca"], IsText (blockOf obj "ssl") key) ∧
      (IsMapping obj "dirs" ∧
        ∀ key ∈ ["modules", "plugins", "keyring", "data", "cache", "logs"],
          IsText (blockOf obj "dirs") key) ∧
      (IsMapping obj "logging" ∧ IsLogging (blockOf obj "logging")) ∧ IsFlag obj "insecure_tcp" ∧
      IsText obj "container" ∧ IsText obj "access_policy" ∧ IsText obj "access_group" ∧
      IsText obj "signature_policy" ∧ (obj.textOf "signature_policy" = "" ∨
        isValidSignaturePolicy (obj.textOf "signature_policy") = true) := by
  constructor
  · rintro ⟨ssl, dirs, logging, insecureTcp, texts, policy⟩
    exact ⟨ssl, dirs, logging, insecureTcp, texts _ (by simp), texts _ (by simp),
      texts _ (by simp), texts _ (by simp), policy⟩
  · rintro ⟨ssl, dirs, logging, insecureTcp, hcontainer, haccess, hgroup, hpolicy, policy⟩
    refine ⟨ssl, dirs, logging, insecureTcp, ?_, policy⟩
    simp only [List.forall_mem_cons]
    exact ⟨hcontainer, haccess, hgroup, hpolicy, List.forall_mem_nil _⟩

/-- **The rest of the document**, after its modules. -/
theorem settles_restFromJson (modulesDirs : List String) (persistencePath : String)
    (modules : Modules) :
    Settles (restFromJson ⟨obj, dotted⟩ modulesDirs persistencePath modules) (RestConforms obj)
      fun o => ∃ cfg, o = some cfg ∧ RestDenotes obj cfg ∧ cfg.modulesDirs = modulesDirs ∧
        cfg.persistencePath = persistencePath ∧ cfg.modules = modules := by
  have hkeepsDirs := (@settles_dirsFromJson obj dotted).keeps
  have hkeepsLogging := (@settles_loggingFromJson obj dotted).keeps
  unfold restFromJson
  refine Settles.of_iff (settles_read settles_sslFromJson (fun _ => ?_) ?_) restConforms_iff
  · dsimp only
    refine settles_read settles_dirsFromJson fun _ => ?_
    refine settles_bind settles_loggingFromJson ?_ fun _ logging hlogging => ?_
    · intro _
      repeat' with_reducible first
        | exact keeps_pure _
        | exact keeps_str _
        | exact keeps_boolean _
        | exact keeps_note _
        | exact keeps_allOk
        | refine keeps_ite ?_ ?_
        | refine keeps_bind ?_ fun _ => ?_
    · refine settles_read (settles_boolean false) fun _ => ?_
      iterate 4 refine settles_read (settles_str "") fun _ => ?_
      by_cases hpolicy : obj.textOf "signature_policy" = "" ∨
          isValidSignaturePolicy (obj.textOf "signature_policy") = true
      · rw [if_neg (by simpa [or_iff_not_imp_left] using hpolicy)]
        refine settles_allOk hpolicy ⟨_, rfl, ?_, rfl, rfl, rfl⟩
        exact ⟨dirsDenote_of _ rfl, hlogging, rfl, rfl, rfl, rfl, rfl, rfl, rfl, rfl⟩
      · rw [if_pos (by simpa [or_iff_not_imp_left] using hpolicy)]
        exact settles_note hpolicy (by simp)
  · rintro ⟨sslCert, sslKey, sslCa⟩
    dsimp only
    repeat' with_reducible first
      | exact keeps_pure _
      | exact keeps_str _
      | exact keeps_boolean _
      | exact keeps_note _
      | exact keeps_allOk
      | assumption
      | refine keeps_ite ?_ ?_
      | refine keeps_bind ?_ fun _ => ?_

theorem settles_daemonConfigFromJson : Settles (daemonConfigFromJson obj dotted)
    (IsTexts obj "modules_dirs" ∧ IsText obj "persistence_path" ∧ (IsMapping obj "modules" ∧
      ∀ b ∈ membersOf (blockOf obj "modules"), b.1 ≠ "" → ModuleConforms b.2) ∧ RestConforms obj)
    fun o => ∃ cfg, o = some cfg ∧ Denotes obj cfg := by
  have hmodules := (@settles_modulesBlock obj dotted).keeps
  have hrest : ∀ modulesDirs persistencePath modules,
      Keeps (restFromJson ⟨obj, dotted⟩ modulesDirs persistencePath modules) :=
    fun _ _ _ => (settles_restFromJson _ _ _).keeps
  unfold daemonConfigFromJson
  refine settles_read settles_stringList (fun _ => ?_) fun _ => ?_
  · refine settles_read (settles_str "") (fun _ => ?_) fun _ => keeps_bind hmodules ?_
    · refine settles_bind settles_modulesBlock ?_ ?_
      · rintro (_ | modules)
        · exact keeps_pure _
        · exact hrest _ _ modules
      · rintro - _ ⟨modules, rfl, hdenote⟩
        refine (settles_restFromJson _ _ modules).congr Iff.rfl ?_
        rintro _ ⟨cfg, rfl, hcfg, hdirs, hpath, rfl⟩
        exact ⟨cfg, rfl, hcfg, hdirs, hpath, hdenote⟩
    · rintro (_ | modules)
      · exact keeps_pure _
      · exact hrest _ _ modules
  · refine keeps_bind (keeps_str _) fun _ => keeps_bind hmodules ?_
    rintro (_ | modules)
    · exact keeps_pure _
    · exact hrest _ _ modules

/-- The version is the number itself: one that has to be converted first is another. -/
theorem settles_version : Settles (Reader.integer ⟨obj, ""⟩ "version" 0)
    (IsNumberIn Reader.int64Min Reader.int64Max obj "version") (· = obj.numberOf "version") :=
  settles_integer (le_refl _)

theorem version_iff : obj.find? "version" = some (.int 2) ↔
    IsNumberIn Reader.int64Min Reader.int64Max obj "version" ∧ obj.numberOf "version" = 2 := by
  constructor
  · intro h
    refine ⟨fun v hv => ?_, ?_⟩
    · rw [h] at hv
      cases hv
      exact Or.inr ⟨2, rfl, by decide, by decide⟩
    · unfold Json.numberOf
      rw [h]
  · rintro ⟨-, h⟩
    unfold Json.numberOf at h
    split at h
    · next i hfind => rw [hfind, h]
    · exact absurd h (by decide)

theorem conforms_iff : Conforms obj ↔ obj.isObject = true ∧
    obj.find? "version" = some (.int 2) ∧ IsTexts obj "modules_dirs" ∧
      IsText obj "persistence_path" ∧ (IsMapping obj "modules" ∧
        ∀ b ∈ membersOf (blockOf obj "modules"), b.1 ≠ "" → ModuleConforms b.2) ∧
      RestConforms obj := by
  constructor
  · rintro ⟨rest, object, version, modulesDirs, persistencePath, modules⟩
    exact ⟨object, version, modulesDirs, persistencePath, modules, rest⟩
  · rintro ⟨object, version, modulesDirs, persistencePath, modules, rest⟩
    exact ⟨rest, object, version, modulesDirs, persistencePath, modules⟩

theorem message_ne {errs : Errors} (h : errs.ok = false) : errs.message ≠ "" := by
  intro hempty
  rw [Errors.ok, hempty] at h
  cases h

/-- A document of the current version is read as its blocks are. -/
theorem parse_of_version (hobj : obj.isObject = true)
    (hversion : obj.find? "version" = some (.int 2)) :
    parseDaemonConfigDocument obj = match (daemonConfigFromJson obj).run {} with
      | (none, errs) =>
        .error (if errs.ok then "the document could not be read." else errs.message)
      | (some cfg, _) => .ok cfg := by
  have hreads : Reads (Reader.integer ⟨obj, ""⟩ "version" 0) 2 :=
    reads_integer hversion (by decide) (by decide) (by decide)
  unfold parseDaemonConfigDocument
  rw [if_neg (by simp [hobj]), show (Reader.integer ⟨obj, ""⟩ "version" 0).run {} = (2, {}) from
    hreads]
  rfl

/-- One of another version, or of none, is refused before. -/
theorem parse_of_not_version (hobj : obj.isObject = true)
    (hversion : obj.find? "version" ≠ some (.int 2)) :
    ∃ error, parseDaemonConfigDocument obj = .error error ∧ error ≠ "" := by
  unfold parseDaemonConfigDocument
  rw [if_neg (by simp [hobj])]
  by_cases hnumber : IsNumberIn Reader.int64Min Reader.int64Max obj "version"
  · obtain ⟨v, hreads, rfl⟩ := settles_version.accepts hnumber
    rw [show (Reader.integer ⟨obj, ""⟩ "version" 0).run {} = (_, {}) from hreads]
    have hv : obj.numberOf "version" ≠ kDaemonConfigSchemaVersion :=
      fun h => hversion (version_iff.mpr ⟨hnumber, h⟩)
    dsimp only
    rw [if_neg (by decide), if_pos hv]
    exact ⟨_, rfl, by simp⟩
  · have hbad := settles_version.rejects hnumber
    cases hrun : (Reader.integer ⟨obj, ""⟩ "version" 0).run {} with
    | mk v errs =>
      rw [hrun] at hbad
      dsimp only at hbad ⊢
      rw [if_pos (by simp [hbad])]
      exact ⟨_, rfl, message_ne hbad⟩

theorem parse_of_conforms (h : Conforms obj) :
    ∃ cfg, parseDaemonConfigDocument obj = .ok cfg ∧ Denotes obj cfg := by
  obtain ⟨hobj, hversion, hrest⟩ := conforms_iff.mp h
  obtain ⟨_, hreads, cfg, rfl, hcfg⟩ := (@settles_daemonConfigFromJson obj "").accepts hrest
  rw [parse_of_version hobj hversion,
    show (daemonConfigFromJson obj).run {} = (some cfg, {}) from hreads]
  exact ⟨cfg, rfl, hcfg⟩

theorem parse_of_not_conforms (h : ¬ Conforms obj) :
    ∃ error, parseDaemonConfigDocument obj = .error error ∧ error ≠ "" := by
  by_cases hobj : obj.isObject = true
  · by_cases hversion : obj.find? "version" = some (.int 2)
    · have hbad := (@settles_daemonConfigFromJson obj "").rejects fun hrest =>
        h (conforms_iff.mpr ⟨hobj, hversion, hrest⟩)
      rw [parse_of_version hobj hversion]
      cases hrun : (daemonConfigFromJson obj).run {} with
      | mk found errs =>
        rw [hrun] at hbad
        cases found with
        | none =>
          dsimp only at hbad ⊢
          rw [if_neg (by simp [hbad])]
          exact ⟨_, rfl, message_ne hbad⟩
        | some cfg =>
          -- nothing is handed over once something was noted
          have hok := vouches_daemonConfigFromJson "" {} cfg (by rw [hrun])
          rw [hrun] at hok
          exact absurd (hok.symm.trans hbad) (by decide)
    · exact parse_of_not_version hobj hversion
  · refine ⟨"The config document must be a mapping at the top level.", ?_, by decide⟩
    unfold parseDaemonConfigDocument
    rw [if_pos (by simpa using hobj)]

/-- **The reader follows the schema.**  What it accepts conforms and is what the document denotes;
what it refuses does not conform, and it has a reason. -/
theorem parse_follows_schema (obj : Json) :
    match parseDaemonConfigDocument obj with
    | .ok cfg => Conforms obj ∧ Denotes obj cfg
    | .error error => ¬ Conforms obj ∧ error ≠ "" := by
  by_cases h : Conforms obj
  · obtain ⟨cfg, hparse, hcfg⟩ := parse_of_conforms h
    rw [hparse]
    exact ⟨h, hcfg⟩
  · obtain ⟨error, hparse, herror⟩ := parse_of_not_conforms h
    rw [hparse]
    exact ⟨h, herror⟩

/-- A port past the sixteen bits it is kept in is refused, and none is made of it. -/
example : ∃ error, parseDaemonConfigDocument (.obj [("modules", .obj [("core_service",
    .arr [.obj [("port", .int 65536), ("protocol", .str "tcp")]])]), ("version", .int 2)]) =
      .error error := ⟨_, rfl⟩

end Document

end Logosctl
