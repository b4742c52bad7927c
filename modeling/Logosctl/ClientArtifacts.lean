/-
# What a boot leaves for the clients

After it has published its state a daemon writes two files for the clients of the same session: the
dial configuration, and the auto token of this boot.  The token is always written.  The
configuration is the operator's as much as the daemon's: one that is missing is written, one that
names another instance is taken for a stale copy of our own and is refreshed, and everything else
is left alone.

The result is about a whole life (`artifacts_over_a_life`): boots, and between them whatever an
operator does to the configuration.
-/
import Logosctl.Boot
import Logosctl.ClientState
import Logosctl.DaemonConfig.Write
import Logosctl.Json.Dump
import Logosctl.Library.Transition

namespace Logosctl

open Library JsonSchema YamlJson

/-! ## 1. The documents -/

/-- The listener that a client of the same session dials: a local one if there is one. -/
def pickClientDialTransport (transports : List TransportInfo) : Option TransportInfo :=
  (transports.find? fun t => t.protocol == "local").or transports.head?

/-- A bind address as an address to dial on the same host. -/
def toClientDialHost (bindHost : String) : String :=
  if bindHost.isEmpty ∨ bindHost = "0.0.0.0" then "127.0.0.1"
  else if bindHost = "::" ∨ bindHost = "::0" then "::1"
  else bindHost

def toClientEntry (t : TransportInfo) : List (String × Json) :=
  let entry := assign "transport" (.str t.protocol) []
  let entry :=
    if t.protocol = "tcp" ∨ t.protocol = "tcp_ssl" then
      assignNonEmpty "codec" t.codec (assign "port" (.int t.port.toNat)
        (assign "host" (.str (toClientDialHost t.host)) entry))
    else entry
  if t.protocol = "tcp_ssl" then
    assign "verify_peer" (.bool t.verifyPeer) (assignNonEmpty "ca" t.caFile entry)
  else entry

/-- The entry of a module, which is local when the module has no listener. -/
def dialEntry (transports : List TransportInfo) : List (String × Json) :=
  match pickClientDialTransport transports with
  | some t => toClientEntry t
  | none => assign "transport" (.str "local") []

/-- What a booting daemon knows when it writes them. -/
structure BootedDaemon where
  instanceId : String
  autoTokenRaw : String
  issuedAt : String
  coreServiceTransports : List TransportInfo
  capabilityModuleTransports : List TransportInfo
  deriving DecidableEq

/-- The dial configuration. -/
def clientDocument (b : BootedDaemon) (tokenFileName : String) : List (String × Json) :=
  let daemonBlock := assign "capability_module" (.obj (dialEntry b.capabilityModuleTransports))
    (assign "core_service" (.obj (dialEntry b.coreServiceTransports)) [])
  assign "daemon" (.obj daemonBlock) (assign "instance_id" (.str b.instanceId)
    (assign "token_file" (.str tokenFileName) (assign "version" (.int 2) [])))

/-- `client/auto.json`. -/
def autoTokenDocument (b : BootedDaemon) : List (String × Json) :=
  assign "issued_at" (.str b.issuedAt) (assign "token" (.str b.autoTokenRaw)
    (assign "name" (.str "auto") (assign "version" (.int 1) [])))

/-- The older program writes its configuration as JSON. -/
inductive Flavor
  | modern
  | legacy
  deriving DecidableEq, Repr

/-- The two formats, and which of them a configuration is written in. -/
structure Format where
  yaml : YamlPair
  jsonText : Json → String
  /-- `json::parse`, or nothing when it throws -/
  parseJson : String → Option Json
  flavor : Flavor

/-- What `atomicWriteJson` writes. -/
def Format.json (fmt : Format) (kvs : List (String × Json)) : String :=
  fmt.jsonText (.obj kvs) ++ "\n"

def Format.config (fmt : Format) (kvs : List (String × Json)) : String :=
  match fmt.flavor with
  | .modern => dump fmt.yaml (.obj kvs)
  | .legacy => fmt.json kvs

/-! ## 2. Writing them -/

/-- `client/`: the dial configuration, and the text of `auto.json`. -/
structure ClientDir where
  config : ConfigFile
  autoToken : Option String
  deriving DecidableEq

/-- What an existing configuration says; one that is no mapping says nothing. -/
def existingConfig (yaml : YamlCpp) (text : String) : Json :=
  match parse yaml text with
  | .ok (.obj kvs) => .obj kvs
  | _ => .obj []

/-- A string of the document; anything else reads as absent, and what is noted is ignored. -/
def strIgnoring (doc : Json) (key : String) : String := ((Reader.str ⟨doc, ""⟩ key).run {}).1

/-- `ClientStateFile::readTokenFile`, on the text of a token file: the raw token, or nothing. -/
def Format.tokenIn (fmt : Format) (text : String) : String :=
  match fmt.parseJson text with
  | none => ""
  | some obj => strIgnoring obj "token"

/-- The token file that a configuration to be written names, or none when the one that exists is
left alone. -/
def tokenFileToWrite (yaml : YamlCpp) (instanceId : String) : ConfigFile → Option String
  | .absent => some "auto.json"
  | .unreadable => none
  | .text text =>
    let existing := existingConfig yaml text
    let existingInstance := strIgnoring existing "instance_id"
    if !existingInstance.isEmpty && existingInstance != instanceId then
      let named := strIgnoring existing "token_file"
      some (if named.isEmpty then "auto.json" else named)
    else none

/-- What creating the directory and writing the two files answer. -/
structure ArtifactIo where
  createDirectories : Bool
  writeConfig : Bool
  writeAutoToken : Bool
  deriving DecidableEq

/-- `DaemonRuntimeStateFile::writeLocalClientArtifacts`. -/
def writeLocalClientArtifacts (fmt : Format) (b : BootedDaemon) (io : ArtifactIo)
    (dir : ClientDir) : Bool × ClientDir :=
  if !io.createDirectories then (false, dir)
  else
    let toWrite := tokenFileToWrite fmt.yaml.toYamlCpp b.instanceId dir.config
    if toWrite.isSome && !io.writeConfig then (false, dir)
    else
      let config := match toWrite with
        | some tokenFileName => .text (fmt.config (clientDocument b tokenFileName))
        | none => dir.config
      if !io.writeAutoToken then (false, { dir with config })
      else (true, ⟨config, some (fmt.json (autoTokenDocument b))⟩)

/-! ## 3. A life of boots -/

/-- The session's client directory, and the daemon that booted last. -/
structure Life where
  dir : ClientDir
  booted : Option BootedDaemon

inductive LifeEvent
  | boot (b : BootedDaemon)
  /-- an operator writes, replaces or deletes the configuration -/
  | edit (config : ConfigFile)

/-- Every write succeeds. -/
def ArtifactIo.smooth : ArtifactIo := ⟨true, true, true⟩

def Life.next (fmt : Format) (s : Life) : LifeEvent → Life
  | .boot b => ⟨(writeLocalClientArtifacts fmt b .smooth s.dir).2, some b⟩
  | .edit config => { s with dir := { s.dir with config } }

/-- A string that a document gives under a key. -/
def stringOf (doc : Json) (key : String) : Option String :=
  match doc.find? key with
  | some (.str s) => some s
  | _ => none

/-- A string that the configuration gives under a key, when it can be read and is a mapping. -/
def stringField (yaml : YamlCpp) (key : String) : ConfigFile → Option String
  | .text text => stringOf (existingConfig yaml text) key
  | .absent | .unreadable => none

/-- What a boot does to the directory. -/
structure BootKeeps (fmt : Format) (b : BootedDaemon) (before after : ClientDir) : Prop where
  /-- a configuration without an instance is the operator's -/
  handWritten : before.config ≠ .absent →
    stringField fmt.yaml.toYamlCpp "instance_id" before.config = none →
    after.config = before.config
  current : ∀ id, stringField fmt.yaml.toYamlCpp "instance_id" after.config = some id → id ≠ "" →
    id = b.instanceId
  tokenFile : ∀ name, stringField fmt.yaml.toYamlCpp "token_file" before.config = some name →
    name ≠ "" → stringField fmt.yaml.toYamlCpp "token_file" after.config = some name
  regenerated : before.config = .absent →
    stringField fmt.yaml.toYamlCpp "instance_id" after.config = some b.instanceId ∧
      stringField fmt.yaml.toYamlCpp "token_file" after.config = some "auto.json"
  autoToken : after.autoToken.map fmt.tokenIn = some b.autoTokenRaw

/-- What is written is read as the document it is. -/
def Format.Carries (fmt : Format) (kvs : List (String × Json)) : Prop :=
  match fmt.flavor with
  | .modern => YamlJson.Carries fmt.yaml (emit fmt.yaml (.obj kvs))
  | .legacy => parse fmt.yaml.toYamlCpp (fmt.json kvs) = .ok (.obj kvs)

/-- So is what is written as JSON. -/
def Format.CarriesJson (fmt : Format) (kvs : List (String × Json)) : Prop :=
  fmt.parseJson (fmt.json kvs) = some (.obj kvs)

/-- The documents a boot writes are carried. -/
def Carried (fmt : Format) (s : Life) : LifeEvent → Prop
  | .boot b => fmt.CarriesJson (autoTokenDocument b) ∧ ∀ tokenFileName,
      tokenFileToWrite fmt.yaml.toYamlCpp b.instanceId s.dir.config = some tokenFileName →
        fmt.Carries (clientDocument b tokenFileName)
  | .edit _ => True

/-- Lives whose documents are carried. -/
abbrev LifeRun (fmt : Format) (dir : ClientDir) : Life → Prop :=
  Reaches (fun s e s' => s' = s.next fmt e) (Carried fmt) ⟨dir, none⟩

section Life

variable {fmt : Format} {b : BootedDaemon} {s : Life} {dir : ClientDir} {text : String}
  {kvs : List (String × Json)}

theorem storable_toClientEntry (t : TransportInfo) : Storable (.obj (toClientEntry t)) := by
  have htransport := @storable_assign "transport" _ _ (.str t.protocol) storable_empty
  have hnetwork : Storable (.obj (if t.protocol = "tcp" ∨ t.protocol = "tcp_ssl" then
      assignNonEmpty "codec" t.codec (assign "port" (.int t.port.toNat)
        (assign "host" (.str (toClientDialHost t.host))
          (assign "transport" (.str t.protocol) [])))
      else assign "transport" (.str t.protocol) [])) := by
    split
    · exact storable_assignNonEmpty (storable_assign (storable_port _)
        (storable_assign (.str _) htransport))
    · exact htransport
  unfold toClientEntry
  dsimp only
  split
  · exact storable_assign (.bool _) (storable_assignNonEmpty hnetwork)
  · exact hnetwork

theorem storable_dialEntry (transports : List TransportInfo) :
    Storable (.obj (dialEntry transports)) := by
  unfold dialEntry
  split
  · exact storable_toClientEntry _
  · exact storable_assign (.str _) storable_empty

theorem storable_clientDocument (b : BootedDaemon) (tokenFileName : String) :
    Storable (.obj (clientDocument b tokenFileName)) := by
  refine storable_assign ?_ (storable_assign (.str _) (storable_assign (.str _)
    (storable_assign (.int _ (by decide) (by decide)) storable_empty)))
  exact storable_assign (storable_dialEntry _) (storable_assign (storable_dialEntry _)
    storable_empty)

/-- A configuration that was written is read as the document it is. -/
theorem parse_config (hread : ReadsScalars fmt.yaml) (hdoc : Storable (.obj kvs))
    (hcarries : fmt.Carries kvs) :
    parse fmt.yaml.toYamlCpp (fmt.config kvs) = .ok (.obj kvs) := by
  unfold Format.Carries at hcarries
  unfold Format.config
  cases hflavor : fmt.flavor with
  | modern =>
    rw [hflavor] at hcarries
    exact parse_dump_of_storable hread hdoc hcarries
  | legacy =>
    rw [hflavor] at hcarries
    exact hcarries

theorem strIgnoring_eq (doc : Json) (key : String) :
    strIgnoring doc key = (stringOf doc key).getD "" := by
  simp only [strIgnoring, stringOf, Reader.str, Reader.present]
  rcases doc.find? key with _ | ⟨_ | _ | _ | _ | _ | _ | _⟩ <;> rfl

/-- An empty name means the auto token. -/
def orAuto (named : String) : String := if named.isEmpty then "auto.json" else named

/-- When a configuration is written: it is missing, or names another instance; and what token file
it then names. -/
theorem tokenFileToWrite_eq_some_iff {yaml : YamlCpp} {instanceId name : String}
    {file : ConfigFile} : tokenFileToWrite yaml instanceId file = some name ↔
      (file = .absent ∧ name = "auto.json") ∨
        ∃ id, stringField yaml "instance_id" file = some id ∧ id ≠ "" ∧ id ≠ instanceId ∧
          name = orAuto ((stringField yaml "token_file" file).getD "") := by
  cases file with
  | absent =>
    have hsame : "auto.json" = name ↔ name = "auto.json" := eq_comm
    simp [tokenFileToWrite, stringField, hsame]
  | unreadable => simp [tokenFileToWrite, stringField]
  | text text =>
    simp only [tokenFileToWrite, stringField, strIgnoring_eq]
    cases hid : stringOf (existingConfig yaml text) "instance_id" with
    | none => simp
    | some id =>
      by_cases hstale : id ≠ "" ∧ id ≠ instanceId
      · have hcond : (!id.isEmpty && id != instanceId) = true := by simpa using hstale
        simp [hcond, hstale, orAuto, @eq_comm _ name]
      · have hcond : ¬ (!id.isEmpty && id != instanceId) = true := by simpa using hstale
        simp only [Option.getD_some, if_neg hcond]
        refine iff_of_false nofun ?_
        rintro (⟨h, -⟩ | ⟨id', hid', hne, hother, -⟩)
        · cases h
        · cases hid'
          exact hstale ⟨hne, hother⟩

/-- What a boot leaves when every write succeeds. -/
theorem writeLocalClientArtifacts_smooth : writeLocalClientArtifacts fmt b .smooth dir =
    (true, ⟨match tokenFileToWrite fmt.yaml.toYamlCpp b.instanceId dir.config with
      | some tokenFileName => .text (fmt.config (clientDocument b tokenFileName))
      | none => dir.config, some (fmt.json (autoTokenDocument b))⟩) := by
  simp [writeLocalClientArtifacts, ArtifactIo.smooth]

/-- What a configuration that was written says. -/
theorem stringField_config (hread : ReadsScalars fmt.yaml) {tokenFileName : String}
    (hcarries : fmt.Carries (clientDocument b tokenFileName)) :
    stringField fmt.yaml.toYamlCpp "instance_id"
        (.text (fmt.config (clientDocument b tokenFileName))) = some b.instanceId ∧
      stringField fmt.yaml.toYamlCpp "token_file"
        (.text (fmt.config (clientDocument b tokenFileName))) = some tokenFileName := by
  have hparse := parse_config hread (storable_clientDocument b tokenFileName) hcarries
  simp only [stringField, existingConfig, hparse, stringOf]
  constructor <;> simp [clientDocument]

/-- **The token that is read is the one that was written.** -/
theorem tokenIn_autoTokenDocument (hcarries : fmt.CarriesJson (autoTokenDocument b)) :
    fmt.tokenIn (fmt.json (autoTokenDocument b)) = b.autoTokenRaw := by
  have htoken : stringOf (.obj (autoTokenDocument b)) "token" = some b.autoTokenRaw := by
    simp [stringOf, autoTokenDocument]
  rw [Format.tokenIn, hcarries]
  dsimp only
  rw [strIgnoring_eq, htoken, Option.getD_some]

/-- **What one boot does.** -/
theorem bootKeeps (hread : ReadsScalars fmt.yaml) (hcarried : Carried fmt s (.boot b)) :
    BootKeeps fmt b s.dir (s.next fmt (.boot b)).dir := by
  obtain ⟨hauto, hconfig⟩ := hcarried
  have hwritten : ∀ {name}, tokenFileToWrite fmt.yaml.toYamlCpp b.instanceId s.dir.config =
      some name → _ := fun h => stringField_config hread (hconfig _ h)
  have htoken : (some (fmt.json (autoTokenDocument b))).map fmt.tokenIn = some b.autoTokenRaw :=
    congrArg some (tokenIn_autoTokenDocument hauto)
  have hafter : (s.next fmt (.boot b)).dir = _ :=
    congrArg Prod.snd (@writeLocalClientArtifacts_smooth fmt b s.dir)
  rw [hafter]
  cases hwrite : tokenFileToWrite fmt.yaml.toYamlCpp b.instanceId s.dir.config with
  | none =>
    refine ⟨fun _ _ => rfl, ?_, fun name hname _ => hname, ?_, htoken⟩
    · -- a configuration that names another instance would have been written
      intro id hid hne
      by_contra hother
      have hsome := tokenFileToWrite_eq_some_iff.mpr (Or.inr ⟨id, hid, hne, hother, rfl⟩)
      rw [hwrite] at hsome
      cases hsome
    · intro habsent
      have hsome := (@tokenFileToWrite_eq_some_iff fmt.yaml.toYamlCpp b.instanceId _ _).mpr
        (Or.inl ⟨habsent, rfl⟩)
      rw [hwrite] at hsome
      cases hsome
  | some tokenFileName =>
    obtain ⟨hid, hfile⟩ := hwritten hwrite
    have hcases := tokenFileToWrite_eq_some_iff.mp hwrite
    refine ⟨?_, ?_, ?_, ?_, htoken⟩
    · intro hexists hnone
      rcases hcases with ⟨habsent, -⟩ | ⟨id, hsome, -⟩
      · exact absurd habsent hexists
      · rw [hnone] at hsome
        cases hsome
    · intro id hsome _
      exact Option.some.inj (hsome.symm.trans hid)
    · intro name hname hne
      rcases hcases with ⟨habsent, -⟩ | ⟨-, -, -, -, heq⟩
      · rw [habsent] at hname
        cases hname
      · rw [hname, Option.getD_some, orAuto, if_neg (by simpa using hne)] at heq
        rw [hfile, heq]
    · intro habsent
      rcases hcases with ⟨-, heq⟩ | ⟨id, hsome, -⟩
      · exact ⟨hid, hfile.trans (congrArg some heq)⟩
      · rw [habsent] at hsome
        cases hsome

/-- **Over a life of boots and edits.**  A client that reads `auto.json` always gets the token of
the boot that was last; and whatever the life so far, a boot leaves an operator's configuration
alone, leaves no configuration that names another instance, keeps the token file that was named,
and writes a configuration that is missing. -/
theorem artifacts_over_a_life (hread : ReadsScalars fmt.yaml) (h : LifeRun fmt dir s) :
    (∀ b, s.booted = some b → s.dir.autoToken.map fmt.tokenIn = some b.autoTokenRaw) ∧
      ∀ b, Carried fmt s (.boot b) → BootKeeps fmt b s.dir (s.next fmt (.boot b)).dir := by
  refine ⟨?_, fun b hcarried => bootKeeps hread hcarried⟩
  refine h.invariant (I := fun s => ∀ b, s.booted = some b →
    s.dir.autoToken.map fmt.tokenIn = some b.autoTokenRaw) nofun ?_
  rintro s s' e hauto hcarried rfl
  cases e with
  | boot b =>
    rintro _ ⟨⟩
    exact (bootKeeps hread hcarried).autoToken
  | edit config => exact hauto

end Life

/-- A boot of the instance `0f3a9c21d7b4`, on a local listener. -/
def secondBoot : BootedDaemon where
  instanceId := "0f3a9c21d7b4"
  autoTokenRaw := "5e884898da28"
  issuedAt := "2025-01-02T00:00:00Z"
  coreServiceTransports := [{ protocol := "local" }]
  capabilityModuleTransports := [{ protocol := "local" }]

/-- What an earlier instance left, pointed at another token file since. -/
def repointed : List (String × Json) :=
  [("instance_id", .str "a81b04ff93c6"), ("token_file", .str "alice.json"), ("version", .int 2)]

def repointedText : String :=
  "instance_id: a81b04ff93c6\ntoken_file: alice.json\nversion: 2\n"

def refreshedText : String :=
  "daemon:\n  capability_module:\n    transport: local\n  core_service:\n    transport: local\n" ++
  "instance_id: 0f3a9c21d7b4\ntoken_file: alice.json\nversion: 2\n"

/-- The reader of JSON that knows the file of one document. -/
def parseOnly (kvs : List (String × Json)) (text : String) : Option Json :=
  if text = Json.dump4 (fun _ _ => "") (.obj kvs) ++ "\n" then some (.obj kvs) else none

theorem parseOnly_dump (kvs : List (String × Json)) :
    parseOnly kvs (Json.dump4 (fun _ _ => "") (.obj kvs) ++ "\n") = some (.obj kvs) := if_pos rfl

/-- The formats, on these two texts and on the token file. -/
def twoTexts : Format where
  yaml := knowingAll [(refreshedText, clientDocument secondBoot "alice.json"),
    (repointedText, repointed)]
  jsonText := Json.dump4 fun _ _ => ""
  parseJson := parseOnly (autoTokenDocument secondBoot)
  flavor := .modern

theorem parse_repointedText :
    parse twoTexts.yaml.toYamlCpp repointedText = .ok (.obj repointed) := by
  refine @parse_knowingAll _ (repointedText, repointed) _ ?_ rfl
  refine .obj _ (by decide +kernel) ?_
  simp only [repointed, List.forall_mem_cons]
  exact ⟨.str _, .str _, .int _ (by decide) (by decide), List.forall_mem_nil _⟩

theorem parse_refreshedText : parse twoTexts.yaml.toYamlCpp refreshedText =
    .ok (.obj (clientDocument secondBoot "alice.json")) :=
  @parse_knowingAll _ (refreshedText, clientDocument secondBoot "alice.json") _
    (storable_clientDocument _ _) rfl

/-- The stale configuration is refreshed, and keeps its token file; the auto token is the new
one. -/
theorem repointed_refreshed :
    ((Life.mk ⟨.text repointedText, none⟩ none).next twoTexts
        (.boot secondBoot)).dir.autoToken.map twoTexts.tokenIn = some "5e884898da28" ∧
      stringField twoTexts.yaml.toYamlCpp "token_file"
        ((Life.mk ⟨.text repointedText, none⟩ none).next twoTexts (.boot secondBoot)).dir.config =
        some "alice.json" ∧
      ∀ id, stringField twoTexts.yaml.toYamlCpp "instance_id"
          ((Life.mk ⟨.text repointedText, none⟩ none).next twoTexts (.boot secondBoot)).dir.config =
          some id → id ≠ "" → id = "0f3a9c21d7b4" := by
  have hedit : LifeRun twoTexts ⟨.absent, none⟩ ⟨⟨.text repointedText, none⟩, none⟩ :=
    .tail (a := .edit (.text repointedText)) .refl trivial rfl
  have htoken : stringField twoTexts.yaml.toYamlCpp "token_file" (.text repointedText) =
      some "alice.json" := by
    simp only [stringField, existingConfig, parse_repointedText]
    decide
  have hcarried : Carried twoTexts ⟨⟨.text repointedText, none⟩, none⟩ (.boot secondBoot) := by
    refine ⟨parseOnly_dump (autoTokenDocument secondBoot), fun name hname => ?_⟩
    rcases tokenFileToWrite_eq_some_iff.mp hname with ⟨habsent, -⟩ | ⟨-, -, -, -, hname⟩
    · cases habsent
    · have hsame : orAuto ((some "alice.json").getD "") = "alice.json" := by decide
      rw [htoken, hsame] at hname
      rw [hname]
      exact carries_knowingAll (refreshedText, clientDocument secondBoot "alice.json")
        [(repointedText, repointed)]
  have hboot := (artifacts_over_a_life readsScalars_knowingAll hedit).2 secondBoot hcarried
  exact ⟨hboot.autoToken, hboot.tokenFile "alice.json" htoken (by decide), hboot.current⟩

end Logosctl
