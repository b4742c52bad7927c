/-
# The older front-end as a client

`logoscore` lays the client flags over `client/config.json` and runs with what comes of it, for the
two modules every client dials; with `--persist-config` it writes it down as well.  The codec and
the token file are looked at first.  The transport is not: `--client-transport` is taken as it
stands, dialled as a local socket whatever it says, and written into a file whose reader knows three
words and refuses the whole file over a fourth.

`mergeHolds_iff` is when the merge hands over something that can be dialled and read again.
-/
import Logosctl.ClientArtifacts
import Logosctl.ClientState.Write
import Mathlib.Data.List.Infix

namespace Logosctl

open Library JsonSchema YamlJson

/-! ## 1. The flags -/

/-- The flags that were given, on the command line or through the environment. -/
structure ClientFlags where
  clientTransport : Option String := none
  clientTcpHost : Option String := none
  clientTcpPort : Option UInt16 := none
  clientNoVerifyPeer : Option Bool := none
  clientCodec : Option String := none
  clientTokenFile : Option String := none
  clientSslCa : Option String := none
  deriving DecidableEq, Repr

/-- What is found under `client/`: which paths exist, and what parses as JSON. -/
structure ClientFiles where
  clientDir : String
  present : String → Bool
  json : String → Option Json

/-- A name that would lead out of the directory leads to a file that is not there. -/
def clientTokenPath (clientDir filename : String) : String :=
  if filename.isEmpty || filename.contains '/' || filename.contains '\\' ||
      decide ("..".toList <:+: filename.toList) then
    clientDir ++ "/__invalid_token_filename__"
  else clientDir ++ "/" ++ filename

/-- `ClientStateFile::readTokenFile`: the raw token, or nothing. -/
def ClientStateFile.readTokenFile (files : ClientFiles) (filename : String) : String :=
  if filename.isEmpty then ""
  else
    match files.json (clientTokenPath files.clientDir filename) with
    | none => ""
    | some obj => strIgnoring obj "token"

namespace ClientFlags

def anyClientCfgFlag (flags : ClientFlags) : Bool :=
  flags.clientTransport.isSome || flags.clientTcpHost.isSome || flags.clientTcpPort.isSome ||
    flags.clientNoVerifyPeer.isSome || flags.clientCodec.isSome || flags.clientTokenFile.isSome ||
    flags.clientSslCa.isSome

/-- What is said against `--client-codec`. -/
def codecError (flags : ClientFlags) : Option String :=
  match flags.clientCodec with
  | none => none
  | some codec =>
    if codec ≠ "json" ∧ codec ≠ "cbor" then
      some ("Error: --client-codec '" ++ codec ++ "' must be 'json' or 'cbor'")
    else none

/-- What is said against `--token-file`: the file has to be there, with a token in it. -/
def tokenFileError (flags : ClientFlags) (files : ClientFiles) : Option String :=
  match flags.clientTokenFile with
  | none => none
  | some name =>
    let path := clientTokenPath files.clientDir name
    if !files.present path then
      some ("Error: --token-file '" ++ name ++ "' does not exist at " ++ files.clientDir ++ "/" ++
        name ++ ". Copy it from the daemon's daemon/tokens/ dir first.")
    else if (ClientStateFile.readTokenFile files name).isEmpty then
      some ("Error: --token-file '" ++ name ++ "' at " ++ path ++ " has no usable 'token' field " ++
        "(missing key, empty, or unparseable JSON).")
    else none

/-- The flags over one module's endpoint; local when nothing says otherwise. -/
def applyToModule (flags : ClientFlags) (t : ClientModuleTransport) : ClientModuleTransport :=
  let t := { t with
    protocol := flags.clientTransport.getD t.protocol
    host := flags.clientTcpHost.getD t.host
    port := flags.clientTcpPort.getD t.port
    codec := flags.clientCodec.getD t.codec
    verifyPeer := (flags.clientNoVerifyPeer.map not).getD t.verifyPeer
    caFile := flags.clientSslCa.getD t.caFile }
  if t.protocol.isEmpty then { t with protocol := "local" } else t

/-- The flags over what is on disk. -/
def merged (flags : ClientFlags) (disk : ClientState) : ClientState :=
  let daemon := disk.daemon.update "core_service" {} flags.applyToModule
  let daemon := daemon.update "capability_module" {} flags.applyToModule
  let tokenFile := flags.clientTokenFile.getD disk.tokenFile
  { disk with
    daemon, tokenFile
    schemaVersion := kClientStateSchemaVersion
    fileOk := !daemon.entries.isEmpty && !tokenFile.isEmpty }

end ClientFlags

/-! ## 2. Merging and persisting -/

/-- What writing the file answers.  The stream is asked before it is closed, so a write that is
reported need not be flushed; `leftover` is what the file then holds. -/
structure ClientWriteIo where
  createDirectories : Bool
  openFile : Bool
  good : Bool
  flushed : Bool
  leftover : String

/-- The text is in the file. -/
def ClientWriteIo.Succeeds (io : ClientWriteIo) : Prop :=
  io.createDirectories = true ∧ io.openFile = true ∧ io.good = true ∧ io.flushed = true

def ClientStateFile.write (fmt : Format) (state : ClientState) (io : ClientWriteIo)
    (file : ConfigFile) : Bool × ConfigFile :=
  if !io.createDirectories || !io.openFile then (false, file)
  else
    (io.good, .text (if io.flushed then fmt.config (ClientStateFile.document state)
      else io.leftover))

/-- This front-end writes JSON. -/
def Format.legacy (fmt : Format) : Format := { fmt with flavor := .legacy }

/-- What comes of it: the error it exits with, or the state it runs with if there were flags; what
is printed, and the file. -/
structure ClientRun where
  outcome : Except String (Option ClientState)
  printed : List String
  file : ConfigFile

def legacyClient (fmt : Format) (flags : ClientFlags) (persistConfig : Bool) (files : ClientFiles)
    (filePath : String) (io : ClientWriteIo) (file : ConfigFile) : ClientRun :=
  if flags.anyClientCfgFlag || persistConfig then
    match flags.codecError with
    | some e => ⟨.error e, [], file⟩
    | none =>
      let (disk, stderr) := ClientStateFile.read fmt.yaml.toYamlCpp filePath none file
      match flags.tokenFileError files with
      | some e => ⟨.error e, stderr, file⟩
      | none =>
        let merged := flags.merged disk
        if persistConfig then
          let (persisted, after) := ClientStateFile.write fmt.legacy merged io file
          ⟨.ok (some merged), stderr ++ [if persisted then "Persisted client config: " ++ filePath
            else "Warning: failed to persist client config to " ++ filePath], after⟩
        else ⟨.ok (some merged), stderr, file⟩
  else ⟨.ok none, [], file⟩

/-! ## 3. What is merged -/

/-- The modules every client dials. -/
def dialedModules : List String := ["core_service", "capability_module"]

/-- No transport is given, or none to speak of, or one of the three. -/
def ClientFlags.KnownTransport (flags : ClientFlags) : Prop :=
  ∀ protocol, flags.clientTransport = some protocol →
    protocol = "" ∨ isKnownProtocol protocol = true

section Merged

variable {flags : ClientFlags} {t : ClientModuleTransport} {disk : ClientState} {name : String}

theorem isKnownProtocol_applyToModule (hflags : flags.KnownTransport)
    (ht : t.protocol = "" ∨ isKnownProtocol t.protocol = true) :
    isKnownProtocol (flags.applyToModule t).protocol = true := by
  have hprotocol : flags.clientTransport.getD t.protocol = "" ∨
      isKnownProtocol (flags.clientTransport.getD t.protocol) = true := by
    cases h : flags.clientTransport with
    | none => exact ht
    | some protocol => exact hflags protocol h
  unfold ClientFlags.applyToModule
  dsimp only
  split
  · rfl
  · next hne =>
    exact hprotocol.resolve_left fun h => hne (String.isEmpty_iff.mpr h)

/-- With a transport that is known the flags keep a configuration dialable. -/
theorem dialable_update (hflags : flags.KnownTransport)
    {daemon : OrderedMap String ClientModuleTransport} (h : Dialable daemon) (hname : name ≠ "") :
    Dialable (daemon.update name {} flags.applyToModule) := by
  intro name' t' hmem
  rcases OrderedMap.mem_entries_update hmem with ⟨rfl, t, rfl, rfl | hmem⟩ | hmem
  · exact ⟨hname, isKnownProtocol_applyToModule hflags (Or.inl rfl)⟩
  · exact ⟨hname, isKnownProtocol_applyToModule hflags (Or.inr (h _ _ hmem).2)⟩
  · exact h name' t' hmem

theorem dialable_merged (hflags : flags.KnownTransport) (h : Dialable disk.daemon) :
    Dialable (flags.merged disk).daemon :=
  dialable_update hflags (dialable_update hflags h (by decide)) (by decide)

/-- What the two modules are dialled by. -/
theorem get?_merged (hname : name ∈ dialedModules) : (flags.merged disk).daemon.get? name =
    some (flags.applyToModule ((disk.daemon.get? name).getD {})) := by
  simp only [dialedModules, List.mem_cons, List.not_mem_nil, or_false] at hname
  rcases hname with rfl | rfl
  · simp [ClientFlags.merged, OrderedMap.get?_update]
  · simp [ClientFlags.merged, OrderedMap.get?_update]

/-- A transport that is given is the one that is dialled by. -/
theorem protocol_applyToModule {protocol : String} (h : flags.clientTransport = some protocol)
    (hne : protocol ≠ "") : (flags.applyToModule t).protocol = protocol := by
  unfold ClientFlags.applyToModule
  simp only [h, Option.getD_some]
  rw [if_neg (by simpa using hne)]

end Merged

/-! ## 4. What the merge promises -/

/-- The two modules are dialled by known protocols; and what is persisted is read, by a later run
without flags, as a state with the same token file that dials the same. -/
def MergeHolds (fmt : Format) (flags : ClientFlags) (persistConfig : Bool) (files : ClientFiles)
    (filePath : String) (io : ClientWriteIo) (file : ConfigFile) : Prop :=
  let run := legacyClient fmt flags persistConfig files filePath io file
  ∀ merged, run.outcome = .ok (some merged) →
    (∀ name ∈ dialedModules, ∃ t, merged.daemon.get? name = some t ∧
      isKnownProtocol t.protocol = true) ∧
    (persistConfig = true → io.Succeeds → ∃ later,
      ClientStateFile.read fmt.yaml.toYamlCpp filePath none run.file = (later, []) ∧
        later.fileOk = merged.fileOk ∧ later.tokenFile = merged.tokenFile ∧
        later.instanceId = merged.instanceId ∧ later.dialSpec = merged.dialSpec)

section Holds

variable {fmt : Format} {flags : ClientFlags} {persistConfig : Bool} {files : ClientFiles}
  {filePath : String} {io : ClientWriteIo} {file : ConfigFile} {merged : ClientState}

/-- What is on disk before the flags. -/
def diskState (fmt : Format) (filePath : String) (file : ConfigFile) : ClientState :=
  (ClientStateFile.read fmt.yaml.toYamlCpp filePath none file).1

/-- When there is a merged state, and which. -/
theorem outcome_eq_some_iff :
    (legacyClient fmt flags persistConfig files filePath io file).outcome = .ok (some merged) ↔
      (flags.anyClientCfgFlag || persistConfig) = true ∧ flags.codecError = none ∧
        flags.tokenFileError files = none ∧
        merged = flags.merged (diskState fmt filePath file) := by
  unfold legacyClient
  by_cases hany : (flags.anyClientCfgFlag || persistConfig) = true
  · rw [if_pos hany]
    cases hcodec : flags.codecError with
    | some e => simp
    | none =>
      cases htoken : flags.tokenFileError files with
      | some e => simp
      | none => cases persistConfig <;> simp [hany, diskState, @eq_comm _ merged]
  · rw [if_neg hany]
    simp [hany]

/-- What a write that succeeds leaves of it. -/
theorem file_of_persisted (hrefused : flags.codecError = none)
    (htoken : flags.tokenFileError files = none) (hio : io.Succeeds) :
    (legacyClient fmt flags true files filePath io file).file =
      .text (fmt.json (ClientStateFile.document (flags.merged (diskState fmt filePath file)))) := by
  obtain ⟨hcreate, hopen, -, hflushed⟩ := hio
  simp [legacyClient, hrefused, htoken, ClientStateFile.write, hcreate, hopen, hflushed,
    Format.config, Format.legacy, diskState, Format.json]

/-- What was persisted is read as it was written. -/
theorem read_persisted (hdial : Dialable merged.daemon)
    (hcarries : fmt.legacy.Carries (ClientStateFile.document merged)) :
    ClientStateFile.read fmt.yaml.toYamlCpp filePath none
      (.text (fmt.json (ClientStateFile.document merged))) = (merged.asWritten, []) := by
  have hparse : parse fmt.yaml.toYamlCpp (fmt.json (ClientStateFile.document merged)) =
      .ok (.obj (ClientStateFile.document merged)) := hcarries
  simp only [ClientStateFile.read, hparse, parse_clientStateDocument hdial]

/-- **When the merge holds**: exactly when the flags are refused, or the transport among them is
one that is known. -/
theorem mergeHolds_iff (hcarries : fmt.legacy.Carries
      (ClientStateFile.document (flags.merged (diskState fmt filePath file)))) :
    MergeHolds fmt flags persistConfig files filePath io file ↔
      flags.codecError ≠ none ∨ flags.tokenFileError files ≠ none ∨ flags.KnownTransport := by
  constructor
  · intro h
    by_contra hnot
    simp only [not_or, not_not] at hnot
    obtain ⟨hcodec, htoken, hunknown⟩ := hnot
    refine hunknown fun protocol hprotocol => ?_
    have hany : (flags.anyClientCfgFlag || persistConfig) = true := by
      simp [ClientFlags.anyClientCfgFlag, hprotocol]
    obtain ⟨hknown, -⟩ := h _ (outcome_eq_some_iff.mpr ⟨hany, hcodec, htoken, rfl⟩)
    by_cases hne : protocol = ""
    · exact Or.inl hne
    · obtain ⟨t, ht, hprotocols⟩ := hknown "core_service" (by decide)
      cases (get?_merged (by decide)).symm.trans ht
      rw [protocol_applyToModule hprotocol hne] at hprotocols
      exact Or.inr hprotocols
  · intro h merged hmerged
    obtain ⟨-, hcodec, htoken, rfl⟩ := outcome_eq_some_iff.mp hmerged
    have hflags : flags.KnownTransport :=
      (h.resolve_left (not_not.mpr hcodec)).resolve_left (not_not.mpr htoken)
    have hdial : Dialable (flags.merged (diskState fmt filePath file)).daemon :=
      dialable_merged hflags (dialable_of_read _ _ _)
    refine ⟨?_, ?_⟩
    · intro name hname
      exact ⟨_, get?_merged hname, (hdial name _ (OrderedMap.mem_of_get? (get?_merged hname))).2⟩
    · rintro rfl hio
      refine ⟨(flags.merged (diskState fmt filePath file)).asWritten, ?_, rfl, rfl, rfl,
        dialSpec_asWritten _⟩
      rw [file_of_persisted hcodec htoken hio]
      exact read_persisted hdial hcarries

end Holds

/-- A configuration that works: a node on another host, with a token file. -/
def remoteSpec : List (String × Json) :=
  [("daemon", .obj [("core_service", .obj [("host", .str "node.example"), ("port", .int 8645),
      ("transport", .str "tcp")])]),
    ("token_file", .str "alice.json"), ("version", .int 2)]

def remoteText : String :=
  "\x7b\"daemon\": \x7b\"core_service\": \x7b\"host\": \"node.example\", \"port\": 8645, " ++
  "\"transport\": \"tcp\"\x7d\x7d, \"token_file\": \"alice.json\", \"version\": 2\x7d"

/-- What it says. -/
def remoteState : ClientState where
  fileOk := true
  schemaVersion := 2
  tokenFile := "alice.json"
  daemon := OrderedMap.emplace "core_service"
    { protocol := "tcp", host := "node.example", port := 8645 } ∅

/-- `--client-transport`, alone. -/
def transportFlag (protocol : String) : ClientFlags where
  clientTransport := some protocol

/-- What is written once it was given. -/
def persistedText (protocol : String) : String :=
  Json.dump4 (fun _ _ => "")
    (.obj (ClientStateFile.document ((transportFlag protocol).merged remoteState)))

/-- The parser on these two texts, and the JSON writer. -/
def remoteFormat (protocol : String) : Format where
  yaml := knowingAll
    [(persistedText protocol,
        ClientStateFile.document ((transportFlag protocol).merged remoteState)),
      (remoteText, remoteSpec)]
  jsonText := Json.dump4 fun _ _ => ""
  parseJson := parseOnly (ClientStateFile.document ((transportFlag protocol).merged remoteState))
  flavor := .legacy

/-- Nothing else is under `client/`. -/
def noFiles : ClientFiles := ⟨"client", fun _ => false, fun _ => none⟩

/-- Every call succeeds. -/
def ClientWriteIo.smooth : ClientWriteIo := ⟨true, true, true, true, ""⟩

theorem succeeds_writeIo_smooth : ClientWriteIo.smooth.Succeeds := ⟨rfl, rfl, rfl, rfl⟩

section Remote

variable (protocol : String)

theorem storable_remoteSpec : Storable (.obj remoteSpec) := by
  have hendpoint : Storable (.obj [("host", .str "node.example"), ("port", .int 8645),
      ("transport", .str "tcp")]) := by
    refine .obj _ (by decide +kernel) ?_
    simp only [List.forall_mem_cons]
    exact ⟨.str _, .int _ (by decide) (by decide), .str _, List.forall_mem_nil _⟩
  have hdaemon : Storable (.obj [("core_service", .obj [("host", .str "node.example"),
      ("port", .int 8645), ("transport", .str "tcp")])]) := by
    refine .obj _ (List.pairwise_singleton _ _) ?_
    simp only [List.forall_mem_cons]
    exact ⟨hendpoint, List.forall_mem_nil _⟩
  refine .obj _ (by decide +kernel) ?_
  simp only [remoteSpec, List.forall_mem_cons]
  exact ⟨hdaemon, .str _, .int _ (by decide) (by decide), List.forall_mem_nil _⟩

/-- What was persisted is carried. -/
theorem carries_remoteFormat : (remoteFormat protocol).legacy.Carries
    (ClientStateFile.document ((transportFlag protocol).merged remoteState)) := by
  have hnewline : persistedText protocol ++ "\n" = (persistedText protocol).push '\n' := by
    rw [← String.append_singleton]
    rfl
  exact @parse_knowingAll _
    (persistedText protocol, ClientStateFile.document ((transportFlag protocol).merged remoteState))
    _ (storable_clientState _)
    (List.find?_cons_of_pos (decide_eq_true (Or.inr hnewline)))

variable {protocol}

/-- What is on disk before the flag. -/
theorem read_remoteText (h : ¬ (remoteText = persistedText protocol ∨
      remoteText = (persistedText protocol).push '\n')) :
    ClientStateFile.read (remoteFormat protocol).yaml.toYamlCpp "client/config.json" none
      (.text remoteText) = (remoteState, []) := by
  have hparse :
      parse (remoteFormat protocol).yaml.toYamlCpp remoteText = .ok (.obj remoteSpec) := by
    refine @parse_knowingAll _ (remoteText, remoteSpec) _ storable_remoteSpec ?_
    rw [List.find?_cons_of_neg (by simpa using h), List.find?_cons_of_pos (by simp)]
  simp only [ClientStateFile.read, hparse]
  decide +kernel

end Remote

/-- A word that is none of the three, given once, and the file is refused from then on. -/
theorem typo_refused :
    let run := legacyClient (remoteFormat "tpc") (transportFlag "tpc") true noFiles
      "client/config.json" .smooth (.text remoteText)
    ClientStateFile.read (remoteFormat "tpc").yaml.toYamlCpp "client/config.json" none run.file =
        ({}, ["ClientState: client/config.json: daemon.capability_module.transport: expected " ++
          "one of \"local\", \"tcp\", \"tcp_ssl\", but got \"tpc\"."]) ∧
      ¬ MergeHolds (remoteFormat "tpc") (transportFlag "tpc") true noFiles "client/config.json"
        .smooth (.text remoteText) := by
  intro run
  have hdisk : diskState (remoteFormat "tpc") "client/config.json" (.text remoteText) =
      remoteState := congrArg Prod.fst (read_remoteText (by decide +kernel))
  have hfile : run.file = .text ((remoteFormat "tpc").json
      (ClientStateFile.document ((transportFlag "tpc").merged remoteState))) := by
    rw [← hdisk]
    exact file_of_persisted rfl rfl succeeds_writeIo_smooth
  have hparse : parse (remoteFormat "tpc").yaml.toYamlCpp ((remoteFormat "tpc").json
      (ClientStateFile.document ((transportFlag "tpc").merged remoteState))) = .ok (.obj _) :=
    carries_remoteFormat "tpc"
  refine ⟨?_, ?_⟩
  · rw [hfile]
    simp only [ClientStateFile.read, hparse]
    decide +kernel
  · intro h
    obtain ⟨hknown, -⟩ := h _ (outcome_eq_some_iff.mpr ⟨rfl, rfl, rfl, rfl⟩)
    obtain ⟨t, ht, hprotocol⟩ := hknown "core_service" (by decide)
    cases (get?_merged (by decide)).symm.trans ht
    rw [protocol_applyToModule rfl (by decide)] at hprotocol
    exact absurd hprotocol (by decide)

/-- A word that is, and the file says it. -/
theorem tcp_ssl_persisted : MergeHolds (remoteFormat "tcp_ssl") (transportFlag "tcp_ssl") true
    noFiles "client/config.json" .smooth (.text remoteText) := by
  have hdisk : diskState (remoteFormat "tcp_ssl") "client/config.json" (.text remoteText) =
      remoteState := congrArg Prod.fst (read_remoteText (by decide +kernel))
  refine (mergeHolds_iff ?_).mpr (Or.inr (Or.inr ?_))
  · rw [hdisk]
    exact carries_remoteFormat "tcp_ssl"
  · rintro _ ⟨⟩
    exact Or.inr (by decide)

end Logosctl
