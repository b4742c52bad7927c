/-
# The older front-end

`logoscore -D` boots the same daemon from the same kind of file, with its command line laid over
what the file says: a flag that was given replaces the setting, one that was not leaves it alone,
and listeners are replaced as a whole.  With `--persist-config` the daemon then writes down the
configuration it runs with.

Two results.  Whatever reaches `Daemon::start`, from either front-end, can be written and read
again (`loaded_of_started`, `loaded_of_legacyStarted`).  And a launch without flags on the file
that was persisted runs with the same configuration (`persisted_config_reproduces`).
-/
import Logosctl.Boot
import Logosctl.DaemonConfig.Write
import Logosctl.Library.Decimal

namespace Logosctl

open Library JsonSchema YamlJson

/-! ## 1. One `--module-transport` -/

/-- What stands before the first `sep`, and what after it. -/
def splitFirst (sep : Char) : List Char → Option (List Char × List Char)
  | [] => none
  | c :: cs => if c = sep then some ([], cs) else (splitFirst sep cs).map fun p => (c :: p.1, p.2)

/-- The parts between commas; nothing follows a comma at the end. -/
def commaParts : List Char → List (List Char)
  | [] => []
  | c :: cs =>
    if c = ',' then [] :: commaParts cs
    else
      match commaParts cs with
      | [] => [[c]]
      | part :: parts => (c :: part) :: parts

def digitsValue (cs : List Char) : Option Int :=
  if !cs.isEmpty && cs.all Char.isDigit then some (Nat.ofDigitChars 10 cs 0) else none

/-- `std::stoi`, when it consumes the whole value: blanks in front and a sign are part of it, and
what does not fit an `int` is refused. -/
def stoi (v : String) : Option Int :=
  let i := match v.toList.dropWhile isSpace with
    | '-' :: ds => (digitsValue ds).map fun i => -i
    | '+' :: ds => digitsValue ds
    | ds => digitsValue ds
  i.filter fun i => decide (-(2 ^ 31) ≤ i ∧ i < 2 ^ 31)

/-- One `k=v` of a listener. -/
def setField (spec k v : String) (t : TransportInfo) : Except String TransportInfo :=
  if k = "host" then .ok { t with host := v }
  else if k = "codec" then .ok { t with codec := v }
  else if k = "ca" then .ok { t with caFile := v }
  else if k = "cert" then .ok { t with certFile := v }
  else if k = "key" then .ok { t with keyFile := v }
  else if k = "verify_peer" then
    if v = "true" ∨ v = "1" then .ok { t with verifyPeer := true }
    else if v = "false" ∨ v = "0" then .ok { t with verifyPeer := false }
    else .error ("Error: --module-transport verify_peer '" ++ v ++
      "' must be one of true|false|1|0")
  else if k = "port" then
    match stoi v with
    | none => .error ("Error: --module-transport port '" ++ v ++ "' is not a valid integer")
    | some parsedPort =>
      if parsedPort < 0 ∨ 0xFFFF < parsedPort then
        .error ("Error: --module-transport port '" ++ v ++ "' must be in [0, 65535]")
      else .ok { t with port := .ofNat parsedPort.toNat }
  else .error ("Error: --module-transport unknown key '" ++ k ++ "' in '" ++ spec ++ "'")

def setFields (spec : String) : List (List Char) → TransportInfo → Except String TransportInfo
  | [], t => .ok t
  | kv :: kvs, t =>
    match splitFirst '=' kv with
    | none => .error ("Error: --module-transport '" ++ spec ++ "' has malformed kv pair '" ++
        String.ofList kv ++ "' (expected k=v)")
    | some (k, v) =>
      match setField spec (String.ofList k) (String.ofList v) t with
      | .error e => .error e
      | .ok t => setFields spec kvs t

def validateCodec (c : String) : Bool := c == "json" || c == "cbor"

/-- What each protocol requires. -/
def validateListener (moduleName : String) (t : TransportInfo) : Except String TransportInfo :=
  if t.protocol = "local" then .ok t
  else if t.protocol = "tcp" then
    if !validateCodec t.codec then
      .error ("Error: --module-transport tcp codec '" ++ t.codec ++ "' must be 'json' or 'cbor'")
    else .ok t
  else if t.protocol = "tcp_ssl" then
    if !validateCodec t.codec then
      .error ("Error: --module-transport tcp_ssl codec '" ++ t.codec ++
        "' must be 'json' or 'cbor'")
    else if t.certFile.isEmpty || t.keyFile.isEmpty then
      .error ("Error: --module-transport tcp_ssl for '" ++ moduleName ++
        "' requires cert= and key=")
    else .ok t
  else .error ("Error: --module-transport unknown protocol '" ++ t.protocol ++
    "' (expected local | tcp | tcp_ssl)")

/-- A listener before its fields are set. -/
def listenerDefaults (protocol : String) : TransportInfo :=
  if protocol = "tcp" ∨ protocol = "tcp_ssl" then
    { protocol, host := "127.0.0.1", codec := "json", verifyPeer := true }
  else { protocol }

/-- `NAME=PROTOCOL[,k=v...]`: the module and its listener. -/
def moduleTransport (spec : String) : Except String (String × TransportInfo) :=
  match splitFirst '=' spec.toList with
  | some (n :: name, b :: body) =>
    let moduleName := String.ofList (n :: name)
    match commaParts (b :: body) with
    | (p :: protocol) :: kvs =>
      match setFields spec kvs (listenerDefaults (String.ofList (p :: protocol))) with
      | .error e => .error e
      | .ok t =>
        match validateListener moduleName t with
        | .error e => .error e
        | .ok t => .ok (moduleName, t)
    | _ => .error ("Error: --module-transport '" ++ spec ++ "' missing protocol")
  | _ => .error ("Error: --module-transport expects 'NAME=PROTOCOL[,k=v...]', got: '" ++ spec ++
      "'")

def moduleTransports : List String → Modules → Except String Modules
  | [], map => .ok map
  | spec :: specs, map =>
    match moduleTransport spec with
    | .error e => .error e
    | .ok (moduleName, t) => moduleTransports specs (map.push moduleName t)

/-! ## 2. The command line over the file -/

/-- The flags of the daemon that were given; `moduleTransports` is empty when none was. -/
structure Flags where
  modulesDirs : Option (List String) := none
  persistencePath : Option String := none
  moduleTransports : List String := []
  insecureTcp : Option Bool := none
  container : Option String := none
  accessPolicy : Option String := none
  accessGroup : Option String := none
  deriving DecidableEq

def Flags.anyCliFlag (flags : Flags) : Bool :=
  flags.modulesDirs.isSome || flags.persistencePath.isSome || !flags.moduleTransports.isEmpty ||
    flags.insecureTcp.isSome || flags.accessPolicy.isSome || flags.container.isSome ||
    flags.accessGroup.isSome

/-- What the front-end asks of its surroundings: the absolute form of a path, normalised, the
content of a file, and what the JSON parser says against a text. -/
structure Surroundings where
  absolute : String → Option String
  readFile : String → Option String
  jsonError : String → Option String

/-- A leading `~` or `~/` is left to whoever resolves the path, and an empty path stays empty. -/
def resolvePersistencePath (env : Surroundings) (path : String) : String :=
  let tilde := match path.toList with
    | '~' :: cs => cs.isEmpty || cs.head? == some '/'
    | _ => false
  if path.isEmpty || tilde then path else (env.absolute path).getD path

def kEnforceEnvelope : String :=
  "\x7b\"version\":1,\"mode\":\"enforce\",\"restrictions\":\x7b\x7d\x7d"

/-- `--access-policy`: the literal `enforce`, inline JSON, or the path of a file. -/
def resolveAccessPolicyArg (env : Surroundings) (arg : String) : Except String String :=
  if arg = "enforce" then .ok kEnforceEnvelope
  else
    let checked (content source : String) : Except String String :=
      match env.jsonError content with
      | none => .ok content
      | some e => .error (source ++ " is not valid JSON: " ++ e)
    if (arg.toList.find? fun c => !isSpace c) = some '\x7b' then
      checked arg "inline --access-policy JSON"
    else
      match env.readFile arg with
      | none => .error ("--access-policy file '" ++ arg ++ "' could not be opened.")
      | some content => checked content ("--access-policy file '" ++ arg ++ "'")

/-- The setting a flag makes, when it was given. -/
def Flags.apply {α : Type} (flag : Option α) (set : α → DaemonConfig → DaemonConfig)
    (cfg : DaemonConfig) : DaemonConfig :=
  match flag with
  | none => cfg
  | some v => set v cfg

/-- The settings that are taken as they are given. -/
def applySettings (env : Surroundings) (flags : Flags) (cfg : DaemonConfig) : DaemonConfig :=
  let cfg := Flags.apply flags.modulesDirs (fun v cfg => { cfg with modulesDirs := v }) cfg
  -- both spellings of the data directory, so that they agree
  let cfg := Flags.apply flags.persistencePath (fun v cfg =>
    let resolved := resolvePersistencePath env v
    { cfg with persistencePath := resolved, dirs := { cfg.dirs with data := resolved } }) cfg
  let cfg := Flags.apply flags.insecureTcp (fun v cfg => { cfg with insecureTcp := v }) cfg
  let cfg := Flags.apply flags.container (fun v cfg => { cfg with container := v }) cfg
  Flags.apply flags.accessGroup (fun v cfg => { cfg with accessGroup := v }) cfg

/-- Listeners are replaced as a whole. -/
def applyTransports (flags : Flags) (transports : Modules) (cfg : DaemonConfig) : DaemonConfig :=
  if flags.moduleTransports.isEmpty then cfg else { cfg with modules := transports }

/-- The flags over the configuration that was loaded. -/
def overlay (env : Surroundings) (flags : Flags) (transports : Modules) (cfg : DaemonConfig) :
    Except String DaemonConfig :=
  let cfg := applySettings env flags cfg
  match flags.accessPolicy with
  | none => .ok (applyTransports flags transports cfg)
  | some arg =>
    match resolveAccessPolicyArg env arg with
    | .error e => .error ("Error: " ++ e)
    | .ok policy => .ok (applyTransports flags transports { cfg with accessPolicy := policy })

/-- How `logoscore -D` gets as far as `Daemon::start`. -/
def legacyStart (yaml : YamlCpp) (env : Surroundings) (flags : Flags) (filePath : String)
    (file : ConfigFile) : BootRun :=
  match moduleTransports flags.moduleTransports ∅ with
  | .error e => ⟨[e], none⟩
  | .ok transports =>
    let (disk, stderr) := DaemonConfigFile.read yaml filePath file
    let configSource :=
      if flags.anyCliFlag then "cli" else if disk.isSome then "config.json" else "defaults"
    match overlay env flags transports (disk.getD {}) with
    | .error e => ⟨stderr ++ [e], none⟩
    | .ok cfg =>
      let mergedCfg := normalise cfg
      match plaintextOffender mergedCfg with
      | some (moduleName, t) =>
        ⟨stderr ++ ["Error: module '" ++ moduleName ++
          "' binds plaintext tcp on non-loopback host '" ++ t.host ++
          "'. Use protocol=tcp_ssl, or pass --insecure-tcp if you really mean it."], none⟩
      | none => ⟨stderr, some (mergedCfg, configSource)⟩

/-! ## 3. What reaches the daemon -/

section Loaded

variable {cfg : DaemonConfig} {name : String} {ts : List TransportInfo} {t : TransportInfo}

/-- The parts of a configuration that are not its modules. -/
theorem Loaded.withModules {modules : Modules} (h : Loaded cfg)
    (hmodules : WellFormedModules modules) : Loaded { cfg with modules := modules } where
  protocols name ts hts := (hmodules name ts hts).2.2
  limits := h.limits
  policy := h.policy
  named name ts hts := ⟨(hmodules name ts hts).1, (hmodules name ts hts).2.1⟩
  data := h.data

theorem loaded_defaults : Loaded {} where
  protocols := nofun
  limits := ⟨by decide, by decide⟩
  policy := Or.inl rfl
  named := nofun
  data _ := rfl

theorem isKnownProtocol_of_isLocal (h : isLocal t = true) : isKnownProtocol t.protocol = true := by
  rw [isLocal, beq_iff_eq] at h
  rw [h]
  rfl

/-- The listeners of a module once it is normalised: one that is local, and others it had. -/
theorem mem_moveToFront_local (ht : t ∈ moveToFront isLocal { protocol := "local" } ts) :
    isLocal t = true ∨ t ∈ ts := by
  cases hlocal : isLocal t with
  | true => exact Or.inl rfl
  | false =>
    have hmem : t ∈ (moveToFront isLocal { protocol := "local" } ts).filter (fun u => !isLocal u) :=
      List.mem_filter.mpr ⟨ht, by simp [hlocal]⟩
    rw [filter_not_moveToFront rfl] at hmem
    exact Or.inr (List.mem_filter.mp hmem).1

theorem loaded_normalise (h : Loaded cfg) : Loaded (normalise cfg) := by
  suffices hmodules : WellFormedModules (normalise cfg).modules from h.withModules hmodules
  intro name ts hts
  obtain ⟨ts₀, hmem, rfl⟩ := mem_normalise.mp hts
  obtain ⟨front, rest, hfront, -⟩ := @exists_moveToFront _ isLocal { protocol := "local" } rfl ts₀
  have hknown : ∀ t ∈ ts₀, isKnownProtocol t.protocol = true := by
    rcases mem_addWellKnown hmem with hmem | ⟨-, rfl⟩
    · exact h.protocols name ts₀ hmem
    · exact nofun
  refine ⟨?_, ?_, ?_⟩
  · rcases OrderedMap.mem_entries_emplace hmem with ⟨-, heq⟩ | hmem
    · rw [(Prod.mk.inj heq).1]
      decide
    · rcases OrderedMap.mem_entries_emplace hmem with ⟨-, heq⟩ | hmem
      · rw [(Prod.mk.inj heq).1]
        decide
      · exact (h.named name ts₀ hmem).1
  · rw [hfront]
    exact List.cons_ne_nil _ _
  · intro t ht
    exact (mem_moveToFront_local ht).elim isKnownProtocol_of_isLocal (hknown t)

theorem loaded_applySslDefaults (h : Loaded cfg) : Loaded (applySslDefaults cfg) := by
  have hmodules : WellFormedModules (applySslDefaults cfg).modules := by
    intro name ts hts
    obtain ⟨ts₀, hmem, rfl⟩ := mem_applySslDefaults.mp hts
    obtain ⟨hname, hts₀⟩ := h.named name ts₀ hmem
    refine ⟨hname, by simpa using hts₀, ?_⟩
    intro t ht
    obtain ⟨t₀, ht₀, rfl⟩ := List.mem_map.mp ht
    rw [protocol_withSslDefaults]
    exact h.protocols name ts₀ hmem t₀ ht₀
  have hrest : applySslDefaults cfg = { cfg with modules := (applySslDefaults cfg).modules } := by
    unfold applySslDefaults
    split <;> rfl
  rw [hrest]
  exact h.withModules hmodules

/-- **What `daemon start` hands over can be written and read again.** -/
theorem loaded_of_started {yaml : YamlCpp} {filePath source : String} {file : ConfigFile}
    (h : (daemonStart yaml filePath file).started = some (cfg, source)) : Loaded cfg := by
  obtain ⟨rfl, -⟩ := started_eq_some_iff.mp h
  refine loaded_normalise (loaded_applySslDefaults ?_)
  cases hread : (DaemonConfigFile.read yaml filePath file).1 with
  | none =>
    rw [loadConfig_of_none hread]
    exact loaded_defaults
  | some c =>
    rw [loadConfig_of_some hread]
    exact loaded_of_read hread

end Loaded

section Overlay

variable {cfg cfg' : DaemonConfig} {env : Surroundings} {flags : Flags} {transports : Modules}
  {moduleName : String} {t t' : TransportInfo}

/-- A listener that passes is the one that was checked, and of a known protocol. -/
theorem validateListener_eq_ok (h : validateListener moduleName t = .ok t') :
    t' = t ∧ isKnownProtocol t.protocol = true := by
  unfold validateListener at h
  split_ifs at h with hlocal htcp _ htls
  · exact ⟨(Except.ok.inj h).symm, isKnownProtocol_iff.mpr (Or.inl hlocal)⟩
  · exact ⟨(Except.ok.inj h).symm, isKnownProtocol_iff.mpr (Or.inr (Or.inl htcp))⟩
  · exact ⟨(Except.ok.inj h).symm, isKnownProtocol_iff.mpr (Or.inr (Or.inr htls))⟩

theorem moduleTransport_eq_ok {spec : String} (h : moduleTransport spec = .ok (moduleName, t)) :
    moduleName ≠ "" ∧ isKnownProtocol t.protocol = true := by
  simp only [moduleTransport] at h
  split at h
  · split at h
    · split at h
      · cases h
      · split at h
        · cases h
        · next hvalid =>
          obtain ⟨rfl, hknown⟩ := validateListener_eq_ok hvalid
          cases h
          exact ⟨by simp, hknown⟩
    · cases h
  · cases h

theorem wellFormedModules_push {modules : Modules} (h : WellFormedModules modules)
    (hname : moduleName ≠ "") (hknown : isKnownProtocol t.protocol = true) :
    WellFormedModules (modules.push moduleName t) := by
  intro name ts hts
  rcases OrderedMap.mem_entries_push hts with ⟨rfl, ts₀, rfl, hts₀⟩ | hts
  · refine ⟨hname, by simp, ?_⟩
    intro u hu
    rcases List.mem_append.mp hu with hu | hu
    · rcases hts₀ with rfl | hts₀
      · cases hu
      · exact (h name ts₀ hts₀).2.2 u hu
    · rw [List.mem_singleton.mp hu]
      exact hknown
  · exact h name ts hts

theorem wellFormedModules_moduleTransports (specs : List String) : ∀ {map modules : Modules},
    WellFormedModules map → moduleTransports specs map = .ok modules →
      WellFormedModules modules := by
  induction specs with
  | nil =>
    rintro map modules hmap ⟨⟩
    exact hmap
  | cons spec specs ih =>
    intro map modules hmap h
    unfold moduleTransports at h
    split at h
    · cases h
    · next hspec =>
      obtain ⟨hname, hknown⟩ := moduleTransport_eq_ok hspec
      exact ih (wellFormedModules_push hmap hname hknown) h

theorem Loaded.apply {α : Type} {flag : Option α} {set : α → DaemonConfig → DaemonConfig}
    (h : Loaded cfg) (hset : ∀ v, Loaded (set v cfg)) : Loaded (Flags.apply flag set cfg) := by
  cases flag with
  | none => exact h
  | some v => exact hset v

theorem loaded_applySettings (h : Loaded cfg) : Loaded (applySettings env flags cfg) := by
  have hset : ∀ c, Loaded c → ∀ modulesDirs insecureTcp container accessGroup,
      Loaded { c with modulesDirs, insecureTcp, container, accessGroup } := fun c hc _ _ _ _ =>
    ⟨⟨hc.protocols, hc.limits, hc.policy⟩, hc.named, hc.data⟩
  unfold applySettings
  have h1 : Loaded (Flags.apply flags.modulesDirs (fun v cfg => { cfg with modulesDirs := v })
      cfg) := h.apply fun v => hset _ h _ _ _ _
  have h2 := @Loaded.apply _ _ flags.persistencePath (fun v cfg =>
    let resolved := resolvePersistencePath env v
    { cfg with persistencePath := resolved, dirs := { cfg.dirs with data := resolved } })
    h1 fun v => ⟨⟨h1.protocols, h1.limits, h1.policy⟩, h1.named, id⟩
  have h3 := @Loaded.apply _ _ flags.insecureTcp (fun v cfg => { cfg with insecureTcp := v })
    h2 fun v => hset _ h2 _ _ _ _
  have h4 := @Loaded.apply _ _ flags.container (fun v cfg => { cfg with container := v })
    h3 fun v => hset _ h3 _ _ _ _
  exact h4.apply fun v => hset _ h4 _ _ _ _

theorem loaded_applyTransports (h : Loaded cfg) (htransports : WellFormedModules transports) :
    Loaded (applyTransports flags transports cfg) := by
  unfold applyTransports
  split
  · exact h
  · exact h.withModules htransports

/-- The command line keeps what was loaded fit to be written. -/
theorem loaded_overlay (h : Loaded cfg) (htransports : WellFormedModules transports)
    (hoverlay : overlay env flags transports cfg = .ok cfg') : Loaded cfg' := by
  have hsettings : Loaded (applySettings env flags cfg) := loaded_applySettings h
  simp only [overlay] at hoverlay
  split at hoverlay
  · cases hoverlay
    exact loaded_applyTransports hsettings htransports
  · split at hoverlay
    · cases hoverlay
    · next policy hpolicy =>
      cases hoverlay
      refine loaded_applyTransports ?_ htransports
      exact ⟨⟨hsettings.protocols, hsettings.limits, hsettings.policy⟩, hsettings.named,
        hsettings.data⟩

/-- What is handed over is what was loaded and overlaid, normalised, and has passed the guard. -/
theorem legacyStarted_eq_some {yaml : YamlCpp} {filePath source : String} {file : ConfigFile}
    (h : (legacyStart yaml env flags filePath file).started = some (cfg, source)) :
    ∃ c, Loaded c ∧ cfg = normalise c ∧ plaintextOffender cfg = none := by
  simp only [legacyStart] at h
  split at h
  · cases h
  · next transports htransports =>
    have hlisted := wellFormedModules_moduleTransports _ wellFormedModules_empty htransports
    have hdisk : Loaded ((DaemonConfigFile.read yaml filePath file).1.getD {}) := by
      cases hread : (DaemonConfigFile.read yaml filePath file).1 with
      | none => exact loaded_defaults
      | some c => exact loaded_of_read hread
    split at h
    · cases h
    · next c hoverlay =>
      split at h
      · cases h
      · next hplain =>
        cases h
        exact ⟨c, loaded_overlay hdisk hlisted hoverlay, rfl, hplain⟩

/-- **What `logoscore -D` hands over can be written and read again.** -/
theorem loaded_of_legacyStarted {yaml : YamlCpp} {filePath source : String} {file : ConfigFile}
    (h : (legacyStart yaml env flags filePath file).started = some (cfg, source)) :
    Loaded cfg := by
  obtain ⟨c, hc, rfl, -⟩ := legacyStarted_eq_some h
  exact loaded_normalise hc

end Overlay

/-! ## 4. What is persisted -/

/-- The same listener: what its protocol uses is the same, an empty codec meaning json. -/
structure SameListener (t u : TransportInfo) : Prop where
  protocol : t.protocol = u.protocol
  network : t.protocol ≠ "local" →
    t.host = u.host ∧ t.port = u.port ∧ codecOrJson t.codec = codecOrJson u.codec
  tls : t.protocol = "tcp_ssl" → t.caFile = u.caFile ∧ t.verifyPeer = u.verifyPeer ∧
    t.certFile = u.certFile ∧ t.keyFile = u.keyFile

/-- The same configuration: its modules have the same listeners, in the same order, and everything
else is equal. -/
structure SameConfig (c d : DaemonConfig) : Prop where
  listeners : List.Forall₂ (fun e f => e.1 = f.1 ∧ List.Forall₂ SameListener e.2 f.2)
    c.modules.entries d.modules.entries
  rest : { c with modules := d.modules } = d

section Persisted

variable {cfg : DaemonConfig} {t : TransportInfo}

theorem codecOrJson_codecOrJson {codec : String} :
    codecOrJson (codecOrJson codec) = codecOrJson codec := by
  refine codecOrJson_eq_self_iff.mpr ?_
  unfold codecOrJson
  split
  · decide
  · next h => simpa using h

theorem sameListener_asWritten (hknown : isKnownProtocol t.protocol = true) :
    SameListener (t.asWritten true) t := by
  unfold TransportInfo.asWritten
  rcases isKnownProtocol_iff.mp hknown with hp | hp | hp
  · rw [if_neg (by simp [hp]), if_neg (by simp [hp])]
    exact ⟨rfl, fun h => absurd hp h, fun h => by simp [hp] at h⟩
  · rw [if_neg (by simp [hp]), if_pos hp]
    refine ⟨hp.symm, fun _ => ⟨rfl, rfl, codecOrJson_codecOrJson⟩, fun h => ?_⟩
    exact absurd (show "tcp" = "tcp_ssl" from h) (by decide)
  · rw [if_pos hp]
    exact ⟨rfl, fun _ => ⟨rfl, rfl, codecOrJson_codecOrJson⟩, fun _ => ⟨rfl, rfl, rfl, rfl⟩⟩

/-- With names and listeners everywhere, the modules that are kept are all of them. -/
theorem entries_asWritten (h : Loaded cfg) : (cfg.asWritten true).modules.entries =
    cfg.modules.entries.map fun e => (e.1, e.2.map (TransportInfo.asWritten true)) := by
  have hall : ∀ e ∈ cfg.modules.entries, (!e.1.isEmpty && !e.2.isEmpty) = true := by
    intro e he
    obtain ⟨hname, hts⟩ := h.named e.1 e.2 he
    simp [hname, hts]
  show ((cfg.modules.entries.filter fun e => !e.1.isEmpty && !e.2.isEmpty).map _) = _
  rw [List.filter_eq_self.mpr hall]

theorem sameConfig_asWritten (h : Loaded cfg) : SameConfig (cfg.asWritten true) cfg := by
  refine ⟨?_, ?_⟩
  · rw [entries_asWritten h, List.forall₂_map_left_iff]
    refine List.forall₂_same.mpr fun e he => ⟨rfl, ?_⟩
    rw [List.forall₂_map_left_iff]
    exact List.forall₂_same.mpr fun t ht => sameListener_asWritten (h.protocols e.1 e.2 he t ht)
  · have hdirs := dirs_asWritten_eq_self_iff.mpr h.data
    exact congrArg (fun dirs => { cfg with dirs := dirs }) hdirs

theorem isLocal_asWritten : isLocal (t.asWritten true) = isLocal t := by
  unfold isLocal TransportInfo.asWritten
  split
  · rfl
  · split
    · next h => rw [h]
    · rfl

theorem prependLocal_of_front {c : DaemonConfig} (h : ∀ e ∈ c.modules.entries,
    moveToFront isLocal { protocol := "local" } e.2 = e.2) : prependLocal c = c := by
  have hmodules : c.modules.mapValues (moveToFront isLocal { protocol := "local" }) = c.modules :=
    OrderedMap.ext (map_eq_self_iff.mpr fun e he => Prod.ext rfl (h e he))
  unfold prependLocal
  rw [hmodules]

/-- What is kept of a normalised configuration is normalised. -/
theorem normalise_asWritten (h : Loaded (normalise cfg)) :
    normalise ((normalise cfg).asWritten true) = (normalise cfg).asWritten true := by
  have hkeys : ((normalise cfg).asWritten true).modules.keys = (normalise cfg).modules.keys := by
    unfold OrderedMap.keys
    rw [entries_asWritten h, List.map_map]
    rfl
  have hknown : addWellKnown ((normalise cfg).asWritten true) = (normalise cfg).asWritten true := by
    obtain ⟨hcore, hcapability⟩ := @wellKnown_mem_keys cfg
    rw [← hkeys] at hcore hcapability
    unfold addWellKnown
    rw [OrderedMap.emplace_of_mem hcore, OrderedMap.emplace_of_mem hcapability]
  have hfront : ∀ e ∈ ((normalise cfg).asWritten true).modules.entries,
      moveToFront isLocal { protocol := "local" } e.2 = e.2 := by
    intro e he
    rw [entries_asWritten h] at he
    obtain ⟨e₀, he₀, rfl⟩ := List.mem_map.mp he
    obtain ⟨ts, -, hts⟩ := mem_normalise.mp he₀
    obtain ⟨front, rest, heq, hlocal⟩ :=
      @exists_moveToFront _ isLocal { protocol := "local" } rfl ts
    rw [heq] at hts
    rw [← hts]
    exact moveToFront_cons (isLocal_asWritten.trans hlocal) _
  show prependLocal (addWellKnown ((normalise cfg).asWritten true)) = _
  rw [hknown]
  exact prependLocal_of_front hfront

/-- The plaintext guard reads nothing that is left out. -/
theorem plaintextOffender_asWritten (h : Loaded cfg) (hplain : plaintextOffender cfg = none) :
    plaintextOffender (cfg.asWritten true) = none := by
  refine List.findSome?_eq_none_iff.mpr ?_
  intro e he
  rw [entries_asWritten h] at he
  obtain ⟨⟨name, ts⟩, hts, rfl⟩ := List.mem_map.mp he
  simp only [Option.map_eq_none_iff, List.find?_eq_none]
  intro t ht
  obtain ⟨t₀, ht₀, rfl⟩ := List.mem_map.mp ht
  have hsame := sameListener_asWritten (h.protocols name ts hts t₀ ht₀)
  by_cases hp : t₀.protocol = "tcp"
  · have hallowed := not_plaintext_of_none hplain hts ht₀ hp
    obtain ⟨hhost, -⟩ := hsame.network (by rw [hsame.protocol, hp]; decide)
    have hinsecure : (cfg.asWritten true).insecureTcp = cfg.insecureTcp := rfl
    rw [isPlaintextOffender, hhost, hinsecure]
    rcases hallowed with h | h <;> simp [h]
  · rw [isPlaintextOffender, hsame.protocol]
    simp [hp]

/-- **Persisting reproduces the run.**  Whatever the file said and whatever was on the command
line, the configuration the daemon runs with, written as JSON text that the YAML parser reads as
the same value, is read back; normalised again it is the same configuration, and it is what a
launch without flags hands over. -/
theorem persisted_config_reproduces {yaml : YamlCpp} {env : Surroundings} {flags : Flags}
    {filePath source : String} {file : ConfigFile} (env' : Surroundings) (jsonText : Json → String)
    (hstart : (legacyStart yaml env flags filePath file).started = some (cfg, source))
    (htext : parse yaml (jsonText (.obj (DaemonConfigFile.document cfg))) =
      .ok (.obj (DaemonConfigFile.document cfg))) :
    ∃ back, DaemonConfigFile.read yaml filePath
        (.text (jsonText (.obj (DaemonConfigFile.document cfg)))) = (some back, []) ∧
      SameConfig (normalise back) cfg ∧
      legacyStart yaml env' {} filePath
          (.text (jsonText (.obj (DaemonConfigFile.document cfg)))) =
        ⟨[], some (normalise back, "config.json")⟩ := by
  have hloaded := loaded_of_legacyStarted hstart
  obtain ⟨c, -, rfl, hplain⟩ := legacyStarted_eq_some hstart
  have hread := read_document filePath htext hloaded
  have hagain := normalise_asWritten hloaded
  refine ⟨_, hread, ?_, ?_⟩
  · rw [hagain]
    exact sameConfig_asWritten hloaded
  · simp only [legacyStart, moduleTransports, hread, overlay, applySettings, Flags.apply,
      applyTransports, Option.getD_some, List.isEmpty_nil, if_true, hagain,
      plaintextOffender_asWritten hloaded hplain]
    rfl

end Persisted

/-- A tcp listener and a data directory on the command line, and no file. -/
def flagged : Flags where
  persistencePath := some "data"
  moduleTransports := ["core_service=tcp,port=6000"]

/-- A shell in `/srv`. -/
def inSrv : Surroundings where
  absolute path := some ("/srv/" ++ path)
  readFile _ := none
  jsonError _ := none

/-- The configuration the daemon runs with. -/
def flaggedConfig : DaemonConfig where
  persistencePath := "/srv/data"
  dirs := { data := "/srv/data" }
  modules := OrderedMap.emplace "core_service" [{ protocol := "local" },
    { protocol := "tcp", host := "127.0.0.1", port := 6000 }]
    (OrderedMap.emplace "capability_module" [{ protocol := "local" }] ∅)

/-- What is persisted. -/
def flaggedText : String :=
  "\x7b
    \"dirs\": \x7b
        \"data\": \"/srv/data\"
    \x7d,
    \"insecure_tcp\": false,
    \"logging\": \x7b
        \"console\": true,
        \"enabled\": true,
        \"file\": \"daemon.log\",
        \"max_files\": 5,
        \"max_size_mb\": 10
    \x7d,
    \"modules\": \x7b
        \"capability_module\": \x7b
            \"transports\": [
                \x7b
                    \"protocol\": \"local\"
                \x7d
            ]
        \x7d,
        \"core_service\": \x7b
            \"transports\": [
                \x7b
                    \"protocol\": \"local\"
                \x7d,
                \x7b
                    \"codec\": \"json\",
                    \"host\": \"127.0.0.1\",
                    \"port\": 6000,
                    \"protocol\": \"tcp\"
                \x7d
            ]
        \x7d
    \x7d,
    \"modules_dirs\": [],
    \"persistence_path\": \"/srv/data\",
    \"ssl\": \x7b
        \"ca\": \"\",
        \"cert\": \"\",
        \"key\": \"\"
    \x7d,
    \"version\": 2
\x7d
"

/-- The parser on that text. -/
def flaggedYaml : YamlCpp :=
  (writing flaggedText (.obj (DaemonConfigFile.document flaggedConfig))).toYamlCpp

/-- The two flags are reproduced by the file. -/
theorem flags_reproduced : ∃ back,
    DaemonConfigFile.read flaggedYaml "daemon/config.json" (.text flaggedText) = (some back, []) ∧
      SameConfig (normalise back) flaggedConfig := by
  have hstart : (legacyStart flaggedYaml inSrv flagged "daemon/config.json" .absent).started =
      some (flaggedConfig, "cli") := by decide +kernel
  have htext := parse_writing flaggedText
    (@storable_document flaggedConfig ⟨by decide, by decide⟩)
  obtain ⟨back, hread, hsame, -⟩ := persisted_config_reproduces inSrv (fun _ => flaggedText)
    hstart htext
  exact ⟨back, hread, hsame⟩

end Logosctl
