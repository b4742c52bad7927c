/-
# From the configuration file to the daemon

`daemon start` loads `daemon/config.yaml`, pushes the top-level `ssl` block into the listeners
that need it, gives every module a local listener in front, and lets two guards refuse plaintext
tcp on a foreign host and TLS without a certificate.  What passes is handed to `Daemon::start`.

Three results, one for each stage.  The normalisation keeps the operator's listeners in order and
is idempotent, but it moves only the first local entry it finds, so a module that names two keeps
the second (`normalise_iff`).  The two guards cover every listener of what is handed over, however
it was loaded (`started_guarded`).  And a file the loader rejects is treated like one that is not
there, so a daemon comes up on defaults beside a configuration it refused
(`rejected_config_iff`).
-/
import Logosctl.DaemonConfig
import Logosctl.Library.MoveToFront
import Mathlib.Data.List.Forall2

namespace Logosctl

open Library

/-! ## 1. Normalising the listeners -/

def isLocal (t : TransportInfo) : Bool := t.protocol == "local"

/-- The well-known modules at least have an entry. -/
def addWellKnown (cfg : DaemonConfig) : DaemonConfig :=
  { cfg with modules := (cfg.modules.emplace "core_service" []).emplace "capability_module" [] }

/-- Every module has a local listener in front: its own, or a fresh one. -/
def prependLocal (cfg : DaemonConfig) : DaemonConfig :=
  { cfg with modules := cfg.modules.mapValues (moveToFront isLocal { protocol := "local" }) }

/-- The boot normalisation, the same in both front-ends. -/
def normalise (cfg : DaemonConfig) : DaemonConfig := prependLocal (addWellKnown cfg)

/-- A list with one local entry, in front. -/
def OneLocalFirst (ts : List TransportInfo) : Prop :=
  ∃ t rest, ts = t :: rest ∧ isLocal t = true ∧ ∀ u ∈ rest, isLocal u = false

/-- What the normalisation is to achieve: `out` is `cfg` normalised. -/
structure IsNormalised (cfg out : DaemonConfig) : Prop where
  oneLocal : ∀ name ts, (name, ts) ∈ out.modules.entries → OneLocalFirst ts
  order : ∀ name ts, (name, ts) ∈ out.modules.entries →
    ∃ ts₀, ((name, ts₀) ∈ cfg.modules.entries ∨ (name ∉ cfg.modules.keys ∧ ts₀ = [])) ∧
      ts.filter (fun t => !isLocal t) = ts₀.filter (fun t => !isLocal t)
  wellKnown : "core_service" ∈ out.modules.keys ∧ "capability_module" ∈ out.modules.keys
  kept : cfg.modules.keys ⊆ out.modules.keys
  again : normalise out = out

section Normalise

variable {cfg : DaemonConfig} {name : String} {ts : List TransportInfo}

/-- An entry once the well-known modules have theirs. -/
theorem mem_addWellKnown (h : (name, ts) ∈ (addWellKnown cfg).modules.entries) :
    (name, ts) ∈ cfg.modules.entries ∨ (name ∉ cfg.modules.keys ∧ ts = []) := by
  rcases OrderedMap.mem_entries_emplace h with ⟨hkey, heq⟩ | h
  · obtain ⟨rfl, rfl⟩ := Prod.mk.inj heq
    exact Or.inr ⟨fun hmem => hkey (OrderedMap.keys_subset_emplace hmem), rfl⟩
  · rcases OrderedMap.mem_entries_emplace h with ⟨hkey, heq⟩ | h
    · obtain ⟨rfl, rfl⟩ := Prod.mk.inj heq
      exact Or.inr ⟨hkey, rfl⟩
    · exact Or.inl h

theorem entries_subset_addWellKnown :
    cfg.modules.entries ⊆ (addWellKnown cfg).modules.entries :=
  List.Subset.trans OrderedMap.entries_subset_emplace OrderedMap.entries_subset_emplace

theorem keys_normalise : (normalise cfg).modules.keys = (addWellKnown cfg).modules.keys :=
  OrderedMap.keys_mapValues

theorem mem_normalise :
    (name, ts) ∈ (normalise cfg).modules.entries ↔
      ∃ ts₀, (name, ts₀) ∈ (addWellKnown cfg).modules.entries ∧
        moveToFront isLocal { protocol := "local" } ts₀ = ts :=
  OrderedMap.mem_entries_mapValues

theorem wellKnown_mem_keys : "core_service" ∈ (normalise cfg).modules.keys ∧
    "capability_module" ∈ (normalise cfg).modules.keys := by
  rw [keys_normalise]
  exact ⟨OrderedMap.keys_subset_emplace OrderedMap.mem_keys_emplace, OrderedMap.mem_keys_emplace⟩

/-- **Normalising twice is normalising once.** -/
theorem normalise_normalise (cfg : DaemonConfig) : normalise (normalise cfg) = normalise cfg := by
  have hknown : addWellKnown (normalise cfg) = normalise cfg := by
    obtain ⟨hcore, hcapability⟩ := @wellKnown_mem_keys cfg
    unfold addWellKnown
    rw [OrderedMap.emplace_of_mem hcore, OrderedMap.emplace_of_mem hcapability]
  unfold normalise at hknown ⊢
  rw [hknown]
  have hfront : moveToFront isLocal { protocol := "local" } ∘
      moveToFront isLocal { protocol := "local" } =
      moveToFront isLocal { protocol := "local" } :=
    funext (moveToFront_moveToFront rfl)
  unfold prependLocal
  rw [OrderedMap.mapValues_mapValues, hfront]

/-- **When every module ends up with one local entry, in front.**  The rest of what the
normalisation is to achieve it always does; this it does exactly for the configurations in which
no module names more than one local entry. -/
theorem normalise_iff (cfg : DaemonConfig) :
    IsNormalised cfg (normalise cfg) ↔
      ∀ name ts, (name, ts) ∈ cfg.modules.entries → ts.countP isLocal ≤ 1 := by
  constructor
  · intro h name ts hmem
    have hfront : (name, moveToFront isLocal { protocol := "local" } ts) ∈
        (normalise cfg).modules.entries :=
      mem_normalise.mpr ⟨ts, entries_subset_addWellKnown hmem, rfl⟩
    exact (only_front_iff rfl ts).mp (h.oneLocal _ _ hfront)
  · intro h
    refine ⟨?_, ?_, wellKnown_mem_keys, ?_, normalise_normalise cfg⟩
    · intro name ts hmem
      obtain ⟨ts₀, hmem₀, rfl⟩ := mem_normalise.mp hmem
      refine (only_front_iff rfl ts₀).mpr ?_
      rcases mem_addWellKnown hmem₀ with hmem₀ | ⟨-, rfl⟩
      · exact h name ts₀ hmem₀
      · exact Nat.zero_le 1
    · intro name ts hmem
      obtain ⟨ts₀, hmem₀, rfl⟩ := mem_normalise.mp hmem
      exact ⟨ts₀, mem_addWellKnown hmem₀, filter_not_moveToFront rfl ts₀⟩
    · rw [keys_normalise]
      exact List.map_subset _ entries_subset_addWellKnown

end Normalise

/-- A document in which `core_service` names two local entries around a tcp one. -/
def doubledDocument : Json := .obj [("modules", .obj [("core_service", .arr [
    .obj [("protocol", .str "local")],
    .obj [("host", .str "127.0.0.1"), ("port", .int 6001), ("protocol", .str "tcp")],
    .obj [("protocol", .str "local")]])]), ("version", .int 2)]

/-- The configuration it denotes. -/
def doubled : DaemonConfig where
  modules := OrderedMap.emplace "core_service" [{ protocol := "local" },
    { protocol := "tcp", host := "127.0.0.1", port := 6001 }, { protocol := "local" }] ∅

/-- **A second local entry survives.**  The loader accepts the document, and after the
normalisation `core_service` has a local entry in front and another one at its end. -/
theorem second_local_survives :
    parseDaemonConfigDocument doubledDocument = .ok doubled ∧
      ("core_service", [{ protocol := "local" },
        { protocol := "tcp", host := "127.0.0.1", port := 6001 }, { protocol := "local" }]) ∈
        (normalise doubled).modules.entries ∧
      ¬ IsNormalised doubled (normalise doubled) := by
  have hmem : ("core_service", [{ protocol := "local" },
      { protocol := "tcp", host := "127.0.0.1", port := 6001 }, { protocol := "local" }]) ∈
      (normalise doubled).modules.entries := by decide +kernel
  refine ⟨by decide +kernel, hmem, ?_⟩
  intro h
  obtain ⟨t, rest, heq, -, hrest⟩ := h.oneLocal _ _ hmem
  obtain ⟨-, rfl⟩ := List.cons.inj heq
  have hlast := hrest { protocol := "local" } (by simp)
  cases hlast

/-! ## 2. The `ssl` block and the two guards -/

/-- `if (own.empty()) own = dflt`. -/
def orDefault (own dflt : String) : String := if own.isEmpty then dflt else own

/-- A listener with the session-wide TLS material where it has none of its own. -/
def withSslDefaults (cfg : DaemonConfig) (t : TransportInfo) : TransportInfo :=
  if t.protocol ≠ "tcp_ssl" then t
  else { t with
    certFile := orDefault t.certFile cfg.sslCert
    keyFile := orDefault t.keyFile cfg.sslKey
    caFile := orDefault t.caFile cfg.sslCa }

/-- `applySslDefaults`. -/
def applySslDefaults (cfg : DaemonConfig) : DaemonConfig :=
  if cfg.sslCert.isEmpty && cfg.sslKey.isEmpty && cfg.sslCa.isEmpty then cfg
  else { cfg with modules := cfg.modules.mapValues (List.map (withSslDefaults cfg)) }

def isLoopback (h : String) : Bool := h == "127.0.0.1" || h == "::1" || h == "localhost"

/-- A listener the plaintext guard stops at. -/
def isPlaintextOffender (cfg : DaemonConfig) (t : TransportInfo) : Bool :=
  t.protocol == "tcp" && !isLoopback t.host && !cfg.insecureTcp

/-- The first listener the plaintext guard stops at, with its module. -/
def plaintextOffender (cfg : DaemonConfig) : Option (String × TransportInfo) :=
  cfg.modules.entries.findSome? fun (moduleName, transports) =>
    (transports.find? (isPlaintextOffender cfg)).map fun t => (moduleName, t)

def lacksMaterial (t : TransportInfo) : Bool :=
  t.protocol == "tcp_ssl" && (t.certFile.isEmpty || t.keyFile.isEmpty)

/-- Every `tcp_ssl` listener without a certificate or a key, one line each. -/
def findTlsListenersMissingMaterial (cfg : DaemonConfig) : List String :=
  cfg.modules.entries.flatMap fun (moduleName, transports) =>
    (transports.filter lacksMaterial).map fun t =>
      moduleName ++ " tcp_ssl " ++ t.host ++ ":" ++ toString t.port.toNat

section Guards

variable {cfg : DaemonConfig} {name : String} {ts : List TransportInfo} {t : TransportInfo}

/-- Only TLS listeners have anywhere to put the material. -/
theorem withSslDefaults_of_ne (h : t.protocol ≠ "tcp_ssl") : withSslDefaults cfg t = t := if_pos h

@[simp] theorem protocol_withSslDefaults : (withSslDefaults cfg t).protocol = t.protocol := by
  unfold withSslDefaults
  split <;> rfl

@[simp] theorem orDefault_empty (own : String) : orDefault own "" = own := by
  unfold orDefault
  split
  · next h => exact (String.isEmpty_iff.mp h).symm
  · rfl

@[simp] theorem orDefault_orDefault (own dflt : String) :
    orDefault (orDefault own dflt) dflt = orDefault own dflt := by
  unfold orDefault
  split
  · split <;> rfl
  · rfl

theorem withSslDefaults_withSslDefaults :
    withSslDefaults cfg (withSslDefaults cfg t) = withSslDefaults cfg t := by
  by_cases h : t.protocol = "tcp_ssl"
  · simp [withSslDefaults, h]
  · rw [withSslDefaults_of_ne h, withSslDefaults_of_ne h]

/-- The block as a whole: a listener of the result is a listener of the configuration, with the
material it lacked, also when there was no material to give. -/
theorem mem_applySslDefaults :
    (name, ts) ∈ (applySslDefaults cfg).modules.entries ↔
      ∃ ts₀, (name, ts₀) ∈ cfg.modules.entries ∧ ts₀.map (withSslDefaults cfg) = ts := by
  unfold applySslDefaults
  split
  · next hempty =>
    simp only [Bool.and_eq_true, String.isEmpty_iff] at hempty
    obtain ⟨⟨hcert, hkey⟩, hca⟩ := hempty
    have hid : withSslDefaults cfg = id := by
      funext u
      unfold withSslDefaults
      rw [hcert, hkey, hca]
      simp
    simp [hid]
  · exact OrderedMap.mem_entries_mapValues

/-- **Applying the block twice is applying it once.** -/
theorem applySslDefaults_applySslDefaults (cfg : DaemonConfig) :
    applySslDefaults (applySslDefaults cfg) = applySslDefaults cfg := by
  by_cases h : (cfg.sslCert.isEmpty && cfg.sslKey.isEmpty && cfg.sslCa.isEmpty) = true
  · have hid : applySslDefaults cfg = cfg := if_pos h
    rw [hid, hid]
  · have hone : (applySslDefaults cfg).modules =
        cfg.modules.mapValues (List.map (withSslDefaults cfg)) := by
      rw [applySslDefaults, if_neg h]
    have htwo : (applySslDefaults (applySslDefaults cfg)) =
        { applySslDefaults cfg with modules :=
            (applySslDefaults cfg).modules.mapValues (List.map (withSslDefaults cfg)) } := by
      simp only [applySslDefaults, if_neg h]
      rfl
    have hfill : List.map (withSslDefaults cfg) ∘ List.map (withSslDefaults cfg) =
        List.map (withSslDefaults cfg) := by
      funext us
      simp [withSslDefaults_withSslDefaults]
    rw [htwo, hone, OrderedMap.mapValues_mapValues, hfill, ← hone]

theorem not_plaintext_of_none (h : plaintextOffender cfg = none)
    (hts : (name, ts) ∈ cfg.modules.entries) (ht : t ∈ ts) (hp : t.protocol = "tcp") :
    isLoopback t.host = true ∨ cfg.insecureTcp = true := by
  have hnone := List.findSome?_eq_none_iff.mp h _ hts
  simp only [Option.map_eq_none_iff, List.find?_eq_none] at hnone
  have hno := hnone t ht
  simp only [isPlaintextOffender, hp, beq_self_eq_true, Bool.true_and, Bool.and_eq_true,
    Bool.not_eq_true', not_and_or, Bool.not_eq_false] at hno
  exact hno

theorem material_of_nil (h : findTlsListenersMissingMaterial cfg = [])
    (hts : (name, ts) ∈ cfg.modules.entries) (ht : t ∈ ts) (hp : t.protocol = "tcp_ssl") :
    t.certFile ≠ "" ∧ t.keyFile ≠ "" := by
  have hnil := List.flatMap_eq_nil_iff.mp h _ hts
  simp only [List.map_eq_nil_iff, List.filter_eq_nil_iff] at hnil
  have hno := hnil t ht
  simp only [lacksMaterial, hp, beq_self_eq_true, Bool.true_and, Bool.or_eq_true,
    String.isEmpty_iff, not_or] at hno
  exact hno

end Guards

/-! ## 3. What is handed to `Daemon::start` -/

/-- Configuration comes solely from the file; without one that can be read, it is defaults.  With
it comes what names its source, and what loading printed. -/
def loadConfig (yaml : YamlJson.YamlCpp) (filePath : String) (file : ConfigFile) :
    DaemonConfig × String × List String :=
  match DaemonConfigFile.read yaml filePath file with
  | (some disk, stderr) => (disk, "config.yaml", stderr)
  | (none, stderr) => ({}, "defaults", stderr)

/-- How `daemon start` gets as far as `Daemon::start`: what it printed, and the configuration and
its source that it hands over.  Without one it exits with 1. -/
structure BootRun where
  stderr : List String
  started : Option (DaemonConfig × String)
  deriving DecidableEq

def daemonStart (yaml : YamlJson.YamlCpp) (filePath : String) (file : ConfigFile) : BootRun :=
  let (cfg, configSource, stderr) := loadConfig yaml filePath file
  let mergedCfg := normalise (applySslDefaults cfg)
  match plaintextOffender mergedCfg with
  | some (moduleName, t) =>
    ⟨stderr ++ ["Error: module '" ++ moduleName ++ "' binds plaintext tcp on non-loopback host '" ++
      t.host ++ "'. Use protocol: tcp_ssl, or set insecure_tcp: true in the daemon config if " ++
      "you really mean it."], none⟩
  | none =>
    match findTlsListenersMissingMaterial mergedCfg with
    | [] => ⟨stderr, some (mergedCfg, configSource)⟩
    | missing =>
      ⟨stderr ++ missing.map fun who => "Error: " ++ who ++ " has no certificate/key. " ++
        "Set cert: and key: on the listener, or a top-level ssl: \x7b cert, key \x7d block to " ++
        "cover every tcp_ssl listener at once.", none⟩

section Started

variable {yaml : YamlJson.YamlCpp} {filePath : String} {file : ConfigFile} {cfg : DaemonConfig}
  {source : String}

/-- What is handed over is the configuration loaded, normalised, and has passed both guards. -/
theorem started_eq_some_iff :
    (daemonStart yaml filePath file).started = some (cfg, source) ↔
      cfg = normalise (applySslDefaults (loadConfig yaml filePath file).1) ∧
        source = (loadConfig yaml filePath file).2.1 ∧ plaintextOffender cfg = none ∧
        findTlsListenersMissingMaterial cfg = [] := by
  unfold daemonStart
  rcases loadConfig yaml filePath file with ⟨c, s, lines⟩
  dsimp only
  cases hplain : plaintextOffender (normalise (applySslDefaults c)) with
  | some offender =>
    refine iff_of_false nofun ?_
    rintro ⟨rfl, -, hnone, -⟩
    rw [hplain] at hnone
    cases hnone
  | none =>
    cases hmissing : findTlsListenersMissingMaterial (normalise (applySslDefaults c)) with
    | nil =>
      constructor
      · rintro ⟨⟩
        exact ⟨rfl, rfl, hplain, hmissing⟩
      · rintro ⟨rfl, rfl, -, -⟩
        rfl
    | cons who missing =>
      refine iff_of_false nofun ?_
      rintro ⟨rfl, -, -, hnil⟩
      rw [hmissing] at hnil
      cases hnil

/-- A listener that is not local, after the normalisation, was one before it. -/
theorem mem_of_mem_normalise {c : DaemonConfig} {name : String} {ts : List TransportInfo}
    {t : TransportInfo} (hts : (name, ts) ∈ (normalise c).modules.entries) (ht : t ∈ ts)
    (hlocal : isLocal t = false) : ∃ ts₀, (name, ts₀) ∈ c.modules.entries ∧ t ∈ ts₀ := by
  obtain ⟨ts₀, hts₀, rfl⟩ := mem_normalise.mp hts
  have hmem : t ∈ (moveToFront isLocal { protocol := "local" } ts₀).filter
      (fun u => !isLocal u) := List.mem_filter.mpr ⟨ht, by simp [hlocal]⟩
  rw [filter_not_moveToFront rfl] at hmem
  have ht₀ := (List.mem_filter.mp hmem).1
  rcases mem_addWellKnown hts₀ with hts₀ | ⟨-, rfl⟩
  · exact ⟨ts₀, hts₀, ht₀⟩
  · cases ht₀

/-- **The two guards cover everything that is handed over.**  Whatever the file contains, in a
configuration given to `Daemon::start` every plaintext listener is on a loopback host or was
allowed explicitly, and every TLS listener has a certificate and a key: its own paths where the
configuration loaded gives some, and the `ssl` block's where it does not.  Listeners of other
protocols the block leaves alone, and applying it again changes nothing. -/
theorem started_guarded
    (h : (daemonStart yaml filePath file).started = some (cfg, source)) :
    (∀ name ts t, (name, ts) ∈ cfg.modules.entries → t ∈ ts → t.protocol = "tcp" →
        isLoopback t.host = true ∨ cfg.insecureTcp = true) ∧
      (∀ name ts t, (name, ts) ∈ cfg.modules.entries → t ∈ ts → t.protocol = "tcp_ssl" →
        (t.certFile ≠ "" ∧ t.keyFile ≠ "") ∧
          ∃ ts₀ t₀, (name, ts₀) ∈ (loadConfig yaml filePath file).1.modules.entries ∧ t₀ ∈ ts₀ ∧
            t = { t₀ with
              certFile := orDefault t₀.certFile (loadConfig yaml filePath file).1.sslCert
              keyFile := orDefault t₀.keyFile (loadConfig yaml filePath file).1.sslKey
              caFile := orDefault t₀.caFile (loadConfig yaml filePath file).1.sslCa }) ∧
      (∀ c name ts₀, (name, ts₀) ∈ c.modules.entries →
        ∃ ts, (name, ts) ∈ (applySslDefaults c).modules.entries ∧
          List.Forall₂ (fun t₀ t => t₀.protocol ≠ "tcp_ssl" → t = t₀) ts₀ ts) ∧
      ∀ c, applySslDefaults (applySslDefaults c) = applySslDefaults c := by
  obtain ⟨rfl, -, hplain, hmissing⟩ := started_eq_some_iff.mp h
  refine ⟨?_, ?_, ?_, applySslDefaults_applySslDefaults⟩
  · intro name ts t hts ht hp
    exact not_plaintext_of_none hplain hts ht hp
  · intro name ts t hts ht hp
    refine ⟨material_of_nil hmissing hts ht hp, ?_⟩
    obtain ⟨ts₁, hts₁, ht₁⟩ := mem_of_mem_normalise hts ht (by simp [isLocal, hp])
    obtain ⟨ts₀, hts₀, rfl⟩ := mem_applySslDefaults.mp hts₁
    obtain ⟨t₀, ht₀, rfl⟩ := List.mem_map.mp ht₁
    refine ⟨ts₀, t₀, hts₀, ht₀, ?_⟩
    rw [protocol_withSslDefaults] at hp
    exact if_neg (not_not.mpr hp)
  · intro c name ts₀ hts₀
    refine ⟨ts₀.map (withSslDefaults c), mem_applySslDefaults.mpr ⟨ts₀, hts₀, rfl⟩, ?_⟩
    rw [List.forall₂_map_right_iff]
    exact List.forall₂_same.mpr fun t _ hne => withSslDefaults_of_ne hne

end Started

/-- A YAML parser that reads every text as the given node, with the scalars used below. -/
def readingAs (root : YamlJson.Node) : YamlJson.YamlCpp where
  load _ := .ok root
  asString
    | .scalar _ value => .ok value
    | _ => .error "bad conversion"
  toBool
    | "true" => some true
    | "false" => some false
    | _ => none
  toInt64
    | "2" => some 2
    | "8645" => some 8645
    | _ => none
  toDouble _ := none

/-- A scalar as the author typed it, without quotes. -/
def plain (value : String) : YamlJson.Node := .scalar "?" value

/-- A TLS listener of `core_service` without material of its own, and an `ssl` block. -/
def tlsRoot : YamlJson.Node := .map [(plain "version", plain "2"),
  (plain "modules", .map [(plain "core_service", .sequence [.map [(plain "protocol", plain "tcp_ssl"),
    (plain "host", plain "0.0.0.0"), (plain "port", plain "8645")]])]),
  (plain "ssl", .map [(plain "cert", plain "/tls/node.crt"), (plain "key", plain "/tls/node.key")])]

/-- The listener the daemon binds. -/
def tlsListener : TransportInfo where
  protocol := "tcp_ssl"
  host := "0.0.0.0"
  port := 8645
  certFile := "/tls/node.crt"
  keyFile := "/tls/node.key"

/-- The daemon starts on that document, its listener with the block's certificate and key. -/
theorem tls_listener_guarded :
    ∃ cfg, (daemonStart (readingAs tlsRoot) "daemon/config.yaml" (.text "")).started =
        some (cfg, "config.yaml") ∧
      ("core_service", [{ protocol := "local" }, tlsListener]) ∈ cfg.modules.entries ∧
      tlsListener.certFile ≠ "" ∧ tlsListener.keyFile ≠ "" := by
  obtain ⟨cfg, hcfg⟩ : ∃ cfg, (daemonStart (readingAs tlsRoot) "daemon/config.yaml"
      (.text "")).started = some (cfg, "config.yaml") :=
    ⟨{ sslCert := "/tls/node.crt", sslKey := "/tls/node.key",
       modules := ((OrderedMap.emplace "core_service" [{ protocol := "local" }, tlsListener]
         ∅).emplace "capability_module" [{ protocol := "local" }]) }, by decide +kernel⟩
  have hmem : ("core_service", [{ protocol := "local" }, tlsListener]) ∈ cfg.modules.entries := by
    obtain ⟨rfl, -⟩ := started_eq_some_iff.mp hcfg
    decide +kernel
  exact ⟨cfg, hcfg, hmem,
    ((started_guarded hcfg).2.1 "core_service" _ tlsListener hmem (by simp) rfl).1⟩

/-! ## 4. A file that is rejected -/

/-- The daemon that comes up runs with what the file says, or with defaults where there is no
file.  `comesUp` is what becomes of a configuration handed to `Daemon::start`. -/
def Honours (yaml : YamlJson.YamlCpp) (filePath : String) (file : ConfigFile)
    (comesUp : DaemonConfig → Bool) : Prop :=
  ∀ cfg source, (daemonStart yaml filePath file).started = some (cfg, source) →
    comesUp cfg = true →
      (∃ c, (DaemonConfigFile.read yaml filePath file).1 = some c ∧
        cfg = normalise (applySslDefaults c)) ∨
      (file = .absent ∧ cfg = normalise (applySslDefaults {}))

section Rejected

variable {yaml : YamlJson.YamlCpp} {filePath : String} {file : ConfigFile}

/-- A file that is rejected is loaded as the defaults. -/
theorem loadConfig_of_none (h : (DaemonConfigFile.read yaml filePath file).1 = none) :
    (loadConfig yaml filePath file).1 = {} := by
  unfold loadConfig
  rcases hread : DaemonConfigFile.read yaml filePath file with ⟨found, lines⟩
  rw [hread] at h
  cases h
  rfl

theorem loadConfig_of_some {c : DaemonConfig}
    (h : (DaemonConfigFile.read yaml filePath file).1 = some c) :
    (loadConfig yaml filePath file).1 = c := by
  unfold loadConfig
  rcases hread : DaemonConfigFile.read yaml filePath file with ⟨found, lines⟩
  rw [hread] at h
  cases h
  rfl

/-- The defaults pass both guards. -/
theorem defaults_pass : plaintextOffender (normalise (applySslDefaults {})) = none ∧
    findTlsListenersMissingMaterial (normalise (applySslDefaults {})) = [] := by
  decide +kernel

/-- **When a rejected configuration never boots weaker.**  Either there is no file, or the loader
accepts it, or the daemon would not come up on the defaults either. -/
theorem rejected_config_iff (comesUp : DaemonConfig → Bool) :
    Honours yaml filePath file comesUp ↔
      file = .absent ∨ (∃ c, (DaemonConfigFile.read yaml filePath file).1 = some c) ∨
        comesUp (normalise (applySslDefaults {})) = false := by
  constructor
  · intro h
    by_contra hnot
    simp only [not_or, Bool.not_eq_false] at hnot
    obtain ⟨hfile, hread, hup⟩ := hnot
    have hnone : (DaemonConfigFile.read yaml filePath file).1 = none := by
      cases hfound : (DaemonConfigFile.read yaml filePath file).1 with
      | none => rfl
      | some c => exact absurd ⟨c, hfound⟩ hread
    have hstarted : (daemonStart yaml filePath file).started =
        some (normalise (applySslDefaults {}), (loadConfig yaml filePath file).2.1) := by
      refine started_eq_some_iff.mpr ⟨?_, rfl, defaults_pass⟩
      rw [loadConfig_of_none hnone]
    rcases h _ _ hstarted hup with ⟨c, hsome, -⟩ | ⟨habsent, -⟩
    · exact hread ⟨c, hsome⟩
    · exact hfile habsent
  · intro h cfg source hstarted hup
    obtain ⟨hcfg, -⟩ := started_eq_some_iff.mp hstarted
    cases hfound : (DaemonConfigFile.read yaml filePath file).1 with
    | some c =>
      rw [loadConfig_of_some hfound] at hcfg
      exact Or.inl ⟨c, rfl, hcfg⟩
    | none =>
      rw [loadConfig_of_none hfound] at hcfg
      rcases h with habsent | ⟨c, hsome⟩ | hdown
      · exact Or.inr ⟨habsent, hcfg⟩
      · rw [hfound] at hsome
        cases hsome
      · rw [hcfg, hdown] at hup
        cases hup

end Rejected

/-- A hardened configuration with one slip: a scalar where a list belongs. -/
def hardenedRoot : YamlJson.Node := .map [(plain "version", plain "2"),
  (plain "modules_dirs", plain "/single/path"), (plain "signature_policy", plain "require"),
  (plain "access_policy", plain "./policy.json")]

/-- **A hardened daemon comes up unhardened.**  The loader refuses the document and says why, and
the daemon is started all the same, on the defaults. -/
theorem hardened_config_dropped :
    daemonStart (readingAs hardenedRoot) "daemon/config.yaml" (.text "") =
        ⟨["DaemonConfig: daemon/config.yaml: modules_dirs: expected a list of strings, but got " ++
          "a string."], some (normalise {}, "defaults")⟩ ∧
      ¬ Honours (readingAs hardenedRoot) "daemon/config.yaml" (.text "") fun _ => true := by
  have hrun : daemonStart (readingAs hardenedRoot) "daemon/config.yaml" (.text "") =
      ⟨["DaemonConfig: daemon/config.yaml: modules_dirs: expected a list of strings, but got " ++
        "a string."], some (normalise {}, "defaults")⟩ := by decide +kernel
  have hnone : (DaemonConfigFile.read (readingAs hardenedRoot) "daemon/config.yaml"
      (.text "")).1 = none := by decide +kernel
  refine ⟨hrun, ?_⟩
  intro h
  rcases h (normalise {}) "defaults" (by rw [hrun]) rfl with ⟨c, hc, -⟩ | ⟨habsent, -⟩
  · rw [hnone] at hc
    cases hc
  · cases habsent

end Logosctl
