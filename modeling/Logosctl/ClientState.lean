/-
# The client's configuration document

What `client/config.yaml` says: which token file to use, which daemon instance it belongs to, and
how to dial each module.  It is read as strictly as the daemon's document, by the same readers,
and what it hands over is an installable document that may still not be one to connect with.
-/
import Logosctl.DaemonConfig

namespace Logosctl

open Library JsonSchema

/-! ## 1. The state -/

def kClientStateSchemaVersion : Int := 2

/-- How the client dials one module. -/
structure ClientModuleTransport where
  protocol : String := ""
  host : String := ""
  port : UInt16 := 0
  codec : String := "json"
  caFile : String := ""
  verifyPeer : Bool := true
  deriving DecidableEq, Repr

structure ClientState where
  fileOk : Bool := false
  schemaVersion : Int := 0
  tokenFile : String := ""
  instanceId : String := ""
  daemon : OrderedMap String ClientModuleTransport := ∅
  deriving DecidableEq

/-! ## 2. The document -/

namespace ClientState

/-- Where and how to connect; nothing of it is read for a local module. -/
def endpointFields (r : Reader) (t : ClientModuleTransport) : Checked ClientModuleTransport :=
  if t.protocol = "local" then return t
  else do
    let host ← r.str "host"
    let port ← r.integer "port" 0 0 0xFFFF
    let codec ← r.str "codec" "json"
    return { t with host, port := .ofNat port.toNat, codec }

/-- What only TLS reads. -/
def tlsFields (r : Reader) (t : ClientModuleTransport) : Checked ClientModuleTransport :=
  if t.protocol = "tcp_ssl" then do
    let caFile ← r.str "ca"
    let verifyPeer ← r.boolean "verify_peer" true
    return { t with caFile, verifyPeer }
  else return t

def transportFromJson (j : Json) (path : String) : Checked (Option ClientModuleTransport) :=
  if !j.isObject then do
    mismatch path "a mapping describing one transport" j
    return none
  else do
    let r : Reader := ⟨j, path ++ "."⟩
    let protocol ← r.str "transport"
    if !isKnownProtocol protocol then
      note (r.path "transport" ++ ": expected one of \"local\", \"tcp\", \"tcp_ssl\"" ++
        (if protocol.isEmpty then ", but it is missing."
         else ", but got \"" ++ protocol ++ "\"."))
      return none
    else
      let t ← endpointFields r { protocol }
      let t ← tlsFields r t
      return if ← allOk then some t else none

/-- The entries of the `daemon` block. -/
def daemonFromJson (r : Reader) : List (String × Json) →
    OrderedMap String ClientModuleTransport →
    Checked (Option (OrderedMap String ClientModuleTransport))
  | [], acc => return some acc
  | (moduleName, j) :: rest, acc =>
    if moduleName.isEmpty then daemonFromJson r rest acc
    else do
      match ← transportFromJson j (r.path "daemon" ++ "." ++ moduleName) with
      | none => return none
      | some t => daemonFromJson r rest (acc.emplace moduleName t)

def daemonBlock (r : Reader) : Checked (Option (OrderedMap String ClientModuleTransport)) := do
  match ← r.mapping "daemon" with
  | none => return some ∅
  | some kvs => daemonFromJson r kvs ∅

/-- The fields after the version; none when the `daemon` block is refused. -/
def fields (obj : Json) (schemaVersion : Int) : Checked (Option ClientState) := do
  let r : Reader := ⟨obj, ""⟩
  let tokenFile ← r.str "token_file"
  let instanceId ← r.str "instance_id"
  match ← daemonBlock r with
  | none => return none
  | some daemon =>
    -- whether it is complete enough to connect with
    let fileOk := !daemon.entries.isEmpty && !tokenFile.isEmpty
    return if ← allOk then some { fileOk, schemaVersion, tokenFile, instanceId, daemon } else none

end ClientState

/-- `parseClientStateDocument`: the state, or the one-line reason for refusing the document. -/
def parseClientStateDocument (obj : Json) : Except String ClientState :=
  if !obj.isObject then .error "The config document must be a mapping at the top level."
  else
    let (v, errs) := (Reader.integer ⟨obj, ""⟩ "version" 0).run {}
    if !errs.ok then .error errs.message
    else
      let schemaVersion := Json.toInt32 v
      if schemaVersion ≠ kClientStateSchemaVersion then
        .error ("unsupported schema version " ++ toString schemaVersion ++
          " — relaunch the daemon to regenerate, or hand-edit (expected version " ++
          toString kClientStateSchemaVersion ++ ").")
      else
        match (ClientState.fields obj schemaVersion).run errs with
        | (none, errs) =>
          .error (if errs.ok then "the document could not be read." else errs.message)
        | (some state, _) => .ok state

/-! ## 3. The file -/

/-- `ClientStateFile::read`: what the flags of this run put together, if they did, and otherwise
what the file says; with it what is printed. -/
def ClientStateFile.read (yaml : YamlJson.YamlCpp) (filePath : String)
    (overrideSlot : Option ClientState) (file : ConfigFile) : ClientState × List String :=
  match overrideSlot, file with
  | some state, _ => (state, [])
  | none, .absent | none, .unreadable => ({}, [])
  | none, .text content =>
    match YamlJson.parse yaml content with
    | .error parseError =>
      ({}, ["ClientState: " ++ filePath ++ " is not valid YAML: " ++ parseError])
    | .ok parsed =>
      match parseClientStateDocument parsed with
      | .error error => ({}, ["ClientState: " ++ filePath ++ ": " ++ error])
      | .ok state => (state, [])

end Logosctl
