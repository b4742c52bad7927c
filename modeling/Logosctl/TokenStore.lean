/-
# The token store

The daemon's accepted tokens live in `tokens.json`, one entry for each name with the hash of its
token, and every operation of the store reads the whole file, changes the list in memory and
writes the whole file back.  Next to it stands one raw-token file for each name, staged under a
side path and moved into place after the list is committed.

What comes from outside is a parameter or an outcome: SHA-256 is `sha256`, and `Io` says for one
call what the random generator, the clock and each write, rename and remove did.  `tokens.json`
is taken as the document it holds; `dump` and `parse` are each other's inverse on the documents
the store writes.
-/
import Logosctl.Json
import Logosctl.Time
import Logosctl.Library.Program

namespace Logosctl.TokenStore

open Logosctl.Library

/-! ## 1. Entries and the file -/

/-- `TokenEntry`: one accepted token, by its hash. -/
structure TokenEntry where
  name : String
  hash : String
  issuedAt : String
  expiresAt : String
  localOnly : Bool
  deriving DecidableEq, Repr

/-- `tokens.json` as a reader finds it. -/
inductive FileContent
  | missing
  | unparseable
  | document (j : Json)

def kTokensFileSchemaVersion : Int := 2

/-- `tokenEntryToJson`.  An expiry that is not set is written as null. -/
def tokenEntryToJson (e : TokenEntry) : Json :=
  .obj [("expires_at", if e.expiresAt.isEmpty then .null else .str e.expiresAt),
    ("hash", .str e.hash), ("issued_at", .str e.issuedAt), ("local_only", .bool e.localOnly),
    ("name", .str e.name)]

/-- The read of `expires_at`: what is absent or null stands for no expiry. -/
def expiresAtFromJson (j : Json) : Except TypeError String :=
  match j.find? "expires_at" with
  | none => pure ""
  | some .null => pure ""
  | some _ => j.valueStr "expires_at"

/-- `tokenEntryFromJson`: none for what is not an entry, an exception for a member of the wrong
type. -/
def tokenEntryFromJson (j : Json) : Except TypeError (Option TokenEntry) :=
  if !j.isObject then pure none
  else do
    let name ← j.valueStr "name"
    let hash ← j.valueStr "hash"
    let issuedAt ← j.valueStr "issued_at"
    if name.isEmpty || hash.isEmpty then pure none
    else do
      let expiresAt ← expiresAtFromJson j
      let localOnly ← j.valueBool "local_only" false
      pure (some ⟨name, hash, issuedAt, expiresAt, localOnly⟩)

/-- The loop of `TokensFile::read` over the `tokens` array. -/
def readEntries : List Json → Except TypeError (List TokenEntry)
  | [] => pure []
  | j :: js => do
    let t ← tokenEntryFromJson j
    let rest ← readEntries js
    pure (t.toList ++ rest)

namespace TokensFile

/-- `TokensFile::read`. -/
def read : FileContent → Except TypeError (List TokenEntry)
  | .missing => pure []
  | .unparseable => pure []
  | .document obj => do
    let v ← obj.valueInt "version" 0
    if v ≠ kTokensFileSchemaVersion then pure []
    else
      match obj.find? "tokens" with
      | some (.arr xs) => readEntries xs
      | _ => pure []

/-- `TokensFile::onDiskVersionUnsupported`. -/
def onDiskVersionUnsupported : FileContent → Except TypeError Bool
  | .missing => pure false
  | .unparseable => pure false
  | .document obj =>
    if !obj.isObject then pure false
    else do
      let v ← obj.valueInt "version" 0
      pure (v != kTokensFileSchemaVersion)

/-- The document that `TokensFile::write` writes. -/
def toJson (tokens : List TokenEntry) : Json :=
  .obj [("tokens", .arr (tokens.map tokenEntryToJson)), ("version", .int kTokensFileSchemaVersion)]

end TokensFile

/-! ## 2. Generating, naming and hashing tokens -/

def kOutChars : Nat := 43

/-- The character of a 6-bit chunk. -/
def alpha (chunk : UInt32) : Char :=
  "ABCDEFGHIJKLMNOPQRSTUVWXYZabcdefghijklmnopqrstuvwxyz0123456789-_".toList.getD chunk.toNat 'A'

/-- The inner loop of `generateToken`: 6-bit chunks off the top of the `bits` low bits of `acc`. -/
def emitChunks (acc : UInt32) : Nat → List Char → Nat × List Char
  | bits + 6, s =>
    if s.length < kOutChars then
      emitChunks acc bits (s ++ [alpha ((acc >>> UInt32.ofNat bits) &&& 0x3F)])
    else (bits + 6, s)
  | bits, s => (bits, s)

/-- The outer loop of `generateToken`: the bytes into the accumulator, which is 32 bits wide. -/
def emitBytes : List UInt8 → UInt32 → Nat → List Char → UInt32 × Nat × List Char
  | [], acc, bits, s => (acc, bits, s)
  | byte :: raw, acc, bits, s =>
    if s.length < kOutChars then
      let acc := (acc <<< 8) ||| byte.toUInt32
      let (bits, s) := emitChunks acc (bits + 8) s
      emitBytes raw acc bits s
    else (acc, bits, s)

/-- `generateToken`, for what `RAND_bytes` answered; empty when it failed. -/
def generateToken : Option (Vector UInt8 32) → String
  | none => ""
  | some raw =>
    let (acc, bits, s) := emitBytes raw.toList 0 0 []
    if s.length < kOutChars ∧ 0 < bits then
      String.ofList (s ++ [alpha ((acc <<< UInt32.ofNat (6 - bits)) &&& 0x3F)])
    else String.ofList s

/-- `name.find("..") != npos`. -/
def hasDotDot : List Char → Bool
  | '.' :: '.' :: _ => true
  | _ :: cs => hasDotDot cs
  | [] => false

/-- `isSafeName`: what may stand as a file name under the tokens directory. -/
def isSafeName (name : String) : Bool :=
  if name.isEmpty || name.utf8ByteSize > 64 then false
  else if name.toList.head? == some '.' || name.toList.head? == some '-' then false
  else if !name.toList.all fun c => c.isAlphanum || c == '_' || c == '-' || c == '.' then false
  else if name == "." || name == ".." then false
  else !hasDotDot name.toList

def hexDigit (n : Nat) : Char := "0123456789abcdef".toList.getD n '0'

/-- `TokenStore::hashToken`: the digest in lower-case hex. -/
def hashToken (sha256 : String → Vector UInt8 32) (token : String) : String :=
  String.ofList ((sha256 token).toList.flatMap fun b =>
    [hexDigit (b.toNat / 16), hexDigit (b.toNat % 16)])

/-! ## 3. The directory, and what one call's system calls do -/

/-- The document of a raw-token file. -/
structure RawToken where
  name : String
  token : String
  issuedAt : String
  deriving DecidableEq, Repr

/-- A raw-token file: its whole document, or what an interrupted write left. -/
inductive RawFile
  | complete (t : RawToken)
  | cutShort
  deriving DecidableEq, Repr

/-- The files of the store: `tokens.json`, the raw-token files and their `.new` side files. -/
structure Dir where
  tokens : FileContent
  raw : String → Option RawFile
  side : String → Option RawFile

def Dir.setSide (d : Dir) (name : String) (f : Option RawFile) : Dir :=
  { d with side := fun n => if n = name then f else d.side n }

def Dir.setRaw (d : Dir) (name : String) (f : Option RawFile) : Dir :=
  { d with raw := fun n => if n = name then f else d.raw n }

@[simp] theorem Dir.setSide_tokens (d : Dir) (name : String) (f : Option RawFile) :
    (d.setSide name f).tokens = d.tokens := rfl

@[simp] theorem Dir.setRaw_tokens (d : Dir) (name : String) (f : Option RawFile) :
    (d.setRaw name f).tokens = d.tokens := rfl

/-- How the writing of a side file went. -/
inductive Staging
  | written
  | notOpened
  | interrupted
  deriving DecidableEq, Repr

/-- What the random generator, the clock and the system calls of one call do. -/
structure Io where
  random : Option (Vector UInt8 32)
  issuedAt : String
  staging : Staging
  committed : Bool
  sideRemoved : Bool
  renamed : Bool
  renamedAgain : Bool
  rawRemoved : Bool

/-- `writeRawTokenFile`, to the side path of `t.name`. -/
def writeRawTokenFile (io : Io) (t : RawToken) (d : Dir) : Bool × Dir :=
  match io.staging with
  | .written => (true, d.setSide t.name (some (.complete t)))
  | .notOpened => (false, d)
  | .interrupted => (false, d.setSide t.name (some .cutShort))

/-- `TokensFile::write`: the whole file, or nothing. -/
def TokensFile.write (io : Io) (tokens : List TokenEntry) (d : Dir) : Bool × Dir :=
  if io.committed then (true, { d with tokens := .document (TokensFile.toJson tokens) })
  else (false, d)

/-- Remove the side file, if the removal takes. -/
def dropSide (io : Io) (name : String) (d : Dir) : Dir :=
  if io.sideRemoved then d.setSide name none else d

/-- Rename the side file into place; there are two tries, and no file is nothing to rename. -/
def promote (io : Io) (name : String) (d : Dir) : Dir :=
  if (io.renamed || io.renamedAgain) && (d.side name).isSome then
    (d.setRaw name (d.side name)).setSide name none
  else d

/-- Remove the raw-token file, if the removal takes. -/
def dropRaw (io : Io) (name : String) (d : Dir) : Dir :=
  if io.rawRemoved then d.setRaw name none else d

/-! ## 4. The operations -/

inductive IssueStatus
  | ok
  | invalidName
  | alreadyExists
  | ioError
  deriving DecidableEq, Repr

structure IssueResult where
  status : IssueStatus
  token : String := ""
  deriving DecidableEq, Repr

inductive RevokeStatus
  | ok
  | invalidName
  | notFound
  | ioError
  deriving DecidableEq, Repr

/-- How `issueToken` and `revokeToken` both begin: a name that is not safe is refused, then a file
of another schema version, and then the list is read. -/
def withTokens {α : Type} (name : String) (invalidName ioError : α)
    (k : List TokenEntry → Prog Dir TypeError α) : Prog Dir TypeError α :=
  if !isSafeName name then pure invalidName
  else do
    let unsupported ← Prog.lift id (TokensFile.onDiskVersionUnsupported (← get).tokens)
    if unsupported then pure ioError
    else do
      let tokens ← Prog.lift id (TokensFile.read (← get).tokens)
      k tokens

section Operations

variable (sha256 : String → Vector UInt8 32)

/-- `issueToken` from the list it read to the list it writes: the first entry of the name is
replaced or in the way, and the new entry goes last, next to the token it is the hash of. -/
def issueEntries (io : Io) (name expiresAt : String) (localOnly replace : Bool)
    (tokens : List TokenEntry) : Except IssueResult (List TokenEntry × RawToken) :=
  if (tokens.any fun e => e.name == name) && !replace then throw { status := .alreadyExists }
  else
    let tokens := tokens.eraseP fun e => e.name == name
    let raw := generateToken io.random
    if raw.isEmpty then throw { status := .ioError }
    else pure (tokens ++ [⟨name, hashToken sha256 raw, io.issuedAt, expiresAt, localOnly⟩],
      ⟨name, raw, io.issuedAt⟩)

/-- `issueToken` from the change it decided on: stage the raw token, write the list, and move
the raw token into place.  A list that is not written takes the side file with it. -/
def commitIssue (io : Io) (name : String) (tokens : List TokenEntry) (raw : RawToken) :
    Prog Dir TypeError IssueResult := do
  let (staged, d) := writeRawTokenFile io raw (← get)
  set d
  if !staged then pure { status := .ioError }
  else do
    let (committed, d) := TokensFile.write io tokens (← get)
    set d
    if !committed then do
      modify (dropSide io name)
      pure { status := .ioError }
    else do
      modify (promote io name)
      pure { status := .ok, token := raw.token }

/-- `TokenStore::issueToken`. -/
def issueToken (io : Io) (name expiresAt : String) (localOnly replace : Bool) :
    Prog Dir TypeError IssueResult :=
  withTokens name { status := .invalidName } { status := .ioError } fun tokens =>
    match issueEntries sha256 io name expiresAt localOnly replace tokens with
    | .error r => pure r
    | .ok (tokens, raw) => commitIssue io name tokens raw

/-- `revokeToken` from the list it read to the list it writes: every entry of the name goes. -/
def revokeEntries (name : String) (tokens : List TokenEntry) :
    Except RevokeStatus (List TokenEntry) :=
  let rest := tokens.filter fun e => !(e.name == name)
  if rest.length = tokens.length then throw .notFound else pure rest

/-- `revokeToken` from the change it decided on. -/
def commitRevoke (io : Io) (name : String) (tokens : List TokenEntry) :
    Prog Dir TypeError RevokeStatus := do
  let (committed, d) := TokensFile.write io tokens (← get)
  set d
  if !committed then pure .ioError
  else do
    modify (dropRaw io name)
    pure .ok

/-- `TokenStore::revokeToken`. -/
def revokeToken (io : Io) (name : String) : Prog Dir TypeError RevokeStatus :=
  withTokens name .invalidName .ioError fun tokens =>
    match revokeEntries name tokens with
    | .error status => pure status
    | .ok tokens => commitRevoke io name tokens

/-- The loop of `lookupByToken`: the first entry with the hash decides. -/
def lookupHash (h transportProtocol : String) (now : Int) : List TokenEntry → Option String
  | [] => none
  | e :: tokens =>
    if e.hash ≠ h then lookupHash h transportProtocol now tokens
    else if Time.isExpired now e.expiresAt then none
    else if e.localOnly && transportProtocol != "local" then none
    else some e.name

/-- `TokenStore::lookupByToken`, at the time `now`. -/
def lookupByToken (file : FileContent) (token transportProtocol : String) (now : Int) :
    Except TypeError (Option String) :=
  if token.isEmpty then pure none
  else do
    let tokens ← TokensFile.read file
    pure (lookupHash (hashToken sha256 token) transportProtocol now tokens)

end Operations

/-- `IssuedToken`: what a listing shows of an entry. -/
structure IssuedToken where
  name : String
  issuedAt : String
  expiresAt : String
  localOnly : Bool
  rawFilePresent : Bool
  deriving DecidableEq, Repr

/-- `TokenStore::listTokens`. -/
def listTokens (d : Dir) : Except TypeError (List IssuedToken) := do
  let tokens ← TokensFile.read d.tokens
  pure (tokens.map fun e =>
    ⟨e.name, e.issuedAt, e.expiresAt, e.localOnly, (d.raw e.name).isSome⟩)

end Logosctl.TokenStore
