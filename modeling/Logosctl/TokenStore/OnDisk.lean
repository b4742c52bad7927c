/-
# The token store, system call by system call

The calls of the store on the files themselves.  Each open, write, close, change of mode, rename and
remove goes well or fails on its own (`DiskIo`), a failed write leaves anything behind, and a read
of `tokens.json` whose open fails looks like a read of no file.  Every place that a call writes,
renames or removes is logged.

A file holds documents: whole ones, or what is left of them.  `TokensFile.write` here is one run of
the writer of `TokenStore.Publishing` with no other beside it (`write_is_solo`); and with both
opens of `tokens.json` going well a call does to the document what it does in `TokenStore`
(`perform_refines`).
-/
import Logosctl.TokenStore.Publishing
import Logosctl.TokenStore.Interleaving

namespace Logosctl.TokenStore.OnDisk

open Logosctl.Library

/-! ## 1. Paths -/

/-- `Config::daemonTokensDir`. -/
def daemonTokensDir (daemonDir : String) : String := daemonDir ++ "/tokens"

/-- `TokenStore::rawTokenFilePath`. -/
def rawTokenFilePath (daemonDir name : String) : String :=
  daemonTokensDir daemonDir ++ "/" ++ name ++ ".json"

/-- The side file beside it. -/
def rawNewPath (daemonDir name : String) : String := rawTokenFilePath daemonDir name ++ ".new"

section Paths

variable (daemonDir : String)

/-- Where `tokens.json` is. -/
def tokensPlace : Place := resolve (TokensFile.filePath daemonDir)

/-- Where the raw-token file of a name is. -/
def rawPlace (name : String) : Place := resolve (rawTokenFilePath daemonDir name)

/-- Where its side file is. -/
def sidePlace (name : String) : Place := resolve (rawNewPath daemonDir name)

/-- Where the temp of `tokens.json` is. -/
def tmpPlace : Place := resolve (TokensFile.tmpPath daemonDir)

theorem tokensPlace_eq : tokensPlace daemonDir = resolve daemonDir ++ ["tokens.json"] :=
  TokensFile.resolve_filePath daemonDir

theorem tmpPlace_eq : tmpPlace daemonDir = resolve daemonDir ++ ["tokens.json.tmp"] :=
  TokensFile.resolve_tmpPath daemonDir

theorem tmpPlace_ne : tmpPlace daemonDir ≠ tokensPlace daemonDir :=
  (TokensFile.target daemonDir).ne

variable {daemonDir} {name : String}

/-- A safe name has no slash. -/
theorem not_slash_of_isSafeName (h : isSafeName name = true) : '/' ∉ name.toList := by
  intro hmem
  unfold isSafeName at h
  split at h
  · cases h
  · split at h
    · cases h
    · split at h
      · cases h
      · rename_i hall
        simp only [Bool.not_eq_true', Bool.not_eq_false, List.all_eq_true] at hall
        exact absurd (hall '/' hmem) (by decide)

/-- A name without a slash is a file name with its extension: it leads nowhere else. -/
theorem isFileName_append (h : '/' ∉ name.toList) (ext : String)
    (hext : '/' ∉ ext.toList) (hlen : 3 ≤ ext.length) : IsFileName (name ++ ext) := by
  have hlong : ∀ s : String, s.length < 3 → name ++ ext ≠ s := by
    intro s hs heq
    have hlength := congrArg String.length heq
    rw [String.length_append] at hlength
    omega
  refine ⟨?_, hlong "" (by decide), hlong "." (by decide), hlong ".." (by decide)⟩
  rw [String.toList_append, List.mem_append, not_or]
  exact ⟨h, hext⟩

theorem resolve_tokensDir (daemonDir : String) :
    resolve (daemonTokensDir daemonDir) = resolve daemonDir ++ ["tokens"] := by
  have h := resolve_entry daemonDir "tokens" (by decide)
  rwa [String.append_assoc] at h

/-- The raw-token file of such a name is an entry of the tokens directory. -/
theorem rawPlace_eq (h : '/' ∉ name.toList) :
    rawPlace daemonDir name = resolve daemonDir ++ ["tokens", name ++ ".json"] := by
  have hentry := resolve_entry (daemonTokensDir daemonDir) (name ++ ".json")
    (isFileName_append h ".json" (by decide) (by decide))
  rw [resolve_tokensDir, ← String.append_assoc] at hentry
  rw [rawPlace, rawTokenFilePath, hentry, List.append_assoc]
  rfl

/-- So is its side file. -/
theorem sidePlace_eq (h : '/' ∉ name.toList) :
    sidePlace daemonDir name = resolve daemonDir ++ ["tokens", name ++ ".json.new"] := by
  have hentry := resolve_entry (daemonTokensDir daemonDir) (name ++ ".json.new")
    (isFileName_append h ".json.new" (by decide) (by decide))
  have hext : ".json.new" = ".json" ++ ".new" := by decide
  rw [resolve_tokensDir, hext, ← String.append_assoc, ← String.append_assoc] at hentry
  rw [sidePlace, rawNewPath, rawTokenFilePath, hentry, List.append_assoc, hext]
  rfl

/-- No two of the places of the store are one, for whatever names. -/
theorem sidePlace_ne_tokensPlace (h : '/' ∉ name.toList) :
    sidePlace daemonDir name ≠ tokensPlace daemonDir := by
  rw [sidePlace_eq h, tokensPlace_eq]
  simp

theorem rawPlace_ne_tokensPlace (h : '/' ∉ name.toList) :
    rawPlace daemonDir name ≠ tokensPlace daemonDir := by
  rw [rawPlace_eq h, tokensPlace_eq]
  simp

theorem rawPlace_ne_tmpPlace (h : '/' ∉ name.toList) :
    rawPlace daemonDir name ≠ tmpPlace daemonDir := by
  rw [rawPlace_eq h, tmpPlace_eq]
  simp

theorem rawPlace_ne_sidePlace {m : String} (hm : '/' ∉ m.toList)
    (h : '/' ∉ name.toList) : rawPlace daemonDir m ≠ sidePlace daemonDir name := by
  rw [rawPlace_eq hm, sidePlace_eq h]
  intro heq
  simp only [List.append_cancel_left_eq, List.cons.injEq, and_true, true_and] at heq
  -- one ends in `n`, the other in `w`
  have hlast := congrArg (fun s : String => s.toList.getLast?) heq
  simp [String.toList_append] at hlast

theorem rawPlace_ne_rawPlace {m : String} (hm : '/' ∉ m.toList) (h : '/' ∉ name.toList)
    (hne : m ≠ name) : rawPlace daemonDir m ≠ rawPlace daemonDir name := by
  rw [rawPlace_eq hm, rawPlace_eq h]
  intro heq
  simp only [List.append_cancel_left_eq, List.cons.injEq, and_true, true_and] at heq
  exact hne (String.append_left_inj _ |>.mp heq)

end Paths

/-! ## 2. System calls -/

/-- The files, and every place written, renamed or removed so far. -/
structure Disk where
  files : Files Place Json
  touched : List Place

/-- How the writing of a file through a stream went; `left` is what a failed write or a failed flush
leaves of the document. -/
inductive Stream
  | notOpened
  | writeFailed (left : List Json)
  | closeFailed (left : List Json)
  | closed

/-- What the file holds then, when it was opened. -/
def Stream.data (whole : Json) : Stream → Option (List Json)
  | .notOpened => none
  | .writeFailed left => some left
  | .closeFailed left => some left
  | .closed => some [whole]

/-- The stream is good after the last write. -/
def Stream.writes : Stream → Bool
  | .notOpened => false
  | .writeFailed _ => false
  | .closeFailed _ => true
  | .closed => true

/-- The stream is good after the close. -/
def Stream.closes : Stream → Bool
  | .closed => true
  | _ => false

instance : Inhabited Json := ⟨.null⟩

namespace Disk

/-- Open, write and close a file. -/
def stream (how : Stream) (umask : Nat) (p : Place) (whole : Json) (d : Disk) : Disk :=
  match how.data whole with
  | none => d
  | some data =>
    let (f, fd) := d.files.openTrunc (createdMode umask) p
    ⟨f.write fd 0 data, d.touched ++ [p]⟩

/-- A change of mode to the owner's alone, if it takes. -/
def chmod (ok : Bool) (p : Place) (d : Disk) : Disk :=
  if ok then ⟨d.files.chmod ownerOnly p, d.touched ++ [p]⟩ else d

def rename (a b : Place) (d : Disk) : Option Disk :=
  (d.files.rename a b).map fun f => ⟨f, d.touched ++ [a, b]⟩

def remove (p : Place) (d : Disk) : Disk := ⟨d.files.unlink p, d.touched ++ [p]⟩

/-- `tokens.json` as a reader finds it, if its open goes well. -/
def content (daemonDir : String) (opens : Bool) (d : Disk) : FileContent :=
  if !opens then .missing
  else
    match d.files.read (tokensPlace daemonDir) with
    | none => .missing
    | some [j] => .document j
    | some _ => .unparseable

end Disk

/-- What the random generator, the clock and the system calls of one call do. -/
structure DiskIo where
  random : Option (Vector UInt8 32)
  issuedAt : String
  umask : Nat
  versionOpens : Bool
  listOpens : Bool
  rawDirectories : Bool
  side : Stream
  sideRestricted : Bool
  directories : Bool
  temp : Stream
  tempRestricted : Bool
  renamed : Bool
  tempRemoved : Bool
  sideRemoved : Bool
  promoted : Bool
  promotedAgain : Bool
  rawRemoved : Bool

/-- The raw token is staged. -/
def DiskIo.stages (io : DiskIo) : Bool := io.rawDirectories && io.side.writes

/-- The list is published. -/
def DiskIo.commits (io : DiskIo) : Bool := io.directories && io.temp.closes && io.renamed

/-- The same, seen as `Io` tells it. -/
def DiskIo.io (io : DiskIo) : Io where
  random := io.random
  issuedAt := io.issuedAt
  staging :=
    if io.stages then .written
    else if !io.rawDirectories then .notOpened
    else match io.side with
      | .notOpened => .notOpened
      | _ => .interrupted
  committed := io.commits
  sideRemoved := io.sideRemoved
  renamed := io.promoted
  renamedAgain := io.promotedAgain
  rawRemoved := io.rawRemoved

/-! ## 3. The operations -/

/-- The document of a raw-token file. -/
def rawToJson (t : RawToken) : Json :=
  .obj [("issued_at", .str t.issuedAt), ("name", .str t.name), ("token", .str t.token),
    ("version", .int 1)]

section Operations

variable (sha256 : String → Vector UInt8 32) (daemonDir : String)

/-- `writeRawTokenFile`, to the side path: a close that fails is not noticed. -/
def writeRawTokenFile (io : DiskIo) (t : RawToken) (d : Disk) : Bool × Disk :=
  if !io.rawDirectories then (false, d)
  else
    let p := sidePlace daemonDir t.name
    let d := d.stream io.side io.umask p (rawToJson t)
    if !io.side.writes then (false, d)
    else (true, d.chmod io.sideRestricted p)

/-- `TokensFile::write`. -/
def TokensFile.write (io : DiskIo) (tokens : List TokenEntry) (d : Disk) : Bool × Disk :=
  if !io.directories then (false, d)
  else
    let d := d.stream io.temp io.umask (tmpPlace daemonDir) (TokensFile.toJson tokens)
    if !io.temp.closes then (false, d)
    else
      let d := d.chmod io.tempRestricted (tmpPlace daemonDir)
      match io.renamed, d.rename (tmpPlace daemonDir) (tokensPlace daemonDir) with
      | true, some d => (true, d)
      | _, _ => (false, if io.tempRemoved then d.remove (tmpPlace daemonDir) else d)

/-- Remove the side file, if the removal takes. -/
def dropSide (io : DiskIo) (name : String) (d : Disk) : Disk :=
  if io.sideRemoved then d.remove (sidePlace daemonDir name) else d

/-- One try to rename the side file into place. -/
def promoteOnce (ok : Bool) (name : String) (d : Disk) : Option Disk :=
  if ok then d.rename (sidePlace daemonDir name) (rawPlace daemonDir name) else none

/-- Rename the side file into place; there are two tries. -/
def promote (io : DiskIo) (name : String) (d : Disk) : Disk :=
  match promoteOnce daemonDir io.promoted name d with
  | some d => d
  | none => (promoteOnce daemonDir io.promotedAgain name d).getD d

/-- Remove the raw-token file, if the removal takes. -/
def dropRaw (io : DiskIo) (name : String) (d : Disk) : Disk :=
  if io.rawRemoved then d.remove (rawPlace daemonDir name) else d

/-- How `issueToken` and `revokeToken` both begin: two reads of `tokens.json`, one for its version
and one for the list. -/
def withTokens {α : Type} (io : DiskIo) (name : String) (invalidName ioError : α)
    (k : List TokenEntry → Prog Disk TypeError α) : Prog Disk TypeError α :=
  if !isSafeName name then pure invalidName
  else do
    let unsupported ← Prog.lift id
      (TokensFile.onDiskVersionUnsupported ((← get).content daemonDir io.versionOpens))
    if unsupported then pure ioError
    else do
      let tokens ← Prog.lift id (TokensFile.read ((← get).content daemonDir io.listOpens))
      k tokens

/-- `issueToken` from the change it decided on. -/
def commitIssue (io : DiskIo) (name : String) (tokens : List TokenEntry) (raw : RawToken) :
    Prog Disk TypeError IssueResult := do
  let (staged, d) := writeRawTokenFile daemonDir io raw (← get)
  set d
  if !staged then pure { status := .ioError }
  else do
    let (committed, d) := TokensFile.write daemonDir io tokens (← get)
    set d
    if !committed then do
      modify (dropSide daemonDir io name)
      pure { status := .ioError }
    else do
      modify (promote daemonDir io name)
      pure { status := .ok, token := raw.token }

/-- `TokenStore::issueToken`. -/
def issueToken (io : DiskIo) (name expiresAt : String) (localOnly replace : Bool) :
    Prog Disk TypeError IssueResult :=
  withTokens daemonDir io name { status := .invalidName } { status := .ioError } fun tokens =>
    match issueEntries sha256 io.io name expiresAt localOnly replace tokens with
    | .error r => pure r
    | .ok (tokens, raw) => commitIssue daemonDir io name tokens raw

/-- `revokeToken` from the change it decided on. -/
def commitRevoke (io : DiskIo) (name : String) (tokens : List TokenEntry) :
    Prog Disk TypeError RevokeStatus := do
  let (committed, d) := TokensFile.write daemonDir io tokens (← get)
  set d
  if !committed then pure .ioError
  else do
    modify (dropRaw daemonDir io name)
    pure .ok

/-- `TokenStore::revokeToken`. -/
def revokeToken (io : DiskIo) (name : String) : Prog Disk TypeError RevokeStatus :=
  withTokens daemonDir io name .invalidName .ioError fun tokens =>
    match revokeEntries name tokens with
    | .error status => pure status
    | .ok tokens => commitRevoke daemonDir io name tokens

/-- An operation and what its system calls do. -/
structure DiskCall where
  op : Op
  io : DiskIo

/-- The call as `TokenStore` has it. -/
def DiskCall.call (c : DiskCall) : Call := ⟨c.op, c.io.io⟩

/-- The call as a whole. -/
def DiskCall.perform (c : DiskCall) : Prog Disk TypeError Outcome :=
  match c.op with
  | .issue name expiresAt localOnly replace => do
    let r ← issueToken sha256 daemonDir c.io name expiresAt localOnly replace
    pure (.issued r)
  | .revoke name => do
    let status ← revokeToken daemonDir c.io name
    pure (.revoked status)

/-- Calls one after the other: what each of them answered, and the disk at the end. -/
def run : List DiskCall → Disk → List Event × Disk
  | [], d => ([], d)
  | c :: cs, d =>
    let (r, d') := (c.perform sha256 daemonDir).exec d
    let (history, d'') := run cs d'
    (⟨c.op, r⟩ :: history, d'')

end Operations

/-! ## 4. What is touched, and what is not -/

namespace Disk

/-- From `d` to `d'` only places of `ps` were logged, and what was not logged is as it was. -/
def Touches (ps : List Place) (d d' : Disk) : Prop :=
  ∃ log, d'.touched = d.touched ++ log ∧ (∀ p ∈ log, p ∈ ps) ∧
    ∀ p, p ∉ log → d'.files.find p = d.files.find p

variable {ps qs : List Place} {d d' d'' : Disk}

theorem Touches.refl (ps : List Place) (d : Disk) : Touches ps d d :=
  ⟨[], by simp, by simp, fun _ _ => rfl⟩

theorem Touches.trans (h : Touches ps d d') (h' : Touches ps d' d'') : Touches ps d d'' := by
  obtain ⟨log, htouched, hmem, hfind⟩ := h
  obtain ⟨log', htouched', hmem', hfind'⟩ := h'
  refine ⟨log ++ log', by rw [htouched', htouched, List.append_assoc], ?_, ?_⟩
  · intro p hp
    rcases List.mem_append.mp hp with hp | hp
    · exact hmem p hp
    · exact hmem' p hp
  · intro p hp
    rw [List.mem_append, not_or] at hp
    rw [hfind' p hp.2, hfind p hp.1]

theorem Touches.mono (h : Touches ps d d') (hsub : ∀ p ∈ ps, p ∈ qs) : Touches qs d d' := by
  obtain ⟨log, htouched, hmem, hfind⟩ := h
  exact ⟨log, htouched, fun p hp => hsub p (hmem p hp), hfind⟩

theorem Touches.find (h : Touches ps d d') {p : Place} (hp : p ∉ ps) :
    d'.files.find p = d.files.find p := by
  obtain ⟨log, -, hmem, hfind⟩ := h
  exact hfind p fun hlog => hp (hmem p hlog)

theorem Touches.read (h : Touches ps d d') {p : Place} (hp : p ∉ ps) :
    d'.files.read p = d.files.read p := by
  rw [Files.read, h.find hp, Files.read]

theorem touches_one {f : Files Place Json} {p : Place}
    (h : ∀ q, q ≠ p → f.find q = d.files.find q) : Touches [p] d ⟨f, d.touched ++ [p]⟩ :=
  ⟨[p], rfl, fun _ hq => hq, fun q hq => h q (by simpa using hq)⟩

theorem stream_touches (how : Stream) (umask : Nat) (p : Place) (whole : Json) (d : Disk) :
    Touches [p] d (d.stream how umask p whole) := by
  unfold stream
  cases how.data whole with
  | none => exact Touches.refl ..
  | some data =>
    exact touches_one fun q hq => Files.openTrunc_write_find_of_ne hq data

/-- A file whose stream was opened holds what the stream left. -/
theorem stream_read {how : Stream} {whole : Json} {data : List Json}
    (h : how.data whole = some data) (umask : Nat) (p : Place) (d : Disk) :
    (d.stream how umask p whole).files.read p = some data := by
  obtain ⟨hself, hempty⟩ := d.files.openTrunc_self (createdMode umask) p
  unfold stream
  rw [h]
  exact Files.write_read_of_empty hself hempty data

theorem chmod_touches (ok : Bool) (p : Place) (d : Disk) : Touches [p] d (d.chmod ok p) := by
  cases ok with
  | false => exact Touches.refl ..
  | true => exact touches_one fun _ hq => Files.chmod_find_of_ne hq

@[simp] theorem chmod_read (ok : Bool) (p q : Place) (d : Disk) :
    (d.chmod ok p).files.read q = d.files.read q := by
  cases ok with
  | false => rfl
  | true => exact Files.chmod_read ..

theorem remove_touches (p : Place) (d : Disk) : Touches [p] d (d.remove p) :=
  touches_one fun _ hq => Files.unlink_find_of_ne hq

theorem rename_touches {a b : Place} (h : d.rename a b = some d') : Touches [a, b] d d' := by
  obtain ⟨f, hf, rfl⟩ := Option.map_eq_some_iff.mp h
  refine ⟨[a, b], rfl, fun _ hq => hq, ?_⟩
  intro q hq
  simp only [List.mem_cons, List.not_mem_nil, or_false, not_or] at hq
  exact Files.rename_find_of_ne hf hq.1 hq.2

/-- A rename goes through when there is something to rename. -/
theorem exists_rename {a : Place} {x : List Json} (h : d.files.read a = some x) (b : Place) :
    ∃ d', d.rename a b = some d' ∧ d'.files.read b = some x := by
  cases hi : d.files.inode a with
  | none => simp [Files.read, Files.find, hi] at h
  | some i =>
    have hrename : d.files.rename a b = some (d.files.move a b i hi) :=
      Files.rename_eq_some_iff.mpr ⟨i, hi, rfl⟩
    refine ⟨⟨d.files.move a b i hi, d.touched ++ [a, b]⟩, ?_, ?_⟩
    · rw [rename, hrename]
      rfl
    · rw [← h]
      simp only [Files.read, Files.rename_find_dest hrename]

end Disk

/-! ## 5. What each part of a call does -/

section Parts

variable {daemonDir : String} {io : DiskIo} {d d' : Disk}

theorem Stream.data_of_closes {how : Stream} (h : how.closes = true) (whole : Json) :
    how.data whole = some [whole] := by
  cases how with
  | closed => rfl
  | _ => cases h

theorem touches_ite {c : Prop} [Decidable c] {ps : List Place} (h : Disk.Touches ps d d') :
    Disk.Touches ps d (if c then d' else d) := by
  split
  · exact h
  · exact Disk.Touches.refl ..

section Specs

variable (daemonDir io d)

/-- Staging touches the side file only, and leaves one there when it is reported to be done. -/
theorem writeRawTokenFile_spec (t : RawToken) :
    ∃ d', writeRawTokenFile daemonDir io t d = (io.stages, d') ∧
      Disk.Touches [sidePlace daemonDir t.name] d d' := by
  have hstream := Disk.stream_touches io.side io.umask (sidePlace daemonDir t.name) (rawToJson t) d
  unfold writeRawTokenFile DiskIo.stages
  cases io.rawDirectories with
  | false => exact ⟨d, rfl, Disk.Touches.refl ..⟩
  | true =>
    cases io.side.writes with
    | false => exact ⟨_, rfl, hstream⟩
    | true => exact ⟨_, rfl, hstream.trans (Disk.chmod_touches ..)⟩

theorem dropSide_touches (name : String) :
    Disk.Touches [sidePlace daemonDir name] d (dropSide daemonDir io name d) :=
  touches_ite (Disk.remove_touches ..)

theorem dropRaw_touches (name : String) :
    Disk.Touches [rawPlace daemonDir name] d (dropRaw daemonDir io name d) :=
  touches_ite (Disk.remove_touches ..)

omit io in
variable {daemonDir d} in
theorem promoteOnce_touches {ok : Bool} {name : String}
    (h : promoteOnce daemonDir ok name d = some d') :
    Disk.Touches [sidePlace daemonDir name, rawPlace daemonDir name] d d' := by
  unfold promoteOnce at h
  split at h
  · exact Disk.rename_touches h
  · cases h

theorem promote_touches (name : String) :
    Disk.Touches [sidePlace daemonDir name, rawPlace daemonDir name] d
      (promote daemonDir io name d) := by
  unfold promote
  cases h : promoteOnce daemonDir io.promoted name d with
  | some d' => exact promoteOnce_touches h
  | none =>
    cases h' : promoteOnce daemonDir io.promotedAgain name d with
    | some d' => exact promoteOnce_touches h'
    | none => exact Disk.Touches.refl ..

/-- **`TokensFile::write` publishes the whole list or nothing**, and touches the temp besides. -/
theorem TokensFile.write_spec (tokens : List TokenEntry) :
    ∃ d', TokensFile.write daemonDir io tokens d = (io.commits, d') ∧
      (io.commits = true →
        d'.files.read (tokensPlace daemonDir) = some [TokensFile.toJson tokens] ∧
          Disk.Touches [tmpPlace daemonDir, tokensPlace daemonDir] d d') ∧
      (io.commits = false → Disk.Touches [tmpPlace daemonDir] d d') := by
  have hstream := Disk.stream_touches io.temp io.umask (tmpPlace daemonDir)
    (TokensFile.toJson tokens) d
  unfold TokensFile.write DiskIo.commits
  cases io.directories with
  | false => exact ⟨d, rfl, nofun, fun _ => Disk.Touches.refl ..⟩
  | true =>
    cases hcloses : io.temp.closes with
    | false => exact ⟨_, rfl, nofun, fun _ => hstream⟩
    | true =>
      -- the temp holds the document, whether or not its mode could be changed
      have htemp := hstream.trans (Disk.chmod_touches io.tempRestricted (tmpPlace daemonDir) _)
      have hread := Disk.stream_read (Stream.data_of_closes hcloses (TokensFile.toJson tokens))
        io.umask (tmpPlace daemonDir) d
      rw [← Disk.chmod_read io.tempRestricted (tmpPlace daemonDir)] at hread
      obtain ⟨d', hrename, hpublished⟩ := Disk.exists_rename hread (tokensPlace daemonDir)
      simp only [Bool.not_true, Bool.false_eq_true, if_false, hrename]
      cases io.renamed with
      | false =>
        exact ⟨_, rfl, nofun, fun _ => htemp.trans (touches_ite (Disk.remove_touches ..))⟩
      | true =>
        refine ⟨d', rfl, fun _ => ⟨hpublished, ?_⟩, nofun⟩
        exact (htemp.mono (by simp)).trans (Disk.rename_touches hrename)

end Specs

/-- The steps of the writer that the system calls of a write make. -/
def DiskIo.writeActions (io : DiskIo) : List (WriteAction Json) :=
  if !io.directories then [.createDirectories false]
  else
    .createDirectories true :: match io.temp with
      | .notOpened => [.openTmp false]
      | .writeFailed left => [.openTmp true, .writeFails left, .close true]
      | .closeFailed left => [.openTmp true, .writeFails left, .close false]
      | .closed => [.openTmp true, .writeChunk 1, .close true, .chmod io.tempRestricted,
          .rename io.renamed] ++ if io.renamed then [] else [.removeTmp io.tempRemoved]

/-- **A write on its own is a run of the writer of `Publishing`**, and ends as that does. -/
theorem write_is_solo (tokens : List TokenEntry) :
    runActions (soloStep (TokensFile.target daemonDir) io.umask [TokensFile.toJson tokens])
        (.start, d.files) io.writeActions =
      some (.returned (TokensFile.write daemonDir io tokens d).1,
        (TokensFile.write daemonDir io tokens d).2.files) := by
  have htmp : (TokensFile.target daemonDir).tmp = tmpPlace daemonDir := rfl
  have hpath : (TokensFile.target daemonDir).path = tokensPlace daemonDir := rfl
  unfold DiskIo.writeActions TokensFile.write
  cases hdir : io.directories with
  | false => rfl
  | true =>
    cases htemp : io.temp with
    | notOpened => rfl
    | writeFailed left => rfl
    | closeFailed left => rfl
    | closed =>
      have hdata : Stream.data (TokensFile.toJson tokens) .closed =
        some [TokensFile.toJson tokens] := rfl
      have hread := Disk.stream_read hdata io.umask (tmpPlace daemonDir) d
      rw [← Disk.chmod_read io.tempRestricted (tmpPlace daemonDir)] at hread
      obtain ⟨d', hrename, -⟩ := Disk.exists_rename hread (tokensPlace daemonDir)
      obtain ⟨f, hf, rfl⟩ := Option.map_eq_some_iff.mp hrename
      have hchmod : ∀ (u : Disk), (u.chmod io.tempRestricted (tmpPlace daemonDir)).files =
          if io.tempRestricted then u.files.chmod ownerOnly (tmpPlace daemonDir) else u.files := by
        intro u
        unfold Disk.chmod
        split <;> rfl
      cases hrenamed : io.renamed with
      | false =>
        simp [runActions, soloStep, TokensFile.writeStep, htmp, hpath, Stream.closes]
        cases io.tempRemoved <;> cases io.tempRestricted <;> rfl
      | true =>
        rw [hchmod] at hf
        simp only [Disk.stream, Stream.data] at hf
        simp [runActions, soloStep, TokensFile.writeStep, htmp, hpath, Stream.closes, hrename,
          hf]

end Parts

/-! ## 6. What a call does -/

/-- `tokens.json` is the document of a list, or there is no file and the list is empty. -/
def Disk.Listing (daemonDir : String) (d : Disk) (ts : List TokenEntry) : Prop :=
  (d.files.read (tokensPlace daemonDir) = none ∧ ts = []) ∨
    d.files.read (tokensPlace daemonDir) = some [TokensFile.toJson ts]

section Calls

variable {sha256 : String → Vector UInt8 32} {daemonDir : String} {io : DiskIo} {d d' : Disk}
  {ts : List TokenEntry}

/-- What a read of the list answers: the list, or nothing when the open fails. -/
theorem Disk.Listing.read (h : d.Listing daemonDir ts) (hts : ∀ e ∈ ts, e.WellFormed)
    (opens : Bool) :
    TokensFile.read (d.content daemonDir opens) = .ok (if opens then ts else []) := by
  cases opens with
  | false => rfl
  | true =>
    rcases h with ⟨hnone, rfl⟩ | hsome
    · simp only [content, hnone]
      rfl
    · simp only [content, hsome]
      exact TokensFile.read_document hts

theorem Disk.Listing.supported (h : d.Listing daemonDir ts) (opens : Bool) :
    TokensFile.onDiskVersionUnsupported (d.content daemonDir opens) = .ok false := by
  cases opens with
  | false => rfl
  | true =>
    rcases h with ⟨hnone, -⟩ | hsome
    · simp only [content, hnone]
      rfl
    · simp only [content, hsome]
      exact TokensFile.unsupported_document ts

/-- A name that is not safe is refused at once. -/
theorem exec_withTokens_invalidName {α : Type} {name : String} {invalidName ioError : α}
    {k : List TokenEntry → Prog Disk TypeError α} (h : isSafeName name = false) :
    (withTokens daemonDir io name invalidName ioError k).exec d = (.ok invalidName, d) := by
  unfold withTokens
  rw [if_pos (by simp [h])]
  rfl

/-- Otherwise the rest of the operation runs on the list that was read. -/
theorem exec_withTokens {α : Type} {name : String} {invalidName ioError : α}
    {k : List TokenEntry → Prog Disk TypeError α} (h : isSafeName name = true)
    (hd : d.Listing daemonDir ts) (hts : ∀ e ∈ ts, e.WellFormed) :
    (withTokens daemonDir io name invalidName ioError k).exec d =
      (k (if io.listOpens then ts else [])).exec d := by
  unfold withTokens
  rw [if_neg (by simp [h]), Prog.exec_bind_of_ok (Prog.exec_get d), hd.supported,
    Prog.exec_bind_of_ok (Prog.exec_lift_ok id false d), if_neg (by simp),
    Prog.exec_bind_of_ok (Prog.exec_get d), hd.read hts,
    Prog.exec_bind_of_ok (Prog.exec_lift_ok id _ d)]

/-- What a call that stops before it has published touches. -/
def asidePlaces (daemonDir name : String) : List Place :=
  [sidePlace daemonDir name, tmpPlace daemonDir]

/-- What a call touches: the raw-token file of its name and the side file of that, `tokens.json` and
its temp. -/
def ownPlaces (daemonDir name : String) : List Place :=
  [rawPlace daemonDir name, sidePlace daemonDir name, tokensPlace daemonDir, tmpPlace daemonDir]

theorem tokensPlace_not_mem_asidePlaces {name : String} (h : isSafeName name = true) :
    tokensPlace daemonDir ∉ asidePlaces daemonDir name := by
  simp [asidePlaces, (sidePlace_ne_tokensPlace (not_slash_of_isSafeName h)).symm,
    (tmpPlace_ne daemonDir).symm]

theorem Disk.Touches.content {ps : List Place} {d d' : Disk} (h : Disk.Touches ps d d')
    (hps : tokensPlace daemonDir ∉ ps) (opens : Bool) :
    d'.content daemonDir opens = d.content daemonDir opens := by
  simp only [Disk.content, h.read hps]

/-- The list is published, and only the places of the name were touched. -/
structure Published (daemonDir name : String) (ts : List TokenEntry) (d d' : Disk) : Prop where
  tokens : d'.files.read (tokensPlace daemonDir) = some [TokensFile.toJson ts]
  touches : Disk.Touches (ownPlaces daemonDir name) d d'

/-- The writes of an issue: all of them, or nothing but the side file and the temp. -/
theorem exec_commitIssue (daemonDir : String) (io : DiskIo) (d : Disk) (ts : List TokenEntry)
    {name : String} {raw : RawToken} (h : isSafeName name = true)
    (hraw : raw.name = name) :
    ∃ d', ((commitIssue daemonDir io name ts raw).exec d =
        (.ok { status := .ok, token := raw.token }, d') ∧ io.stages = true ∧ io.commits = true ∧
        Published daemonDir name ts d d') ∨
      ((commitIssue daemonDir io name ts raw).exec d = (.ok { status := .ioError }, d') ∧
        ¬(io.stages = true ∧ io.commits = true) ∧
        Disk.Touches (asidePlaces daemonDir name) d d') := by
  subst hraw
  have hslash := not_slash_of_isSafeName h
  obtain ⟨d₁, hstage, hside⟩ := writeRawTokenFile_spec daemonDir io d raw
  obtain ⟨d₂, hwrite, hyes, hno⟩ := TokensFile.write_spec daemonDir io d₁ ts
  unfold commitIssue
  cases hstages : io.stages with
  | false =>
    refine ⟨d₁, Or.inr ⟨?_, by simp, hside.mono (by simp [asidePlaces])⟩⟩
    simp [Prog.exec_bind, hstage, hstages, -bind_pure_comp]
  | true =>
    cases hcommits : io.commits with
    | false =>
      refine ⟨dropSide daemonDir io raw.name d₂, Or.inr ⟨?_, by simp, ?_⟩⟩
      · simp [Prog.exec_bind, hstage, hstages, hwrite, hcommits, -bind_pure_comp]
      · refine ((hside.mono ?_).trans ((hno hcommits).mono ?_)).trans
          ((dropSide_touches daemonDir io d₂ raw.name).mono ?_) <;> simp [asidePlaces]
    | true =>
      obtain ⟨hread, htouches⟩ := hyes hcommits
      have hpromote := promote_touches daemonDir io d₂ raw.name
      refine ⟨promote daemonDir io raw.name d₂, Or.inl ⟨?_, rfl, rfl, ?_, ?_⟩⟩
      · simp [Prog.exec_bind, hstage, hstages, hwrite, hcommits, -bind_pure_comp]
      · have hother : tokensPlace daemonDir ∉
            [sidePlace daemonDir raw.name, rawPlace daemonDir raw.name] := by
          simp [(sidePlace_ne_tokensPlace hslash).symm, (rawPlace_ne_tokensPlace hslash).symm]
        rw [hpromote.read hother, hread]
      · refine ((hside.mono ?_).trans (htouches.mono ?_)).trans (hpromote.mono ?_) <;>
          simp [ownPlaces]

/-- The writes of a revocation. -/
theorem exec_commitRevoke (daemonDir : String) (io : DiskIo) (d : Disk) (ts : List TokenEntry)
    {name : String} (h : isSafeName name = true) :
    ∃ d', ((commitRevoke daemonDir io name ts).exec d = (.ok .ok, d') ∧ io.commits = true ∧
        Published daemonDir name ts d d') ∨
      ((commitRevoke daemonDir io name ts).exec d = (.ok .ioError, d') ∧ io.commits = false ∧
        Disk.Touches (asidePlaces daemonDir name) d d') := by
  obtain ⟨d₁, hwrite, hyes, hno⟩ := TokensFile.write_spec daemonDir io d ts
  unfold commitRevoke
  cases hcommits : io.commits with
  | false =>
    refine ⟨d₁, Or.inr ⟨?_, rfl, (hno hcommits).mono (by simp [asidePlaces])⟩⟩
    simp [Prog.exec_bind, hwrite, hcommits, -bind_pure_comp]
  | true =>
    obtain ⟨hread, htouches⟩ := hyes hcommits
    have hdrop := dropRaw_touches daemonDir io d₁ name
    refine ⟨dropRaw daemonDir io name d₁, Or.inl ⟨?_, rfl, ?_, ?_⟩⟩
    · simp [Prog.exec_bind, hwrite, hcommits, -bind_pure_comp]
    · have hother : tokensPlace daemonDir ∉ [rawPlace daemonDir name] := by
        simp [(rawPlace_ne_tokensPlace (not_slash_of_isSafeName h)).symm]
      rw [hdrop.read hother, hread]
    · refine (htouches.mono ?_).trans (hdrop.mono ?_) <;> simp [ownPlaces]

/-- The writes of a change go through: the staging, when there is a raw token, and the list. -/
def DiskIo.Writes (io : DiskIo) (ch : Change) : Prop :=
  (ch.raw.isSome = true → io.stages = true) ∧ io.commits = true

/-- The raw token that an issue stages is for its name. -/
theorem issueEntries_name {io : Io} {name expiresAt : String} {localOnly replace : Bool}
    {ts' : List TokenEntry} {raw : RawToken}
    (h : issueEntries sha256 io name expiresAt localOnly replace ts = .ok (ts', raw)) :
    raw.name = name := by
  unfold issueEntries at h
  split at h
  · cases h
  · simp only at h
    split at h
    · cases h
    · cases h
      rfl

/-- A call on a name that is not safe does nothing. -/
theorem perform_invalidName {c : DiskCall} (h : isSafeName c.op.name = false) :
    (c.perform sha256 daemonDir).exec d = (.ok c.op.invalidName, d) := by
  obtain ⟨op, io⟩ := c
  cases op with
  | issue name expiresAt localOnly replace =>
    have hname : isSafeName name = false := h
    simp only [DiskCall.perform, Prog.exec_bind_pure, issueToken,
      exec_withTokens_invalidName hname]
    rfl
  | revoke name =>
    have hname : isSafeName name = false := h
    simp only [DiskCall.perform, Prog.exec_bind_pure, revokeToken,
      exec_withTokens_invalidName hname]
    rfl

variable (sha256) in
/-- **What a call can do**, from the list it read: refuse the change and touch nothing; publish the
amended list and answer `Ok`; or fail in its writes, with the side file and the temp touched at
most. -/
theorem perform_cases {c : DiskCall} (h : isSafeName c.op.name = true)
    (hd : d.Listing daemonDir ts) (hts : ∀ e ∈ ts, e.WellFormed) :
    (∃ o, c.call.amend sha256 (if c.io.listOpens then ts else []) = .error o ∧
        (c.perform sha256 daemonDir).exec d = (.ok o, d)) ∨
      (∃ ch d', c.call.amend sha256 (if c.io.listOpens then ts else []) = .ok ch ∧
        c.io.Writes ch ∧ (c.perform sha256 daemonDir).exec d = (.ok ch.outcome, d') ∧
        Published daemonDir c.op.name ch.tokens d d') ∨
      (∃ ch d', c.call.amend sha256 (if c.io.listOpens then ts else []) = .ok ch ∧
        ¬c.io.Writes ch ∧ (c.perform sha256 daemonDir).exec d = (.ok c.op.ioError, d') ∧
        Disk.Touches (asidePlaces daemonDir c.op.name) d d') := by
  obtain ⟨op, io⟩ := c
  cases op with
  | issue name expiresAt localOnly replace =>
    have hsafe : isSafeName name = true := h
    simp only [DiskCall.perform, Prog.exec_bind_pure, issueToken, exec_withTokens hsafe hd hts,
      DiskCall.call, Call.amend]
    cases hent : issueEntries sha256 io.io name expiresAt localOnly replace
        (if io.listOpens then ts else []) with
    | error r => exact Or.inl ⟨.issued r, rfl, rfl⟩
    | ok change =>
      obtain ⟨ts', raw⟩ := change
      have hraw := issueEntries_name hent
      obtain ⟨d', ⟨hexec, hstages, hcommits, hpublished⟩ | ⟨hexec, hfail, htouches⟩⟩ :=
        exec_commitIssue daemonDir io d ts' hsafe hraw
      · refine Or.inr (Or.inl ⟨⟨ts', some raw⟩, d', rfl, ⟨fun _ => hstages, hcommits⟩, ?_,
          hpublished⟩)
        simp only [hexec]
        rfl
      · refine Or.inr (Or.inr ⟨⟨ts', some raw⟩, d', rfl, ?_, ?_, htouches⟩)
        · rintro ⟨hstages, hcommits⟩
          exact hfail ⟨hstages rfl, hcommits⟩
        · simp only [hexec]
          rfl
  | revoke name =>
    have hsafe : isSafeName name = true := h
    simp only [DiskCall.perform, Prog.exec_bind_pure, revokeToken, exec_withTokens hsafe hd hts,
      DiskCall.call, Call.amend]
    cases hent : revokeEntries name (if io.listOpens then ts else []) with
    | error status => exact Or.inl ⟨.revoked status, rfl, rfl⟩
    | ok ts' =>
      obtain ⟨d', ⟨hexec, hcommits, hpublished⟩ | ⟨hexec, hfail, htouches⟩⟩ :=
        exec_commitRevoke daemonDir io d ts' hsafe
      · refine Or.inr (Or.inl ⟨⟨ts', none⟩, d', rfl, ⟨by simp, hcommits⟩, ?_, hpublished⟩)
        simp only [hexec]
        rfl
      · refine Or.inr (Or.inr ⟨⟨ts', none⟩, d', rfl, ?_, ?_, htouches⟩)
        · rintro ⟨-, hcommits⟩
          rw [hfail] at hcommits
          cases hcommits
        · simp only [hexec]
          rfl

/-- A call as a whole does what its steps do. -/
theorem exec_of_settle {c : Call} {dir dir' : Dir} {r : Except TypeError Outcome}
    (h : c.settle sha256 5 .start dir = (.done r, dir')) :
    (c.perform sha256).exec dir = (r, dir') := by
  rw [settle_eq_perform] at h
  obtain ⟨hanswer, hdir⟩ := Prod.mk.inj h
  exact Prod.ext (Pc.done.inj hanswer) hdir

/-- The staging, as `TokenStore` has it. -/
theorem coarse_staged (dir : Dir) (io : DiskIo) (raw : RawToken) :
    (TokenStore.writeRawTokenFile io.io raw dir).1 = io.stages ∧
      (TokenStore.writeRawTokenFile io.io raw dir).2.tokens = dir.tokens := by
  refine ⟨?_, writeRawTokenFile_tokens raw⟩
  unfold TokenStore.writeRawTokenFile DiskIo.io
  cases hstages : io.stages with
  | true => rfl
  | false =>
    simp only [Bool.false_eq_true, if_false]
    cases io.rawDirectories with
    | false => rfl
    | true => cases io.side <;> rfl

/-- A call whose writes fail, as `TokenStore` has it. -/
theorem exec_of_not_writes {c : DiskCall} {ch : Change} {dir : Dir}
    (h : isSafeName c.op.name = true)
    (hv : TokensFile.onDiskVersionUnsupported dir.tokens = .ok false)
    (hread : TokensFile.read dir.tokens = .ok ts) (hamend : c.call.amend sha256 ts = .ok ch)
    (hfail : ¬c.io.Writes ch) :
    ∃ dir', (c.call.perform sha256).exec dir = (.ok c.op.ioError, dir') ∧
      dir'.tokens = dir.tokens := by
  have hsafe : isSafeName c.call.op.name = true := h
  have hcommitted : c.call.io.committed = c.io.commits := rfl
  have hanswer : c.call.op.ioError = c.op.ioError := rfl
  -- the steps of the call alone, to the write that fails
  have hend : ∃ dir', c.call.settle sha256 5 .start dir = (.done (.ok c.op.ioError), dir') ∧
      dir'.tokens = dir.tokens := by
    obtain ⟨ts', raw⟩ := ch
    cases raw with
    | none =>
      have hcommits : c.io.commits = false := by
        simpa [DiskIo.Writes] using hfail
      simp [Call.settle, Call.step, hsafe, hv, hread, hamend, TokenStore.TokensFile.write,
        hcommitted, hcommits, hanswer, Op.abandon_tokens]
    | some raw =>
      obtain ⟨hstaged, htokens⟩ := coarse_staged dir c.io raw
      cases hw : TokenStore.writeRawTokenFile c.call.io raw dir with
      | mk staged d₁ =>
        have hio : c.io.io = c.call.io := rfl
        rw [hio, hw] at hstaged htokens
        simp only at hstaged htokens
        cases hstages : c.io.stages with
        | false =>
          rw [hstages] at hstaged
          simp [Call.settle, Call.step, hsafe, hv, hread, hamend, hw, hstaged, htokens,
            hanswer]
        | true =>
          have hcommits : c.io.commits = false := by
            simpa [DiskIo.Writes, hstages] using hfail
          rw [hstages] at hstaged
          simp [Call.settle, Call.step, hsafe, hv, hread, hamend, hw, hstaged, htokens,
            TokenStore.TokensFile.write, hcommitted, hcommits, hanswer, Op.abandon_tokens]
  obtain ⟨dir', hsteps, htokens⟩ := hend
  exact ⟨dir', exec_of_settle hsteps, htokens⟩

/-- **With both opens of `tokens.json` going well the document changes as in `TokenStore`**, and the
answer is the same. -/
theorem perform_refines {c : DiskCall} {dir : Dir} {r : Except TypeError Outcome}
    (hopens : c.io.listOpens = true) (hd : d.Listing daemonDir ts)
    (hts : ∀ e ∈ ts, e.WellFormed) (hdir : dir.tokens = d.content daemonDir true)
    (h : (c.perform sha256 daemonDir).exec d = (r, d')) :
    ∃ dir', (c.call.perform sha256).exec dir = (r, dir') ∧
      dir'.tokens = d'.content daemonDir true := by
  have hv : TokensFile.onDiskVersionUnsupported dir.tokens = .ok false :=
    hdir ▸ hd.supported true
  have hread : TokensFile.read dir.tokens = .ok ts := hdir ▸ hd.read hts true
  have hcall : c.call.op = c.op := rfl
  by_cases hsafe : isSafeName c.op.name = true
  · have hcases := perform_cases sha256 hsafe hd hts
    rw [hopens, if_pos rfl] at hcases
    rcases hcases with ⟨o, hamend, hexec⟩ | ⟨ch, u, hamend, hwrites, hexec, hpublished⟩ |
      ⟨ch, u, hamend, hfail, hexec, htouches⟩
    · rw [hexec] at h
      cases h
      have hsafe' : isSafeName c.call.op.name = true := hsafe
      refine ⟨dir, exec_of_settle ?_, hdir⟩
      simp [Call.settle, Call.step, hsafe', hv, hread, hamend]
    · rw [hexec] at h
      cases h
      have hstaged : ch.raw ≠ none → c.call.io.staging = .written := by
        intro hraw
        exact if_pos (hwrites.1 (Option.isSome_iff_ne_none.mpr hraw))
      obtain ⟨dir', hrun, htokens⟩ :=
        perform_of_amend (c := c.call) hsafe hv hread hamend hstaged hwrites.2
      refine ⟨dir', hrun, ?_⟩
      simp only [htokens, Disk.content, hpublished.tokens]
      rfl
    · rw [hexec] at h
      cases h
      obtain ⟨dir', hrun, htokens⟩ := exec_of_not_writes hsafe hv hread hamend hfail
      refine ⟨dir', hrun, ?_⟩
      rw [htokens, hdir, htouches.content (tokensPlace_not_mem_asidePlaces hsafe)]
  · have hunsafe : isSafeName c.op.name = false := by simpa using hsafe
    rw [perform_invalidName hunsafe] at h
    cases h
    have hunsafe' : isSafeName c.call.op.name = false := hunsafe
    refine ⟨dir, exec_of_settle ?_, hdir⟩
    simp [Call.settle, Call.step, hunsafe']
    rfl

end Calls

end Logosctl.TokenStore.OnDisk
