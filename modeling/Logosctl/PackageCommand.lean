/-
# Package options on their way to the daemon

The client settles what the user asked for, packs it into a JSON map and sends it; the daemon
unpacks the map into `Options`.  The two sides share nothing but the spelling of the keys, and a
key the daemon does not look for is dropped without a word.

`survives_iff` says which commands arrive as they were given: all of them but a download with a
root hash, whose key is spelled one way by the client and another by the daemon.
-/
import Logosctl.PackageOps
import Mathlib.Data.List.Basic

namespace Logosctl.PackageCommand

open Library PackageOps

/-! ## 1. Paths -/

def isAbsolute (path : String) : Bool := path.toList.head? = some '/'

/-- `operator/` of two paths, the second one relative. -/
def join (dir path : String) : String :=
  if dir.toList.getLast? = some '/' then dir ++ path else dir ++ "/" ++ path

/-- `path::extension`: from the last dot of the file name on, if that dot does not start it. -/
def extension (path : String) : String :=
  let name := path.toList.reverse.takeWhile (· ≠ '/')
  let ext := name.takeWhile (· ≠ '.')
  if name = ['.', '.'] ∨ name.length ≤ ext.length + 1 then ""
  else String.ofList ('.' :: ext.reverse)

/-- One component of an absolute path, after those in `stack` (the last one first). -/
def normalStep (stack : List (List Char)) (component : List Char) : List (List Char) :=
  if component = [] ∨ component = ['.'] then stack
  else if component = ['.', '.'] then stack.tail
  else component :: stack

/-- `path::lexically_normal` of an absolute path.  What ends in a separator, or in a component
that is taken out, keeps a separator at its end. -/
def lexicallyNormal (path : String) : String :=
  let components := path.toList.splitOn '/'
  let stack := components.foldl normalStep []
  let last := components.getLast?.getD []
  let ending := if stack = [] ∨ last = [] ∨ last = ['.'] ∨ last = ['.', '.'] then ['/'] else []
  String.ofList (stack.reverse.flatMap ('/' :: ·) ++ ending)

/-- The client's surroundings: its working directory, which it may fail to read, and the files it
can see. -/
structure Host where
  cwd : Option String
  isRegularFile : String → Bool
  isDirectory : String → Bool
  entries : String → List String

/-- `std::filesystem::absolute`. -/
def Host.absolute (h : Host) (path : String) : Option String :=
  if isAbsolute path then some path else h.cwd.map (join · path)

/-! ## 2. The client: install, upgrade, remove -/

/-- The arguments of `package install`, `upgrade` and `remove`; an option not given is empty. -/
structure MutateArgs where
  names : List String
  file : String := ""
  dir : String := ""
  version : String := ""
  rootHash : String := ""
  catalog : String := ""
  noDeps : Bool := false
  noDependents : Bool := false

/-- Why nothing is sent: a usage error with its message, or an exception of the file system. -/
inductive Refusal
  | usage (message : String)
  | threw
  deriving DecidableEq, Repr

def endsWithLgx (s : String) : Bool := 4 < s.length && ".lgx".toList.isSuffixOf s.toList

/-- `std::filesystem::absolute` without an error code. -/
def absoluteOrThrow (h : Host) (path : String) : Except Refusal String :=
  match h.absolute path with
  | some a => .ok a
  | none => .error .threw

def addFile (h : Host) (path : String) : Except Refusal String :=
  if !h.isRegularFile path then .error (.usage ("No such .lgx file: " ++ path))
  else absoluteOrThrow h path

/-- The positional arguments: the catalog names among them, and the files. -/
def addPositional (h : Host) : List String → Except Refusal (List String × List String)
  | [] => .ok ([], [])
  | n :: ns =>
    if !endsWithLgx n then do
      let (names, files) ← addPositional h ns
      return (n :: names, files)
    else do
      let file ← addFile h n
      let (names, files) ← addPositional h ns
      return (names, file :: files)

/-- The `.lgx` files of a directory. -/
def lgxFiles (h : Host) (dir : String) : List String :=
  (h.entries dir).filter fun e => h.isRegularFile e && extension e == ".lgx"

def addDir (h : Host) (dir : String) : Except Refusal (List String) :=
  if !h.isDirectory dir then .error (.usage ("Not a directory: " ++ dir))
  else do
    let files ← (lgxFiles h dir).mapM (absoluteOrThrow h)
    if files.isEmpty then .error (.usage ("No .lgx files found in: " ++ dir)) else .ok files

/-- What is sent when there is something to send: catalog names or local files, not both. -/
def settle (op : Op) (names localFiles : List String) :
    Except Refusal (List String × List String) :=
  if names.isEmpty && localFiles.isEmpty then
    .error (.usage (if op = .remove then "Nothing to remove. Name an installed package."
      else "Nothing to " ++ op.name ++ ". Name a package, or give a path to an .lgx file " ++
        "(or --file / --dir)."))
  else if !names.isEmpty && !localFiles.isEmpty then
    .error (.usage ("Cannot mix catalog packages with local .lgx files in one " ++ op.name ++
      ". Run them as separate commands."))
  else .ok (names, localFiles)

/-- A positional argument ending in `.lgx` is a path, not a catalog name; a removal has none. -/
def positionalArgs (h : Host) (op : Op) (names : List String) :
    Except Refusal (List String × List String) :=
  if op = .remove then .ok (names, []) else addPositional h names

def fileArg (h : Host) (file : String) : Except Refusal (List String) :=
  if file.isEmpty then .ok [] else (addFile h file).map ([·])

def dirArg (h : Host) (dir : String) : Except Refusal (List String) :=
  if dir.isEmpty then .ok [] else addDir h dir

/-- `PackageCommand::mutate`, up to what it sends: the names and the local files. -/
def mutate (h : Host) (op : Op) (a : MutateArgs) : Except Refusal (List String × List String) :=
  if op = .remove ∧ ¬ (a.file.isEmpty ∧ a.dir.isEmpty) then
    .error (.usage ("--file / --dir apply to install and upgrade. " ++
      "Give remove the package name."))
  else do
    let (names, positional) ← positionalArgs h op a.names
    let file ← fileArg h a.file
    let dir ← dirArg h a.dir
    settle op names (positional ++ file ++ dir)

/-- The options map that goes with them. -/
def mutateOpts (a : MutateArgs) (localFiles : List String) : Json :=
  .obj [("catalog", .str a.catalog), ("localFiles", .arr (localFiles.map .str)),
    ("rootHash", .str a.rootHash), ("version", .str a.version),
    ("withDependents", .bool (!a.noDependents)), ("withDeps", .bool (!a.noDeps))]

/-- A call of the daemon's own service. -/
abbrev Request := String × List Json

/-- The two requests of an install, an upgrade or a removal: to plan it, and to carry it out. -/
def mutateRequests (h : Host) (op : Op) (a : MutateArgs) : Except Refusal (List Request) := do
  let (names, localFiles) ← mutate h op a
  let args := [.str op.name, .arr (names.map .str), mutateOpts a localFiles]
  return [("planPackageOperation", args), ("applyPackageOperation", args)]

/-! ## 3. The client: download -/

structure DownloadArgs where
  pkg : String
  version : String := ""
  rootHash : String := ""
  catalog : String := ""
  outDir : String := ""

/-- Where the user wants the file: a relative directory is one below the client's own. -/
def DownloadArgs.destination (h : Host) (a : DownloadArgs) : String :=
  if a.outDir.isEmpty || isAbsolute a.outDir then a.outDir
  else
    match h.absolute a.outDir with
    | some path => lexicallyNormal path
    | none => a.outDir

/-- `PackageCommand::download`, up to what it sends. -/
def downloadRequest (h : Host) (a : DownloadArgs) : Request :=
  ("downloadPackage", [.str a.pkg, .obj [("catalog", .str a.catalog),
    ("output", .str (a.destination h)), ("root_hash", .str a.rootHash),
    ("version", .str a.version)]])

/-! ## 4. The daemon -/

def toOptions (opts : Json) : Except TypeError Options := do
  let withDeps ← opts.valueBool "withDeps" true
  let withDependents ← opts.valueBool "withDependents" true
  let version ← opts.valueStr "version"
  let rootHash ← opts.valueStr "rootHash"
  let catalog ← opts.valueStr "catalog"
  let localFiles ←
    match opts.find? "localFiles" with
    | some (.arr fs) => fs.mapM Json.getString
    | _ => .ok []
  return { withDeps, withDependents, version, rootHash, catalog, localFiles }

def toOp : String → Option Op
  | "install" => some .install
  | "upgrade" => some .upgrade
  | "remove" => some .remove
  | _ => none

def toNames (names : Json) : Except TypeError (List String) := names.elems.mapM Json.getString

/-- What the daemon understands a request to be. -/
inductive Decoded
  | operation (op : Op) (names : List String) (opts : Options)
  | download (name : String) (opts : Options) (dest : String)

/-- The destination of a download. -/
def destOf (opts : Json) : Except TypeError String :=
  if opts.isObject then opts.valueStr "output" else .ok ""

/-- `planPackageOperation` and `applyPackageOperation`, as far as what they are asked for; nothing
for an operation that is not known. -/
def decodeOperation (op names opts : Json) : Except TypeError (Option Decoded) := do
  let name ← op.getString
  match toOp name with
  | none => return none
  | some op =>
    let names ← toNames names
    let opts ← toOptions opts
    return some (.operation op names opts)

/-- `downloadPackage`, as far as what it is asked for. -/
def decodeDownload (name opts : Json) : Except TypeError (Option Decoded) := do
  let name ← name.getString
  let dest ← destOf opts
  let opts ← toOptions opts
  return some (.download name opts dest)

/-- `callMethodStd` on the package methods. -/
def decode : Request → Except TypeError (Option Decoded)
  | (method, args) =>
    if method = "planPackageOperation" ∨ method = "applyPackageOperation" then
      match args with
      | op :: names :: opts :: _ => decodeOperation op names opts
      | _ => .ok none
    else if method = "downloadPackage" then
      match args with
      | name :: opts :: _ => decodeDownload name opts
      | _ => .ok none
    else .ok none

/-! ## 5. What the user gave -/

/-- The packages named. -/
def MutateArgs.givenNames (op : Op) (a : MutateArgs) : List String :=
  if op = .remove then a.names else a.names.filter (!endsWithLgx ·)

/-- The files given: as arguments, by `--file`, and by `--dir`. -/
def MutateArgs.givenFiles (h : Host) (op : Op) (a : MutateArgs) : List String :=
  (if op = .remove then [] else a.names.filter endsWithLgx) ++
    (if a.file.isEmpty then [] else [a.file]) ++ if a.dir.isEmpty then [] else lgxFiles h a.dir

/-- The names and options are, field by field, what the user gave; local files as absolute
paths. -/
structure MutateArgs.Gave (h : Host) (op : Op) (a : MutateArgs) (names : List String)
    (o : Options) : Prop where
  names : names = a.givenNames op
  withDeps : o.withDeps = !a.noDeps
  withDependents : o.withDependents = !a.noDependents
  version : o.version = a.version
  rootHash : o.rootHash = a.rootHash
  catalog : o.catalog = a.catalog
  localFiles : o.localFiles.map some = (a.givenFiles h op).map h.absolute

/-- The options of a download are, field by field, what the user gave. -/
structure DownloadArgs.Gave (a : DownloadArgs) (o : Options) : Prop where
  version : o.version = a.version
  rootHash : o.rootHash = a.rootHash
  catalog : o.catalog = a.catalog

inductive Command
  | mutate (op : Op) (a : MutateArgs)
  | download (a : DownloadArgs)

/-- Every request that the command sends is understood as it was given. -/
def Survives (h : Host) : Command → Prop
  | .mutate op a => ∀ requests, mutateRequests h op a = .ok requests → ∀ q ∈ requests,
      ∃ names o, decode q = .ok (some (.operation op names o)) ∧ a.Gave h op names o
  | .download a => ∃ o, decode (downloadRequest h a) =
      .ok (some (.download a.pkg o (a.destination h))) ∧ a.Gave o

section Survives

variable {h : Host} {op : Op} {a : MutateArgs} {names files localFiles : List String}

/-! ## 6. What the client settles -/

theorem absolute_of_ok {path file : String} (hok : absoluteOrThrow h path = .ok file) :
    h.absolute path = some file := by
  unfold absoluteOrThrow at hok
  split at hok
  · next heq =>
    cases hok
    exact heq
  · cases hok

theorem absolute_of_addFile {path file : String} (hok : addFile h path = .ok file) :
    h.absolute path = some file := by
  unfold addFile at hok
  split at hok
  · cases hok
  · exact absolute_of_ok hok

/-- The positional arguments are parted into names and files, and none is lost. -/
theorem addPositional_eq_ok {args : List String} :
    ∀ {names files : List String}, addPositional h args = .ok (names, files) →
      names = args.filter (!endsWithLgx ·) ∧
        files.map some = (args.filter endsWithLgx).map h.absolute := by
  induction args with
  | nil =>
    intro names files hok
    cases hok
    exact ⟨rfl, rfl⟩
  | cons n ns ih =>
    intro names files hok
    unfold addPositional at hok
    cases hlgx : endsWithLgx n with
    | false =>
      rw [hlgx, Bool.not_false, if_pos rfl] at hok
      obtain ⟨⟨names', files'⟩, hrest, hok⟩ := except_bind_eq_ok.mp hok
      cases hok
      obtain ⟨hnames, hfiles⟩ := ih hrest
      rw [List.filter_cons, List.filter_cons, hlgx, hnames, hfiles]
      exact ⟨rfl, rfl⟩
    | true =>
      rw [hlgx, Bool.not_true, if_neg (by simp)] at hok
      obtain ⟨file, hfile, hok⟩ := except_bind_eq_ok.mp hok
      obtain ⟨⟨names', files'⟩, hrest, hok⟩ := except_bind_eq_ok.mp hok
      cases hok
      obtain ⟨hnames, hfiles⟩ := ih hrest
      rw [List.filter_cons, List.filter_cons, hlgx, hnames, List.map_cons, hfiles,
        ← absolute_of_addFile hfile]
      exact ⟨rfl, rfl⟩

theorem map_absolute_of_mapM {paths : List String} :
    ∀ {files : List String}, paths.mapM (absoluteOrThrow h) = .ok files →
      files.map some = paths.map h.absolute := by
  induction paths with
  | nil =>
    intro files hok
    cases hok
    rfl
  | cons p ps ih =>
    intro files hok
    rw [List.mapM_cons] at hok
    obtain ⟨file, hfile, hok⟩ := except_bind_eq_ok.mp hok
    obtain ⟨rest, hrest, hok⟩ := except_bind_eq_ok.mp hok
    cases hok
    rw [List.map_cons, List.map_cons, ih hrest, absolute_of_ok hfile]

theorem map_absolute_of_addDir {dir : String} (hok : addDir h dir = .ok files) :
    files.map some = (lgxFiles h dir).map h.absolute := by
  unfold addDir at hok
  split at hok
  · cases hok
  · obtain ⟨files', hmap, hok⟩ := except_bind_eq_ok.mp hok
    split at hok
    · cases hok
    · cases hok
      exact map_absolute_of_mapM hmap

theorem positionalArgs_eq_ok {args : List String}
    (hok : positionalArgs h op args = .ok (names, files)) :
    names = (if op = .remove then args else args.filter (!endsWithLgx ·)) ∧
      files.map some = (if op = .remove then [] else args.filter endsWithLgx).map h.absolute := by
  unfold positionalArgs at hok
  split at hok
  · next hop =>
    cases hok
    rw [if_pos hop, if_pos hop]
    exact ⟨rfl, rfl⟩
  · next hop =>
    rw [if_neg hop, if_neg hop]
    exact addPositional_eq_ok hok

theorem fileArg_eq_ok {file : String} (hok : fileArg h file = .ok files) :
    files.map some = (if file.isEmpty then [] else [file]).map h.absolute := by
  unfold fileArg at hok
  split at hok
  · next hempty =>
    cases hok
    rw [if_pos hempty]
    rfl
  · next hgiven =>
    obtain ⟨f, hf, rfl⟩ := except_map_eq_ok.mp hok
    rw [if_neg hgiven, List.map_singleton, List.map_singleton, absolute_of_addFile hf]

theorem dirArg_eq_ok {dir : String} (hok : dirArg h dir = .ok files) :
    files.map some = (if dir.isEmpty then [] else lgxFiles h dir).map h.absolute := by
  unfold dirArg at hok
  split at hok
  · next hempty =>
    cases hok
    rw [if_pos hempty]
    rfl
  · next hgiven =>
    rw [if_neg hgiven]
    exact map_absolute_of_addDir hok

theorem settle_eq_ok {names' localFiles' : List String}
    (hok : settle op names localFiles = .ok (names', localFiles')) :
    names' = names ∧ localFiles' = localFiles := by
  unfold settle at hok
  split at hok
  · cases hok
  · split at hok
    · cases hok
    · cases hok
      exact ⟨rfl, rfl⟩

/-- **What the client sends is what was given.** -/
theorem mutate_eq_ok (hok : mutate h op a = .ok (names, localFiles)) :
    names = a.givenNames op ∧ localFiles.map some = (a.givenFiles h op).map h.absolute := by
  unfold mutate at hok
  split at hok
  · cases hok
  · obtain ⟨⟨names', positional⟩, hnames, hok⟩ := except_bind_eq_ok.mp hok
    obtain ⟨file, hfile, hok⟩ := except_bind_eq_ok.mp hok
    obtain ⟨dir, hdir, hok⟩ := except_bind_eq_ok.mp hok
    obtain ⟨rfl, rfl⟩ := settle_eq_ok hok
    have hpositional := positionalArgs_eq_ok hnames
    refine ⟨hpositional.1, ?_⟩
    unfold MutateArgs.givenFiles
    rw [List.map_append, List.map_append, List.map_append, List.map_append, hpositional.2,
      fileArg_eq_ok hfile, dirArg_eq_ok hdir]

/-! ## 7. What the daemon understands -/

theorem mapM_getString (xs : List String) : (xs.map Json.str).mapM Json.getString = .ok xs := by
  induction xs with
  | nil => rfl
  | cons x xs ih =>
    rw [List.map_cons, List.mapM_cons, ih]
    rfl

theorem toOp_name (op : Op) : toOp op.name = some op := by
  cases op <;> rfl

/-- The options packed into the map of an install, an upgrade or a removal. -/
def MutateArgs.options (a : MutateArgs) (localFiles : List String) : Options where
  withDeps := !a.noDeps
  withDependents := !a.noDependents
  version := a.version
  rootHash := a.rootHash
  catalog := a.catalog
  localFiles := localFiles

/-- They are unpacked as they were packed. -/
theorem toOptions_mutateOpts (a : MutateArgs) (localFiles : List String) :
    toOptions (mutateOpts a localFiles) = .ok (a.options localFiles) := by
  have hfiles : (mutateOpts a localFiles).find? "localFiles" =
      some (.arr (localFiles.map .str)) := rfl
  unfold toOptions
  rw [hfiles]
  dsimp only
  rw [mapM_getString]
  rfl

theorem decode_operation {method : String} (hmethod : method = "planPackageOperation" ∨
    method = "applyPackageOperation") (op : Op) (names : List String) {opts : Json} {o : Options}
    (ho : toOptions opts = .ok o) :
    decode (method, [.str op.name, .arr (names.map .str), opts]) =
      .ok (some (.operation op names o)) := by
  have hnames : toNames (.arr (names.map .str)) = .ok names := mapM_getString names
  refine (if_pos hmethod).trans ?_
  refine except_bind_eq_ok.mpr ⟨op.name, rfl, ?_⟩
  rw [toOp_name]
  refine except_bind_eq_ok.mpr ⟨names, hnames, ?_⟩
  exact except_bind_eq_ok.mpr ⟨o, ho, rfl⟩

/-- The map of a download is unpacked without its root hash. -/
theorem decode_download (h : Host) (a : DownloadArgs) :
    decode (downloadRequest h a) = .ok (some (.download a.pkg
      { version := a.version, catalog := a.catalog } (a.destination h))) := rfl

/-! ## 8. Which commands survive -/

theorem survives_mutate (h : Host) (op : Op) (a : MutateArgs) : Survives h (.mutate op a) := by
  intro requests hrequests q hq
  obtain ⟨⟨names, localFiles⟩, hok, hrequests⟩ := except_bind_eq_ok.mp hrequests
  cases hrequests
  obtain ⟨hnames, hfiles⟩ := mutate_eq_ok hok
  have hopts := toOptions_mutateOpts a localFiles
  refine ⟨names, a.options localFiles, ?_, ⟨hnames, rfl, rfl, rfl, rfl, rfl, hfiles⟩⟩
  simp only [List.mem_cons, List.not_mem_nil, or_false] at hq
  rcases hq with rfl | rfl
  · exact decode_operation (Or.inl rfl) op names hopts
  · exact decode_operation (Or.inr rfl) op names hopts

theorem survives_download_iff (h : Host) (a : DownloadArgs) :
    Survives h (.download a) ↔ a.rootHash = "" := by
  constructor
  · rintro ⟨o, hdecoded, hgave⟩
    rw [decode_download] at hdecoded
    cases hdecoded
    exact hgave.rootHash.symm
  · intro hempty
    exact ⟨_, decode_download h a, ⟨rfl, hempty.symm, rfl⟩⟩

/-- **Which package options survive the wire.**  Every request of a command is understood as the
user gave it, unless the command is a download with a root hash. -/
theorem survives_iff (h : Host) (c : Command) :
    Survives h c ↔ ∀ a, c = .download a → a.rootHash = "" := by
  cases c with
  | mutate op a => exact iff_of_true (survives_mutate h op a) nofun
  | download a =>
    rw [survives_download_iff]
    constructor
    · rintro hempty _ ⟨⟩
      exact hempty
    · exact fun hall => hall a rfl

end Survives

/-- **A root hash is dropped.**  `package download app --root-hash aa` reaches the daemon as a
download of any `app` of the version. -/
theorem download_drops_root_hash :
    let h : Host := ⟨some "/home", fun _ => false, fun _ => false, fun _ => []⟩
    let a : DownloadArgs := { pkg := "app", version := "1.0", rootHash := "aa" }
    decode (downloadRequest h a) = .ok (some (.download "app" { version := "1.0" } "")) ∧
      ¬ Survives h (.download a) := by
  refine ⟨rfl, ?_⟩
  rintro ⟨o, hdecoded, hgave⟩
  rw [decode_download] at hdecoded
  cases hdecoded
  exact absurd hgave.rootHash (by decide)

example : lexicallyNormal "/home/ada/../out/./pkgs/" = "/home/out/pkgs/" := by decide +kernel

end Logosctl.PackageCommand
