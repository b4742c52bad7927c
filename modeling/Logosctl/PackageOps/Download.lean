/-
# Placing a download

The downloader leaves a file where it likes, and `download` moves it to where it was asked to go.
Within a file system that is a rename.  Across file systems a rename fails, and the file is copied
over whatever stands under the name, and then removed where it was.

A file is never lost on the way, and an answer of ok names the file.  But a copy that breaks off has
emptied the earlier file of that name and written some of the new one over it: that is the one way
in which an error is not as if nothing had happened (`losesNothing_iff`).
-/
import Logosctl.DaemonConfig.Write
import Logosctl.Library.Inodes
import Logosctl.Library.Paths
import Logosctl.PackageOps

namespace Logosctl.PackageOps

open Library YamlJson

/-! ## 1. The source -/

/-- How a copy goes: it is not begun, it breaks off and leaves so much, or it goes through.  With a
failure comes its message. -/
inductive CopyIo
  | notBegun (message : String)
  | brokenOff (left : List UInt8) (message : String)
  | done
  deriving DecidableEq

/-- What the file system does: the message with which the directories cannot be made, if they
cannot; whether it takes the two directories for one; whether the rename goes through; the copy;
whether the remove does. -/
structure PlaceIo where
  createDirectories : Option String
  equivalent : Bool
  renamed : Bool
  copy : CopyIo
  removed : Bool
  deriving DecidableEq

/-- The answer of `download`. -/
inductive DownloadAnswer
  | err (code message : String)
  | ok (result : List (String × Json))

/-- `filename()`: what is behind the last slash. -/
def filename (path : String) : String :=
  String.ofList (path.toList.reverse.takeWhile (· ≠ '/')).reverse

section Download

variable {ν : Type} [DecidableEq ν] (place : String → ν)

/-- `fs::copy_file`, overwriting: with it the message when it fails.  A file is not copied onto
itself. -/
def copyFile (copy : CopyIo) (source dest : ν) (f : Files ν UInt8) :
    Option String × Files ν UInt8 :=
  match f.find source with
  | none => (some "No such file or directory", f)
  | some node =>
    if source = dest then (some "File exists", f)
    else
      match copy with
      | .notBegun message => (some message, f)
      | .brokenOff left message =>
        let (f, fd) := f.openTrunc node.mode dest
        (some message, f.write fd 0 left)
      | .done =>
        let (f, fd) := f.openTrunc node.mode dest
        (none, f.write fd 0 node.data)

/-- `fs::rename`, none when it fails. -/
def renameIf (ok : Bool) (source dest : ν) (f : Files ν UInt8) : Option (Files ν UInt8) :=
  if ok then f.rename source dest else none

/-- Moving the file of `path` into `dir`: the path it has then, or the message when it cannot be
moved. -/
def placeFile (io : PlaceIo) (path dir : String) (f : Files ν UInt8) :
    Except String String × Files ν UInt8 :=
  if io.equivalent then (.ok path, f)
  else
    let dest := joinPath dir (filename path)
    match renameIf io.renamed (place path) (place dest) f with
    | some f => (.ok dest, f)
    | none =>
      match copyFile io.copy (place path) (place dest) f with
      | (some message, f) => (.error message, f)
      | (none, f) => (.ok dest, if io.removed then f.unlink (place path) else f)

/-- Where a download is to go. -/
def downloadDir (downloadsDir destDir : String) : String :=
  if destDir.isEmpty then downloadsDir else destDir

/-- `download`, from the downloader's reply on. -/
def placeDownload (io : PlaceIo) (downloadsDir name destDir path : String)
    (reply : List (String × Json)) (f : Files ν UInt8) : DownloadAnswer × Files ν UInt8 :=
  let dir := downloadDir downloadsDir destDir
  match io.createDirectories with
  | some message =>
    (.err "DOWNLOAD_FAILED"
      ("downloaded '" ++ name ++ "' but could not create " ++ dir ++ ": " ++ message), f)
  | none =>
    match placeFile place io path dir f with
    | (.error message, f) =>
      (.err "DOWNLOAD_FAILED" ("downloaded '" ++ name ++ "' to " ++ path ++
        " but could not place it in " ++ dir ++ ": " ++ message), f)
    | (.ok path, f) => (.ok (assign "path" (.str path) reply), f)

/-- `download`.  `downloader` is what the call of `downloadPinned` brings back. -/
def download (downloader : List Json → Json × String) (io : PlaceIo)
    (downloadsDir name : String) (opts : Options) (destDir : String) (f : Files ν UInt8) :
    Except TypeError (DownloadAnswer × Files ν UInt8) :=
  match downloader [.str opts.catalog, .str name, .str opts.version, .str opts.rootHash] with
  | (.obj reply, _) => do
    let error ← Json.valueStr (.obj reply) "error"
    let path ← Json.valueStr (.obj reply) "path"
    if !error.isEmpty || path.isEmpty then
      return (.err "DOWNLOAD_FAILED"
        (if error.isEmpty then "could not download '" ++ name ++ "'" else error), f)
    else return placeDownload place io downloadsDir name destDir path reply f
  | (_, why) =>
    return (.err "DOWNLOAD_FAILED" (withReason "package_downloader did not respond" why), f)

end Download

/-! ## 2. What placing a download is to do -/

/-- The downloader has left a file at `path`, and says so. -/
def Fetched (reply : Json) (path : String) : Prop :=
  reply.isObject = true ∧ reply.valueStr "error" = .ok "" ∧ reply.valueStr "path" = .ok path ∧
    path ≠ ""

/-- **Nothing is lost**: an answer of ok names a file that holds the fetched bytes; after an error
the fetched file is where it was, and so is an earlier file at the destination. -/
def LosesNothing {ν : Type} (place : String → ν) (path dest : String) (bytes : List UInt8)
    (f f' : Files ν UInt8) : DownloadAnswer → Prop
  | .ok result => ∃ placed, Json.find? (.obj result) "path" = some (.str placed) ∧
      f'.read (place placed) = some bytes
  | .err _ _ => f'.read (place path) = some bytes ∧
      ∀ earlier, f.read (place dest) = some earlier → f'.read (place dest) = some earlier

/-- **A copy that breaks off over an earlier file**: the rename fails, and what the copy leaves is
not what was there. -/
def Overwrites {ν : Type} (place : String → ν) (io : PlaceIo) (path dest : String)
    (f : Files ν UInt8) : Prop :=
  io.createDirectories = none ∧ io.equivalent = false ∧ io.renamed = false ∧
    place path ≠ place dest ∧ ∃ left message earlier, io.copy = .brokenOff left message ∧
      f.read (place dest) = some earlier ∧ earlier ≠ left

/-! ## 3. Each step -/

section Placing

variable {ν : Type} [DecidableEq ν] {place : String → ν} {io : PlaceIo} {copy : CopyIo}
  {source dest : ν} {node : Inode UInt8} {path dir : String} {bytes earlier : List UInt8}
  {f f' : Files ν UInt8}

theorem renameIf_eq_none_iff {ok : Bool} (h : f.find source = some node) :
    renameIf ok source dest f = none ↔ ok = false := by
  obtain ⟨i, hi, -⟩ := Option.map_eq_some_iff.mp h
  have hsome : f.rename source dest = some (f.move source dest i hi) :=
    Files.rename_eq_some_iff.mpr ⟨i, hi, rfl⟩
  cases ok with
  | true => simp [renameIf, hsome]
  | false => simp [renameIf]

/-- A rename takes the file along. -/
theorem renameIf_read {ok : Bool} (h : renameIf ok source dest f = some f') :
    f'.read dest = f.read source := by
  unfold renameIf at h
  split at h
  · exact congrArg (Option.map Inode.data) (Files.rename_find_dest h)
  · cases h

/-- The message of a copy that fails. -/
def CopyIo.failure : CopyIo → Option String
  | .notBegun message | .brokenOff _ message => some message
  | .done => none

/-- What a copy onto another name leaves of both: all, nothing, or so much. -/
theorem copyFile_of_ne (h : f.find source = some node) (hne : source ≠ dest) :
    ∃ f', copyFile copy source dest f = (copy.failure, f') ∧ f'.find source = some node ∧
      f'.read dest =
        match copy with
        | .notBegun _ => f.read dest
        | .brokenOff left _ => some left
        | .done => some node.data := by
  simp only [copyFile, h, if_neg hne]
  cases copy with
  | notBegun message => exact ⟨f, rfl, h, rfl⟩
  | brokenOff left message =>
    exact ⟨_, rfl, (Files.openTrunc_write_find_of_ne hne left).trans h,
      congrArg (Option.map Inode.data) (Files.openTrunc_write_find ..)⟩
  | done =>
    exact ⟨_, rfl, (Files.openTrunc_write_find_of_ne hne node.data).trans h,
      congrArg (Option.map Inode.data) (Files.openTrunc_write_find ..)⟩

/-- **How placing a file ends**: under the new path the file is there; or it is where it was, and at
the destination nothing has happened, or a copy has broken off. -/
theorem placeFile_cases {to' : String} (hto : joinPath dir (filename path) = to')
    (hnode : f.find (place path) = some node) :
    ∃ r f', placeFile place io path dir f = (r, f') ∧
      ((∃ placed, r = .ok placed ∧ f'.read (place placed) = some node.data ∧
          (io.equivalent = true ∨ io.renamed = true ∨ io.copy = .done)) ∨
        ∃ message, r = .error message ∧ io.equivalent = false ∧ io.renamed = false ∧
          f'.find (place path) = some node ∧
          (f'.read (place to') = f.read (place to') ∧
              (place path = place to' ∨ ∃ m, io.copy = .notBegun m) ∨
            place path ≠ place to' ∧
              ∃ left m, io.copy = .brokenOff left m ∧ f'.read (place to') = some left)) := by
  have hbytes : f.read (place path) = some node.data := congrArg (Option.map Inode.data) hnode
  unfold placeFile
  by_cases hequivalent : io.equivalent = true
  · rw [if_pos hequivalent]
    exact ⟨_, _, rfl, Or.inl ⟨path, rfl, hbytes, Or.inl hequivalent⟩⟩
  · have hapart : io.equivalent = false := Bool.eq_false_iff.mpr hequivalent
    rw [if_neg hequivalent, hto]
    dsimp only
    cases hrename : renameIf io.renamed (place path) (place to') f with
    | some f' =>
      have hok : io.renamed = true := by
        by_contra h
        rw [(renameIf_eq_none_iff hnode).mpr (Bool.eq_false_iff.mpr h)] at hrename
        cases hrename
      exact ⟨_, _, rfl, Or.inl ⟨to', rfl, (renameIf_read hrename).trans hbytes,
        Or.inr (Or.inl hok)⟩⟩
    | none =>
      have hfails := (renameIf_eq_none_iff hnode).mp hrename
      by_cases hsame : place path = place to'
      · have hcopy : copyFile io.copy (place path) (place to') f = (some "File exists", f) := by
          simp only [copyFile, hnode, if_pos hsame]
        rw [hcopy]
        exact ⟨_, _, rfl, Or.inr ⟨_, rfl, hapart, hfails, hnode, Or.inl ⟨rfl, Or.inl hsame⟩⟩⟩
      · obtain ⟨f', hcopy, hsource, hdest⟩ := @copyFile_of_ne _ _ io.copy _ _ _ _ hnode hsame
        rw [hcopy]
        cases hio : io.copy with
        | notBegun message =>
          rw [hio] at hdest
          exact ⟨_, _, rfl, Or.inr ⟨message, rfl, hapart, hfails, hsource,
            Or.inl ⟨hdest, Or.inr ⟨message, rfl⟩⟩⟩⟩
        | brokenOff left message =>
          rw [hio] at hdest
          exact ⟨_, _, rfl, Or.inr ⟨message, rfl, hapart, hfails, hsource,
            Or.inr ⟨hsame, left, message, rfl, hdest⟩⟩⟩
        | done =>
          rw [hio] at hdest
          refine ⟨_, _, rfl, Or.inl ⟨to', rfl, ?_, Or.inr (Or.inr rfl)⟩⟩
          split
          · exact (congrArg (Option.map Inode.data)
              (Files.unlink_find_of_ne (Ne.symm hsame))).trans hdest
          · exact hdest

end Placing

/-! ## 4. Downloads -/

section Download

variable {ν : Type} [DecidableEq ν] {place : String → ν} {downloader : List Json → Json × String}
  {io : PlaceIo} {downloadsDir name destDir path : String} {opts : Options}
  {bytes : List UInt8} {f f' : Files ν UInt8} {answer : DownloadAnswer}

/-- The call to the downloader. -/
def downloadArgs (opts : Options) (name : String) : List Json :=
  [.str opts.catalog, .str name, .str opts.version, .str opts.rootHash]

/-- The file a download is placed under. -/
def destination (downloadsDir destDir path : String) : String :=
  joinPath (downloadDir downloadsDir destDir) (filename path)

/-- What was fetched is placed. -/
theorem download_of_fetched (h : Fetched (downloader (downloadArgs opts name)).1 path) :
    ∃ reply, download place downloader io downloadsDir name opts destDir f =
      .ok (placeDownload place io downloadsDir name destDir path reply f) := by
  obtain ⟨hobject, herror, hpath, hne⟩ := h
  unfold download
  cases hreply : downloader (downloadArgs opts name) with
  | mk r why =>
    rw [hreply] at hobject herror hpath
    unfold downloadArgs at hreply
    rw [hreply]
    cases r with
    | obj reply =>
      refine ⟨reply, ?_⟩
      simp only [herror, hpath]
      simp [bind, Except.bind, pure, Except.pure, hne]
    | _ => cases hobject

/-- **When a download loses nothing**: for every state of the directories and every way in which the
moving may go, exactly when no copy breaks off over an earlier file. -/
theorem losesNothing_iff (hfetched : Fetched (downloader (downloadArgs opts name)).1 path)
    (hbytes : f.read (place path) = some bytes)
    (h : download place downloader io downloadsDir name opts destDir f = .ok (answer, f')) :
    LosesNothing place path (destination downloadsDir destDir path) bytes f f' answer ↔
      ¬ Overwrites place io path (destination downloadsDir destDir path) f := by
  obtain ⟨reply, hdownload⟩ := @download_of_fetched _ _ place _ io downloadsDir name destDir path
    opts f hfetched
  have hplaced := Except.ok.inj (hdownload.symm.trans h)
  obtain ⟨node, hnode, rfl⟩ := Option.map_eq_some_iff.mp hbytes
  unfold placeDownload at hplaced
  cases hdirs : io.createDirectories with
  | some message =>
    rw [hdirs] at hplaced
    obtain ⟨rfl, rfl⟩ := Prod.mk.inj hplaced
    refine iff_of_true ⟨hbytes, fun _ h => h⟩ ?_
    rintro ⟨hnone, -⟩
    rw [hdirs] at hnone
    cases hnone
  | none =>
    obtain ⟨r, f'', hplace, ⟨placed, rfl, hread, hhow⟩ |
        ⟨message, rfl, hapart, hfails, hsource, hleft⟩⟩ :=
      @placeFile_cases _ _ place io node path _ f _
        (rfl : _ = destination downloadsDir destDir path) hnode
    · simp only [hdirs, hplace] at hplaced
      obtain ⟨rfl, rfl⟩ := Prod.mk.inj hplaced
      refine iff_of_true ⟨placed, by simp [Json.find?], hread⟩ ?_
      rintro ⟨-, hapart, hfails, -, left, message, -, hcopy, -⟩
      rcases hhow with h | h | h
      · rw [hapart] at h
        cases h
      · rw [hfails] at h
        cases h
      · rw [hcopy] at h
        cases h
    · simp only [hdirs, hplace] at hplaced
      obtain ⟨rfl, rfl⟩ := Prod.mk.inj hplaced
      have hsource' : f''.read (place path) = some node.data :=
        congrArg (Option.map Inode.data) hsource
      rcases hleft with ⟨hsame, hnone⟩ | ⟨hne, left, m, hcopy, hdest⟩
      · refine iff_of_true ⟨hsource', fun earlier hearlier => hsame.trans hearlier⟩ ?_
        rintro ⟨-, -, -, hne, left, m, -, hcopy, -⟩
        rcases hnone with hsame | ⟨m', hnot⟩
        · exact hne hsame
        · rw [hcopy] at hnot
          cases hnot
      · -- the copy has left what it has left, and that is as before only if it is the same
        constructor
        · rintro ⟨-, hkept⟩ ⟨-, -, -, -, left', m', earlier, hcopy', hearlier, hother⟩
          rw [hcopy] at hcopy'
          cases hcopy'
          exact hother (Option.some.inj ((hkept earlier hearlier).symm.trans hdest))
        · intro hnot
          refine ⟨hsource', fun earlier hearlier => ?_⟩
          by_contra hchanged
          refine hnot ⟨hdirs, hapart, hfails, hne, left, m, earlier, hcopy, hearlier, ?_⟩
          rintro rfl
          exact hchanged hdest

end Download

/-! ## 5. Across file systems -/

/-- What was fetched. -/
def fetchedBytes : List UInt8 := [76, 71, 88, 50]

/-- The downloader hands over a file in the temporary directory. -/
def storageFetched : List Json → Json × String :=
  fun _ => (.obj [("name", .str "storage"), ("path", .str "/tmp/storage.lgx")], "")

/-- The fetched file, and an earlier one of the same name where it is to go. -/
def twoPackages : Files Place UInt8 :=
  let (f, fd) := Files.empty.openTrunc 0o644 (resolve "/tmp/storage.lgx")
  let (f, fd') := (f.write fd 0 fetchedBytes).openTrunc 0o644
    (resolve "/home/ada/downloads/storage.lgx")
  f.write fd' 0 [76, 71, 88, 49]

/-- The rename fails, since the two directories are on different file systems. -/
def acrossDevices (copy : CopyIo) : PlaceIo where
  createDirectories := none
  equivalent := false
  renamed := false
  copy := copy
  removed := true

/-- A download of it. -/
def downloadStorage (copy : CopyIo) :
    Except TypeError (DownloadAnswer × Files Place UInt8) :=
  download resolve storageFetched (acrossDevices copy) "/home/ada/downloads" "storage" {} ""
    twoPackages

theorem storage_fetched :
    Fetched (storageFetched (downloadArgs {} "storage")).1 "/tmp/storage.lgx" :=
  ⟨rfl, by decide, by decide, by decide⟩

theorem fetched_read : twoPackages.read (resolve "/tmp/storage.lgx") = some fetchedBytes := by
  decide +kernel

/-- A copy that goes through replaces the earlier file. -/
theorem storage_placed : ∃ answer f', downloadStorage .done = .ok (answer, f') ∧
    LosesNothing resolve "/tmp/storage.lgx"
      (destination "/home/ada/downloads" "" "/tmp/storage.lgx") fetchedBytes twoPackages f'
      answer := by
  obtain ⟨reply, hrun⟩ := @download_of_fetched _ _ resolve storageFetched (acrossDevices .done)
    "/home/ada/downloads" "storage" "" "/tmp/storage.lgx" {} twoPackages storage_fetched
  refine ⟨_, _, hrun, (losesNothing_iff storage_fetched fetched_read hrun).mpr ?_⟩
  rintro ⟨-, -, -, -, left, message, -, hcopy, -⟩
  cases hcopy

/-- **The earlier file is gone**: the disk is full after one byte, and the error leaves that byte of
the new file where the earlier one was. -/
theorem earlier_overwritten :
    ¬ ∀ (place : String → Place) (downloader : List Json → Json × String) (io : PlaceIo)
      (downloadsDir name : String) (opts : Options) (destDir path : String) (bytes : List UInt8)
      (f f' : Files Place UInt8) (answer : DownloadAnswer),
      Fetched (downloader (downloadArgs opts name)).1 path → f.read (place path) = some bytes →
        download place downloader io downloadsDir name opts destDir f = .ok (answer, f') →
          LosesNothing place path (destination downloadsDir destDir path) bytes f f' answer := by
  intro h
  obtain ⟨f', hrun, hleft⟩ : ∃ f', downloadStorage (.brokenOff [76] "No space left on device") =
      .ok (.err "DOWNLOAD_FAILED" ("downloaded 'storage' to /tmp/storage.lgx but could not " ++
        "place it in /home/ada/downloads: No space left on device"), f') ∧
      f'.read (resolve "/home/ada/downloads/storage.lgx") = some [76] := ⟨_, rfl, by decide +kernel⟩
  have hearlier : twoPackages.read (resolve "/home/ada/downloads/storage.lgx") =
      some [76, 71, 88, 49] := by decide +kernel
  have hdest : destination "/home/ada/downloads" "" "/tmp/storage.lgx" =
      "/home/ada/downloads/storage.lgx" := by decide
  obtain ⟨-, hkept⟩ := h _ _ _ _ _ _ _ _ _ _ _ _ storage_fetched fetched_read hrun
  rw [hdest] at hkept
  exact absurd ((hkept _ hearlier).symm.trans hleft) (by decide)

end Logosctl.PackageOps
