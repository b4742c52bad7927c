/-
# What an `Ok` issue leaves, and at which mode

Three files are written by an issue: the side file with the raw token, the temp of `tokens.json`,
and by their renames the two that are published.  A stream that is good after its last write may
still fail to flush at the close, which the writer of the side file does not look at, and neither
writer looks at what the change of mode answers.  So an issue can answer `Ok` and leave a raw-token
file cut short, or a credential file at the mode that the umask, or an older file under the name,
gives it.

`issued_iff` says for every schedule of faults when that does not happen.
-/
import Logosctl.TokenStore.Faults

namespace Logosctl.TokenStore.OnDisk

open Logosctl.Library

/-! ## 1. What stands under a name after a write -/

/-- The mode of a file that was opened at `p` and then perhaps restricted. -/
def modeAfter (restricted : Bool) (umask : Nat) (p : Place) (d : Disk) : Nat :=
  if restricted then ownerOnly else d.files.modeAt (createdMode umask) p

namespace Disk

variable {d d' : Disk} {p : Place} {x : Inode Json}

theorem stream_find {how : Stream} {whole : Json} {data : List Json}
    (h : how.data whole = some data) (umask : Nat) (p : Place) (d : Disk) :
    (d.stream how umask p whole).files.find p
      = some ⟨d.files.modeAt (createdMode umask) p, data⟩ := by
  unfold stream
  rw [h]
  exact Files.openTrunc_write_find d.files (createdMode umask) p data

/-- A file written and then perhaps restricted. -/
theorem stream_chmod_find {how : Stream} {whole : Json} {data : List Json}
    (h : how.data whole = some data) (umask : Nat) (ok : Bool) (p : Place) (d : Disk) :
    ((d.stream how umask p whole).chmod ok p).files.find p
      = some ⟨modeAfter ok umask p d, data⟩ := by
  have hfind := stream_find h umask p d
  cases ok with
  | false => exact hfind
  | true => exact Files.chmod_find_self hfind

/-- A rename takes the file along, its mode included. -/
theorem exists_rename_find {a : Place} (h : d.files.find a = some x) (b : Place) :
    ∃ d', d.rename a b = some d' ∧ d'.files.find b = some x := by
  have hread : d.files.read a = some x.data := by rw [Files.read, h, Option.map_some]
  obtain ⟨d', hrename, -⟩ := exists_rename hread b
  refine ⟨d', hrename, ?_⟩
  obtain ⟨f, hf, rfl⟩ := Option.map_eq_some_iff.mp hrename
  rw [Files.rename_find_dest hf, h]

theorem modeAt_congr (h : d'.files.find p = d.files.find p) (mode : Nat) :
    d'.files.modeAt mode p = d.files.modeAt mode p := by
  rw [Files.modeAt, h, Files.modeAt]

end Disk

section Parts

variable {daemonDir name : String} {io : DiskIo} {d : Disk}

theorem sidePlace_ne_tmpPlace (h : '/' ∉ name.toList) :
    sidePlace daemonDir name ≠ tmpPlace daemonDir := by
  rw [sidePlace_eq h, tmpPlace_eq]
  simp

/-- The staging, when it is reported to be done. -/
theorem writeRawTokenFile_find (daemonDir : String) (d : Disk) (h : io.stages = true)
    (t : RawToken) :
    ∃ d' data, writeRawTokenFile daemonDir io t d = (true, d')
      ∧ io.side.data (rawToJson t) = some data
      ∧ d'.files.find (sidePlace daemonDir t.name)
        = some ⟨modeAfter io.sideRestricted io.umask (sidePlace daemonDir t.name) d, data⟩
      ∧ Disk.Touches [sidePlace daemonDir t.name] d d' := by
  obtain ⟨hdirectories, hwrites⟩ := Bool.and_eq_true_iff.mp h
  obtain ⟨data, hdata⟩ : ∃ data, io.side.data (rawToJson t) = some data := by
    cases hside : io.side with
    | notOpened => rw [hside] at hwrites; cases hwrites
    | writeFailed left => exact ⟨_, rfl⟩
    | closeFailed left => exact ⟨_, rfl⟩
    | closed => exact ⟨_, rfl⟩
  refine ⟨_, data, ?_, hdata, Disk.stream_chmod_find hdata io.umask io.sideRestricted _ d,
    (Disk.stream_touches ..).trans (Disk.chmod_touches ..)⟩
  simp [writeRawTokenFile, hdirectories, hwrites]

/-- The list, when it is published. -/
theorem TokensFile.write_find (daemonDir : String) (d : Disk) (h : io.commits = true)
    (tokens : List TokenEntry) :
    ∃ d', TokensFile.write daemonDir io tokens d = (true, d')
      ∧ d'.files.find (tokensPlace daemonDir)
        = some ⟨modeAfter io.tempRestricted io.umask (tmpPlace daemonDir) d,
          [TokensFile.toJson tokens]⟩
      ∧ Disk.Touches [tmpPlace daemonDir, tokensPlace daemonDir] d d' := by
  obtain ⟨h, hrenamed⟩ := Bool.and_eq_true_iff.mp h
  obtain ⟨hdirectories, hcloses⟩ := Bool.and_eq_true_iff.mp h
  have hfind := Disk.stream_chmod_find (Stream.data_of_closes hcloses (TokensFile.toJson tokens))
    io.umask io.tempRestricted (tmpPlace daemonDir) d
  obtain ⟨d', hrename, hpublished⟩ := Disk.exists_rename_find hfind (tokensPlace daemonDir)
  refine ⟨d', ?_, hpublished, ?_⟩
  · simp [TokensFile.write, hdirectories, hcloses, hrenamed, hrename]
  · exact ((Disk.stream_touches ..).trans (Disk.chmod_touches ..)).mono (by simp)
      |>.trans (Disk.rename_touches hrename)

/-- Where the raw token ends up: in place, unless both renames fail. -/
def publishedRaw (daemonDir : String) (io : DiskIo) (name : String) : Place :=
  if io.promoted || io.promotedAgain then rawPlace daemonDir name else sidePlace daemonDir name

theorem promote_find {x : Inode Json} (h : d.files.find (sidePlace daemonDir name) = some x) :
    (promote daemonDir io name d).files.find (publishedRaw daemonDir io name) = some x := by
  obtain ⟨d', hrename, hfind⟩ := Disk.exists_rename_find h (rawPlace daemonDir name)
  unfold promote promoteOnce publishedRaw
  cases io.promoted <;> cases io.promotedAgain <;> simp [hrename, hfind, h]

end Parts

/-! ## 2. What an issue that answers `Ok` leaves -/

section Issue

variable {sha256 : String → Vector UInt8 32} {daemonDir name : String} {io : DiskIo}
  {d d' : Disk} {token : String}

theorem exec_commitIssue_find {ts : List TokenEntry} {raw : RawToken}
    (hsafe : isSafeName name = true) (hraw : raw.name = name)
    (h : (commitIssue daemonDir io name ts raw).exec d
      = (.ok { status := .ok, token := token }, d')) :
    token = raw.token ∧ io.side.writes = true ∧ ∃ data, io.side.data (rawToJson raw) = some data
      ∧ d'.files.find (publishedRaw daemonDir io name)
        = some ⟨modeAfter io.sideRestricted io.umask (sidePlace daemonDir name) d, data⟩
      ∧ d'.files.find (tokensPlace daemonDir)
        = some ⟨modeAfter io.tempRestricted io.umask (tmpPlace daemonDir) d,
          [TokensFile.toJson ts]⟩ := by
  obtain ⟨u, ⟨hexec, hstages, hcommits, -⟩ | ⟨hexec, -, -⟩⟩ :=
    exec_commitIssue daemonDir io d ts hsafe hraw
  swap
  · rw [hexec] at h
    cases h
  rw [hexec] at h
  cases h
  subst hraw
  have hslash := not_slash_of_isSafeName hsafe
  obtain ⟨d₁, data, hstage, hdata, hside, htouches₁⟩ :=
    writeRawTokenFile_find daemonDir d hstages raw
  obtain ⟨d₂, hwrite, htokens, htouches₂⟩ :=
    TokensFile.write_find daemonDir d₁ hcommits ts
  have hend : d' = promote daemonDir io raw.name d₂ := by
    have hrun : (commitIssue daemonDir io raw.name ts raw).exec d
        = (.ok { status := .ok, token := raw.token }, promote daemonDir io raw.name d₂) := by
      simp [commitIssue, Prog.exec_bind, hstage, hwrite, -bind_pure_comp]
    rw [hexec] at hrun
    exact (Prod.mk.inj hrun).2
  -- the list does not touch the side file, nor the staging the temp, nor the promotion the list
  have hside₂ : d₂.files.find (sidePlace daemonDir raw.name)
      = d₁.files.find (sidePlace daemonDir raw.name) :=
    htouches₂.find (by simp [sidePlace_ne_tmpPlace hslash, sidePlace_ne_tokensPlace hslash])
  have htmp₁ : d₁.files.find (tmpPlace daemonDir) = d.files.find (tmpPlace daemonDir) :=
    htouches₁.find (by simp [(sidePlace_ne_tmpPlace hslash).symm])
  have htokens' : (promote daemonDir io raw.name d₂).files.find (tokensPlace daemonDir)
      = d₂.files.find (tokensPlace daemonDir) :=
    (promote_touches daemonDir io d₂ raw.name).find (by
      simp [(sidePlace_ne_tokensPlace hslash).symm, (rawPlace_ne_tokensPlace hslash).symm])
  refine ⟨rfl, (Bool.and_eq_true_iff.mp hstages).2, data, hdata, ?_, ?_⟩
  · rw [hend]
    exact promote_find (hside₂.trans hside)
  · rw [hend, htokens', htokens, modeAfter, Disk.modeAt_congr htmp₁, ← modeAfter]

/-- An issue that answers `Ok` got as far as its writes. -/
theorem issueToken_ok {expiresAt : String} {localOnly replace : Bool}
    (h : (issueToken sha256 daemonDir io name expiresAt localOnly replace).exec d
      = (.ok { status := .ok, token := token }, d')) :
    isSafeName name = true ∧ ∃ seen ts raw,
      issueEntries sha256 io.io name expiresAt localOnly replace seen = .ok (ts, raw)
      ∧ (commitIssue daemonDir io name ts raw).exec d
        = (.ok { status := .ok, token := token }, d') := by
  by_cases hsafe : isSafeName name = true
  · refine ⟨hsafe, ?_⟩
    unfold issueToken withTokens at h
    rw [if_neg (by simp [hsafe]), Prog.exec_bind_of_ok (Prog.exec_get d)] at h
    cases hversion : TokensFile.onDiskVersionUnsupported (d.content daemonDir io.versionOpens) with
    | error e =>
      rw [hversion, Prog.exec_bind_of_error (Prog.exec_lift_error id e d)] at h
      cases h
    | ok unsupported =>
      rw [hversion, Prog.exec_bind_of_ok (Prog.exec_lift_ok id unsupported d)] at h
      cases unsupported with
      | true => cases h
      | false =>
        rw [if_neg (by simp), Prog.exec_bind_of_ok (Prog.exec_get d)] at h
        cases hread : TokensFile.read (d.content daemonDir io.listOpens) with
        | error e =>
          rw [hread, Prog.exec_bind_of_error (Prog.exec_lift_error id e d)] at h
          cases h
        | ok seen =>
          rw [hread, Prog.exec_bind_of_ok (Prog.exec_lift_ok id seen d)] at h
          cases hent : issueEntries sha256 io.io name expiresAt localOnly replace seen with
          | error r =>
            simp only [hent] at h
            cases h
            exact absurd rfl (issueEntries_error hent)
          | ok change =>
            obtain ⟨ts, raw⟩ := change
            simp only [hent] at h
            exact ⟨seen, ts, raw, hent, h⟩
  · have hunsafe : isSafeName name = false := by simpa using hsafe
    rw [issueToken, exec_withTokens_invalidName hunsafe] at h
    cases h

/-- What an issue decides: the token is the one generated, and its entry is on the list. -/
theorem issueEntries_ok {io : Io} {expiresAt : String} {localOnly replace : Bool}
    {seen ts : List TokenEntry} {raw : RawToken}
    (h : issueEntries sha256 io name expiresAt localOnly replace seen = .ok (ts, raw)) :
    raw = ⟨name, generateToken io.random, io.issuedAt⟩
      ∧ issuedEntry sha256 io name expiresAt localOnly ∈ ts := by
  unfold issueEntries at h
  split at h
  · cases h
  · simp only at h
    split at h
    · cases h
    · cases h
      exact ⟨rfl, by simp [issuedEntry]⟩

/-- The document is the whole one of the raw token: whoever opens the file reads the token in it,
whom it is for and when it was issued. -/
structure DocumentOf (t : RawToken) (document : Json) : Prop where
  whole : document = rawToJson t
  token : document.valueStr "token" = .ok t.token
  name : document.valueStr "name" = .ok t.name
  issuedAt : document.valueStr "issued_at" = .ok t.issuedAt

theorem documentOf_rawToJson (t : RawToken) : DocumentOf t (rawToJson t) := ⟨rfl, rfl, rfl, rfl⟩

/-- The raw token is in a file that holds its whole document, its hash is on the list that is
published, and both files are the owner's alone. -/
structure UsableAndPrivate (sha256 : String → Vector UInt8 32) (daemonDir : String) (io : DiskIo)
    (name token : String) (d' : Disk) : Prop where
  raw : ∃ document, d'.files.find (publishedRaw daemonDir io name) = some ⟨ownerOnly, [document]⟩
    ∧ DocumentOf ⟨name, token, io.issuedAt⟩ document
  hash : ∃ ts, d'.files.find (tokensPlace daemonDir) = some ⟨ownerOnly, [TokensFile.toJson ts]⟩
    ∧ ∃ e ∈ ts, e.name = name ∧ e.hash = hashToken sha256 token

/-- The faults that an issue does not look at did no harm: what is left of the side file by a close
that fails is whole, and where a change of mode fails the file is the owner's alone as it is. -/
structure FaultsHarmless (daemonDir : String) (io : DiskIo) (name : String) (d : Disk) : Prop where
  flushed : ∀ left, io.side = .closeFailed left →
    left = [rawToJson ⟨name, generateToken io.random, io.issuedAt⟩]
  side : io.sideRestricted = true ∨
    d.files.modeAt (createdMode io.umask) (sidePlace daemonDir name) = ownerOnly
  temp : io.tempRestricted = true ∨
    d.files.modeAt (createdMode io.umask) (tmpPlace daemonDir) = ownerOnly

theorem modeAfter_eq_iff {restricted : Bool} {umask : Nat} {p : Place} :
    modeAfter restricted umask p d = ownerOnly ↔
      restricted = true ∨ d.files.modeAt (createdMode umask) p = ownerOnly := by
  cases restricted <;> simp [modeAfter]

theorem Stream.data_eq_whole_iff {how : Stream} {whole : Json} {data : List Json}
    (hwrites : how.writes = true) (h : how.data whole = some data) :
    data = [whole] ↔ ∀ left, how = .closeFailed left → left = [whole] := by
  cases how with
  | notOpened => cases hwrites
  | writeFailed left => cases hwrites
  | closeFailed left =>
    obtain rfl := Option.some.inj h
    simp
  | closed =>
    obtain rfl := Option.some.inj h
    simp

/-- **Issued means usable and private** exactly for the schedules of faults that do no harm where
an issue does not look. -/
theorem issued_iff {expiresAt : String} {localOnly replace : Bool}
    (h : (issueToken sha256 daemonDir io name expiresAt localOnly replace).exec d
      = (.ok { status := .ok, token := token }, d')) :
    UsableAndPrivate sha256 daemonDir io name token d' ↔ FaultsHarmless daemonDir io name d := by
  obtain ⟨hsafe, seen, ts, raw, hent, hcommit⟩ := issueToken_ok h
  obtain ⟨rfl, hentry⟩ := issueEntries_ok hent
  obtain ⟨rfl, hwrites, data, hdata, hside, htokens⟩ := exec_commitIssue_find hsafe rfl hcommit
  have hwhole := Stream.data_eq_whole_iff hwrites hdata
  constructor
  · intro husable
    obtain ⟨document, hraw, hdocument⟩ := husable.raw
    rw [hside, Option.some.injEq, Inode.mk.injEq, hdocument.whole] at hraw
    obtain ⟨ts', hlist, -⟩ := husable.hash
    rw [htokens, Option.some.injEq, Inode.mk.injEq] at hlist
    exact ⟨hwhole.mp hraw.2, modeAfter_eq_iff.mp hraw.1, modeAfter_eq_iff.mp hlist.1⟩
  · intro hharmless
    rw [modeAfter_eq_iff.mpr hharmless.side, hwhole.mpr hharmless.flushed] at hside
    rw [modeAfter_eq_iff.mpr hharmless.temp] at htokens
    exact ⟨⟨_, hside, documentOf_rawToJson _⟩, ts, htokens, _, hentry, rfl, rfl⟩

/-- What an issue for `alice` by the system calls of `io` does on an empty disk. -/
def aliceIssued (io : DiskIo) : Except TypeError IssueResult × Disk :=
  (issueToken sampleSha256 sampleDir io "alice" "" false false).exec emptyDisk

theorem aliceIssued_eq {io : DiskIo} {o : IssueResult} (h : (aliceIssued io).1 = .ok o) :
    (issueToken sampleSha256 sampleDir io "alice" "" false false).exec emptyDisk =
      (.ok o, (aliceIssued io).2) :=
  Prod.ext h rfl

/-- All going well but for the second rename, which is not needed. -/
theorem alice_usable_private :
    UsableAndPrivate sampleSha256 sampleDir { goodDiskIo 0 with promotedAgain := false } "alice"
      zerosToken (aliceIssued { goodDiskIo 0 with promotedAgain := false }).2 := by
  have hok : (aliceIssued { goodDiskIo 0 with promotedAgain := false }).1 =
      .ok { status := .ok, token := zerosToken } := by decide +kernel
  exact (issued_iff (aliceIssued_eq hok)).mpr ⟨by rintro left ⟨⟩, .inl rfl, .inl rfl⟩

/-- **`tokens.json` at the mode of the umask**: the change of mode fails, and the issue answers
`Ok`. -/
theorem list_published_readable :
    ¬ ∀ (sha256 : String → Vector UInt8 32) (daemonDir : String) (io : DiskIo)
      (name expiresAt : String) (localOnly replace : Bool) (d d' : Disk) (token : String),
      (issueToken sha256 daemonDir io name expiresAt localOnly replace).exec d
        = (.ok { status := .ok, token := token }, d') →
      UsableAndPrivate sha256 daemonDir io name token d' := by
  intro h
  have hok : (aliceIssued { goodDiskIo 0 with tempRestricted := false }).1 =
      .ok { status := .ok, token := zerosToken } := by decide +kernel
  have husable := h _ _ _ _ _ _ _ _ _ _ (aliceIssued_eq hok)
  have hmode : ((aliceIssued { goodDiskIo 0 with tempRestricted := false }).2.files.find
      (tokensPlace sampleDir)).map Inode.mode = some 0o644 := by decide +kernel
  obtain ⟨ts, hlist, -⟩ := husable.hash
  have hwide : some ownerOnly = some 0o644 := by
    rw [← hmode, hlist]
    rfl
  exact absurd hwide (by decide)

end Issue

end Logosctl.TokenStore.OnDisk
