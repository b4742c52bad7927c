/-
# The auto token on its way to the clients

The raw token of a boot goes into `client/auto.json`, at a mode that only the owner can read.  On
its way there it goes into a file beside it, which a stream creates at the mode that the umask
leaves, or opens at the mode that it has; the mode is changed when the token has been written.  The
directory is made at the mode that the umask leaves as well.

Here a boot writes its files step by step, and everything may fail.  `unexposed_iff`: nobody else
can read of the token at any of the steps exactly when the mode that the temp is opened at and the
mode of the directory have no such reader in common, or there is no token to be read.

The files are those of `client/`, by their names.  Characters carry a mark that tells which of them
are the token's.
-/
import Logosctl.AtomicWrite
import Logosctl.ClientArtifacts

namespace Logosctl

open Library TokenStore AtomicWrite

/-! ## 1. Who else reads -/

/-- The two classes of users besides the owner. -/
inductive Others
  | group
  | other
  deriving DecidableEq

/-- The bit that lets them read a file. -/
def Others.read : Others → Nat
  | group => 0o040
  | other => 0o004

/-- The bit that lets them through a directory. -/
def Others.traverse : Others → Nat
  | group => 0o010
  | other => 0o001

/-- Some of them get through a directory of one mode to a file of the other. -/
def OpenToOthers (dirMode fileMode : Nat) : Prop :=
  ∃ who : Others, fileMode &&& who.read ≠ 0 ∧ dirMode &&& who.traverse ≠ 0

/-- The mode of a directory that is made. -/
def createdDirMode (umask : Nat) : Nat := 0o777 - (0o777 &&& umask)

theorem not_openToOthers_ownerOnly (dirMode : Nat) : ¬ OpenToOthers dirMode ownerOnly := by
  rintro ⟨who, hread, -⟩
  cases who <;> exact hread (by decide)

/-! ## 2. The steps of a boot -/

/-- A character, and whether it is one of the raw token. -/
structure Marked where
  char : Char
  secret : Bool
  deriving DecidableEq, Inhabited

def unmarked (cs : List Char) : List Marked := cs.map fun c => ⟨c, false⟩

def marked (cs : List Char) : List Marked := cs.map fun c => ⟨c, true⟩

/-- A call of `writeLocalClientArtifacts` without an access group, in its process: the umask, the
process id, the number that the next temp gets, and whether a configuration that exists can be
opened.  The token stands in the text of `auto.json` as it is. -/
structure ArtifactCall where
  fmt : Format
  booted : BootedDaemon
  umask : Nat
  pid : Nat
  tmpSeq : Nat
  configOpens : Bool
  front : List Char
  back : List Char
  auto_eq : (fmt.json (autoTokenDocument booted)).toList =
    front ++ (booted.autoTokenRaw.toList ++ back)

namespace ArtifactCall

variable (call : ArtifactCall)

/-- The last component of `Config::clientConfigPath`. -/
def configName : String :=
  match call.fmt.flavor with
  | .modern => "config.yaml"
  | .legacy => "config.json"

/-- A file of the directory, with its temp. -/
def target (name : String) (tmpSeq : Nat) : Target String where
  path := name
  tmp := tmpPath name call.pid tmpSeq
  ne := by
    intro h
    have hlength := congrArg String.length h
    unfold tmpPath at hlength
    simp only [String.length_append] at hlength
    have hlong : ".tmp.".length = 5 := by decide
    omega

/-- What is written of the configuration. -/
def configText (tokenFileName : String) : List Marked :=
  unmarked (call.fmt.config (clientDocument call.booted tokenFileName)).toList

/-- What is written of `auto.json`. -/
def autoText : List Marked :=
  unmarked call.front ++ (marked call.booted.autoTokenRaw.toList ++ unmarked call.back)

/-- But for the marks, it is the document. -/
theorem autoText_char :
    call.autoText.map Marked.char = (call.fmt.json (autoTokenDocument call.booted)).toList := by
  have hunmarked : ∀ cs : List Char, (unmarked cs).map Marked.char = cs := by
    intro cs
    simp [unmarked, Function.comp_def]
  have hmarked : ∀ cs : List Char, (marked cs).map Marked.char = cs := by
    intro cs
    simp [marked, Function.comp_def]
  rw [call.auto_eq, autoText, List.map_append, List.map_append, hunmarked, hmarked, hunmarked]

/-- What is there of a configuration. -/
def existing (files : Files String Marked) : ConfigFile :=
  match files.read call.configName with
  | none => .absent
  | some cs => if call.configOpens then .text (String.ofList (cs.map Marked.char)) else .unreadable

def toWrite (files : Files String Marked) : Option String :=
  tokenFileToWrite call.fmt.yaml.toYamlCpp call.booted.instanceId (call.existing files)

end ArtifactCall

/-- Where the call stands: it writes the configuration, if it does, and then the token. -/
inductive ArtifactPc
  | start
  | config (tokenFileName : String) (pc : WritePc)
  | auto (tmpSeq : Nat) (pc : WritePc)
  | returned (ok : Bool)
  | dead
  deriving DecidableEq

/-- The directory's mode, if there is one, and its files. -/
structure Artifacts where
  dirMode : Option Nat
  files : Files String Marked
  pc : ArtifactPc

inductive ArtifactAction
  | createDirectories (ok : Bool)
  | write (a : WriteAction Marked)

namespace ArtifactCall

variable (call : ArtifactCall)

/-- The mode of both files. -/
def fileMode : Nat := ownerOnly

/-- What follows on a step of writing the configuration. -/
def afterConfig (tokenFileName : String) : WritePc → ArtifactPc
  | .returned true => .auto (call.tmpSeq + 1) .start
  | .returned false => .returned false
  | .dead => .dead
  | pc => .config tokenFileName pc

/-- What follows on a step of writing the token. -/
def afterAuto (tmpSeq : Nat) : WritePc → ArtifactPc
  | .returned ok => .returned ok
  | .dead => .dead
  | pc => .auto tmpSeq pc

/-- One step of `writeLocalClientArtifacts`. -/
def next (s : Artifacts) : ArtifactAction → Option Artifacts
  | .createDirectories ok =>
    match s.pc with
    | .start =>
      if ok then
        some
          { s with
            dirMode := some (s.dirMode.getD (createdDirMode call.umask))
            pc := match call.toWrite s.files with
              | some tokenFileName => .config tokenFileName .start
              | none => .auto call.tmpSeq .start }
      else some { s with pc := .returned false }
    | _ => none
  | .write a =>
    match s.pc with
    | .config tokenFileName pc =>
      ((Writer.atomicWriteText fileMode).next (call.target call.configName call.tmpSeq) call.umask
        (call.configText tokenFileName) (pc, s.files) a).map fun (pc, files) =>
          { s with files, pc := call.afterConfig tokenFileName pc }
    | .auto tmpSeq pc =>
      ((Writer.atomicWriteText fileMode).next (call.target "auto.json" tmpSeq) call.umask
        call.autoText (pc, s.files) a).map fun (pc, files) =>
          { s with files, pc := afterAuto tmpSeq pc }
    | _ => none

/-- The text that is being written. -/
def text (s : Artifacts) : List Marked :=
  match s.pc with
  | .config tokenFileName _ => call.configText tokenFileName
  | .auto _ _ => call.autoText
  | _ => []

/-- What a write that fails leaves is some of the text. -/
def LeavesText (s : Artifacts) (a : ArtifactAction) : Prop :=
  ∀ left, a = .write (.writeFails left) → left ⊆ call.text s

/-- The states of a call, whatever fails in it. -/
abbrev Reached (s₀ s : Artifacts) : Prop :=
  Reaches (fun s a s' => call.next s a = some s') call.LeavesText s₀ s

end ArtifactCall

/-! ## 3. Exposure -/

/-- No file holds anything of the token. -/
def Clean (files : Files String Marked) : Prop :=
  ∀ n x, files.find n = some x → ∀ m ∈ x.data, m.secret = false

/-- Nothing has happened yet: the token is new. -/
structure Artifacts.Fresh (s : Artifacts) : Prop where
  pc : s.pc = .start
  clean : Clean s.files

/-- **The token, or some of it, can be read by others.** -/
def Artifacts.Exposed (s : Artifacts) : Prop :=
  ∃ n x dirMode, s.files.find n = some x ∧ (∃ m ∈ x.data, m.secret = true) ∧
    s.dirMode = some dirMode ∧ OpenToOthers dirMode x.mode

namespace ArtifactCall

variable (call : ArtifactCall)

/-- The number that the temp of the token gets. -/
def autoSeq (s₀ : Artifacts) : Nat :=
  if (call.toWrite s₀.files).isSome then call.tmpSeq + 1 else call.tmpSeq

/-- Where the token is written first. -/
def autoTmp (s₀ : Artifacts) : String := tmpPath "auto.json" call.pid (call.autoSeq s₀)

/-- The mode that the directory has. -/
def dirMode (s₀ : Artifacts) : Nat := s₀.dirMode.getD (createdDirMode call.umask)

/-- The mode that the temp is opened at. -/
def tmpMode (s₀ : Artifacts) : Nat :=
  s₀.files.modeAt (createdMode call.umask) (call.autoTmp s₀)

end ArtifactCall

/-! ## 4. What is kept at every step -/

section Steps

variable {call : ArtifactCall} {s₀ s s' : Artifacts} {a : ArtifactAction} {tokenFileName : String}
  {tmpSeq : Nat} {files files' : Files String Marked} {pc pc' : WritePc}

theorem secret_unmarked {cs : List Char} : ∀ m ∈ unmarked cs, m.secret = false := by
  simp [unmarked]

/-- What is secret of the text is of the token. -/
theorem autoRaw_ne_of_secret {m : Marked} (hm : m ∈ call.autoText) (hsecret : m.secret = true) :
    call.booted.autoTokenRaw ≠ "" := by
  intro hempty
  have hnone : call.autoText = unmarked call.front ++ unmarked call.back := by
    simp [ArtifactCall.autoText, hempty, marked]
  rw [hnone, List.mem_append] at hm
  rcases hm with hm | hm
  · rw [secret_unmarked m hm] at hsecret
    cases hsecret
  · rw [secret_unmarked m hm] at hsecret
    cases hsecret

/-- The token's temp is none of the names of the configuration. -/
theorem autoTmp_ne (call : ArtifactCall) (s₀ : Artifacts) :
    call.autoTmp s₀ ≠ (call.target call.configName call.tmpSeq).tmp ∧
      call.autoTmp s₀ ≠ call.configName := by
  have hfirst : ∀ {name rest rest' : String}, name.toList.head? = some 'c' →
      "auto.json" ++ rest ≠ name ++ rest' := by
    intro name rest rest' hc heq
    have hheads := congrArg (fun s : String => s.toList.head?) heq
    simp only [String.toList_append, List.head?_append, hc] at hheads
    cases hheads
  have hname : call.configName.toList.head? = some 'c' := by
    unfold ArtifactCall.configName
    cases call.fmt.flavor <;> rfl
  constructor
  · simp only [ArtifactCall.autoTmp, ArtifactCall.target, tmpPath, String.append_assoc]
    exact hfirst hname
  · have hnone : call.configName = call.configName ++ "" := String.append_empty.symm
    rw [hnone]
    simp only [ArtifactCall.autoTmp, tmpPath, String.append_assoc]
    exact hfirst hname

/-- What holds the token is at one of two modes. -/
def ArtifactCall.Sealed (call : ArtifactCall) (s₀ : Artifacts) (files : Files String Marked) :
    Prop :=
  ∀ n x, files.find n = some x → (∃ m ∈ x.data, m.secret = true) →
    call.booted.autoTokenRaw ≠ "" ∧ (x.mode = call.tmpMode s₀ ∨ x.mode = ownerOnly)

/-- What is known of the files at each place. -/
def ArtifactCall.Guards (call : ArtifactCall) (s₀ s : Artifacts) : Prop :=
  match s.pc with
  | .start => s.files = s₀.files ∧ s.dirMode = s₀.dirMode
  | .config tokenFileName pc => call.toWrite s₀.files = some tokenFileName ∧
      Modes (.atomicWriteText ArtifactCall.fileMode) (call.target call.configName call.tmpSeq)
        call.umask (call.configText tokenFileName) s₀.files pc s.files
  | .auto tmpSeq pc => tmpSeq = call.autoSeq s₀ ∧ ∃ files, Clean files ∧
      files.find (call.autoTmp s₀) = s₀.files.find (call.autoTmp s₀) ∧
      Modes (.atomicWriteText ArtifactCall.fileMode) (call.target "auto.json" tmpSeq) call.umask
        call.autoText files pc s.files
  | .returned _ | .dead => call.Sealed s₀ s.files

/-- Files without the token. -/
theorem sealed_of_clean (h : Clean files) : call.Sealed s₀ files := by
  rintro n x hx ⟨m, hm, hsecret⟩
  rw [h n x hx m hm] at hsecret
  cases hsecret

/-- Writing the configuration brings none of the token. -/
theorem clean_of_config (hclean : Clean s₀.files)
    (h : Keeps (.atomicWriteText ArtifactCall.fileMode) (call.target call.configName call.tmpSeq)
      call.umask (call.configText tokenFileName) s₀.files files) : Clean files := by
  intro n x hx m hm
  rcases h.files n x hx with hold | ⟨-, hdata⟩
  · exact hclean n x hold m hm
  · exact secret_unmarked m (hdata hm)

/-- Writing the token brings it at the modes of its temp. -/
theorem sealed_of_auto (hclean : Clean files)
    (hsame : files.find (call.autoTmp s₀) = s₀.files.find (call.autoTmp s₀))
    (h : Keeps (.atomicWriteText ArtifactCall.fileMode) (call.target "auto.json" (call.autoSeq s₀))
      call.umask call.autoText files files') : call.Sealed s₀ files' := by
  rintro n x hx ⟨m, hm, hsecret⟩
  rcases h.files n x hx with hold | ⟨hmode, hdata⟩
  · rw [hclean n x hold m hm] at hsecret
    cases hsecret
  · refine ⟨autoRaw_ne_of_secret (hdata hm) hsecret, hmode.imp_left fun hmode => ?_⟩
    have htmp : (call.target "auto.json" (call.autoSeq s₀)).tmp = call.autoTmp s₀ := rfl
    rw [hmode, htmp, Files.modeAt, hsame]
    rfl

theorem ArtifactCall.Guards.sealed (hclean : Clean s₀.files) (h : call.Guards s₀ s) :
    call.Sealed s₀ s.files := by
  unfold ArtifactCall.Guards at h
  split at h
  · rw [h.1]
    exact sealed_of_clean hclean
  · exact sealed_of_clean (clean_of_config hclean h.2.keeps)
  · obtain ⟨rfl, files, hfiles, hsame, hmodes⟩ := h
    exact sealed_of_auto hfiles hsame hmodes.keeps
  · exact h
  · exact h

/-- **Each step of the call keeps the guard.** -/
theorem guards_next (hclean : Clean s₀.files) (h : call.Guards s₀ s)
    (htext : call.LeavesText s a) (hnext : call.next s a = some s') : call.Guards s₀ s' := by
  obtain ⟨dirMode, files, pc⟩ := s
  cases a with
  | createDirectories ok =>
    cases pc with
    | start =>
      obtain ⟨hfiles, -⟩ := h
      simp only at hfiles
      subst hfiles
      cases ok with
      | false =>
        cases hnext
        exact sealed_of_clean hclean
      | true =>
        cases hnext
        cases hwrite : call.toWrite s₀.files with
        | some name => exact ⟨hwrite, rfl⟩
        | none => exact ⟨by simp [ArtifactCall.autoSeq, hwrite], s₀.files, hclean, rfl, rfl⟩
    | _ => cases hnext
  | write a =>
    cases pc with
    | config name pc =>
      obtain ⟨⟨pc', files'⟩, hstep, rfl⟩ := Option.map_eq_some_iff.mp hnext
      obtain ⟨hwrite, hmodes⟩ := h
      have hmodes' := (stepped_of_next hstep).modes (fun left ha => htext left (ha ▸ rfl)) hmodes
      have hclean' := clean_of_config hclean hmodes'.keeps
      cases pc' with
      | returned ok =>
        cases ok with
        | false => exact sealed_of_clean hclean'
        | true =>
          obtain ⟨htmp, hpath⟩ := autoTmp_ne call s₀
          exact ⟨by simp [ArtifactCall.autoSeq, hwrite], files', hclean',
            hmodes'.keeps.others _ htmp hpath, rfl⟩
      | dead => exact sealed_of_clean hclean'
      | _ => exact ⟨hwrite, hmodes'⟩
    | auto tmpSeq pc =>
      obtain ⟨⟨pc', files'⟩, hstep, rfl⟩ := Option.map_eq_some_iff.mp hnext
      obtain ⟨rfl, before, hbefore, hsame, hmodes⟩ := h
      have hmodes' := (stepped_of_next hstep).modes (fun left ha => htext left (ha ▸ rfl)) hmodes
      cases pc' with
      | returned ok => exact sealed_of_auto hbefore hsame hmodes'.keeps
      | dead => exact sealed_of_auto hbefore hsame hmodes'.keeps
      | _ => exact ⟨rfl, before, hbefore, hsame, hmodes'⟩
    | _ => cases hnext

/-- The directory keeps the mode that it has, or that it is made at. -/
theorem dirMode_next (h : ∀ d, s.dirMode = some d → d = call.dirMode s₀)
    (hnone : s.pc = .start → s.dirMode = s₀.dirMode) (hnext : call.next s a = some s') :
    ∀ d, s'.dirMode = some d → d = call.dirMode s₀ := by
  obtain ⟨dirMode, files, pc⟩ := s
  cases a with
  | createDirectories ok =>
    cases pc with
    | start =>
      cases ok with
      | false =>
        cases hnext
        exact h
      | true =>
        cases hnext
        rintro d ⟨⟩
        have hsame := hnone rfl
        simp only at hsame
        rw [ArtifactCall.dirMode, hsame]
    | _ => cases hnext
  | write a =>
    cases pc with
    | config name pc =>
      obtain ⟨-, -, rfl⟩ := Option.map_eq_some_iff.mp hnext
      exact h
    | auto tmpSeq pc =>
      obtain ⟨-, -, rfl⟩ := Option.map_eq_some_iff.mp hnext
      exact h
    | _ => cases hnext

theorem guards_of_reached (h₀ : s₀.Fresh) (h : call.Reached s₀ s) :
    call.Guards s₀ s ∧ ∀ d, s.dirMode = some d → d = call.dirMode s₀ := by
  refine h.invariant (I := fun s =>
    call.Guards s₀ s ∧ ∀ d, s.dirMode = some d → d = call.dirMode s₀) ⟨?_, fun d hd => ?_⟩ ?_
  · simp only [ArtifactCall.Guards, h₀.pc, and_self]
  · rw [ArtifactCall.dirMode, hd, Option.getD_some]
  · rintro s s' a ⟨hguards, hdir⟩ htext hnext
    refine ⟨guards_next h₀.clean hguards htext hnext, dirMode_next hdir (fun hpc => ?_) hnext⟩
    unfold ArtifactCall.Guards at hguards
    rw [hpc] at hguards
    exact hguards.2

/-- With no reader in common, or no token, nothing is ever exposed. -/
theorem not_exposed (h₀ : s₀.Fresh) (h : call.Reached s₀ s)
    (hsafe : call.booted.autoTokenRaw = "" ∨
      ¬ OpenToOthers (call.dirMode s₀) (call.tmpMode s₀)) : ¬ s.Exposed := by
  obtain ⟨hguards, hdir⟩ := guards_of_reached h₀ h
  rintro ⟨n, x, dirMode, hx, hsecret, hmode, hread⟩
  obtain ⟨htoken, hmodes⟩ := hguards.sealed h₀.clean n x hx hsecret
  rw [hdir dirMode hmode] at hread
  rcases hmodes with heq | heq
  · rw [heq] at hread
    exact hsafe.elim htoken fun hnot => hnot hread
  · rw [heq] at hread
    exact not_openToOthers_ownerOnly _ hread

/-- The steps by which a file is replaced when all goes well. -/
def smooth (length : Nat) : List ArtifactAction :=
  [.write (.createDirectories true), .write (.openTmp true), .write (.writeChunk length),
    .write (.close true), .write (.chmod true), .write (.rename true)]

variable (call) in
theorem config_written (h : s.pc = .config tokenFileName .start) :
    ∃ s', runActions call.next s (smooth (call.configText tokenFileName).length) = some s' ∧
      s'.pc = .auto (call.tmpSeq + 1) .start ∧ s'.dirMode = s.dirMode := by
  obtain ⟨dirMode, files, pc⟩ := s
  cases h
  obtain ⟨files', hrename⟩ := files.exists_rename_written
    (call.target call.configName call.tmpSeq).tmp (call.target call.configName call.tmpSeq).path
    (createdMode call.umask) ArtifactCall.fileMode (call.configText tokenFileName)
  refine ⟨⟨dirMode, files', .auto (call.tmpSeq + 1) .start⟩, ?_, rfl, rfl⟩
  simp only [smooth, runActions, ArtifactCall.next, Writer.next, atomicWriteText,
    TokensFile.writeStep, ArtifactCall.afterConfig, Option.map_some, Option.bind_some, if_true,
    Bool.not_true, Bool.false_eq_true, if_false, List.drop_zero, List.take_length, Nat.zero_add,
    hrename]

/-- The steps by which the token gets into its temp. -/
def tokenWritten (length : Nat) : List ArtifactAction :=
  [.write (.createDirectories true), .write (.openTmp true), .write (.writeChunk length)]

variable (call) in
/-- Then it is there, at the mode that the temp was opened at. -/
theorem auto_written (h : s.pc = .auto tmpSeq .start) :
    ∃ s', runActions call.next s (tokenWritten call.autoText.length) = some s' ∧
      s'.dirMode = s.dirMode ∧
      s'.files.find (tmpPath "auto.json" call.pid tmpSeq) =
        some ⟨s.files.modeAt (createdMode call.umask) (tmpPath "auto.json" call.pid tmpSeq),
          call.autoText⟩ := by
  obtain ⟨dirMode, files, pc⟩ := s
  cases h
  refine ⟨⟨dirMode, (files.openTrunc (createdMode call.umask)
      (tmpPath "auto.json" call.pid tmpSeq)).1.write (files.openTrunc (createdMode call.umask)
      (tmpPath "auto.json" call.pid tmpSeq)).2 0 call.autoText,
    .auto tmpSeq (.opened (files.openTrunc (createdMode call.umask)
      (tmpPath "auto.json" call.pid tmpSeq)).2 call.autoText.length)⟩, ?_, rfl,
    files.openTrunc_write_find (createdMode call.umask) (tmpPath "auto.json" call.pid tmpSeq)
      call.autoText⟩
  simp only [tokenWritten, runActions, ArtifactCall.next, Writer.next, atomicWriteText,
    TokensFile.writeStep, ArtifactCall.afterAuto, Option.map_some, Option.bind_some, if_true,
    List.drop_zero, List.take_length, Nat.zero_add, ArtifactCall.target]

/-- A run without faults goes on from a state that is reached. -/
theorem reached_of_run {as : List ArtifactAction} (h : call.Reached s₀ s)
    (hrun : runActions call.next s as = some s')
    (hgood : ∀ left, .write (.writeFails left) ∉ as) : call.Reached s₀ s' :=
  runActions_reaches_of (I := fun _ => True) as
    (fun _ _ ha _ left heq => absurd (heq ▸ ha) (hgood left)) (fun _ _ _ _ _ _ => trivial) trivial
    h hrun

/-- **Once it is the token's turn it can be exposed**, if the modes have a reader in common. -/
theorem exposed_of_auto (h₀ : s₀.Fresh) (h : call.Reached s₀ s) (hpc : s.pc = .auto tmpSeq .start)
    (hdir : s.dirMode = some (call.dirMode s₀)) (htoken : call.booted.autoTokenRaw ≠ "")
    (hopen : OpenToOthers (call.dirMode s₀) (call.tmpMode s₀)) :
    ∃ s', call.Reached s₀ s' ∧ s'.Exposed := by
  obtain ⟨s', hrun, hdir', hfind⟩ := auto_written call hpc
  refine ⟨s', reached_of_run h hrun (by simp [tokenWritten]), _, _, _, hfind, ?_,
    hdir'.trans hdir, ?_⟩
  · obtain ⟨c, cs, htoList⟩ := List.exists_cons_of_ne_nil
      (fun hnil => htoken (String.toList_eq_nil_iff.mp hnil))
    refine ⟨⟨c, true⟩, ?_, rfl⟩
    simp [ArtifactCall.autoText, htoList, marked]
  · have hguards := (guards_of_reached h₀ h).1
    unfold ArtifactCall.Guards at hguards
    rw [hpc] at hguards
    obtain ⟨rfl, files, -, hsame, hfiles⟩ := hguards
    have hmode : s.files.modeAt (createdMode call.umask)
        (tmpPath "auto.json" call.pid (call.autoSeq s₀)) = call.tmpMode s₀ := by
      rw [hfiles, Files.modeAt]
      exact congrArg (fun x => (Option.map Inode.mode x).getD _) hsame
    simp only
    rw [hmode]
    exact hopen

/-- With a token, and a reader in common, it is exposed in some state. -/
theorem exists_exposed (h₀ : s₀.Fresh) (htoken : call.booted.autoTokenRaw ≠ "")
    (hopen : OpenToOthers (call.dirMode s₀) (call.tmpMode s₀)) :
    ∃ s, call.Reached s₀ s ∧ s.Exposed := by
  obtain ⟨s₁, hmade, hdir, hpc⟩ : ∃ s₁, call.next s₀ (.createDirectories true) = some s₁ ∧
      s₁.dirMode = some (call.dirMode s₀) ∧
      s₁.pc = match call.toWrite s₀.files with
        | some tokenFileName => .config tokenFileName .start
        | none => .auto call.tmpSeq .start := by
    simp only [ArtifactCall.next, h₀.pc, if_true]
    exact ⟨_, rfl, rfl, rfl⟩
  have hreached : call.Reached s₀ s₁ := Reaches.refl.tail (fun left heq => by cases heq) hmade
  cases hwrite : call.toWrite s₀.files with
  | none =>
    rw [hwrite] at hpc
    exact exposed_of_auto h₀ hreached hpc hdir htoken hopen
  | some tokenFileName =>
    rw [hwrite] at hpc
    obtain ⟨s₂, hrun, hpc₂, hdir₂⟩ := config_written call hpc
    exact exposed_of_auto h₀ (reached_of_run hreached hrun (by simp [smooth])) hpc₂
      (hdir₂.trans hdir) htoken hopen

/-- **When the token is never exposed**: for every umask and every directory, whatever its files and
its mode, no fault schedule has a state in which the others can read any of the token exactly when
there is no token, or nobody else who gets through the directory can read a file of the mode that
the temp is opened at. -/
theorem unexposed_iff (h₀ : s₀.Fresh) :
    (∀ s, call.Reached s₀ s → ¬ s.Exposed) ↔
      call.booted.autoTokenRaw = "" ∨ ¬ OpenToOthers (call.dirMode s₀) (call.tmpMode s₀) := by
  refine ⟨fun h => ?_, fun hsafe s hs => not_exposed h₀ hs hsafe⟩
  by_cases htoken : call.booted.autoTokenRaw = ""
  · exact Or.inl htoken
  · refine Or.inr fun hopen => ?_
    obtain ⟨s, hs, hexposed⟩ := exists_exposed h₀ htoken hopen
    exact h s hs hexposed

end Steps

/-! ## 5. Two umasks -/

/-- The configuration of a first boot. -/
def firstConfigText : String :=
  "daemon:\n  capability_module:\n    transport: local\n  core_service:\n    transport: local\n" ++
  "instance_id: 0f3a9c21d7b4\ntoken_file: auto.json\nversion: 2\n"

/-- What is in front of the token in `auto.json`, and what is behind it. -/
def autoFront : String :=
  "\x7b\n    \"issued_at\": \"2025-01-02T00:00:00Z\",\n    \"name\": \"auto\",\n    \"token\": \""

@[inherit_doc autoFront] def autoBack : String := "\",\n    \"version\": 1\n\x7d"

/-- A boot under a umask, with the two texts that it writes. -/
def bootUnder (umask : Nat) : ArtifactCall where
  fmt :=
    { yaml := YamlJson.knowingAll [(firstConfigText, clientDocument secondBoot "auto.json")]
      jsonText := Json.dump4 fun _ _ => ""
      parseJson := parseOnly (autoTokenDocument secondBoot)
      flavor := .modern }
  booted := secondBoot
  umask := umask
  pid := 4242
  tmpSeq := 0
  configOpens := true
  front := autoFront.toList
  back := (autoBack ++ "\n").toList
  auto_eq := by decide +kernel

/-- No directory yet. -/
def noClientDir : Artifacts := ⟨none, Files.empty, .start⟩

theorem noClientDir_fresh : noClientDir.Fresh := ⟨rfl, nofun⟩

/-- Under a umask that leaves nothing to others nothing is exposed. -/
theorem umask077_unexposed :
    ¬ ∃ s, (bootUnder 0o077).Reached noClientDir s ∧ s.Exposed := by
  rintro ⟨s, hs, hexposed⟩
  refine (unexposed_iff noClientDir_fresh).mpr (Or.inr ?_) s hs hexposed
  rintro ⟨who, hread, -⟩
  have hmode : (bootUnder 0o077).tmpMode noClientDir = 0o600 := rfl
  rw [hmode] at hread
  cases who <;> exact hread (by decide)

/-- **Under the usual umask the token is exposed** before the mode of its temp is changed. -/
theorem umask022_exposed :
    ¬ ∀ (call : ArtifactCall) (s₀ s : Artifacts), s₀.Fresh → call.Reached s₀ s → ¬ s.Exposed := by
  intro h
  have hopen : OpenToOthers ((bootUnder 0o022).dirMode noClientDir)
      ((bootUnder 0o022).tmpMode noClientDir) := by
    have hmodes : (bootUnder 0o022).dirMode noClientDir = 0o755 ∧
        (bootUnder 0o022).tmpMode noClientDir = 0o644 := ⟨rfl, rfl⟩
    rw [hmodes.1, hmodes.2]
    exact ⟨.other, by decide, by decide⟩
  obtain ⟨s, hs, hexposed⟩ := exists_exposed noClientDir_fresh
    (show (bootUnder 0o022).booted.autoTokenRaw ≠ "" by decide) hopen
  exact h _ _ s noClientDir_fresh hs hexposed

end Logosctl
