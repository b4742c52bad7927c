/-
# A log that cannot be started

`LogSink::start` opens the log file, keeps duplicates of stdout and stderr, and puts the end of a
pipe in the place of both.  Each of these steps may fail, and then start undoes what it has done and
answers false: the daemon is to carry on with the stdout it had.

It undoes all but one thing.  When stdout has been redirected and stderr cannot be, the duplicate of
stdout is closed and not put back, so that stdout is a pipe that nobody reads (`leavesAlone_iff`).
-/
import Logosctl.Library.Descriptors
import Logosctl.Library.Paths
import Logosctl.LogSink.Prune

namespace Logosctl.LogSink

open Library

/-! ## 1. The source -/

/-- `LogSink::Options`, as far as a start reads it for more than the pruning and the size of the
log. -/
structure Options where
  enabled : Bool := true
  dir : String
  file : String := "daemon.log"
  console : Bool := true

/-- The members of `LogSink`.  The logger is the descriptor of the file that it writes. -/
structure State where
  logger : Option Nat := none
  path : String := ""
  linkPath : String := ""
  readFd : Option Nat := none
  originalStdout : Option Nat := none
  originalStderr : Option Nat := none
  started : Bool := false
  console : Bool := true
  deriving DecidableEq

/-- The clock, and how the system calls of a start go. -/
structure StartIo where
  stamp : String
  createDirectories : Bool
  sink : Bool
  dupStdout : Bool
  dupStderr : Bool
  pipe : Bool
  dup2Stdout : Bool
  dup2Stderr : Bool
  deriving DecidableEq

def stdoutFd : Nat := 1

def stderrFd : Nat := 2

def stablePath (dir file : String) : String := joinPath dir file

/-- `<stem>_<stamp><ext>`. -/
def stampedName (file stamp : String) : String :=
  String.ofList ((split file.toList).stem ++ '_' :: (stamp.toList ++ (split file.toList).ext))

/-- `dup`: the duplicate, if there is one. -/
def dupIf (ok : Bool) (d : Descriptors) (fd : Nat) : Option Nat × Descriptors :=
  match ok, d.dup fd with
  | true, some (d, copy) => (some copy, d)
  | _, _ => (none, d)

/-- `dup2`, and whether it went through. -/
def dup2If (ok : Bool) (d : Descriptors) (fd new : Nat) : Bool × Descriptors :=
  match ok, d.dup2 fd new with
  | true, some d => (true, d)
  | _, _ => (false, d)

/-- Put `writeEnd` in the place of stdout, and then of stderr. -/
def redirect (io : StartIo) (d : Descriptors) (writeEnd : Nat) : Bool × Descriptors :=
  match dup2If io.dup2Stdout d writeEnd stdoutFd with
  | (false, d) => (false, d)
  | (true, d) => dup2If io.dup2Stderr d writeEnd stderrFd

/-- The `cleanup` of a start: without its logger, the log file is closed as well. -/
def cleanup (s : State) (d : Descriptors) : State × Descriptors :=
  ({ s with originalStdout := none, originalStderr := none, logger := none, path := "" },
    d.closeAll (s.originalStdout.toList ++ s.originalStderr.toList ++ s.logger.toList))

/-- `LogSink::start`. -/
def start (opts : Options) (io : StartIo) (s : State) (d : Descriptors) :
    Bool × State × Descriptors :=
  if s.started || !opts.enabled then (true, s, d)
  else if !io.createDirectories then (false, s, d)
  else
    let s := { s with
      path := joinPath opts.dir (stampedName opts.file io.stamp)
      linkPath := stablePath opts.dir opts.file
      console := opts.console }
    if !io.sink then (false, { s with path := "", linkPath := "" }, d)
    else
      let (d, logFile) := d.openFile
      let (originalStdout, d) := dupIf io.dupStdout d stdoutFd
      let (originalStderr, d) := dupIf io.dupStderr d stderrFd
      let s := { s with logger := some logFile, originalStdout, originalStderr }
      if originalStdout.isNone || originalStderr.isNone then (false, cleanup s d)
      else if !io.pipe then (false, cleanup s d)
      else
        let (d, readEnd, writeEnd) := d.pipe
        match redirect io d writeEnd with
        | (false, d) => (false, cleanup s ((d.close readEnd).close writeEnd))
        | (true, d) =>
          (true, { s with readFd := some readEnd, started := true }, d.close writeEnd)

/-! ## 2. What a start that fails is to leave -/

/-- All system calls go through. -/
def StartIo.smooth (stamp : String) : StartIo := ⟨stamp, true, true, true, true, true, true, true⟩

/-- **stdio is left alone**: stdout and stderr are what they were, nothing that was opened stays
open, and a later start whose system calls go through succeeds. -/
structure LeavesAlone (d : Descriptors) (s' : State) (d' : Descriptors) : Prop where
  stdout : d'.file stdoutFd = d.file stdoutFd
  stderr : d'.file stderrFd = d.file stderrFd
  closed : ∀ fd, d.file fd = none → d'.file fd = none
  stopped : s'.started = false
  later : ∀ opts stamp later, later.file stdoutFd ≠ none →
    (start opts (.smooth stamp) s' later).1 = true

/-- The system call that fails is the `dup2` onto stderr. -/
def FailsAtStderr (io : StartIo) : Prop :=
  io = { StartIo.smooth io.stamp with dup2Stderr := false }

/-! ## 3. The steps -/

section Steps

variable {d d' : Descriptors} {ok : Bool} {fd new x writeEnd : Nat} {fds : List Nat} {io : StartIo}

theorem dupIf_adds (h : d.Adds d' fds) :
    d.Adds (dupIf ok d' fd).2 ((dupIf ok d' fd).1.toList ++ fds) := by
  unfold dupIf
  split
  · next d'' copy hdup =>
    cases hfile : d'.file fd with
    | none => rw [Descriptors.dup_eq_none_iff.mpr hfile] at hdup; cases hdup
    | some x =>
      obtain ⟨_, hsome, hupdate, hopened⟩ := Descriptors.dup_eq_some hfile
      obtain ⟨rfl, rfl⟩ := Prod.mk.inj (Option.some.inj (hdup.symm.trans hsome))
      exact h.cons d'.file_lowest hupdate (Nat.le_of_eq hopened.symm)
  · exact h

/-- A duplicate exists exactly when the call goes through and there is something to duplicate. -/
theorem dupIf_isNone : (dupIf ok d fd).1 = none ↔ ok = false ∨ d.file fd = none := by
  unfold dupIf
  cases hdup : d.dup fd with
  | none => simp [Descriptors.dup_eq_none_iff.mp hdup]
  | some r =>
    have hopen : d.file fd ≠ none := fun h => by
      rw [Descriptors.dup_eq_none_iff.mpr h] at hdup
      cases hdup
    cases ok with
    | true => simp [hopen]
    | false => simp

/-- What was open stays open, and the number of the duplicate is open as well. -/
theorem dupIf_open {k : Nat} (h : d.file k ≠ none ∨ d.file fd ≠ none ∧ k = d.lowest) :
    (dupIf true d fd).2.file k ≠ none := by
  cases hfile : d.file fd with
  | none =>
    have hdup := Descriptors.dup_eq_none_iff.mpr hfile
    simp only [dupIf, hdup]
    exact h.resolve_right fun hr => hr.1 hfile
  | some x =>
    obtain ⟨d'', hdup, hupdate, -⟩ := Descriptors.dup_eq_some hfile
    simp only [dupIf, hdup, hupdate, Function.update_apply]
    split
    · exact nofun
    · next hne => exact h.resolve_right fun hr => hne hr.2

theorem dup2If_eq (h : d.file fd = some x) : ∃ d', dup2If ok d fd new = (ok, if ok then d' else d) ∧
    d'.file = Function.update d.file new (some x) ∧ d'.opened = d.opened := by
  obtain ⟨d', hdup, hupdate, hopened⟩ := @Descriptors.dup2_eq_some d fd new x h
  refine ⟨d', ?_, hupdate, hopened⟩
  cases ok with
  | true => simp [dup2If, hdup]
  | false => simp [dup2If]

/-- What is redirected when not everything is. -/
theorem redirect_eq (h : d.file writeEnd = some x) : ∃ half, half.file =
      Function.update d.file stdoutFd (some x) ∧ half.opened = d.opened ∧
      redirect io d writeEnd =
        (io.dup2Stdout && io.dup2Stderr,
          if io.dup2Stdout then (dup2If io.dup2Stderr half writeEnd stderrFd).2 else d) := by
  obtain ⟨half, hdup, hupdate, hopened⟩ := @dup2If_eq d io.dup2Stdout writeEnd stdoutFd x h
  refine ⟨half, hupdate, hopened, ?_⟩
  have hstill : half.file writeEnd = some x := by
    rw [hupdate, Function.update_apply]
    split
    · rfl
    · exact h
  obtain ⟨_, hdup', -, -⟩ := @dup2If_eq half io.dup2Stderr writeEnd stderrFd x hstill
  unfold redirect
  rw [hdup]
  cases io.dup2Stdout with
  | true => simp [hdup']
  | false => simp

end Steps

/-! ## 4. A start -/

section Start

variable {opts : Options} {io : StartIo} {s s' : State} {d d' : Descriptors}

/-- The table when the log file is open and the duplicates are made. -/
def saved (io : StartIo) (d : Descriptors) : Descriptors :=
  (dupIf io.dupStderr (dupIf io.dupStdout d.openFile.1 stdoutFd).2 stderrFd).2

/-- The duplicates. -/
def savedStdout (io : StartIo) (d : Descriptors) : Option Nat :=
  (dupIf io.dupStdout d.openFile.1 stdoutFd).1

def savedStderr (io : StartIo) (d : Descriptors) : Option Nat :=
  (dupIf io.dupStderr (dupIf io.dupStdout d.openFile.1 stdoutFd).2 stderrFd).1

/-- What has been opened by then, and is closed by the cleanup. -/
def opened (io : StartIo) (d : Descriptors) : List Nat :=
  (savedStdout io d).toList ++ (savedStderr io d).toList ++ [d.lowest]

theorem saved_adds (io : StartIo) (d : Descriptors) :
    d.Adds (saved io d) ((savedStderr io d).toList ++ ((savedStdout io d).toList ++ [d.lowest])) :=
  dupIf_adds (dupIf_adds (Descriptors.Adds.refl d).openFile)

/-- **How a start fails**: before anything is opened, with what was opened closed again, or when
stdout or stderr is to be redirected. -/
theorem start_false (h : start opts io s d = (false, s', d')) :
    s'.started = false ∧
      (d' = d ∧ (io.createDirectories = false ∨ io.sink = false) ∨
        d' = (saved io d).closeAll (opened io d) ∧
          (savedStdout io d = none ∨ savedStderr io d = none ∨ io.pipe = false) ∨
        savedStdout io d ≠ none ∧ savedStderr io d ≠ none ∧ io.createDirectories = true ∧
          io.sink = true ∧ io.pipe = true ∧
          (redirect io (saved io d).pipe.1 (saved io d).pipe.2.2).1 = false ∧
          d' = (redirect io (saved io d).pipe.1 (saved io d).pipe.2.2).2.closeAll
            ((saved io d).pipe.2.1 :: (saved io d).pipe.2.2 :: opened io d)) := by
  unfold start at h
  split at h
  · cases h
  · next hidle =>
    have hstopped : s.started = false := by
      rw [Bool.not_eq_true, Bool.or_eq_false_iff] at hidle
      exact hidle.1
    split at h
    · next hdirs =>
      cases h
      exact ⟨hstopped, Or.inl ⟨rfl, Or.inl (by simpa using hdirs)⟩⟩
    · next hdirs =>
      dsimp only at h
      split at h
      · next hsink =>
        cases h
        exact ⟨hstopped, Or.inl ⟨rfl, Or.inr (by simpa using hsink)⟩⟩
      · next hsink =>
        split at h
        · next hdup =>
          cases h
          rw [Bool.or_eq_true, Option.isNone_iff_eq_none, Option.isNone_iff_eq_none] at hdup
          exact ⟨hstopped, Or.inr (Or.inl ⟨rfl, hdup.imp_right Or.inl⟩)⟩
        · next hdup =>
          rw [Bool.or_eq_true, Option.isNone_iff_eq_none, Option.isNone_iff_eq_none, not_or] at hdup
          split at h
          · next hpipe =>
            cases h
            exact ⟨hstopped, Or.inr (Or.inl ⟨rfl, Or.inr (Or.inr (by simpa using hpipe))⟩)⟩
          · next hpipe =>
            split at h
            · next half hredirect =>
              cases h
              refine ⟨hstopped, Or.inr (Or.inr ⟨hdup.1, hdup.2, by simpa using hdirs,
                by simpa using hsink, by simpa using hpipe, ?_, ?_⟩)⟩
              · exact congrArg Prod.fst hredirect
              · exact congrArg (fun r => (Prod.snd r).closeAll ((saved io d).pipe.2.1 ::
                  (saved io d).pipe.2.2 :: opened io d)) hredirect.symm
            · cases h

/-- Where stdout is open, both duplicates can be made: if stderr is not, its number has been taken
by then, by the log file or by the duplicate of stdout. -/
theorem saved_of_open (hstdout : io.dupStdout = true) (hstderr : io.dupStderr = true)
    (hopen : d.file stdoutFd ≠ none) : savedStdout io d ≠ none ∧ savedStderr io d ≠ none := by
  have hopen₁ : d.openFile.1.file stdoutFd ≠ none := Descriptors.openFile_open (Or.inl hopen)
  unfold savedStdout savedStderr
  rw [hstdout, hstderr, Ne, Ne, dupIf_isNone, dupIf_isNone]
  refine ⟨by simpa using hopen₁, ?_⟩
  rintro (h | hclosed)
  · cases h
  · have hclosed₁ : d.openFile.1.file stderrFd = none := by
      by_contra h
      exact dupIf_open (Or.inl h) hclosed
    have hclosed₀ : d.file stderrFd = none := by
      by_contra h
      exact Descriptors.openFile_open (Or.inl h) hclosed₁
    -- the number of stderr is free, and neither the log file nor the duplicate takes it
    have hfds : stdoutFd = 1 ∧ stderrFd = 2 := ⟨rfl, rfl⟩
    have hlog := Descriptors.lowest_le hclosed₀
    have hlog₁ := Descriptors.lowest_ne hopen
    have hlog₂ : d.lowest ≠ stderrFd := fun h => Descriptors.openFile_open (Or.inr h.symm) hclosed₁
    have hcopy := Descriptors.lowest_le hclosed₁
    have hcopy₀ := Descriptors.lowest_ne (Descriptors.openFile_open (d := d) (Or.inr rfl))
    have hcopy₁ := Descriptors.lowest_ne hopen₁
    have hcopy₂ : d.openFile.1.lowest ≠ stderrFd := fun h =>
      dupIf_open (Or.inr ⟨hopen₁, h.symm⟩) hclosed
    omega

/-- Half a redirection: what was opened is closed, and stdout is the pipe. -/
theorem closeAll_half {half : Descriptors} {fds closed : List Nat} {x : Nat}
    (hadds : d.Adds d' fds) (hclosed : ∀ fd, fd ∈ closed ↔ fd ∈ fds)
    (hfile : half.file = Function.update d'.file stdoutFd (some x))
    (hhalf : half.opened = d'.opened) :
    (stdoutFd ∈ fds → (half.closeAll closed).file = d.file) ∧
      (stdoutFd ∉ fds → (half.closeAll closed).file stdoutFd = some x) := by
  constructor
  · intro hmem
    exact (hadds.update hmem hfile (Nat.le_of_eq hhalf.symm)).closeAll hclosed
  · intro hmem
    rw [Descriptors.closeAll_file, if_neg fun h => hmem ((hclosed _).mp h), hfile,
      Function.update_self]

theorem failsAtStderr_of_saved (hstdout : savedStdout io d ≠ none)
    (hstderr : savedStderr io d ≠ none) (hdirs : io.createDirectories = true)
    (hsink : io.sink = true) (hpipe : io.pipe = true) (hdup2 : io.dup2Stdout = true)
    (hlast : io.dup2Stderr = false) : FailsAtStderr io := by
  have hdup : io.dupStdout = true := by
    by_contra h
    exact hstdout (dupIf_isNone.mpr (Or.inl (Bool.eq_false_iff.mpr h)))
  have hdup' : io.dupStderr = true := by
    by_contra h
    exact hstderr (dupIf_isNone.mpr (Or.inl (Bool.eq_false_iff.mpr h)))
  cases io
  subst hdirs hsink hdup hdup' hpipe hdup2 hlast
  rfl

/-- **What a start that fails leaves**: the table as it was, or stdout as the pipe. -/
theorem failed_table (h : start opts io s d = (false, s', d')) :
    d'.file = d.file ∧ ¬ (FailsAtStderr io ∧ d.file stdoutFd ≠ none) ∨
      FailsAtStderr io ∧ d.file stdoutFd ≠ none ∧ d'.file stdoutFd ≠ d.file stdoutFd := by
  have hadds := saved_adds io d
  obtain ⟨-, ⟨rfl, hearly⟩ | ⟨rfl, hearly⟩ |
    ⟨hstdout, hstderr, hdirs, hsink, hpipe, hfails, rfl⟩⟩ := start_false h
  · refine Or.inl ⟨rfl, ?_⟩
    rintro ⟨hio, -⟩
    rw [hio] at hearly
    simp [StartIo.smooth] at hearly
  · refine Or.inl ⟨hadds.closeAll (by simp [opened, or_left_comm]), ?_⟩
    rintro ⟨hio, hopen⟩
    obtain ⟨hsaved, hsaved'⟩ := @saved_of_open io d (by rw [hio]; rfl) (by rw [hio]; rfl) hopen
    rcases hearly with hnone | hnone | hpipe
    · exact hsaved hnone
    · exact hsaved' hnone
    · rw [hio] at hpipe
      cases hpipe
  · -- the pipe is open, and its end to write into is a file that was not open before
    have hpiped := hadds.openFile.openFile
    have hend : (saved io d).pipe.1.file (saved io d).pipe.2.2 = some ((saved io d).opened + 1) :=
      Function.update_self ..
    obtain ⟨half, hfile, hopened, hredirect⟩ := @redirect_eq _ _ _ io hend
    have hclosed : ∀ fd, fd ∈ (saved io d).pipe.2.1 :: (saved io d).pipe.2.2 :: opened io d ↔
        fd ∈ (saved io d).pipe.2.2 :: (saved io d).pipe.2.1 ::
          ((savedStderr io d).toList ++ ((savedStdout io d).toList ++ [d.lowest])) := by
      simp [opened, or_left_comm]
    rw [hredirect] at hfails ⊢
    cases hdup2 : io.dup2Stdout with
    | false =>
      refine Or.inl ⟨hpiped.closeAll hclosed, ?_⟩
      rintro ⟨hio, -⟩
      rw [hio] at hdup2
      cases hdup2
    | true =>
      have hlast : io.dup2Stderr = false := by simpa [hdup2] using hfails
      have hhalf : (dup2If io.dup2Stderr half (saved io d).pipe.2.2 stderrFd).2 = half := by
        rw [hlast]
        rfl
      rw [if_pos rfl, hhalf]
      have hio := failsAtStderr_of_saved hstdout hstderr hdirs hsink hpipe hdup2 hlast
      obtain ⟨hundone, hleft⟩ := closeAll_half hpiped hclosed hfile hopened
      by_cases hopen : d.file stdoutFd = none
      · -- stdout was closed, so its number is the log file's
        refine Or.inl ⟨hundone ?_, fun h => h.2 hopen⟩
        have hlog : d.lowest = stdoutFd := by
          by_contra hne
          refine hstdout (dupIf_isNone.mpr (Or.inr ?_))
          rw [Descriptors.openFile_file]
          exact (Function.update_of_ne (Ne.symm hne) ..).trans hopen
        simp [hlog]
      · refine Or.inr ⟨hio, hopen, ?_⟩
        rw [hleft fun hmem => hopen (hpiped.fresh _ hmem)]
        intro hsame
        have hbelow := d.below _ _ hsame.symm
        have hgrown := hadds.opened
        omega

/-- A start whose system calls go through succeeds, where stdout is open. -/
theorem start_smooth (hstdout : d.file stdoutFd ≠ none) (stamp : String) :
    (start opts (.smooth stamp) s d).1 = true := by
  cases h : start opts (.smooth stamp) s d with
  | mk ok r =>
    cases ok with
    | true => rfl
    | false =>
      obtain ⟨s', d'⟩ := r
      obtain ⟨hsaved, hsaved'⟩ := @saved_of_open (.smooth stamp) _ rfl rfl hstdout
      obtain ⟨-, ⟨-, hearly⟩ | ⟨-, hearly⟩ | ⟨-, -, -, -, -, hfails, -⟩⟩ := start_false h
      · simp [StartIo.smooth] at hearly
      · rcases hearly with hnone | hnone | hpipe
        · exact absurd hnone hsaved
        · exact absurd hnone hsaved'
        · cases hpipe
      · have hend : (saved (.smooth stamp) d).pipe.1.file (saved (.smooth stamp) d).pipe.2.2 =
            some ((saved (.smooth stamp) d).opened + 1) := Function.update_self ..
        obtain ⟨half, -, -, hredirect⟩ := @redirect_eq _ _ _ (.smooth stamp) hend
        rw [hredirect] at hfails
        cases hfails

/-- **When a start that fails leaves stdio alone**: exactly when it is not the `dup2` onto stderr
that fails, or stdout was not open in the first place. -/
theorem leavesAlone_iff (h : start opts io s d = (false, s', d')) :
    LeavesAlone d s' d' ↔ ¬ (FailsAtStderr io ∧ d.file stdoutFd ≠ none) := by
  obtain ⟨hstopped, -⟩ := start_false h
  rcases failed_table h with ⟨hsame, hnot⟩ | ⟨hio, hopen, hchanged⟩
  · refine iff_of_true ⟨by rw [hsame], by rw [hsame], fun fd hfd => by rw [hsame, hfd], hstopped,
      ?_⟩ hnot
    exact fun opts stamp later hstdout => start_smooth hstdout stamp
  · exact iff_of_false (fun hleaves => hchanged hleaves.stdout) fun hnot => hnot ⟨hio, hopen⟩

end Start

/-! ## 5. stderr cannot be redirected -/

/-- The three descriptors that a process begins with. -/
def stdio : Descriptors where
  file fd := if fd < 3 then some fd else none
  size := 3
  opened := 3
  free fd h := if_neg (Nat.not_lt.mpr h)
  below fd x h := by
    split at h
    · next hlt => exact Option.some.inj h ▸ hlt
    · cases h

/-- The logs of a session. -/
def logOptions : Options where
  dir := "/home/ada/.logosctl/logs"

/-- There is no pipe to be had. -/
def noPipe : StartIo := { StartIo.smooth "20260729_163832" with pipe := false }

/-- stdout is redirected, and stderr is not. -/
def stdoutOnly : StartIo := { StartIo.smooth "20260729_163832" with dup2Stderr := false }

/-- What a start leaves of the three. -/
def afterStart (io : StartIo) : Bool × State × Descriptors := start logOptions io {} stdio

theorem noPipe_leavesAlone : LeavesAlone stdio (afterStart noPipe).2.1 (afterStart noPipe).2.2 := by
  have hfalse : afterStart noPipe =
      (false, (afterStart noPipe).2.1, (afterStart noPipe).2.2) := Prod.ext rfl rfl
  have hother : ¬ FailsAtStderr noPipe := by
    unfold FailsAtStderr
    decide
  exact (leavesAlone_iff hfalse).mpr fun h => hother h.1

/-- **stdout is lost**: start answers false, and stdout is the end of a pipe that nobody reads. -/
theorem stdout_lost :
    ¬ ∀ (opts : Options) (io : StartIo) (s s' : State) (d d' : Descriptors),
      start opts io s d = (false, s', d') → LeavesAlone d s' d' := by
  intro h
  have hfalse : afterStart stdoutOnly =
      (false, (afterStart stdoutOnly).2.1, (afterStart stdoutOnly).2.2) := Prod.ext rfl rfl
  have hstdout : (afterStart stdoutOnly).2.2.file stdoutFd = some 5 := by decide +kernel
  have hleaves := h _ _ _ _ _ _ hfalse
  exact absurd (hstdout.symm.trans hleaves.stdout) (by decide)

end Logosctl.LogSink
