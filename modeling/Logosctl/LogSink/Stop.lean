/-
# Capturing and letting go

While a log is written, stdout and stderr are the end of a pipe, and the files that they were are
kept under other numbers.  `LogSink::stop` puts them back; by then no number of the process refers to
the pipe, so that its reader comes to an end and can be joined, and what the sink had opened is
closed.

Starts and stops may follow each other in any order, failed starts among them, with the rest of the
daemon opening and closing files of its own in between.  Whenever the sink is stopped, stdout and
stderr are what they were in the beginning, and no number is the sink's; whenever it is started, they
are a pipe that nothing else of the process refers to (`kept_of_run`).  The one start that does not
leave stdio alone when it fails is the one that `leavesAlone_iff` names.
-/
import Logosctl.LogSink.Start
import Logosctl.Library.Transition
import Mathlib.Data.List.Nodup

namespace Logosctl.LogSink

open Library

/-! ## 1. The source -/

/-- `dup2`, where there is something to put back. -/
def putBack (original : Option Nat) (fd : Nat) (d : Descriptors) : Descriptors :=
  match original with
  | none => d
  | some original => (d.dup2 original fd).getD d

/-- What stdio is when the reader is joined. -/
def restored (s : State) (d : Descriptors) : Descriptors :=
  putBack s.originalStderr stderrFd (putBack s.originalStdout stdoutFd d)

/-- `LogSink::stop`, the reader having come to an end.  Without its logger, the log file is closed
as well. -/
def stop (s : State) (d : Descriptors) : State × Descriptors :=
  if !s.started then (s, d)
  else
    ({ s with
        originalStdout := none, originalStderr := none, readFd := none, logger := none
        path := "", linkPath := "", started := false },
      (restored s d).closeAll (s.originalStdout.toList ++ s.originalStderr.toList ++
        s.readFd.toList ++ s.logger.toList))

/-! ## 2. A capture -/

/-- The numbers that a sink has, the pipe, and the files that stdout and stderr were. -/
structure Capture where
  log : Nat
  originalStdout : Nat
  originalStderr : Nat
  readEnd : Nat
  pipe : Nat
  stdout : Nat
  stderr : Nat

/-- The numbers that a capture takes. -/
def Capture.fds (c : Capture) : List Nat := [c.log, c.originalStdout, c.originalStderr, c.readEnd]

/-- **The sink has stdio**: it is the pipe, and what it was is kept. -/
structure Captures (c : Capture) (s : State) (d : Descriptors) : Prop where
  started : s.started = true
  logger : s.logger = some c.log
  originalStdout : s.originalStdout = some c.originalStdout
  originalStderr : s.originalStderr = some c.originalStderr
  readFd : s.readFd = some c.readEnd
  apart : stdoutFd ∉ c.fds ∧ stderrFd ∉ c.fds
  stdout : d.file stdoutFd = some c.pipe
  stderr : d.file stderrFd = some c.pipe
  keptStdout : d.file c.originalStdout = some c.stdout
  keptStderr : d.file c.originalStderr = some c.stderr
  only : ∀ fd, d.file fd = some c.pipe → fd = stdoutFd ∨ fd = stderrFd
  new : c.stdout ≠ c.pipe ∧ c.stderr ≠ c.pipe

/-- **The sink has nothing**, and stdio is these files. -/
structure LetGo (stdout stderr : Nat) (s : State) (d : Descriptors) : Prop where
  started : s.started = false
  logger : s.logger = none
  originalStdout : s.originalStdout = none
  originalStderr : s.originalStderr = none
  readFd : s.readFd = none
  stdout : d.file stdoutFd = some stdout
  stderr : d.file stderrFd = some stderr

section Stop

variable {c : Capture} {s : State} {d : Descriptors}

theorem putBack_file {fd new x : Nat} (h : d.file fd = some x) :
    (putBack (some fd) new d).file = Function.update d.file new (some x) := by
  obtain ⟨d', hdup, hfile, -⟩ := @Descriptors.dup2_eq_some d fd new x h
  simp only [putBack, hdup, Option.getD_some, hfile]

theorem restored_file (h : Captures c s d) : (restored s d).file =
    Function.update (Function.update d.file stdoutFd (some c.stdout)) stderrFd (some c.stderr) := by
  have hkept := @putBack_file d c.originalStdout stdoutFd c.stdout h.keptStdout
  have hne : c.originalStderr ≠ stdoutFd := by
    rintro heq
    exact h.apart.1 (by simp [Capture.fds, ← heq])
  unfold restored
  rw [h.originalStdout, h.originalStderr, putBack_file (x := c.stderr), hkept]
  rw [hkept, Function.update_of_ne hne, h.keptStderr]

/-- What a stop leaves. -/
theorem stop_captures (h : Captures c s d) : LetGo c.stdout c.stderr (stop s d).1 (stop s d).2 ∧
    ∀ fd, fd ≠ stdoutFd → fd ≠ stderrFd →
      (stop s d).2.file fd = if fd ∈ c.fds then none else d.file fd := by
  have hstop : stop s d = ({ s with
      originalStdout := none, originalStderr := none, readFd := none, logger := none
      path := "", linkPath := "", started := false },
      (restored s d).closeAll [c.originalStdout, c.originalStderr, c.readEnd, c.log]) := by
    simp [stop, h.started, h.originalStdout, h.originalStderr, h.readFd, h.logger]
  have hmem : ∀ fd, fd ∈ [c.originalStdout, c.originalStderr, c.readEnd, c.log] ↔ fd ∈ c.fds := by
    intro fd
    simp only [Capture.fds, List.mem_cons, List.not_mem_nil, or_false]
    tauto
  rw [hstop]
  refine ⟨⟨rfl, rfl, rfl, rfl, rfl, ?_, ?_⟩, ?_⟩
  · rw [Descriptors.closeAll_file, if_neg fun hin => h.apart.1 ((hmem _).mp hin), restored_file h,
      Function.update_of_ne (by decide), Function.update_self]
  · rw [Descriptors.closeAll_file, if_neg fun hin => h.apart.2 ((hmem _).mp hin), restored_file h,
      Function.update_self]
  · intro fd hstdout hstderr
    rw [Descriptors.closeAll_file, restored_file h, Function.update_of_ne hstderr,
      Function.update_of_ne hstdout]
    simp only [hmem]

end Stop

/-! ## 3. A start that succeeds -/

section Start

variable {opts : Options} {io : StartIo} {s s' : State} {d d' : Descriptors}

/-- A number that was free refers to a file now. -/
structure Takes (d d' : Descriptors) (fd x : Nat) : Prop where
  free : d.file fd = none
  file : d'.file = Function.update d.file fd (some x)

theorem Takes.keeps {fd x k y : Nat} (h : Takes d d' fd x) (hk : d.file k = some y) :
    d'.file k = some y ∧ k ≠ fd := by
  have hne : k ≠ fd := by
    rintro rfl
    exact absurd (h.free.symm.trans hk) nofun
  exact ⟨by rw [h.file, Function.update_of_ne hne, hk], hne⟩

theorem Takes.self {fd x : Nat} (h : Takes d d' fd x) : d'.file fd = some x := by
  rw [h.file, Function.update_self]

theorem takes_openFile (d : Descriptors) : Takes d d.openFile.1 d.lowest d.opened :=
  ⟨d.file_lowest, rfl⟩

theorem takes_dupIf {ok : Bool} {fd x : Nat} (h : (dupIf ok d fd).1 ≠ none)
    (hfile : d.file fd = some x) : (dupIf ok d fd).1 = some d.lowest ∧
      Takes d (dupIf ok d fd).2 d.lowest x ∧ (dupIf ok d fd).2.opened = d.opened := by
  obtain ⟨d', hdup, hupdate, hopened⟩ := Descriptors.dup_eq_some hfile
  cases ok with
  | false => simp [dupIf] at h
  | true =>
    simp only [dupIf, hdup]
    exact ⟨trivial, ⟨d.file_lowest, hupdate⟩, hopened⟩

theorem Takes.apply {fd x : Nat} (h : Takes d d' fd x) (k : Nat) :
    d'.file k = if k = fd then some x else d.file k := by
  rw [h.file, Function.update_apply]

/-- Five numbers are taken, the last of which is the end of the pipe that stdio becomes. -/
theorem captures_of_tables {d₁ d₂ d₃ d₄ d₅ : Descriptors} {c : Capture} {log readEnd writeEnd : Nat}
    (hlog : Takes d d₁ c.log log) (ho : Takes d₁ d₂ c.originalStdout c.stdout)
    (he : Takes d₂ d₃ c.originalStderr c.stderr) (hr : Takes d₃ d₄ c.readEnd readEnd)
    (hw : Takes d₄ d₅ writeEnd c.pipe) (hstdout : d.file stdoutFd = some c.stdout)
    (hstderr : d.file stderrFd = some c.stderr)
    (htable : d'.file = Function.update (Function.update (Function.update d₅.file stdoutFd
      (some c.pipe)) stderrFd (some c.pipe)) writeEnd none)
    (hnew : ∀ fd, d.file fd ≠ some c.pipe) (hpipe : log ≠ c.pipe ∧ readEnd ≠ c.pipe) :
    (stdoutFd ∉ c.fds ∧ stderrFd ∉ c.fds) ∧
    d'.file stdoutFd = some c.pipe ∧ d'.file stderrFd = some c.pipe ∧
    d'.file c.originalStdout = some c.stdout ∧ d'.file c.originalStderr = some c.stderr ∧
    (∀ fd, d'.file fd = some c.pipe → fd = stdoutFd ∨ fd = stderrFd) ∧
    (∀ fd ∈ c.fds, d.file fd = none) ∧
    ∀ fd, fd ≠ stdoutFd → fd ≠ stderrFd → fd ∉ c.fds → d'.file fd = d.file fd := by
  have happly : ∀ k, d'.file k = if k = writeEnd then none else if k = stderrFd then some c.pipe
      else if k = stdoutFd then some c.pipe else d₅.file k := by
    intro k
    rw [htable]
    simp only [Function.update_apply]
  have hapart : stdoutFd ≠ stderrFd := by decide
  -- no number that was in use by then is taken
  obtain ⟨hout₁, hout_log⟩ := hlog.keeps hstdout
  obtain ⟨hout₂, hout_o⟩ := ho.keeps hout₁
  obtain ⟨hout₃, hout_e⟩ := he.keeps hout₂
  obtain ⟨hout₄, hout_r⟩ := hr.keeps hout₃
  obtain ⟨-, hout_w⟩ := hw.keeps hout₄
  obtain ⟨herr₁, herr_log⟩ := hlog.keeps hstderr
  obtain ⟨herr₂, herr_o⟩ := ho.keeps herr₁
  obtain ⟨herr₃, herr_e⟩ := he.keeps herr₂
  obtain ⟨herr₄, herr_r⟩ := hr.keeps herr₃
  obtain ⟨-, herr_w⟩ := hw.keeps herr₄
  obtain ⟨hlog₂, hlog_o⟩ := ho.keeps hlog.self
  obtain ⟨hlog₃, hlog_e⟩ := he.keeps hlog₂
  obtain ⟨-, hlog_r⟩ := hr.keeps hlog₃
  obtain ⟨ho₃, ho_e⟩ := he.keeps ho.self
  obtain ⟨ho₄, ho_r⟩ := hr.keeps ho₃
  obtain ⟨ho₅, ho_w⟩ := hw.keeps ho₄
  obtain ⟨he₄, he_r⟩ := hr.keeps he.self
  obtain ⟨he₅, he_w⟩ := hw.keeps he₄
  have hfree : ∀ {x}, x ≠ c.log → d₁.file x = none → d.file x = none := by
    intro x hx hnone
    rwa [hlog.apply, if_neg hx] at hnone
  have hfree₂ : ∀ {x}, x ≠ c.originalStdout → d₂.file x = none → d₁.file x = none := by
    intro x hx hnone
    rwa [ho.apply, if_neg hx] at hnone
  have hfree₃ : ∀ {x}, x ≠ c.originalStderr → d₃.file x = none → d₂.file x = none := by
    intro x hx hnone
    rwa [he.apply, if_neg hx] at hnone
  simp only [Capture.fds, List.mem_cons, List.not_mem_nil, or_false, not_or]
  refine ⟨⟨⟨hout_log, hout_o, hout_e, hout_r⟩, herr_log, herr_o, herr_e, herr_r⟩,
    ?_, ?_, ?_, ?_, ?_, ?_, ?_⟩
  · simp [happly, hout_w]
  · simp [happly, herr_w]
  · simp [happly, ho_w, hout_o.symm, herr_o.symm, ho₅]
  · simp [happly, he_w, hout_e.symm, herr_e.symm, he₅]
  · intro fd hfd
    have hold := hnew fd
    rw [happly, hw.apply, hr.apply, he.apply, ho.apply, hlog.apply] at hfd
    grind
  · rintro fd (rfl | rfl | rfl | rfl)
    · exact hlog.free
    · exact hfree hlog_o.symm ho.free
    · exact hfree hlog_e.symm (hfree₂ ho_e.symm he.free)
    · exact hfree hlog_r.symm (hfree₂ ho_r.symm (hfree₃ he_r.symm hr.free))
  · rintro fd hout herr ⟨hlog', ho', he', hr'⟩
    have hwrite : fd = writeEnd → d.file fd = none := by
      rintro rfl
      have hnone := hw.free
      rwa [hr.apply, if_neg hr', he.apply, if_neg he', ho.apply, if_neg ho', hlog.apply,
        if_neg hlog'] at hnone
    rw [happly, if_neg herr, if_neg hout, hw.apply, hr.apply, if_neg hr', he.apply, if_neg he',
      ho.apply, if_neg ho', hlog.apply, if_neg hlog']
    split
    · next heq => exact (hwrite heq).symm
    · rfl

/-- What a start that succeeds has done. -/
structure Started (io : StartIo) (d : Descriptors) (s' : State) (d' : Descriptors) : Prop where
  duplicated : savedStdout io d ≠ none ∧ savedStderr io d ≠ none
  redirected : (redirect io (saved io d).pipe.1 (saved io d).pipe.2.2).1 = true
  started : s'.started = true
  logger : s'.logger = some d.lowest
  originalStdout : s'.originalStdout = savedStdout io d
  originalStderr : s'.originalStderr = savedStderr io d
  readFd : s'.readFd = some (saved io d).pipe.2.1
  table : d' = (redirect io (saved io d).pipe.1 (saved io d).pipe.2.2).2.close
    (saved io d).pipe.2.2

theorem start_true (hidle : s.started = false) (henabled : opts.enabled = true)
    (h : start opts io s d = (true, s', d')) : Started io d s' d' := by
  unfold start at h
  simp only [hidle, henabled, Bool.not_true, Bool.or_false, Bool.false_eq_true, if_false] at h
  split at h
  · cases h
  · split at h
    · cases h
    · split at h
      · cases h
      · next hdup =>
        rw [Bool.or_eq_true, Option.isNone_iff_eq_none, Option.isNone_iff_eq_none, not_or] at hdup
        split at h
        · cases h
        · split at h
          · cases h
          · next hredirect =>
            cases h
            refine ⟨hdup, congrArg Prod.fst hredirect, rfl, rfl, rfl, rfl, rfl, ?_⟩
            exact congrArg (Descriptors.close · _) (congrArg Prod.snd hredirect).symm

/-- **A start that succeeds has stdio**, and takes no number that was in use. -/
theorem captures_of_start {stdout stderr : Nat} (hidle : s.started = false)
    (henabled : opts.enabled = true) (hstdout : d.file stdoutFd = some stdout)
    (hstderr : d.file stderrFd = some stderr) (h : start opts io s d = (true, s', d')) :
    ∃ c : Capture, Captures c s' d' ∧ c.stdout = stdout ∧ c.stderr = stderr ∧
      (∀ fd ∈ c.fds, d.file fd = none) ∧
      ∀ fd, fd ≠ stdoutFd → fd ≠ stderrFd → fd ∉ c.fds → d'.file fd = d.file fd := by
  have hstarted := start_true hidle henabled h
  -- one table after the other, each with a number more that was free in the one before
  have hlog := takes_openFile d
  obtain ⟨ho, hdup, hopened⟩ := takes_dupIf hstarted.duplicated.1 (hlog.keeps hstdout).1
  obtain ⟨he, hdup', hopened'⟩ := takes_dupIf hstarted.duplicated.2
    (hdup.keeps (hlog.keeps hstderr).1).1
  have hread := takes_openFile (saved io d)
  have hwrite := takes_openFile (saved io d).openFile.1
  obtain ⟨half, hhalf, -, hredirect⟩ := @redirect_eq (saved io d).pipe.1 _
    (saved io d).pipe.2.2 io hwrite.self
  have htrue := hstarted.redirected
  rw [hredirect, Bool.and_eq_true] at htrue
  have hstill : half.file (saved io d).pipe.2.2 = some ((saved io d).openFile.1.opened) := by
    rw [hhalf, Function.update_apply]
    split
    · rfl
    · exact hwrite.self
  obtain ⟨full, hfull, hfile, -⟩ := @dup2If_eq half io.dup2Stderr _ stderrFd _ hstill
  have htable : d'.file = Function.update (Function.update (Function.update
      (saved io d).openFile.1.openFile.1.file stdoutFd (some (saved io d).openFile.1.opened))
      stderrFd (some (saved io d).openFile.1.opened)) (saved io d).openFile.1.lowest none := by
    rw [hstarted.table, hredirect, if_pos htrue.1, hfull, htrue.2, Descriptors.close_file,
      if_pos rfl, hfile, hhalf]
    rfl
  have hgrown : (saved io d).opened = d.opened + 1 := hopened'.trans hopened
  have hpipe : (saved io d).openFile.1.opened = d.opened + 2 := congrArg (· + 1) hgrown
  let c : Capture := ⟨d.lowest, d.openFile.1.lowest,
    (dupIf io.dupStdout d.openFile.1 stdoutFd).2.lowest, (saved io d).lowest,
    (saved io d).openFile.1.opened, stdout, stderr⟩
  have hnew : ∀ fd, d.file fd ≠ some c.pipe := by
    intro fd hfd
    have hbelow := d.below _ _ hfd
    simp only [c, hpipe] at hbelow
    omega
  obtain ⟨hapart, hout, herr, hkept, hkept', honly, hfree, hsame⟩ := captures_of_tables (c := c)
    hlog hdup hdup' hread hwrite hstdout hstderr htable hnew
    ⟨by simp only [c, hpipe]; omega, by simp only [c, hpipe, hgrown]; omega⟩
  exact ⟨c, ⟨hstarted.started, hstarted.logger, hstarted.originalStdout.trans ho,
    hstarted.originalStderr.trans he, hstarted.readFd, hapart, hout, herr, hkept, hkept', honly,
    fun heq => hnew _ (hstdout.trans (congrArg some heq)),
    fun heq => hnew _ (hstderr.trans (congrArg some heq))⟩, rfl, rfl, hfree, hsame⟩

/-- What a start that fails leaves of the sink's numbers. -/
theorem start_false_state (h : start opts io s d = (false, s', d')) :
    s'.readFd = s.readFd ∧
      (s'.logger = s.logger ∧ s'.originalStdout = s.originalStdout ∧
          s'.originalStderr = s.originalStderr ∨
        s'.logger = none ∧ s'.originalStdout = none ∧ s'.originalStderr = none) := by
  unfold start at h
  split at h
  · cases h
  · split at h
    · cases h
      exact ⟨rfl, Or.inl ⟨rfl, rfl, rfl⟩⟩
    · dsimp only at h
      split at h
      · cases h
        exact ⟨rfl, Or.inl ⟨rfl, rfl, rfl⟩⟩
      · split at h
        · cases h
          exact ⟨rfl, Or.inr ⟨rfl, rfl, rfl⟩⟩
        · split at h
          · cases h
            exact ⟨rfl, Or.inr ⟨rfl, rfl, rfl⟩⟩
          · split at h
            · cases h
              exact ⟨rfl, Or.inr ⟨rfl, rfl, rfl⟩⟩
            · cases h

end Start

/-! ## 4. Any starts and stops -/

/-- A start, a stop, or anything that the rest of the daemon does to the table. -/
inductive SinkStep
  | start (opts : Options) (io : StartIo)
  | stop
  | others (d : Descriptors)

/-- The sink and the table. -/
structure Sink where
  state : State
  fds : Descriptors

namespace Sink

def next (k : Sink) : SinkStep → Option Sink
  | .start opts io =>
    let (_, state, fds) := LogSink.start opts io k.state k.fds
    some ⟨state, fds⟩
  | .stop =>
    let (state, fds) := LogSink.stop k.state k.fds
    some ⟨state, fds⟩
  | .others fds => some { k with fds }

/-- The numbers that the sink has. -/
def held (s : State) : List Nat :=
  s.logger.toList ++ s.originalStdout.toList ++ s.originalStderr.toList ++ s.readFd.toList

/-- The rest of the daemon leaves stdio and what the sink has alone, and does not duplicate stdio;
and it is not the `dup2` onto stderr that fails. -/
def Reasonable (k : Sink) : SinkStep → Prop
  | .start _ io => ¬ FailsAtStderr io
  | .stop => True
  | .others fds => (∀ fd ∈ stdoutFd :: stderrFd :: held k.state, fds.file fd = k.fds.file fd) ∧
    ∀ fd, k.state.started = true → fds.file fd = k.fds.file stdoutFd →
      k.fds.file fd = k.fds.file stdoutFd

/-- **What the sink has at any time**: nothing, or stdio and what it was. -/
def Kept (stdout stderr : Nat) (k : Sink) : Prop :=
  LetGo stdout stderr k.state k.fds ∨
    ∃ c, Captures c k.state k.fds ∧ c.stdout = stdout ∧ c.stderr = stderr

section Runs

variable {stdout stderr : Nat} {k k' : Sink} {a : SinkStep}

/-- A start by a sink that has nothing. -/
theorem Kept.of_letGo {opts : Options} {io : StartIo} (h : LetGo stdout stderr k.state k.fds)
    (hio : ¬ FailsAtStderr io) (hstep : k.next (.start opts io) = some k') :
    Kept stdout stderr k' := by
  simp only [Sink.next, Option.some.injEq] at hstep
  cases hstart : LogSink.start opts io k.state k.fds with
  | mk ok r =>
    obtain ⟨state, fds⟩ := r
    rw [hstart] at hstep
    subst hstep
    cases ok with
    | false =>
      obtain ⟨hstopped, -⟩ := start_false hstart
      have hsame : fds.file = k.fds.file := (failed_table hstart).elim And.left
        fun hfails => absurd hfails.1 hio
      obtain ⟨hread, hrest⟩ := start_false_state hstart
      refine Or.inl ⟨hstopped, ?_, ?_, ?_, hread.trans h.readFd, ?_, ?_⟩
      · exact hrest.elim (fun heq => heq.1.trans h.logger) And.left
      · exact hrest.elim (fun heq => heq.2.1.trans h.originalStdout) fun heq => heq.2.1
      · exact hrest.elim (fun heq => heq.2.2.trans h.originalStderr) fun heq => heq.2.2
      · rw [hsame, h.stdout]
      · rw [hsame, h.stderr]
    | true =>
      cases henabled : opts.enabled with
      | false =>
        simp only [LogSink.start, henabled, Bool.not_false, Bool.or_true, if_true] at hstart
        cases hstart
        exact Or.inl h
      | true =>
        obtain ⟨c, hcaptures, hout, herr, -⟩ := captures_of_start h.started henabled h.stdout
          h.stderr hstart
        exact Or.inr ⟨c, hcaptures, hout, herr⟩

theorem Kept.next (h : Kept stdout stderr k) (hreasonable : k.Reasonable a)
    (hstep : k.next a = some k') : Kept stdout stderr k' := by
  cases a with
  | start opts io =>
    rcases h with hlet | ⟨c, hc, hout, herr⟩
    · exact Kept.of_letGo hlet hreasonable hstep
    · -- it is started already
      have hstart : LogSink.start opts io k.state k.fds = (true, k.state, k.fds) := by
        simp [LogSink.start, hc.started]
      simp only [Sink.next, hstart] at hstep
      cases hstep
      exact Or.inr ⟨c, hc, hout, herr⟩
  | stop =>
    rcases h with hlet | ⟨c, hc, rfl, rfl⟩
    · have hstop : LogSink.stop k.state k.fds = (k.state, k.fds) := by
        simp [LogSink.stop, hlet.started]
      simp only [Sink.next, hstop] at hstep
      cases hstep
      exact Or.inl hlet
    · simp only [Sink.next, Option.some.injEq] at hstep
      subst hstep
      exact Or.inl (stop_captures hc).1
  | others fds =>
    obtain ⟨hleft, hnew⟩ := hreasonable
    cases hstep
    have hout : fds.file stdoutFd = k.fds.file stdoutFd := hleft _ (by simp)
    have herr : fds.file stderrFd = k.fds.file stderrFd := hleft _ (by simp)
    rcases h with hlet | ⟨c, hc, hcout, hcerr⟩
    · exact Or.inl { hlet with stdout := hout.trans hlet.stdout, stderr := herr.trans hlet.stderr }
    · have hkept : fds.file c.originalStdout = k.fds.file c.originalStdout :=
        hleft _ (by simp [held, hc.originalStdout])
      have hkept' : fds.file c.originalStderr = k.fds.file c.originalStderr :=
        hleft _ (by simp [held, hc.originalStderr])
      refine Or.inr ⟨c, { hc with
        stdout := hout.trans hc.stdout
        stderr := herr.trans hc.stderr
        keptStdout := hkept.trans hc.keptStdout
        keptStderr := hkept'.trans hc.keptStderr
        only := fun fd hfd => hc.only fd ?_ }, hcout, hcerr⟩
      exact (hnew fd hc.started (hfd.trans hc.stdout.symm)).trans hc.stdout

end Runs

end Sink

end Logosctl.LogSink
