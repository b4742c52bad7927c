/-
# Processes over one token file

Every `token issue` and `token revoke` is a process of its own, and so is the daemon that issues
its boot token; nothing locks the file between one's read and its write.  Each process goes
through the steps of its operation (`Pc`): check the version, read and decide, stage the raw
token, publish the list, move the raw token into place.  Any process may take the next step.

The law is that the file is at every moment the work of the published operations one after the
other.  It holds in every run in which an operation publishes over the very file it has read
(`PublishesOverRead`); the invariant that carries it keeps for each process what its decision was
made from (`Inv`), and the serial order is the order of publication.  A process that publishes
over another file undoes what came between, a revocation included (`revocation_undone`).
-/
import Mathlib.Logic.Function.Basic
import Logosctl.Library.Transition
import Logosctl.TokenStore.Semantics

namespace Logosctl.TokenStore

open Logosctl.Library

/-! ## 1. The steps of one process -/

/-- Where a process stands.  From its read on it has the change it decided on and, for the
statements below, the file it read. -/
inductive Pc
  | start
  | checked
  | decided (seen : FileContent) (ch : Change)
  | staged (seen : FileContent) (ch : Change)
  | committed (ch : Change)
  | done (r : Except TypeError Outcome)

/-- What the operation answers for a name that is not safe. -/
def Op.invalidName : Op → Outcome
  | .issue _ _ _ _ => .issued { status := .invalidName }
  | .revoke _ => .revoked .invalidName

def Op.ioError : Op → Outcome
  | .issue _ _ _ _ => .issued { status := .ioError }
  | .revoke _ => .revoked .ioError

/-- What is left to do after a list that was not written, and after one that was. -/
def Op.abandon (op : Op) (io : Io) (d : Dir) : Dir :=
  match op with
  | .issue name _ _ _ => dropSide io name d
  | .revoke _ => d

def Op.finish (op : Op) (io : Io) (d : Dir) : Dir :=
  match op with
  | .issue name _ _ _ => promote io name d
  | .revoke name => dropRaw io name d

/-- One step of the call `c`: where it stands next, and what became of the directory. -/
def Call.step (sha256 : String → Vector UInt8 32) (c : Call) (d : Dir) : Pc → Option (Pc × Dir)
  | .start =>
    if !isSafeName c.op.name then some (.done (.ok c.op.invalidName), d)
    else
      match TokensFile.onDiskVersionUnsupported d.tokens with
      | .error e => some (.done (.error e), d)
      | .ok true => some (.done (.ok c.op.ioError), d)
      | .ok false => some (.checked, d)
  | .checked =>
    match TokensFile.read d.tokens with
    | .error e => some (.done (.error e), d)
    | .ok tokens =>
      match c.amend sha256 tokens with
      | .error o => some (.done (.ok o), d)
      | .ok ch => some (.decided d.tokens ch, d)
  | .decided seen ch =>
    match ch.raw with
    | none => some (.staged seen ch, d)
    | some raw =>
      let (staged, d) := writeRawTokenFile c.io raw d
      if staged then some (.staged seen ch, d) else some (.done (.ok c.op.ioError), d)
  | .staged _ ch =>
    let (committed, d) := TokensFile.write c.io ch.tokens d
    if committed then some (.committed ch, d)
    else some (.done (.ok c.op.ioError), c.op.abandon c.io d)
  | .committed ch => some (.done (.ok ch.outcome), c.op.finish c.io d)
  | .done _ => none

/-- Steps of one process with nobody in between. -/
def Call.settle (sha256 : String → Vector UInt8 32) (c : Call) : Nat → Pc → Dir → Pc × Dir
  | 0, pc, d => (pc, d)
  | k + 1, pc, d =>
    match c.step sha256 d pc with
    | none => (pc, d)
    | some (pc', d') => c.settle sha256 k pc' d'

section Solo

variable {sha256 : String → Vector UInt8 32} {d : Dir}

/-- The writes of an issue, as steps. -/
theorem settle_commitIssue {io : Io} {name expiresAt : String} {localOnly replace : Bool}
    (seen : FileContent) (ts : List TokenEntry) (raw : RawToken) :
    Call.settle sha256 ⟨.issue name expiresAt localOnly replace, io⟩ 3
        (.decided seen ⟨ts, some raw⟩) d =
      (.done (((commitIssue io name ts raw).exec d).1.map .issued),
        ((commitIssue io name ts raw).exec d).2) := by
  unfold commitIssue
  cases hstaging : io.staging <;> cases hcommitted : io.committed <;>
    simp [Call.settle, Call.step, Prog.exec_bind, writeRawTokenFile, TokensFile.write, hstaging,
      hcommitted, Op.ioError, Op.abandon, Op.finish, Change.outcome, Except.map, -bind_pure_comp]

theorem settle_commitRevoke {io : Io} {name : String} (seen : FileContent)
    (ts : List TokenEntry) :
    Call.settle sha256 ⟨.revoke name, io⟩ 3 (.decided seen ⟨ts, none⟩) d =
      (.done (((commitRevoke io name ts).exec d).1.map .revoked),
        ((commitRevoke io name ts).exec d).2) := by
  unfold commitRevoke
  cases hcommitted : io.committed <;>
    simp [Call.settle, Call.step, Prog.exec_bind, TokensFile.write, hcommitted, Op.ioError,
      Op.abandon, Op.finish, Change.outcome, Except.map, -bind_pure_comp]

/-- The checks and the read, as steps: they end the call, or hand on the list. -/
theorem settle_withTokens {α : Type} {c : Call} {f : α → Outcome} {invalidName ioError : α}
    {k : List TokenEntry → Prog Dir TypeError α} (hinvalid : c.op.invalidName = f invalidName)
    (hio : c.op.ioError = f ioError)
    (hk : ∀ ts, TokensFile.read d.tokens = .ok ts → c.settle sha256 4 .checked d =
      (.done (((k ts).exec d).1.map f), ((k ts).exec d).2)) :
    c.settle sha256 5 .start d =
      (.done (((withTokens c.op.name invalidName ioError k).exec d).1.map f),
        ((withTokens c.op.name invalidName ioError k).exec d).2) := by
  unfold Call.settle
  simp only [Call.step]
  by_cases hsafe : isSafeName c.op.name = true
  · cases hv : TokensFile.onDiskVersionUnsupported d.tokens with
    | error e =>
      simp [withTokens, hsafe, hv, Prog.exec_bind, Call.settle, Call.step, Except.map]
    | ok unsupported =>
      cases unsupported with
      | true =>
        simp [withTokens, hsafe, hv, Prog.exec_bind, Call.settle, Call.step, hio, Except.map]
      | false =>
        cases hread : TokensFile.read d.tokens with
        | error e =>
          simp [withTokens, hsafe, hv, hread, Prog.exec_bind, Call.settle, Call.step, Except.map]
        | ok ts =>
          rw [exec_withTokens hsafe hv hread]
          simpa [hsafe] using hk ts hread
  · simp [withTokens, hsafe, Call.settle, Call.step, hinvalid, Except.map]

/-- **A process alone does what the operation does:** its five steps end in the answer of the
call, and in the directory the call leaves. -/
theorem settle_eq_perform (c : Call) :
    c.settle sha256 5 .start d =
      (.done ((c.perform sha256).exec d).1, ((c.perform sha256).exec d).2) := by
  obtain ⟨op, io⟩ := c
  cases op with
  | issue name expiresAt localOnly replace =>
    simp only [Call.perform, Prog.exec_bind_pure, issueToken]
    refine settle_withTokens rfl rfl ?_
    intro ts hread
    unfold Call.settle
    simp only [Call.step, hread, Call.amend]
    cases hent : issueEntries sha256 io name expiresAt localOnly replace ts with
    | error res => rfl
    | ok change => exact settle_commitIssue d.tokens change.1 change.2
  | revoke name =>
    simp only [Call.perform, Prog.exec_bind_pure, revokeToken]
    refine settle_withTokens rfl rfl ?_
    intro ts hread
    unfold Call.settle
    simp only [Call.step, hread, Call.amend]
    cases hent : revokeEntries name ts with
    | error status => rfl
    | ok ts' => exact settle_commitRevoke d.tokens ts'

end Solo

/-! ## 2. The system -/

/-- The shared directory, where each process stands, and the processes that have published, in
that order. -/
structure Sys where
  dir : Dir
  pc : Nat → Pc
  written : List Nat

/-- No process has begun. -/
def Sys.init (d : Dir) : Sys := ⟨d, fun _ => .start, []⟩

def Pc.isCommitted : Pc → Bool
  | .committed _ => true
  | _ => false

/-- The process `p`, called with `calls p`, takes its next step. -/
def next (sha256 : String → Vector UInt8 32) (calls : Nat → Call) (s : Sys) (p : Nat) :
    Option Sys :=
  ((calls p).step sha256 s.dir (s.pc p)).map fun (pc, d) =>
    ⟨d, Function.update s.pc p pc, if pc.isCommitted then s.written ++ [p] else s.written⟩

/-- What a process that has published returns, or has returned. -/
def Pc.answer? : Pc → Option (Except TypeError Outcome)
  | .committed ch => some (.ok ch.outcome)
  | .done r => some r
  | _ => none

/-- The process has returned `Ok`. -/
def Sys.ReturnedOk (s : Sys) (p : Nat) : Prop := ∃ o, s.pc p = .done (.ok o) ∧ o.Ok

/-- The condition of one step: an operation that is about to publish has read the very file it
publishes over. -/
def PublishesOverRead (calls : Nat → Call) (s : Sys) (p : Nat) : Prop :=
  ∀ seen ch, s.pc p = .staged seen ch → (calls p).io.committed = true → s.dir.tokens = seen

/-- What a step does, by where the process stands: it comes to nothing, or it goes on. -/
inductive Moves (sha256 : String → Vector UInt8 32) (c : Call) (d : Dir) : Pc → Pc → Dir → Prop
  | refuse {pc : Pc} {r : Except TypeError Outcome} {d' : Dir} (hpc : pc.answer? = none)
      (hr : ∀ o, r = .ok o → ¬o.Ok) (htokens : d'.tokens = d.tokens) :
      Moves sha256 c d pc (.done r) d'
  | check (hsafe : isSafeName c.op.name = true)
      (hv : TokensFile.onDiskVersionUnsupported d.tokens = .ok false) :
      Moves sha256 c d .start .checked d
  | decide {ts : List TokenEntry} {ch : Change} (hread : TokensFile.read d.tokens = .ok ts)
      (hamend : c.amend sha256 ts = .ok ch) : Moves sha256 c d .checked (.decided d.tokens ch) d
  | stage {seen : FileContent} {ch : Change} {d' : Dir}
      (hstaged : ch.raw ≠ none → c.io.staging = .written) (htokens : d'.tokens = d.tokens) :
      Moves sha256 c d (.decided seen ch) (.staged seen ch) d'
  | publish {seen : FileContent} {ch : Change} {d' : Dir} (hcommitted : c.io.committed = true)
      (htokens : d'.tokens = .document (TokensFile.toJson ch.tokens)) :
      Moves sha256 c d (.staged seen ch) (.committed ch) d'
  | finish {ch : Change} {d' : Dir} (htokens : d'.tokens = d.tokens) :
      Moves sha256 c d (.committed ch) (.done (.ok ch.outcome)) d'

section Step

variable {sha256 : String → Vector UInt8 32} {c : Call} {d d' : Dir} {pc pc' : Pc}

theorem Op.invalidName_not_ok (op : Op) : ¬op.invalidName.Ok := by
  cases op <;> simp [Op.invalidName, Outcome.Ok]

theorem Op.ioError_not_ok (op : Op) : ¬op.ioError.Ok := by
  cases op <;> simp [Op.ioError, Outcome.Ok]

theorem Op.abandon_tokens (op : Op) (io : Io) : (op.abandon io d).tokens = d.tokens := by
  cases op <;> simp [Op.abandon]

theorem Op.finish_tokens (op : Op) (io : Io) : (op.finish io d).tokens = d.tokens := by
  cases op <;> simp [Op.finish]

/-- A decision that ends the call does not end it with `Ok`. -/
theorem amend_error {ts : List TokenEntry} {o : Outcome} (h : c.amend sha256 ts = .error o) :
    ¬o.Ok := by
  obtain ⟨op, io⟩ := c
  cases op with
  | issue name expiresAt localOnly replace =>
    simp only [Call.amend] at h
    split at h
    · rename_i r hent
      cases h
      exact issueEntries_error hent
    · cases h
  | revoke name =>
    simp only [Call.amend] at h
    split at h
    · rename_i status hent
      cases h
      exact revokeEntries_error hent
    · cases h

/-- An answer that is not a success comes to nothing. -/
theorem Moves.answer {o : Outcome} (hpc : pc.answer? = none) (ho : ¬o.Ok)
    (htokens : d'.tokens = d.tokens) : Moves sha256 c d pc (.done (.ok o)) d' := by
  refine .refuse hpc ?_ htokens
  rintro _ ⟨⟩
  exact ho

/-- So does an exception. -/
theorem Moves.throw {e : TypeError} (hpc : pc.answer? = none) (htokens : d'.tokens = d.tokens) :
    Moves sha256 c d pc (.done (.error e)) d' := .refuse hpc nofun htokens

/-- **The steps of a process, inverted.** -/
theorem moves_of_step (h : c.step sha256 d pc = some (pc', d')) : Moves sha256 c d pc pc' d' := by
  cases pc with
  | start =>
    simp only [Call.step] at h
    split at h
    · cases h
      exact .answer rfl (Op.invalidName_not_ok _) rfl
    · rename_i hsafe
      split at h
      · cases h
        exact .throw rfl rfl
      · cases h
        exact .answer rfl (Op.ioError_not_ok _) rfl
      · rename_i hv
        cases h
        exact .check (by simpa using hsafe) hv
  | checked =>
    simp only [Call.step] at h
    split at h
    · cases h
      exact .throw rfl rfl
    · rename_i ts hread
      split at h
      · rename_i o hamend
        cases h
        exact .answer rfl (amend_error hamend) rfl
      · rename_i ch hamend
        cases h
        exact .decide hread hamend
  | decided seen ch =>
    simp only [Call.step] at h
    split at h
    · rename_i hraw
      cases h
      exact .stage (fun hne => absurd hraw hne) rfl
    · rename_i raw hraw
      cases hstaging : c.io.staging with
      | written =>
        simp only [writeRawTokenFile, hstaging] at h
        cases h
        exact .stage (fun _ => hstaging) rfl
      | notOpened =>
        simp only [writeRawTokenFile, hstaging] at h
        cases h
        exact .answer rfl (Op.ioError_not_ok _) rfl
      | interrupted =>
        simp only [writeRawTokenFile, hstaging] at h
        cases h
        exact .answer rfl (Op.ioError_not_ok _) rfl
  | staged seen ch =>
    by_cases hcommitted : c.io.committed = true
    · simp only [Call.step, TokensFile.write, hcommitted, if_true] at h
      cases h
      exact .publish hcommitted rfl
    · simp only [Call.step, TokensFile.write, hcommitted] at h
      cases h
      exact .answer rfl (Op.ioError_not_ok _) (Op.abandon_tokens _ _)
  | committed ch =>
    cases h
    exact .finish (Op.finish_tokens _ _)
  | done r => cases h

/-- A step of the system is a move of one process. -/
theorem moves_of_next {calls : Nat → Call} {s s' : Sys} {p : Nat}
    (h : next sha256 calls s p = some s') :
    ∃ pc' d', Moves sha256 (calls p) s.dir (s.pc p) pc' d' ∧
      s' = ⟨d', Function.update s.pc p pc',
        if pc'.isCommitted then s.written ++ [p] else s.written⟩ := by
  obtain ⟨⟨pc', d'⟩, hstep, rfl⟩ := Option.map_eq_some_iff.mp h
  exact ⟨pc', d', moves_of_step hstep, rfl⟩

end Step

/-! ## 3. The published operations, one after the other -/

section Serial

variable {sha256 : String → Vector UInt8 32} {calls : Nat → Call} {d₀ : Dir} {s s' : Sys}

/-- What is known of a process from where it stands, and of the file it decided on. -/
def Pc.Justified (sha256 : String → Vector UInt8 32) (c : Call) (file : FileContent) : Pc → Prop
  | .checked => isSafeName c.op.name = true ∧
      TokensFile.onDiskVersionUnsupported file = .ok false
  | .decided seen ch => isSafeName c.op.name = true ∧
      TokensFile.onDiskVersionUnsupported file = .ok false ∧
      ∃ ts, TokensFile.read seen = .ok ts ∧ c.amend sha256 ts = .ok ch
  | .staged seen ch => isSafeName c.op.name = true ∧
      TokensFile.onDiskVersionUnsupported file = .ok false ∧
      (∃ ts, TokensFile.read seen = .ok ts ∧ c.amend sha256 ts = .ok ch) ∧
      (ch.raw ≠ none → c.io.staging = .written)
  | _ => True

/-- A file that turns into a supported one justifies all that it justified. -/
theorem Pc.Justified.mono {c : Call} {file file' : FileContent} {pc : Pc}
    (h : pc.Justified sha256 c file)
    (hv : TokensFile.onDiskVersionUnsupported file = .ok false →
      TokensFile.onDiskVersionUnsupported file' = .ok false) : pc.Justified sha256 c file' := by
  cases pc with
  | start => trivial
  | checked => exact ⟨h.1, hv h.2⟩
  | decided seen ch => exact ⟨h.1, hv h.2.1, h.2.2⟩
  | staged seen ch => exact ⟨h.1, hv h.2.1, h.2.2⟩
  | committed ch => trivial
  | done r => trivial

/-- The process has published: it is about to return `Ok`, or has. -/
def Pc.Published (pc : Pc) : Prop := ∃ o, pc.answer? = some (.ok o) ∧ o.Ok

/-- The file is the work of the published operations, in the order of their publication, and each
of them answers there what it answers here. -/
structure Inv (sha256 : String → Vector UInt8 32) (calls : Nat → Call) (d₀ : Dir) (s : Sys) :
    Prop where
  nodup : s.written.Nodup
  published : ∀ p, p ∈ s.written ↔ (s.pc p).Published
  justified : ∀ p, (s.pc p).Justified sha256 (calls p) s.dir.tokens
  file : (run sha256 (s.written.map calls) d₀).2.tokens = s.dir.tokens
  answers : (run sha256 (s.written.map calls) d₀).1.map (fun e => some e.result) =
    s.written.map fun p => (s.pc p).answer?

theorem inv_init : Inv sha256 calls d₀ (Sys.init d₀) where
  nodup := List.nodup_nil
  published p := by
    refine iff_of_false List.not_mem_nil ?_
    rintro ⟨o, ho, -⟩
    cases ho
  justified p := trivial
  file := rfl
  answers := rfl

/-- A step that publishes nothing, and leaves published what was. -/
theorem Inv.quiet {p : Nat} {pc' : Pc} {d' : Dir} (h : Inv sha256 calls d₀ s)
    (htokens : d'.tokens = s.dir.tokens) (hanswer : ∀ o, o.Ok →
      (pc'.answer? = some (.ok o) ↔ (s.pc p).answer? = some (.ok o)))
    (hjust : pc'.Justified sha256 (calls p) s.dir.tokens) :
    Inv sha256 calls d₀ ⟨d', Function.update s.pc p pc', s.written⟩ := by
  have hpub : ∀ q, (Function.update s.pc p pc' q).Published ↔ (s.pc q).Published := by
    intro q
    by_cases hq : q = p
    · subst hq
      rw [Function.update_self]
      exact ⟨fun ⟨o, ho, hok⟩ => ⟨o, (hanswer o hok).mp ho, hok⟩,
        fun ⟨o, ho, hok⟩ => ⟨o, (hanswer o hok).mpr ho, hok⟩⟩
    · rw [Function.update_of_ne hq]
  refine ⟨h.nodup, ?_, ?_, ?_, ?_⟩
  · intro q
    rw [hpub q]
    exact h.published q
  · intro q
    simp only [htokens]
    by_cases hq : q = p
    · subst hq
      rw [Function.update_self]
      exact hjust
    · rw [Function.update_of_ne hq]
      exact h.justified q
  · rw [htokens]
    exact h.file
  · rw [h.answers]
    refine List.map_congr_left ?_
    intro q hq
    by_cases hqp : q = p
    · subst hqp
      obtain ⟨o, ho, hok⟩ := (h.published q).mp hq
      simp only [Function.update_self]
      rw [ho, (hanswer o hok).mpr ho]
    · simp only [Function.update_of_ne hqp]

/-- The step that publishes, over the file its operation has read. -/
theorem Inv.publish {p : Nat} {seen : FileContent} {ch : Change} {d' : Dir}
    (h : Inv sha256 calls d₀ s) (hpc : s.pc p = .staged seen ch)
    (hcommitted : (calls p).io.committed = true) (hseen : s.dir.tokens = seen)
    (htokens : d'.tokens = .document (TokensFile.toJson ch.tokens)) :
    Inv sha256 calls d₀ ⟨d', Function.update s.pc p (.committed ch), s.written ++ [p]⟩ := by
  have hjust := h.justified p
  rw [hpc] at hjust
  obtain ⟨hsafe, hv, ⟨ts, hread, hamend⟩, hstaged⟩ := hjust
  have hnew : p ∉ s.written := by
    rw [h.published p, hpc]
    rintro ⟨o, ho, -⟩
    cases ho
  -- the serial run of the others ends in the file that `p` has read
  have hfile := h.file
  rw [← hseen] at hread
  rw [← hfile] at hread hv
  obtain ⟨t, hperform, ht⟩ := perform_of_amend hsafe hv hread hamend hstaged hcommitted
  have hother : ∀ q ∈ s.written, q ≠ p := by
    rintro q hq rfl
    exact hnew hq
  refine ⟨?_, ?_, ?_, ?_, ?_⟩
  · exact List.nodup_append.mpr ⟨h.nodup, by simp, by
      intro a ha b hb
      rw [List.mem_singleton.mp hb]
      exact hother a ha⟩
  · intro q
    rw [List.mem_append, List.mem_singleton]
    by_cases hq : q = p
    · subst hq
      simp only [Function.update_self, or_true, true_iff]
      exact ⟨ch.outcome, rfl, ch.outcome_ok⟩
    · simp only [Function.update_of_ne hq, hq, or_false]
      exact h.published q
  · intro q
    by_cases hq : q = p
    · subst hq
      simp only [Function.update_self]
      trivial
    · simp only [Function.update_of_ne hq]
      refine (h.justified q).mono fun _ => ?_
      rw [htokens]
      exact TokensFile.unsupported_document ch.tokens
  · simp only [List.map_append, List.map_singleton, run_append, run, hperform]
    rw [ht, htokens]
  · simp only [List.map_append, List.map_singleton, run_append, run, hperform, Function.update_self]
    rw [h.answers]
    refine congrArg (· ++ [some (Except.ok ch.outcome)]) (List.map_congr_left ?_)
    intro q hq
    simp only [Function.update_of_ne (hother q hq)]

/-- **Each step keeps the invariant**, as long as publications are over the file that was read. -/
theorem Inv.step {p : Nat} (h : Inv sha256 calls d₀ s) (hc : PublishesOverRead calls s p)
    (hnext : next sha256 calls s p = some s') : Inv sha256 calls d₀ s' := by
  obtain ⟨pc', d', hmove, rfl⟩ := moves_of_next hnext
  have hjust := h.justified p
  generalize hpc : s.pc p = pc at hmove hjust
  cases hmove with
  | refuse hnone hr htokens =>
    refine h.quiet htokens ?_ trivial
    intro o hok
    rw [hpc, hnone]
    refine iff_of_false ?_ (by simp)
    intro ho
    exact hr o (Option.some.inj ho) hok
  | check hsafe hv =>
    refine h.quiet rfl ?_ ⟨hsafe, hv⟩
    intro o hok
    rw [hpc]
    exact iff_of_false (by rintro ⟨⟩) (by rintro ⟨⟩)
  | decide hread hamend =>
    refine h.quiet rfl ?_ ⟨hjust.1, hjust.2, _, hread, hamend⟩
    intro o hok
    rw [hpc]
    exact iff_of_false (by rintro ⟨⟩) (by rintro ⟨⟩)
  | stage hstaged htokens =>
    refine h.quiet htokens ?_ ⟨hjust.1, hjust.2.1, hjust.2.2, hstaged⟩
    intro o hok
    rw [hpc]
    exact iff_of_false (by rintro ⟨⟩) (by rintro ⟨⟩)
  | publish hcommitted htokens =>
    exact h.publish hpc hcommitted (hc _ _ hpc hcommitted) htokens
  | finish htokens =>
    refine h.quiet htokens ?_ trivial
    intro o hok
    rw [hpc]
    exact Iff.rfl

end Serial

/-! ## 4. What stays of a published operation -/

section Lasting

variable {sha256 : String → Vector UInt8 32} {c : Call} {d d' : Dir} {n : String}

/-- No entry of the file carries the name. -/
def Unlisted (n : String) (file : FileContent) : Prop :=
  ∀ ts, TokensFile.read file = .ok ts → ∀ e ∈ ts, e.name ≠ n

/-- The entry stands in the file. -/
def Listed (e : TokenEntry) (file : FileContent) : Prop :=
  ∃ ts, TokensFile.read file = .ok ts ∧ e ∈ ts

/-- Only an issue for the name brings it back. -/
theorem Unlisted.perform {r : Except TypeError Outcome} (h : Unlisted n d.tokens)
    (hop : ∀ expiresAt localOnly replace, c.op ≠ .issue n expiresAt localOnly replace)
    (hrun : (c.perform sha256).exec d = (r, d')) : Unlisted n d'.tokens := by
  rcases perform_cases hrun with hrefuses | hcommits
  · rw [hrefuses.1]
    exact h
  · obtain ⟨ts, ch, hread, hamend, -, hread'⟩ := hcommits.read
    intro ts' hts' e he
    rw [hread'] at hts'
    obtain rfl := Except.ok.inj hts'
    rcases amend_cases hamend with
      ⟨name, expiresAt, localOnly, replace, hissue, -, htokens, -⟩ | ⟨name, -, htokens, -⟩
    · rw [htokens] at he
      rcases List.mem_append.mp he with hold | hnew
      · exact h ts hread e (List.mem_of_mem_eraseP hold)
      · rw [List.mem_singleton.mp hnew]
        rintro rfl
        exact hop _ _ _ hissue
    · rw [htokens] at he
      exact h ts hread e (List.mem_filter.mp he).1

/-- Only an operation on its name removes an entry. -/
theorem Listed.perform {r : Except TypeError Outcome} {e : TokenEntry}
    (h : Listed e d.tokens) (hop : c.op.name ≠ e.name)
    (hrun : (c.perform sha256).exec d = (r, d')) : Listed e d'.tokens := by
  rcases perform_cases hrun with hrefuses | hcommits
  · rw [hrefuses.1]
    exact h
  · obtain ⟨ts, ch, hread, hamend, -, hread'⟩ := hcommits.read
    obtain ⟨ts₀, hts₀, he⟩ := h
    rw [hread] at hts₀
    obtain rfl := Except.ok.inj hts₀
    refine ⟨ch.tokens, hread', ?_⟩
    rcases amend_cases hamend with
      ⟨name, expiresAt, localOnly, replace, hissue, -, htokens, -⟩ | ⟨name, hrevoke, htokens, -⟩
    · rw [hissue] at hop
      have hne : e.name ≠ name := Ne.symm hop
      rw [htokens]
      exact List.mem_append_left _ ((List.mem_eraseP_of_neg (by simpa using hne)).mpr he)
    · rw [hrevoke] at hop
      have hne : e.name ≠ name := Ne.symm hop
      rw [htokens]
      exact List.mem_filter.mpr ⟨he, by simpa using hne⟩

theorem Unlisted.run {cs : List Call} (h : Unlisted n d.tokens)
    (hop : ∀ c ∈ cs, ∀ expiresAt localOnly replace, c.op ≠ .issue n expiresAt localOnly replace) :
    Unlisted n (run sha256 cs d).2.tokens := by
  induction cs generalizing d with
  | nil => exact h
  | cons c cs ih => exact ih (h.perform (hop c (by simp)) rfl) fun b hb => hop b (by simp [hb])

theorem Listed.run {cs : List Call} {e : TokenEntry} (h : Listed e d.tokens)
    (hop : ∀ c ∈ cs, c.op.name ≠ e.name) : Listed e (run sha256 cs d).2.tokens := by
  induction cs generalizing d with
  | nil => exact h
  | cons c cs ih => exact ih (h.perform (hop c (by simp)) rfl) fun b hb => hop b (by simp [hb])

/-- A revocation that went through leaves no entry of its name. -/
theorem unlisted_of_revoke {o : Outcome} (hop : c.op = .revoke n) (hok : o.Ok)
    (hrun : (c.perform sha256).exec d = (.ok o, d')) : Unlisted n d'.tokens := by
  rcases perform_cases hrun with hrefuses | hcommits
  · exact absurd hok (hrefuses.2 o rfl)
  · obtain ⟨ts, ch, -, hamend, -, hread'⟩ := hcommits.read
    intro ts' hts' e he
    rw [hread'] at hts'
    obtain rfl := Except.ok.inj hts'
    rcases amend_cases hamend with ⟨_, _, _, _, hissue, -⟩ | ⟨name, hrevoke, htokens, -⟩
    · rw [hop] at hissue
      cases hissue
    · rw [hop] at hrevoke
      cases hrevoke
      rw [htokens] at he
      simpa using (List.mem_filter.mp he).2

/-- An issue that went through leaves the entry of the token it returned. -/
theorem listed_of_issue {o : Outcome} {expiresAt : String} {localOnly replace : Bool}
    (hop : c.op = .issue n expiresAt localOnly replace) (hok : o.Ok)
    (hrun : (c.perform sha256).exec d = (.ok o, d')) :
    Listed (issuedEntry sha256 c.io n expiresAt localOnly) d'.tokens ∧
      o = .issued { status := .ok, token := generateToken c.io.random } ∧
      generateToken c.io.random ≠ "" := by
  rcases perform_cases hrun with hrefuses | hcommits
  · exact absurd hok (hrefuses.2 o rfl)
  · obtain ⟨ts, ch, -, hamend, ho, hread'⟩ := hcommits.read
    rcases amend_cases hamend with
      ⟨_, _, _, _, hissue, hne, htokens, hraw⟩ | ⟨name, hrevoke, -⟩
    · rw [hop] at hissue
      cases hissue
      refine ⟨⟨ch.tokens, hread', ?_⟩, ?_, hne⟩
      · rw [htokens]
        simp
      · rw [Except.ok.inj ho, Change.outcome, hraw]
    · rw [hop] at hrevoke
      cases hrevoke

/-- No lookup answers a name that is not listed. -/
theorem Unlisted.not_accepted {file : FileContent} (h : Unlisted n file) (tok tr : String)
    (now : Int) : lookupByToken sha256 file tok tr now ≠ .ok (some n) := by
  unfold lookupByToken
  split
  · rintro ⟨⟩
  · rw [Ne, except_bind_eq_ok]
    rintro ⟨ts, hts, hlookup⟩
    obtain ⟨e, he, hname⟩ := exists_mem_of_lookupHash (Except.ok.inj hlookup)
    exact h ts hts e he hname

/-- A listed entry is what a lookup of its token answers, when no other entry has its hash. -/
theorem Listed.accepted {file : FileContent} {e : TokenEntry} {g : Grant} {tr : String} {now : Int}
    (h : Listed e file) (hshows : e.Shows sha256 g) (hne : g.token ≠ "")
    (honly : ∀ ts, TokensFile.read file = .ok ts → ∀ x ∈ ts, ∀ y ∈ ts,
      x.hash = hashToken sha256 g.token → y.hash = hashToken sha256 g.token → x = y)
    (hadmits : g.Admits tr now) :
    lookupByToken sha256 file g.token tr now = .ok (some e.name) := by
  obtain ⟨ts, hts, he⟩ := h
  obtain ⟨hhash, hexp, hlocal⟩ := hshows
  unfold lookupByToken
  rw [if_neg (by simpa using hne), hts]
  refine congrArg Except.ok ((lookupHash_eq_some_iff (honly ts hts)).mpr ⟨e, he, hhash, rfl, ?_, ?_⟩)
  · rw [hexp]
    exact Time.isExpired_eq_false_iff.mpr hadmits.1
  · rw [hlocal]
    exact hadmits.2

end Lasting

/-! ## 5. No lost update -/

section Interleavings

variable {sha256 : String → Vector UInt8 32} {calls : Nat → Call} {d₀ : Dir} {s s' : Sys}

/-- A run of the processes, each step of which meets the condition. -/
abbrev Interleaves (sha256 : String → Vector UInt8 32) (calls : Nat → Call)
    (C : Sys → Nat → Prop) (d₀ : Dir) (s : Sys) : Prop :=
  Reaches (fun s p s' => next sha256 calls s p = some s') C (Sys.init d₀) s

/-- The accepted tokens are those of the operations in `order`, run one after the other; and these
are the operations that have returned `Ok`, with those that are just about to. -/
structure SerialBy (sha256 : String → Vector UInt8 32) (calls : Nat → Call) (d₀ : Dir) (s : Sys)
    (order : List Nat) : Prop where
  nodup : order.Nodup
  returned : ∀ p, s.ReturnedOk p → p ∈ order
  published : ∀ p ∈ order, s.ReturnedOk p ∨ ∃ ch, s.pc p = .committed ch
  accepted : ∀ tok tr now, lookupByToken sha256 s.dir.tokens tok tr now =
    lookupByToken sha256 (run sha256 (order.map calls) d₀).2.tokens tok tr now

/-- Where a published operation stands in the serial run: it answers there what it answers here,
and the later ones go on from the directory it left. -/
theorem Inv.serial_at {pre post : List Nat} {p : Nat} (h : Inv sha256 calls d₀ s)
    (horder : s.written = pre ++ p :: post) :
    ∃ d₁ d₂ o, ((calls p).perform sha256).exec d₁ = (.ok o, d₂) ∧ o.Ok ∧
      (s.pc p).answer? = some (.ok o) ∧
      (run sha256 (post.map calls) d₂).2.tokens = s.dir.tokens := by
  obtain ⟨o, ho, hok⟩ := (h.published p).mp (by rw [horder]; simp)
  have hfile := h.file
  have hanswers := h.answers
  rw [horder, List.map_append, List.map_cons, run_append] at hfile hanswers
  rw [List.map_append, List.map_append] at hanswers
  obtain ⟨-, hrest⟩ := List.append_inj hanswers (by rw [List.length_map, run_length]; simp)
  rw [List.map_cons, ho] at hrest
  have hresult := Option.some.inj (List.cons.inj hrest).1
  exact ⟨_, _, o, Prod.ext hresult rfl, hok, ho, hfile⟩

theorem Inv.serialBy (h : Inv sha256 calls d₀ s) : SerialBy sha256 calls d₀ s s.written where
  nodup := h.nodup
  returned := by
    rintro p ⟨o, ho, hok⟩
    rw [h.published p, ho]
    exact ⟨o, rfl, hok⟩
  published := by
    intro p hp
    obtain ⟨o, ho, hok⟩ := (h.published p).mp hp
    generalize hpc : s.pc p = pc at ho
    cases pc with
    | committed ch => exact Or.inr ⟨ch, rfl⟩
    | done r =>
      cases ho
      exact Or.inl ⟨o, hpc, hok⟩
    | _ => cases ho
  accepted := by
    intro tok tr now
    rw [h.file]

/-- The name of a published revocation stays out of the file until a later issue for it. -/
theorem Inv.unlisted {pre post : List Nat} {p : Nat} {n : String} (h : Inv sha256 calls d₀ s)
    (horder : s.written = pre ++ p :: post) (hop : (calls p).op = .revoke n)
    (hpost : ∀ q ∈ post, ∀ expiresAt localOnly replace,
      (calls q).op ≠ .issue n expiresAt localOnly replace) : Unlisted n s.dir.tokens := by
  obtain ⟨d₁, d₂, o, hrun, hok, -, hfile⟩ := h.serial_at horder
  rw [← hfile]
  refine (unlisted_of_revoke hop hok hrun).run ?_
  intro c hc
  obtain ⟨q, hq, rfl⟩ := List.mem_map.mp hc
  exact hpost q hq

/-- The entry of a published issue stays in the file until a later operation on its name. -/
theorem Inv.listed {pre post : List Nat} {p : Nat} {n : String} {g : Grant} {replace : Bool}
    (h : Inv sha256 calls d₀ s) (horder : s.written = pre ++ p :: post)
    (hop : (calls p).op = .issue n g.expiresAt g.localOnly replace)
    (hanswer : (s.pc p).answer? = some (.ok (.issued { status := .ok, token := g.token })))
    (hpost : ∀ q ∈ post, (calls q).op.name ≠ n) :
    g.token ≠ "" ∧ ∃ e, e.name = n ∧ e.Shows sha256 g ∧ Listed e s.dir.tokens := by
  obtain ⟨d₁, d₂, o, hrun, hok, ho, hfile⟩ := h.serial_at horder
  obtain ⟨hlisted, rfl, hne⟩ := listed_of_issue hop hok hrun
  rw [ho] at hanswer
  cases g with
  | mk token expiresAt localOnly =>
    cases hanswer
    refine ⟨hne, issuedEntry sha256 (calls p).io n expiresAt localOnly, rfl, ⟨rfl, rfl, rfl⟩, ?_⟩
    rw [← hfile]
    refine hlisted.run ?_
    intro c hc
    obtain ⟨q, hq, rfl⟩ := List.mem_map.mp hc
    exact hpost q hq

/-- **No lost token update**, in runs that publish over what they read.  The order of publication
is a serial order with the same accepted tokens, and every operation answers in it what it
answered.  A revocation that was published keeps its name out until the name is issued again, and
the token of a published issue is accepted, within its limits and as long as its hash is its own,
until there is another operation on its name. -/
theorem published_in_order (h : Interleaves sha256 calls (PublishesOverRead calls) d₀ s) :
    SerialBy sha256 calls d₀ s s.written ∧
      ((run sha256 (s.written.map calls) d₀).1.map (fun e => some e.result) =
        s.written.map fun p => (s.pc p).answer?) ∧
      (∀ n pre p post, s.written = pre ++ p :: post → (calls p).op = .revoke n →
        (∀ q ∈ post, ∀ expiresAt localOnly replace,
          (calls q).op ≠ .issue n expiresAt localOnly replace) →
        ∀ tok tr now, lookupByToken sha256 s.dir.tokens tok tr now ≠ .ok (some n)) ∧
      (∀ (n : String) (pre : List Nat) (p : Nat) (post : List Nat) (g : Grant) (replace : Bool),
        s.written = pre ++ p :: post →
        (calls p).op = .issue n g.expiresAt g.localOnly replace →
        (s.pc p).answer? = some (.ok (.issued { status := .ok, token := g.token })) →
        (∀ q ∈ post, (calls q).op.name ≠ n) →
        (∀ ts, TokensFile.read s.dir.tokens = .ok ts → ∀ x ∈ ts, ∀ y ∈ ts,
          x.hash = hashToken sha256 g.token → y.hash = hashToken sha256 g.token → x = y) →
        ∀ tr now, g.Admits tr now →
          lookupByToken sha256 s.dir.tokens g.token tr now = .ok (some n)) := by
  have hinv : Inv sha256 calls d₀ s := h.invariant inv_init fun hi hc hs => hi.step hc hs
  refine ⟨hinv.serialBy, hinv.answers, ?_, ?_⟩
  · intro n pre p post horder hop hpost tok tr now
    exact (hinv.unlisted horder hop hpost).not_accepted tok tr now
  · intro n pre p post g replace horder hop hanswer hpost honly tr now hadmits
    obtain ⟨hne, e, rfl, hshows, hlisted⟩ := hinv.listed horder hop hanswer hpost
    exact hlisted.accepted hshows hne honly hadmits

/-- A process that is not scheduled stays where it was. -/
theorem pc_of_not_scheduled {p : Nat} : ∀ (ps : List Nat) {s s' : Sys}, p ∉ ps →
    runActions (next sha256 calls) s ps = some s' → s'.pc p = s.pc p
  | [], s, s', _, h => by
    cases h
    rfl
  | q :: ps, s, s', hp, h => by
    simp only [runActions, Option.bind_eq_some_iff] at h
    obtain ⟨t, ht, hrest⟩ := h
    rw [List.mem_cons, not_or] at hp
    obtain ⟨pc', d', -, rfl⟩ := moves_of_next ht
    rw [pc_of_not_scheduled ps hp.2 hrest]
    exact Function.update_of_ne hp.1 _ _

/-- The file that a process decided on, while it has not published. -/
def Pc.seen? : Pc → Option FileContent
  | .decided seen _ => some seen
  | .staged seen _ => some seen
  | _ => none

/-- **Alone, a process publishes over what it read.** -/
theorem alone_interleaves {p : Nat} (k : Nat)
    (h : runActions (next sha256 calls) (Sys.init d₀) (List.replicate k p) = some s) :
    Interleaves sha256 calls (PublishesOverRead calls) d₀ s := by
  have hinit : ∀ seen, ((Sys.init d₀).pc p).seen? = some seen →
      (Sys.init d₀).dir.tokens = seen := by
    rintro seen ⟨⟩
  refine runActions_reaches_of (I := fun s => ∀ seen, (s.pc p).seen? = some seen →
    s.dir.tokens = seen) _ ?_ ?_ hinit .refl h
  · intro t q hq ht seen ch hpc _
    rw [List.eq_of_mem_replicate hq] at hpc
    exact ht seen (by rw [hpc]; rfl)
  · intro t t' q hq ht hnext seen
    rw [List.eq_of_mem_replicate hq] at hnext
    obtain ⟨pc', d', hmove, rfl⟩ := moves_of_next hnext
    simp only [Function.update_self]
    generalize t.pc p = pc at hmove ht
    intro hseen
    cases hmove with
    | decide hread hamend => exact Option.some.inj hseen
    | stage hstaged htokens => rw [htokens]; exact ht seen hseen
    | _ => cases hseen

/-- The directory in which `alice` holds a token. -/
def aliceDir : Dir :=
  (run sampleSha256 [⟨.issue "alice" "" false false, goodIo 0⟩] emptyDir).2

/-- One process revokes `alice`, the others issue a token for `bob`. -/
def revokeAndIssue (p : Nat) : Call :=
  if p = 0 then ⟨.revoke "alice", goodIo 0⟩ else ⟨.issue "bob" "" false false, goodIo 255⟩

/-- The revocation alone keeps `alice` out. -/
theorem lone_revocation_lasts : ∃ s : Sys, s.ReturnedOk 0 ∧
    lookupByToken sampleSha256 s.dir.tokens zerosToken "tcp" 0 ≠
      .ok (some "alice") := by
  obtain ⟨s, hs⟩ : ∃ s, runActions (next sampleSha256 revokeAndIssue) (Sys.init aliceDir)
      (List.replicate 5 0) = some s := ⟨_, rfl⟩
  have hok : s.ReturnedOk 0 := by
    cases hs
    exact ⟨_, rfl, rfl⟩
  have hwritten : s.written = [0] := by
    cases hs
    rfl
  exact ⟨s, hok, (published_in_order (alone_interleaves 5 hs)).2.2.1 "alice" [] 0 [] hwritten rfl
    (by simp) _ _ _⟩

/-- The schedule in which both processes read before either publishes: `bob`'s issue reads, the
revocation runs from beginning to end, and the issue goes on. -/
def bothRead : List Nat := [1, 1, 0, 0, 0, 0, 0, 1, 1, 1]

theorem mem_bothRead {p : Nat} : p ∈ bothRead ↔ p = 0 ∨ p = 1 := by
  simp only [bothRead, List.mem_cons, List.not_mem_nil, or_false]
  omega

/-- The two orders of two processes. -/
theorem eq_pair {order : List Nat} (hnodup : order.Nodup) (h0 : 0 ∈ order) (h1 : 1 ∈ order)
    (hmem : ∀ p ∈ order, p = 0 ∨ p = 1) : order = [0, 1] ∨ order = [1, 0] := by
  have hperm : order.Perm [0, 1] := by
    refine (List.perm_ext_iff_of_nodup hnodup (by decide)).mpr ?_
    intro p
    rw [List.mem_cons, List.mem_singleton]
    constructor
    · exact hmem p
    · rintro (rfl | rfl)
      · exact h0
      · exact h1
  obtain ⟨a, b, rfl⟩ := List.length_eq_two.mp hperm.length_eq
  simp only [List.mem_cons, List.not_mem_nil, or_false] at h0 h1
  rcases h0 with rfl | rfl
  · obtain rfl := h1.resolve_left (by decide)
    exact Or.inl rfl
  · obtain rfl := h1.resolve_right (by decide)
    exact Or.inr rfl

/-- **A revocation is undone.**  The revocation of `alice` has returned `Ok`, and so has the issue
for `bob`; nobody is under way; `alice`'s token is accepted; and no serial order of the two
operations accepts it. -/
theorem revocation_undone : ∃ s,
    Interleaves sampleSha256 revokeAndIssue (fun _ _ => True) aliceDir s ∧
    (∀ p, s.pc p = .start ∨ ∃ r, s.pc p = .done r) ∧
    s.pc 0 = .done (.ok (.revoked .ok)) ∧ s.ReturnedOk 1 ∧
    lookupByToken sampleSha256 s.dir.tokens zerosToken "tcp" 0 =
      .ok (some "alice") ∧
    ¬∃ order, SerialBy sampleSha256 revokeAndIssue aliceDir s order := by
  obtain ⟨s, hs⟩ : ∃ s, runActions (next sampleSha256 revokeAndIssue) (Sys.init aliceDir)
      bothRead = some s := ⟨_, rfl⟩
  have hothers : ∀ p, p ∉ bothRead → s.pc p = .start := fun p hp => pc_of_not_scheduled _ hp hs
  have hzero : s.pc 0 = .done (.ok (.revoked .ok)) := by
    cases hs
    rfl
  have hone : s.ReturnedOk 1 := by
    cases hs
    exact ⟨_, rfl, rfl⟩
  have halice : lookupByToken sampleSha256 s.dir.tokens
      zerosToken "tcp" 0 = .ok (some "alice") := by
    cases hs
    decide +kernel
  refine ⟨s, runActions_reaches _ .refl hs, ?_, hzero, hone, halice, ?_⟩
  · intro p
    by_cases hp : p ∈ bothRead
    · obtain ⟨o, ho, -⟩ := hone
      rcases mem_bothRead.mp hp with rfl | rfl
      · exact Or.inr ⟨_, hzero⟩
      · exact Or.inr ⟨_, ho⟩
    · exact Or.inl (hothers p hp)
  · rintro ⟨order, horder⟩
    have hmem : ∀ p ∈ order, p = 0 ∨ p = 1 := by
      intro p hp
      by_contra hout
      have hstart := hothers p (mem_bothRead.not.mpr hout)
      rcases horder.published p hp with ⟨o, ho, -⟩ | ⟨ch, hch⟩
      · rw [hstart] at ho
        cases ho
      · rw [hstart] at hch
        cases hch
    have hboth := eq_pair horder.nodup (horder.returned 0 ⟨_, hzero, rfl⟩)
      (horder.returned 1 hone) hmem
    have haccepted := horder.accepted zerosToken "tcp" 0
    rw [halice] at haccepted
    rcases hboth with rfl | rfl
    · revert haccepted
      decide +kernel
    · revert haccepted
      decide +kernel

end Interleavings

end Logosctl.TokenStore
