/-
# Calls of the token store, and what one call can do

A call is an operation together with what its system calls do.  All that the later modules need
of one is said once, in two directions: a call either leaves `tokens.json` as it was and does not
return `Ok`, or it read a list, amended it, wrote the amended list and returned `Ok`
(`perform_cases`); and a call whose checks and writes go through does the latter
(`perform_of_amend`).  What it writes reads back as the list that was written
(`TokensFile.read_document`).
-/
import Logosctl.TokenStore

namespace Logosctl.TokenStore

open Logosctl.Library

/-! ## 1. Operations, calls and outcomes -/

inductive Op
  | issue (name expiresAt : String) (localOnly replace : Bool)
  | revoke (name : String)
  deriving DecidableEq, Repr

/-- The name that an operation is about. -/
def Op.name : Op → String
  | .issue name _ _ _ => name
  | .revoke name => name

structure Call where
  op : Op
  io : Io

/-- What a call returns. -/
inductive Outcome
  | issued (r : IssueResult)
  | revoked (status : RevokeStatus)
  deriving DecidableEq, Repr

/-- The call returned `Ok`. -/
def Outcome.Ok : Outcome → Prop
  | .issued r => r.status = .ok
  | .revoked status => status = .ok

instance (o : Outcome) : Decidable o.Ok := by
  cases o <;> exact inferInstanceAs (Decidable (_ = _))

/-- What a call has decided once it holds the list: the list to write, and the raw token to stage
before that, when it issues one. -/
structure Change where
  tokens : List TokenEntry
  raw : Option RawToken

/-- What the call returns when the change goes through. -/
def Change.outcome (ch : Change) : Outcome :=
  match ch.raw with
  | some raw => .issued { status := .ok, token := raw.token }
  | none => .revoked .ok

theorem Change.outcome_ok (ch : Change) : ch.outcome.Ok := by
  unfold Change.outcome
  cases ch.raw <;> exact rfl

section Calls

variable (sha256 : String → Vector UInt8 32)

/-- The part of a call between its read and its first write. -/
def Call.amend (c : Call) (tokens : List TokenEntry) : Except Outcome Change :=
  match c.op with
  | .issue name expiresAt localOnly replace =>
    match issueEntries sha256 c.io name expiresAt localOnly replace tokens with
    | .error r => .error (.issued r)
    | .ok (tokens, raw) => .ok ⟨tokens, some raw⟩
  | .revoke name =>
    match revokeEntries name tokens with
    | .error status => .error (.revoked status)
    | .ok tokens => .ok ⟨tokens, none⟩

/-- The call as a whole. -/
def Call.perform (c : Call) : Prog Dir TypeError Outcome :=
  match c.op with
  | .issue name expiresAt localOnly replace => do
    let r ← issueToken sha256 c.io name expiresAt localOnly replace
    pure (.issued r)
  | .revoke name => do
    let status ← revokeToken c.io name
    pure (.revoked status)

/-- An operation that was called, and how the call ended. -/
structure Event where
  op : Op
  result : Except TypeError Outcome

/-- Calls one after the other: what each of them answered, and the directory at the end. -/
def run : List Call → Dir → List Event × Dir
  | [], d => ([], d)
  | c :: cs, d =>
    let (r, d') := (c.perform sha256).exec d
    let (history, d'') := run cs d'
    (⟨c.op, r⟩ :: history, d'')

end Calls

section Run

variable {sha256 : String → Vector UInt8 32}

/-- A run goes on from where the first part of it ended. -/
theorem run_append (cs cs' : List Call) (d : Dir) :
    run sha256 (cs ++ cs') d =
      ((run sha256 cs d).1 ++ (run sha256 cs' (run sha256 cs d).2).1,
        (run sha256 cs' (run sha256 cs d).2).2) := by
  induction cs generalizing d with
  | nil => rfl
  | cons c cs ih => simp only [List.cons_append, run, ih]

theorem run_length (cs : List Call) (d : Dir) : (run sha256 cs d).1.length = cs.length := by
  induction cs generalizing d with
  | nil => rfl
  | cons c cs ih => simp only [run, List.length_cons, ih]

end Run

/-! ## 2. What is written reads back -/

/-- An entry that survives the reader: it has a name and a hash. -/
def TokenEntry.WellFormed (e : TokenEntry) : Prop := e.name ≠ "" ∧ e.hash ≠ ""

/-- An entry is read back as it was written, the null of an expiry that is not set included. -/
theorem tokenEntryFromJson_toJson {e : TokenEntry} (h : e.WellFormed) :
    tokenEntryFromJson (tokenEntryToJson e) = .ok (some e) := by
  obtain ⟨name, hash, issuedAt, expiresAt, localOnly⟩ := e
  obtain ⟨hname, hhash⟩ := h
  simp only at hname hhash
  by_cases hexp : expiresAt = ""
  · subst hexp
    simp [tokenEntryFromJson, expiresAtFromJson, tokenEntryToJson, Json.isObject, Json.valueStr,
      Json.valueBool, Json.value, Json.getString, Json.getBool, Json.find?, List.lookup_cons, hname,
      hhash, bind, Except.bind, pure, Except.pure]
  · simp [tokenEntryFromJson, expiresAtFromJson, tokenEntryToJson, Json.isObject, Json.valueStr,
      Json.valueBool, Json.value, Json.getString, Json.getBool, Json.find?, List.lookup_cons, hname,
      hhash, hexp, bind, Except.bind, pure, Except.pure]

theorem readEntries_toJson {ts : List TokenEntry} (h : ∀ e ∈ ts, e.WellFormed) :
    readEntries (ts.map tokenEntryToJson) = .ok ts := by
  induction ts with
  | nil => rfl
  | cons e ts ih =>
    rw [List.map_cons, readEntries, tokenEntryFromJson_toJson (h e (by simp)),
      ih fun x hx => h x (by simp [hx])]
    rfl

/-- The document of a list of entries: the version is the supported one. -/
theorem TokensFile.unsupported_document (ts : List TokenEntry) :
    TokensFile.onDiskVersionUnsupported (.document (TokensFile.toJson ts)) = .ok false := by
  rfl

theorem TokensFile.read_document {ts : List TokenEntry} (h : ∀ e ∈ ts, e.WellFormed) :
    TokensFile.read (.document (TokensFile.toJson ts)) = .ok ts := by
  exact readEntries_toJson h

/-- Whatever the reader lets through is well formed. -/
theorem wellFormed_of_fromJson {j : Json} {e : TokenEntry}
    (h : tokenEntryFromJson j = .ok (some e)) : e.WellFormed := by
  unfold tokenEntryFromJson at h
  split at h
  · cases h
  · simp only [except_bind_eq_ok] at h
    obtain ⟨name, -, hash, -, issuedAt, -, h⟩ := h
    split at h
    · cases h
    · rename_i hne
      simp only [except_bind_eq_ok] at h
      obtain ⟨expiresAt, -, localOnly, -, h⟩ := h
      cases h
      simpa [TokenEntry.WellFormed] using hne

theorem wellFormed_of_readEntries {js : List Json} {ts : List TokenEntry}
    (h : readEntries js = .ok ts) : ∀ e ∈ ts, e.WellFormed := by
  induction js generalizing ts with
  | nil =>
    cases h
    simp
  | cons j js ih =>
    simp only [readEntries, except_bind_eq_ok] at h
    obtain ⟨t, ht, rest, hrest, h⟩ := h
    cases h
    intro e he
    rcases List.mem_append.mp he with hmem | hmem
    · rw [Option.mem_toList.mp hmem] at ht
      exact wellFormed_of_fromJson ht
    · exact ih hrest e hmem

theorem TokensFile.wellFormed_of_read {file : FileContent} {ts : List TokenEntry}
    (h : TokensFile.read file = .ok ts) : ∀ e ∈ ts, e.WellFormed := by
  cases file with
  | missing =>
    cases h
    simp
  | unparseable =>
    cases h
    simp
  | document obj =>
    simp only [TokensFile.read, except_bind_eq_ok] at h
    obtain ⟨v, -, h⟩ := h
    split at h
    · cases h
      simp
    · split at h
      · exact wellFormed_of_readEntries h
      · cases h
        simp

/-! ## 3. What a call can do -/

section Cases

variable {sha256 : String → Vector UInt8 32} {io : Io} {d d' : Dir}

@[simp] theorem dropSide_tokens (name : String) : (dropSide io name d).tokens = d.tokens := by
  unfold dropSide
  split <;> rfl

@[simp] theorem promote_tokens (name : String) : (promote io name d).tokens = d.tokens := by
  unfold promote
  split <;> rfl

@[simp] theorem dropRaw_tokens (name : String) : (dropRaw io name d).tokens = d.tokens := by
  unfold dropRaw
  split <;> rfl

/-- Staging does not touch `tokens.json`. -/
@[simp] theorem writeRawTokenFile_tokens (t : RawToken) :
    (writeRawTokenFile io t d).2.tokens = d.tokens := by
  unfold writeRawTokenFile
  split <;> rfl

/-- An issue that stops at the list does not return `Ok`. -/
theorem issueEntries_error {name expiresAt : String} {localOnly replace : Bool}
    {ts : List TokenEntry} {r : IssueResult}
    (h : issueEntries sha256 io name expiresAt localOnly replace ts = .error r) :
    r.status ≠ .ok := by
  unfold issueEntries at h
  split at h
  · cases h
    simp
  · simp only at h
    split at h
    · cases h
      simp
    · cases h

theorem revokeEntries_error {name : String} {ts : List TokenEntry} {status : RevokeStatus}
    (h : revokeEntries name ts = .error status) : status ≠ .ok := by
  unfold revokeEntries at h
  simp only at h
  split at h
  · cases h
    simp
  · cases h

/-- A call that went through: its checks passed on the file it found, and it left the amended
list behind. -/
structure Commits (sha256 : String → Vector UInt8 32) (c : Call) (d d' : Dir)
    (r : Except TypeError Outcome) : Prop where
  safe : isSafeName c.op.name = true
  supported : TokensFile.onDiskVersionUnsupported d.tokens = .ok false
  amends : ∃ ts ch, TokensFile.read d.tokens = .ok ts ∧ c.amend sha256 ts = .ok ch ∧
    r = .ok ch.outcome ∧ d'.tokens = .document (TokensFile.toJson ch.tokens)

/-- A call that came to nothing: `tokens.json` is as it was, and the answer is not `Ok`. -/
def Refuses (d d' : Dir) (r : Except TypeError Outcome) : Prop :=
  d'.tokens = d.tokens ∧ ∀ o, r = .ok o → ¬o.Ok

/-- The common beginning: it stops without a change, or it goes on with the list it read. -/
theorem withTokens_cases {α : Type} {name : String} {invalidName ioError : α}
    {k : List TokenEntry → Prog Dir TypeError α} {r : Except TypeError α}
    (h : (withTokens name invalidName ioError k).exec d = (r, d')) :
    (d' = d ∧ ∀ a, r = .ok a → a = invalidName ∨ a = ioError) ∨
      (isSafeName name = true ∧ TokensFile.onDiskVersionUnsupported d.tokens = .ok false ∧
        ∃ ts, TokensFile.read d.tokens = .ok ts ∧ (k ts).exec d = (r, d')) := by
  unfold withTokens at h
  by_cases hsafe : isSafeName name = true
  · rw [if_neg (by simp [hsafe]), Prog.exec_bind_of_ok (Prog.exec_get d)] at h
    cases hv : TokensFile.onDiskVersionUnsupported d.tokens with
    | error e =>
      rw [hv, Prog.exec_bind_of_error (Prog.exec_lift_error id e d)] at h
      cases h
      exact Or.inl ⟨rfl, by rintro _ ⟨⟩⟩
    | ok unsupported =>
      rw [hv, Prog.exec_bind_of_ok (Prog.exec_lift_ok id unsupported d)] at h
      cases unsupported with
      | true =>
        cases h
        exact Or.inl ⟨rfl, by rintro _ ⟨⟩; exact Or.inr rfl⟩
      | false =>
        rw [if_neg (by simp), Prog.exec_bind_of_ok (Prog.exec_get d)] at h
        cases hread : TokensFile.read d.tokens with
        | error e =>
          rw [hread, Prog.exec_bind_of_error (Prog.exec_lift_error id e d)] at h
          cases h
          exact Or.inl ⟨rfl, by rintro _ ⟨⟩⟩
        | ok ts =>
          rw [hread, Prog.exec_bind_of_ok (Prog.exec_lift_ok id ts d)] at h
          exact Or.inr ⟨hsafe, rfl, ts, rfl, h⟩
  · rw [if_pos (by simp [hsafe])] at h
    cases h
    exact Or.inl ⟨rfl, by rintro _ ⟨⟩; exact Or.inl rfl⟩

/-- Once the checks pass, the rest of the operation runs on the list. -/
theorem exec_withTokens {α : Type} {name : String} {invalidName ioError : α}
    {k : List TokenEntry → Prog Dir TypeError α} {ts : List TokenEntry}
    (hsafe : isSafeName name = true)
    (hv : TokensFile.onDiskVersionUnsupported d.tokens = .ok false)
    (hread : TokensFile.read d.tokens = .ok ts) :
    (withTokens name invalidName ioError k).exec d = (k ts).exec d := by
  unfold withTokens
  rw [if_neg (by simp [hsafe]), Prog.exec_bind_of_ok (Prog.exec_get d), hv,
    Prog.exec_bind_of_ok (Prog.exec_lift_ok id false d), if_neg (by simp),
    Prog.exec_bind_of_ok (Prog.exec_get d), hread,
    Prog.exec_bind_of_ok (Prog.exec_lift_ok id ts d)]

/-- The writes of an issue: all of them, or `tokens.json` is untouched. -/
theorem exec_commitIssue (name : String) (ts : List TokenEntry) (raw : RawToken) :
    ∃ d', ((commitIssue io name ts raw).exec d =
        (.ok { status := .ok, token := raw.token }, d') ∧ io.staging = .written ∧
        io.committed = true ∧ d'.tokens = .document (TokensFile.toJson ts)) ∨
      ((commitIssue io name ts raw).exec d = (.ok { status := .ioError }, d') ∧
        (io.staging ≠ .written ∨ io.committed = false) ∧ d'.tokens = d.tokens) := by
  unfold commitIssue
  cases hstaging : io.staging <;> cases hcommitted : io.committed <;>
    simp [Prog.exec_bind, writeRawTokenFile, TokensFile.write, hstaging, hcommitted,
      -bind_pure_comp]

theorem exec_commitRevoke (name : String) (ts : List TokenEntry) :
    ∃ d', ((commitRevoke io name ts).exec d = (.ok .ok, d') ∧ io.committed = true ∧
        d'.tokens = .document (TokensFile.toJson ts)) ∨
      ((commitRevoke io name ts).exec d = (.ok .ioError, d') ∧ io.committed = false ∧
        d'.tokens = d.tokens) := by
  unfold commitRevoke
  cases hcommitted : io.committed <;>
    simp [Prog.exec_bind, TokensFile.write, hcommitted, -bind_pure_comp]

theorem issueToken_cases {name expiresAt : String} {localOnly replace : Bool}
    {r : Except TypeError IssueResult}
    (h : (issueToken sha256 io name expiresAt localOnly replace).exec d = (r, d')) :
    (d'.tokens = d.tokens ∧ ∀ a, r = .ok a → a.status ≠ .ok) ∨
      (isSafeName name = true ∧ TokensFile.onDiskVersionUnsupported d.tokens = .ok false ∧
        ∃ ts ts' raw, TokensFile.read d.tokens = .ok ts ∧
          issueEntries sha256 io name expiresAt localOnly replace ts = .ok (ts', raw) ∧
          r = .ok { status := .ok, token := raw.token } ∧
          d'.tokens = .document (TokensFile.toJson ts')) := by
  rcases withTokens_cases h with ⟨rfl, hres⟩ | ⟨hsafe, hv, ts, hread, hrest⟩
  · refine Or.inl ⟨rfl, ?_⟩
    intro a ha
    rcases hres a ha with rfl | rfl <;> simp
  · cases hent : issueEntries sha256 io name expiresAt localOnly replace ts with
    | error res =>
      simp only [hent] at hrest
      cases hrest
      refine Or.inl ⟨rfl, ?_⟩
      rintro _ ⟨⟩
      exact issueEntries_error hent
    | ok change =>
      obtain ⟨ts', raw⟩ := change
      simp only [hent] at hrest
      obtain ⟨u, ⟨hexec, -, -, htokens⟩ | ⟨hexec, -, htokens⟩⟩ :=
        @exec_commitIssue io d name ts' raw
      · rw [hexec] at hrest
        cases hrest
        exact Or.inr ⟨hsafe, hv, ts, ts', raw, hread, hent, rfl, htokens⟩
      · rw [hexec] at hrest
        cases hrest
        refine Or.inl ⟨htokens, ?_⟩
        rintro _ ⟨⟩
        simp

theorem revokeToken_cases {name : String} {r : Except TypeError RevokeStatus}
    (h : (revokeToken io name).exec d = (r, d')) :
    (d'.tokens = d.tokens ∧ ∀ a, r = .ok a → a ≠ .ok) ∨
      (isSafeName name = true ∧ TokensFile.onDiskVersionUnsupported d.tokens = .ok false ∧
        ∃ ts ts', TokensFile.read d.tokens = .ok ts ∧ revokeEntries name ts = .ok ts' ∧
          r = .ok .ok ∧ d'.tokens = .document (TokensFile.toJson ts')) := by
  rcases withTokens_cases h with ⟨rfl, hres⟩ | ⟨hsafe, hv, ts, hread, hrest⟩
  · refine Or.inl ⟨rfl, ?_⟩
    intro a ha
    rcases hres a ha with rfl | rfl <;> simp
  · cases hent : revokeEntries name ts with
    | error status =>
      simp only [hent] at hrest
      cases hrest
      refine Or.inl ⟨rfl, ?_⟩
      rintro _ ⟨⟩
      exact revokeEntries_error hent
    | ok ts' =>
      simp only [hent] at hrest
      obtain ⟨u, ⟨hexec, -, htokens⟩ | ⟨hexec, -, htokens⟩⟩ := @exec_commitRevoke io d name ts'
      · rw [hexec] at hrest
        cases hrest
        exact Or.inr ⟨hsafe, hv, ts, ts', hread, hent, rfl, htokens⟩
      · rw [hexec] at hrest
        cases hrest
        refine Or.inl ⟨htokens, ?_⟩
        rintro _ ⟨⟩
        simp

/-- **A call either comes to nothing or goes through.** -/
theorem perform_cases {c : Call} {r : Except TypeError Outcome}
    (h : (c.perform sha256).exec d = (r, d')) :
    Refuses d d' r ∨ Commits sha256 c d d' r := by
  obtain ⟨op, io⟩ := c
  cases op with
  | issue name expiresAt localOnly replace =>
    cases hrun : (issueToken sha256 io name expiresAt localOnly replace).exec d with
    | mk res t =>
      simp only [Call.perform, Prog.exec_bind_pure, hrun, Prod.mk.injEq] at h
      obtain ⟨rfl, rfl⟩ := h
      rcases issueToken_cases hrun with
        ⟨htokens, hres⟩ | ⟨hsafe, hv, ts, ts', raw, hread, hent, rfl, htokens⟩
      · refine Or.inl ⟨htokens, ?_⟩
        intro o ho
        obtain ⟨a, ha, rfl⟩ := except_map_eq_ok.mp ho
        exact hres a ha
      · refine Or.inr ⟨hsafe, hv, ts, ⟨ts', some raw⟩, hread, ?_, rfl, htokens⟩
        simp only [Call.amend, hent]
  | revoke name =>
    cases hrun : (revokeToken io name).exec d with
    | mk res t =>
      simp only [Call.perform, Prog.exec_bind_pure, hrun, Prod.mk.injEq] at h
      obtain ⟨rfl, rfl⟩ := h
      rcases revokeToken_cases hrun with
        ⟨htokens, hres⟩ | ⟨hsafe, hv, ts, ts', hread, hent, rfl, htokens⟩
      · refine Or.inl ⟨htokens, ?_⟩
        intro o ho
        obtain ⟨a, ha, rfl⟩ := except_map_eq_ok.mp ho
        exact hres a ha
      · refine Or.inr ⟨hsafe, hv, ts, ⟨ts', none⟩, hread, ?_, rfl, htokens⟩
        simp only [Call.amend, hent]

/-- **A call goes through** when its checks pass, its change stands and its writes take. -/
theorem perform_of_amend {c : Call} {ts : List TokenEntry} {ch : Change}
    (hsafe : isSafeName c.op.name = true)
    (hv : TokensFile.onDiskVersionUnsupported d.tokens = .ok false)
    (hread : TokensFile.read d.tokens = .ok ts) (hamend : c.amend sha256 ts = .ok ch)
    (hstaged : ch.raw ≠ none → c.io.staging = .written) (hcommitted : c.io.committed = true) :
    ∃ d', (c.perform sha256).exec d = (.ok ch.outcome, d') ∧
      d'.tokens = .document (TokensFile.toJson ch.tokens) := by
  obtain ⟨op, io⟩ := c
  cases op with
  | issue name expiresAt localOnly replace =>
    simp only [Call.amend] at hamend
    cases hent : issueEntries sha256 io name expiresAt localOnly replace ts with
    | error res =>
      simp only [hent] at hamend
      cases hamend
    | ok change =>
      obtain ⟨ts', raw⟩ := change
      simp only [hent] at hamend
      cases hamend
      have hsafe' : isSafeName name = true := hsafe
      simp only [Call.perform, Prog.exec_bind_pure, issueToken, exec_withTokens hsafe' hv hread,
        hent]
      obtain ⟨u, ⟨hexec, -, -, htokens⟩ | ⟨-, hfail, -⟩⟩ :=
        @exec_commitIssue io d name ts' raw
      · exact ⟨u, by rw [hexec]; rfl, htokens⟩
      · rcases hfail with hfail | hfail
        · exact absurd (hstaged (by simp)) hfail
        · rw [hcommitted] at hfail
          cases hfail
  | revoke name =>
    simp only [Call.amend] at hamend
    cases hent : revokeEntries name ts with
    | error status =>
      simp only [hent] at hamend
      cases hamend
    | ok ts' =>
      simp only [hent] at hamend
      cases hamend
      have hsafe' : isSafeName name = true := hsafe
      simp only [Call.perform, Prog.exec_bind_pure, revokeToken, exec_withTokens hsafe' hv hread,
        hent]
      obtain ⟨u, ⟨hexec, -, htokens⟩ | ⟨-, hfail, -⟩⟩ := @exec_commitRevoke io d name ts'
      · exact ⟨u, by rw [hexec]; rfl, htokens⟩
      · rw [hcommitted] at hfail
        cases hfail

end Cases

/-! ## 4. What a change consists of -/

section Changes

variable {sha256 : String → Vector UInt8 32} {c : Call} {ts : List TokenEntry} {ch : Change}

theorem isSafeName_ne_empty {name : String} (h : isSafeName name = true) : name ≠ "" := by
  rintro rfl
  revert h
  decide

/-- A digest is never empty. -/
theorem hashToken_ne_empty (token : String) : hashToken sha256 token ≠ "" := by
  intro h
  have hnil := congrArg String.toList h
  rw [hashToken, String.toList_ofList] at hnil
  have hbytes : (sha256 token).toList = [] := by
    refine List.eq_nil_iff_forall_not_mem.mpr ?_
    intro b hb
    exact absurd (List.flatMap_eq_nil_iff.mp hnil b hb) (by simp)
  have hlen := (sha256 token).length_toList
  rw [hbytes] at hlen
  cases hlen

/-- The entry that an issue adds. -/
def issuedEntry (sha256 : String → Vector UInt8 32) (io : Io) (name expiresAt : String)
    (localOnly : Bool) : TokenEntry :=
  ⟨name, hashToken sha256 (generateToken io.random), io.issuedAt, expiresAt, localOnly⟩

/-- **The two kinds of change.**  An issue puts its entry last, in the place of the first of the
name; a revocation drops every entry of the name. -/
theorem amend_cases (h : c.amend sha256 ts = .ok ch) :
    (∃ name expiresAt localOnly replace,
      c.op = .issue name expiresAt localOnly replace ∧ generateToken c.io.random ≠ "" ∧
        ch.tokens = ts.eraseP (fun e => e.name == name) ++
          [issuedEntry sha256 c.io name expiresAt localOnly] ∧
        ch.raw = some ⟨name, generateToken c.io.random, c.io.issuedAt⟩) ∨
      (∃ name, c.op = .revoke name ∧ ch.tokens = ts.filter (fun e => !(e.name == name)) ∧
        ch.raw = none) := by
  obtain ⟨op, io⟩ := c
  cases op with
  | issue name expiresAt localOnly replace =>
    refine Or.inl ⟨name, expiresAt, localOnly, replace, rfl, ?_⟩
    simp only [Call.amend, issueEntries] at h
    by_cases hdup : ((ts.any fun e => e.name == name) && !replace) = true
    · rw [if_pos hdup] at h
      cases h
    · rw [if_neg hdup] at h
      by_cases hraw : (generateToken io.random).isEmpty = true
      · rw [if_pos hraw] at h
        cases h
      · rw [if_neg hraw] at h
        cases h
        exact ⟨by simpa using hraw, rfl, rfl⟩
  | revoke name =>
    refine Or.inr ⟨name, rfl, ?_⟩
    simp only [Call.amend, revokeEntries] at h
    by_cases hlen : (ts.filter fun e => !(e.name == name)).length = ts.length
    · rw [if_pos hlen] at h
      cases h
    · rw [if_neg hlen] at h
      cases h
      exact ⟨rfl, rfl⟩

/-- A change of well-formed entries, under a safe name, is one again. -/
theorem amend_wellFormed (h : c.amend sha256 ts = .ok ch) (hsafe : isSafeName c.op.name = true)
    (hts : ∀ e ∈ ts, e.WellFormed) : ∀ e ∈ ch.tokens, e.WellFormed := by
  rcases amend_cases h with
    ⟨name, expiresAt, localOnly, replace, hop, -, htokens, -⟩ | ⟨name, -, htokens, -⟩
  · rw [hop] at hsafe
    rw [htokens]
    intro e he
    rcases List.mem_append.mp he with hold | hnew
    · exact hts e (List.mem_of_mem_eraseP hold)
    · rw [List.mem_singleton.mp hnew]
      exact ⟨isSafeName_ne_empty hsafe, hashToken_ne_empty _⟩
  · rw [htokens]
    intro e he
    exact hts e (List.mem_filter.mp he).1

/-- What a call that went through read, and what a reader finds after it. -/
theorem Commits.read {d d' : Dir} {r : Except TypeError Outcome} (h : Commits sha256 c d d' r) :
    ∃ ts ch, TokensFile.read d.tokens = .ok ts ∧ c.amend sha256 ts = .ok ch ∧
      r = .ok ch.outcome ∧ TokensFile.read d'.tokens = .ok ch.tokens := by
  obtain ⟨ts, ch, hread, hamend, hr, htokens⟩ := h.amends
  refine ⟨ts, ch, hread, hamend, hr, ?_⟩
  rw [htokens]
  exact TokensFile.read_document
    (amend_wellFormed hamend h.safe (TokensFile.wellFormed_of_read hread))

end Changes

end Logosctl.TokenStore
