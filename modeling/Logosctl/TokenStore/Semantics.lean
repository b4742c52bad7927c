/-
# What the token store authorizes

The store keeps a file; what it is for is a map from names to live tokens.  An issue that returns
`Ok` puts a grant under its name, a revocation that returns `Ok` takes it away, and nothing else
changes the map (`Event.writes`).  The file shows the map at every moment of a run: one entry for
each live name, with the hash of its token (`Models`), kept by every call and by every way a call
can fail (`Models.perform`).  A lookup then answers from the map, which for a history is the last
`Ok` operation on each name.
-/
import Mathlib.Data.List.Nodup
import Logosctl.Library.LastWrite
import Logosctl.TokenStore.Calls

namespace Logosctl.TokenStore

open Logosctl.Library

/-! ## 1. Grants and histories -/

/-- A live token and the limits it was issued with. -/
structure Grant where
  token : String
  expiresAt : String
  localOnly : Bool
  deriving DecidableEq, Repr

/-- The grant is good on the transport at the time. -/
def Grant.Admits (g : Grant) (transportProtocol : String) (now : Int) : Prop :=
  (g.expiresAt = "" ∨ ∃ t, Time.deadline g.expiresAt = some t ∧ now < t) ∧
    (g.localOnly = true → transportProtocol = "local")

/-- An issue for `n` that returned `Ok` with the token of the grant. -/
def Event.Issues (e : Event) (n : String) (g : Grant) : Prop :=
  (∃ replace, e.op = .issue n g.expiresAt g.localOnly replace) ∧
    e.result = .ok (.issued { status := .ok, token := g.token })

/-- A revocation of `n` that returned `Ok`. -/
def Event.Revokes (e : Event) (n : String) : Prop :=
  e.op = .revoke n ∧ e.result = .ok (.revoked .ok)

/-- An operation on `n` that returned `Ok`. -/
def Event.OkOn (e : Event) (n : String) : Prop := e.Revokes n ∨ ∃ g, e.Issues n g

/-- The most recent `Ok` operation on `n` was an issue of the grant. -/
def LastIssued (history : List Event) (n : String) (g : Grant) : Prop :=
  ∃ pre e post, history = pre ++ e :: post ∧ e.Issues n g ∧ ∀ x ∈ post, ¬x.OkOn n

/-- The token that an operation returned, when it is an issue that returned `Ok`. -/
def Event.token? (e : Event) : Option String :=
  match e.op, e.result with
  | .issue _ _ _ _, .ok (.issued ⟨.ok, token⟩) => some token
  | _, _ => none

/-- What an operation does to the cell of `n` in the map of live tokens. -/
def Event.writes (n : String) (e : Event) : Option (Option Grant) :=
  match e.op, e.result with
  | .issue name expiresAt localOnly _, .ok (.issued ⟨.ok, token⟩) =>
    if name = n then some (some ⟨token, expiresAt, localOnly⟩) else none
  | .revoke name, .ok (.revoked .ok) => if name = n then some none else none
  | _, _ => none

section Events

variable {e : Event} {n : String} {g : Grant}

theorem Event.Issues.token?_eq (h : e.Issues n g) : e.token? = some g.token := by
  obtain ⟨op, result⟩ := e
  obtain ⟨⟨replace, hop⟩, hresult⟩ := h
  simp only at hop hresult
  subst hop hresult
  rfl

theorem Event.writes_eq_issue_iff : e.writes n = some (some g) ↔ e.Issues n g := by
  obtain ⟨op, result⟩ := e
  constructor
  · intro h
    unfold Event.writes at h
    split at h
    · rename_i hop hresult
      simp only at hop hresult
      subst hop hresult
      split at h
      · rename_i hname
        cases h
        subst hname
        exact ⟨⟨_, rfl⟩, rfl⟩
      · cases h
    · split at h <;> cases h
    · cases h
  · rintro ⟨⟨replace, hop⟩, hresult⟩
    simp only at hop hresult
    subst hop hresult
    simp [Event.writes]

theorem Event.writes_eq_revoke_iff : e.writes n = some none ↔ e.Revokes n := by
  obtain ⟨op, result⟩ := e
  constructor
  · intro h
    unfold Event.writes at h
    split at h
    · split at h <;> cases h
    · rename_i hop hresult
      simp only at hop hresult
      subst hop hresult
      split at h
      · rename_i hname
        subst hname
        exact ⟨rfl, rfl⟩
      · cases h
    · cases h
  · rintro ⟨hop, hresult⟩
    simp only at hop hresult
    subst hop hresult
    simp [Event.writes]

theorem Event.writes_eq_none_iff : e.writes n = none ↔ ¬e.OkOn n := by
  cases hw : e.writes n with
  | none =>
    refine iff_of_true rfl ?_
    rintro (hr | ⟨g, hi⟩)
    · rw [Event.writes_eq_revoke_iff.mpr hr] at hw
      cases hw
    · rw [Event.writes_eq_issue_iff.mpr hi] at hw
      cases hw
  | some x =>
    refine iff_of_false (by simp) (not_not.mpr ?_)
    cases x with
    | none => exact Or.inl (Event.writes_eq_revoke_iff.mp hw)
    | some g => exact Or.inr ⟨g, Event.writes_eq_issue_iff.mp hw⟩

end Events

/-- The live tokens after a history that began with the map `m`. -/
def liveAfter (m : String → Option Grant) (history : List Event) (n : String) : Option Grant :=
  lastWrite (Event.writes n) (m n) history

/-- **The map of live tokens is read off the history:** the most recent `Ok` operation on a name
decides. -/
theorem liveAfter_none_eq_some_iff {history : List Event} {n : String} {g : Grant} :
    liveAfter (fun _ => none) history n = some g ↔ LastIssued history n g := by
  unfold liveAfter LastIssued
  rw [lastWrite_eq_iff, or_iff_left (by simp)]
  simp only [Event.writes_eq_issue_iff, Event.writes_eq_none_iff]

/-! ## 2. The file shows the map -/

section Models

variable {sha256 : String → Vector UInt8 32}

/-- The entry stands for the grant. -/
def TokenEntry.Shows (sha256 : String → Vector UInt8 32) (e : TokenEntry) (g : Grant) : Prop :=
  e.hash = hashToken sha256 g.token ∧ e.expiresAt = g.expiresAt ∧ e.localOnly = g.localOnly

/-- The entries are those of the map: one for each live name. -/
structure Lists (sha256 : String → Vector UInt8 32) (ts : List TokenEntry)
    (m : String → Option Grant) : Prop where
  nodup : (ts.map TokenEntry.name).Nodup
  grants : ∀ e ∈ ts, ∃ g, m e.name = some g ∧ e.Shows sha256 g
  entries : ∀ n g, m n = some g → ∃ e ∈ ts, e.name = n ∧ e.Shows sha256 g

/-- The file reads as a list of the map. -/
def Models (sha256 : String → Vector UInt8 32) (file : FileContent) (m : String → Option Grant) :
    Prop :=
  ∃ ts, TokensFile.read file = .ok ts ∧ Lists sha256 ts m

/-- With one entry for a name, dropping the first of the name drops them all. -/
theorem eraseP_eq_filter {ts : List TokenEntry} (h : (ts.map TokenEntry.name).Nodup)
    (name : String) :
    ts.eraseP (fun e => e.name == name) = ts.filter fun e => !(e.name == name) := by
  induction ts with
  | nil => rfl
  | cons e ts ih =>
    rw [List.map_cons, List.nodup_cons] at h
    obtain ⟨hnew, hts⟩ := h
    by_cases he : e.name = name
    · rw [List.eraseP_cons_of_pos (by simpa using he), List.filter_cons_of_neg (by simpa using he)]
      refine (List.filter_eq_self.mpr ?_).symm
      intro x hx
      have hne : x.name ≠ name := by
        intro hname
        exact hnew (List.mem_map.mpr ⟨x, hx, hname.trans he.symm⟩)
      simpa using hne
    · rw [List.eraseP_cons_of_neg (by simpa using he), List.filter_cons_of_pos (by simpa using he),
        ih hts]

theorem Lists.revoke {ts : List TokenEntry} {m m' : String → Option Grant} {name : String}
    (h : Lists sha256 ts m) (hname : m' name = none) (hother : ∀ n, n ≠ name → m' n = m n) :
    Lists sha256 (ts.filter fun e => !(e.name == name)) m' := by
  refine ⟨h.nodup.sublist (List.filter_sublist.map _), ?_, ?_⟩
  · intro e he
    obtain ⟨hmem, hne⟩ := List.mem_filter.mp he
    rw [hother e.name (by simpa using hne)]
    exact h.grants e hmem
  · intro n g hg
    have hne : n ≠ name := by
      rintro rfl
      rw [hname] at hg
      cases hg
    rw [hother n hne] at hg
    obtain ⟨e, he, rfl, hshows⟩ := h.entries n g hg
    exact ⟨e, List.mem_filter.mpr ⟨he, by simpa using hne⟩, rfl, hshows⟩

theorem Lists.issue {ts : List TokenEntry} {m m' : String → Option Grant} {e : TokenEntry}
    {g : Grant} (h : Lists sha256 ts m) (hname : m' e.name = some g)
    (hother : ∀ n, n ≠ e.name → m' n = m n) (hshows : e.Shows sha256 g) :
    Lists sha256 (ts.eraseP (fun x => x.name == e.name) ++ [e]) m' := by
  rw [eraseP_eq_filter h.nodup]
  refine ⟨?_, ?_, ?_⟩
  · rw [List.map_append, List.nodup_append]
    refine ⟨h.nodup.sublist (List.filter_sublist.map _), by simp, ?_⟩
    intro a ha b hb
    obtain ⟨x, hx, rfl⟩ := List.mem_map.mp ha
    rw [List.map_singleton, List.mem_singleton] at hb
    subst hb
    simpa using (List.mem_filter.mp hx).2
  · intro x hx
    rcases List.mem_append.mp hx with hold | hnew
    · obtain ⟨hmem, hne⟩ := List.mem_filter.mp hold
      rw [hother x.name (by simpa using hne)]
      exact h.grants x hmem
    · rw [List.mem_singleton.mp hnew]
      exact ⟨g, hname, hshows⟩
  · intro n g' hg'
    by_cases hn : n = e.name
    · subst hn
      rw [hname] at hg'
      cases hg'
      exact ⟨e, by simp, rfl, hshows⟩
    · rw [hother n hn] at hg'
      obtain ⟨x, hx, rfl, hshows'⟩ := h.entries n g' hg'
      refine ⟨x, List.mem_append_left _ (List.mem_filter.mpr ⟨hx, by simpa using hn⟩), rfl,
        hshows'⟩

theorem models_missing : Models sha256 .missing fun _ => none := by
  refine ⟨[], rfl, by simp, by simp, ?_⟩
  intro n g hg
  cases hg

/-- A call that did not return `Ok` is not an operation of the history. -/
theorem not_okOn_of_refuses {op : Op} {d d' : Dir} {r : Except TypeError Outcome}
    (h : Refuses d d' r) (n : String) : ¬Event.OkOn ⟨op, r⟩ n := by
  rintro (⟨-, hres⟩ | ⟨g, -, hres⟩)
  · exact h.2 _ hres rfl
  · exact h.2 _ hres rfl

/-- **One call keeps the file in step with the map**, whichever way it ends. -/
theorem Models.perform {c : Call} {d d' : Dir} {r : Except TypeError Outcome}
    {m : String → Option Grant} (hm : Models sha256 d.tokens m)
    (h : (c.perform sha256).exec d = (r, d')) :
    Models sha256 d'.tokens fun n => liveAfter m [⟨c.op, r⟩] n := by
  obtain ⟨ts, hts, hlists⟩ := hm
  rcases perform_cases h with hrefuses | hcommits
  · refine ⟨ts, hrefuses.1 ▸ hts, ?_⟩
    have hsame : (fun n => liveAfter m [⟨c.op, r⟩] n) = m := by
      funext n
      refine lastWrite_of_none ?_
      intro e he
      rw [List.mem_singleton.mp he]
      exact Event.writes_eq_none_iff.mpr (not_okOn_of_refuses hrefuses n)
    rw [hsame]
    exact hlists
  · obtain ⟨ts', ch, hread, hamend, rfl, hread'⟩ := hcommits.read
    rw [hts] at hread
    obtain rfl := Except.ok.inj hread
    refine ⟨ch.tokens, hread', ?_⟩
    rcases amend_cases hamend with
      ⟨name, expiresAt, localOnly, replace, hop, -, htokens, hraw⟩ | ⟨name, hop, htokens, hraw⟩
    · have hwrites : ∀ n, liveAfter m [⟨c.op, .ok ch.outcome⟩] n =
          if name = n then some ⟨generateToken c.io.random, expiresAt, localOnly⟩ else m n := by
        intro n
        simp only [liveAfter, lastWrite_cons, lastWrite_nil, Event.writes, hop, Change.outcome,
          hraw]
        split <;> rfl
      rw [htokens]
      refine Lists.issue (e := issuedEntry sha256 c.io name expiresAt localOnly) hlists
        ((hwrites name).trans (if_pos rfl)) ?_ ⟨rfl, rfl, rfl⟩
      intro n hn
      exact (hwrites n).trans (if_neg (Ne.symm hn))
    · have hwrites : ∀ n, liveAfter m [⟨c.op, .ok ch.outcome⟩] n =
          if name = n then none else m n := by
        intro n
        simp only [liveAfter, lastWrite_cons, lastWrite_nil, Event.writes, hop, Change.outcome,
          hraw]
        split <;> rfl
      rw [htokens]
      refine hlists.revoke ((hwrites name).trans (if_pos rfl)) ?_
      intro n hn
      exact (hwrites n).trans (if_neg (Ne.symm hn))

/-- **A run keeps the file in step with the map.** -/
theorem Models.run {calls : List Call} {d d' : Dir} {history : List Event}
    {m : String → Option Grant} (hm : Models sha256 d.tokens m)
    (h : run sha256 calls d = (history, d')) :
    Models sha256 d'.tokens (liveAfter m history) := by
  induction calls generalizing d m history with
  | nil =>
    cases h
    exact hm
  | cons c cs ih =>
    cases hc : (c.perform sha256).exec d with
    | mk r t =>
      cases hcs : TokenStore.run sha256 cs t with
      | mk rest u =>
        simp only [TokenStore.run, hc, hcs] at h
        cases h
        have hrest := ih (hm.perform hc) hcs
        exact hrest

/-! ## 3. Lookups answer from the map -/

/-- When one entry at most has the hash, the loop answers from it. -/
theorem lookupHash_eq_some_iff {h tr n : String} {now : Int} {ts : List TokenEntry}
    (huniq : ∀ e ∈ ts, ∀ e' ∈ ts, e.hash = h → e'.hash = h → e = e') :
    lookupHash h tr now ts = some n ↔
      ∃ e ∈ ts, e.hash = h ∧ e.name = n ∧ Time.isExpired now e.expiresAt = false ∧
        (e.localOnly = true → tr = "local") := by
  induction ts with
  | nil => simp [lookupHash]
  | cons e ts ih =>
    unfold lookupHash
    by_cases hh : e.hash = h
    · rw [if_neg (not_not.mpr hh)]
      have honly : ∀ x ∈ e :: ts, x.hash = h → x = e := fun x hx hxh =>
        huniq x hx e (by simp) hxh hh
      constructor
      · intro hres
        split at hres
        · cases hres
        · split at hres
          · cases hres
          · rename_i hlive hlocal
            refine ⟨e, by simp, hh, Option.some.inj hres, by simpa using hlive, ?_⟩
            intro hl
            simpa [hl] using hlocal
      · rintro ⟨x, hx, hxh, hn, hlive, hlocal⟩
        obtain rfl := honly x hx hxh
        rw [if_neg (by simp [hlive]), if_neg, hn]
        simpa using hlocal
    · rw [if_pos hh, ih fun x hx y hy => huniq x (by simp [hx]) y (by simp [hy])]
      simp [hh]

/-- The loop answers a name of the list. -/
theorem exists_mem_of_lookupHash {h tr n : String} {now : Int} {ts : List TokenEntry}
    (hres : lookupHash h tr now ts = some n) : ∃ e ∈ ts, e.name = n := by
  induction ts with
  | nil => cases hres
  | cons e ts ih =>
    unfold lookupHash at hres
    split at hres
    · obtain ⟨x, hx, hname⟩ := ih hres
      exact ⟨x, by simp [hx], hname⟩
    · split at hres
      · cases hres
      · split at hres
        · cases hres
        · exact ⟨e, by simp, Option.some.inj hres⟩

/-- **A lookup answers from the map**, when the hashes of the live tokens tell them apart. -/
theorem Models.lookup_eq_some_iff {file : FileContent} {m : String → Option Grant}
    {tok tr n : String} {now : Int} (hm : Models sha256 file m)
    (huniq : ∀ n g n' g', m n = some g → m n' = some g' →
      hashToken sha256 g.token = hashToken sha256 g'.token → n = n')
    (htok : ∀ n g, m n = some g → hashToken sha256 g.token = hashToken sha256 tok → g.token = tok) :
    lookupByToken sha256 file tok tr now = .ok (some n) ↔
      tok ≠ "" ∧ ∃ g, m n = some g ∧ g.token = tok ∧ g.Admits tr now := by
  obtain ⟨ts, hts, hlists⟩ := hm
  unfold lookupByToken
  by_cases hempty : tok = ""
  · rw [if_pos (by simpa using hempty)]
    refine iff_of_false (by rintro ⟨⟩) ?_
    rintro ⟨hne, -⟩
    exact hne hempty
  · rw [if_neg (by simpa using hempty), and_iff_right hempty, hts]
    have hentries : ∀ e ∈ ts, ∀ e' ∈ ts, e.hash = hashToken sha256 tok →
        e'.hash = hashToken sha256 tok → e = e' := by
      intro e he e' he' hh hh'
      obtain ⟨g, hg, hshows⟩ := hlists.grants e he
      obtain ⟨g', hg', hshows'⟩ := hlists.grants e' he'
      have hname := huniq e.name g e'.name g' hg hg'
        (by rw [← hshows.1, ← hshows'.1, hh, hh'])
      exact List.inj_on_of_nodup_map hlists.nodup he he' hname
    have hlookup : ((Except.ok ts >>= fun ts => pure (lookupHash (hashToken sha256 tok) tr now ts)
        : Except TypeError (Option String)) = .ok (some n)) ↔
        lookupHash (hashToken sha256 tok) tr now ts = some n := by
      simp [bind, Except.bind, pure, Except.pure]
    rw [hlookup, lookupHash_eq_some_iff hentries]
    constructor
    · rintro ⟨e, he, hh, rfl, hlive, hlocal⟩
      obtain ⟨g, hg, hhash, hexp, hlo⟩ := hlists.grants e he
      refine ⟨g, hg, htok _ g hg (by rw [← hhash, hh]), ?_, ?_⟩
      · rw [← hexp]
        exact Time.isExpired_eq_false_iff.mp hlive
      · rw [← hlo]
        exact hlocal
    · rintro ⟨g, hg, rfl, hexp, hlocal⟩
      obtain ⟨e, he, hname, hhash, hexp', hlo⟩ := hlists.entries n g hg
      refine ⟨e, he, hhash, hname, ?_, ?_⟩
      · rw [hexp']
        exact Time.isExpired_eq_false_iff.mpr hexp
      · rw [hlo]
        exact hlocal

end Models

/-! ## 4. Authorization over a run -/

section Authorization

variable {sha256 : String → Vector UInt8 32} {history : List Event}

/-- The tokens that the issues of a history returned. -/
def issuedTokens (history : List Event) : List String := history.filterMap Event.token?

theorem mem_issuedTokens {t : String} :
    t ∈ issuedTokens history ↔ ∃ e ∈ history, e.token? = some t :=
  List.mem_filterMap

theorem issuedTokens_append (history history' : List Event) :
    issuedTokens (history ++ history') = issuedTokens history ++ issuedTokens history' :=
  List.filterMap_append

/-- **A token tells where in the history it was issued**, when the issues returned distinct
tokens. -/
theorem issue_position_unique (hfresh : (issuedTokens history).Nodup) {pre post pre' post' : List Event}
    {e e' : Event} {t : String} (h : history = pre ++ e :: post)
    (h' : history = pre' ++ e' :: post') (ht : e.token? = some t) (ht' : e'.token? = some t) :
    pre = pre' ∧ e = e' ∧ post = post' := by
  -- the token is not issued before the place where it is issued
  have habsent : ∀ {l l' : List Event} {x : Event}, history = l ++ x :: l' → x.token? = some t →
      t ∉ issuedTokens l := by
    intro l l' x hl hx hmem
    rw [hl, issuedTokens_append, List.nodup_append] at hfresh
    exact hfresh.2.2 t hmem t (mem_issuedTokens.mpr ⟨x, by simp, hx⟩) rfl
  rcases List.append_eq_append_iff.mp (h.symm.trans h') with ⟨l, hpre, hrest⟩ | ⟨l, hpre, hrest⟩
  · cases l with
    | nil =>
      obtain ⟨he, hpost⟩ := List.cons.inj hrest
      exact ⟨by rw [hpre, List.append_nil], he, hpost⟩
    | cons x l =>
      obtain ⟨rfl, -⟩ := List.cons.inj hrest
      exact absurd (mem_issuedTokens.mpr ⟨e, by rw [hpre]; simp, ht⟩) (habsent h' ht')
  · cases l with
    | nil =>
      obtain ⟨he, hpost⟩ := List.cons.inj hrest
      exact ⟨by rw [hpre, List.append_nil], he.symm, hpost.symm⟩
    | cons x l =>
      obtain ⟨rfl, -⟩ := List.cons.inj hrest
      exact absurd (mem_issuedTokens.mpr ⟨e', by rw [hpre]; simp, ht'⟩) (habsent h ht)

/-- A token tells which event issued it. -/
theorem event_eq_of_token? (hfresh : (issuedTokens history).Nodup) {e e' : Event} {t : String}
    (he : e ∈ history) (he' : e' ∈ history) (ht : e.token? = some t) (ht' : e'.token? = some t) :
    e = e' := by
  obtain ⟨pre, post, h⟩ := List.append_of_mem he
  obtain ⟨pre', post', h'⟩ := List.append_of_mem he'
  exact (issue_position_unique hfresh h h' ht ht').2.1

/-- An event issues one grant, under one name. -/
theorem Event.Issues.unique {e : Event} {n n' : String} {g g' : Grant} (h : e.Issues n g)
    (h' : e.Issues n' g') : n = n' ∧ g = g' := by
  obtain ⟨⟨replace, hop⟩, hres⟩ := h
  obtain ⟨⟨replace', hop'⟩, hres'⟩ := h'
  rw [hop] at hop'
  rw [hres] at hres'
  obtain ⟨token, expiresAt, localOnly⟩ := g
  obtain ⟨token', expiresAt', localOnly'⟩ := g'
  simp only [Op.issue.injEq, Except.ok.injEq, Outcome.issued.injEq, IssueResult.mk.injEq,
    true_and] at hop' hres'
  obtain ⟨rfl, rfl, rfl, -⟩ := hop'
  exact ⟨rfl, by rw [hres']⟩

theorem LastIssued.exists_mem {n : String} {g : Grant} (h : LastIssued history n g) :
    ∃ e ∈ history, e.Issues n g := by
  obtain ⟨pre, e, post, rfl, he, -⟩ := h
  exact ⟨e, by simp, he⟩

/-- The hash tells the tokens of the history, and the one presented, apart. -/
def Distinguishes (sha256 : String → Vector UInt8 32) (history : List Event) (tok : String) :
    Prop :=
  ∀ a ∈ tok :: issuedTokens history, ∀ b ∈ tok :: issuedTokens history,
    hashToken sha256 a = hashToken sha256 b → a = b

/-- What a run from no file leaves accepted: exactly the grants issued last under their names. -/
theorem accepted_iff_of_run {calls : List Call} {d d' : Dir} {tok tr n : String} {now : Int}
    (hstart : d.tokens = .missing) (hrun : run sha256 calls d = (history, d'))
    (hfresh : (issuedTokens history).Nodup) (hinj : Distinguishes sha256 history tok) :
    lookupByToken sha256 d'.tokens tok tr now = .ok (some n) ↔
      tok ≠ "" ∧ ∃ g, LastIssued history n g ∧ g.token = tok ∧ g.Admits tr now := by
  have hm : Models sha256 d.tokens fun _ => none := by
    rw [hstart]
    exact models_missing
  have hmem : ∀ n g, liveAfter (fun _ => none) history n = some g →
      ∃ e ∈ history, e.Issues n g := by
    intro n g hg
    exact (liveAfter_none_eq_some_iff.mp hg).exists_mem
  have hissued : ∀ n g, liveAfter (fun _ => none) history n = some g →
      g.token ∈ tok :: issuedTokens history := by
    intro n g hg
    obtain ⟨e, he, hissues⟩ := hmem n g hg
    exact List.mem_cons_of_mem _ (mem_issuedTokens.mpr ⟨e, he, hissues.token?_eq⟩)
  rw [(hm.run hrun).lookup_eq_some_iff]
  · simp only [liveAfter_none_eq_some_iff]
  · intro n g n' g' hg hg' hhash
    obtain ⟨e, he, hissues⟩ := hmem n g hg
    obtain ⟨e', he', hissues'⟩ := hmem n' g' hg'
    have htoken := hinj _ (hissued n g hg) _ (hissued n' g' hg') hhash
    have heq := event_eq_of_token? hfresh he he' hissues.token?_eq
      (hissues'.token?_eq.trans (congrArg some htoken.symm))
    subst heq
    exact (hissues.unique hissues').1
  · intro n g hg hhash
    exact hinj _ (hissued n g hg) _ (by simp) hhash

/-- **Token authorization.**  After any run of the store that began without a file, a lookup
answers `n` exactly when the token presented is not empty, the most recent `Ok` operation on `n`
was an issue that returned it, and that issue's expiry and locality admit the call. -/
theorem lookupByToken_eq_some_iff {calls : List Call} {d d' : Dir} {tok tr n : String} {now : Int}
    (hstart : d.tokens = .missing) (hrun : run sha256 calls d = (history, d'))
    (hfresh : (issuedTokens history).Nodup)
    (hinj : ∀ a ∈ tok :: issuedTokens history, ∀ b ∈ tok :: issuedTokens history,
      hashToken sha256 a = hashToken sha256 b → a = b) :
    lookupByToken sha256 d'.tokens tok tr now = .ok (some n) ↔
      tok ≠ "" ∧ ∃ pre e post expiresAt localOnly replace,
        history = pre ++ e :: post ∧ e.op = .issue n expiresAt localOnly replace ∧
        e.result = .ok (.issued { status := .ok, token := tok }) ∧
        (∀ x ∈ post, ¬x.OkOn n) ∧
        (expiresAt = "" ∨ ∃ t, Time.deadline expiresAt = some t ∧ now < t) ∧
        (localOnly = true → tr = "local") := by
  rw [accepted_iff_of_run hstart hrun hfresh hinj]
  refine and_congr_right fun _ => ?_
  constructor
  · rintro ⟨g, ⟨pre, e, post, hsplit, ⟨⟨replace, hop⟩, hres⟩, hpost⟩, rfl, hexp, hlocal⟩
    exact ⟨pre, e, post, g.expiresAt, g.localOnly, replace, hsplit, hop, hres, hpost, hexp, hlocal⟩
  · rintro ⟨pre, e, post, expiresAt, localOnly, replace, hsplit, hop, hres, hpost, hexp, hlocal⟩
    exact ⟨⟨tok, expiresAt, localOnly⟩, ⟨pre, e, post, hsplit, ⟨⟨replace, hop⟩, hres⟩, hpost⟩,
      rfl, hexp, hlocal⟩

/-- What 32 zero bytes, and what 32 bytes of ones, are encoded as. -/
def zerosToken : String := "AAAAAAAAAAAAAAAAAAAAAAAAAAAAAAAAAAAAAAAAAAA"

def onesToken : String := "__________________________________________8"

/-- SHA-256 on the two tokens of the run below. -/
def sampleSha256 (token : String) : Vector UInt8 32 :=
  if token = zerosToken then
    #v[15, 0, 115, 133, 182, 249, 212, 183, 238, 178, 116, 134, 5, 175, 225, 169, 132, 160, 163,
      191, 163, 240, 20, 208, 158, 42, 120, 76, 233, 229, 205, 26]
  else if token = onesToken then
    #v[34, 95, 126, 117, 50, 157, 212, 90, 163, 84, 151, 93, 115, 152, 115, 25, 48, 147, 147, 175,
      58, 76, 103, 51, 188, 19, 96, 26, 79, 27, 135, 150]
  else Vector.replicate 32 0

/-- System calls that all go well, with the random generator answering `byte` throughout. -/
def goodIo (byte : UInt8) : Io :=
  ⟨some (Vector.replicate 32 byte), "2026-01-01T00:00:00Z", .written, true, true, true, true, true⟩

/-- A directory in which nothing was issued yet. -/
def emptyDir : Dir := ⟨.missing, fun _ => none, fun _ => none⟩

/-- Issue a token for `alice`, then replace it by one that expires and is local only. -/
def replaceRun : List Call :=
  [⟨.issue "alice" "" false false, goodIo 0⟩,
    ⟨.issue "alice" "2030-01-01T00:00:00Z" true true, goodIo 255⟩]

/-- The replacement is accepted over the local socket until it expires. -/
theorem replacement_accepted :
    lookupByToken sampleSha256 (run sampleSha256 replaceRun emptyDir).2.tokens
      onesToken "local" 1893455999 = .ok (some "alice") :=
  (lookupByToken_eq_some_iff (d := emptyDir) rfl rfl (by decide +kernel) (by decide +kernel)).mpr
    ⟨by decide, [_], _, [], "2030-01-01T00:00:00Z", true, true, rfl, rfl, rfl, by simp,
      Or.inr ⟨1893456000, by decide +kernel, by decide⟩, fun _ => rfl⟩

end Authorization

end Logosctl.TokenStore
