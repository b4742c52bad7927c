/-
# Token operations under I/O faults

A call of the store is to be atomic when it fails and framed when it succeeds: without `Ok` nothing
that a reader sees has changed, with `Ok` nothing of another name has, and in no case is a place
touched that is not the call's own (`Contract`).  The states are those that earlier calls leave,
whatever went wrong in them (`Kept`).

The contract holds but for one schedule (`Forgets`).  When the open of `tokens.json` for the list
fails, the list that an issue amends is empty; if then everything else goes well, the list that it
publishes is its own entry alone, and every other name is gone from the store
(`alice_forgotten`).
-/
import Mathlib.Data.List.Nodup
import Logosctl.TokenStore.OnDisk

namespace Logosctl.TokenStore.OnDisk

open Logosctl.Library

/-! ## 1. The contract -/

section Contract

variable (sha256 : String → Vector UInt8 32) (daemonDir : String)

/-- The entries of a name, as a reader of `tokens.json` finds them. -/
def entriesOf (d : Disk) (m : String) : Except TypeError (List TokenEntry) :=
  (TokensFile.read (d.content daemonDir true)).map (List.filter fun e => e.name == m)

/-- `lookupByToken` on the disk. -/
def lookup (d : Disk) (token transportProtocol : String) (now : Int) :
    Except TypeError (Option String) :=
  lookupByToken sha256 (d.content daemonDir true) token transportProtocol now

/-- Nothing has happened: the list, every `<name>.json` of the tokens directory and every lookup are
as before. -/
structure Unchanged (d d' : Disk) : Prop where
  tokens : d'.files.find (tokensPlace daemonDir) = d.files.find (tokensPlace daemonDir)
  raws : ∀ m, '/' ∉ m.toList →
    d'.files.find (rawPlace daemonDir m) = d.files.find (rawPlace daemonDir m)
  lookups : ∀ token tr now, lookup sha256 daemonDir d' token tr now =
    lookup sha256 daemonDir d token tr now

/-- Nothing has happened to any name but `n`. -/
structure FramedBy (n : String) (d d' : Disk) : Prop where
  entries : ∀ m, m ≠ n → entriesOf daemonDir d' m = entriesOf daemonDir d m
  raws : ∀ m, m ≠ n → '/' ∉ m.toList →
    d'.files.find (rawPlace daemonDir m) = d.files.find (rawPlace daemonDir m)
  lookups : ∀ m, m ≠ n → ∀ token tr now,
    lookup sha256 daemonDir d' token tr now = .ok (some m) ↔
      lookup sha256 daemonDir d token tr now = .ok (some m)

/-- A place of the call's own: the raw-token file of `n` or its side file, in the tokens directory,
or `tokens.json` or its temp, next to it. -/
def Own (n : String) (p : Place) : Prop :=
  ((p = rawPlace daemonDir n ∨ p = sidePlace daemonDir n) ∧
      ∃ file, p = resolve (daemonTokensDir daemonDir) ++ [file]) ∨
    ((p = tokensPlace daemonDir ∨ p = tmpPlace daemonDir) ∧
      ∃ file, p = resolve daemonDir ++ [file])

/-- Every place written, renamed or removed is the call's own; what was not is as before. -/
def Confined (n : String) (d d' : Disk) : Prop :=
  ∃ log, d'.touched = d.touched ++ log ∧ (∀ p ∈ log, Own daemonDir n p) ∧
    ∀ p, p ∉ log → d'.files.find p = d.files.find p

/-- The answer is `Ok`. -/
def AnswersOk (r : Except TypeError Outcome) : Prop := ∃ o, r = .ok o ∧ o.Ok

/-- **Atomic on failure, framed on success**, and confined either way. -/
def Contract (c : DiskCall) (d : Disk) : Prop :=
  ∀ r d', (c.perform sha256 daemonDir).exec d = (r, d') →
    (¬AnswersOk r → Unchanged sha256 daemonDir d d') ∧
      (AnswersOk r → FramedBy sha256 daemonDir c.op.name d d') ∧
      Confined daemonDir c.op.name d d'

/-- The call is an issue whose open of `tokens.json` for the list fails, whose other system calls go
well, and there is an entry of another name. -/
def Forgets (c : DiskCall) (d : Disk) : Prop :=
  (∃ n expiresAt localOnly replace, c.op = .issue n expiresAt localOnly replace) ∧
    isSafeName c.op.name = true ∧ c.io.listOpens = false ∧ generateToken c.io.random ≠ "" ∧
    c.io.stages = true ∧ c.io.commits = true ∧
    ∃ m, m ≠ c.op.name ∧ entriesOf daemonDir d m ≠ .ok []

end Contract

/-! ## 2. The states that calls leave -/

section Kept

variable {sha256 : String → Vector UInt8 32} {daemonDir : String} {d d' : Disk}
  {history : List Event}

/-- What every call keeps: `tokens.json` is the document of a list of proper entries, with the
hashes of tokens that the issues of the history returned, each once. -/
structure Kept (sha256 : String → Vector UInt8 32) (daemonDir : String) (history : List Event)
    (d : Disk) (ts : List TokenEntry) : Prop where
  listing : d.Listing daemonDir ts
  wellFormed : ∀ e ∈ ts, e.WellFormed
  hashes : (ts.map TokenEntry.hash).Sublist ((issuedTokens history).map (hashToken sha256))

variable (sha256) in
theorem kept_of_missing (h : d.files.read (tokensPlace daemonDir) = none) :
    Kept sha256 daemonDir [] d [] :=
  ⟨Or.inl ⟨h, rfl⟩, by simp, List.nil_sublist _⟩

/-- A call that leaves `tokens.json` alone keeps the list. -/
theorem Kept.of_touches {ts : List TokenEntry} (h : Kept sha256 daemonDir history d ts)
    {ps : List Place} (htouches : Disk.Touches ps d d') (hps : tokensPlace daemonDir ∉ ps)
    (e : Event) : Kept sha256 daemonDir (history ++ [e]) d' ts := by
  refine ⟨?_, h.wellFormed, ?_⟩
  · unfold Disk.Listing
    rw [htouches.read hps]
    exact h.listing
  · rw [issuedTokens_append, List.map_append]
    exact h.hashes.trans (List.sublist_append_left ..)

/-- What a call amends: the list, or nothing when the open fails. -/
theorem seen_sublist (opens : Bool) (ts : List TokenEntry) :
    (if opens then ts else []).Sublist ts := by
  cases opens with
  | false => exact List.nil_sublist ts
  | true => exact List.Sublist.refl ts

/-- The hashes of an amended list are old ones and that of the token which the call returns. -/
theorem hashes_amend {c : Call} {seen : List TokenEntry} {ch : Change} {hs : List String}
    (h : c.amend sha256 seen = .ok ch) (hseen : (seen.map TokenEntry.hash).Sublist hs) :
    (ch.tokens.map TokenEntry.hash).Sublist
      (hs ++ (issuedTokens [⟨c.op, .ok ch.outcome⟩]).map (hashToken sha256)) := by
  rcases amend_cases h with
    ⟨name, expiresAt, localOnly, replace, hop, -, htokens, hraw⟩ | ⟨name, hop, htokens, hraw⟩
  · have htoken : issuedTokens [⟨c.op, .ok ch.outcome⟩] = [generateToken c.io.random] := by
      simp only [issuedTokens, hop, Change.outcome, hraw]
      rfl
    rw [htoken, htokens, List.map_append]
    exact ((List.eraseP_sublist.map _).trans hseen).append (List.Sublist.refl _)
  · rw [htokens]
    exact ((List.filter_sublist.map _).trans hseen).trans (List.sublist_append_left ..)

/-- **One call leaves such a state again**, whatever fails in it. -/
theorem Kept.perform {c : DiskCall} {ts : List TokenEntry} {r : Except TypeError Outcome}
    (h : Kept sha256 daemonDir history d ts)
    (hexec : (c.perform sha256 daemonDir).exec d = (r, d')) :
    ∃ ts', Kept sha256 daemonDir (history ++ [⟨c.op, r⟩]) d' ts' := by
  by_cases hsafe : isSafeName c.op.name = true
  · rcases perform_cases sha256 hsafe h.listing h.wellFormed with
      ⟨o, -, hrun⟩ | ⟨ch, u, hamend, -, hrun, hpublished⟩ | ⟨ch, u, -, -, hrun, htouches⟩
    · rw [hrun] at hexec
      cases hexec
      exact ⟨ts, h.of_touches (Disk.Touches.refl [] d) (by simp) _⟩
    · rw [hrun] at hexec
      cases hexec
      have hseen := seen_sublist c.io.listOpens ts
      refine ⟨ch.tokens, Or.inr hpublished.tokens, ?_, ?_⟩
      · exact amend_wellFormed hamend hsafe fun e he => h.wellFormed e (hseen.subset he)
      · rw [issuedTokens_append, List.map_append]
        exact hashes_amend hamend ((hseen.map _).trans h.hashes)
    · rw [hrun] at hexec
      cases hexec
      exact ⟨ts, h.of_touches htouches (tokensPlace_not_mem_asidePlaces hsafe) _⟩
  · rw [perform_invalidName (by simpa using hsafe)] at hexec
    cases hexec
    exact ⟨ts, h.of_touches (Disk.Touches.refl [] d) (by simp) _⟩

/-- **Every run leaves such a state**, whatever fails in it. -/
theorem Kept.run {calls : List DiskCall} {ts : List TokenEntry} {events : List Event}
    (h : Kept sha256 daemonDir history d ts)
    (hrun : run sha256 daemonDir calls d = (events, d')) :
    ∃ ts', Kept sha256 daemonDir (history ++ events) d' ts' := by
  induction calls generalizing d history ts events with
  | nil =>
    cases hrun
    exact ⟨ts, by rw [List.append_nil]; exact h⟩
  | cons c cs ih =>
    cases hc : (c.perform sha256 daemonDir).exec d with
    | mk r u =>
      cases hcs : OnDisk.run sha256 daemonDir cs u with
      | mk rest v =>
        simp only [OnDisk.run, hc, hcs] at hrun
        cases hrun
        obtain ⟨ts', hkept⟩ := h.perform hc
        obtain ⟨ts'', hend⟩ := ih hkept hcs
        rw [List.append_assoc] at hend
        exact ⟨ts'', hend⟩

end Kept

/-! ## 3. What a change leaves of the other names -/

section Others

variable {sha256 : String → Vector UInt8 32} {ts ts' : List TokenEntry} {m n : String}

/-- Lists with the same entries of `m`, and no two of one hash, answer `m` to the same lookups. -/
theorem lookupHash_congr (huniq : (ts.map TokenEntry.hash).Nodup)
    (huniq' : (ts'.map TokenEntry.hash).Nodup)
    (h : (ts'.filter fun e => e.name == m) = ts.filter fun e => e.name == m)
    (hash tr : String) (now : Int) :
    lookupHash hash tr now ts' = some m ↔ lookupHash hash tr now ts = some m := by
  have hmem : ∀ e : TokenEntry, e.name = m → (e ∈ ts' ↔ e ∈ ts) := by
    intro e he
    have hfilter := congrArg (e ∈ ·) h
    simpa [List.mem_filter, he] using hfilter
  rw [lookupHash_eq_some_iff, lookupHash_eq_some_iff]
  · constructor
    · rintro ⟨e, he, hhash, hname, hlive⟩
      exact ⟨e, (hmem e hname).mp he, hhash, hname, hlive⟩
    · rintro ⟨e, he, hhash, hname, hlive⟩
      exact ⟨e, (hmem e hname).mpr he, hhash, hname, hlive⟩
  · intro e he e' he' hhash hhash'
    exact List.inj_on_of_nodup_map huniq he he' (hhash.trans hhash'.symm)
  · intro e he e' he' hhash hhash'
    exact List.inj_on_of_nodup_map huniq' he he' (hhash.trans hhash'.symm)

/-- A new last entry of another name answers no lookup of `m`. -/
theorem lookupHash_concat {e : TokenEntry} (h : m ≠ e.name) (hash tr : String) (now : Int) :
    lookupHash hash tr now (ts ++ [e]) = some m ↔ lookupHash hash tr now ts = some m := by
  induction ts with
  | nil =>
    refine iff_of_false ?_ (by simp [lookupHash])
    intro hm
    obtain ⟨x, hx, hname⟩ := exists_mem_of_lookupHash hm
    rw [List.nil_append, List.mem_singleton] at hx
    exact h (hx ▸ hname.symm)
  | cons x ts ih =>
    simp only [List.cons_append, lookupHash]
    split
    · exact ih
    · exact Iff.rfl

/-- Dropping an entry of `n` leaves the entries of every other name. -/
theorem filter_eraseP (h : m ≠ n) (ts : List TokenEntry) :
    ((ts.eraseP fun e => e.name == n).filter fun e => e.name == m) =
      ts.filter fun e => e.name == m := by
  induction ts with
  | nil => rfl
  | cons e ts ih =>
    by_cases he : e.name = n
    · rw [List.eraseP_cons_of_pos (by simpa using he), List.filter_cons_of_neg]
      simpa [he] using h.symm
    · rw [List.eraseP_cons_of_neg (by simpa using he), List.filter_cons, List.filter_cons, ih]

theorem filter_filter_ne (h : m ≠ n) (ts : List TokenEntry) :
    ((ts.filter fun e => !(e.name == n)).filter fun e => e.name == m) =
      ts.filter fun e => e.name == m := by
  rw [List.filter_filter]
  refine List.filter_congr ?_
  intro e _
  by_cases he : e.name = m
  · simp [he, h]
  · simp [he]

/-- **A change leaves the entries of every other name**, as the call found them. -/
theorem amend_entries {c : Call} {ch : Change} (h : c.amend sha256 ts = .ok ch)
    (hm : m ≠ c.op.name) :
    (ch.tokens.filter fun e => e.name == m) = ts.filter fun e => e.name == m := by
  rcases amend_cases h with
    ⟨name, expiresAt, localOnly, replace, hop, -, htokens, -⟩ | ⟨name, hop, htokens, -⟩
  · have hname : m ≠ name := by simpa [hop, Op.name] using hm
    have hnew : ([issuedEntry sha256 c.io name expiresAt localOnly].filter
        fun e => e.name == m) = [] :=
      List.filter_cons_of_neg (by simpa [issuedEntry] using hname.symm)
    rw [htokens, List.filter_append, filter_eraseP hname, hnew, List.append_nil]
  · have hname : m ≠ name := by simpa [hop, Op.name] using hm
    rw [htokens, filter_filter_ne hname]

/-- **and every lookup of another name.** -/
theorem amend_lookups {c : Call} {ch : Change} (h : c.amend sha256 ts = .ok ch)
    (huniq : (ts.map TokenEntry.hash).Nodup) (hm : m ≠ c.op.name) (hash tr : String) (now : Int) :
    lookupHash hash tr now ch.tokens = some m ↔ lookupHash hash tr now ts = some m := by
  rcases amend_cases h with
    ⟨name, expiresAt, localOnly, replace, hop, -, htokens, -⟩ | ⟨name, hop, htokens, -⟩
  · have hname : m ≠ name := by simpa [hop, Op.name] using hm
    have hsub := List.eraseP_sublist (p := fun e : TokenEntry => e.name == name) (l := ts)
    rw [htokens, lookupHash_concat hname]
    exact lookupHash_congr huniq (huniq.sublist (hsub.map _)) (filter_eraseP hname ts) hash tr now
  · have hname : m ≠ name := by simpa [hop, Op.name] using hm
    have hsub := List.filter_sublist (p := fun e : TokenEntry => !(e.name == name)) (l := ts)
    rw [htokens]
    exact lookupHash_congr huniq (huniq.sublist (hsub.map _)) (filter_filter_ne hname ts) hash tr
      now

end Others

/-! ## 4. The contract holds, but for one schedule -/

section Main

variable {sha256 : String → Vector UInt8 32} {daemonDir : String} {d d' : Disk}
  {ts ts' : List TokenEntry} {n : String}

theorem Disk.Listing.entriesOf (h : d.Listing daemonDir ts) (hts : ∀ e ∈ ts, e.WellFormed)
    (m : String) : entriesOf daemonDir d m = .ok (ts.filter fun e => e.name == m) := by
  rw [OnDisk.entriesOf, h.read hts]
  rfl

theorem Disk.Listing.lookup_eq_some_iff (h : d.Listing daemonDir ts)
    (hts : ∀ e ∈ ts, e.WellFormed) (token tr m : String) (now : Int) :
    lookup sha256 daemonDir d token tr now = .ok (some m) ↔
      token.isEmpty = false ∧ lookupHash (hashToken sha256 token) tr now ts = some m := by
  unfold lookup lookupByToken
  rw [h.read hts]
  cases token.isEmpty with
  | true => exact iff_of_false nofun nofun
  | false => simp [bind, Except.bind, pure, Except.pure]

/-- What is touched before the list is published is neither the list nor a raw-token file. -/
theorem unchanged_of_touches (h : isSafeName n = true)
    (htouches : Disk.Touches (asidePlaces daemonDir n) d d') :
    Unchanged sha256 daemonDir d d' := by
  refine ⟨htouches.find (tokensPlace_not_mem_asidePlaces h), ?_, ?_⟩
  · intro m hm
    refine htouches.find ?_
    simp [asidePlaces, rawPlace_ne_sidePlace hm (not_slash_of_isSafeName h),
      rawPlace_ne_tmpPlace hm]
  · intro token tr now
    rw [lookup, htouches.content (tokensPlace_not_mem_asidePlaces h), lookup]

theorem Unchanged.refl (d : Disk) : Unchanged sha256 daemonDir d d :=
  ⟨rfl, fun _ _ => rfl, fun _ _ _ => rfl⟩

/-- The places of a safe name are where they belong. -/
theorem own_of_mem {p : Place} (h : isSafeName n = true) (hp : p ∈ ownPlaces daemonDir n) :
    Own daemonDir n p := by
  simp only [ownPlaces, List.mem_cons, List.not_mem_nil, or_false] at hp
  have hslash := not_slash_of_isSafeName h
  have hdir := resolve_tokensDir daemonDir
  rcases hp with rfl | rfl | rfl | rfl
  · refine Or.inl ⟨Or.inl rfl, n ++ ".json", ?_⟩
    rw [rawPlace_eq hslash, hdir, List.append_assoc]
    rfl
  · refine Or.inl ⟨Or.inr rfl, n ++ ".json.new", ?_⟩
    rw [sidePlace_eq hslash, hdir, List.append_assoc]
    rfl
  · exact Or.inr ⟨Or.inl rfl, "tokens.json", tokensPlace_eq daemonDir⟩
  · exact Or.inr ⟨Or.inr rfl, "tokens.json.tmp", tmpPlace_eq daemonDir⟩

theorem confined_of_touches (h : isSafeName n = true)
    (htouches : Disk.Touches (ownPlaces daemonDir n) d d') : Confined daemonDir n d d' := by
  obtain ⟨log, htouched, hmem, hfind⟩ := htouches
  exact ⟨log, htouched, fun p hp => own_of_mem h (hmem p hp), hfind⟩

theorem Confined.refl (n : String) (d : Disk) : Confined daemonDir n d d :=
  ⟨[], by simp, by simp, fun _ _ => rfl⟩

/-- A published change is framed, when the call saw the entries of the other names. -/
theorem Published.framedBy {c : DiskCall} {ch : Change} {seen : List TokenEntry}
    (h : Published daemonDir c.op.name ch.tokens d d') (hsafe : isSafeName c.op.name = true)
    (hamend : c.call.amend sha256 seen = .ok ch) (hlisting : d.Listing daemonDir ts)
    (hts : ∀ e ∈ ts, e.WellFormed) (huniq : (ts.map TokenEntry.hash).Nodup)
    (hsub : seen.Sublist ts)
    (hseen : ∀ m, m ≠ c.op.name →
      (seen.filter fun e => e.name == m) = ts.filter fun e => e.name == m) :
    FramedBy sha256 daemonDir c.op.name d d' := by
  have hlisting' : d'.Listing daemonDir ch.tokens := Or.inr h.tokens
  have hts' : ∀ e ∈ ch.tokens, e.WellFormed :=
    amend_wellFormed hamend hsafe fun e he => hts e (hsub.subset he)
  have huniq' : (seen.map TokenEntry.hash).Nodup := huniq.sublist (hsub.map _)
  refine ⟨?_, ?_, ?_⟩
  · intro m hm
    rw [hlisting'.entriesOf hts', hlisting.entriesOf hts, amend_entries hamend hm, hseen m hm]
  · intro m hm hm'
    have hslash := not_slash_of_isSafeName hsafe
    refine h.touches.find ?_
    simp [ownPlaces, rawPlace_ne_rawPlace hm' hslash hm, rawPlace_ne_sidePlace hm' hslash,
      rawPlace_ne_tokensPlace hm', rawPlace_ne_tmpPlace hm']
  · intro m hm token tr now
    rw [hlisting'.lookup_eq_some_iff hts', hlisting.lookup_eq_some_iff hts]
    refine and_congr_right fun _ => ?_
    rw [amend_lookups hamend huniq' hm]
    exact lookupHash_congr huniq huniq' (hseen m hm) _ tr now

theorem asidePlaces_subset (daemonDir n : String) :
    ∀ p ∈ asidePlaces daemonDir n, p ∈ ownPlaces daemonDir n := by
  simp [asidePlaces, ownPlaces]

/-- A revocation that sees nothing has nothing to revoke. -/
theorem exists_issue_of_amend_nil {c : Call} {ch : Change} (h : c.amend sha256 [] = .ok ch) :
    (∃ name expiresAt localOnly replace, c.op = .issue name expiresAt localOnly replace) ∧
      generateToken c.io.random ≠ "" ∧ ch.raw.isSome = true := by
  rcases amend_cases h with
    ⟨name, expiresAt, localOnly, replace, hop, hraw, -, hstaged⟩ | ⟨name, hop, -, -⟩
  · exact ⟨⟨name, expiresAt, localOnly, replace, hop⟩, hraw, by rw [hstaged]; rfl⟩
  · simp [Call.amend, hop, revokeEntries] at h

/-- **The contract holds where the call does not forget.** -/
theorem contract_of_not_forgets {history : List Event} {c : DiskCall}
    (hkept : Kept sha256 daemonDir history d ts) (huniq : (ts.map TokenEntry.hash).Nodup)
    (h : ¬Forgets daemonDir c d) : Contract sha256 daemonDir c d := by
  intro r d' hexec
  by_cases hsafe : isSafeName c.op.name = true
  · rcases perform_cases sha256 hsafe hkept.listing hkept.wellFormed with
      ⟨o, hamend, hrun⟩ | ⟨ch, u, hamend, hwrites, hrun, hpublished⟩ |
      ⟨ch, u, hamend, hfail, hrun, htouches⟩
    · rw [hrun] at hexec
      cases hexec
      refine ⟨fun _ => Unchanged.refl d, ?_, Confined.refl ..⟩
      rintro ⟨o', ho, hok⟩
      cases ho
      exact absurd hok (amend_error hamend)
    · rw [hrun] at hexec
      cases hexec
      refine ⟨fun hno => absurd ⟨_, rfl, ch.outcome_ok⟩ hno, fun _ => ?_,
        confined_of_touches hsafe hpublished.touches⟩
      refine hpublished.framedBy hsafe hamend hkept.listing hkept.wellFormed huniq
        (seen_sublist c.io.listOpens ts) ?_
      intro m hm
      cases hopens : c.io.listOpens with
      | true => rfl
      | false =>
        -- what was not seen is not there, or the call would have forgotten it
        rw [hopens] at hamend
        obtain ⟨hop, hraw, hstaged⟩ := exists_issue_of_amend_nil hamend
        have hentries := hkept.listing.entriesOf hkept.wellFormed m
        by_contra hne
        refine h ⟨hop, hsafe, hopens, hraw, hwrites.1 hstaged, hwrites.2, m, hm, ?_⟩
        rw [hentries]
        intro hnil
        exact hne (Except.ok.inj hnil).symm
    · rw [hrun] at hexec
      cases hexec
      refine ⟨fun _ => unchanged_of_touches hsafe htouches, ?_,
        confined_of_touches hsafe (htouches.mono (asidePlaces_subset daemonDir c.op.name))⟩
      rintro ⟨o', ho, hok⟩
      cases ho
      exact absurd hok c.op.ioError_not_ok
  · rw [perform_invalidName (by simpa using hsafe)] at hexec
    cases hexec
    refine ⟨fun _ => Unchanged.refl d, ?_, Confined.refl ..⟩
    rintro ⟨o', ho, hok⟩
    cases ho
    exact absurd hok c.op.invalidName_not_ok

variable (sha256) in
/-- A call that forgets answers `Ok` and leaves no entry of another name. -/
theorem Forgets.exec {c : DiskCall} (h : Forgets daemonDir c d) (hlisting : d.Listing daemonDir ts)
    (hts : ∀ e ∈ ts, e.WellFormed) :
    ∃ o d', (c.perform sha256 daemonDir).exec d = (.ok o, d') ∧ o.Ok ∧
      ∀ m, m ≠ c.op.name → entriesOf daemonDir d' m = .ok [] := by
  obtain ⟨⟨n, expiresAt, localOnly, replace, hop⟩, hsafe, hopens, hraw, hstages, hcommits, -⟩ := h
  have hcases := perform_cases sha256 hsafe hlisting hts
  rw [hopens] at hcases
  have hcall : c.call.op = .issue n expiresAt localOnly replace := hop
  have hrandom : generateToken c.call.io.random ≠ "" := hraw
  rcases hcases with ⟨o, hamend, -⟩ | ⟨ch, d', hamend, -, hrun, hpublished⟩ |
    ⟨ch, u, -, hfail, -, -⟩
  · simp [Call.amend, hcall, issueEntries, hrandom] at hamend
    cases hamend
  · refine ⟨ch.outcome, d', hrun, ch.outcome_ok, ?_⟩
    intro m hm
    have hts' := amend_wellFormed hamend hsafe (by simp)
    rw [Disk.Listing.entriesOf (Or.inr hpublished.tokens) hts', amend_entries hamend hm]
    rfl
  · exact absurd ⟨fun _ => hstages, hcommits⟩ hfail

/-- Such a call does not keep the contract. -/
theorem Forgets.not_contract {c : DiskCall} (h : Forgets daemonDir c d)
    (hlisting : d.Listing daemonDir ts) (hts : ∀ e ∈ ts, e.WellFormed) :
    ¬Contract sha256 daemonDir c d := by
  intro hcontract
  obtain ⟨o, d', hexec, hok, hgone⟩ := h.exec sha256 hlisting hts
  obtain ⟨m, hm, hthere⟩ := h.2.2.2.2.2.2
  have hframed := (hcontract _ _ hexec).2.1 ⟨o, rfl, hok⟩
  rw [← hframed.entries m hm] at hthere
  exact hthere (hgone m hm)

/-- **Token operations are atomic on failure and framed on success**, in every state that calls
leave and for every schedule of faults, exactly when the call does not forget.  The tokens issued so
far have hashes of their own. -/
theorem contract_iff {calls : List DiskCall} {d₀ : Disk} {history : List Event}
    (hstart : d₀.files.read (tokensPlace daemonDir) = none)
    (hrun : run sha256 daemonDir calls d₀ = (history, d))
    (hfresh : ((issuedTokens history).map (hashToken sha256)).Nodup) (c : DiskCall) :
    Contract sha256 daemonDir c d ↔ ¬Forgets daemonDir c d := by
  obtain ⟨ts, hkept⟩ := (kept_of_missing sha256 hstart).run hrun
  have huniq : (ts.map TokenEntry.hash).Nodup := hfresh.sublist hkept.hashes
  constructor
  · intro hcontract hforgets
    exact hforgets.not_contract hkept.listing hkept.wellFormed hcontract
  · exact contract_of_not_forgets hkept huniq

/-! ## 5. Alice and bob -/

def sampleDir : String := "/home/op/.logoscore/daemon"

/-- No file at all. -/
def emptyDisk : Disk := ⟨Files.empty, []⟩

/-- System calls that all go well, with the random generator answering `byte` throughout. -/
def goodDiskIo (byte : UInt8) : DiskIo where
  random := some (Vector.replicate 32 byte)
  issuedAt := "2026-01-01T00:00:00Z"
  umask := 0o022
  versionOpens := true
  listOpens := true
  rawDirectories := true
  side := .closed
  sideRestricted := true
  directories := true
  temp := .closed
  tempRestricted := true
  renamed := true
  tempRemoved := true
  sideRemoved := true
  promoted := true
  promotedAgain := true
  rawRemoved := true

/-- A token for `alice`, all going well. -/
def issueAlice : DiskCall := ⟨.issue "alice" "" false false, goodDiskIo 0⟩

/-- A token for `bob`, by the system calls of `io`. -/
def issueBob (io : DiskIo) : DiskCall := ⟨.issue "bob" "" false false, io⟩

/-- What the issue for `alice` leaves. -/
def aliceDisk : Disk := (run sampleSha256 sampleDir [issueAlice] emptyDisk).2

/-- An issue for `bob` beside `alice`, and one whose rename of the list fails. -/
theorem bob_beside_alice :
    Contract sampleSha256 sampleDir (issueBob (goodDiskIo 255)) aliceDisk ∧
      Contract sampleSha256 sampleDir (issueBob { goodDiskIo 255 with renamed := false })
        aliceDisk := by
  have hstart : emptyDisk.files.read (tokensPlace sampleDir) = none := rfl
  have hrun : run sampleSha256 sampleDir [issueAlice] emptyDisk =
      ((run sampleSha256 sampleDir [issueAlice] emptyDisk).1, aliceDisk) := (Prod.eta _).symm
  have hfresh : ((issuedTokens (run sampleSha256 sampleDir [issueAlice] emptyDisk).1).map
      (hashToken sampleSha256)).Nodup := by decide +kernel
  refine ⟨(contract_iff hstart hrun hfresh _).mpr ?_, (contract_iff hstart hrun hfresh _).mpr ?_⟩
  · rintro ⟨-, -, hopens, -⟩
    cases hopens
  · rintro ⟨-, -, hopens, -⟩
    cases hopens

/-- **The open of `tokens.json` for the list fails, and `alice` is forgotten**: the issue for `bob`
answers `Ok`. -/
theorem alice_forgotten :
    (∃ o d', ((issueBob { goodDiskIo 255 with listOpens := false }).perform sampleSha256
        sampleDir).exec aliceDisk = (.ok o, d') ∧ o.Ok ∧ entriesOf sampleDir d' "alice" = .ok []) ∧
      ¬Contract sampleSha256 sampleDir (issueBob { goodDiskIo 255 with listOpens := false })
        aliceDisk := by
  have hstart : emptyDisk.files.read (tokensPlace sampleDir) = none := rfl
  have hrun : run sampleSha256 sampleDir [issueAlice] emptyDisk =
      ((run sampleSha256 sampleDir [issueAlice] emptyDisk).1, aliceDisk) := (Prod.eta _).symm
  obtain ⟨ts, hkept⟩ := (kept_of_missing sampleSha256 hstart).run hrun
  have halice : entriesOf sampleDir aliceDisk "alice" ≠ .ok [] := by
    decide +kernel
  have hforgets : Forgets sampleDir (issueBob { goodDiskIo 255 with listOpens := false })
      aliceDisk :=
    ⟨⟨"bob", "", false, false, rfl⟩, by decide, rfl, by decide +kernel, rfl, rfl, "alice",
      by decide, halice⟩
  obtain ⟨o, d', hexec, hok, hgone⟩ :=
    hforgets.exec sampleSha256 hkept.listing hkept.wellFormed
  exact ⟨⟨o, d', hexec, hok, hgone "alice" (by decide)⟩,
    hforgets.not_contract hkept.listing hkept.wellFormed⟩

end Main

end Logosctl.TokenStore.OnDisk
