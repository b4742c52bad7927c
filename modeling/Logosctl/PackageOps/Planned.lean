/-
# What is planned and what is applied

`plan` asks the resolver for the packages and works out what would change; `apply` asks the
downloader for them again and installs every file it is handed.  The two requests are built the
same way from what is installed, but only the plan drops what was not asked for when dependencies
are left out, and only the plan drops what is already installed as resolved.

`installs_what_was_planned_iff` says, in terms of the two answers, when the packages installed are
the packages planned.
-/
import Logosctl.PackageOps.Replies

namespace Logosctl.PackageOps

open Library

/-! ## 1. The two answers -/

/-- An entry of either answer is about package `n`. -/
def Names (n : String) (e : Json) : Prop := e.valueStr "name" = .ok n

/-- The resolver's answer, when asking for the installed packages is the `c`-th call. -/
def resolverAnswer (env : Env) (c : Nat) : List Json := (env.reply (c + 1)).json.elems

/-- The downloader's answer, after a plan that began with the `c`-th call and `gates` gates. -/
def downloaderAnswer (env : Env) (c gates : Nat) : List Json :=
  (env.reply (c + 2 + 3 * gates + 1)).json.elems

/-- The two requests name the same installed packages. -/
def SameRequest (env : Env) (opts : Options) (c gates : Nat) : Prop :=
  downloadSkips env opts (env.reply c).json.elems =
    downloadSkips env opts (env.reply (c + 2 + 3 * gates)).json.elems

/-- The same request is answered with the same packages, whether it is to resolve or to
download. -/
def SamePackages (env : Env) (opts : Options) (c gates : Nat) : Prop :=
  SameRequest env opts c gates → ∀ n,
    (∃ e ∈ resolverAnswer env c, Names n e) ↔ ∃ d ∈ downloaderAnswer env c gates, Names n d

/-- An entry of the resolver's answer is one to act on: asked for, if dependencies are left out,
and not already installed as resolved. -/
def ToChange (opts : Options) (installed : List Json) (n : String) (e : Json) : Prop :=
  (opts.withDeps = true ∨ e.valueBool "topLevel" false = .ok true) ∧
    ∃ installedByName change, byName installed = .ok installedByName ∧
      planEntry installedByName e = .ok (.ok change) ∧ change.name = n ∧ change.action ≠ .installed

/-- The downloader hands over a file of package `n`. -/
def HandsOver (env : Env) (c gates : Nat) (n : String) : Prop :=
  ∃ d ∈ downloaderAnswer env c gates, handedOver d = some n

/-- The downloader hands over a file of exactly those packages of the resolver's answer that are
to be acted on; and, where its request was a different one, of no package outside that answer. -/
def HandsOverPlanned (env : Env) (opts : Options) (c gates : Nat) : Prop :=
  (∀ n, (∃ e ∈ resolverAnswer env c, Names n e) →
      (HandsOver env c gates n ↔
        ∃ e ∈ resolverAnswer env c, ToChange opts (env.reply c).json.elems n e)) ∧
    (¬ SameRequest env opts c gates → ∀ n, HandsOver env c gates n →
      ∃ e ∈ resolverAnswer env c, Names n e)

section Planned

variable {env : Env} {op : Op} {r p : Report} {names : List String} {opts : Options}
  {w w₁ w' : World} {n : String}

/-! ## 2. What is planned -/

/-- Filtering with a test that can fail keeps what passes it. -/
theorem mem_filterM {f : Json → Except TypeError Bool} {es kept : List Json}
    (h : es.filterM f = .ok kept) : ∀ e, e ∈ kept ↔ e ∈ es ∧ f e = .ok true := by
  have haux : ∀ (es acc out : List Json), List.filterAuxM f es acc = .ok out →
      ∀ e, e ∈ out ↔ e ∈ acc ∨ (e ∈ es ∧ f e = .ok true) := by
    intro es
    induction es with
    | nil =>
      intro acc out hout e
      cases hout
      simp
    | cons x es ih =>
      intro acc out hout e
      obtain ⟨b, hb, hout⟩ := except_bind_eq_ok.mp hout
      rw [ih _ _ hout e]
      cases b with
      | true =>
        simp only [cond_true, List.mem_cons]
        constructor
        · rintro ((rfl | hacc) | ⟨hes, hf⟩)
          · exact Or.inr ⟨Or.inl rfl, hb⟩
          · exact Or.inl hacc
          · exact Or.inr ⟨Or.inr hes, hf⟩
        · rintro (hacc | ⟨rfl | hes, hf⟩)
          · exact Or.inl (Or.inr hacc)
          · exact Or.inl (Or.inl rfl)
          · exact Or.inr ⟨hes, hf⟩
      | false =>
        simp only [cond_false, List.mem_cons]
        constructor
        · rintro (hacc | ⟨hes, hf⟩)
          · exact Or.inl hacc
          · exact Or.inr ⟨Or.inr hes, hf⟩
        · rintro (hacc | ⟨rfl | hes, hf⟩)
          · exact Or.inl hacc
          · rw [hb] at hf
            cases hf
          · exact Or.inr ⟨hes, hf⟩
  intro e
  obtain ⟨out, hout, hkept⟩ := except_bind_eq_ok.mp h
  cases hkept
  rw [List.mem_reverse, haux _ _ _ hout e]
  simp

/-- The resolver is asked once; its answer is filtered when dependencies are left out. -/
theorem resolveClosure_eq_ok {installed es : List Json} {why : String}
    (h : (resolveClosure env names opts installed).exec w = (.ok (some es, why), w')) :
    w'.calls = w.calls + 1 ∧ ∀ e, e ∈ es ↔ e ∈ (env.reply w.calls).json.elems ∧
      (opts.withDeps = true ∨ e.valueBool "topLevel" false = .ok true) := by
  unfold resolveClosure at h
  cases hdeps : opts.withDeps with
  | true =>
    simp only [hdeps, Bool.not_true, Bool.false_eq_true, if_false] at h
    obtain ⟨skips, t, hskips, hrest⟩ := Prog.exec_bind_eq_ok.mp h
    obtain ⟨-, rfl⟩ := exec_read_eq_ok.mp hskips
    rw [Prog.exec_bind_of_ok (exec_call _ _ _ _)] at hrest
    dsimp only at hrest
    cases hjson : (env.reply t.calls).json with
    | arr all =>
      rw [hjson] at hrest
      cases hrest
      simp [Json.elems]
    | _ =>
      rw [hjson] at hrest
      cases hrest
  | false =>
    simp only [hdeps, Bool.not_false, if_true] at h
    rw [Prog.exec_bind_of_ok (exec_call _ _ _ _)] at h
    dsimp only at h
    cases hjson : (env.reply w.calls).json with
    | arr all =>
      rw [hjson] at h
      obtain ⟨kept, t, hkept, h⟩ := Prog.exec_bind_eq_ok.mp h
      obtain ⟨hfilter, rfl⟩ := exec_read_eq_ok.mp hkept
      cases h
      refine ⟨rfl, fun e => ?_⟩
      rw [mem_filterM hfilter e]
      simp [Json.elems]
    | _ =>
      rw [hjson] at h
      cases h

/-- The changes planned are those of the entries, one by one. -/
theorem planResolved_eq_ok {installedByName : List (String × InstalledInfo)} {es : List Json} :
    ∀ {changes : List Change} {affected : List String} {w w' : World},
      (planResolved installedByName es).exec w = (.ok (changes, affected), w') →
        w' = w ∧ ∀ c, c ∈ changes ↔ ∃ e ∈ es, planEntry installedByName e = .ok (.ok c) := by
  induction es with
  | nil =>
    intro changes affected w w' h
    cases h
    simp
  | cons e es ih =>
    intro changes affected w w' h
    obtain ⟨entry, t, hentry, hgo⟩ := Prog.exec_bind_eq_ok.mp h
    obtain ⟨hread, rfl⟩ := exec_read_eq_ok.mp hentry
    cases entry with
    | error message => cases hgo
    | ok change =>
      obtain ⟨⟨changes', affected'⟩, t', hrest, hend⟩ := Prog.exec_bind_eq_ok.mp hgo
      obtain ⟨rfl, hmem⟩ := ih hrest
      cases hend
      refine ⟨rfl, fun c => ?_⟩
      simp only [List.mem_cons, hmem c, exists_eq_or_imp, hread, Except.ok.injEq]
      exact or_congr_left eq_comm

/-- What the catalog path plans. -/
theorem planned_of_catalog (hop : op ≠ .remove) (hlocal : opts.localFiles = [])
    (h : (plan env op names opts).exec w = (.ok (.report p), w₁)) :
    w₁.calls = w.calls + 2 ∧ ∀ n, (∃ c ∈ p.changes, c.action ≠ .installed ∧ c.name = n) ↔
      ∃ e ∈ resolverAnswer env w.calls, ToChange opts (env.reply w.calls).json.elems n e := by
  obtain ⟨installedByName, affected, hbyName, hchanges, -⟩ := plan_planned h
  unfold planChanges at hchanges
  rw [if_neg hop, hlocal] at hchanges
  obtain ⟨⟨resolved, why⟩, t, hresolve, hchanges⟩ := Prog.exec_bind_eq_ok.mp hchanges
  cases resolved with
  | none => cases hchanges
  | some es =>
    obtain ⟨hcalls, hmem⟩ := resolveClosure_eq_ok hresolve
    obtain ⟨rfl, hplanned⟩ := planResolved_eq_ok hchanges
    refine ⟨hcalls, fun n => ?_⟩
    constructor
    · rintro ⟨c, hc, haction, rfl⟩
      obtain ⟨e, he, hentry⟩ := (hplanned c).mp hc
      obtain ⟨hanswer, htop⟩ := (hmem e).mp he
      exact ⟨e, hanswer, htop, installedByName, c, hbyName, hentry, rfl, haction⟩
    · rintro ⟨e, hanswer, htop, byName', c, hbyName', hentry, rfl, haction⟩
      rw [hbyName] at hbyName'
      cases hbyName'
      exact ⟨c, (hplanned c).mpr ⟨e, (hmem e).mpr ⟨hanswer, htop⟩, hentry⟩, haction, rfl⟩

/-- An entry's change bears the entry's name. -/
theorem names_of_planEntry {installedByName : List (String × InstalledInfo)} {e : Json}
    {c : Change} (h : planEntry installedByName e = .ok (.ok c)) : Names c.name e := by
  unfold planEntry at h
  split at h
  · obtain ⟨name, -, h⟩ := except_bind_eq_ok.mp h
    obtain ⟨error, -, h⟩ := except_bind_eq_ok.mp h
    cases h
  · obtain ⟨name, hname, h⟩ := except_bind_eq_ok.mp h
    obtain ⟨version, -, h⟩ := except_bind_eq_ok.mp h
    obtain ⟨hash, -, h⟩ := except_bind_eq_ok.mp h
    obtain ⟨repository, -, h⟩ := except_bind_eq_ok.mp h
    obtain ⟨topLevel, -, h⟩ := except_bind_eq_ok.mp h
    cases h
    exact hname

/-- A local file is never planned as already installed, and is planned as what it is, under the
name it was given. -/
theorem planInspected_eq_ok {f : String} {info : Json} {c : Change}
    (h : planInspected f info = .ok c) :
    c.action ≠ .installed ∧ (∃ signature, c.origin = .localFile f signature) ∧
      Names c.name info := by
  unfold planInspected at h
  obtain ⟨name, hname, h⟩ := except_bind_eq_ok.mp h
  obtain ⟨version, -, h⟩ := except_bind_eq_ok.mp h
  obtain ⟨installedVersion, -, h⟩ := except_bind_eq_ok.mp h
  obtain ⟨isInstalled, -, h⟩ := except_bind_eq_ok.mp h
  obtain ⟨signature, -, h⟩ := except_bind_eq_ok.mp h
  cases h
  refine ⟨?_, ⟨signature, rfl⟩, hname⟩
  dsimp only
  split
  · split <;> simp
  · simp

/-- What is planned for local files is planned file by file. -/
theorem planLocal_eq_ok {files : List String} :
    ∀ {changes : List Change} {affected : List String} {w w' : World},
      (planLocal env files).exec w = (.ok (changes, affected), w') →
        ∀ c ∈ changes, ∃ f info, planInspected f info = .ok c := by
  induction files with
  | nil =>
    intro changes affected w w' h c hc
    cases h
    simp at hc
  | cons f fs ih =>
    intro changes affected w w' h c hc
    unfold planLocal at h
    rw [Prog.exec_bind_of_ok (exec_call _ _ _ _)] at h
    dsimp only at h
    split at h
    · cases h
    · obtain ⟨error, t, -, h⟩ := Prog.exec_bind_eq_ok.mp h
      split at h
      · cases h
      · obtain ⟨change, t', hchange, h⟩ := Prog.exec_bind_eq_ok.mp h
        obtain ⟨hread, -⟩ := exec_read_eq_ok.mp hchange
        obtain ⟨⟨changes', affected'⟩, t'', hrest, h⟩ := Prog.exec_bind_eq_ok.mp h
        cases h
        rcases List.mem_cons.mp hc with rfl | hc
        · exact ⟨f, _, hread⟩
        · exact ih hrest c hc

/-! ## 3. What is installed -/

/-- The local path installs every file it was given. -/
theorem installLocal_eq_ok {depChanges : String} {changes : List Change} :
    ∀ {installedNow : List String} {w w' : World},
      (installLocal env op r depChanges changes).exec w = (.ok installedNow, w') →
        installedNow = changes.map (·.name) := by
  induction changes with
  | nil =>
    intro installedNow w w' h
    cases h
    rfl
  | cons c cs ih =>
    intro installedNow w w' h
    obtain ⟨-, t, -, hgo⟩ := Prog.exec_bind_eq_ok.mp h
    obtain ⟨failed, t', -, hend⟩ := Prog.exec_bind_eq_ok.mp hgo
    cases failed with
    | some e => cases hend
    | none =>
      obtain ⟨rest, t'', hrest, hend⟩ := Prog.exec_bind_eq_ok.mp hend
      cases hend
      rw [ih hrest, List.map_cons]

/-- The catalog path installs the files handed over. -/
theorem installed_of_catalog (hlocal : opts.localFiles = []) {installedNow : List String}
    (h : (installAll env op p names opts).exec w = (.ok installedNow, w')) :
    ∃ ds, (env.reply (w.calls + 3 * names.length + 1)).json = .arr ds ∧
      installedNow = ds.filterMap handedOver := by
  unfold installAll at h
  rw [hlocal, if_neg (by simp)] at h
  by_cases hall : confirmedNames env w.calls names = names
  · obtain ⟨t, hrun, hcalls⟩ := @passGates_of_passes env op w p (dumpChanges env p) names hall
    have hgo : (downloadAndInstall env p names opts).exec t = (.ok installedNow, w') := by
      rw [← h]
      exact (Prog.exec_bind_of_ok (f := fun _ => downloadAndInstall env p names opts) hrun).symm
    by_cases harr : ∃ skips ds, downloadSkips env opts (env.reply t.calls).json.elems = .ok skips ∧
        (env.reply (t.calls + 1)).json = .arr ds
    · obtain ⟨skips, ds, hskips, hds⟩ := harr
      rw [downloadAndInstall_of_array hskips hds] at hgo
      exact ⟨ds, hcalls ▸ hds, installDownloaded_eq_ok hgo⟩
    · obtain ⟨e, w'', hrun', -⟩ := @downloadAndInstall_of_no_array env t p names opts
        fun skips ds hskips hds => harr ⟨skips, ds, hskips, hds⟩
      rw [hrun'] at hgo
      cases hgo
  · obtain ⟨e, t, hrun⟩ := @passGates_of_not_passes env op w p (dumpChanges env p) names hall
    have herror : (.error e, t) = ((.ok installedNow, w') : Except Exit (List String) × World) := by
      rw [← h]
      exact (Prog.exec_bind_of_error hrun).symm
    cases herror

/-! ## 4. When they agree -/

/-- The packages an operation reports installed. -/
def Report.Installed (r : Report) (n : String) : Prop := ∃ l, r.installed = some l ∧ n ∈ l

/-- The packages an operation planned to change. -/
def Report.Planned (r : Report) (n : String) : Prop :=
  ∃ c ∈ r.changes, c.action ≠ .installed ∧ c.name = n

/-- The resolver marks as top-level no package but those asked for. -/
def MarksNamed (env : Env) (names : List String) (c : Nat) : Prop :=
  ∀ e ∈ resolverAnswer env c, e.valueBool "topLevel" false = .ok true → ∀ n, Names n e → n ∈ names

/-- What was planned is what was installed; in particular, nothing outside the packages asked
for, when dependencies were left out. -/
def InstallsWhatWasPlanned (env : Env) (names : List String) (opts : Options) (c : Nat)
    (r : Report) : Prop :=
  (∀ n, r.Installed n ↔ r.Planned n) ∧
    (opts.withDeps = false → opts.localFiles = [] → MarksNamed env names c →
      ∀ n, r.Installed n → n ∈ names)

theorem installs_named {c : Nat} (hplanned : ∀ n, r.Planned n ↔
      ∃ e ∈ resolverAnswer env c, ToChange opts (env.reply c).json.elems n e)
    (heq : ∀ n, r.Installed n ↔ r.Planned n) (hdeps : opts.withDeps = false)
    (hmarks : MarksNamed env names c) : ∀ n, r.Installed n → n ∈ names := by
  intro n hn
  obtain ⟨e, he, htop, installedByName, change, -, hentry, rfl, -⟩ :=
    (hplanned n).mp ((heq n).mp hn)
  have hyes : e.valueBool "topLevel" false = .ok true := by
    rcases htop with hwith | hyes
    · rw [hdeps] at hwith
      cases hwith
    · exact hyes
  exact hmarks e he hyes _ (names_of_planEntry hentry)

theorem names_of_handedOver {d : Json} (h : handedOver d = some n) : Names n d := by
  unfold handedOver at h
  split at h
  · next path name _ hname =>
    split at h
    · cases h
    · cases h
      exact hname
  · cases h

/-- A package is handed over exactly when it is to be changed, if the downloader hands over what
was planned, and the other way round. -/
theorem handsOverPlanned_iff {c gates : Nat} (hsame : SamePackages env opts c gates) :
    (∀ n, HandsOver env c gates n ↔
        ∃ e ∈ resolverAnswer env c, ToChange opts (env.reply c).json.elems n e) ↔
      HandsOverPlanned env opts c gates := by
  have hnamed : ∀ n, (∃ e ∈ resolverAnswer env c, ToChange opts (env.reply c).json.elems n e) →
      ∃ e ∈ resolverAnswer env c, Names n e := by
    rintro n ⟨e, he, -, installedByName, change, -, hentry, rfl, -⟩
    exact ⟨e, he, names_of_planEntry hentry⟩
  constructor
  · intro heq
    refine ⟨fun n _ => heq n, ?_⟩
    intro _ n hn
    exact hnamed n ((heq n).mp hn)
  · rintro ⟨hinside, houtside⟩ n
    constructor
    · intro hn
      refine (hinside n ?_).mp hn
      by_cases hrequest : SameRequest env opts c gates
      · obtain ⟨d, hd, hover⟩ := hn
        exact (hsame hrequest n).mpr ⟨d, hd, names_of_handedOver hover⟩
      · exact houtside hrequest n hn
    · intro hchange
      exact (hinside n (hnamed n hchange)).mpr hchange

/-- **When what is planned is what is applied.**  An install or upgrade that succeeds installed
what was planned exactly when it was of local files, or the downloader handed over what was
planned. -/
theorem installs_what_was_planned_iff (hop : op ≠ .remove)
    (hrun : (apply env op names opts).exec w = (.ok (.report r), w')) (hok : r.status = .ok)
    (hsame : SamePackages env opts w.calls names.length) :
    InstallsWhatWasPlanned env names opts w.calls r ↔
      opts.localFiles ≠ [] ∨ HandsOverPlanned env opts w.calls names.length := by
  have hnot : ¬ Failing (.ok (.report r)) := by simp [Failing, Answer.isError, hok]
  rcases apply_cases hop hrun with ⟨hfail, -⟩ | ⟨p, w₁, hplan, -, ⟨e, hfail, -⟩ | hdone⟩
  · exact absurd hfail hnot
  · exact absurd hfail hnot
  obtain ⟨installedNow, w₂, reloaded, hinst, hr, -⟩ := hdone
  cases hr
  by_cases hlocal : opts.localFiles = []
  · obtain ⟨hcalls, hplanned⟩ := planned_of_catalog hop hlocal hplan
    obtain ⟨ds, hds, rfl⟩ := installed_of_catalog hlocal hinst
    have hanswer : downloaderAnswer env w.calls names.length = ds := by
      unfold downloaderAnswer
      rw [← hcalls, hds]
      rfl
    have hinstalled : ∀ n, Report.Installed { p with
        installed := some (ds.filterMap handedOver), reloaded := some reloaded } n ↔
          HandsOver env w.calls names.length n := by
      intro n
      unfold HandsOver
      rw [hanswer, ← List.mem_filterMap]
      exact ⟨fun ⟨l, hl, hn⟩ => Option.some.inj hl ▸ hn, fun hn => ⟨_, rfl, hn⟩⟩
    have hiff : (∀ n, Report.Installed { p with
        installed := some (ds.filterMap handedOver), reloaded := some reloaded } n ↔
          p.Planned n) ↔ HandsOverPlanned env opts w.calls names.length := by
      rw [← handsOverPlanned_iff hsame]
      exact forall_congr' fun n => by rw [hinstalled n, Report.Planned, hplanned n]
    rw [or_iff_right fun hne => hne hlocal, ← hiff]
    refine ⟨fun h => h.1, fun heq => ⟨heq, fun hdeps _ hmarks => ?_⟩⟩
    exact installs_named hplanned heq hdeps hmarks
  · refine iff_of_true ⟨?_, fun _ hnil => absurd hnil hlocal⟩ (Or.inl hlocal)
    have hfiles : (installLocal env op p (dumpChanges env p) p.changes).exec w₁ =
        (.ok installedNow, w₂) := by
      unfold installAll at hinst
      rw [if_pos (by simpa using hlocal)] at hinst
      exact hinst
    obtain ⟨installedByName, affected, -, hchanges, -⟩ := plan_planned hplan
    unfold planChanges at hchanges
    rw [if_neg hop, if_pos (by simpa using hlocal)] at hchanges
    have hnone : ∀ c ∈ p.changes, c.action ≠ .installed := by
      intro c hc
      obtain ⟨f, info, hread⟩ := planLocal_eq_ok hchanges c hc
      exact (planInspected_eq_ok hread).1
    intro n
    constructor
    · rintro ⟨l, hl, hn⟩
      cases hl
      rw [installLocal_eq_ok hfiles] at hn
      obtain ⟨c, hc, rfl⟩ := List.mem_map.mp hn
      exact ⟨c, hc, hnone c hc, rfl⟩
    · rintro ⟨c, hc, -, rfl⟩
      refine ⟨_, rfl, ?_⟩
      rw [installLocal_eq_ok hfiles]
      exact List.mem_map_of_mem hc

end Planned

/-- An entry of the resolver's answer. -/
def entry (name : String) (topLevel : Bool) : Json :=
  .obj [("name", .str name), ("topLevel", .bool topLevel), ("version", .str "1.0")]

/-- A file the downloader hands over. -/
def fileOf (name : String) : Json := .obj [("name", .str name), ("path", .str name)]

/-- The replies of an install of `app` with nothing installed, when the resolver and the
downloader answer with these packages. -/
def installReplies (entries files : List Json) : List Reply :=
  [.ok (.arr []), .ok (.arr entries), .ok (.obj [("success", .bool true)]),
    .ok (.obj [("success", .bool true)]), .ok (.obj [("success", .bool true)]), .ok (.arr []),
    .ok (.arr files), .ok (.obj []), .ok (.obj [])]

/-- The report of that install. -/
def appInstalled (installed : List String) : Report where
  op := .install
  changes := [⟨"app", .install, "", "1.0", .catalog "" true⟩]
  affectedLoaded := []
  installed := some installed
  reloaded := some []

/-- **A package is installed that was not planned.**  `app` is to be installed without its
dependencies; the plan names `app` alone, and its dependency `lib` is installed with it. -/
theorem dependency_installed_unplanned :
    let env := graphEnv [] (installReplies [entry "lib" false, entry "app" true]
      [fileOf "lib", fileOf "app"])
    ((apply env .install ["app"] { withDeps := false }).exec ⟨[], 0, []⟩).1 =
        .ok (.report (appInstalled ["lib", "app"])) ∧
      SamePackages env { withDeps := false } 0 1 ∧ MarksNamed env ["app"] 0 ∧
      ¬ InstallsWhatWasPlanned env ["app"] { withDeps := false } 0
        (appInstalled ["lib", "app"]) := by
  refine ⟨by decide +kernel, ?_, ?_, ?_⟩
  · intro _ n
    simp [resolverAnswer, downloaderAnswer, graphEnv, installReplies, Reply.json, Json.elems, Names,
      entry, fileOf, Json.valueStr, Json.value, Json.getString]
  · intro e he htop n hn
    simp only [resolverAnswer, graphEnv, installReplies, Reply.json, Json.elems, List.getD_cons_succ,
      List.getD_cons_zero, List.mem_cons, List.not_mem_nil, or_false] at he
    rcases he with rfl | rfl
    · exact absurd htop (by decide)
    · cases hn
      decide
  · rintro ⟨heq, -⟩
    obtain ⟨c, hc, -, hname⟩ := (heq "lib").mp ⟨_, rfl, by decide⟩
    obtain rfl := List.mem_singleton.mp hc
    exact absurd hname (by decide)

/-- Without a dependency in the answers, the same install installs what it planned. -/
theorem app_installed_as_planned :
    InstallsWhatWasPlanned (graphEnv [] (installReplies [entry "app" true] [fileOf "app"]))
      ["app"] { withDeps := false } 0 (appInstalled ["app"]) := by
  refine (@installs_what_was_planned_iff _ .install _ _ _ ⟨[], 0, []⟩ _ (by decide)
    (Prod.ext (by decide +kernel) rfl) rfl ?_).mpr (Or.inr ⟨?_, fun h => absurd rfl h⟩)
  · intro _ n
    simp [resolverAnswer, downloaderAnswer, graphEnv, installReplies, Reply.json, Json.elems, Names,
      entry, fileOf, Json.valueStr, Json.value, Json.getString]
  · rintro n ⟨e, he, hn⟩
    obtain rfl := List.mem_singleton.mp he
    cases hn
    refine iff_of_true ⟨fileOf "app", List.mem_singleton_self _, by decide +kernel⟩ ?_
    refine ⟨entry "app" true, List.mem_singleton_self _, Or.inr rfl, [], ?_⟩
    exact ⟨⟨"app", .install, "", "1.0", .catalog "" true⟩, rfl, by decide +kernel, rfl, by decide⟩

end Logosctl.PackageOps
