/-
# Pinned releases

`--catalog` and `--root-hash` are to restrict an install or an upgrade to releases of one catalog
and of one root hash.  Neither reaches the resolver or the downloader: the dependency form they
are sent (`dependenciesJson`) carries names and a version and nothing else.  So an operation with
pins is the operation without them (`apply_ignores_pins`).

Nothing is taken from a catalog when local files are installed, and then no pin is broken.
Otherwise the pins hold of a run when what the downloader chooses on its own happens to meet them,
which it need not do for any list of packages (`pins_hold_iff`).
-/
import Logosctl.PackageOps.Planned

namespace Logosctl.PackageOps

open Library

/-! ## 1. Pins -/

/-- A release: what sets it apart, its catalog by address and by name. -/
structure Release where
  catalogUrl : String
  catalogName : String
  name : String
  version : String
  rootHash : String
  deriving DecidableEq, Repr

/-- The release is one the pins allow. -/
def Release.Meets (rel : Release) (opts : Options) : Prop :=
  (opts.catalog ≠ "" → opts.catalog = rel.catalogUrl ∨ opts.catalog = rel.catalogName) ∧
    (opts.rootHash ≠ "" → rel.rootHash = opts.rootHash)

instance (rel : Release) (opts : Options) : Decidable (rel.Meets opts) :=
  inferInstanceAs (Decidable (_ ∧ _))

/-- The options without their pins. -/
def Options.unpinned (opts : Options) : Options := { opts with catalog := "", rootHash := "" }

/-- The plan proposes to put package `n` in place for its own sake. -/
def Report.ProposesTopLevel (p : Report) (n : String) : Prop :=
  ∃ c ∈ p.changes, c.name = n ∧ ∃ repository, c.origin = .catalog repository true

/-- The pins hold of a run: a file that it installs, of a package that its plan proposes as
top-level, is of a release that the pins allow.  `releaseOf` says what release a file is of; a run
that installs nothing, as one that fails before its installs, breaks no pin. -/
def PinsHold (env : Env) (releaseOf : String → Release) (op : Op) (names : List String)
    (opts : Options) (w : World) : Prop :=
  ∀ p w₁, (plan env op names opts).exec w = (.ok (.report p), w₁) →
    ∀ path ∈ fileInstalls w ((apply env op names opts).exec w).2,
      p.ProposesTopLevel (releaseOf path).name → (releaseOf path).Meets opts

section Pins

variable {env : Env} {op : Op} {p : Report} {names : List String} {opts : Options} {w w₁ : World}
  {releaseOf : String → Release}

/-! ## 2. Nothing is done with the pins -/

/-- **An operation with pins is the operation without them.** -/
theorem apply_ignores_pins : apply env op names opts = apply env op names opts.unpinned := rfl

/-! ## 3. What gets installed -/

/-- A plan of local files proposes nothing as top-level. -/
theorem not_proposesTopLevel_of_local (hop : op ≠ .remove) (hlocal : opts.localFiles ≠ [])
    (h : (plan env op names opts).exec w = (.ok (.report p), w₁)) (n : String) :
    ¬ p.ProposesTopLevel n := by
  obtain ⟨installedByName, affected, -, hchanges, -⟩ := plan_planned h
  unfold planChanges at hchanges
  rw [if_neg hop, if_pos (by simpa using hlocal)] at hchanges
  rintro ⟨c, hc, -, repository, horigin⟩
  obtain ⟨f, info, hread⟩ := planLocal_eq_ok hchanges c hc
  rw [(planInspected_eq_ok hread).2.1.choose_spec] at horigin
  cases horigin

/-- **What the catalog path gets installed**: what the downloads bring, once every gate has
passed. -/
theorem fileInstalls_installAll (hlocal : opts.localFiles = []) :
    fileInstalls w ((installAll env op p names opts).exec w).2 =
      if confirmedNames env w.calls names = names then
        installedPaths env (w.calls + 3 * names.length + 2)
          (downloads env opts (w.calls + 3 * names.length))
      else [] := by
  have hgates := (@does_passGates env op p (dumpChanges env p) names w).1
  have hnone : ∀ w', Performs env (passFootprint p.affectedLoaded).Allows w w' →
      fileInstalls w w' = [] := fun w' => fileInstalls_of_footprint (by simp [passFootprint])
  unfold installAll
  rw [hlocal, if_neg (by simp)]
  split
  · next hall =>
    obtain ⟨t, hrun, hcalls⟩ := @passGates_of_passes env op w p (dumpChanges env p) names hall
    rw [hrun] at hgates
    rw [Prog.exec_bind_of_ok hrun,
      fileInstalls_trans hgates (@does_downloadAndInstall env p names opts t).1, hnone _ hgates,
      fileInstalls_downloadAndInstall, hcalls, List.nil_append]
  · next hall =>
    obtain ⟨e, t, hrun⟩ := @passGates_of_not_passes env op w p (dumpChanges env p) names hall
    rw [hrun] at hgates
    rw [Prog.exec_bind_of_error hrun, hnone _ hgates]

/-- Planning installs nothing, and neither does what follows the installs. -/
theorem fileInstalls_apply (hop : op ≠ .remove)
    (hplan : (plan env op names opts).exec w = (.ok (.report p), w₁)) :
    fileInstalls w ((apply env op names opts).exec w).2 =
      fileInstalls w₁ ((installAll env op p names opts).exec w₁).2 := by
  have hpart₁ := (does_plan op names opts).of_exec hplan
  have hpart₂ := (@does_installAll env op p names opts w₁).1
  have hpart₃ := performs_rest hop hplan
  rw [fileInstalls_trans hpart₁ (hpart₂.any.trans hpart₃.any), fileInstalls_trans hpart₂ hpart₃,
    fileInstalls_of_footprint (F := planFootprint) (by decide) hpart₁,
    fileInstalls_of_footprint (F := ⟨[], [], p.affectedLoaded⟩) (by simp) hpart₃,
    List.nil_append, List.append_nil]

end Pins

/-! ## 4. Which plans come about -/

/-- A plan acts on the entry: on any, or with dependencies left out on what is marked as
top-level. -/
def ActedOn (opts : Options) (e : Json) : Prop :=
  opts.withDeps = true ∨ e.valueBool "topLevel" false = .ok true

/-- The replies let a plan from the catalog come about, when asking for the installed packages is
the `c`-th call: the resolver answers with a list, what is sent to it and read of its answer can
be read, and it could resolve every package that the plan acts on. -/
structure Plannable (env : Env) (opts : Options) (c : Nat) : Prop where
  answered : ∃ es, (env.reply (c + 1)).json = .arr es
  sent : opts.withDeps = true → ∃ j, installedPackagesJson (env.reply c).json.elems = .ok j
  marked : opts.withDeps = false →
    ∀ e ∈ resolverAnswer env c, ∃ b, e.valueBool "topLevel" false = .ok b
  resolved : ∃ installedByName, byName (env.reply c).json.elems = .ok installedByName ∧
    ∀ e ∈ resolverAnswer env c, ActedOn opts e →
      ∃ change, planEntry installedByName e = .ok (.ok change)

/-- The resolver names package `n` as one asked for. -/
def AskedFor (env : Env) (c : Nat) (n : String) : Prop :=
  ∃ e ∈ resolverAnswer env c, Names n e ∧ e.valueBool "topLevel" false = .ok true

section Plannable

variable {env : Env} {op : Op} {p : Report} {names : List String} {opts : Options} {w w₁ : World}
  {installed es : List Json} {installedByName : List (String × InstalledInfo)} {n : String}

/-- A filter comes to an end when its test does so on every element. -/
theorem filterM_ok_iff {f : Json → Except TypeError Bool} :
    (∃ kept, es.filterM f = .ok kept) ↔ ∀ e ∈ es, ∃ b, f e = .ok b := by
  have haux : ∀ acc, (∃ out, List.filterAuxM f es acc = .ok out) ↔
      ∀ e ∈ es, ∃ b, f e = .ok b := by
    induction es with
    | nil => exact fun acc => iff_of_true ⟨acc, rfl⟩ (by simp)
    | cons e es ih =>
      intro acc
      rw [List.forall_mem_cons]
      constructor
      · rintro ⟨out, hout⟩
        obtain ⟨b, hb, hout⟩ := except_bind_eq_ok.mp hout
        exact ⟨⟨b, hb⟩, (ih _).mp ⟨out, hout⟩⟩
      · rintro ⟨⟨b, hb⟩, hrest⟩
        obtain ⟨out, hout⟩ := (ih (cond b (e :: acc) acc)).mpr hrest
        exact ⟨out, except_bind_eq_ok.mpr ⟨b, hb, hout⟩⟩
  rw [← haux []]
  constructor
  · rintro ⟨kept, hkept⟩
    obtain ⟨out, hout, -⟩ := except_bind_eq_ok.mp hkept
    exact ⟨out, hout⟩
  · rintro ⟨out, hout⟩
    exact ⟨out.reverse, except_bind_eq_ok.mpr ⟨out, hout, rfl⟩⟩

/-- The changes can be planned when each of them can. -/
theorem planResolved_ok_iff :
    (∃ r w', (planResolved installedByName es).exec w = (.ok r, w')) ↔
      ∀ e ∈ es, ∃ change, planEntry installedByName e = .ok (.ok change) := by
  induction es with
  | nil => exact iff_of_true ⟨_, _, rfl⟩ (by simp)
  | cons e es ih =>
    rw [List.forall_mem_cons, ← ih]
    constructor
    · rintro ⟨r, w', h⟩
      obtain ⟨entry, t, hentry, hgo⟩ := Prog.exec_bind_eq_ok.mp h
      obtain ⟨hread, rfl⟩ := exec_read_eq_ok.mp hentry
      cases entry with
      | error message => cases hgo
      | ok change =>
        obtain ⟨rest, t', hrest, -⟩ := Prog.exec_bind_eq_ok.mp hgo
        exact ⟨⟨change, hread⟩, rest, t', hrest⟩
    · rintro ⟨⟨change, hchange⟩, rest, w', hrest⟩
      refine ⟨_, w', Prog.exec_bind_eq_ok.mpr ⟨.ok change, w, exec_read_eq_ok.mpr ⟨hchange, rfl⟩,
        Prog.exec_bind_eq_ok.mpr ⟨rest, w', hrest, rfl⟩⟩⟩

/-- The closure is resolved when the resolver answers with a list, and what is sent and what is
kept can be read. -/
theorem resolveClosure_ok_iff :
    (∃ es why w', (resolveClosure env names opts installed).exec w = (.ok (some es, why), w')) ↔
      (∃ es, (env.reply w.calls).json = .arr es) ∧
        (opts.withDeps = true → ∃ j, installedPackagesJson installed = .ok j) ∧
        (opts.withDeps = false → ∀ e ∈ (env.reply w.calls).json.elems,
          ∃ b, e.valueBool "topLevel" false = .ok b) := by
  unfold resolveClosure
  cases hdeps : opts.withDeps with
  | true =>
    simp only [Bool.not_true, Bool.false_eq_true, if_false, forall_const, Bool.true_eq_false,
      IsEmpty.forall_iff, and_true]
    constructor
    · rintro ⟨es, why, w', h⟩
      obtain ⟨skips, t, hskips, hrest⟩ := Prog.exec_bind_eq_ok.mp h
      obtain ⟨hread, rfl⟩ := exec_read_eq_ok.mp hskips
      rw [Prog.exec_bind_of_ok (exec_call _ _ _ _)] at hrest
      dsimp only at hrest
      cases hjson : (env.reply t.calls).json with
      | arr all => exact ⟨⟨all, rfl⟩, skips, hread⟩
      | _ =>
        rw [hjson] at hrest
        cases hrest
    · rintro ⟨⟨es, hjson⟩, j, hj⟩
      rw [hj, Prog.exec_bind_of_ok (p := read (.ok j)) rfl,
        Prog.exec_bind_of_ok (exec_call _ _ _ _)]
      dsimp only
      rw [hjson]
      exact ⟨_, _, _, rfl⟩
  | false =>
    simp only [Bool.not_false, if_true, forall_const, Bool.false_eq_true, IsEmpty.forall_iff,
      true_and]
    rw [← filterM_ok_iff, Prog.exec_bind_of_ok (exec_call _ _ _ _)]
    dsimp only
    constructor
    · rintro ⟨es, why, w', h⟩
      cases hjson : (env.reply w.calls).json with
      | arr all =>
        rw [hjson] at h
        obtain ⟨kept, t, hkept, -⟩ := Prog.exec_bind_eq_ok.mp h
        exact ⟨⟨all, rfl⟩, kept, (exec_read_eq_ok.mp hkept).1⟩
      | _ =>
        rw [hjson] at h
        cases h
    · rintro ⟨⟨es, hjson⟩, kept, hkept⟩
      rw [hjson] at hkept ⊢
      dsimp only [Json.elems] at hkept ⊢
      rw [hkept, Prog.exec_bind_of_ok (p := read (.ok kept)) rfl]
      exact ⟨_, _, _, rfl⟩

/-- **A plan from the catalog comes about exactly when the replies let it.** -/
theorem plan_ok_iff (hop : op ≠ .remove) (hlocal : opts.localFiles = []) :
    (∃ p w₁, (plan env op names opts).exec w = (.ok (.report p), w₁)) ↔
      Plannable env opts w.calls := by
  let w₂ := w.after env (.call kPackageManager "getInstalledPackages" [])
  have hcalls : w₂.calls = w.calls + 1 := rfl
  constructor
  · rintro ⟨p, w₁, h⟩
    obtain ⟨installedByName, affected, hbyName, hchanges, -⟩ := plan_planned h
    unfold planChanges at hchanges
    rw [if_neg hop, hlocal] at hchanges
    obtain ⟨⟨resolved, why⟩, t, hresolve, hchanges⟩ := Prog.exec_bind_eq_ok.mp hchanges
    cases resolved with
    | none => cases hchanges
    | some es =>
      obtain ⟨hanswered, hsent, hmarked⟩ := resolveClosure_ok_iff.mp ⟨es, why, t, hresolve⟩
      have hmem := (resolveClosure_eq_ok hresolve).2
      refine ⟨hanswered, hsent, hmarked, installedByName, hbyName, fun e he hacted => ?_⟩
      exact planResolved_ok_iff.mp ⟨_, _, hchanges⟩ e ((hmem e).mpr ⟨he, hacted⟩)
  · rintro ⟨hanswered, hsent, hmarked, installedByName, hbyName, hresolved⟩
    obtain ⟨es, why, t, hresolve⟩ := (@resolveClosure_ok_iff env names opts w₂
      (env.reply w.calls).json.elems).mpr ⟨hanswered, hsent, hmarked⟩
    have hmem := (resolveClosure_eq_ok hresolve).2
    obtain ⟨⟨changes, affected⟩, t', hplanned⟩ :=
      (@planResolved_ok_iff t es installedByName).mpr fun e he =>
        hresolved e ((hmem e).mp he).1 ((hmem e).mp he).2
    have hchanges : (planChanges env op names opts (env.reply w.calls).json.elems
        installedByName).exec w₂ = (.ok (changes, affected), t') := by
      unfold planChanges
      rw [if_neg hop, hlocal, if_neg (by simp), Prog.exec_bind_of_ok hresolve]
      exact hplanned
    refine ⟨{ op, changes, affectedLoaded := affectedLoaded t'.loaded affected }, t',
      exec_catchReturn_eq_ok.mpr (Or.inl ?_)⟩
    unfold planBody
    rw [Prog.exec_bind_of_ok (exec_installedPackages w), hbyName,
      Prog.exec_bind_of_ok (p := read (.ok _)) rfl, Prog.exec_bind_of_ok hchanges]
    rfl

/-- An entry's change is top-level as the entry is marked. -/
theorem origin_of_planEntry {e : Json} {c : Change}
    (h : planEntry installedByName e = .ok (.ok c)) :
    ∃ repository b, c.origin = .catalog repository b ∧ e.valueBool "topLevel" false = .ok b := by
  unfold planEntry at h
  split at h
  · obtain ⟨name, -, h⟩ := except_bind_eq_ok.mp h
    obtain ⟨error, -, h⟩ := except_bind_eq_ok.mp h
    cases h
  · obtain ⟨name, -, h⟩ := except_bind_eq_ok.mp h
    obtain ⟨version, -, h⟩ := except_bind_eq_ok.mp h
    obtain ⟨hash, -, h⟩ := except_bind_eq_ok.mp h
    obtain ⟨repository, -, h⟩ := except_bind_eq_ok.mp h
    obtain ⟨topLevel, htop, h⟩ := except_bind_eq_ok.mp h
    cases h
    exact ⟨repository, topLevel, rfl, htop⟩

/-- What a plan from the catalog proposes as top-level is what the resolver names as asked for. -/
theorem proposesTopLevel_iff (hop : op ≠ .remove) (hlocal : opts.localFiles = [])
    (h : (plan env op names opts).exec w = (.ok (.report p), w₁)) :
    p.ProposesTopLevel n ↔ AskedFor env w.calls n := by
  obtain ⟨installedByName, affected, hbyName, hchanges, -⟩ := plan_planned h
  unfold planChanges at hchanges
  rw [if_neg hop, hlocal] at hchanges
  obtain ⟨⟨resolved, why⟩, t, hresolve, hchanges⟩ := Prog.exec_bind_eq_ok.mp hchanges
  cases resolved with
  | none => cases hchanges
  | some es =>
    have hmem := (resolveClosure_eq_ok hresolve).2
    have hplanned := (planResolved_eq_ok hchanges).2
    constructor
    · rintro ⟨c, hc, rfl, repository, horigin⟩
      obtain ⟨e, he, hentry⟩ := (hplanned c).mp hc
      obtain ⟨repository', b, horigin', htop⟩ := origin_of_planEntry hentry
      rw [horigin] at horigin'
      cases horigin'
      exact ⟨e, ((hmem e).mp he).1, names_of_planEntry hentry, htop⟩
    · rintro ⟨e, he, hname, htop⟩
      have hacted : e ∈ es := (hmem e).mpr ⟨he, Or.inr htop⟩
      obtain ⟨c, hentry⟩ := planResolved_ok_iff.mp ⟨_, _, hchanges⟩ e hacted
      have hsame : c.name = n := Except.ok.inj ((names_of_planEntry hentry).symm.trans hname)
      obtain ⟨repository, b, horigin, htop'⟩ := origin_of_planEntry hentry
      obtain rfl := Except.ok.inj (htop.symm.trans htop')
      exact ⟨c, (hplanned c).mpr ⟨e, hacted, hentry⟩, hsame, repository, horigin⟩

end Plannable

/-! ## 5. When the pins hold -/

/-- The files that the downloader's answer gets installed, when the operation began with the
`c`-th call. -/
def handedOverPaths (env : Env) (names : List String) (opts : Options) (c : Nat) : List String :=
  installedPaths env (c + 2 + 3 * names.length + 2) (downloads env opts (c + 2 + 3 * names.length))

/-- What the replies bring meets the pins: they stop the operation before its installs, or every
file that they get installed, of a package the resolver names as asked for, is of a release that
the pins allow. -/
def RepliesMeetPins (env : Env) (releaseOf : String → Release) (names : List String)
    (opts : Options) (c : Nat) : Prop :=
  Plannable env opts c → confirmedNames env (c + 2) names = names →
    ∀ path ∈ handedOverPaths env names opts c,
      AskedFor env c (releaseOf path).name → (releaseOf path).Meets opts

/-- Of one run, the pins hold exactly when it is of local files or the replies meet them. -/
theorem pinsHold_iff_replies {env : Env} {op : Op} {releaseOf : String → Release}
    {names : List String} {opts : Options} {w : World} (hop : op ≠ .remove) :
    PinsHold env releaseOf op names opts w ↔
      opts.localFiles ≠ [] ∨ RepliesMeetPins env releaseOf names opts w.calls := by
  by_cases hlocal : opts.localFiles = []
  · rw [or_iff_right fun h => h hlocal]
    have hfiles : ∀ p w₁, (plan env op names opts).exec w = (.ok (.report p), w₁) →
        fileInstalls w ((apply env op names opts).exec w).2 =
          if confirmedNames env (w.calls + 2) names = names then
            handedOverPaths env names opts w.calls else [] := by
      intro p w₁ hplan
      rw [fileInstalls_apply hop hplan, fileInstalls_installAll hlocal,
        (planned_of_catalog hop hlocal hplan).1]
      rfl
    constructor
    · intro hpins hplannable hall path hpath hasked
      obtain ⟨p, w₁, hplan⟩ := (@plan_ok_iff env op names opts w hop hlocal).mpr hplannable
      refine hpins p w₁ hplan path ?_ ((proposesTopLevel_iff hop hlocal hplan).mpr hasked)
      rw [hfiles p w₁ hplan, if_pos hall]
      exact hpath
    · intro hmeets p w₁ hplan path hpath htop
      rw [hfiles p w₁ hplan] at hpath
      split at hpath
      · next hall =>
        exact hmeets ((plan_ok_iff hop hlocal).mp ⟨p, w₁, hplan⟩) hall path hpath
          ((proposesTopLevel_iff hop hlocal hplan).mp htop)
      · exact absurd hpath List.not_mem_nil
  · refine iff_of_true ?_ (Or.inl hlocal)
    intro p w₁ hplan path _ htop
    exact absurd htop (not_proposesTopLevel_of_local hop hlocal hplan _)

/-- The gates of accepted replies all pass. -/
theorem confirmedNames_of_accepted {env : Env} {names : List String} {c : Nat}
    (h : ∀ i < 3 * names.length, accepted (env.reply (c + i)) = true) :
    confirmedNames env c names = names := by
  induction names generalizing c with
  | nil => rfl
  | cons name names ih =>
    rw [List.length_cons] at h
    have hpass : gatePasses env c = true := by
      have h₀ := h 0 (by omega)
      have h₁ := h 1 (by omega)
      have h₂ := h 2 (by omega)
      rw [gatePasses, gateOpens, h₁, h₂, ← Nat.add_zero c, h₀]
      rfl
    have hrest : confirmedNames env (c + 3) names = names := by
      refine ih fun i hi => ?_
      rw [Nat.add_assoc]
      exact h (3 + i) (by omega)
    rw [confirmedNames, if_pos hpass, hrest]

section Rival

variable (opts : Options) (n : String)

/-- A release of package `n` that the pins do not allow. -/
def rivalRelease : Release where
  catalogUrl := opts.catalog ++ "x"
  catalogName := opts.catalog ++ "x"
  name := n
  version := opts.version
  rootHash := opts.rootHash ++ "x"

/-- Nothing is installed; the resolver finds package `n` in the version asked for, and the
downloader hands over a file of it; every gate passes. -/
def rivalReply (gates c : Nat) : Json :=
  if c = 1 then
    .arr [.obj [("name", .str n), ("topLevel", .bool true), ("version", .str opts.version)]]
  else if c = 2 + 3 * gates + 1 then
    .arr [.obj [("name", .str n), ("path", .str "rival.lgx")]]
  else .obj [("success", .bool true)]

/-- The modules answer so. -/
def rivalEnv (gates : Nat) : Env :=
  { graphEnv [] [] with reply := fun c => .ok (rivalReply opts n gates c) }

variable {opts n}

theorem not_meets_rivalRelease (hpinned : opts.catalog ≠ "" ∨ opts.rootHash ≠ "") :
    ¬ (rivalRelease opts n).Meets opts := by
  have hne : ∀ s : String, s ≠ s ++ "x" := by
    intro s h
    have hlength := congrArg String.length h
    rw [String.length_append] at hlength
    exact absurd hlength (Nat.ne_of_lt (Nat.lt_add_of_pos_right (by decide)))
  rintro ⟨hcatalog, hhash⟩
  rcases hpinned with h | h
  · exact (hcatalog h).elim (hne _) (hne _)
  · exact hne _ (hhash h).symm

variable {gates : Nat}

theorem reply_rivalEnv {c : Nat} (hresolve : c ≠ 1) (hdownload : c ≠ 2 + 3 * gates + 1) :
    (rivalEnv opts n gates).reply c = .ok (.obj [("success", .bool true)]) := by
  have hreply : (rivalEnv opts n gates).reply c = .ok (rivalReply opts n gates c) := rfl
  rw [hreply, rivalReply, if_neg hresolve, if_neg hdownload]

theorem askedFor_rival : AskedFor (rivalEnv opts n gates) 0 n :=
  ⟨_, List.mem_singleton_self _, rfl, rfl⟩

theorem plannable_rival : Plannable (rivalEnv opts n gates) opts 0 := by
  have hinstalled : ((rivalEnv opts n gates).reply 0).json.elems = [] := by
    rw [reply_rivalEnv (by omega) (by omega)]
    rfl
  refine ⟨⟨_, rfl⟩, fun _ => ⟨_, by rw [hinstalled]; rfl⟩, fun _ e he => ?_, [],
    by rw [hinstalled]; rfl, fun e he _ => ?_⟩
  · obtain rfl := List.mem_singleton.mp he
    exact ⟨true, rfl⟩
  · obtain rfl := List.mem_singleton.mp he
    exact ⟨_, rfl⟩

theorem confirmedNames_rival {names : List String} (hlength : names.length = gates) :
    confirmedNames (rivalEnv opts n gates) 2 names = names := by
  refine confirmedNames_of_accepted fun i hi => ?_
  rw [reply_rivalEnv (by omega) (by omega)]
  rfl

theorem handedOver_rival {names : List String} (hlength : names.length = gates) :
    "rival.lgx" ∈ handedOverPaths (rivalEnv opts n gates) names opts 0 := by
  have hinstalled : ((rivalEnv opts n gates).reply (2 + 3 * gates)).json.elems = [] := by
    rw [reply_rivalEnv (by omega) (by omega)]
    rfl
  have hdownloads : downloads (rivalEnv opts n gates) opts (2 + 3 * gates) =
      [.obj [("name", .str n), ("path", .str "rival.lgx")]] := by
    have hjson : ((rivalEnv opts n gates).reply (2 + 3 * gates + 1)).json =
        rivalReply opts n gates (2 + 3 * gates + 1) := rfl
    rw [rivalReply, if_neg (by omega), if_pos rfl] at hjson
    unfold downloads downloadSkips
    rw [hinstalled, hjson]
    cases opts.withDeps <;> rfl
  unfold handedOverPaths
  rw [Nat.zero_add, hlength, hdownloads]
  unfold installedPaths
  rw [reply_rivalEnv (by omega) (by omega)]
  exact List.mem_cons_self

end Rival

/-- **When the pins hold.**  Whatever the catalogs hold and the downloader hands over, an install
or upgrade of pinned packages keeps to the pins exactly when it is of local files, or of no
packages at all; and one run does exactly when it is of local files, or its replies happen to meet
them. -/
theorem pins_hold_iff {op : Op} {names : List String} {opts : Options} (hop : op ≠ .remove)
    (hpinned : opts.catalog ≠ "" ∨ opts.rootHash ≠ "") :
    ((∀ env releaseOf w, MarksNamed env names w.calls →
        PinsHold env releaseOf op names opts w) ↔ opts.localFiles ≠ [] ∨ names = []) ∧
      ∀ env releaseOf w, PinsHold env releaseOf op names opts w ↔
        opts.localFiles ≠ [] ∨ RepliesMeetPins env releaseOf names opts w.calls := by
  refine ⟨⟨?_, ?_⟩, fun env releaseOf w => pinsHold_iff_replies hop⟩
  · intro hpins
    by_contra hcontra
    obtain ⟨hcatalog, hnames⟩ := not_or.mp hcontra
    have hlocal := not_not.mp hcatalog
    obtain ⟨n, hn⟩ := List.exists_mem_of_ne_nil names hnames
    have hmarks : MarksNamed (rivalEnv opts n names.length) names 0 := by
      intro e he _ m hm
      obtain rfl := List.mem_singleton.mp he
      cases hm
      exact hn
    have hrun := hpins (rivalEnv opts n names.length) (fun _ => rivalRelease opts n) ⟨[], 0, []⟩
      hmarks
    rcases (pinsHold_iff_replies hop).mp hrun with h | hmeets
    · exact h hlocal
    · exact not_meets_rivalRelease hpinned (hmeets plannable_rival (confirmedNames_rival rfl) _
        (handedOver_rival rfl) askedFor_rival)
  · rintro (hlocal | rfl) env releaseOf w hmarks
    · exact (pinsHold_iff_replies hop).mpr (Or.inl hlocal)
    · refine (pinsHold_iff_replies hop).mpr (Or.inr fun _ _ path _ => ?_)
      rintro ⟨e, he, hname, htop⟩
      exact absurd (hmarks e he htop _ hname) List.not_mem_nil

/-- Two releases of `app` that share a version, in two catalogs. -/
def releaseIn (catalogUrl rootHash : String) : Release :=
  ⟨catalogUrl, "", "app", "1.0", rootHash⟩

/-- The options that pin the release of the catalog at `a`. -/
def pinned : Options := { catalog := "https://a", rootHash := "aa" }

/-- **A pin does not bind.**  `app` is to be installed from the catalog at `a` and with root hash
`aa`; the downloader, which is told neither, hands over the release of another catalog with
another root hash; it is installed, and the operation reports success. -/
theorem other_release_installed :
    let env := graphEnv [] (installReplies [entry "app" true] [fileOf "app"])
    ((apply env .install ["app"] pinned).exec ⟨[], 0, []⟩).1 =
        .ok (.report (appInstalled ["app"])) ∧
      fileInstalls ⟨[], 0, []⟩ ((apply env .install ["app"] pinned).exec ⟨[], 0, []⟩).2 = ["app"] ∧
      ¬ PinsHold env (fun _ => releaseIn "https://b" "bb") .install ["app"] pinned ⟨[], 0, []⟩ := by
  have hplan : ((plan (graphEnv [] (installReplies [entry "app" true] [fileOf "app"])) .install
      ["app"] pinned).exec ⟨[], 0, []⟩).1 =
      .ok (.report { appInstalled [] with installed := none, reloaded := none }) := by
    decide +kernel
  have hfiles : fileInstalls ⟨[], 0, []⟩ ((apply (graphEnv [] (installReplies [entry "app" true]
      [fileOf "app"])) .install ["app"] pinned).exec ⟨[], 0, []⟩).2 = ["app"] := by
    decide +kernel
  refine ⟨by decide +kernel, hfiles, ?_⟩
  intro hpins
  have hmeets := hpins _ _ (Prod.ext hplan rfl) "app" (by rw [hfiles]; decide)
    ⟨_, List.mem_singleton_self _, rfl, "", rfl⟩
  exact absurd hmeets (by decide)

/-- Local files are installed as they are, and the same install keeps to its pins when the
downloader happens to choose the release pinned. -/
theorem pinned_release_installed :
    (∀ env releaseOf w, MarksNamed env ["app"] w.calls →
      PinsHold env releaseOf .install ["app"] { pinned with localFiles := ["app.lgx"] } w) ∧
    PinsHold (graphEnv [] (installReplies [entry "app" true] [fileOf "app"]))
      (fun _ => releaseIn "https://a" "aa") .install ["app"] pinned ⟨[], 0, []⟩ := by
  have hmeets : (releaseIn "https://a" "aa").Meets pinned := by decide
  exact ⟨(pins_hold_iff (by decide) (by decide)).1.mpr (Or.inl (by decide)),
    ((pins_hold_iff (by decide) (by decide)).2 _ _ _).mpr (Or.inr fun _ _ _ _ _ => hmeets)⟩

end Logosctl.PackageOps
