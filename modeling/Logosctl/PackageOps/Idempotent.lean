/-
# Planning what is already there

A plan compares what the resolver answers with what is installed, package by package, and when
every package is already there as resolved it should come out empty: no change, nothing to stop,
"Nothing to do".  The comparison keeps no record of whether a package was found: one that is not
installed has the empty version.  A package that is installed without a version is then planned to
be installed again, every time.

`planning_idempotent_iff` says when the plan does come out empty.
-/
import Mathlib.Data.List.Forall2
import Logosctl.PackageOps.Planned

namespace Logosctl.PackageOps

open Library

/-! ## 1. Two lists of packages -/

/-- A package of the resolver's answer. -/
structure Resolved where
  name : String
  version : String
  rootHash : String
  repository : String
  topLevel : Bool

/-- The entry stands for the package; what it leaves out is empty. -/
structure Presents (e : Json) (s : Resolved) : Prop where
  satisfiable : e.contains "error" = false
  name : e.valueStr "name" = .ok s.name
  version : e.valueStr "version" = .ok s.version
  rootHash : e.valueStr "rootHash" = .ok s.rootHash
  repository : e.valueStr "repositoryUrl" = .ok s.repository
  topLevel : e.valueBool "topLevel" false = .ok s.topLevel

/-- The entry of the installed list stands for the package of this name. -/
structure Describes (p : Json) (entry : String × InstalledInfo) : Prop where
  name : p.valueStr "name" = .ok entry.1
  version : p.valueStr "version" = .ok entry.2.version
  rootHash : rootHashOf p = .ok entry.2.rootHash

/-- The change that a package of the answer makes. -/
def changeOf (installedByName : List (String × InstalledInfo)) (s : Resolved) : Change :=
  let info := (installedByName.lookup s.name).getD ⟨"", ""⟩
  ⟨s.name, depAction info.version s.version info.rootHash s.rootHash, info.version, s.version,
    .catalog s.repository s.topLevel⟩

/-- The packages of the answer that are acted on. -/
def actedOn (opts : Options) (resolved : List Resolved) : List Resolved :=
  if opts.withDeps then resolved else resolved.filter (·.topLevel)

/-- `anyChange` of `package install`, negated: what the client answers with "Nothing to do". -/
def nothingToDo (r : Report) : Bool :=
  !r.changes.any fun c => c.action.name != "installed"

/-- The plan comes out empty: every package is marked as installed, nothing is to be stopped, and
the client has nothing to do. -/
def PlansNothing (env : Env) (op : Op) (names : List String) (opts : Options) (w : World) : Prop :=
  ∃ p w', (plan env op names opts).exec w = (.ok (.report p), w') ∧
    (∀ c ∈ p.changes, c.action = .installed) ∧ p.affectedLoaded = [] ∧ nothingToDo p = true

/-- The package has a version, and the last installed entry of its name is that version, its root
hash not another one. -/
def InPlace (packages : List (String × InstalledInfo)) (s : Resolved) : Prop :=
  s.version ≠ "" ∧ ∀ info, packages.reverse.lookup s.name = some info →
    info.version = s.version ∧
      (s.rootHash = "" ∨ info.rootHash = "" ∨ info.rootHash = s.rootHash)

section Idempotent

variable {env : Env} {op : Op} {names : List String} {opts : Options} {w : World}
  {es : List Json} {resolved : List Resolved} {packages : List (String × InstalledInfo)}

/-! ## 2. Reading them -/

/-- The installed packages by name, the last entry of a name first. -/
theorem byName_of_describes {installed : List Json}
    (h : List.Forall₂ Describes installed packages) : byName installed = .ok packages.reverse := by
  have hfold : ∀ acc, installed.foldlM (fun m p => do
      let version ← p.valueStr "version"
      let rootHash ← rootHashOf p
      let name ← p.valueStr "name"
      return (name, ⟨version, rootHash⟩) :: m) acc =
      (.ok (packages.reverse ++ acc) : Except TypeError (List (String × InstalledInfo))) := by
    induction h with
    | nil => exact fun acc => rfl
    | @cons p entry ps entries hp _ ih =>
      intro acc
      rw [List.foldlM_cons, hp.version, hp.rootHash, hp.name, List.reverse_cons, List.append_assoc]
      exact ih (entry :: acc)
  exact (hfold []).trans (by rw [List.append_nil])

/-- They can be told to the resolver. -/
theorem installedPackagesJson_of_describes {installed : List Json}
    (h : List.Forall₂ Describes installed packages) :
    ∃ j, installedPackagesJson installed = .ok j := by
  have hmap : ∃ out, installed.mapM (fun p => do
      let name ← p.valueStr "name"
      let version ← p.valueStr "version"
      let rootHash ← rootHashOf p
      return Json.obj [("name", .str name), ("rootHash", .str rootHash),
        ("version", .str version)]) = (.ok out : Except TypeError (List Json)) := by
    induction h with
    | nil => exact ⟨[], rfl⟩
    | @cons p entry ps entries hp _ ih =>
      obtain ⟨out, hout⟩ := ih
      exact ⟨_, by rw [List.mapM_cons, hp.version, hp.rootHash, hp.name, hout]; rfl⟩
  obtain ⟨out, hout⟩ := hmap
  exact ⟨.arr out, by rw [installedPackagesJson, hout]; rfl⟩

theorem planEntry_of_presents {installedByName : List (String × InstalledInfo)} {e : Json}
    {s : Resolved} (h : Presents e s) :
    planEntry installedByName e = .ok (.ok (changeOf installedByName s)) := by
  unfold planEntry
  rw [h.satisfiable, h.name, h.version, h.rootHash, h.repository, h.topLevel]
  rfl

/-- The changes of an answer, and the packages that are not in place. -/
theorem planResolved_of_presents {installedByName : List (String × InstalledInfo)}
    (h : List.Forall₂ Presents es resolved) (w : World) :
    (planResolved installedByName es).exec w = (.ok (resolved.map (changeOf installedByName),
      ((resolved.map (changeOf installedByName)).filter (·.action ≠ .installed)).map (·.name)),
        w) := by
  induction h with
  | nil => rfl
  | @cons e s es resolved he _ ih =>
    unfold planResolved
    rw [planEntry_of_presents he, Prog.exec_bind_of_ok (p := read (.ok _)) rfl]
    dsimp only
    rw [Prog.exec_bind_of_ok ih, List.map_cons, List.filter_cons]
    by_cases hin : (changeOf installedByName s).action = .installed
    · simp [hin]
    · simp [hin]

/-- Of the answer only what was asked for is left, if dependencies are left out. -/
theorem filterM_topLevel (h : List.Forall₂ Presents es resolved) :
    ∃ kept, es.filterM (fun e => e.valueBool "topLevel" false) = .ok kept ∧
      List.Forall₂ Presents kept (resolved.filter (·.topLevel)) := by
  have haux : ∀ acc, ∃ kept,
      List.filterAuxM (fun e : Json => e.valueBool "topLevel" false) es acc =
        .ok (kept.reverse ++ acc) ∧ List.Forall₂ Presents kept (resolved.filter (·.topLevel)) := by
    induction h with
    | nil => exact fun acc => ⟨[], rfl, .nil⟩
    | @cons e s es resolved he _ ih =>
      intro acc
      have hstep : List.filterAuxM (fun e : Json => e.valueBool "topLevel" false) (e :: es) acc =
          List.filterAuxM (fun e : Json => e.valueBool "topLevel" false) es
            (cond s.topLevel (e :: acc) acc) := by
        rw [List.filterAuxM, he.topLevel]
        rfl
      rw [hstep, List.filter_cons]
      cases htop : s.topLevel with
      | true =>
        obtain ⟨kept, hkept, hall⟩ := ih (e :: acc)
        exact ⟨e :: kept, by rw [cond_true, hkept, List.reverse_cons, List.append_assoc]; rfl,
          .cons he hall⟩
      | false =>
        obtain ⟨kept, hkept, hall⟩ := ih acc
        exact ⟨kept, hkept, hall⟩
  obtain ⟨kept, hkept, hall⟩ := haux []
  refine ⟨kept, ?_, hall⟩
  rw [List.filterM, hkept, List.append_nil]
  exact congrArg Except.ok (List.reverse_reverse kept)

/-! ## 3. The plan -/

/-- The resolver is asked, and its answer is cut down to what is acted on. -/
theorem exec_resolveClosure {installed : List Json}
    (hinstalled : List.Forall₂ Describes installed packages)
    (hanswer : (env.reply w.calls).json = .arr es)
    (hresolved : List.Forall₂ Presents es resolved) :
    ∃ acted arg, List.Forall₂ Presents acted (actedOn opts resolved) ∧
      (resolveClosure env names opts installed).exec w =
        (.ok (some acted, (env.reply w.calls).why),
          w.after env (.call kPackageDownloader "resolveDependencies"
            [.str (env.dump (dependenciesJson names opts)), .str arg])) := by
  unfold resolveClosure actedOn
  cases opts.withDeps with
  | true =>
    obtain ⟨skips, hskips⟩ := installedPackagesJson_of_describes hinstalled
    refine ⟨es, env.dump skips, hresolved, ?_⟩
    simp only [Bool.not_true, Bool.false_eq_true, if_false, hskips]
    rw [Prog.exec_bind_of_ok (p := read (.ok skips)) rfl, Prog.exec_bind_of_ok (exec_call _ _ _ _)]
    dsimp only
    rw [hanswer]
    rfl
  | false =>
    obtain ⟨kept, hkept, hall⟩ := filterM_topLevel hresolved
    refine ⟨kept, "", hall, ?_⟩
    simp only [Bool.not_false, if_true]
    rw [Prog.exec_bind_of_ok (exec_call _ _ _ _)]
    dsimp only
    rw [hanswer]
    dsimp only
    rw [hkept, Prog.exec_bind_of_ok (p := read (.ok kept)) rfl]
    rfl

/-- What is planned, when the answer and the installed list are lists of packages. -/
theorem exec_plan_of_presents (hop : op ≠ .remove) (hlocal : opts.localFiles = [])
    (hinstalled : List.Forall₂ Describes (env.reply w.calls).json.elems packages)
    (hanswer : (env.reply (w.calls + 1)).json = .arr es)
    (hresolved : List.Forall₂ Presents es resolved) :
    ∃ p w', (plan env op names opts).exec w = (.ok (.report p), w') ∧
      p.changes = (actedOn opts resolved).map (changeOf packages.reverse) ∧
      p.affectedLoaded = affectedLoaded w.loaded
        ((p.changes.filter (·.action ≠ .installed)).map (·.name)) := by
  obtain ⟨acted, arg, hacted, hrun⟩ := @exec_resolveClosure env names opts
    (w.after env (.call kPackageManager "getInstalledPackages" [])) es resolved packages _
    hinstalled hanswer hresolved
  let changes := (actedOn opts resolved).map (changeOf packages.reverse)
  let affected := (changes.filter (·.action ≠ .installed)).map (·.name)
  have hchanges : ∃ w₁, (planChanges env op names opts (env.reply w.calls).json.elems
      packages.reverse).exec (w.after env (.call kPackageManager "getInstalledPackages" [])) =
        (.ok (changes, affected), w₁) ∧ w₁.loaded = w.loaded := by
    unfold planChanges
    rw [if_neg hop, hlocal, if_neg (by simp), Prog.exec_bind_of_ok hrun]
    exact ⟨_, planResolved_of_presents hacted _, rfl⟩
  obtain ⟨w₁, hchanges, hloaded⟩ := hchanges
  refine ⟨{ op, changes, affectedLoaded := affectedLoaded w₁.loaded affected }, w₁,
    exec_catchReturn_eq_ok.mpr (Or.inl ?_), rfl, by rw [hloaded]⟩
  unfold planBody
  rw [Prog.exec_bind_of_ok (exec_installedPackages w), byName_of_describes hinstalled,
    Prog.exec_bind_of_ok (p := read (.ok _)) rfl, Prog.exec_bind_of_ok hchanges]
  rfl

/-- A package that is among the installed ones is found by its name. -/
theorem exists_lookup_of_mem {n : String} {info : InstalledInfo} (h : (n, info) ∈ packages) :
    ∃ last, packages.reverse.lookup n = some last := by
  have hmem : (n, info) ∈ packages.reverse := List.mem_reverse.mpr h
  cases hlookup : packages.reverse.lookup n with
  | some last => exact ⟨last, rfl⟩
  | none =>
    have hne := List.lookup_eq_none_iff.mp hlookup _ hmem
    simp at hne

/-- What is left alone: a version that is there, and not with another root hash. -/
theorem depAction_eq_installed_iff {iv rv ih rh : String} : depAction iv rv ih rh = .installed ↔
    iv ≠ "" ∧ iv = rv ∧ (rh = "" ∨ ih = "" ∨ ih = rh) := by
  unfold depAction
  by_cases hempty : iv = ""
  · simp [hempty]
  · by_cases hversion : iv = rv
    · by_cases hother : ¬ rh.isEmpty ∧ ¬ ih.isEmpty ∧ ih ≠ rh
      · rw [if_neg (by simpa using hempty), if_neg (not_not.mpr hversion), if_pos hother]
        simp only [String.isEmpty_iff] at hother
        simp [hother]
      · rw [if_neg (by simpa using hempty), if_neg (not_not.mpr hversion), if_neg hother]
        simp only [String.isEmpty_iff, not_and_or, not_not] at hother
        exact iff_of_true rfl ⟨hempty, hversion, hother⟩
    · simp [hempty, hversion]

/-- A package that is installed as it was resolved is left alone exactly when it is in place. -/
theorem changeOf_installed_iff {s : Resolved}
    (hmem : (s.name, ⟨s.version, s.rootHash⟩) ∈ packages) :
    (changeOf packages.reverse s).action = .installed ↔ InPlace packages s := by
  obtain ⟨info, hinfo⟩ := exists_lookup_of_mem hmem
  unfold changeOf InPlace
  rw [hinfo]
  simp only [Option.getD_some, Option.some.injEq, forall_eq', depAction_eq_installed_iff]
  constructor
  · rintro ⟨hversion, hsame, hhash⟩
    exact ⟨hsame ▸ hversion, hsame, hhash⟩
  · rintro ⟨hversion, hsame, hhash⟩
    exact ⟨hsame ▸ hversion, hsame, hhash⟩

/-- **When the plan comes out empty.**  What is resolved being all installed as it was resolved, the
plan is empty exactly when each package has a version and is, of the installed entries of its name,
the last or like the last. -/
theorem planning_idempotent_iff (hop : op ≠ .remove) (hlocal : opts.localFiles = [])
    (hinstalled : List.Forall₂ Describes (env.reply w.calls).json.elems packages)
    (hanswer : (env.reply (w.calls + 1)).json = .arr es)
    (hresolved : List.Forall₂ Presents es resolved)
    (hsame : ∀ s ∈ resolved, (s.name, ⟨s.version, s.rootHash⟩) ∈ packages) :
    PlansNothing env op names opts w ↔ ∀ s ∈ actedOn opts resolved, InPlace packages s := by
  obtain ⟨p, w', hplan, hchanges, haffected⟩ :=
    @exec_plan_of_presents env op names opts w es resolved packages hop hlocal hinstalled hanswer
      hresolved
  have hacted : ∀ s ∈ actedOn opts resolved, (s.name, ⟨s.version, s.rootHash⟩) ∈ packages := by
    intro s hs
    unfold actedOn at hs
    split at hs
    · exact hsame s hs
    · exact hsame s (List.mem_filter.mp hs).1
  have hall : (∀ c ∈ p.changes, c.action = .installed) ↔
      ∀ s ∈ actedOn opts resolved, InPlace packages s := by
    rw [hchanges, List.forall_mem_map]
    exact forall₂_congr fun s hs => changeOf_installed_iff (hacted s hs)
  rw [← hall]
  constructor
  · rintro ⟨q, w'', hq, hnone, -⟩
    rw [hplan] at hq
    cases hq
    exact hnone
  · intro hnone
    refine ⟨p, w', hplan, hnone, ?_, ?_⟩
    · have hempty : p.changes.filter (·.action ≠ .installed) = [] :=
        List.filter_eq_nil_iff.mpr fun c hc => by simp [hnone c hc]
      rw [haffected, hempty]
      rfl
    · have hany : (p.changes.any fun c => c.action.name != "installed") = false := by
        rw [List.any_eq_false]
        intro c hc
        rw [hnone c hc]
        decide
      rw [nothingToDo, hany]
      rfl

end Idempotent

/-- What is installed, and what the resolver answers. -/
def sameReplies (installed resolved : List Json) : List Reply :=
  [.ok (.arr installed), .ok (.arr resolved)]

/-- A package without a version, as it is installed and as it is resolved. -/
def unversioned : Json := .obj [("name", .str "tool"), ("version", .str "")]

/-- A package that is installed without a version is planned to be installed. -/
theorem unversioned_planned_again :
    ¬ PlansNothing (graphEnv [] (sameReplies [unversioned] [unversioned])) .install ["tool"] {}
      ⟨[], 0, []⟩ := by
  have hplan : ((plan (graphEnv [] (sameReplies [unversioned] [unversioned])) .install ["tool"]
      {}).exec ⟨[], 0, []⟩).1 = .ok (.report { op := .install, affectedLoaded := [], changes :=
        [Change.mk "tool" .install "" "" (.catalog "" false)] }) := by decide +kernel
  rintro ⟨p, w', hp, hnone, -⟩
  rw [hp] at hplan
  cases hplan
  exact absurd (hnone _ (List.mem_singleton_self _)) (by decide)

/-- A package of version 1.0 is not. -/
theorem versioned_in_place :
    PlansNothing (graphEnv [] (sameReplies [entry "tool" true] [entry "tool" true])) .install
      ["tool"] {} ⟨[], 0, []⟩ := by
  refine (@planning_idempotent_iff _ .install ["tool"] {} ⟨[], 0, []⟩ _
    [⟨"tool", "1.0", "", "", true⟩] [("tool", ⟨"1.0", ""⟩)] (by decide) rfl
    (.cons ⟨rfl, rfl, rfl⟩ .nil) rfl (.cons ⟨rfl, rfl, rfl, rfl, rfl, rfl⟩ .nil) ?_).mpr ?_
  · intro s hs
    obtain rfl := List.mem_singleton.mp hs
    exact List.mem_singleton_self _
  · intro s hs
    obtain rfl := List.mem_singleton.mp hs
    refine ⟨by decide, ?_⟩
    rintro info ⟨⟩
    exact ⟨rfl, Or.inl rfl⟩

end Logosctl.PackageOps
