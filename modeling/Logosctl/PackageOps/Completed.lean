/-
# When the installs of an operation complete

The installs of an install or upgrade go through when every gate passes and every file gets
installed; at the first that does not, the run ends.  `Completes` says which, by the replies, and
`installedFiles` says what has been installed by then.  A run that completes reports every file it
installed, under the name it was given for it (`installedNow_eq`).
-/
import Logosctl.PackageOps.Pins

namespace Logosctl.PackageOps

open Library

/-! ## 1. Completing, by the replies -/

/-- Every download can be read and, if there is a file, gets installed and has a name; the first
install is the `c`-th call. -/
def installsEvery (env : Env) : Nat → List Json → Bool
  | _, [] => true
  | c, d :: ds =>
    match fetchedPath d with
    | none => false
    | some path =>
      if path.isEmpty then installsEvery env c ds
      else
        installSucceeded (env.reply c) && (d.valueStr "name").isOk && installsEvery env (c + 1) ds

/-- The replies, from the `c`-th on, on which the installs of a plan go through. -/
def Completes (env : Env) (opts : Options) (p : Report) (names : List String) (c : Nat) : Prop :=
  if !opts.localFiles.isEmpty then gatedFiles env c p.changes = p.changes.map (·, true)
  else
    confirmedNames env c names = names ∧
      ∃ skips ds, downloadSkips env opts (env.reply (c + 3 * names.length)).json.elems = .ok skips ∧
        (env.reply (c + 3 * names.length + 1)).json = .arr ds ∧
        installsEvery env (c + 3 * names.length + 2) ds = true

/-- The files that the installs of a plan get installed, completed or not. -/
def installedFiles (env : Env) (opts : Options) (p : Report) (names : List String) (c : Nat) :
    List String :=
  if !opts.localFiles.isEmpty then ((gatedFiles env c p.changes).filter (·.2)).map (·.1.file)
  else if confirmedNames env c names = names then
    installedPaths env (c + 3 * names.length + 2) (downloads env opts (c + 3 * names.length))
  else []

/-- What the package manager says of a file it inspects, and the downloader of a file it hands
over, is the package in the file. -/
structure NamesFiles (pkgOf : String → String) (events : List Event) : Prop where
  inspected : ∀ file answer name,
    Event.call kPackageManager "inspectPackage" [.str file] answer ∈ events →
      answer.json.valueStr "name" = .ok name → pkgOf file = name
  handedOver : ∀ args answer,
    Event.call kPackageDownloader "downloadResolvedDependencies" args answer ∈ events →
      ∀ d ∈ answer.json.elems, ∀ path name, d.valueStr "path" = .ok path → path ≠ "" →
        d.valueStr "name" = .ok name → pkgOf path = name

theorem NamesFiles.mono {pkgOf : String → String} {events events' : List Event}
    (h : NamesFiles pkgOf events') (hsub : events ⊆ events') : NamesFiles pkgOf events where
  inspected file answer name he := h.inspected file answer name (hsub he)
  handedOver args answer he := h.handedOver args answer (hsub he)

section Completed

variable {env : Env} {op : Op} {r p : Report} {names : List String} {opts : Options}
  {w w₁ w' : World} {depChanges : String} {pkgOf : String → String}

/-! ## 2. The local path -/

/-- A list of gated files that is all of the files installed begins with its first. -/
theorem gatedFiles_cons_eq_iff {c : Nat} {change : Change} {changes : List Change} :
    gatedFiles env c (change :: changes) = (change :: changes).map (·, true) ↔
      gatePasses env c = true ∧ installSucceeded (env.reply (c + 3)) = true ∧
        gatedFiles env (c + 4) changes = changes.map (·, true) := by
  rw [gatedFiles]
  cases gatePasses env c <;> cases installSucceeded (env.reply (c + 3)) <;> simp

theorem installLocal_of_gated {changes : List Change}
    (h : gatedFiles env w.calls changes = changes.map (·, true)) :
    ∃ installedNow w', (installLocal env op r depChanges changes).exec w =
      (.ok installedNow, w') := by
  induction changes generalizing w with
  | nil => exact ⟨[], w, rfl⟩
  | cons c cs ih =>
    obtain ⟨hpass, hok, hrest⟩ := gatedFiles_cons_eq_iff.mp h
    rw [← @calls_confirmed env op r depChanges c.name w] at hok
    rw [← @calls_gatedFile env op w r depChanges c] at hrest
    obtain ⟨installedNow, w', hrun⟩ := ih hrest
    refine ⟨c.name :: installedNow, w', ?_⟩
    refine Prog.exec_bind_eq_ok.mpr ⟨_, _, passGate_of_passes hpass, ?_⟩
    refine Prog.exec_bind_eq_ok.mpr ⟨_, _, installPlugin_of_succeeded hok, ?_⟩
    exact Prog.exec_bind_eq_ok.mpr ⟨_, _, hrun, rfl⟩

theorem installLocal_of_not_gated {changes : List Change}
    (h : gatedFiles env w.calls changes ≠ changes.map (·, true)) :
    ∃ e w', (installLocal env op r depChanges changes).exec w = (.error e, w') := by
  induction changes generalizing w with
  | nil => exact absurd rfl h
  | cons c cs ih =>
    rw [Ne, gatedFiles_cons_eq_iff] at h
    cases hpass : gatePasses env w.calls with
    | false =>
      obtain ⟨e, w', hrun⟩ := @passGate_of_not_passes env op w r depChanges c.name hpass
      exact ⟨e, w', Prog.exec_bind_of_error hrun⟩
    | true =>
      unfold installLocal
      rw [Prog.exec_bind_of_ok (passGate_of_passes hpass)]
      cases hok : installSucceeded (env.reply (w.calls + 3)) with
      | false =>
        rw [← @calls_confirmed env op r depChanges c.name w] at hok
        rcases @installPlugin_of_not_succeeded env _ c.file hok with ⟨e, hrun⟩ | ⟨e, hrun⟩
        · exact ⟨failure r "install" e, _, Prog.exec_bind_of_ok hrun⟩
        · exact ⟨e, _, Prog.exec_bind_of_error hrun⟩
      | true =>
        have hrest : gatedFiles env ((confirmed env op r depChanges c.name w).after env
            (installAct c.file)).calls cs ≠ cs.map (·, true) := by
          rw [calls_gatedFile]
          exact fun hall => h ⟨hpass, hok, hall⟩
        rw [← @calls_confirmed env op r depChanges c.name w] at hok
        obtain ⟨e, w', hrun⟩ := ih hrest
        refine ⟨e, w', ?_⟩
        rw [Prog.exec_bind_of_ok (installPlugin_of_succeeded hok)]
        exact Prog.exec_bind_of_error hrun

/-- **What the local path gets installed**: the gated files whose install succeeded. -/
theorem fileInstalls_installLocal {changes : List Change} :
    fileInstalls w ((installLocal env op r depChanges changes).exec w).2 =
      ((gatedFiles env w.calls changes).filter (·.2)).map (·.1.file) := by
  have hnone : ∀ {w w'}, Performs env (op.passFootprint r.affectedLoaded).Allows w w' →
      fileInstalls w w' = [] := by
    refine fileInstalls_of_footprint ?_
    cases op <;> simp [Op.passFootprint, requestCall, cancelCall, confirmCall]
  induction changes generalizing w with
  | nil => exact fileInstalls_self
  | cons c cs ih =>
    have hgate := (@does_passGate_of_op env op r c.name depChanges w).1
    unfold gatedFiles
    cases hpass : gatePasses env w.calls with
    | false =>
      obtain ⟨e, w', hrun⟩ := @passGate_of_not_passes env op w r depChanges c.name hpass
      have hexec : (installLocal env op r depChanges (c :: cs)).exec w = (.error e, w') :=
        Prog.exec_bind_of_error hrun
      rw [hrun] at hgate
      rw [hexec, hnone hgate]
      rfl
    | true =>
      rw [passGate_of_passes hpass] at hgate
      have hact : Performs env downloadFootprint.Allows (confirmed env op r depChanges c.name w)
          ((confirmed env op r depChanges c.name w).after env (installAct c.file)) :=
        .single (by decide : _ ∈ _)
      have hfile : fileInstalls w
          ((confirmed env op r depChanges c.name w).after env (installAct c.file)) =
            if installSucceeded (env.reply (w.calls + 3)) then [c.file] else [] := by
        rw [fileInstalls_trans hgate hact, hnone hgate, fileInstalls_installAct, calls_confirmed]
        rfl
      cases hok : installSucceeded (env.reply (w.calls + 3)) with
      | false =>
        rw [installLocal_of_not_succeeded hpass hok, hfile, hok]
        rfl
      | true =>
        have hrest := (@does_installLocal env op r depChanges cs
          ((confirmed env op r depChanges c.name w).after env (installAct c.file))).1
        rw [installLocal_of_succeeded hpass hok,
          fileInstalls_trans (hgate.any.trans hact.any) hrest, hfile, hok, ih, calls_gatedFile]
        rfl

/-! ## 3. The catalog path -/

/-- What the first download asks of the others. -/
theorem installsEvery_cons_iff {c : Nat} {d : Json} {ds : List Json} :
    installsEvery env c (d :: ds) = true ↔
      ∃ path, fetchedPath d = some path ∧
        if path.isEmpty then installsEvery env c ds = true
        else installSucceeded (env.reply c) = true ∧ (∃ n, d.valueStr "name" = .ok n) ∧
          installsEvery env (c + 1) ds = true := by
  rw [installsEvery]
  cases fetchedPath d with
  | none => simp
  | some path =>
    simp only [Option.some.injEq, exists_eq_left']
    split
    · exact Iff.rfl
    · cases d.valueStr "name" <;> simp [Except.isOk, Except.toBool]

theorem installDownloaded_of_every {ds : List Json} (h : installsEvery env w.calls ds = true) :
    ∃ installedNow w', (installDownloaded env r ds).exec w = (.ok installedNow, w') := by
  induction ds generalizing w with
  | nil => exact ⟨[], w, rfl⟩
  | cons d ds ih =>
    obtain ⟨path, hfetched, hrest⟩ := installsEvery_cons_iff.mp h
    have hone : ∃ one t, (installOne env r d).exec w = (.ok one, t) ∧
        installsEvery env t.calls ds = true := by
      cases hempty : path.isEmpty with
      | true =>
        rw [hempty, if_pos rfl] at hrest
        exact ⟨none, w, installOne_of_empty hfetched hempty, hrest⟩
      | false =>
        rw [hempty, if_neg (by simp)] at hrest
        obtain ⟨hok, ⟨n, hname⟩, hrest⟩ := hrest
        have hrun := @installOne_of_succeeded env w r d path hfetched hempty hok
        rw [hname] at hrun
        exact ⟨some n, _, hrun, hrest⟩
    obtain ⟨one, t, hrun, hrest⟩ := hone
    obtain ⟨installedNow, w', hds⟩ := ih hrest
    refine ⟨one.toList ++ installedNow, w', Prog.exec_bind_eq_ok.mpr ⟨one, t, hrun, ?_⟩⟩
    exact Prog.exec_bind_eq_ok.mpr ⟨_, _, hds, rfl⟩

theorem installDownloaded_of_not_every {ds : List Json}
    (h : installsEvery env w.calls ds ≠ true) :
    ∃ e w', (installDownloaded env r ds).exec w = (.error e, w') := by
  induction ds generalizing w with
  | nil => exact absurd rfl h
  | cons d ds ih =>
    have hstep : (∃ e t, (installOne env r d).exec w = (.error e, t)) ∨
        ∃ one t, (installOne env r d).exec w = (.ok one, t) ∧
          installsEvery env t.calls ds ≠ true := by
      cases hfetched : fetchedPath d with
      | none =>
        obtain ⟨e, hrun⟩ := @installOne_of_none env w r d hfetched
        exact Or.inl ⟨e, w, hrun⟩
      | some path =>
        cases hempty : path.isEmpty with
        | true =>
          refine Or.inr ⟨none, w, installOne_of_empty hfetched hempty, fun hrest => h ?_⟩
          exact installsEvery_cons_iff.mpr ⟨path, hfetched, by rw [hempty]; exact hrest⟩
        | false =>
          cases hok : installSucceeded (env.reply w.calls) with
          | false =>
            obtain ⟨e, hrun⟩ := @installOne_of_not_succeeded env w r d path hfetched hempty hok
            exact Or.inl ⟨e, _, hrun⟩
          | true =>
            have hrun := @installOne_of_succeeded env w r d path hfetched hempty hok
            cases hname : d.valueStr "name" with
            | error t =>
              rw [hname] at hrun
              exact Or.inl ⟨.threw t, _, hrun⟩
            | ok n =>
              rw [hname] at hrun
              refine Or.inr ⟨some n, _, hrun, fun hrest => h ?_⟩
              refine installsEvery_cons_iff.mpr ⟨path, hfetched, ?_⟩
              rw [hempty, if_neg (by simp)]
              exact ⟨hok, ⟨n, hname⟩, hrest⟩
    rcases hstep with ⟨e, t, hrun⟩ | ⟨one, t, hrun, hrest⟩
    · exact ⟨e, t, Prog.exec_bind_of_error hrun⟩
    · obtain ⟨e, w', hds⟩ := ih hrest
      refine ⟨e, w', ?_⟩
      unfold installDownloaded
      rw [Prog.exec_bind_of_ok hrun]
      exact Prog.exec_bind_of_error hds

/-! ## 4. Either path -/

theorem installAll_of_completes (h : Completes env opts p names w.calls) :
    ∃ installedNow w', (installAll env op p names opts).exec w = (.ok installedNow, w') := by
  unfold Completes at h
  unfold installAll
  split
  · next hlocal =>
    rw [if_pos hlocal] at h
    exact installLocal_of_gated h
  · next hcatalog =>
    rw [if_neg hcatalog] at h
    obtain ⟨hall, skips, ds, hskips, hds, hevery⟩ := h
    obtain ⟨t, hrun, hcalls⟩ := @passGates_of_passes env op w p (dumpChanges env p) names hall
    rw [← hcalls] at hskips hds hevery
    rw [Prog.exec_bind_of_ok hrun, downloadAndInstall_of_array hskips hds]
    exact installDownloaded_of_every hevery

theorem installAll_of_not_completes (h : ¬ Completes env opts p names w.calls) :
    ∃ e w', (installAll env op p names opts).exec w = (.error e, w') := by
  unfold Completes at h
  unfold installAll
  split
  · next hlocal =>
    rw [if_pos hlocal] at h
    exact installLocal_of_not_gated h
  · next hcatalog =>
    rw [if_neg hcatalog] at h
    by_cases hall : confirmedNames env w.calls names = names
    · obtain ⟨t, hrun, hcalls⟩ := @passGates_of_passes env op w p (dumpChanges env p) names hall
      rw [← hcalls] at h
      rw [Prog.exec_bind_of_ok hrun]
      by_cases harr : ∃ skips ds,
          downloadSkips env opts (env.reply t.calls).json.elems = .ok skips ∧
            (env.reply (t.calls + 1)).json = .arr ds
      · obtain ⟨skips, ds, hskips, hds⟩ := harr
        rw [downloadAndInstall_of_array hskips hds]
        exact installDownloaded_of_not_every fun hevery => h ⟨hall, skips, ds, hskips, hds, hevery⟩
      · obtain ⟨e, w', hrun', -⟩ := @downloadAndInstall_of_no_array env t p names opts
          fun skips ds hskips hds => harr ⟨skips, ds, hskips, hds⟩
        exact ⟨e, w', hrun'⟩
    · obtain ⟨e, w', hrun⟩ := @passGates_of_not_passes env op w p (dumpChanges env p) names hall
      exact ⟨e, w', Prog.exec_bind_of_error hrun⟩

/-- **What the installs get installed**, whether they go through or not. -/
theorem fileInstalls_eq_installedFiles :
    fileInstalls w ((installAll env op p names opts).exec w).2 =
      installedFiles env opts p names w.calls := by
  by_cases hlocal : opts.localFiles = []
  · have hcatalog : ¬ (!opts.localFiles.isEmpty) = true := by simp [hlocal]
    unfold installedFiles
    rw [fileInstalls_installAll hlocal, if_neg hcatalog]
  · have hfiles : (!opts.localFiles.isEmpty) = true := by simpa using hlocal
    unfold installAll installedFiles
    rw [if_pos hfiles, if_pos hfiles]
    exact fileInstalls_installLocal

/-! ## 5. What a run that completes reports -/

/-- What is done between two parts of a run is among what the run did. -/
theorem event_mem_eventsSince {C D : World → Act → Prop} {s : World} {a : Act}
    (h₁ : Performs env C w s) (h₂ : Performs env D (s.after env a) w') :
    s.event env a ∈ eventsSince w w' := by
  have hact : Performs env (fun _ _ => True) s (s.after env a) := .single trivial
  have hevents : eventsSince s (s.after env a) = [s.event env a] := eventsSince_eq rfl
  rw [h₁.eventsSince_trans (hact.trans h₂.any), hact.eventsSince_trans h₂, hevents]
  simp

/-- Downloads that all get installed are reported under the names of their packages. -/
theorem map_installedPaths {c : Nat} {ds : List Json} (h : installsEvery env c ds = true)
    (hnames : ∀ d ∈ ds, ∀ path name, d.valueStr "path" = .ok path → path ≠ "" →
      d.valueStr "name" = .ok name → pkgOf path = name) :
    (installedPaths env c ds).map pkgOf = ds.filterMap handedOver := by
  induction ds generalizing c with
  | nil => rfl
  | cons d ds ih =>
    obtain ⟨path, hfetched, hrest⟩ := installsEvery_cons_iff.mp h
    obtain ⟨-, -, -, hpath⟩ := reads_of_fetchedPath hfetched
    have hds : ∀ d' ∈ ds, ∀ path name, d'.valueStr "path" = .ok path → path ≠ "" →
        d'.valueStr "name" = .ok name → pkgOf path = name :=
      fun d' hd' => hnames d' (List.mem_cons_of_mem d hd')
    unfold installedPaths
    rw [hfetched]
    dsimp only
    cases hempty : path.isEmpty with
    | true =>
      rw [hempty, if_pos rfl] at hrest
      have hnone : handedOver d = none := by
        unfold handedOver
        rw [hfetched]
        cases d.valueStr "name" <;> simp only [hempty, if_true]
      rw [if_pos rfl, List.filterMap_cons_none hnone]
      exact ih hrest hds
    | false =>
      rw [hempty, if_neg (by simp)] at hrest
      obtain ⟨hok, ⟨n, hname⟩, hrest⟩ := hrest
      have hne : path ≠ "" := by
        rintro rfl
        simp at hempty
      have hsome : handedOver d = some (pkgOf path) := by
        unfold handedOver
        rw [hfetched, hname, hnames d List.mem_cons_self path n hpath hne hname]
        simp only [hempty, Bool.false_eq_true, if_false]
      rw [hok, hname, if_neg (by simp), if_pos rfl, List.filterMap_cons_some hsome, List.map_cons,
        ih hrest hds]

/-- Every local file of a plan was inspected, and is planned under the name it was given. -/
theorem inspected_of_planLocal {files : List String} :
    ∀ {changes : List Change} {affected : List String} {w w' : World},
      (planLocal env files).exec w = (.ok (changes, affected), w') →
        ∀ c ∈ changes, ∃ answer,
          Event.call kPackageManager "inspectPackage" [.str c.file] answer ∈ eventsSince w w' ∧
            answer.json.valueStr "name" = .ok c.name := by
  induction files with
  | nil =>
    intro changes affected w w' h c hc
    cases h
    simp at hc
  | cons f fs ih =>
    intro changes affected w w' h c hc
    unfold planLocal at h
    rw [Prog.exec_bind_of_ok (exec_call _ _ _ _)] at h
    dsimp only at h
    split at h
    · cases h
    · obtain ⟨error, t, herror, h⟩ := Prog.exec_bind_eq_ok.mp h
      obtain ⟨-, rfl⟩ := exec_read_eq_ok.mp herror
      split at h
      · cases h
      · obtain ⟨change, t', hchange, h⟩ := Prog.exec_bind_eq_ok.mp h
        obtain ⟨hread, rfl⟩ := exec_read_eq_ok.mp hchange
        obtain ⟨⟨changes', affected'⟩, t'', hrest, h⟩ := Prog.exec_bind_eq_ok.mp h
        cases h
        have hdoes := (does_planLocal fs).of_exec hrest
        rcases List.mem_cons.mp hc with rfl | hc
        · obtain ⟨-, ⟨signature, horigin⟩, hname⟩ := planInspected_eq_ok hread
          have hfile : c.file = f := by rw [Change.file, horigin]
          rw [hfile]
          exact ⟨_, event_mem_eventsSince (C := fun _ _ => True) (.refl w) hdoes, hname⟩
        · obtain ⟨answer, he, hname⟩ := ih hrest c hc
          have hfirst : Performs env (fun _ _ => True) w
              (w.after env (.call kPackageManager "inspectPackage" [.str f])) := .single trivial
          refine ⟨answer, ?_, hname⟩
          rw [hfirst.eventsSince_trans hdoes]
          exact List.mem_append_right _ he

/-- A planned local file bears the name of the package in it. -/
theorem pkgOf_planned (hop : op ≠ .remove) (hlocal : opts.localFiles ≠ [])
    (hplan : (plan env op names opts).exec w = (.ok (.report p), w₁))
    (hnames : NamesFiles pkgOf (eventsSince w w₁)) : ∀ c ∈ p.changes, pkgOf c.file = c.name := by
  obtain ⟨installedByName, affected, -, hchanges, -⟩ := plan_planned hplan
  unfold planChanges at hchanges
  rw [if_neg hop, if_pos (by simpa using hlocal)] at hchanges
  intro c hc
  obtain ⟨answer, he, hname⟩ := inspected_of_planLocal hchanges c hc
  have hfirst : Performs env (fun _ _ => True) w
      (w.after env (.call kPackageManager "getInstalledPackages" [])) := .single trivial
  have hrest := (does_planLocal opts.localFiles).of_exec hchanges
  refine hnames.inspected c.file answer c.name ?_ hname
  rw [hfirst.eventsSince_trans hrest]
  exact List.mem_append_right _ he

/-- **A run that completes reports every file it installed**, as the package in it. -/
theorem installedNow_eq {installedNow : List String} {w₂ : World} (hop : op ≠ .remove)
    (hplan : (plan env op names opts).exec w = (.ok (.report p), w₁))
    (hinst : (installAll env op p names opts).exec w₁ = (.ok installedNow, w₂))
    (hnames : NamesFiles pkgOf (eventsSince w w₂)) :
    installedNow = (installedFiles env opts p names w₁.calls).map pkgOf := by
  have hpart₁ := (does_plan op names opts).of_exec hplan
  have hpart₂ := (does_installAll names opts).of_exec hinst
  have hcompletes : Completes env opts p names w₁.calls := by
    by_contra hnot
    obtain ⟨e, w', hrun⟩ := @installAll_of_not_completes env op p names opts w₁ hnot
    rw [hrun] at hinst
    cases hinst
  unfold Completes at hcompletes
  unfold installedFiles
  by_cases hlocal : opts.localFiles = []
  · have hcatalog : ¬ (!opts.localFiles.isEmpty) = true := by simp [hlocal]
    rw [if_neg hcatalog] at hcompletes ⊢
    obtain ⟨hall, skips, ds, hskips, hds, hevery⟩ := hcompletes
    obtain ⟨ds', hds', rfl⟩ := installed_of_catalog hlocal hinst
    obtain rfl : ds' = ds := by
      rw [hds] at hds'
      cases hds'
      rfl
    have hbrought : downloads env opts (w₁.calls + 3 * names.length) = ds' := by
      unfold downloads
      rw [hskips, hds]
    rw [if_pos hall, hbrought]
    refine (map_installedPaths hevery fun d hd => ?_).symm
    -- the download call is one of the run's
    obtain ⟨t, hrun, hcalls⟩ := @passGates_of_passes env op w₁ p (dumpChanges env p) names hall
    rw [← hcalls] at hskips hds
    have hgates := (does_passGates (dumpChanges env p) names).of_exec hrun
    unfold installAll at hinst
    rw [if_neg hcatalog, Prog.exec_bind_of_ok hrun, downloadAndInstall_of_array hskips hds] at hinst
    have hrest := (does_installDownloaded ds').of_exec hinst
    have hask : Performs env (fun _ _ => True) w (asked env t) :=
      (hpart₁.any.trans hgates.any).act trivial
    refine hnames.handedOver _ (env.reply (t.calls + 1)) (event_mem_eventsSince hask hrest) d ?_
    rw [hds]
    exact hd
  · have hfiles : (!opts.localFiles.isEmpty) = true := by simpa using hlocal
    have hplanned := pkgOf_planned hop hlocal hplan (hnames.mono fun e he => by
      rw [hpart₁.eventsSince_trans hpart₂]
      exact List.mem_append_left _ he)
    unfold installAll at hinst
    rw [if_pos hfiles] at hinst hcompletes ⊢
    have hkept : (p.changes.map (·, true)).filter (·.2) = p.changes.map (·, true) :=
      List.filter_eq_self.mpr fun x hx => by
        obtain ⟨c, -, rfl⟩ := List.mem_map.mp hx
        rfl
    rw [installLocal_eq_ok hinst, hcompletes, hkept, List.map_map, List.map_map]
    exact List.map_congr_left fun c hc => (hplanned c hc).symm

end Completed

end Logosctl.PackageOps
