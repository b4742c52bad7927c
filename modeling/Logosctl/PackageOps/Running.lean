/-
# Package operations and the modules that were running

An install or an upgrade stops what it disturbs and means to restart it.  What it restarts is
the plan's `affected_loaded`: the running modules among the packages touched.  What it stops is
the cascade of that list over the runtime's dependency relation.  Both results below say what
follows from the difference.

A run that succeeds keeps the running set, and stops only what the plan lists, exactly when no
running module outside the list depends on one of it (`apply_success_keeps_running_iff`).  A run
that fails restarts nothing at all, so it leaves every module running exactly when none was
stopped yet (`apply_failure_keeps_running_iff`).
-/
import Logosctl.PackageOps.Steps

namespace Logosctl.PackageOps

open Library

section Running

variable {env : Env} {dependsOn : String → String → Prop} {op : Op} {r p : Report}
  {names : List String} {opts : Options} {w w₁ w' : World} {x name : String} {rest : List String}

/-! ## 1. What is left running when the installs end -/

/-- **After the first gate has opened, the cascade of the list is down** and nothing else is,
however the installs end. -/
theorem mem_loaded_installAll (hstop : StopsDependents env dependsOn)
    (hitems : items opts r names = name :: rest) (hopens : gateOpens env w.calls = true) :
    x ∈ ((installAll env op r names opts).exec w).2.loaded ↔
      x ∈ w.loaded ∧ x ∉ cascade dependsOn {y | y ∈ r.affectedLoaded} := by
  constructor
  · intro hx
    have hx' : x ∈ (stopAll env r.affectedLoaded
        (opened env op (dumpChanges env r) name w)).loaded :=
      (installAll_stopped hitems hopens).loaded_of_mem hstop rfl hx
    have hleft := (mem_loaded_stopAll hstop r.affectedLoaded).mp hx'
    exact hleft
  · rintro ⟨hx, hcascade⟩
    have hrun := (@does_installAll env op r names opts w).1
    exact hrun.mem_loaded_of_notMem_cascade hstop rfl hx hcascade

/-- A module that was running is down when the installs end exactly when something was gated, the
first gate opened, and the module lies in the cascade of the list. -/
theorem mem_loaded_installAll_iff {res : Except Exit (List String)}
    (hstop : StopsDependents env dependsOn)
    (hinst : (installAll env op r names opts).exec w = (res, w')) (hx : x ∈ w.loaded) :
    x ∈ w'.loaded ↔ (items opts r names ≠ [] → gateOpens env w.calls = true →
      x ∉ cascade dependsOn {y | y ∈ r.affectedLoaded}) := by
  have hw' : w' = ((installAll env op r names opts).exec w).2 := by rw [hinst]
  rw [hw']
  cases hitems : items opts r names with
  | nil =>
    have hquiet := @installAll_of_nil env op r names opts w hitems
    refine iff_of_true ?_ fun hne => absurd rfl hne
    exact hquiet.mem_loaded_of_notMem_cascade hstop rfl hx (by simp [mem_cascade_iff,
      installFootprint])
  | cons name rest =>
    cases hopens : gateOpens env w.calls with
    | false =>
      obtain ⟨e, w₂, hrun, hsame⟩ :=
        @installAll_of_not_opens env op r names opts w name rest hitems hopens
      rw [hrun]
      exact iff_of_true (hsame ▸ hx) fun _ h => absurd h Bool.false_ne_true
    | true =>
      rw [mem_loaded_installAll hstop hitems hopens]
      constructor
      · rintro ⟨-, hcascade⟩ - -
        exact hcascade
      · intro hcascade
        exact ⟨hx, hcascade (List.cons_ne_nil _ _) rfl⟩

/-- An install that goes through had its first gate opened. -/
theorem gateOpens_of_ok {installedNow : List String} {w₂ : World} (hitems : items opts r names ≠ [])
    (h : (installAll env op r names opts).exec w = (.ok installedNow, w₂)) :
    gateOpens env w.calls = true := by
  obtain ⟨name, rest, hcons⟩ := List.exists_cons_of_ne_nil hitems
  cases hopens : gateOpens env w.calls with
  | true => rfl
  | false =>
    obtain ⟨e, w', hrun, -⟩ := @installAll_of_not_opens env op r names opts w name rest hcons hopens
    rw [hrun] at h
    cases h

/-! ## 2. Runs that succeed -/

/-- A successful run: its plan, its installs, and the restart that ends it. -/
theorem apply_success (hop : op ≠ .remove)
    (hrun : (apply env op names opts).exec w = (.ok (.report r), w')) (hok : r.status = .ok)
    (hplan : (plan env op names opts).exec w = (.ok (.report p), w₁)) :
    ∃ installedNow w₂, (installAll env op p names opts).exec w₁ = (.ok installedNow, w₂) ∧
      w' = startAll env p.affectedLoaded (w₂.after env .refresh) := by
  have hnot : ¬ Failing (.ok (.report r)) := by simp [Failing, Answer.isError, hok]
  rcases apply_cases hop hrun with ⟨hfail, -⟩ | ⟨q, w₁', hq, -, hrest⟩
  · exact absurd hfail hnot
  · rw [hplan] at hq
    simp only [Prod.mk.injEq, Except.ok.injEq, Answer.report.injEq] at hq
    obtain ⟨rfl, rfl⟩ := hq
    rcases hrest with ⟨e, hfail, -⟩ | ⟨installedNow, w₂, reloaded, hinst, -, hw'⟩
    · exact absurd hfail hnot
    · exact ⟨installedNow, w₂, hinst, hw'⟩

/-- What happens in a run that succeeds: the plan, the installs, and the restart. -/
theorem eventsSince_success {installedNow : List String} {w₂ : World}
    (hplan : (plan env op names opts).exec w = (.ok (.report p), w₁))
    (hinst : (installAll env op p names opts).exec w₁ = (.ok installedNow, w₂)) :
    eventsSince w (startAll env p.affectedLoaded (w₂.after env .refresh)) =
      eventsSince w w₁ ++ (eventsSince w₁ w₂ ++
        eventsSince w₂ (startAll env p.affectedLoaded (w₂.after env .refresh))) := by
  have hpart₁ := (does_plan op names opts).of_exec hplan
  have hpart₂ := (does_installAll names opts).of_exec hinst
  have hpart₃ := performs_restart env p.affectedLoaded w₂
  rw [← hpart₂.eventsSince_trans hpart₃]
  exact hpart₁.eventsSince_trans (hpart₂.any.trans hpart₃.any)

/-- Only the installs can stop anything: planning and restarting have nothing to stop. -/
theorem mem_installs_of_stops {installedNow : List String} {w₂ : World} {e : Event}
    (hstart : StartsRequested env)
    (hplan : (plan env op names opts).exec w = (.ok (.report p), w₁))
    (hinst : (installAll env op p names opts).exec w₁ = (.ok installedNow, w₂))
    (he : e ∈ eventsSince w (startAll env p.affectedLoaded (w₂.after env .refresh)))
    (hx : e.Stops x) : e ∈ eventsSince w₁ w₂ := by
  have hpart₁ := (does_plan op names opts).of_exec hplan
  have hpart₃ := performs_restart env p.affectedLoaded w₂
  rw [eventsSince_success hplan hinst, List.mem_append, List.mem_append] at he
  rcases he with he | he | he
  · exact absurd hx (hpart₁.not_stops hstart rfl he)
  · exact he
  · exact absurd hx (hpart₃.not_stops hstart rfl he)

/-- **What a successful install or upgrade keeps running.**  Everything that was running is
running again, and nothing outside the plan's list was ever stopped, exactly when nothing was
gated or no running module outside the list depends on a module of it. -/
theorem apply_success_keeps_running_iff (hstop : StopsDependents env dependsOn)
    (hstart : StartsRequested env) (hop : op ≠ .remove)
    (hrun : (apply env op names opts).exec w = (.ok (.report r), w')) (hok : r.status = .ok)
    (hstarts : ∀ e ∈ eventsSince w w', e.StartsOk)
    (hplan : (plan env op names opts).exec w = (.ok (.report p), w₁)) :
    ((∀ m ∈ w.loaded, m ∈ w'.loaded) ∧
        ∀ e ∈ eventsSince w w', ∀ m, e.Stops m → m ∈ p.affectedLoaded) ↔
      items opts p names = [] ∨
        ∀ m ∈ w.loaded, m ∈ cascade dependsOn {y | y ∈ p.affectedLoaded} →
          m ∈ p.affectedLoaded := by
  obtain ⟨installedNow, w₂, hinst, rfl⟩ := apply_success hop hrun hok hplan
  have hpart₂ : Performs env (installFootprint p.affectedLoaded).Allows w₁ w₂ :=
    (does_installAll names opts).of_exec hinst
  rw [← plan_loaded hplan]
  constructor
  · rintro ⟨-, hlisted⟩
    refine or_iff_not_imp_left.mpr fun hitems m hm hcascade => ?_
    have hdown : m ∉ w₂.loaded := fun hmem =>
      (mem_loaded_installAll_iff hstop hinst hm).mp hmem hitems (gateOpens_of_ok hitems hinst)
        hcascade
    obtain ⟨e, he, hestops⟩ := hpart₂.exists_stops hm hdown
    refine hlisted e ?_ m hestops
    rw [eventsSince_success hplan hinst]
    exact List.mem_append_right _ (List.mem_append_left _ he)
  · intro hcond
    -- what is down when the installs end is on the list
    have hkept : ∀ m ∈ w₁.loaded, m ∈ w₂.loaded ∨ m ∈ p.affectedLoaded := by
      intro m hm
      have hiff := mem_loaded_installAll_iff hstop hinst hm
      rcases hcond with hnil | hclosed
      · exact .inl (hiff.mpr fun hitems => absurd hnil hitems)
      · by_cases hcascade : m ∈ cascade dependsOn {y | y ∈ p.affectedLoaded}
        · exact .inr (hclosed m hm hcascade)
        · exact .inl (hiff.mpr fun _ _ => hcascade)
    refine ⟨fun m hm => ?_, fun e he m hm => ?_⟩
    · rcases hkept m hm with hm | hm
      · exact (performs_restart env p.affectedLoaded w₂).mem_loaded hstart rfl hm
      · refine mem_loaded_startAll hstart (fun e he => hstarts e ?_) m hm
        have hrefresh : Performs env (fun _ _ => True) w₂ (w₂.after env .refresh) :=
          .single trivial
        rw [eventsSince_success hplan hinst,
          hrefresh.eventsSince_trans (performs_startAll env _ _)]
        simp only [List.mem_append]
        exact .inr (.inr (.inr he))
    · have he' := mem_installs_of_stops hstart hplan hinst he hm
      rcases hcond with hnil | hclosed
      · have hquiet := @installAll_of_nil env op p names opts w₁ hnil
        rw [hinst] at hquiet
        exact absurd hm (hquiet.not_stops hstart rfl he')
      · obtain ⟨hmem, hcascade⟩ := hpart₂.stops_mem_cascade hstop rfl he' hm
        exact hclosed m hmem hcascade

/-- The replies of an upgrade of `lib` from 1.0 to 2.0 whose confirmation is answered with
`confirmation`, and in which everything after that goes well. -/
def upgradeReplies (confirmation : Json) : List Reply :=
  [.ok (.arr [.obj [("name", .str "lib"), ("version", .str "1.0")]]),
    .ok (.arr [.obj [("name", .str "lib"), ("topLevel", .bool true), ("version", .str "2.0")]]),
    .ok (.obj [("success", .bool true)]), .ok (.obj [("success", .bool true)]), .ok confirmation,
    .ok (.arr []), .ok (.arr [.obj [("name", .str "lib"), ("path", .str "/tmp/lib.lgx")]]),
    .ok (.obj [("path", .str "/tmp/lib.lgx")])]

/-- A world in which `app` and `lib` run; `app` depends on `lib` in the graph below. -/
def appAndLib : World := ⟨["lib", "app"], 0, []⟩

/-- The runtime and the modules of an upgrade of `lib`, with `app` depending on it. -/
def upgradeEnv (confirmation : Json) : Env := graphEnv [("app", "lib")] (upgradeReplies confirmation)

/-- The plan of that upgrade. -/
def upgradePlan : Report where
  op := .upgrade
  changes := [⟨"lib", .upgrade, "1.0", "2.0", .catalog "" true⟩]
  affectedLoaded := ["lib"]

/-- **An upgrade strands a dependent.**  The upgrade of `lib` succeeds and every start in it
succeeds; `app`, which depends on `lib`, was running before and is not running after. -/
theorem upgrade_strands_dependent :
    let env := upgradeEnv (.obj [("success", .bool true)])
    let run := (apply env .upgrade ["lib"] {}).exec appAndLib
    StopsDependents env (edge [("app", "lib")]) ∧ StartsRequested env ∧
      run.1 = .ok (.report
        { upgradePlan with installed := some ["lib"], reloaded := some ["lib"] }) ∧
      (∀ e ∈ eventsSince appAndLib run.2, e.StartsOk) ∧
      "app" ∈ appAndLib.loaded ∧ "app" ∉ run.2.loaded := by
  refine ⟨graphEnv_stopsDependents _ _, graphEnv_startsRequested _ _, ?_, ?_, ?_, ?_⟩
  · decide +kernel
  · decide +kernel
  · decide
  · decide +kernel

/-- With only `lib` running, the same upgrade keeps it running and stops nothing else. -/
theorem apply_success_keeps_running_lib :
    let env := upgradeEnv (.obj [("success", .bool true)])
    let w : World := ⟨["lib"], 0, []⟩
    let w' := ((apply env .upgrade ["lib"] {}).exec w).2
    (∀ m ∈ w.loaded, m ∈ w'.loaded) ∧
      ∀ e ∈ eventsSince w w', ∀ m, e.Stops m → m ∈ upgradePlan.affectedLoaded :=
  (@apply_success_keeps_running_iff (upgradeEnv (.obj [("success", .bool true)]))
    (edge [("app", "lib")]) .upgrade
    { upgradePlan with installed := some ["lib"], reloaded := some ["lib"] } upgradePlan ["lib"] {}
    ⟨["lib"], 0, []⟩ _ _ (graphEnv_stopsDependents _ _) (graphEnv_startsRequested _ _)
    (by decide) (Prod.ext (by decide +kernel) rfl) rfl (by decide +kernel)
    (Prod.ext (by decide +kernel) rfl)).mpr (Or.inr fun m hm _ => hm)

/-! ## 3. Runs that fail -/

/-- A failing run attempts no start: its restart is never reached. -/
theorem apply_failure_not_attempts {res : Except Exit Answer} (hop : op ≠ .remove)
    (hrun : (apply env op names opts).exec w = (res, w')) (hfail : Failing res) :
    ∀ e ∈ eventsSince w w', ¬ e.Attempts x := by
  rcases apply_cases hop hrun with ⟨-, hplan⟩ | ⟨q, w₁, hplan, -, ⟨e, -, hinst⟩ | hok⟩
  · intro e he
    exact ((does_plan op names opts).of_exec hplan).not_attempts rfl he
  · intro e he
    have hpart₁ := (does_plan op names opts).of_exec hplan
    have hpart₂ := (@does_installAll env op q names opts).of_exec hinst
    rw [hpart₁.eventsSince_trans hpart₂] at he
    rcases List.mem_append.mp he with he | he
    · exact hpart₁.not_attempts rfl he
    · exact hpart₂.not_attempts rfl he
  · obtain ⟨installedNow, w₂, reloaded, -, rfl, -⟩ := hok
    obtain ⟨hstatus, -, -⟩ := plan_report hplan
    simp [Failing, Answer.isError, hstatus] at hfail

/-- **What a failing install or upgrade leaves running.**  Every module that was running, and
whose package is still installed, is running or was at least started again, exactly when the
plan was not reached, or nothing was gated, or the first gate did not open, or no such module
lies in the cascade of what the plan lists. -/
theorem apply_failure_keeps_running_iff (hstop : StopsDependents env dependsOn)
    {res : Except Exit Answer} (hop : op ≠ .remove)
    (hrun : (apply env op names opts).exec w = (res, w')) (hfail : Failing res)
    (stillInstalled : String → Prop) :
    (∀ m ∈ w.loaded, stillInstalled m →
        m ∈ w'.loaded ∨ ∃ e ∈ eventsSince w w', e.Attempts m) ↔
      ∀ p w₁, (plan env op names opts).exec w = (.ok (.report p), w₁) →
        items opts p names ≠ [] → gateOpens env w₁.calls = true →
          ∀ m ∈ w.loaded, stillInstalled m →
            m ∉ cascade dependsOn {y | y ∈ p.affectedLoaded} := by
  have hnone : (∀ m ∈ w.loaded, stillInstalled m →
      m ∈ w'.loaded ∨ ∃ e ∈ eventsSince w w', e.Attempts m) ↔
        ∀ m ∈ w.loaded, stillInstalled m → m ∈ w'.loaded := by
    refine forall₃_congr fun m hm hinst => or_iff_left ?_
    rintro ⟨e, he, hattempt⟩
    exact apply_failure_not_attempts hop hrun hfail e he hattempt
  rw [hnone]
  rcases apply_cases hop hrun with ⟨-, hplan⟩ | ⟨q, w₁, hplan, -, ⟨e, -, hinst⟩ | hok⟩
  · -- the plan itself failed, and planning stops nothing
    rw [plan_loaded hplan]
    refine iff_of_true (fun m hm _ => hm) (forall_planned_of_not hplan ?_)
    rintro p rfl
    obtain ⟨hstatus, -, -⟩ := plan_report hplan
    simp [Failing, Answer.isError, hstatus] at hfail
  · rw [forall_planned_iff hplan]
    rw [← plan_loaded hplan]
    constructor
    · intro hkept hitems hopens m hm hstill
      exact (mem_loaded_installAll_iff hstop hinst hm).mp (hkept m hm hstill) hitems hopens
    · intro hcond m hm hstill
      refine (mem_loaded_installAll_iff hstop hinst hm).mpr fun hitems hopens => ?_
      exact hcond hitems hopens m hm hstill
  · obtain ⟨installedNow, w₂, reloaded, -, rfl, -⟩ := hok
    obtain ⟨hstatus, -, -⟩ := plan_report hplan
    simp [Failing, Answer.isError, hstatus] at hfail

/-- **A refused confirmation leaves modules stopped.**  The package manager declines to confirm
the upgrade of `lib`, which therefore stays installed; `lib` and `app` were running, neither is
running after, and no start of either was attempted. -/
theorem refused_confirmation_leaves_stopped :
    let env := upgradeEnv (.obj [("success", .bool false), ("error", .str "busy")])
    let run := (apply env .upgrade ["lib"] {}).exec appAndLib
    StopsDependents env (edge [("app", "lib")]) ∧
      run.1 = .ok (.report { upgradePlan with
        status := .error, failedStep := some "confirm", error := some "busy" }) ∧
      "lib" ∈ appAndLib.loaded ∧ "lib" ∉ run.2.loaded ∧
      ∀ e ∈ eventsSince appAndLib run.2, ¬ e.Attempts "lib" := by
  refine ⟨graphEnv_stopsDependents _ _, ?_, ?_, ?_, ?_⟩
  · decide +kernel
  · decide
  · decide +kernel
  · decide +kernel

/-- A module that does not depend on `lib` is still running after that refusal. -/
theorem apply_failure_keeps_running_other :
    let env := upgradeEnv (.obj [("success", .bool false), ("error", .str "busy")])
    let w : World := ⟨["other"], 0, []⟩
    let w' := ((apply env .upgrade ["lib"] {}).exec w).2
    ∀ m ∈ w.loaded, True → m ∈ w'.loaded ∨ ∃ e ∈ eventsSince w w', e.Attempts m := by
  intro env w w'
  have hplan : ((plan env .upgrade ["lib"] {}).exec w).1 =
      .ok (.report { upgradePlan with affectedLoaded := [] }) := by decide +kernel
  refine (@apply_failure_keeps_running_iff env (edge [("app", "lib")]) .upgrade ["lib"] {} w w'
    (graphEnv_stopsDependents _ _) _ (by decide) rfl (by decide +kernel) fun _ => True).mpr ?_
  intro p w₁ hp _ _ m _ _
  rw [hp] at hplan
  simp only [Except.ok.injEq, Answer.report.injEq] at hplan
  simp [hplan, mem_cascade_iff]

end Running

end Logosctl.PackageOps
