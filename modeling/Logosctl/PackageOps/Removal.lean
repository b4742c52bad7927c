/-
# Removals and the modules that were running

A removal has one gate for all of its victims: request, acknowledge, stop the victims, confirm.
The victims are the packages asked for and, unless dependents are left out, the packages that the
package manager says depend on them.  What is stopped is something else: the runtime stops every
victim together with whatever runs and depends on it, and that happens before the confirmation,
which can still be refused.

`removal_stops_only_removed_iff` says when the two agree.
-/
import Logosctl.PackageOps.Steps

namespace Logosctl.PackageOps

open Library

/-! ## 1. The gate of a removal, exactly -/

def Report.victims (r : Report) : List String := r.changes.map (·.name)

def victimArgs (victims : List String) : List Json := [.arr (victims.map .str)]

def requestMultiAct (victims : List String) : Act :=
  .call kPackageManager "requestMultiUninstall" (victimArgs victims)

def cancelMultiAct (victims : List String) : Act :=
  .call kPackageManager "cancelMultiUninstall" (victimArgs victims)

def confirmMultiAct (victims : List String) : Act :=
  .call kPackageManager "confirmMultiUninstall" (victimArgs victims)

/-- The world once a removal has been requested and acknowledged. -/
def removalOpened (env : Env) (victims : List String) (front : String) (w : World) : World :=
  (w.after env (requestMultiAct victims)).after env (ackAct front)

/-- The world once a removal has stopped its victims. -/
def removalStopped (env : Env) (victims : List String) (front : String) (w : World) : World :=
  stopAll env victims (removalOpened env victims front w)

/-- The world once a removal has gone up to the confirmation's reply. -/
def removalConfirmed (env : Env) (victims : List String) (front : String) (w : World) : World :=
  (removalStopped env victims front w).after env (confirmMultiAct victims)

section Removal

variable {env : Env} {dependsOn : String → String → Prop} {r p : Report} {names : List String}
  {opts : Options} {w w₁ w' : World} {front : String} {victims : List String}

@[simp] theorem calls_removalStopped :
    (removalStopped env victims front w).calls = w.calls + 2 := by
  rw [removalStopped, calls_stopAll]
  rfl

/-- With no victims there is nothing to ask for. -/
theorem applyRemove_of_nil (h : r.victims = []) :
    (applyRemove env r).exec w = (.error (failure r "plan" "nothing to remove"), w) := by
  unfold Report.victims at h
  unfold applyRemove
  dsimp only
  rw [h]
  rfl

/-- A removal that is not requested ends with its request. -/
theorem applyRemove_of_not_requested {rest : List String} (h : r.victims = front :: rest)
    (hrequest : accepted (env.reply w.calls) = false) :
    ∃ e, (applyRemove env r).exec w = (.error e, w.after env (requestMultiAct r.victims)) := by
  have hvictims : r.changes.map (·.name) = front :: rest := h
  rcases exec_read_ok_of_not_accepted hrequest (w.after env (requestMultiAct (front :: rest)))
    with ⟨e, he⟩ | ⟨t, ht⟩
  · refine ⟨failure r "request" e, ?_⟩
    unfold applyRemove
    dsimp only
    rw [hvictims, h]
    refine Prog.exec_bind_eq_error.mpr (Or.inr ⟨_, _, exec_call _ _ _ _, ?_⟩)
    exact Prog.exec_bind_eq_error.mpr (Or.inr ⟨_, _, he, exec_fail _ _ _⟩)
  · refine ⟨.threw t, ?_⟩
    unfold applyRemove
    dsimp only
    rw [hvictims, h]
    refine Prog.exec_bind_eq_error.mpr (Or.inr ⟨_, _, exec_call _ _ _ _, ?_⟩)
    exact Prog.exec_bind_eq_error.mpr (Or.inl ht)

/-- A removal that is requested but not acknowledged is withdrawn, if the answer to the
acknowledgement can be read. -/
theorem applyRemove_of_not_acknowledged {rest : List String} (h : r.victims = front :: rest)
    (hrequest : accepted (env.reply w.calls) = true)
    (hack : accepted (env.reply (w.calls + 1)) = false) :
    ∃ e, (applyRemove env r).exec w = (.error e,
      if refused (env.reply (w.calls + 1)) then
        (removalOpened env r.victims front w).after env (cancelMultiAct r.victims)
      else removalOpened env r.victims front w) := by
  have hvictims : r.changes.map (·.name) = front :: rest := h
  obtain ⟨e₁, h₁⟩ :=
    exec_read_ok_of_accepted hrequest (w.after env (requestMultiAct (front :: rest)))
  cases hrefused : refused (env.reply (w.calls + 1)) with
  | true =>
    obtain ⟨e, he⟩ :=
      exec_read_ok_of_refused hrefused (removalOpened env (front :: rest) front w)
    refine ⟨failure r "ack" e, ?_⟩
    unfold applyRemove
    dsimp only
    rw [hvictims, h]
    refine Prog.exec_bind_eq_error.mpr (Or.inr ⟨_, _, exec_call _ _ _ _, ?_⟩)
    refine Prog.exec_bind_eq_error.mpr (Or.inr ⟨_, _, h₁, ?_⟩)
    refine Prog.exec_bind_eq_error.mpr (Or.inr ⟨_, _, exec_call _ _ _ _, ?_⟩)
    refine Prog.exec_bind_eq_error.mpr (Or.inr ⟨_, _, he, ?_⟩)
    exact Prog.exec_bind_eq_error.mpr (Or.inr ⟨_, _, exec_call _ _ _ _, exec_fail _ _ _⟩)
  | false =>
    obtain ⟨t, ht⟩ :=
      exec_read_ok_of_unreadable hack hrefused (removalOpened env (front :: rest) front w)
    refine ⟨.threw t, ?_⟩
    unfold applyRemove
    dsimp only
    rw [hvictims, h]
    refine Prog.exec_bind_eq_error.mpr (Or.inr ⟨_, _, exec_call _ _ _ _, ?_⟩)
    refine Prog.exec_bind_eq_error.mpr (Or.inr ⟨_, _, h₁, ?_⟩)
    refine Prog.exec_bind_eq_error.mpr (Or.inr ⟨_, _, exec_call _ _ _ _, ?_⟩)
    exact Prog.exec_bind_eq_error.mpr (Or.inl ht)

/-- A removal that is confirmed stops its victims and reports them. -/
theorem applyRemove_of_confirmed {rest : List String} (h : r.victims = front :: rest)
    (hopens : gateOpens env w.calls = true) (hconfirm : accepted (env.reply (w.calls + 2)) = true) :
    (applyRemove env r).exec w =
      (.ok (.report { r with removed := some r.victims, reloaded := some [] }),
        (removalConfirmed env r.victims front w).after env .refresh) := by
  have hvictims : r.changes.map (·.name) = front :: rest := h
  simp only [gateOpens, Bool.and_eq_true] at hopens
  obtain ⟨e₁, h₁⟩ :=
    exec_read_ok_of_accepted hopens.1 (w.after env (requestMultiAct (front :: rest)))
  obtain ⟨e₂, h₂⟩ := exec_read_ok_of_accepted hopens.2 (removalOpened env (front :: rest) front w)
  rw [← @calls_removalStopped env w front (front :: rest)] at hconfirm
  obtain ⟨e₃, h₃⟩ :=
    exec_read_ok_of_accepted hconfirm (removalConfirmed env (front :: rest) front w)
  unfold applyRemove
  dsimp only
  rw [hvictims, h]
  refine Prog.exec_bind_eq_ok.mpr ⟨_, _, exec_call _ _ _ _, ?_⟩
  refine Prog.exec_bind_eq_ok.mpr ⟨_, _, h₁, ?_⟩
  refine Prog.exec_bind_eq_ok.mpr ⟨_, _, exec_call _ _ _ _, ?_⟩
  refine Prog.exec_bind_eq_ok.mpr ⟨_, _, h₂, ?_⟩
  refine Prog.exec_bind_eq_ok.mpr ⟨_, _, exec_unloadAll _ _, ?_⟩
  refine Prog.exec_bind_eq_ok.mpr ⟨_, _, exec_call _ _ _ _, ?_⟩
  refine Prog.exec_bind_eq_ok.mpr ⟨_, _, h₃, ?_⟩
  exact Prog.exec_bind_eq_ok.mpr ⟨_, _, exec_logosCoreRefreshModules _, rfl⟩

/-- A removal that is not confirmed has stopped its victims all the same. -/
theorem applyRemove_of_not_confirmed {rest : List String} (h : r.victims = front :: rest)
    (hopens : gateOpens env w.calls = true)
    (hconfirm : accepted (env.reply (w.calls + 2)) = false) :
    ∃ e, (applyRemove env r).exec w = (.error e, removalConfirmed env r.victims front w) := by
  have hvictims : r.changes.map (·.name) = front :: rest := h
  simp only [gateOpens, Bool.and_eq_true] at hopens
  obtain ⟨e₁, h₁⟩ :=
    exec_read_ok_of_accepted hopens.1 (w.after env (requestMultiAct (front :: rest)))
  obtain ⟨e₂, h₂⟩ := exec_read_ok_of_accepted hopens.2 (removalOpened env (front :: rest) front w)
  rw [← @calls_removalStopped env w front (front :: rest)] at hconfirm
  have hend : ∃ e, (read (ok (env.reply (removalStopped env (front :: rest) front w).calls).json)
      >>= fun x => if !x.1 then fail r "confirm" x.2 else do
        logosCoreRefreshModules env
        return .report { r with removed := some (front :: rest), reloaded := some [] } :
        M Answer).exec (removalConfirmed env (front :: rest) front w) =
      (.error e, removalConfirmed env (front :: rest) front w) := by
    rcases exec_read_ok_of_not_accepted hconfirm (removalConfirmed env (front :: rest) front w)
      with ⟨e, he⟩ | ⟨t, ht⟩
    · exact ⟨failure r "confirm" e,
        Prog.exec_bind_eq_error.mpr (Or.inr ⟨_, _, he, exec_fail _ _ _⟩)⟩
    · exact ⟨.threw t, Prog.exec_bind_eq_error.mpr (Or.inl ht)⟩
  obtain ⟨e, he⟩ := hend
  refine ⟨e, ?_⟩
  unfold applyRemove
  dsimp only
  rw [hvictims, h]
  refine Prog.exec_bind_eq_error.mpr (Or.inr ⟨_, _, exec_call _ _ _ _, ?_⟩)
  refine Prog.exec_bind_eq_error.mpr (Or.inr ⟨_, _, h₁, ?_⟩)
  refine Prog.exec_bind_eq_error.mpr (Or.inr ⟨_, _, exec_call _ _ _ _, ?_⟩)
  refine Prog.exec_bind_eq_error.mpr (Or.inr ⟨_, _, h₂, ?_⟩)
  refine Prog.exec_bind_eq_error.mpr (Or.inr ⟨_, _, exec_unloadAll _ _, ?_⟩)
  exact Prog.exec_bind_eq_error.mpr (Or.inr ⟨_, _, exec_call _ _ _ _, he⟩)

/-! ## 2. The victims -/

/-- What one package asked for adds to the victims found so far. -/
theorem name_of_mem_foldl {f : String → Change} (hf : ∀ x, (f x).name = x) {set : List String} :
    ∀ {acc : List Change × List String} {c : Change},
      c ∈ (set.foldl (fun (changes, affected) x =>
        if affected.contains x then (changes, affected)
        else (changes ++ [f x], affected ++ [x])) acc).1 → c ∈ acc.1 ∨ c.name ∈ set := by
  induction set with
  | nil => exact fun h => Or.inl h
  | cons x set ih =>
    rintro ⟨changes, affected⟩ c h
    rw [List.foldl_cons] at h
    rcases ih h with h | h
    · dsimp only at h
      split at h
      · exact Or.inl h
      · rcases List.mem_append.mp h with h | h
        · exact Or.inl h
        · rw [List.mem_singleton] at h
          subst h
          exact Or.inr (by simp [hf])
    · exact Or.inr (List.mem_cons_of_mem _ h)

/-- Without dependents, a removal is of nothing but what was asked for. -/
theorem planRemove_named {installedByName : List (String × InstalledInfo)} :
    ∀ {names : List String} {acc out : List Change × List String} {w w' : World},
      (planRemove env installedByName false names acc).exec w = (.ok out, w') →
        ∀ c ∈ out.1, c ∈ acc.1 ∨ c.name ∈ names := by
  intro names
  induction names with
  | nil =>
    intro acc out w w' h c hc
    cases h
    exact Or.inl hc
  | cons n ns ih =>
    intro acc out w w' h c hc
    unfold planRemove at h
    split at h
    · cases h
    · rw [Prog.exec_bind_of_ok (p := removalSet env n false) (a := ([n], "")) rfl] at h
      rcases ih h c hc with hacc | hname
      · have hn := name_of_mem_foldl (f := fun x => ⟨x, .remove,
          ((installedByName.lookup x).map (·.version)).getD "", "", .removal⟩) (fun _ => rfl) hacc
        exact hn.imp id fun hmem => by simp_all
      · exact Or.inr (List.mem_cons_of_mem _ hname)

theorem victims_named (h : (plan env .remove names opts).exec w = (.ok (.report p), w₁))
    (hno : opts.withDependents = false) : ∀ m ∈ p.victims, m ∈ names := by
  obtain ⟨installedByName, affected, -, hchanges, -⟩ := plan_planned h
  unfold planChanges at hchanges
  rw [if_pos rfl, hno] at hchanges
  intro m hm
  obtain ⟨c, hc, rfl⟩ := List.mem_map.mp hm
  rcases planRemove_named hchanges c hc with hnil | hname
  · simp at hnil
  · exact hname

/-! ## 3. What a removal leaves running -/

/-- A removal stops no more than it removes.  When it succeeds, what runs is what ran before but
for the packages reported removed; without dependents these are among the packages asked for, and
no module outside them was stopped on the way.  When it fails, whatever ran and is still installed
runs. -/
def StopsOnlyRemoved (names : List String) (opts : Options) (stillInstalled : String → Prop)
    (w : World) (res : Except Exit Answer) (w' : World) : Prop :=
  (∀ r, res = .ok (.report r) → r.status = .ok →
      (∀ m, m ∈ w'.loaded ↔ m ∈ w.loaded ∧ m ∉ r.removed.getD []) ∧
        (opts.withDependents = false → (∀ m ∈ r.removed.getD [], m ∈ names) ∧
          ∀ e ∈ eventsSince w w', ∀ m, e.Stops m → m ∈ r.removed.getD [])) ∧
    (Failing res → ∀ m ∈ w.loaded, stillInstalled m → m ∈ w'.loaded)

/-- The dependency graph and the replies allow it: whenever a planned removal gets as far as
stopping its victims, no running module outside them depends on one, if it is then confirmed; and
no running module that stays installed is a victim or depends on one, if it is not. -/
def RemovalIsClosed (env : Env) (dependsOn : String → String → Prop)
    (stillInstalled : String → Prop) (loaded : List String) (p : Report) (c : Nat) : Prop :=
  p.victims ≠ [] → gateOpens env c = true →
    if accepted (env.reply (c + 2)) then
      ∀ m ∈ loaded, m ∈ cascade dependsOn {y | y ∈ p.victims} → m ∈ p.victims
    else ∀ m ∈ loaded, stillInstalled m → m ∉ cascade dependsOn {y | y ∈ p.victims}

theorem mem_loaded_removalConfirmed (hstop : StopsDependents env dependsOn) {x : String} :
    x ∈ (removalConfirmed env victims front w).loaded ↔
      x ∈ w.loaded ∧ x ∉ cascade dependsOn {y | y ∈ victims} :=
  mem_loaded_stopAll (w := removalOpened env victims front w) hstop victims

/-- **A removal that is not confirmed**, or not even begun, fails where it stands. -/
theorem applyRemove_failing (hstop : StopsDependents env dependsOn)
    (h : p.victims = [] ∨ gateOpens env w.calls = false ∨
      accepted (env.reply (w.calls + 2)) = false) :
    ∃ e, (applyRemove env p).exec w = (.error e, ((applyRemove env p).exec w).2) ∧
      ∀ x, x ∈ ((applyRemove env p).exec w).2.loaded ↔ x ∈ w.loaded ∧
        (p.victims ≠ [] → gateOpens env w.calls = true →
          x ∉ cascade dependsOn {y | y ∈ p.victims}) := by
  cases hvictims : p.victims with
  | nil =>
    rw [applyRemove_of_nil hvictims]
    exact ⟨_, rfl, fun x => by simp⟩
  | cons front rest =>
    rw [← hvictims]
    cases hopens : gateOpens env w.calls with
    | false =>
      have hsame : ∃ e w', (applyRemove env p).exec w = (.error e, w') ∧ w'.loaded = w.loaded := by
        cases hrequest : accepted (env.reply w.calls) with
        | false =>
          obtain ⟨e, he⟩ := applyRemove_of_not_requested hvictims hrequest
          exact ⟨e, _, he, rfl⟩
        | true =>
          have hack : accepted (env.reply (w.calls + 1)) = false := by
            simpa [gateOpens, hrequest] using hopens
          obtain ⟨e, he⟩ := applyRemove_of_not_acknowledged hvictims hrequest hack
          refine ⟨e, _, he, ?_⟩
          split <;> rfl
      obtain ⟨e, w', hrun, hloaded⟩ := hsame
      rw [hrun]
      refine ⟨e, rfl, fun x => ?_⟩
      simp [hloaded]
    | true =>
      have hconfirm : accepted (env.reply (w.calls + 2)) = false := by
        simpa [hvictims, hopens] using h
      obtain ⟨e, he⟩ := applyRemove_of_not_confirmed hvictims hopens hconfirm
      rw [he]
      refine ⟨e, rfl, fun x => ?_⟩
      rw [mem_loaded_removalConfirmed hstop]
      simp [hvictims]

/-- A confirmed removal stops no more than it removes when nothing that runs depends on a victim
without being one. -/
theorem stopsOnlyRemoved_of_confirmed_iff (hstop : StopsDependents env dependsOn)
    {stillInstalled : String → Prop} {rest : List String}
    (hplan : (plan env .remove names opts).exec w = (.ok (.report p), w₁))
    (hvictims : p.victims = front :: rest) (hopens : gateOpens env w₁.calls = true)
    (hconfirm : accepted (env.reply (w₁.calls + 2)) = true) :
    StopsOnlyRemoved names opts stillInstalled w ((apply env .remove names opts).exec w).1
        ((apply env .remove names opts).exec w).2 ↔
      ∀ m ∈ w.loaded, m ∈ cascade dependsOn {y | y ∈ p.victims} → m ∈ p.victims := by
  have hloaded : w₁.loaded = w.loaded := plan_loaded hplan
  have hstatus := (plan_report hplan).1
  have hrun := applyRemove_of_confirmed hvictims hopens hconfirm
  have hpart₁ := (does_plan .remove names opts).of_exec hplan
  have hpart₂ := (@does_applyRemove env p).of_exec hrun
  rw [apply_of_planned hplan, if_pos rfl, exec_catchReturn, hrun]
  dsimp only
  have hmem : ∀ x, x ∈ ((removalConfirmed env p.victims front w₁).after env .refresh).loaded ↔
      x ∈ w.loaded ∧ x ∉ cascade dependsOn {y | y ∈ p.victims} := by
    intro x
    rw [← hloaded]
    exact mem_loaded_removalConfirmed hstop
  constructor
  · rintro ⟨hok, -⟩ m hm hcascade
    have hgone := ((hok _ rfl hstatus).1 m).not.mp fun h => ((hmem m).mp h).2 hcascade
    by_contra hnot
    exact hgone ⟨hm, hnot⟩
  · intro hclosed
    refine ⟨?_, ?_⟩
    · rintro r hr -
      simp only [Except.ok.injEq, Answer.report.injEq] at hr
      subst hr
      refine ⟨?_, ?_⟩
      · intro m
        rw [hmem]
        refine and_congr_right fun hm => not_congr ⟨hclosed m hm, ?_⟩
        intro hv
        exact mem_cascade_iff.mpr ⟨m, hv, Or.inl rfl⟩
      · intro hno
        refine ⟨victims_named hplan hno, ?_⟩
        intro e he m hm
        rw [hpart₁.eventsSince_trans hpart₂] at he
        rcases List.mem_append.mp he with he | he
        · obtain ⟨-, y, hy, -⟩ := hpart₁.stops_mem_cascade hstop rfl he hm
          simp [planFootprint] at hy
        · obtain ⟨hm₁, hcascade⟩ := hpart₂.stops_mem_cascade hstop rfl he hm
          exact hclosed m (hloaded ▸ hm₁) hcascade
    · intro hfail
      simp [Failing, Answer.isError, hstatus] at hfail

/-- A failing removal has stopped nothing, or its victims with all that depends on them. -/
theorem stopsOnlyRemoved_of_failing_iff (hstop : StopsDependents env dependsOn)
    {stillInstalled : String → Prop}
    (hplan : (plan env .remove names opts).exec w = (.ok (.report p), w₁))
    (h : p.victims = [] ∨ gateOpens env w₁.calls = false ∨
      accepted (env.reply (w₁.calls + 2)) = false) :
    StopsOnlyRemoved names opts stillInstalled w ((apply env .remove names opts).exec w).1
        ((apply env .remove names opts).exec w).2 ↔
      ∀ m ∈ w.loaded, stillInstalled m → p.victims ≠ [] → gateOpens env w₁.calls = true →
        m ∉ cascade dependsOn {y | y ∈ p.victims} := by
  have hloaded : w₁.loaded = w.loaded := plan_loaded hplan
  obtain ⟨e, hrun, hmem⟩ := applyRemove_failing (w := w₁) hstop h
  obtain ⟨hfailing, hworld⟩ :=
    exec_catchReturn_of_failed hrun (does_applyRemove.of_error hrun).failed
  rw [apply_of_planned hplan, if_pos rfl, hworld]
  constructor
  · rintro ⟨-, hkept⟩ m hm hstill
    exact ((hmem m).mp (hkept hfailing m hm hstill)).2
  · intro hcond
    refine ⟨?_, ?_⟩
    · intro r hr hok
      rw [hr] at hfailing
      simp [Failing, Answer.isError, hok] at hfailing
    · intro _ m hm hstill
      exact (hmem m).mpr ⟨hloaded ▸ hm, hcond m hm hstill⟩

/-- **When a removal stops only what it removes.**  It does so exactly when it is over with its
plan or the plan's victims are closed, as far as the replies take the removal. -/
theorem removal_stops_only_removed_iff (hstop : StopsDependents env dependsOn)
    (stillInstalled : String → Prop) :
    StopsOnlyRemoved names opts stillInstalled w ((apply env .remove names opts).exec w).1
        ((apply env .remove names opts).exec w).2 ↔
      ∀ p w₁, (plan env .remove names opts).exec w = (.ok (.report p), w₁) →
        RemovalIsClosed env dependsOn stillInstalled w.loaded p w₁.calls := by
  obtain ⟨res, w₁, hplan⟩ : ∃ res w₁, (plan env .remove names opts).exec w = (res, w₁) :=
    ⟨_, _, rfl⟩
  by_cases hreport : ∃ p, res = .ok (.report p)
  · obtain ⟨p, rfl⟩ := hreport
    rw [forall_planned_iff hplan]
    unfold RemovalIsClosed
    by_cases hconfirmed : p.victims ≠ [] ∧ gateOpens env w₁.calls = true ∧
        accepted (env.reply (w₁.calls + 2)) = true
    · obtain ⟨hne, hopens, hconfirm⟩ := hconfirmed
      obtain ⟨front, rest, hvictims⟩ := List.exists_cons_of_ne_nil hne
      rw [stopsOnlyRemoved_of_confirmed_iff hstop hplan hvictims hopens hconfirm, if_pos hconfirm]
      exact ⟨fun h _ _ => h, fun h => h hne hopens⟩
    · have hfails : p.victims = [] ∨ gateOpens env w₁.calls = false ∨
          accepted (env.reply (w₁.calls + 2)) = false := by
        by_contra hall
        simp only [not_or, Bool.not_eq_false] at hall
        exact hconfirmed hall
      rw [stopsOnlyRemoved_of_failing_iff hstop hplan hfails]
      constructor
      · intro h hne hopens
        rw [if_neg fun hconfirm => hconfirmed ⟨hne, hopens, hconfirm⟩]
        exact fun m hm hstill => h m hm hstill hne hopens
      · intro h m hm hstill hne hopens
        have hclosed := h hne hopens
        rw [if_neg fun hconfirm => hconfirmed ⟨hne, hopens, hconfirm⟩] at hclosed
        exact hclosed m hm hstill
  · have hno : ∀ p, res ≠ .ok (.report p) := fun p heq => hreport ⟨p, heq⟩
    rw [(apply_of_not_planned hplan hno).2]
    refine iff_of_true ⟨?_, ?_⟩ (forall_planned_of_not hplan hno)
    · intro r hr
      exact absurd hr (hno r)
    · intro _ m hm _
      rw [plan_loaded hplan]
      exact hm

end Removal

/-- The replies of a removal of `lib` alone whose confirmation is answered with `confirmation`. -/
def removalReplies (confirmation : Json) : List Reply :=
  [.ok (.arr [.obj [("name", .str "lib"), ("version", .str "1.0")]]),
    .ok (.obj [("success", .bool true)]), .ok (.obj [("success", .bool true)]), .ok confirmation]

/-- The answer to a removal of `lib`. -/
def libRemoved : Report where
  op := .remove
  changes := [⟨"lib", .remove, "1.0", "", .removal⟩]
  affectedLoaded := ["lib"]
  removed := some ["lib"]
  reloaded := some []

/-- **A removal stops what it leaves installed.**  `lib` is removed without its dependents; `app`,
which depends on it and stays, was running before, is not running after, and is reported
nowhere. -/
theorem removal_stops_dependent :
    let env := graphEnv [("app", "lib")] (removalReplies (.obj [("success", .bool true)]))
    let run := (apply env .remove ["lib"] { withDependents := false }).exec ⟨["lib", "app"], 0, []⟩
    StopsDependents env (edge [("app", "lib")]) ∧ run.1 = .ok (.report libRemoved) ∧
      "app" ∉ run.2.loaded ∧ "app" ∉ libRemoved.removed.getD [] ∧
      ¬ StopsOnlyRemoved ["lib"] { withDependents := false } (fun _ => True)
        ⟨["lib", "app"], 0, []⟩ run.1 run.2 := by
  have hrun : ((apply (graphEnv [("app", "lib")] (removalReplies (.obj [("success", .bool true)])))
      .remove ["lib"] { withDependents := false }).exec ⟨["lib", "app"], 0, []⟩).1 =
      .ok (.report libRemoved) := by decide +kernel
  have hgone : "app" ∉ ((apply (graphEnv [("app", "lib")]
      (removalReplies (.obj [("success", .bool true)]))) .remove ["lib"]
      { withDependents := false }).exec ⟨["lib", "app"], 0, []⟩).2.loaded := by decide +kernel
  refine ⟨graphEnv_stopsDependents _ _, hrun, hgone, by decide, ?_⟩
  rintro ⟨hok, -⟩
  exact hgone (((hok libRemoved hrun rfl).1 "app").mpr ⟨by decide, by decide⟩)

/-- With nothing running that depends on `lib`, its removal stops `lib` and nothing else. -/
theorem removal_stops_only_lib :
    let env := graphEnv [("app", "lib")] (removalReplies (.obj [("success", .bool true)]))
    let run := (apply env .remove ["lib"] { withDependents := false }).exec ⟨["lib", "log"], 0, []⟩
    StopsOnlyRemoved ["lib"] { withDependents := false } (· ≠ "lib") ⟨["lib", "log"], 0, []⟩
      run.1 run.2 := by
  have hnot : "log" ∉ cascade (edge [("app", "lib")]) {y | y ∈ ["lib"]} := by
    rw [mem_cascade_iff]
    rintro ⟨m, hm, heq | hreach⟩
    · subst heq
      exact absurd hm (by decide)
    · obtain rfl := List.mem_singleton.mp hm
      exact absurd (reach_iff.mpr hreach) (by decide)
  refine (removal_stops_only_removed_iff (graphEnv_stopsDependents _ _) (· ≠ "lib")).mpr ?_
  intro p w₁ hplan _ _
  have hreport : ((plan (graphEnv [("app", "lib")]
      (removalReplies (.obj [("success", .bool true)]))) .remove ["lib"]
      { withDependents := false }).exec ⟨["lib", "log"], 0, []⟩).1 =
      .ok (.report { libRemoved with removed := none, reloaded := none }) := by decide +kernel
  rw [hplan] at hreport
  cases hreport
  split
  · intro m hm hcascade
    simp only [List.mem_cons, List.not_mem_nil, or_false] at hm
    rcases hm with rfl | rfl
    · decide
    · exact absurd hcascade hnot
  · intro m hm hne
    simp only [List.mem_cons, List.not_mem_nil, or_false] at hm
    rcases hm with rfl | rfl
    · exact absurd rfl hne
    · exact hnot

end Logosctl.PackageOps
