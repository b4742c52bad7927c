/-
# What an operation reports of what it did

The report of an operation lists what was installed, what was removed and which modules were
reloaded, so that a client knows what has changed.  The lists are made along the way and attached
at the end: a run that ends early returns the plan, marked as failed, and none of them.  So a run
that fails after a first file got installed does not say so, and an upgrade that takes a package
away and fails to put it back never does.  Nor does the restart list a module that the runtime
brings up with another.

`reports_exactly_iff` says on which replies the report is what was done.
-/
import Logosctl.PackageOps.Completed
import Logosctl.PackageOps.Gates
import Logosctl.PackageOps.Running
import Logosctl.PackageOps.Upgrade

namespace Logosctl.PackageOps

open Library

/-! ## 1. What was done, and what is reported of it -/

/-- The packages that an accepted removal takes away. -/
def batchRemoved : Event → List String
  | .call module method [.arr victims] answer =>
    if module = kPackageManager ∧ method = "confirmMultiUninstall" ∧ accepted answer then
      victims.filterMap asString
    else []
  | _ => []

/-- What an event does to package `n`: takes it away, or puts it back. -/
def takesAway (pkgOf : String → String) (n : String) (e : Event) : Option Bool :=
  if n ∈ batchRemoved e then some true else (writesPackage pkgOf n e).map (!·)

/-- Package `n` has been removed and not put back. -/
def gone (pkgOf : String → String) (n : String) (w w' : World) : Bool :=
  ledger (takesAway pkgOf n) false w w'

/-- Module `x` has been stopped, and later started again. -/
def StoppedAndStarted (w w' : World) (x : String) : Prop :=
  ∃ es₁ e es₂, eventsSince w w' = es₁ ++ e :: es₂ ∧ e.Stops x ∧ ∃ e' ∈ es₂, e'.Starts x

/-- A list of the report, if the caller gets a report and the list is in it. -/
def listed (list : Report → Option (List String)) : Except Exit Answer → List String
  | .ok (.report r) => (list r).getD []
  | _ => []

/-- The three lists are what was done. -/
structure ReportsExactly (pkgOf : String → String) (w w' : World) (res : Except Exit Answer) :
    Prop where
  installed : listed (·.installed) res = (fileInstalls w w').map pkgOf
  removed : ∀ n, n ∈ listed (·.removed) res ↔ gone pkgOf n w w' = true
  reloaded : ∀ x, x ∈ listed (·.reloaded) res ↔ StoppedAndStarted w w' x

/-- Of the starts of `ms`, one after the other, that of `x` itself succeeds. -/
def StartsItself (env : Env) (ms : List String) (w : World) (x : String) : Prop :=
  ∃ pre post, ms = pre ++ x :: post ∧
    (env.load (startAll env pre w).log.length (startAll env pre w).loaded x).1 = true

/-- The restart of a plan from `w`, when `running` ran before the operation: where nothing was
gated, and so nothing stopped, no start succeeds; and what was stopped comes up only by a start of
its own. -/
structure RestartsOwn (env : Env) (opts : Options) (p : Report) (names running : List String)
    (w : World) : Prop where
  gated : items opts p names = [] → ∀ x, ¬ StartsItself env p.affectedLoaded w x
  own : ∀ x ∈ running, x ∉ w.loaded → x ∈ (startAll env p.affectedLoaded w).loaded →
    StartsItself env p.affectedLoaded w x

/-- The replies after the plan, and the runtime at the restart, on which an install or upgrade
reports what it did: it goes through, or nothing gets installed; an upgrade leaves no package
behind; and what is restarted is what was stopped. -/
structure CanReport (env : Env) (pkgOf : String → String) (op : Op) (names : List String)
    (opts : Options) (running : List String) (p : Report) (w : World) : Prop where
  partly : ¬ Completes env opts p names w.calls → installedFiles env opts p names w.calls = []
  kept : op = .upgrade → ∀ n, KeepsPackage env pkgOf opts p names w.calls n
  restart : Completes env opts p names w.calls → RestartsOwn env opts p names running
    (((installAll env op p names opts).exec w).2.after env .refresh)

section Reported

variable {env : Env} {dependsOn : String → String → Prop} {op : Op} {p : Report}
  {names : List String} {opts : Options} {w w₁ w₂ w' : World} {pkgOf : String → String}
  {n x : String} {b : Bool} {F : Footprint} {res : Except Exit Answer}

/-! ## 2. What has been removed -/

/-- What confirms no removal takes away what it does not leave present. -/
theorem gone_eq_not_presence (hF : "confirmMultiUninstall" ∉ F.methods)
    (h : Performs env F.Allows w w') : gone pkgOf n w w' = !presence pkgOf n true w w' := by
  unfold gone ledger presence
  refine (lastWrite_congr fun e he => ?_).trans (lastWrite_map (b := true) (!·))
  obtain ⟨s, a, -, ha, -, rfl⟩ := h.mem_eventsSince he
  have hbatch : batchRemoved (s.event env a) = [] := by
    cases a with
    | call module method args =>
      have hne : method ≠ "confirmMultiUninstall" := fun heq => hF (heq ▸ ha)
      unfold World.event batchRemoved
      split
      · next heq =>
        cases heq
        exact if_neg fun hall => hne hall.2.1
      · rfl
    | unload name b => rfl
    | load name => rfl
    | refresh => rfl
    | warn line => rfl
  rw [takesAway, hbatch, if_neg List.not_mem_nil]

/-- What neither removes, upgrades nor installs leaves every package as it was. -/
theorem gone_of_footprint (hbatch : "confirmMultiUninstall" ∉ F.methods)
    (hconfirm : "confirmUpgrade" ∉ F.methods) (hinstall : "installPlugin" ∉ F.methods)
    (h : Performs env F.Allows w w') : gone pkgOf n w w' = false := by
  rw [gone_eq_not_presence hbatch h, presence_of_footprint hconfirm hinstall h]
  rfl

/-- The methods of a whole install or upgrade, and the modules it stops and starts. -/
def Op.applyFootprint (op : Op) (affected : List String) : Footprint where
  methods := planFootprint.methods ++ (op.installFootprint affected).methods
  stops := affected
  starts := affected

/-- The whole of an install or upgrade. -/
theorem performs_apply (hop : op ≠ .remove)
    (hplan : (plan env op names opts).exec w = (.ok (.report p), w₁)) :
    Performs env (op.applyFootprint p.affectedLoaded).Allows w
      ((apply env op names opts).exec w).2 := by
  have hpart₁ := (does_plan op names opts).of_exec hplan
  have hpart₂ := (@does_installAll_of_op env op p names opts w₁).1
  have hpart₃ := performs_rest hop hplan
  refine (hpart₁.mono fun _ _ => ?_).trans ((hpart₂.mono fun _ _ => ?_).trans
    (hpart₃.mono fun _ _ => ?_))
  · exact Footprint.allows_mono (F := planFootprint) (G := op.applyFootprint p.affectedLoaded)
      (List.subset_append_left _ _) (List.nil_subset _) (List.nil_subset _)
  · exact Footprint.allows_mono (F := op.installFootprint p.affectedLoaded)
      (G := op.applyFootprint p.affectedLoaded) (List.subset_append_right _ _)
      (List.Subset.refl _) (List.nil_subset _)
  · exact Footprint.allows_mono (F := ⟨[], [], p.affectedLoaded⟩)
      (G := op.applyFootprint p.affectedLoaded) (List.nil_subset _) (List.nil_subset _)
      (List.Subset.refl _)

/-- **What an install or upgrade leaves behind**: an install takes nothing away, and an upgrade
what it does not put back. -/
theorem gone_apply_iff (hop : op ≠ .remove)
    (hplan : (plan env op names opts).exec w = (.ok (.report p), w₁)) :
    gone pkgOf n w ((apply env op names opts).exec w).2 = false ↔
      (op = .upgrade → KeepsPackage env pkgOf opts p names w₁.calls n) := by
  have hrun := performs_apply hop hplan
  have hbatch : "confirmMultiUninstall" ∉ (op.applyFootprint p.affectedLoaded).methods := by
    cases op <;> simp [Op.applyFootprint, planFootprint, Op.installFootprint, Op.passFootprint,
      downloadFootprint, requestCall, cancelCall, confirmCall]
  rw [gone_eq_not_presence hbatch hrun, Bool.not_eq_false']
  cases op with
  | remove => exact absurd rfl hop
  | install =>
    have hconfirm : "confirmUpgrade" ∉ (Op.install.applyFootprint p.affectedLoaded).methods := by
      simp [Op.applyFootprint, planFootprint, Op.installFootprint, Op.passFootprint,
        downloadFootprint, requestCall, cancelCall, confirmCall]
    rw [presence_eq_any hconfirm hrun, Bool.or_true]
    exact iff_of_true rfl fun h => by cases h
  | upgrade =>
    rw [presence_apply true hplan, presence_installAll_iff]
    exact ⟨fun h _ => h, fun h => h rfl⟩

/-! ## 3. What has been started again -/

theorem startsItself_cons_iff {m : String} {ms : List String} :
    StartsItself env (m :: ms) w x ↔
      (m = x ∧ (env.load w.log.length w.loaded m).1 = true) ∨
        StartsItself env ms (w.after env (.load m)) x := by
  constructor
  · rintro ⟨pre, post, hsplit, hok⟩
    cases pre with
    | nil =>
      obtain ⟨rfl, rfl⟩ := List.cons.inj hsplit
      exact Or.inl ⟨rfl, hok⟩
    | cons y pre =>
      obtain ⟨rfl, rfl⟩ := List.cons.inj hsplit
      exact Or.inr ⟨pre, post, rfl, hok⟩
  · rintro (⟨rfl, hok⟩ | ⟨pre, post, rfl, hok⟩)
    · exact ⟨[], ms, rfl, hok⟩
    · exact ⟨m :: pre, post, rfl, hok⟩

/-- The restart reports the modules whose own start succeeds. -/
theorem mem_restarted_iff {ms : List String} :
    x ∈ restarted env ms w ↔ StartsItself env ms w x := by
  induction ms generalizing w with
  | nil =>
    refine iff_of_false List.not_mem_nil ?_
    rintro ⟨pre, post, hsplit, -⟩
    simp at hsplit
  | cons m ms ih =>
    rw [startsItself_cons_iff, ← ih, restarted]
    cases (env.load w.log.length w.loaded m).1 <;> simp [eq_comm]

/-- A module whose own start succeeds is one of the list, and is up in the end. -/
theorem StartsItself.mem_loaded {ms : List String} (hstart : StartsRequested env)
    (h : StartsItself env ms w x) : x ∈ ms ∧ x ∈ (startAll env ms w).loaded := by
  obtain ⟨pre, post, rfl, hok⟩ := h
  refine ⟨by simp, ?_⟩
  have hsplit : startAll env (pre ++ x :: post) w =
      startAll env post ((startAll env pre w).after env (.load x)) := List.foldl_append
  rw [hsplit]
  exact (performs_startAll env post _).mem_loaded hstart rfl (hstart.starts _ _ _ hok)

/-- **What a run that completes stops and starts again**: what was running, is down when the
installs end, and is up in the end. -/
theorem stoppedAndStarted_iff {installedNow : List String} (hstop : StopsDependents env dependsOn)
    (hstart : StartsRequested env)
    (hplan : (plan env op names opts).exec w = (.ok (.report p), w₁))
    (hinst : (installAll env op p names opts).exec w₁ = (.ok installedNow, w₂)) :
    StoppedAndStarted w (startAll env p.affectedLoaded (w₂.after env .refresh)) x ↔
      x ∈ w.loaded ∧ x ∉ w₂.loaded ∧
        x ∈ (startAll env p.affectedLoaded (w₂.after env .refresh)).loaded := by
  have hpart₁ := (does_plan op names opts).of_exec hplan
  have hpart₂ : Performs env (installFootprint p.affectedLoaded).Allows w₁ w₂ :=
    (does_installAll names opts).of_exec hinst
  have hpart₃ := performs_restart env p.affectedLoaded w₂
  have hevents := eventsSince_success hplan hinst
  rw [← plan_loaded hplan]
  constructor
  · rintro ⟨es₁, e, es₂, hsplit, hstops, e', he', hstarts⟩
    have he := mem_installs_of_stops hstart hplan hinst (hsplit ▸ by simp) hstops
    refine ⟨(hpart₂.stops_mem_cascade hstop rfl he hstops).1, ?_, ?_⟩
    · obtain ⟨s, a, -, -, hrest, rfl⟩ := hpart₂.mem_eventsSince he
      have hdown := (World.event_stops_iff.mp hstops).2
      exact fun hup => hdown (hrest.loaded_of_mem hstop rfl hup)
    · -- only the restart starts anything, and nothing is stopped after it
      obtain ⟨m, hm⟩ := hstarts.attempts
      have hmem : e' ∈ eventsSince w (startAll env p.affectedLoaded (w₂.after env .refresh)) := by
        rw [hsplit]
        exact List.mem_append_right _ (List.mem_cons_of_mem e he')
      rw [hevents, List.mem_append, List.mem_append] at hmem
      rcases hmem with hmem | hmem | hmem
      · exact absurd hm (hpart₁.not_attempts rfl hmem)
      · exact absurd hm (hpart₂.not_attempts rfl hmem)
      · obtain ⟨s, a, -, -, hrest, rfl⟩ := hpart₃.mem_eventsSince hmem
        exact hrest.mem_loaded hstart rfl (World.mem_loaded_of_event_starts hstarts)
  · rintro ⟨hup, hdown, hup'⟩
    obtain ⟨e, he, hstops⟩ := hpart₂.exists_stops hup hdown
    obtain ⟨e', he', hstarts⟩ := hpart₃.exists_starts rfl hdown hup'
    obtain ⟨es₁, es₂, hsplit⟩ := List.append_of_mem he
    refine ⟨eventsSince w w₁ ++ es₁, e, es₂ ++ eventsSince w₂
      (startAll env p.affectedLoaded (w₂.after env .refresh)), ?_, hstops, e', ?_, hstarts⟩
    · rw [hevents, hsplit]
      simp
    · exact List.mem_append_right _ he'

/-- A run that attempts no start has started nothing again. -/
theorem not_stoppedAndStarted (h : ∀ m, ∀ e ∈ eventsSince w w', ¬ e.Attempts m) :
    ¬ StoppedAndStarted w w' x := by
  rintro ⟨es₁, e, es₂, hsplit, -, e', he', hstarts⟩
  obtain ⟨m, hm⟩ := hstarts.attempts
  refine h m e' ?_ hm
  rw [hsplit]
  exact List.mem_append_right _ (List.mem_cons_of_mem e he')

/-! ## 4. Runs that report nothing -/

/-- A plan has none of the three lists. -/
theorem plan_lists (hplan : (plan env op names opts).exec w = (.ok (.report p), w₁)) :
    p.installed = none ∧ p.removed = none ∧ p.reloaded = none := by
  obtain ⟨installedByName, affected, -, -, hp⟩ := plan_planned hplan
  rw [hp]
  exact ⟨rfl, rfl, rfl⟩

/-- What ends early reports the plan's lists, and so none. -/
theorem listed_of_ends {q : M Answer} {e : Exit}
    (hplan : (plan env op names opts).exec w = (.ok (.report p), w₁))
    (hq : q.exec w₁ = (.error e, w₂)) (he : e.Ends p) :
    listed (·.installed) ((catchReturn q).exec w₁).1 = [] ∧
      listed (·.removed) ((catchReturn q).exec w₁).1 = [] ∧
      listed (·.reloaded) ((catchReturn q).exec w₁).1 = [] := by
  obtain ⟨hinstalled, hremoved, hreloaded⟩ := plan_lists hplan
  rw [exec_catchReturn, hq]
  cases e with
  | threw t => exact ⟨rfl, rfl, rfl⟩
  | returned a =>
    obtain ⟨step, message, heq⟩ := he
    cases heq
    simp only [listed, hinstalled, hremoved, hreloaded, Option.getD_none, and_self]

/-- A run that does nothing the lists are about, and reports nothing, reports exactly. -/
theorem reportsExactly_of_nothing
    (hlists : listed (·.installed) res = [] ∧ listed (·.removed) res = [] ∧
      listed (·.reloaded) res = [])
    (hfiles : fileInstalls w w' = []) (hgone : ∀ n, gone pkgOf n w w' = false)
    (hattempts : ∀ m, ∀ e ∈ eventsSince w w', ¬ e.Attempts m) :
    ReportsExactly pkgOf w w' res where
  installed := by rw [hlists.1, hfiles, List.map_nil]
  removed n := by simp [hlists.2.1, hgone n]
  reloaded x := by
    rw [hlists.2.2]
    exact iff_of_false List.not_mem_nil (not_stoppedAndStarted hattempts)

/-- An operation that is over with its plan reports exactly what it did: nothing. -/
theorem reportsExactly_of_not_planned
    (hplan : (plan env op names opts).exec w = (res, w₁)) (hno : ∀ p, res ≠ .ok (.report p)) :
    ReportsExactly pkgOf w w₁ res := by
  have hpart := (does_plan op names opts).of_exec hplan
  refine reportsExactly_of_nothing ?_ (fileInstalls_of_footprint (by decide) hpart)
    (fun n => gone_of_footprint (by decide) (by decide) (by decide) hpart)
    fun m e he => hpart.not_attempts rfl he
  cases res with
  | error e => exact ⟨rfl, rfl, rfl⟩
  | ok a =>
    cases a with
    | err code message => exact ⟨rfl, rfl, rfl⟩
    | report p => exact absurd rfl (hno p)

/-! ## 5. Removals -/

/-- Everything of a removal but its confirmation. -/
def requestFootprint (stops : List String) : Footprint :=
  ⟨["requestMultiUninstall", "ackPendingAction", "cancelMultiUninstall"], stops, []⟩

theorem gone_request {T : List String} (h : Performs env (requestFootprint T).Allows w w') :
    gone pkgOf n w w' = false :=
  gone_of_footprint (F := requestFootprint T) (by simp [requestFootprint])
    (by simp [requestFootprint]) (by simp [requestFootprint]) h

theorem performs_removalOpened {victims T : List String} {front : String} :
    Performs env (requestFootprint T).Allows w (removalOpened env victims front w) := by
  have hrequest : Performs env (requestFootprint T).Allows w
      (w.after env (requestMultiAct victims)) :=
    .single (by simp [Footprint.Allows, requestFootprint, requestMultiAct])
  exact hrequest.act (by simp [Footprint.Allows, requestFootprint, ackAct])

theorem performs_removalStopped {victims : List String} {front : String} :
    Performs env (requestFootprint victims).Allows w (removalStopped env victims front w) := by
  refine performs_removalOpened.trans ((performs_stopAll victims _).mono fun w a h => ?_)
  exact Footprint.allows_mono (F := ⟨[], victims, []⟩) (G := requestFootprint victims)
    (List.nil_subset _) (List.Subset.refl _) (List.Subset.refl _) h

/-- A confirmation takes away the victims, if it is accepted. -/
theorem gone_removalConfirmed {victims : List String} {front : String} :
    gone pkgOf n w (removalConfirmed env victims front w) =
      (decide (n ∈ victims) && accepted (env.reply (w.calls + 2))) := by
  have hstopped := @performs_removalStopped env w victims front
  have hnone : ledger (takesAway pkgOf n) false w (removalStopped env victims front w) = false :=
    gone_request hstopped
  unfold gone removalConfirmed
  rw [ledger_act hstopped, hnone]
  simp only [World.event, confirmMultiAct, victimArgs, takesAway, batchRemoved, writesPackage,
    filterMap_asString, calls_removalStopped, Option.map_none, true_and]
  cases accepted (env.reply (w.calls + 2)) <;> by_cases hn : n ∈ victims <;> simp [hn]

/-- **How a removal goes**: it ends early and has removed nothing, or it reports its victims and
has removed those. -/
theorem applyRemove_cases (pkgOf : String → String) :
    (∃ e w', (applyRemove env p).exec w = (.error e, w') ∧ ∀ n, gone pkgOf n w w' = false) ∨
      ∃ w', (applyRemove env p).exec w =
          (.ok (.report { p with removed := some p.victims, reloaded := some [] }), w') ∧
        ∀ n, gone pkgOf n w w' = decide (n ∈ p.victims) := by
  have hopened : ∀ {victims front}, Performs env (requestFootprint []).Allows w
      (removalOpened env victims front w) := performs_removalOpened
  cases hvictims : p.victims with
  | nil => exact Or.inl ⟨_, w, applyRemove_of_nil hvictims, fun n => ledger_self⟩
  | cons front rest =>
    cases hrequest : accepted (env.reply w.calls) with
    | false =>
      obtain ⟨e, hrun⟩ := applyRemove_of_not_requested hvictims hrequest
      have hasked : Performs env (requestFootprint []).Allows w
          (w.after env (requestMultiAct p.victims)) :=
        .single (by simp [Footprint.Allows, requestFootprint, requestMultiAct])
      exact Or.inl ⟨e, _, hrun, fun n => gone_request hasked⟩
    | true =>
      cases hack : accepted (env.reply (w.calls + 1)) with
      | false =>
        obtain ⟨e, hrun⟩ := applyRemove_of_not_acknowledged hvictims hrequest hack
        have hcancelled : Performs env (requestFootprint []).Allows w
            ((removalOpened env p.victims front w).after env (cancelMultiAct p.victims)) :=
          hopened.act (by simp [Footprint.Allows, requestFootprint, cancelMultiAct])
        refine Or.inl ⟨e, _, hrun, fun n => ?_⟩
        split
        · exact gone_request hcancelled
        · exact gone_request hopened
      | true =>
        have hopens : gateOpens env w.calls = true := by simp [gateOpens, hrequest, hack]
        cases hconfirm : accepted (env.reply (w.calls + 2)) with
        | false =>
          obtain ⟨e, hrun⟩ := applyRemove_of_not_confirmed hvictims hopens hconfirm
          refine Or.inl ⟨e, _, hrun, fun n => ?_⟩
          rw [gone_removalConfirmed, hconfirm, Bool.and_false]
        | true =>
          have hconfirmed : Performs env (fun _ _ => True) w
              (removalConfirmed env p.victims front w) := performs_removalStopped.any.act trivial
          rw [← hvictims]
          refine Or.inr ⟨_, applyRemove_of_confirmed hvictims hopens hconfirm, fun n => ?_⟩
          have hlast : gone pkgOf n w
              ((removalConfirmed env p.victims front w).after env .refresh) =
                gone pkgOf n w (removalConfirmed env p.victims front w) := ledger_act hconfirmed _
          rw [hlast, gone_removalConfirmed, hconfirm, Bool.and_true]

/-- **A removal reports exactly what it removed**, whichever way it ends. -/
theorem removal_reportsExactly :
    ReportsExactly pkgOf w ((apply env .remove names opts).exec w).2
      ((apply env .remove names opts).exec w).1 := by
  obtain ⟨res, w₁, hplan⟩ : ∃ res w₁, (plan env .remove names opts).exec w = (res, w₁) :=
    ⟨_, _, rfl⟩
  by_cases hreport : ∃ p, res = .ok (.report p)
  · obtain ⟨p, rfl⟩ := hreport
    have hpart₁ := (does_plan .remove names opts).of_exec hplan
    have hpart₂ := (@does_applyRemove env p w₁).1
    have hfiles : fileInstalls w ((applyRemove env p).exec w₁).2 = [] := by
      rw [fileInstalls_trans hpart₁ hpart₂,
        fileInstalls_of_footprint (F := planFootprint) (by decide) hpart₁,
        fileInstalls_of_footprint (F := removeFootprint _) (by simp [removeFootprint]) hpart₂]
      rfl
    have hattempts : ∀ m, ∀ e ∈ eventsSince w ((applyRemove env p).exec w₁).2, ¬ e.Attempts m := by
      intro m e he
      rw [hpart₁.eventsSince_trans hpart₂] at he
      rcases List.mem_append.mp he with he | he
      · exact hpart₁.not_attempts rfl he
      · exact hpart₂.not_attempts rfl he
    have hgone : ∀ n, gone pkgOf n w ((applyRemove env p).exec w₁).2 =
        gone pkgOf n w₁ ((applyRemove env p).exec w₁).2 := by
      intro n
      have hnone : ledger (takesAway pkgOf n) false w w₁ = false :=
        gone_of_footprint (F := planFootprint) (by decide) (by decide) (by decide) hpart₁
      unfold gone
      rw [ledger_trans hpart₁ hpart₂, hnone]
    rw [apply_of_planned hplan, if_pos rfl, exec_catchReturn_world]
    rcases @applyRemove_cases env p w₁ pkgOf with ⟨e, w', hrun, hnone⟩ | ⟨w', hrun, hvictims⟩
    · refine reportsExactly_of_nothing
        (listed_of_ends hplan hrun (does_applyRemove.of_error hrun)) hfiles (fun n => ?_) hattempts
      rw [hgone n, hrun]
      exact hnone n
    · obtain ⟨hinstalled, -, -⟩ := plan_lists hplan
      have hres : ((catchReturn (applyRemove env p)).exec w₁).1 =
          .ok (.report { p with removed := some p.victims, reloaded := some [] }) := by
        rw [exec_catchReturn, hrun]
      refine ⟨?_, fun n => ?_, fun x => ?_⟩
      · rw [hfiles, hres, listed, hinstalled]
        rfl
      · rw [hgone n, hres, hrun, hvictims n, decide_eq_true_iff]
        rfl
      · rw [hres]
        exact iff_of_false List.not_mem_nil (not_stoppedAndStarted hattempts)
  · have hno : ∀ p, res ≠ .ok (.report p) := fun p heq => hreport ⟨p, heq⟩
    rw [(apply_of_not_planned hplan hno).2]
    exact reportsExactly_of_not_planned hplan hno

/-! ## 6. Installs and upgrades -/

/-- **The restart reports what was stopped and started again** exactly when it restarts only what
was stopped, each by a start of its own. -/
theorem restarted_exactly_iff {installedNow : List String} (hstop : StopsDependents env dependsOn)
    (hstart : StartsRequested env)
    (hplan : (plan env op names opts).exec w = (.ok (.report p), w₁))
    (hinst : (installAll env op p names opts).exec w₁ = (.ok installedNow, w₂)) :
    (∀ x, x ∈ restarted env p.affectedLoaded (w₂.after env .refresh) ↔
        StoppedAndStarted w (startAll env p.affectedLoaded (w₂.after env .refresh)) x) ↔
      RestartsOwn env opts p names w.loaded (w₂.after env .refresh) := by
  have hloaded := plan_loaded hplan
  have hsame : (w₂.after env .refresh).loaded = w₂.loaded := rfl
  simp only [mem_restarted_iff, stoppedAndStarted_iff hstop hstart hplan hinst]
  constructor
  · intro hiff
    refine ⟨fun hitems x hx => ?_, fun x hup hdown hup' => (hiff x).mpr ⟨hup, hdown, hup'⟩⟩
    obtain ⟨hup, hdown, -⟩ := (hiff x).mp hx
    refine hdown ((mem_loaded_installAll_iff hstop hinst (hloaded ▸ hup)).mpr fun hne => ?_)
    exact absurd hitems hne
  · intro hown x
    refine ⟨fun hx => ?_, fun ⟨hup, hdown, hup'⟩ => hown.own x hup hdown hup'⟩
    obtain ⟨hlisted, hup'⟩ := hx.mem_loaded hstart
    have hup : x ∈ w.loaded := (plan_report hplan).2.2 hlisted
    have hitems : items opts p names ≠ [] := fun hnil => hown.gated hnil x hx
    refine ⟨hup, fun hmem => ?_, hup'⟩
    refine (mem_loaded_installAll_iff hstop hinst (hloaded ▸ hup)).mp hmem hitems
      (gateOpens_of_ok hitems hinst) ?_
    exact mem_cascade_iff.mpr ⟨x, hlisted, Or.inl rfl⟩

/-- An install or upgrade whose installs go through. -/
theorem reportsExactly_of_completes_iff (hstop : StopsDependents env dependsOn)
    (hstart : StartsRequested env) (hop : op ≠ .remove)
    (hplan : (plan env op names opts).exec w = (.ok (.report p), w₁))
    (hrun : (apply env op names opts).exec w = (res, w'))
    (hnames : NamesFiles pkgOf (eventsSince w w'))
    (hcompletes : Completes env opts p names w₁.calls) :
    ReportsExactly pkgOf w w' res ↔
      (op = .upgrade → ∀ n, KeepsPackage env pkgOf opts p names w₁.calls n) ∧
        RestartsOwn env opts p names w.loaded
          (((installAll env op p names opts).exec w₁).2.after env .refresh) := by
  obtain ⟨installedNow, w₂, hinst⟩ := @installAll_of_completes env op p names opts w₁ hcompletes
  have hfiles := fileInstalls_apply hop hplan
  have hgone := fun n => @gone_apply_iff env op p names opts w w₁ pkgOf n hop hplan
  rw [fileInstalls_eq_installedFiles, hrun] at hfiles
  rw [hrun] at hgone
  rw [apply_of_planned hplan, if_neg hop, exec_catchReturn, applyInstall_of_ok hinst] at hrun
  cases hrun
  have hpart₁ := (does_plan op names opts).of_exec hplan
  have hpart₂ := (does_installAll names opts).of_exec hinst
  have hpart₃ := performs_restart env p.affectedLoaded w₂
  have hinstalled := installedNow_eq hop hplan hinst (hnames.mono fun e he => by
    rw [(hpart₁.any.trans hpart₂.any).eventsSince_trans hpart₃]
    exact List.mem_append_left _ he)
  obtain ⟨-, hremoved, -⟩ := plan_lists hplan
  have hrestarted := restarted_exactly_iff hstop hstart hplan hinst
  rw [hinst]
  constructor
  · intro hexact
    refine ⟨fun hup n => (hgone n).mp ?_ hup, hrestarted.mp hexact.reloaded⟩
    have hnot := hexact.removed n
    simp only [listed, hremoved, Option.getD_none, List.not_mem_nil, false_iff,
      Bool.not_eq_true] at hnot
    exact hnot
  · rintro ⟨hkept, hown⟩
    refine ⟨?_, fun n => ?_, hrestarted.mpr hown⟩
    · rw [hfiles]
      exact hinstalled
    · have hnot := (hgone n).mpr fun hup => hkept hup n
      simp [listed, hremoved, hnot]

/-- An install or upgrade whose installs do not go through. -/
theorem reportsExactly_of_not_completes_iff (hop : op ≠ .remove)
    (hplan : (plan env op names opts).exec w = (.ok (.report p), w₁))
    (hrun : (apply env op names opts).exec w = (res, w'))
    (hnot : ¬ Completes env opts p names w₁.calls) :
    ReportsExactly pkgOf w w' res ↔
      installedFiles env opts p names w₁.calls = [] ∧
        (op = .upgrade → ∀ n, KeepsPackage env pkgOf opts p names w₁.calls n) := by
  obtain ⟨e, w₂, hinst⟩ := @installAll_of_not_completes env op p names opts w₁ hnot
  have hends : e.Ends p := (does_installAll names opts).of_error hinst
  have hfiles := fileInstalls_apply hop hplan
  have hgone := fun n => @gone_apply_iff env op p names opts w w₁ pkgOf n hop hplan
  rw [fileInstalls_eq_installedFiles, hrun] at hfiles
  rw [hrun] at hgone
  have hended : (applyInstall env op p names opts).exec w₁ = (.error e, w₂) :=
    applyInstall_of_error hinst
  have hlists := listed_of_ends hplan hended hends
  have hfailing := (exec_catchReturn_of_failed hended hends.failed).1
  have hrun' := hrun
  rw [apply_of_planned hplan, if_neg hop] at hrun
  rw [hrun] at hlists hfailing
  have hattempts := fun m => apply_failure_not_attempts (x := m) hop hrun' hfailing
  constructor
  · intro hexact
    refine ⟨?_, fun hup n => (hgone n).mp ?_ hup⟩
    · have hnil := hexact.installed
      rw [hlists.1, hfiles] at hnil
      exact List.map_eq_nil_iff.mp hnil.symm
    · have hnone := hexact.removed n
      rw [hlists.2.1] at hnone
      simpa using hnone
  · rintro ⟨hnil, hkept⟩
    exact reportsExactly_of_nothing hlists (hfiles.trans hnil)
      (fun n => (hgone n).mpr fun hup => hkept hup n) hattempts

/-- **When an operation reports exactly what it did.**  It does so exactly when it is a removal, or
is over with its plan, or the replies that follow the plan let it: its installs go through or none
of them does, an upgrade leaves no package behind, and what is restarted is what was stopped. -/
theorem reports_exactly_iff (hstop : StopsDependents env dependsOn) (hstart : StartsRequested env)
    (hrun : (apply env op names opts).exec w = (res, w'))
    (hnames : NamesFiles pkgOf (eventsSince w w')) :
    ReportsExactly pkgOf w w' res ↔
      op = .remove ∨ ∀ p w₁, (plan env op names opts).exec w = (.ok (.report p), w₁) →
        CanReport env pkgOf op names opts w.loaded p w₁ := by
  by_cases hop : op = .remove
  · subst hop
    refine iff_of_true ?_ (Or.inl rfl)
    have hexact := @removal_reportsExactly env names opts w pkgOf
    rw [hrun] at hexact
    exact hexact
  rw [or_iff_right hop]
  rcases hplan : (plan env op names opts).exec w with ⟨planned, w₁⟩
  by_cases hreport : ∃ p, planned = .ok (.report p)
  · obtain ⟨p, rfl⟩ := hreport
    have hone := @forall_planned_iff env op names opts w w₁ p
      (fun q w₂ => CanReport env pkgOf op names opts w.loaded q w₂) hplan
    rw [hplan] at hone
    rw [hone]
    by_cases hcompletes : Completes env opts p names w₁.calls
    · rw [reportsExactly_of_completes_iff hstop hstart hop hplan hrun hnames hcompletes]
      exact ⟨fun h => ⟨fun hnot => absurd hcompletes hnot, h.1, fun _ => h.2⟩,
        fun h => ⟨h.kept, h.restart hcompletes⟩⟩
    · rw [reportsExactly_of_not_completes_iff hop hplan hrun hcompletes]
      exact ⟨fun h => ⟨fun _ => h.1, h.2, fun hyes => absurd hyes hcompletes⟩,
        fun h => ⟨h.partly hcompletes, h.kept⟩⟩
  · have hno : ∀ p, planned ≠ .ok (.report p) := fun p heq => hreport ⟨p, heq⟩
    rw [(apply_of_not_planned hplan hno).2] at hrun
    cases hrun
    refine iff_of_true (reportsExactly_of_not_planned hplan hno) fun p w₂ heq => ?_
    cases heq
    exact absurd rfl (hno p)

end Reported

/-- The replies of an install of `app`, with its dependency `lib`, in which `lib` gets installed and
`app` does not. -/
def interruptedReplies : List Reply :=
  (installReplies [entry "lib" false, entry "app" true] [fileOf "lib", fileOf "app"]).set 8
    (.ok (.obj [("error", .str "disk full")]))

/-- **An install that fails does not say what it has installed.**  `lib` gets installed and then
`app` does not; the result is an error that lists nothing. -/
theorem partial_install_unreported :
    let run := (apply (graphEnv [] interruptedReplies) .install ["app"] {}).exec ⟨[], 0, []⟩
    run.1 = .ok (.report
        { op := .install, changes := [⟨"lib", .install, "", "1.0", .catalog "" false⟩,
            ⟨"app", .install, "", "1.0", .catalog "" true⟩],
          affectedLoaded := [], status := .error, failedStep := some "install",
          error := some "app: disk full" }) ∧
      fileInstalls ⟨[], 0, []⟩ run.2 = ["lib"] ∧
      ¬ ReportsExactly id ⟨[], 0, []⟩ run.2 run.1 := by
  have hfiles : fileInstalls ⟨[], 0, []⟩ ((apply (graphEnv [] interruptedReplies) .install ["app"]
      {}).exec ⟨[], 0, []⟩).2 = ["lib"] := by decide +kernel
  have hlisted : listed (·.installed) ((apply (graphEnv [] interruptedReplies) .install ["app"]
      {}).exec ⟨[], 0, []⟩).1 = [] := by decide +kernel
  refine ⟨by decide +kernel, hfiles, ?_⟩
  intro hexact
  have hsame := hexact.installed
  rw [hfiles, hlisted] at hsame
  cases hsame

/-- An upgrade of `lib` that goes through reports that it installed and restarted `lib`. -/
theorem upgrade_reported_exactly :
    let run := (apply (upgradeEnv (.obj [("success", .bool true)])) .upgrade ["lib"] {}).exec
      ⟨["lib"], 0, []⟩
    ReportsExactly (fun _ => "lib") ⟨["lib"], 0, []⟩ run.2 run.1 := by
  intro run
  have hplan : ((plan (upgradeEnv (.obj [("success", .bool true)])) .upgrade ["lib"] {}).exec
      ⟨["lib"], 0, []⟩).1 = .ok (.report upgradePlan) := by decide +kernel
  have hevents : eventsSince ⟨["lib"], 0, []⟩ run.2 = [
      .call kPackageManager "getInstalledPackages" []
        ((upgradeReplies (.obj [("success", .bool true)])).getD 0 (.error "")),
      .call kPackageDownloader "resolveDependencies" [.str "", .str ""]
        ((upgradeReplies (.obj [("success", .bool true)])).getD 1 (.error "")),
      .call kPackageManager "requestUpgrade" [.str "lib", .str "", .int 0, .str ""]
        (.ok (.obj [("success", .bool true)])),
      .call kPackageManager "ackPendingAction" [.str "lib"] (.ok (.obj [("success", .bool true)])),
      .unload "lib" true ["lib"] [],
      .call kPackageManager "confirmUpgrade" [.str "lib", .str ""]
        (.ok (.obj [("success", .bool true)])),
      .call kPackageManager "getInstalledPackages" [] (.ok (.arr [])),
      .call kPackageDownloader "downloadResolvedDependencies" [.str "", .str ""]
        (.ok (.arr [.obj [("name", .str "lib"), ("path", .str "/tmp/lib.lgx")]])),
      .call kPackageManager "installPlugin" [.str "/tmp/lib.lgx", .bool false]
        (.ok (.obj [("path", .str "/tmp/lib.lgx")])),
      .refresh,
      .load "lib" true [] ["lib"]] := rfl
  have hnames : NamesFiles (fun _ => "lib") (eventsSince ⟨["lib"], 0, []⟩ run.2) := by
    rw [hevents]
    refine ⟨fun file answer name he => by simp at he, ?_⟩
    intro args answer he d hd path name _ _ hname
    simp [kPackageManager, kPackageDownloader] at he
    obtain ⟨-, rfl⟩ := he
    obtain rfl := List.mem_singleton.mp hd
    cases hname
    rfl
  have hrun : (apply (upgradeEnv (.obj [("success", .bool true)])) .upgrade ["lib"] {}).exec
      ⟨["lib"], 0, []⟩ = (run.1, run.2) := rfl
  have hstop : StopsDependents (upgradeEnv (.obj [("success", .bool true)]))
      (edge [("app", "lib")]) := graphEnv_stopsDependents _ _
  have hstart : StartsRequested (upgradeEnv (.obj [("success", .bool true)])) :=
    graphEnv_startsRequested _ _
  refine (reports_exactly_iff hstop hstart hrun hnames).mpr (Or.inr ?_)
  intro p w₁ hp
  have hcalls : ((plan (upgradeEnv (.obj [("success", .bool true)])) .upgrade ["lib"] {}).exec
      ⟨["lib"], 0, []⟩).2.calls = 2 := by decide +kernel
  rw [hp] at hplan hcalls
  cases hplan
  have hconfirmed : confirmedNames (upgradeEnv (.obj [("success", .bool true)])) w₁.calls ["lib"] =
      ["lib"] := by
    rw [hcalls]
    decide +kernel
  refine ⟨fun hnot => absurd ?_ hnot, fun _ n => ?_, fun _ => ⟨fun hnil => ?_, fun x hx _ _ => ?_⟩⟩
  · rw [Completes, if_neg (by decide), hcalls]
    exact ⟨hcalls ▸ hconfirmed, "", _, rfl, rfl, by decide +kernel⟩
  · rw [KeepsPackage, if_neg (by decide), hconfirmed, hcalls]
    intro hn
    obtain rfl := List.mem_singleton.mp hn
    exact ⟨rfl, "/tmp/lib.lgx", by decide +kernel, rfl⟩
  · cases hnil
  · obtain rfl := List.mem_singleton.mp hx
    exact ⟨[], [], rfl, rfl⟩

end Logosctl.PackageOps
