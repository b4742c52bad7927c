/-
# Package operations, step by step

What each part of `plan` and `apply` does to the world, once and for all: the methods it calls,
the modules it stops and starts, and the exits it may leave by (`does_…`); and, for the gate that
every package passes, the exact worlds it leads to (`passGate_of_…`), by the three replies it
reads.
-/
import Logosctl.PackageOps
import Logosctl.RunningSet

namespace Logosctl.PackageOps

open Library

/-! ## 1. Exits and footprints -/

/-- An exit that reports a failure: an exception, or an answer marked as an error. -/
def Exit.Failed : Exit → Prop
  | .threw _ => True
  | .returned a => a.isError = true

/-- An exit of an operation with report `r`: an exception, or `r` marked as failed. -/
def Exit.Ends (r : Report) : Exit → Prop
  | .threw _ => True
  | .returned a => ∃ step message, Exit.returned a = failure r step message

theorem Exit.Ends.failed {r : Report} {e : Exit} (h : e.Ends r) : e.Failed := by
  cases e with
  | threw t => trivial
  | returned a =>
    obtain ⟨step, message, heq⟩ := h
    cases heq
    rfl

/-- `plan` has no early exit that carries a report. -/
def Exit.Refused : Exit → Prop
  | .threw _ => True
  | .returned (.err _ _) => True
  | .returned (.report _) => False

/-- The methods `plan` calls. -/
def planFootprint : Footprint :=
  ⟨["getInstalledPackages", "resolveDependencies", "resolveFlatDependents", "inspectPackage"],
    [], []⟩

/-- The methods an install or an upgrade calls, and the modules it stops. -/
def installFootprint (stops : List String) : Footprint where
  methods := ["getInstalledPackages", "downloadResolvedDependencies", "requestInstall",
    "requestUpgrade", "requestUninstall", "ackPendingAction", "cancelInstall", "cancelUpgrade",
    "cancelUninstall", "confirmInstall", "confirmUpgrade", "installPlugin"]
  stops := stops

/-- The methods a gate calls, and the modules it stops. -/
def passFootprint (stops : List String) : Footprint where
  methods := ["requestInstall", "requestUpgrade", "requestUninstall", "ackPendingAction",
    "cancelInstall", "cancelUpgrade", "cancelUninstall", "confirmInstall", "confirmUpgrade"]
  stops := stops

/-- The methods that download and install. -/
def downloadFootprint : Footprint :=
  ⟨["getInstalledPackages", "downloadResolvedDependencies", "installPlugin"], [], []⟩

/-- Of the methods of a gate, those that one operation calls. -/
def Op.passFootprint (op : Op) (stops : List String) : Footprint where
  methods := [(requestCall op "" "").1, "ackPendingAction", (cancelCall op "").1,
    (confirmCall op "").1]
  stops := stops

/-- Of the methods of an install or an upgrade, those that one operation calls. -/
def Op.installFootprint (op : Op) (stops : List String) : Footprint where
  methods := (op.passFootprint stops).methods ++ downloadFootprint.methods
  stops := stops

/-- The methods a removal calls, and the modules it stops. -/
def removeFootprint (stops : List String) : Footprint where
  methods := ["requestMultiUninstall", "ackPendingAction", "cancelMultiUninstall",
    "confirmMultiUninstall"]
  stops := stops

section Does

variable {env : Env} {C : World → Act → Prop}

theorem does_read {α : Type} {E : Exit → Prop} (hE : ∀ t, E (.threw t)) (x : Except TypeError α) :
    Does env C E (read x) := does_lift hE x

/-- A read that goes well gives what was read, and does nothing. -/
theorem exec_read_eq_ok {α : Type} {x : Except TypeError α} {a : α} {w w' : World} :
    (read x : M α).exec w = (.ok a, w') ↔ x = .ok a ∧ w' = w := by
  cases x with
  | error t => simp [read]
  | ok b =>
    simp only [read, Prog.exec_lift_ok, Prod.mk.injEq, Except.ok.injEq]
    exact and_congr_right fun _ => eq_comm

theorem does_fail {α : Type} (r : Report) (step message : String) :
    Does env C (Exit.Ends r) (fail r step message : M α) := does_throw ⟨step, message, rfl⟩

end Does

/-! ## 2. Planning touches nothing -/

section Plan

variable {env : Env}

theorem planFootprint_call {module method : String} {args : List Json}
    (h : method ∈ planFootprint.methods) (w : World) :
    planFootprint.Allows w (.call module method args) := h

theorem does_installedPackages {F : Footprint} {E : Exit → Prop}
    (h : "getInstalledPackages" ∈ F.methods) : Does env F.Allows E (installedPackages env) := by
  unfold installedPackages
  refine does_bind (does_call fun _ => h) ?_
  rintro ⟨r, why⟩
  exact does_pure _

theorem does_resolveClosure (names : List String) (opts : Options) (installed : List Json) :
    Does env planFootprint.Allows Exit.Refused (resolveClosure env names opts installed) := by
  have hread : ∀ t, Exit.Refused (.threw t) := fun _ => trivial
  have hcall : ∀ args, Does env planFootprint.Allows Exit.Refused
      (call env kPackageDownloader "resolveDependencies" args : M (Json × String)) :=
    fun args => does_call (planFootprint_call (by decide))
  unfold resolveClosure
  split
  · refine does_bind (hcall _) ?_
    rintro ⟨r, why⟩
    cases r with
    | arr es => exact does_bind (does_read hread _) fun _ => does_pure _
    | _ => exact does_pure _
  · refine does_bind (does_read hread _) fun _ => does_bind (hcall _) ?_
    rintro ⟨r, why⟩
    cases r with
    | arr es => exact does_pure _
    | _ => exact does_pure _

theorem does_removalSet (name : String) (withDependents : Bool) :
    Does env planFootprint.Allows Exit.Refused (removalSet env name withDependents) := by
  unfold removalSet
  split
  · exact does_pure _
  · refine does_bind (does_call (planFootprint_call (by decide))) ?_
    rintro ⟨r, why⟩
    cases r with
    | arr ds => exact does_bind (does_read (fun _ => trivial) _) fun _ => does_pure _
    | _ => exact does_pure _

theorem does_planRemove (installedByName : List (String × InstalledInfo)) (withDependents : Bool)
    (names : List String) : ∀ acc : List Change × List String,
      Does env planFootprint.Allows Exit.Refused
        (planRemove env installedByName withDependents names acc) := by
  induction names with
  | nil => exact fun acc => does_pure acc
  | cons n ns ih =>
    intro acc
    unfold planRemove
    split
    · exact does_throw trivial
    · refine does_bind (does_removalSet _ _) ?_
      rintro ⟨set, e⟩
      dsimp only
      split
      · exact does_throw trivial
      · exact ih _

theorem does_planLocal (files : List String) :
    Does env planFootprint.Allows Exit.Refused (planLocal env files) := by
  have hread : ∀ t, Exit.Refused (.threw t) := fun _ => trivial
  induction files with
  | nil => exact does_pure _
  | cons f fs ih =>
    unfold planLocal
    refine does_bind (does_call (planFootprint_call (by decide))) ?_
    rintro ⟨info, why⟩
    dsimp only
    split
    · exact does_throw trivial
    · refine does_bind (does_read hread _) fun error => ?_
      split
      · exact does_throw trivial
      · refine does_bind (does_read hread _) fun c => does_bind ih ?_
        rintro ⟨changes, affected⟩
        exact does_pure _

theorem does_planResolved (installedByName : List (String × InstalledInfo)) (es : List Json) :
    Does env planFootprint.Allows Exit.Refused (planResolved installedByName es) := by
  induction es with
  | nil => exact does_pure _
  | cons e es ih =>
    unfold planResolved
    refine does_bind (does_read (fun _ => trivial) _) fun entry => ?_
    cases entry with
    | error message => exact does_throw trivial
    | ok c =>
      refine does_bind ih ?_
      rintro ⟨changes, affected⟩
      exact does_pure _

theorem does_planChanges (op : Op) (names : List String) (opts : Options)
    (installed : List Json) (installedByName : List (String × InstalledInfo)) :
    Does env planFootprint.Allows Exit.Refused
      (planChanges env op names opts installed installedByName) := by
  unfold planChanges
  split
  · exact does_planRemove _ _ _ _
  · split
    · exact does_planLocal _
    · refine does_bind (does_resolveClosure _ _ _) ?_
      rintro ⟨resolved, why⟩
      cases resolved with
      | none => exact does_throw trivial
      | some es => exact does_planResolved _ _

/-- An early `return` becomes an answer; anything else passes through. -/
theorem exec_catchReturn (p : M Answer) (w : World) :
    (catchReturn p).exec w =
      match p.exec w with
      | (.error (.returned a), w') => (.ok a, w')
      | r => r := rfl

/-- A report that leaves a caught operation is its ordinary result, unless an early exit
carried it. -/
theorem exec_catchReturn_eq_ok {p : M Answer} {w w' : World} {a : Answer} :
    (catchReturn p).exec w = (.ok a, w') ↔
      p.exec w = (.ok a, w') ∨ p.exec w = (.error (.returned a), w') := by
  rw [exec_catchReturn]
  cases h : p.exec w with
  | mk r t =>
    cases r with
    | ok b => simp
    | error e => cases e <;> simp

/-- Catching an early `return` does not change what was done. -/
theorem does_catchReturn {C : World → Act → Prop} {E E' : Exit → Prop} {p : M Answer}
    (hp : Does env C E p) (hE : ∀ t, E' (.threw t)) : Does env C E' (catchReturn p) := by
  intro w
  have hw := (hp w).1
  rw [exec_catchReturn]
  cases h : p.exec w with
  | mk r t =>
    rw [h] at hw
    cases r with
    | ok a =>
      refine ⟨hw, ?_⟩
      intro e he
      cases he
    | error e =>
      cases e with
      | threw t' =>
        refine ⟨hw, ?_⟩
        intro e he
        cases he
        exact hE t'
      | returned a =>
        refine ⟨hw, ?_⟩
        intro e he
        cases he

theorem does_planBody (op : Op) (names : List String) (opts : Options) :
    Does env planFootprint.Allows Exit.Refused (planBody env op names opts) := by
  unfold planBody
  refine does_bind (does_installedPackages (by decide)) fun installed => ?_
  refine does_bind (does_read (fun _ => trivial) _) fun installedByName => ?_
  refine does_bind (does_planChanges _ _ _ _ _) ?_
  rintro ⟨changes, affected⟩
  exact does_bind does_loadedModules fun loaded => does_pure _

/-- **Planning only asks.**  `plan` calls query methods and does nothing else. -/
theorem does_plan (op : Op) (names : List String) (opts : Options) :
    Does env planFootprint.Allows Exit.Failed (plan env op names opts) :=
  does_catchReturn (does_planBody op names opts) fun _ => trivial

theorem plan_loaded {op : Op} {names : List String} {opts : Options} {w w₁ : World}
    {r : Except Exit Answer} (h : (plan env op names opts).exec w = (r, w₁)) :
    w₁.loaded = w.loaded :=
  Performs.loaded_eq rfl rfl ((does_plan op names opts).of_exec h)

theorem exec_installedPackages (w : World) :
    (installedPackages env).exec w = (.ok (env.reply w.calls).json.elems,
      w.after env (.call kPackageManager "getInstalledPackages" [])) := by
  unfold installedPackages
  rw [Prog.exec_bind, exec_call]
  rfl

/-- How a plan comes about: from what is installed, by its changes, with the running modules
among those affected. -/
theorem plan_planned {op : Op} {names : List String} {opts : Options} {w w₁ : World} {p : Report}
    (h : (plan env op names opts).exec w = (.ok (.report p), w₁)) :
    ∃ installedByName affected, byName (env.reply w.calls).json.elems = .ok installedByName ∧
      (planChanges env op names opts (env.reply w.calls).json.elems installedByName).exec
          (w.after env (.call kPackageManager "getInstalledPackages" [])) =
        (.ok (p.changes, affected), w₁) ∧
      p = { op, changes := p.changes, affectedLoaded := affectedLoaded w₁.loaded affected } := by
  rcases exec_catchReturn_eq_ok.mp h with hok | hret
  · unfold planBody at hok
    rw [Prog.exec_bind_of_ok (exec_installedPackages w)] at hok
    obtain ⟨installedByName, t₂, hbyName, hok⟩ := Prog.exec_bind_eq_ok.mp hok
    obtain ⟨⟨changes, affected⟩, t₃, hchanges, hok⟩ := Prog.exec_bind_eq_ok.mp hok
    obtain ⟨loaded, t₄, hl, hok⟩ := Prog.exec_bind_eq_ok.mp hok
    simp only [exec_loadedModules, Prod.mk.injEq, Except.ok.injEq] at hl
    obtain ⟨rfl, rfl⟩ := hl
    simp only [Prog.exec_pure, Prod.mk.injEq, Except.ok.injEq, Answer.report.injEq] at hok
    obtain ⟨rfl, rfl⟩ := hok
    obtain ⟨hread, rfl⟩ := exec_read_eq_ok.mp hbyName
    exact ⟨installedByName, affected, hread, hchanges, rfl⟩
  · exact absurd ((does_planBody op names opts).of_error hret) (fun hr => hr)

/-- **What a plan reports.**  Its status is `ok`, and the modules it is about to disturb are
running when it is asked. -/
theorem plan_report {op : Op} {names : List String} {opts : Options} {w w₁ : World}
    {p : Report} (h : (plan env op names opts).exec w = (.ok (.report p), w₁)) :
    p.status = .ok ∧ p.op = op ∧ p.affectedLoaded ⊆ w.loaded := by
  have hloaded := plan_loaded h
  obtain ⟨installedByName, affected, -, -, hp⟩ := plan_planned h
  rw [hp]
  refine ⟨rfl, rfl, ?_⟩
  intro x hx
  have hx' := (List.mem_filter.mp hx).2
  rw [← hloaded]
  simpa using hx'

end Plan

/-! ## 3. Applying: footprints -/

section Apply

variable {env : Env} {op : Op} {r : Report}

theorem does_unloadAll {F : Footprint} {E : Exit → Prop} {ms : List String}
    (h : ∀ m ∈ ms, m ∈ F.stops) : Does env F.Allows E (unloadAll env ms) := by
  induction ms with
  | nil => exact does_pure _
  | cons m ms ih =>
    refine does_bind (does_act fun _ => ⟨h m (by simp), rfl⟩) fun _ => ih ?_
    intro x hx
    exact h x (by simp [hx])

theorem passFootprint_subset {T : List String} :
    (op.passFootprint T).methods ⊆ (passFootprint T).methods := by
  cases op <;> simp [Op.passFootprint, passFootprint, requestCall, cancelCall, confirmCall]

theorem installFootprint_subset {T : List String} :
    (op.installFootprint T).methods ⊆ (installFootprint T).methods := by
  cases op <;> simp [Op.installFootprint, Op.passFootprint, downloadFootprint, installFootprint,
    requestCall, cancelCall, confirmCall]

theorem allows_of_pass {T : List String} {w : World} {a : Act}
    (h : (op.passFootprint T).Allows w a) : (op.installFootprint T).Allows w a :=
  Footprint.allows_mono (List.subset_append_left _ _) (List.Subset.refl T)
    (List.Subset.refl []) h

theorem allows_of_download {T : List String} {w : World} {a : Act}
    (h : downloadFootprint.Allows w a) : (op.installFootprint T).Allows w a :=
  Footprint.allows_mono (List.subset_append_right _ _) (List.nil_subset T)
    (List.Subset.refl []) h

theorem does_passCall {T : List String} {E : Exit → Prop} {module method : String}
    {args : List Json} (h : method ∈ (op.passFootprint []).methods) :
    Does env (op.passFootprint T).Allows E (call env module method args : M (Json × String)) :=
  does_call fun _ => h

theorem does_downloadCall {E : Exit → Prop} {module method : String} {args : List Json}
    (h : method ∈ downloadFootprint.methods) :
    Does env downloadFootprint.Allows E (call env module method args : M (Json × String)) :=
  does_call fun _ => h

theorem requestCall_mem (name depChanges : String) :
    (requestCall op name depChanges).1 ∈ (op.passFootprint []).methods := by
  cases op <;> simp [requestCall, Op.passFootprint]

theorem cancelCall_mem (name : String) :
    (cancelCall op name).1 ∈ (op.passFootprint []).methods := by
  cases op <;> simp [cancelCall, Op.passFootprint]

theorem confirmCall_mem (name : String) :
    (confirmCall op name).1 ∈ (op.passFootprint []).methods := by
  cases op <;> simp [confirmCall, Op.passFootprint]

theorem does_openGate {T : List String} {E : Exit → Prop} (hE : ∀ t, E (.threw t))
    (name depChanges : String) :
    Does env (op.passFootprint T).Allows E (openGate env op name depChanges) := by
  refine does_bind (does_passCall (requestCall_mem name depChanges)) ?_
  rintro ⟨answer, why⟩
  refine does_bind (does_read hE _) ?_
  rintro ⟨opened, e⟩
  dsimp only
  split
  · exact does_pure _
  · refine does_bind (does_passCall (by simp [Op.passFootprint])) ?_
    rintro ⟨ackR, why⟩
    exact does_read hE _

theorem does_closeGate {T : List String} {E : Exit → Prop} (name : String) :
    Does env (op.passFootprint T).Allows E (closeGate env op name) :=
  does_bind (does_passCall (cancelCall_mem name)) fun _ => does_pure _

/-- From the confirmation on, `passGate` only calls. -/
theorem does_passGate_of_op (name depChanges : String) :
    Does env (op.passFootprint r.affectedLoaded).Allows (Exit.Ends r)
      (passGate env op r depChanges name) := by
  refine does_bind (does_openGate (fun _ => trivial) name depChanges) ?_
  rintro ⟨opened, e⟩
  dsimp only
  split
  · exact does_fail _ _ _
  · refine does_bind (does_unloadAll fun _ h => h) fun _ => ?_
    refine does_bind (does_passCall (confirmCall_mem name)) ?_
    rintro ⟨confirmR, why⟩
    refine does_bind (does_read (fun _ => trivial) _) ?_
    rintro ⟨confirmed, e⟩
    dsimp only
    split
    · exact does_bind (does_closeGate name) fun _ => does_fail _ _ _
    · exact does_pure _

theorem does_installPlugin {E : Exit → Prop} (hE : ∀ t, E (.threw t)) (path : String) :
    Does env downloadFootprint.Allows E (installPlugin env path) := by
  refine does_bind (does_downloadCall (by decide)) ?_
  rintro ⟨ins, why⟩
  dsimp only
  split
  · exact does_bind (does_read hE _) fun _ => does_pure _
  · exact does_pure _

theorem does_installLocal_of_op (depChanges : String) (cs : List Change) :
    Does env (op.installFootprint r.affectedLoaded).Allows (Exit.Ends r)
      (installLocal env op r depChanges cs) := by
  induction cs with
  | nil => exact does_pure _
  | cons c cs ih =>
    refine does_bind ((does_passGate_of_op c.name depChanges).mono (fun _ _ => allows_of_pass)
      fun _ h => h) fun _ => ?_
    refine does_bind ((does_installPlugin (fun _ => trivial) c.file).mono
      (fun _ _ => allows_of_download) fun _ h => h) fun failure => ?_
    cases failure with
    | some e => exact does_fail _ _ _
    | none => exact does_bind ih fun _ => does_pure _

theorem does_passGates_of_op (depChanges : String) (names : List String) :
    Does env (op.passFootprint r.affectedLoaded).Allows (Exit.Ends r)
      (passGates env op r depChanges names) := by
  induction names with
  | nil => exact does_pure _
  | cons name names ih => exact does_bind (does_passGate_of_op name depChanges) fun _ => ih

theorem does_installOne (d : Json) :
    Does env downloadFootprint.Allows (Exit.Ends r) (installOne env r d) := by
  have hread : ∀ t, Exit.Ends r (.threw t) := fun _ => trivial
  refine does_bind (does_read hread _) fun error => ?_
  split
  · exact does_bind (does_read hread _) fun n => does_fail _ _ _
  · refine does_bind (does_read hread _) fun path => ?_
    split
    · exact does_pure _
    · refine does_bind (does_installPlugin hread path) fun failure => ?_
      cases failure with
      | some e => exact does_bind (does_read hread _) fun n => does_fail _ _ _
      | none => exact does_bind (does_read hread _) fun n => does_pure _

theorem does_installDownloaded (ds : List Json) :
    Does env downloadFootprint.Allows (Exit.Ends r) (installDownloaded env r ds) := by
  induction ds with
  | nil => exact does_pure _
  | cons d ds ih => exact does_bind (does_installOne d) fun one => does_bind ih fun _ => does_pure _

theorem does_downloadAndInstall (names : List String) (opts : Options) :
    Does env downloadFootprint.Allows (Exit.Ends r) (downloadAndInstall env r names opts) := by
  have hmem : "getInstalledPackages" ∈ downloadFootprint.methods := by decide
  refine does_bind (does_installedPackages hmem) fun installed => ?_
  refine does_bind (does_read (fun _ => trivial) _) fun installedArg => ?_
  refine does_bind (does_downloadCall (by decide)) ?_
  rintro ⟨downloaded, why⟩
  cases downloaded with
  | arr ds => exact does_installDownloaded ds
  | _ => exact does_fail _ _ _

/-- **Installing stops only what the plan lists**, and starts nothing before its restart. -/
theorem does_installAll_of_op (names : List String) (opts : Options) :
    Does env (op.installFootprint r.affectedLoaded).Allows (Exit.Ends r)
      (installAll env op r names opts) := by
  unfold installAll
  split
  · exact does_installLocal_of_op _ _
  · refine does_bind ((does_passGates_of_op _ _).mono (fun _ _ => allows_of_pass) fun _ h => h)
      fun _ => ?_
    exact (does_downloadAndInstall _ _).mono (fun _ _ => allows_of_download) fun _ h => h

/-! Whatever the operation is, its methods are among those of every install and upgrade. -/

theorem performs_of_pass {T : List String} {w w' : World}
    (h : Performs env (op.passFootprint T).Allows w w') :
    Performs env (passFootprint T).Allows w w' :=
  h.mono fun _ _ => Footprint.allows_mono passFootprint_subset (List.Subset.refl T)
    (List.Subset.refl [])

theorem performs_of_install {T : List String} {w w' : World}
    (h : Performs env (op.installFootprint T).Allows w w') :
    Performs env (installFootprint T).Allows w w' :=
  h.mono fun _ _ => Footprint.allows_mono installFootprint_subset (List.Subset.refl T)
    (List.Subset.refl [])

theorem does_passGate (name depChanges : String) :
    Does env (passFootprint r.affectedLoaded).Allows (Exit.Ends r)
      (passGate env op r depChanges name) :=
  Prog.Keeps.mono (does_passGate_of_op name depChanges) (fun _ _ => performs_of_pass)
    fun _ h => h

theorem does_passGates (depChanges : String) (names : List String) :
    Does env (passFootprint r.affectedLoaded).Allows (Exit.Ends r)
      (passGates env op r depChanges names) :=
  Prog.Keeps.mono (does_passGates_of_op depChanges names) (fun _ _ => performs_of_pass)
    fun _ h => h

theorem does_installLocal (depChanges : String) (cs : List Change) :
    Does env (installFootprint r.affectedLoaded).Allows (Exit.Ends r)
      (installLocal env op r depChanges cs) :=
  Prog.Keeps.mono (does_installLocal_of_op depChanges cs) (fun _ _ => performs_of_install)
    fun _ h => h

theorem does_installAll (names : List String) (opts : Options) :
    Does env (installFootprint r.affectedLoaded).Allows (Exit.Ends r)
      (installAll env op r names opts) :=
  Prog.Keeps.mono (does_installAll_of_op names opts) (fun _ _ => performs_of_install)
    fun _ h => h

/-- A removal stops its victims and starts nothing. -/
theorem does_applyRemove :
    Does env (removeFootprint (r.changes.map (·.name))).Allows (Exit.Ends r)
      (applyRemove env r) := by
  have hread : ∀ t, Exit.Ends r (.threw t) := fun _ => trivial
  have hcall : ∀ {module method : String} {args : List Json},
      method ∈ (removeFootprint []).methods →
        Does env (removeFootprint (r.changes.map (·.name))).Allows (Exit.Ends r)
          (call env module method args : M (Json × String)) := fun h => does_call fun _ => h
  unfold applyRemove
  dsimp only
  split
  · exact does_fail _ _ _
  · refine does_bind (hcall (by decide)) ?_
    rintro ⟨requestR, why⟩
    refine does_bind (does_read hread _) ?_
    rintro ⟨requested, e⟩
    dsimp only
    split
    · exact does_fail _ _ _
    · refine does_bind (hcall (by decide)) ?_
      rintro ⟨ackR, why⟩
      refine does_bind (does_read hread _) ?_
      rintro ⟨acked, e⟩
      dsimp only
      split
      · exact does_bind (hcall (by decide)) fun _ => does_fail _ _ _
      · refine does_bind (does_unloadAll fun _ h => h) fun _ => ?_
        refine does_bind (hcall (by decide)) ?_
        rintro ⟨confirmR, why⟩
        refine does_bind (does_read hread _) ?_
        rintro ⟨confirmed, e⟩
        dsimp only
        split
        · exact does_fail _ _ _
        · exact does_bind (does_act fun _ => trivial) fun _ => does_pure _

theorem does_restart {C : World → Act → Prop} {E : Exit → Prop} {ms : List String}
    (h : ∀ w, ∀ m ∈ ms, C w (.load m)) : Does env C E (restart env ms) := by
  induction ms with
  | nil => exact does_pure _
  | cons m ms ih =>
    refine does_bind (does_load fun w => h w m (by simp)) fun up => ?_
    refine does_bind (ih ?_) fun _ => does_pure _
    intro w x hx
    exact h w x (by simp [hx])

/-- **What an operation may do**: plan, then install or remove, then rescan and restart.  Whatever
holds of every act of these holds of every act of the operation. -/
theorem does_apply {C : World → Act → Prop} {names : List String} {opts : Options}
    (hplan : ∀ w a, planFootprint.Allows w a → C w a)
    (hinstall : ∀ T w a, (installFootprint T).Allows w a → C w a)
    (hremove : ∀ T w a, (removeFootprint T).Allows w a → C w a)
    (hload : ∀ w m, C w (.load m)) :
    Does env C (fun _ => True) (apply env op names opts) := by
  have htrue : ∀ {E : Exit → Prop} (e : Exit), E e → True := fun _ _ => trivial
  unfold apply
  refine does_bind ((does_plan op names opts).mono hplan htrue) fun a => ?_
  cases a with
  | err code message => exact does_pure _
  | report r =>
    dsimp only
    split
    · exact does_pure _
    · refine does_catchReturn (E := fun _ => True) ?_ fun _ => trivial
      split
      · exact does_applyRemove.mono (hremove _) htrue
      · refine does_bind ((does_installAll names opts).mono (hinstall _) htrue) fun _ => ?_
        refine does_bind (does_act fun w => hplan w _ trivial) fun _ => ?_
        exact does_bind (does_restart fun w m _ => hload w m) fun _ => does_pure _

/-! ## 4. One gate, exactly

A gate reads three replies: to the request, to the acknowledgement and to the confirmation.
Whether each is an acceptance decides how far the gate gets and what world it leaves behind. -/

/-- The module answered success. -/
def accepted (answer : Reply) : Bool :=
  match ok answer.json with
  | .ok (true, _) => true
  | _ => false

/-- The module answered, and declined. -/
def refused (answer : Reply) : Bool :=
  match ok answer.json with
  | .ok (false, _) => true
  | _ => false

/-- The gate whose first reply is the `c`-th is opened: requested and acknowledged. -/
def gateOpens (env : Env) (c : Nat) : Bool := accepted (env.reply c) && accepted (env.reply (c + 1))

/-- The gate whose first reply is the `c`-th is opened and confirmed. -/
def gatePasses (env : Env) (c : Nat) : Bool := gateOpens env c && accepted (env.reply (c + 2))

variable (env op r)

def requestAct (depChanges name : String) : Act :=
  .call kPackageManager (requestCall op name depChanges).1 (requestCall op name depChanges).2

def ackAct (name : String) : Act := .call kPackageManager "ackPendingAction" [.str name]

def confirmAct (name : String) : Act :=
  .call kPackageManager (confirmCall op name).1 (confirmCall op name).2

def cancelAct (name : String) : Act :=
  .call kPackageManager (cancelCall op name).1 (cancelCall op name).2

/-- The world once a gate has been requested and acknowledged. -/
def opened (depChanges name : String) (w : World) : World :=
  (w.after env (requestAct op depChanges name)).after env (ackAct name)

/-- The world once a gate has been opened and what the plan touches has been stopped. -/
def stopped (depChanges name : String) (w : World) : World :=
  stopAll env r.affectedLoaded (opened env op depChanges name w)

/-- The world once a gate has been gone through up to the confirmation's reply. -/
def confirmed (depChanges name : String) (w : World) : World :=
  (stopped env op r depChanges name w).after env (confirmAct op name)

variable {env op r}

theorem exec_unloadAll (ms : List String) (w : World) :
    (unloadAll env ms).exec w = (.ok (), stopAll env ms w) := by
  induction ms generalizing w with
  | nil => rfl
  | cons m ms ih =>
    unfold unloadAll
    rw [Prog.exec_bind, exec_logosCoreUnloadModule]
    exact ih _

theorem exec_fail {α : Type} (step message : String) (w : World) :
    (fail r step message : M α).exec w = (.error (failure r step message), w) := rfl

theorem exec_closeGate (name : String) (w : World) :
    (closeGate env op name : M Unit).exec w = (.ok (), w.after env (cancelAct op name)) := by
  unfold closeGate
  exact Prog.exec_bind_eq_ok.mpr ⟨_, _, exec_call _ _ _ _, rfl⟩

/-- Reading an acceptance gives `true`. -/
theorem exec_read_ok_of_accepted {answer : Reply} (h : accepted answer = true) (w : World) :
    ∃ e, (read (ok answer.json) : M (Bool × String)).exec w = (.ok (true, e), w) := by
  unfold accepted at h
  split at h
  · next e heq =>
    refine ⟨e, ?_⟩
    rw [heq]
    rfl
  · cases h

/-- Reading a refusal gives `false`. -/
theorem exec_read_ok_of_refused {answer : Reply} (h : refused answer = true) (w : World) :
    ∃ e, (read (ok answer.json) : M (Bool × String)).exec w = (.ok (false, e), w) := by
  unfold refused at h
  split at h
  · next e heq =>
    refine ⟨e, ?_⟩
    rw [heq]
    rfl
  · cases h

/-- Reading what is neither gives an exception. -/
theorem exec_read_ok_of_unreadable {answer : Reply} (h : accepted answer = false)
    (h' : refused answer = false) (w : World) :
    ∃ t, (read (ok answer.json) : M (Bool × String)).exec w = (.error (.threw t), w) := by
  cases heq : ok answer.json with
  | error t => exact ⟨t, rfl⟩
  | ok be =>
    obtain ⟨b, e⟩ := be
    cases b with
    | true => simp [accepted, heq] at h
    | false => simp [refused, heq] at h'

/-- Reading anything but an acceptance gives `false`, or an exception. -/
theorem exec_read_ok_of_not_accepted {answer : Reply} (h : accepted answer = false) (w : World) :
    (∃ e, (read (ok answer.json) : M (Bool × String)).exec w = (.ok (false, e), w)) ∨
      ∃ t, (read (ok answer.json) : M (Bool × String)).exec w = (.error (.threw t), w) := by
  cases hrefused : refused answer with
  | true => exact Or.inl (exec_read_ok_of_refused hrefused w)
  | false => exact Or.inr (exec_read_ok_of_unreadable h hrefused w)

@[simp] theorem calls_opened (depChanges name : String) (w : World) :
    (opened env op depChanges name w).calls = w.calls + 2 := rfl

@[simp] theorem loaded_opened (depChanges name : String) (w : World) :
    (opened env op depChanges name w).loaded = w.loaded := rfl

@[simp] theorem calls_stopped (depChanges name : String) (w : World) :
    (stopped env op r depChanges name w).calls = w.calls + 2 := by
  simp [stopped]

@[simp] theorem calls_confirmed (depChanges name : String) (w : World) :
    (confirmed env op r depChanges name w).calls = w.calls + 3 := by
  simp [confirmed, confirmAct]

/-- An opened gate: the request and the acknowledgement, and nothing else yet. -/
theorem openGate_of_opens {depChanges name : String} {w : World} (h : gateOpens env w.calls = true) :
    ∃ e, (openGate env op name depChanges).exec w =
      (.ok (true, e), opened env op depChanges name w) := by
  simp only [gateOpens, Bool.and_eq_true] at h
  obtain ⟨hreq, hack⟩ := h
  obtain ⟨e₁, h₁⟩ :=
    exec_read_ok_of_accepted hreq (w.after env (requestAct op depChanges name))
  obtain ⟨e₂, h₂⟩ := exec_read_ok_of_accepted hack (opened env op depChanges name w)
  refine ⟨e₂, ?_⟩
  refine Prog.exec_bind_eq_ok.mpr ⟨_, _, exec_call _ _ _ _, ?_⟩
  refine Prog.exec_bind_eq_ok.mpr ⟨_, _, h₁, ?_⟩
  exact Prog.exec_bind_eq_ok.mpr ⟨_, _, exec_call _ _ _ _, h₂⟩

/-- A gate that is not opened stops nothing, and `passGate` fails there. -/
theorem openGate_of_not_opens {depChanges name : String} {w : World}
    (h : gateOpens env w.calls = false) :
    ∃ w', (w' = if accepted (env.reply w.calls) then opened env op depChanges name w
        else w.after env (requestAct op depChanges name)) ∧
      ((∃ e, (openGate env op name depChanges).exec w = (.ok (false, e), w')) ∨
        ∃ t, (openGate env op name depChanges).exec w = (.error (.threw t), w')) := by
  cases hreq : accepted (env.reply w.calls) with
  | false =>
    refine ⟨_, rfl, ?_⟩
    rcases exec_read_ok_of_not_accepted hreq (w.after env (requestAct op depChanges name))
      with ⟨e, he⟩ | ⟨t, ht⟩
    · refine Or.inl ⟨e, Prog.exec_bind_eq_ok.mpr ⟨_, _, exec_call _ _ _ _, ?_⟩⟩
      exact Prog.exec_bind_eq_ok.mpr ⟨_, _, he, rfl⟩
    · refine Or.inr ⟨t, Prog.exec_bind_eq_error.mpr (Or.inr ⟨_, _, exec_call _ _ _ _, ?_⟩)⟩
      exact Prog.exec_bind_eq_error.mpr (Or.inl ht)
  | true =>
    have hack : accepted (env.reply (w.calls + 1)) = false := by
      simpa [gateOpens, hreq] using h
    obtain ⟨e₁, h₁⟩ :=
      exec_read_ok_of_accepted hreq (w.after env (requestAct op depChanges name))
    refine ⟨_, rfl, ?_⟩
    rcases exec_read_ok_of_not_accepted hack (opened env op depChanges name w)
      with ⟨e, he⟩ | ⟨t, ht⟩
    · refine Or.inl ⟨e, Prog.exec_bind_eq_ok.mpr ⟨_, _, exec_call _ _ _ _, ?_⟩⟩
      refine Prog.exec_bind_eq_ok.mpr ⟨_, _, h₁, ?_⟩
      exact Prog.exec_bind_eq_ok.mpr ⟨_, _, exec_call _ _ _ _, he⟩
    · refine Or.inr ⟨t, Prog.exec_bind_eq_error.mpr (Or.inr ⟨_, _, exec_call _ _ _ _, ?_⟩)⟩
      refine Prog.exec_bind_eq_error.mpr (Or.inr ⟨_, _, h₁, ?_⟩)
      exact Prog.exec_bind_eq_error.mpr (Or.inr ⟨_, _, exec_call _ _ _ _, ht⟩)

/-- **A gate that passes** requests, acknowledges, stops and confirms. -/
theorem passGate_of_passes {depChanges name : String} {w : World}
    (h : gatePasses env w.calls = true) :
    (passGate env op r depChanges name).exec w =
      (.ok (), confirmed env op r depChanges name w) := by
  simp only [gatePasses, Bool.and_eq_true] at h
  obtain ⟨hopens, hconfirm⟩ := h
  obtain ⟨e₁, h₁⟩ := @openGate_of_opens env op depChanges name w hopens
  have hreply : env.reply (stopped env op r depChanges name w).calls = env.reply (w.calls + 2) := by
    rw [calls_stopped]
  rw [← hreply] at hconfirm
  obtain ⟨e₂, h₂⟩ := exec_read_ok_of_accepted hconfirm (confirmed env op r depChanges name w)
  refine Prog.exec_bind_eq_ok.mpr ⟨_, _, h₁, ?_⟩
  refine Prog.exec_bind_eq_ok.mpr ⟨_, _, exec_unloadAll _ _, ?_⟩
  refine Prog.exec_bind_eq_ok.mpr ⟨_, _, exec_call _ _ _ _, ?_⟩
  exact Prog.exec_bind_eq_ok.mpr ⟨_, _, h₂, rfl⟩

/-- **A gate that opens but is not confirmed** has stopped what the plan touches, and fails; it is
withdrawn if the confirmation was refused. -/
theorem passGate_of_opens {depChanges name : String} {w : World}
    (hopens : gateOpens env w.calls = true) (h : gatePasses env w.calls = false) :
    ∃ e, (passGate env op r depChanges name).exec w = (.error e,
      if refused (env.reply (w.calls + 2)) then
        (confirmed env op r depChanges name w).after env (cancelAct op name)
      else confirmed env op r depChanges name w) := by
  obtain ⟨e₁, h₁⟩ := @openGate_of_opens env op depChanges name w hopens
  have hconfirm : accepted (env.reply (stopped env op r depChanges name w).calls) = false := by
    rw [calls_stopped]
    simpa [gatePasses, hopens] using h
  rw [← @calls_stopped env op r depChanges name w]
  cases hrefused : refused (env.reply (stopped env op r depChanges name w).calls) with
  | true =>
    obtain ⟨e, he⟩ := exec_read_ok_of_refused hrefused (confirmed env op r depChanges name w)
    refine ⟨failure r "confirm" e, ?_⟩
    refine Prog.exec_bind_eq_error.mpr (Or.inr ⟨_, _, h₁, ?_⟩)
    refine Prog.exec_bind_eq_error.mpr (Or.inr ⟨_, _, exec_unloadAll _ _, ?_⟩)
    refine Prog.exec_bind_eq_error.mpr (Or.inr ⟨_, _, exec_call _ _ _ _, ?_⟩)
    refine Prog.exec_bind_eq_error.mpr (Or.inr ⟨_, _, he, ?_⟩)
    exact Prog.exec_bind_eq_error.mpr (Or.inr ⟨_, _, exec_closeGate _ _, exec_fail _ _ _⟩)
  | false =>
    obtain ⟨t, ht⟩ :=
      exec_read_ok_of_unreadable hconfirm hrefused (confirmed env op r depChanges name w)
    refine ⟨.threw t, ?_⟩
    refine Prog.exec_bind_eq_error.mpr (Or.inr ⟨_, _, h₁, ?_⟩)
    refine Prog.exec_bind_eq_error.mpr (Or.inr ⟨_, _, exec_unloadAll _ _, ?_⟩)
    refine Prog.exec_bind_eq_error.mpr (Or.inr ⟨_, _, exec_call _ _ _ _, ?_⟩)
    exact Prog.exec_bind_eq_error.mpr (Or.inl ht)

/-- **A gate that is not opened** stops nothing, and fails. -/
theorem passGate_of_not_opens {depChanges name : String} {w : World}
    (h : gateOpens env w.calls = false) :
    ∃ e, (passGate env op r depChanges name).exec w = (.error e,
      if accepted (env.reply w.calls) then opened env op depChanges name w
      else w.after env (requestAct op depChanges name)) := by
  obtain ⟨w', rfl, hrun⟩ :=
    @openGate_of_not_opens env op depChanges name w h
  rcases hrun with ⟨e, he⟩ | ⟨t, ht⟩
  · exact ⟨failure r "request" e,
      Prog.exec_bind_eq_error.mpr (Or.inr ⟨_, _, he, exec_fail _ _ _⟩)⟩
  · exact ⟨.threw t, Prog.exec_bind_eq_error.mpr (Or.inl ht)⟩

/-! ## 5. Where stopping begins -/

/-- The packages that get a gate of their own, in order. -/
def items (opts : Options) (r : Report) (names : List String) : List String :=
  if !opts.localFiles.isEmpty then r.changes.map (·.name) else names

/-- From the moment a gate is open, all that `passGate` does comes after the stops. -/
theorem passGate_stopped {depChanges name : String} {w : World} (h : gateOpens env w.calls = true) :
    Performs env (op.installFootprint r.affectedLoaded).Allows
      (stopped env op r depChanges name w) ((passGate env op r depChanges name).exec w).2 := by
  have hconfirm : Performs env (op.installFootprint r.affectedLoaded).Allows
      (stopped env op r depChanges name w) (confirmed env op r depChanges name w) :=
    .single (List.mem_append_left _ (confirmCall_mem name))
  cases hpass : gatePasses env w.calls with
  | true =>
    rw [passGate_of_passes hpass]
    exact hconfirm
  | false =>
    obtain ⟨e, hrun⟩ := @passGate_of_opens env op r depChanges name w h hpass
    rw [hrun]
    split
    · exact hconfirm.act (a := cancelAct op name) (List.mem_append_left _ (cancelCall_mem name))
    · exact hconfirm

/-- A gate that does not open leaves everything running, and leaves `apply`. -/
theorem passGate_untouched {depChanges name : String} {w : World}
    (h : gateOpens env w.calls = false) :
    ∃ e w', (passGate env op r depChanges name).exec w = (.error e, w') ∧
      w'.loaded = w.loaded := by
  obtain ⟨e, hrun⟩ := @passGate_of_not_opens env op r depChanges name w h
  refine ⟨e, _, hrun, ?_⟩
  split <;> rfl

/-- With nothing to gate, nothing is stopped. -/
theorem installAll_of_nil {names : List String} {opts : Options} {w : World}
    (h : items opts r names = []) :
    Performs env (installFootprint []).Allows w ((installAll env op r names opts).exec w).2 := by
  unfold installAll
  unfold items at h
  split
  · next hlocal =>
    rw [if_pos hlocal, List.map_eq_nil_iff] at h
    rw [h]
    exact .refl w
  · next hcatalog =>
    rw [if_neg hcatalog] at h
    rw [h]
    have hrun := (@does_downloadAndInstall env r [] opts w).1
    exact performs_of_install (hrun.mono fun _ _ => @allows_of_download op _ _ _)

/-- A first gate that does not open ends the install, with everything still running. -/
theorem installAll_of_not_opens {names : List String} {opts : Options} {w : World} {name : String}
    {rest : List String} (hitems : items opts r names = name :: rest)
    (h : gateOpens env w.calls = false) :
    ∃ e w', (installAll env op r names opts).exec w = (.error e, w') ∧ w'.loaded = w.loaded := by
  unfold installAll
  unfold items at hitems
  split
  · next hlocal =>
    rw [if_pos hlocal] at hitems
    cases hcs : r.changes with
    | nil => simp [hcs] at hitems
    | cons c cs =>
      obtain ⟨e, w', hrun, hloaded⟩ :=
        @passGate_untouched env op r (dumpChanges env r) c.name w h
      exact ⟨e, w', Prog.exec_bind_eq_error.mpr (Or.inl hrun), hloaded⟩
  · next hcatalog =>
    rw [if_neg hcatalog] at hitems
    rw [hitems]
    obtain ⟨e, w', hrun, hloaded⟩ := @passGate_untouched env op r (dumpChanges env r) name w h
    refine ⟨e, w', Prog.exec_bind_eq_error.mpr (Or.inl ?_), hloaded⟩
    exact Prog.exec_bind_eq_error.mpr (Or.inl hrun)

/-- **Everything the plan touches is stopped** once the first gate is open, and nothing is
started after that. -/
theorem installAll_stopped {names : List String} {opts : Options} {w : World} {name : String}
    {rest : List String} (hitems : items opts r names = name :: rest)
    (h : gateOpens env w.calls = true) :
    Performs env (installFootprint r.affectedLoaded).Allows
      (stopped env op r (dumpChanges env r) name w)
      ((installAll env op r names opts).exec w).2 := by
  unfold installAll
  unfold items at hitems
  split
  · next hlocal =>
    rw [if_pos hlocal] at hitems
    cases hcs : r.changes with
    | nil => simp [hcs] at hitems
    | cons c cs =>
      simp only [hcs, List.map_cons, List.cons.injEq] at hitems
      obtain ⟨rfl, -⟩ := hitems
      refine performs_of_install
        ((passGate_stopped h).trans (does_rest (E := Exit.Ends r) _ (fun _ => ?_) w))
      refine does_bind ((does_installPlugin (fun _ => trivial) c.file).mono
        (fun _ _ => allows_of_download) fun _ h => h) fun failure => ?_
      cases failure with
      | some e => exact does_fail _ _ _
      | none => exact does_bind (does_installLocal_of_op _ cs) fun _ => does_pure _
  · next hcatalog =>
    rw [if_neg hcatalog] at hitems
    subst hitems
    unfold passGates
    rw [bind_assoc]
    refine performs_of_install
      ((passGate_stopped h).trans (does_rest (E := Exit.Ends r) _ (fun _ => ?_) w))
    refine does_bind ((does_passGates_of_op _ rest).mono (fun _ _ => allows_of_pass) fun _ h => h)
      fun _ => ?_
    exact (does_downloadAndInstall _ _).mono (fun _ _ => allows_of_download) fun _ h => h

/-! ## 6. The whole operation -/

/-- Those of the modules whose start succeeds, when they are started one after the other. -/
def restarted (env : Env) : List String → World → List String
  | [], _ => []
  | m :: ms, w =>
    if (env.load w.log.length w.loaded m).1 then m :: restarted env ms (w.after env (.load m))
    else restarted env ms (w.after env (.load m))

theorem exec_restart (ms : List String) (w : World) :
    (restart env ms).exec w = (.ok (restarted env ms w), startAll env ms w) := by
  induction ms generalizing w with
  | nil => rfl
  | cons m ms ih =>
    refine Prog.exec_bind_eq_ok.mpr ⟨_, _, exec_logosCoreLoadModule _ _, ?_⟩
    exact Prog.exec_bind_eq_ok.mpr ⟨_, _, ih (w.after env (.load m)), rfl⟩

/-- An install that goes through ends with the refresh and the restart. -/
theorem applyInstall_of_ok {names installedNow : List String} {opts : Options} {w w₂ : World}
    (h : (installAll env op r names opts).exec w = (.ok installedNow, w₂)) :
    (applyInstall env op r names opts).exec w =
      (.ok (.report { r with
          installed := some installedNow,
          reloaded := some (restarted env r.affectedLoaded (w₂.after env .refresh)) }),
        startAll env r.affectedLoaded (w₂.after env .refresh)) := by
  refine Prog.exec_bind_eq_ok.mpr ⟨_, _, h, ?_⟩
  refine Prog.exec_bind_eq_ok.mpr ⟨_, _, exec_logosCoreRefreshModules _, ?_⟩
  exact Prog.exec_bind_eq_ok.mpr ⟨_, _, exec_restart r.affectedLoaded (w₂.after env .refresh), rfl⟩

/-- An install that fails ends where it failed. -/
theorem applyInstall_of_error {names : List String} {opts : Options} {w w₂ : World} {e : Exit}
    (h : (installAll env op r names opts).exec w = (.error e, w₂)) :
    (applyInstall env op r names opts).exec w = (.error e, w₂) :=
  Prog.exec_bind_eq_error.mpr (Or.inl h)

/-- The outcome is a failure: an exception, or an answer marked as an error. -/
def Failing : Except Exit Answer → Prop
  | .error _ => True
  | .ok a => a.isError = true

instance : DecidablePred Failing := fun res =>
  match res with
  | .error _ => inferInstanceAs (Decidable True)
  | .ok a => inferInstanceAs (Decidable (a.isError = true))

/-- A plan that is no report is the whole of the operation. -/
theorem apply_of_not_planned {names : List String} {opts : Options} {w w₁ : World}
    {res : Except Exit Answer} (hplan : (plan env op names opts).exec w = (res, w₁))
    (hno : ∀ p, res ≠ .ok (.report p)) :
    Failing res ∧ (apply env op names opts).exec w = (res, w₁) := by
  unfold apply
  cases res with
  | error e => exact ⟨trivial, Prog.exec_bind_of_error hplan⟩
  | ok a =>
    rw [Prog.exec_bind_of_ok hplan]
    cases a with
    | err code message => exact ⟨rfl, rfl⟩
    | report p => exact absurd rfl (hno p)

/-- A plan is carried out from where it was made. -/
theorem apply_of_planned {names : List String} {opts : Options} {w w₁ : World} {p : Report}
    (hplan : (plan env op names opts).exec w = (.ok (.report p), w₁)) :
    (apply env op names opts).exec w =
      (catchReturn (if op = .remove then applyRemove env p
        else applyInstall env op p names opts)).exec w₁ := by
  obtain ⟨hstatus, -, -⟩ := plan_report hplan
  unfold apply
  rw [Prog.exec_bind_of_ok hplan]
  simp only [hstatus, reduceCtorEq, if_false]

/-- A failing exit of the caught part is a failing outcome, in the same world. -/
theorem exec_catchReturn_of_failed {p : M Answer} {w w' : World} {e : Exit}
    (h : p.exec w = (.error e, w')) (he : e.Failed) :
    Failing ((catchReturn p).exec w).1 ∧ ((catchReturn p).exec w).2 = w' := by
  rw [exec_catchReturn, h]
  cases e with
  | threw t => exact ⟨trivial, rfl⟩
  | returned a => exact ⟨he, rfl⟩

/-- **How an install or upgrade goes**: it is over with its plan, or it ends where its installs
failed, or it restarts what the plan lists and reports success. -/
theorem apply_cases {names : List String} {opts : Options} {w w' : World}
    {res : Except Exit Answer} (hop : op ≠ .remove)
    (h : (apply env op names opts).exec w = (res, w')) :
    (Failing res ∧ (plan env op names opts).exec w = (res, w')) ∨
      ∃ p w₁, (plan env op names opts).exec w = (.ok (.report p), w₁) ∧ p.op = op ∧
        ((∃ e, Failing res ∧ (installAll env op p names opts).exec w₁ = (.error e, w')) ∨
          ∃ installedNow w₂ reloaded,
            (installAll env op p names opts).exec w₁ = (.ok installedNow, w₂) ∧
            res = .ok (.report
              { p with installed := some installedNow, reloaded := some reloaded }) ∧
            w' = startAll env p.affectedLoaded (w₂.after env .refresh)) := by
  rcases hplan : (plan env op names opts).exec w with ⟨planned, w₁⟩
  by_cases hreport : ∃ p, planned = .ok (.report p)
  · obtain ⟨p, rfl⟩ := hreport
    obtain ⟨-, hpop, -⟩ := plan_report hplan
    refine Or.inr ⟨p, w₁, rfl, hpop, ?_⟩
    rw [apply_of_planned hplan, if_neg hop] at h
    cases hinst : (installAll env op p names opts).exec w₁ with
    | mk ended w₂ =>
      cases ended with
      | ok installedNow =>
        rw [exec_catchReturn, applyInstall_of_ok hinst] at h
        cases h
        exact Or.inr ⟨installedNow, w₂, _, rfl, rfl, rfl⟩
      | error e =>
        have hfailed : e.Failed := ((does_installAll names opts).of_error hinst).failed
        obtain ⟨hfailing, hworld⟩ :=
          exec_catchReturn_of_failed (applyInstall_of_error hinst) hfailed
        rw [h] at hfailing hworld
        exact Or.inl ⟨e, hfailing, by rw [← hworld]⟩
  · obtain ⟨hfailing, hrun⟩ := apply_of_not_planned hplan fun p heq => hreport ⟨p, heq⟩
    rw [hrun] at h
    cases h
    exact Or.inl ⟨hfailing, rfl⟩

/-- What is asked of the plan of an operation is asked of the one plan it makes. -/
theorem forall_planned_iff {names : List String} {opts : Options} {w w₁ : World} {p : Report}
    {P : Report → World → Prop} (hplan : (plan env op names opts).exec w = (.ok (.report p), w₁)) :
    (∀ q w₂, (plan env op names opts).exec w = (.ok (.report q), w₂) → P q w₂) ↔ P p w₁ := by
  constructor
  · exact fun h => h p w₁ hplan
  · intro h q w₂ heq
    rw [hplan] at heq
    cases heq
    exact h

/-- A plan that is no report is asked nothing. -/
theorem forall_planned_of_not {names : List String} {opts : Options} {w w₁ : World}
    {res : Except Exit Answer} {P : Report → World → Prop}
    (hplan : (plan env op names opts).exec w = (res, w₁)) (hno : ∀ p, res ≠ .ok (.report p)) :
    ∀ q w₂, (plan env op names opts).exec w = (.ok (.report q), w₂) → P q w₂ := by
  intro q w₂ heq
  rw [hplan] at heq
  cases heq
  exact absurd rfl (hno q)

/-- What an install or upgrade does once its installs are over: rescan and restart, or nothing. -/
theorem performs_rest {names : List String} {opts : Options} {w w₁ : World} {p : Report}
    (hop : op ≠ .remove) (hplan : (plan env op names opts).exec w = (.ok (.report p), w₁)) :
    Performs env (Footprint.Allows ⟨[], [], p.affectedLoaded⟩)
      ((installAll env op p names opts).exec w₁).2 ((apply env op names opts).exec w).2 := by
  rw [apply_of_planned hplan, if_neg hop]
  cases hinst : (installAll env op p names opts).exec w₁ with
  | mk ended w₂ =>
    cases ended with
    | ok installedNow =>
      rw [exec_catchReturn, applyInstall_of_ok hinst]
      exact performs_restart env p.affectedLoaded w₂
    | error e =>
      have hfailed : e.Failed := ((does_installAll names opts).of_error hinst).failed
      rw [(exec_catchReturn_of_failed (applyInstall_of_error hinst) hfailed).2]
      exact .refl w₂

end Apply

end Logosctl.PackageOps
