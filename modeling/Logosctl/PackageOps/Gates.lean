/-
# Gates that are left pending

The package manager holds one pending action at a time.  A request opens it, a confirmation or a
cancellation closes it, and until then every other operation is refused.  An operation opens a
gate for each package it is asked for, or one for all the victims of a removal, and on most of its
ways out it closes what it opened.

`no_gate_left_pending_iff` says on which replies it does: it walks the gates in order, and only
the last one reached can be left pending.
-/
import Logosctl.PackageOps.Replies
import Logosctl.PackageOps.Removal
import Logosctl.Ledger

namespace Logosctl.PackageOps

open Library

/-! ## 1. Pending actions, read off the log -/

/-- What an action is pending for: one package, or the victims of a removal. -/
inductive Gate
  | package (op : Op) (name : String)
  | batch (victims : List String)
  deriving DecidableEq, Repr

inductive Stage
  | request
  | confirm
  | cancel
  deriving DecidableEq, Repr

def asString : Json → Option String
  | .str s => some s
  | _ => none

/-- The gate a call is about, and what the call does to it. -/
def gateCall : String → List Json → Option (Stage × Gate)
  | "requestInstall", .str n :: _ => some (.request, .package .install n)
  | "requestUpgrade", .str n :: _ => some (.request, .package .upgrade n)
  | "requestUninstall", .str n :: _ => some (.request, .package .remove n)
  | "requestMultiUninstall", [.arr vs] => some (.request, .batch (vs.filterMap asString))
  | "confirmInstall", .str n :: _ => some (.confirm, .package .install n)
  | "confirmUpgrade", .str n :: _ => some (.confirm, .package .upgrade n)
  | "confirmUninstall", .str n :: _ => some (.confirm, .package .remove n)
  | "confirmMultiUninstall", [.arr vs] => some (.confirm, .batch (vs.filterMap asString))
  | "cancelInstall", .str n :: _ => some (.cancel, .package .install n)
  | "cancelUpgrade", .str n :: _ => some (.cancel, .package .upgrade n)
  | "cancelUninstall", .str n :: _ => some (.cancel, .package .remove n)
  | "cancelMultiUninstall", [.arr vs] => some (.cancel, .batch (vs.filterMap asString))
  | _, _ => none

/-- The call reached the module and was answered. -/
def arrived : Reply → Bool
  | .ok _ => true
  | .error _ => false

/-- A request that is accepted makes the action pending; a confirmation that is accepted ends it,
and so does a cancellation that arrives. -/
def Stage.writes : Stage → Reply → Option Bool
  | .request, answer => if accepted answer then some true else none
  | .confirm, answer => if accepted answer then some false else none
  | .cancel, answer => if arrived answer then some false else none

/-- What an event does to the pending action of `g`. -/
def writesGate (g : Gate) : Event → Option Bool
  | .call module method args answer =>
    match gateCall method args with
    | some (stage, g') => if module = kPackageManager ∧ g' = g then stage.writes answer else none
    | none => none
  | _ => none

/-- Whether the action of `g` is pending in `w'`, when `b` says whether it was in `w`. -/
def pending (g : Gate) (b : Bool) (w w' : World) : Bool := ledger (writesGate g) b w w'

/-- Nothing that was opened since `w` is left pending in `w'`. -/
def NonePending (w w' : World) : Prop := ∀ g, pending g false w w' = false

/-- The gate whose first reply is the `c`-th is left pending: it was requested, and then neither
acknowledged and confirmed nor, its confirmation having been refused, withdrawn. -/
def gateLeaks (env : Env) (c : Nat) : Bool :=
  accepted (env.reply c) && !(accepted (env.reply (c + 1)) && (accepted (env.reply (c + 2)) ||
    (refused (env.reply (c + 2)) && arrived (env.reply (c + 3)))))

/-- The gate of a removal is not left pending. -/
def removalCloses (env : Env) (c : Nat) : Bool :=
  !accepted (env.reply c) ||
    if accepted (env.reply (c + 1)) then accepted (env.reply (c + 2))
    else refused (env.reply (c + 1)) && arrived (env.reply (c + 2))

/-- Of so many gates in a row, the first that does not pass is not left pending.  With files, each
gate that passes is followed by an install, which has to succeed for the next gate to be reached. -/
def gatesClose (env : Env) (files : Bool) : Nat → Nat → Bool
  | _, 0 => true
  | c, k + 1 =>
    if gatePasses env c then
      if files then !installSucceeded (env.reply (c + 3)) || gatesClose env files (c + 4) k
      else gatesClose env files (c + 3) k
    else !gateLeaks env c

section Gates

variable {env : Env} {op : Op} {r p : Report} {names : List String} {opts : Options}
  {w w₁ w' : World} {g g' : Gate} {b : Bool} {depChanges name front : String} {stage : Stage}
  {C D : World → Act → Prop} {F : Footprint}

theorem pending_self : pending g b w w = b := ledger_self

theorem pending_trans (h₁ : Performs env C w w₁) (h₂ : Performs env D w₁ w') :
    pending g b w w' = pending g (pending g b w w₁) w₁ w' := ledger_trans h₁ h₂

/-- A call at a gate. -/
theorem pending_gateCall {method : String} {args : List Json} (h : Performs env C w w₁)
    (hcall : gateCall method args = some (stage, g')) :
    pending g b w (w₁.after env (.call kPackageManager method args)) =
      if g' = g then (stage.writes (env.reply w₁.calls)).getD (pending g b w w₁)
      else pending g b w w₁ := by
  unfold pending
  rw [ledger_act h]
  have hwrites : writesGate g (w₁.event env (.call kPackageManager method args)) =
      if kPackageManager = kPackageManager ∧ g' = g then stage.writes (env.reply w₁.calls)
      else none := by
    dsimp only [World.event, writesGate]
    rw [hcall]
  rw [hwrites]
  by_cases hg : g' = g
  · rw [if_pos ⟨rfl, hg⟩, if_pos hg]
  · rw [if_neg fun h => hg h.2, if_neg hg]
    rfl

/-- The methods that open or close a gate. -/
def gateMethods : List String :=
  ["requestInstall", "requestUpgrade", "requestUninstall", "requestMultiUninstall",
    "confirmInstall", "confirmUpgrade", "confirmUninstall", "confirmMultiUninstall",
    "cancelInstall", "cancelUpgrade", "cancelUninstall", "cancelMultiUninstall"]

theorem gateCall_eq_none {method : String} {args : List Json} (h : method ∉ gateMethods) :
    gateCall method args = none := by
  unfold gateCall
  split
  case h_13 => rfl
  all_goals exact absurd (by decide) h

/-- What calls none of them leaves every gate as it was. -/
theorem pending_of_footprint (hF : ∀ m ∈ F.methods, m ∉ gateMethods)
    (h : Performs env F.Allows w w') : pending g b w w' = b := by
  refine ledger_of_performs ?_ h
  intro s a ha
  cases a with
  | call module method args =>
    dsimp only [World.event, writesGate]
    rw [gateCall_eq_none (hF method ha)]
  | unload name b => rfl
  | load name => rfl
  | refresh => rfl
  | warn line => rfl

/-! ## 2. One gate -/

theorem gateCall_request (name depChanges : String) :
    gateCall (requestCall op name depChanges).1 (requestCall op name depChanges).2 =
      some (.request, .package op name) := by
  cases op <;> rfl

theorem gateCall_confirm (hop : op ≠ .remove) (name : String) :
    gateCall (confirmCall op name).1 (confirmCall op name).2 =
      some (.confirm, .package op name) := by
  cases op with
  | install => rfl
  | upgrade => rfl
  | remove => exact absurd rfl hop

theorem gateCall_cancel (name : String) :
    gateCall (cancelCall op name).1 (cancelCall op name).2 = some (.cancel, .package op name) := by
  cases op <;> rfl

/-- Acknowledging and stopping leave every gate as it was. -/
theorem pending_ack_stop (h : Performs env C w w₁) (ms : List String) :
    pending g b w (stopAll env ms (w₁.after env (ackAct name))) = pending g b w w₁ := by
  have hack : Performs env (Footprint.Allows ⟨["ackPendingAction"], [], []⟩) w₁
      (w₁.after env (ackAct name)) := .single (by simp [Footprint.Allows, ackAct])
  have hstop := @performs_stopAll env ms (w₁.after env (ackAct name))
  rw [pending_trans h (hack.any.trans hstop.any), pending_trans hack hstop,
    pending_of_footprint (F := ⟨[], ms, []⟩) (by simp) hstop,
    pending_of_footprint (F := ⟨["ackPendingAction"], [], []⟩) (by simp [gateMethods]) hack]

theorem pending_ack (h : Performs env C w w₁) :
    pending g b w (w₁.after env (ackAct name)) = pending g b w w₁ := by
  have hnothing : stopAll env [] (w₁.after env (ackAct name)) = w₁.after env (ackAct name) := rfl
  rw [← hnothing]
  exact pending_ack_stop h []

theorem pending_requested :
    pending g false w (w.after env (requestAct op depChanges name)) =
      (decide (.package op name = g) && accepted (env.reply w.calls)) := by
  rw [requestAct, pending_gateCall (Performs.refl (C := fun _ _ => True) w)
    (gateCall_request name depChanges), pending_self]
  by_cases hg : Gate.package op name = g
  · cases h : accepted (env.reply w.calls) <;> simp [Stage.writes, hg, h]
  · simp [hg]

/-- The gate that is confirmed is closed if the confirmation is accepted. -/
theorem pending_confirmed (hop : op ≠ .remove) :
    pending g false w (confirmed env op r depChanges name w) =
      (decide (.package op name = g) && accepted (env.reply w.calls) &&
        !accepted (env.reply (w.calls + 2))) := by
  have hrequest : Performs env (fun _ _ => True) w (w.after env (requestAct op depChanges name)) :=
    .single trivial
  have hstopped : Performs env (fun _ _ => True) w (stopped env op r depChanges name w) :=
    (hrequest.act trivial).trans (performs_stopAll r.affectedLoaded _).any
  have hpending : pending g false w (stopped env op r depChanges name w) =
      (decide (.package op name = g) && accepted (env.reply w.calls)) :=
    (pending_ack_stop hrequest r.affectedLoaded).trans pending_requested
  rw [confirmed, confirmAct, pending_gateCall hstopped (gateCall_confirm hop name), hpending,
    calls_stopped]
  by_cases hg : Gate.package op name = g
  · cases h : accepted (env.reply (w.calls + 2)) <;> simp [Stage.writes, hg, h]
  · simp [hg]

/-- **What one gate leaves pending**: itself, if it leaks. -/
theorem pending_passGate (hop : op ≠ .remove) :
    pending g false w ((passGate env op r depChanges name).exec w).2 =
      (decide (.package op name = g) && gateLeaks env w.calls) := by
  cases hopens : gateOpens env w.calls with
  | false =>
    obtain ⟨e, hrun⟩ := @passGate_of_not_opens env op r depChanges name w hopens
    have hrequest : Performs env (fun _ _ => True) w
        (w.after env (requestAct op depChanges name)) := .single trivial
    have hpending : pending g false w ((passGate env op r depChanges name).exec w).2 =
        (decide (.package op name = g) && accepted (env.reply w.calls)) := by
      rw [hrun]
      dsimp only
      split
      · exact (pending_ack hrequest).trans pending_requested
      · exact pending_requested
    rw [hpending]
    cases hrequested : accepted (env.reply w.calls) with
    | false => simp [gateLeaks, hrequested]
    | true =>
      have hack : accepted (env.reply (w.calls + 1)) = false := by
        simpa [gateOpens, hrequested] using hopens
      simp [gateLeaks, hrequested, hack]
  | true =>
    have hboth : accepted (env.reply w.calls) = true ∧ accepted (env.reply (w.calls + 1)) = true := by
      simpa [gateOpens] using hopens
    have hconfirmed := @pending_confirmed env op r w g depChanges name hop
    cases hpass : gatePasses env w.calls with
    | true =>
      have hconfirm : accepted (env.reply (w.calls + 2)) = true := by
        simpa [gatePasses, hopens] using hpass
      rw [passGate_of_passes hpass, hconfirmed]
      simp [gateLeaks, hboth, hconfirm]
    | false =>
      have hconfirm : accepted (env.reply (w.calls + 2)) = false := by
        simpa [gatePasses, hopens] using hpass
      obtain ⟨e, hrun⟩ := @passGate_of_opens env op r depChanges name w hopens hpass
      rw [hrun]
      dsimp only
      cases hrefused : refused (env.reply (w.calls + 2)) with
      | false =>
        rw [if_neg (by simp), hconfirmed]
        simp [gateLeaks, hboth, hconfirm, hrefused]
      | true =>
        have hrun' : Performs env (fun _ _ => True) w
            (confirmed env op r depChanges name w) :=
          Performs.act (((Performs.single trivial).act trivial).trans
            (performs_stopAll r.affectedLoaded _).any) trivial
        rw [if_pos rfl, cancelAct, pending_gateCall hrun' (gateCall_cancel name), hconfirmed,
          calls_confirmed]
        by_cases hg : Gate.package op name = g
        · cases harrived : arrived (env.reply (w.calls + 3)) <;>
            simp [Stage.writes, gateLeaks, hg, hboth, hconfirm, hrefused, harrived]
        · simp [hg]

/-! ## 3. Gates in a row -/

/-- A run that begins with nothing left pending leaves what its rest leaves. -/
theorem nonePending_trans (h₁ : Performs env C w w₁) (h₂ : Performs env D w₁ w')
    (hnone : NonePending w w₁) : NonePending w w' ↔ NonePending w₁ w' :=
  forall_congr' fun g => by rw [pending_trans h₁ h₂, hnone g]

/-- Acts that concern no gate, before a run. -/
theorem nonePending_of_quiet_first (hF : ∀ m ∈ F.methods, m ∉ gateMethods)
    (h₁ : Performs env F.Allows w w₁) (h₂ : Performs env D w₁ w') :
    NonePending w w' ↔ NonePending w₁ w' :=
  nonePending_trans h₁ h₂ fun _ => pending_of_footprint hF h₁

/-- Acts that concern no gate, after a run. -/
theorem nonePending_of_quiet_last (hF : ∀ m ∈ F.methods, m ∉ gateMethods)
    (h₁ : Performs env C w w₁) (h₂ : Performs env F.Allows w₁ w') :
    NonePending w w' ↔ NonePending w w₁ :=
  forall_congr' fun g => by rw [pending_trans h₁ h₂, pending_of_footprint hF h₂]

theorem downloadFootprint_quiet : ∀ m ∈ downloadFootprint.methods, m ∉ gateMethods := by decide

theorem gateLeaks_of_passes {c : Nat} (h : gatePasses env c = true) : gateLeaks env c = false := by
  simp only [gatePasses, gateOpens, Bool.and_eq_true] at h
  simp [gateLeaks, h]

theorem nonePending_passGate (hop : op ≠ .remove) :
    NonePending w ((passGate env op r depChanges name).exec w).2 ↔
      gateLeaks env w.calls = false := by
  constructor
  · intro hnone
    have hown := hnone (.package op name)
    rw [pending_passGate hop] at hown
    simpa using hown
  · intro hcloses g
    rw [pending_passGate hop, hcloses, Bool.and_false]

theorem nonePending_of_passes (hop : op ≠ .remove) (h : gatePasses env w.calls = true) :
    NonePending w (confirmed env op r depChanges name w) := by
  have hnone := (@nonePending_passGate env op r w depChanges name hop).mpr (gateLeaks_of_passes h)
  rw [passGate_of_passes h] at hnone
  exact hnone

/-- **The gates of the catalog path.** -/
theorem nonePending_passGates (hop : op ≠ .remove) :
    NonePending w ((passGates env op r depChanges names).exec w).2 ↔
      gatesClose env false w.calls names.length = true := by
  induction names generalizing w with
  | nil => exact iff_of_true (fun g => pending_self) rfl
  | cons name names ih =>
    rw [List.length_cons, gatesClose]
    cases hpass : gatePasses env w.calls with
    | true =>
      have hrun := @passGate_of_passes env op r depChanges name w hpass
      have hdoes := (@does_passGate env op r name depChanges w).1
      have hrest := (@does_passGates env op r depChanges names
        (confirmed env op r depChanges name w)).1
      rw [hrun] at hdoes
      have hexec : (passGates env op r depChanges (name :: names)).exec w =
          (passGates env op r depChanges names).exec (confirmed env op r depChanges name w) :=
        Prog.exec_bind_of_ok hrun
      rw [hexec, nonePending_trans hdoes hrest (nonePending_of_passes hop hpass), ih,
        calls_confirmed]
      simp
    | false =>
      obtain ⟨e, w', hrun⟩ := @passGate_of_not_passes env op w r depChanges name hpass
      have hexec : (passGates env op r depChanges (name :: names)).exec w = (.error e, w') :=
        Prog.exec_bind_of_error hrun
      have hone := @nonePending_passGate env op r w depChanges name hop
      rw [hrun] at hone
      rw [hexec, hone]
      simp

/-- **The gates of the local path**, each with its install. -/
theorem nonePending_installLocal (hop : op ≠ .remove) {changes : List Change} :
    NonePending w ((installLocal env op r depChanges changes).exec w).2 ↔
      gatesClose env true w.calls changes.length = true := by
  induction changes generalizing w with
  | nil => exact iff_of_true (fun g => pending_self) rfl
  | cons c cs ih =>
    rw [List.length_cons, gatesClose]
    cases hpass : gatePasses env w.calls with
    | true =>
      have hdoes := (@does_passGate env op r c.name depChanges w).1
      rw [passGate_of_passes hpass] at hdoes
      have hinstall : Performs env downloadFootprint.Allows
          (confirmed env op r depChanges c.name w)
          ((confirmed env op r depChanges c.name w).after env (installAct c.file)) :=
        .single (by decide : _ ∈ _)
      have hnone : NonePending w
          ((confirmed env op r depChanges c.name w).after env (installAct c.file)) :=
        (nonePending_of_quiet_last downloadFootprint_quiet hdoes hinstall).mpr
          (nonePending_of_passes hop hpass)
      cases hok : installSucceeded (env.reply (w.calls + 3)) with
      | true =>
        have hrest := (@does_installLocal env op r depChanges cs
          ((confirmed env op r depChanges c.name w).after env (installAct c.file))).1
        rw [installLocal_of_succeeded hpass hok,
          nonePending_trans (hdoes.any.trans hinstall.any) hrest hnone, ih, calls_gatedFile]
        simp
      | false =>
        rw [installLocal_of_not_succeeded hpass hok]
        exact iff_of_true hnone (by simp)
    | false =>
      obtain ⟨e, w', hrun⟩ := @passGate_of_not_passes env op w r depChanges c.name hpass
      have hexec : (installLocal env op r depChanges (c :: cs)).exec w = (.error e, w') :=
        Prog.exec_bind_of_error hrun
      have hone := @nonePending_passGate env op r w depChanges c.name hop
      rw [hrun] at hone
      rw [hexec, hone]
      simp

/-- The installs of either path. -/
theorem nonePending_installAll (hop : op ≠ .remove) :
    NonePending w ((installAll env op p names opts).exec w).2 ↔
      gatesClose env (!opts.localFiles.isEmpty) w.calls (items opts p names).length = true := by
  unfold installAll items
  split
  · next hlocal =>
    rw [hlocal, List.length_map]
    exact nonePending_installLocal hop
  · next hcatalog =>
    have hdoes := (@does_passGates env op p (dumpChanges env p) names w).1
    rw [Bool.not_eq_true] at hcatalog
    rw [hcatalog, ← @nonePending_passGates env op p names w (dumpChanges env p) hop]
    cases hrun : (passGates env op p (dumpChanges env p) names).exec w with
    | mk ended t =>
      rw [hrun] at hdoes
      cases ended with
      | ok u =>
        have hrest := (@does_downloadAndInstall env p names opts t).1
        rw [Prog.exec_bind_of_ok hrun]
        exact nonePending_of_quiet_last downloadFootprint_quiet hdoes hrest
      | error e => rw [Prog.exec_bind_of_error hrun]

/-! ## 4. The gate of a removal -/

theorem filterMap_asString (victims : List String) :
    (victims.map Json.str).filterMap asString = victims := by
  induction victims with
  | nil => rfl
  | cons v vs ih => rw [List.map_cons, List.filterMap_cons, ih]; rfl

theorem gateCall_batch (victims : List String) :
    gateCall "requestMultiUninstall" (victimArgs victims) = some (.request, .batch victims) ∧
      gateCall "confirmMultiUninstall" (victimArgs victims) = some (.confirm, .batch victims) ∧
      gateCall "cancelMultiUninstall" (victimArgs victims) = some (.cancel, .batch victims) := by
  simp only [gateCall, victimArgs, filterMap_asString, and_self]

theorem pending_requestedMulti {victims : List String} :
    pending g false w (w.after env (requestMultiAct victims)) =
      (decide (.batch victims = g) && accepted (env.reply w.calls)) := by
  rw [requestMultiAct, pending_gateCall (Performs.refl (C := fun _ _ => True) w)
    (gateCall_batch victims).1, pending_self]
  by_cases hg : Gate.batch victims = g
  · cases h : accepted (env.reply w.calls) <;> simp [Stage.writes, hg, h]
  · simp [hg]

theorem pending_removalOpened {victims : List String} :
    pending g false w (removalOpened env victims front w) =
      (decide (.batch victims = g) && accepted (env.reply w.calls)) :=
  (pending_ack (C := fun _ _ => True) (.single trivial)).trans pending_requestedMulti

/-- A removal that goes up to its confirmation closes its gate if the confirmation is accepted. -/
theorem pending_removalConfirmed {victims : List String} :
    pending g false w (removalConfirmed env victims front w) =
      (decide (.batch victims = g) && accepted (env.reply w.calls) &&
        !accepted (env.reply (w.calls + 2))) := by
  have hrequest : Performs env (fun _ _ => True) w (w.after env (requestMultiAct victims)) :=
    .single trivial
  have hstopped : Performs env (fun _ _ => True) w (removalStopped env victims front w) :=
    (hrequest.act trivial).trans (performs_stopAll victims _).any
  have hpending : pending g false w (removalStopped env victims front w) =
      (decide (.batch victims = g) && accepted (env.reply w.calls)) :=
    (pending_ack_stop hrequest victims).trans pending_requestedMulti
  rw [removalConfirmed, confirmMultiAct,
    pending_gateCall hstopped (gateCall_batch victims).2.1, hpending, calls_removalStopped]
  by_cases hg : Gate.batch victims = g
  · cases h : accepted (env.reply (w.calls + 2)) <;> simp [Stage.writes, hg, h]
  · simp [hg]

/-- A removal that is withdrawn closes its gate if the cancellation arrives. -/
theorem pending_removalCancelled {victims : List String} :
    pending g false w ((removalOpened env victims front w).after env (cancelMultiAct victims)) =
      (decide (.batch victims = g) && accepted (env.reply w.calls) &&
        !arrived (env.reply (w.calls + 2))) := by
  have hopened : Performs env (fun _ _ => True) w (removalOpened env victims front w) :=
    (Performs.single trivial).act trivial
  have hcalls : (removalOpened env victims front w).calls = w.calls + 2 := rfl
  rw [cancelMultiAct, pending_gateCall hopened (gateCall_batch victims).2.2,
    pending_removalOpened, hcalls]
  by_cases hg : Gate.batch victims = g
  · cases h : arrived (env.reply (w.calls + 2)) <;> simp [Stage.writes, hg, h]
  · simp [hg]

/-- What is left pending of one gate, and of that gate only, when its own is what is left. -/
theorem nonePending_iff_own {own : Gate} {left : Bool}
    (h : ∀ g, pending g false w w' = (decide (own = g) && left)) :
    NonePending w w' ↔ left = false := by
  constructor
  · intro hnone
    have hown := hnone own
    rw [h] at hown
    simpa using hown
  · intro hleft g
    rw [h, hleft, Bool.and_false]

/-- **The gate of a removal.** -/
theorem nonePending_applyRemove :
    NonePending w ((applyRemove env p).exec w).2 ↔
      p.victims = [] ∨ removalCloses env w.calls = true := by
  cases hvictims : p.victims with
  | nil =>
    rw [applyRemove_of_nil hvictims]
    exact iff_of_true (fun g => pending_self) (Or.inl rfl)
  | cons front rest =>
    rw [or_iff_right (by simp)]
    cases hrequest : accepted (env.reply w.calls) with
    | false =>
      obtain ⟨e, hrun⟩ := applyRemove_of_not_requested hvictims hrequest
      rw [hrun, nonePending_iff_own fun g => pending_requestedMulti]
      simp [removalCloses, hrequest]
    | true =>
      cases hack : accepted (env.reply (w.calls + 1)) with
      | false =>
        obtain ⟨e, hrun⟩ := applyRemove_of_not_acknowledged hvictims hrequest hack
        rw [hrun]
        dsimp only
        split
        · next hrefused =>
          rw [nonePending_iff_own fun g => by rw [pending_removalCancelled, Bool.and_assoc]]
          simp [removalCloses, hrequest, hack, hrefused]
        · next hunreadable =>
          rw [nonePending_iff_own fun g => pending_removalOpened]
          simp [removalCloses, hrequest, hack, hunreadable]
      | true =>
        have hopens : gateOpens env w.calls = true := by simp [gateOpens, hrequest, hack]
        have hleft : NonePending w (removalConfirmed env p.victims front w) ↔
            removalCloses env w.calls = true := by
          rw [nonePending_iff_own fun g => by rw [pending_removalConfirmed, Bool.and_assoc]]
          simp [removalCloses, hrequest, hack]
        cases hconfirm : accepted (env.reply (w.calls + 2)) with
        | true =>
          rw [applyRemove_of_confirmed hvictims hopens hconfirm, ← hleft]
          have hlast : Performs env (Footprint.Allows ⟨[], [], []⟩)
              (removalConfirmed env p.victims front w)
              ((removalConfirmed env p.victims front w).after env .refresh) := .single trivial
          have hrun : Performs env (fun _ _ => True) w
              (removalConfirmed env p.victims front w) :=
            Performs.act (((Performs.single trivial).act trivial).trans
              (performs_stopAll p.victims _).any) trivial
          exact nonePending_of_quiet_last (by simp) hrun hlast
        | false =>
          obtain ⟨e, hrun⟩ := applyRemove_of_not_confirmed hvictims hopens hconfirm
          rw [hrun]
          exact hleft

/-! ## 5. When nothing is left pending -/

/-- The replies, from the `c`-th on, on which an operation with plan `p` closes the gates it
opens. -/
def ClosesGates (env : Env) (op : Op) (names : List String) (opts : Options) (p : Report)
    (c : Nat) : Prop :=
  if op = .remove then p.victims = [] ∨ removalCloses env c = true
  else gatesClose env (!opts.localFiles.isEmpty) c (items opts p names).length = true

theorem exec_catchReturn_world (q : M Answer) (w : World) :
    ((catchReturn q).exec w).2 = (q.exec w).2 := by
  rw [exec_catchReturn]
  cases h : q.exec w with
  | mk res t =>
    cases res with
    | ok a => rfl
    | error e => cases e <;> rfl

/-- **When no gate is left pending.**  Whichever way an operation ends, each action that it opened
has been confirmed or cancelled exactly when it is over with its plan, or the replies after the
plan are such that the gates close. -/
theorem no_gate_left_pending_iff (env : Env) (op : Op) (names : List String) (opts : Options)
    (w : World) :
    NonePending w ((apply env op names opts).exec w).2 ↔
      ∀ p w₁, (plan env op names opts).exec w = (.ok (.report p), w₁) →
        ClosesGates env op names opts p w₁.calls := by
  have hquiet : ∀ m ∈ planFootprint.methods, m ∉ gateMethods := by decide
  obtain ⟨res, w₁, hplan⟩ : ∃ res w₁, (plan env op names opts).exec w = (res, w₁) := ⟨_, _, rfl⟩
  have hpart₁ := (does_plan op names opts).of_exec hplan
  by_cases hreport : ∃ p, res = .ok (.report p)
  · obtain ⟨p, rfl⟩ := hreport
    rw [forall_planned_iff hplan]
    unfold ClosesGates
    by_cases hop : op = .remove
    · subst hop
      rw [if_pos rfl, apply_of_planned hplan, if_pos rfl, exec_catchReturn_world,
        nonePending_of_quiet_first hquiet hpart₁ (@does_applyRemove env p w₁).1]
      exact nonePending_applyRemove
    · have hpart₂ := (@does_installAll env op p names opts w₁).1
      have hpart₃ := performs_rest hop hplan
      rw [if_neg hop,
        nonePending_of_quiet_first hquiet hpart₁ (hpart₂.any.trans hpart₃.any),
        nonePending_of_quiet_last (F := ⟨[], [], p.affectedLoaded⟩) (by simp) hpart₂ hpart₃]
      exact nonePending_installAll hop
  · have hno : ∀ p, res ≠ .ok (.report p) := fun p heq => hreport ⟨p, heq⟩
    rw [(apply_of_not_planned hplan hno).2]
    exact iff_of_true (fun g => pending_of_footprint hquiet hpart₁)
      (forall_planned_of_not hplan hno)

end Gates

/-- The replies of an upgrade of `lib` whose acknowledgement is refused. -/
def refusedAcknowledgement : List Reply :=
  [.ok (.arr []), .ok (.arr [.obj [("name", .str "lib"), ("version", .str "2.0")]]),
    .ok (.obj [("success", .bool true)]), .ok (.obj [("error", .str "busy")])]

/-- **A gate is left pending.**  The upgrade of `lib` is requested and its acknowledgement is
refused; `apply` returns its error without withdrawing what it requested. -/
theorem refused_acknowledgement_leaves_pending :
    let run := (apply (graphEnv [] refusedAcknowledgement) .upgrade ["lib"] {}).exec ⟨[], 0, []⟩
    run.1 = .ok (.report
        { op := .upgrade, changes := [⟨"lib", .install, "", "2.0", .catalog "" false⟩],
          affectedLoaded := [], status := .error, failedStep := some "request",
          error := some "busy" }) ∧
      pending (.package .upgrade "lib") false ⟨[], 0, []⟩ run.2 = true ∧
      ¬ NonePending ⟨[], 0, []⟩ run.2 := by
  have hpending : pending (.package .upgrade "lib") false ⟨[], 0, []⟩
      ((apply (graphEnv [] refusedAcknowledgement) .upgrade ["lib"] {}).exec ⟨[], 0, []⟩).2 =
      true := by decide +kernel
  refine ⟨by decide +kernel, hpending, ?_⟩
  intro hnone
  have hno := hnone (.package .upgrade "lib")
  rw [hpending] at hno
  cases hno

end Logosctl.PackageOps
