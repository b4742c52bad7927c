/-
# Upgrades and the packages that were installed

The package manager removes a package when it confirms the package's upgrade, and only a
successful `installPlugin` puts a copy back.  Read off the log in that way, an upgrade loses a
package when it has been confirmed and the run ends, for whatever reason, before a file of it
has been installed.

The catalog path confirms every package asked for before it fetches any; the local path
confirms and installs one file at a time.  `upgrade_keeps_packages_iff` says, for each of the
two and in terms of the replies alone, when nothing is lost.
-/
import Logosctl.PackageOps.Replies
import Logosctl.Ledger

namespace Logosctl.PackageOps

open Library

/-! ## 1. What is installed, read off the log -/

/-- What an event does to package `n`: a successful `confirmUpgrade` of it removes it, and a
successful `installPlugin` of a file that holds it puts it back. -/
def writesPackage (pkgOf : String → String) (n : String) : Event → Option Bool
  | .call module method (.str x :: _) answer =>
    if module = kPackageManager ∧ method = "confirmUpgrade" ∧ x = n ∧ accepted answer then
      some false
    else if module = kPackageManager ∧ method = "installPlugin" ∧ pkgOf x = n ∧
        installSucceeded answer then some true
    else none
  | _ => none

/-- Whether `n` is there in `w'`, when `b` says whether it was in `w`. -/
def presence (pkgOf : String → String) (n : String) (b : Bool) (w w' : World) : Bool :=
  lastWrite (writesPackage pkgOf n) b (eventsSince w w')

section Presence

variable {env : Env} {pkgOf : String → String} {n : String} {b : Bool} {w w₁ w' : World}
  {F : Footprint}

theorem presence_self : presence pkgOf n b w w = b := ledger_self

theorem presence_after (a : Act) :
    presence pkgOf n b w (w.after env a) = (writesPackage pkgOf n (w.event env a)).getD b :=
  ledger_after a

theorem presence_trans {C D : World → Act → Prop} (h₁ : Performs env C w w₁)
    (h₂ : Performs env D w₁ w') :
    presence pkgOf n b w w' = presence pkgOf n (presence pkgOf n b w w₁) w₁ w' :=
  ledger_trans h₁ h₂

/-- What calls neither `confirmUpgrade` nor `installPlugin` neither removes nor installs. -/
theorem presence_of_footprint (hconfirm : "confirmUpgrade" ∉ F.methods)
    (hinstall : "installPlugin" ∉ F.methods) (h : Performs env F.Allows w w') :
    presence pkgOf n b w w' = b := by
  refine ledger_of_performs ?_ h
  intro s a ha
  cases a with
  | call module method args =>
    have hm₁ : method ≠ "confirmUpgrade" := fun h => hconfirm (h ▸ ha)
    have hm₂ : method ≠ "installPlugin" := fun h => hinstall (h ▸ ha)
    unfold World.event writesPackage
    split
    · next heq =>
      cases heq
      rw [if_neg (fun h => hm₁ h.2.1), if_neg (fun h => hm₂ h.2.1)]
    · rfl
  | unload name b => rfl
  | load name => rfl
  | refresh => rfl
  | warn line => rfl

end Presence

/-! ## 2. What one gate and one install do to a package -/

section Gate

variable {env : Env} {pkgOf : String → String} {n : String} {b : Bool} {w : World} {r : Report}
  {depChanges name : String}

/-- Everything of a gate but its confirmation. -/
def gateFootprint (stops : List String) : Footprint :=
  ⟨["requestUpgrade", "ackPendingAction", "cancelUpgrade"], stops, []⟩

theorem performs_stopped :
    Performs env (gateFootprint r.affectedLoaded).Allows w
      (stopped env .upgrade r depChanges name w) := by
  have hrequest : Performs env (gateFootprint r.affectedLoaded).Allows w
      (w.after env (requestAct .upgrade depChanges name)) :=
    .single (by simp [Footprint.Allows, gateFootprint, requestAct, requestCall])
  have hopened : Performs env (gateFootprint r.affectedLoaded).Allows w
      (opened env .upgrade depChanges name w) :=
    hrequest.act (by simp [Footprint.Allows, gateFootprint, ackAct])
  refine hopened.trans ((performs_stopAll r.affectedLoaded _).mono fun w a h => ?_)
  exact Footprint.allows_mono (F := ⟨[], r.affectedLoaded, []⟩)
    (G := gateFootprint r.affectedLoaded) (List.nil_subset _) (List.Subset.refl _)
    (List.Subset.refl _) h

theorem presence_gate {T : List String} {w' : World}
    (h : Performs env (gateFootprint T).Allows w w') : presence pkgOf n b w w' = b :=
  presence_of_footprint (F := gateFootprint T) (by simp [gateFootprint]) (by simp [gateFootprint]) h

/-- A confirmation removes its package if it is accepted. -/
theorem presence_confirmed :
    presence pkgOf n b w (confirmed env .upgrade r depChanges name w) =
      if name = n ∧ accepted (env.reply (w.calls + 2)) = true then false else b := by
  have hstopped := @performs_stopped env w r depChanges name
  have hconfirm : Performs env (fun _ _ => True) (stopped env .upgrade r depChanges name w)
      (confirmed env .upgrade r depChanges name w) := .single trivial
  rw [presence_trans hstopped hconfirm, presence_gate hstopped]
  unfold confirmed
  rw [presence_after]
  by_cases h : name = n ∧ accepted (env.reply (w.calls + 2)) = true
  · simp [World.event, confirmAct, confirmCall, writesPackage, h]
  · rw [if_neg h]
    simp [World.event, confirmAct, confirmCall, writesPackage, h]

/-- **What a gate does to a package**: it removes its own, if it passes. -/
theorem presence_passGate :
    presence pkgOf n b w ((passGate env .upgrade r depChanges name).exec w).2 =
      if name = n ∧ gatePasses env w.calls = true then false else b := by
  have hrequest : Performs env (gateFootprint []).Allows w
      (w.after env (requestAct .upgrade depChanges name)) :=
    .single (by simp [Footprint.Allows, gateFootprint, requestAct, requestCall])
  have hopened : Performs env (gateFootprint []).Allows w (opened env .upgrade depChanges name w) :=
    hrequest.act (by simp [Footprint.Allows, gateFootprint, ackAct])
  cases hopens : gateOpens env w.calls with
  | false =>
    rw [if_neg (by simp [gatePasses, hopens])]
    obtain ⟨e, hrun⟩ := @passGate_of_not_opens env .upgrade r depChanges name w hopens
    rw [hrun]
    split
    · exact presence_gate hopened
    · exact presence_gate hrequest
  | true =>
    have hconfirmed := @presence_confirmed env pkgOf n b w r depChanges name
    cases hpass : gatePasses env w.calls with
    | true =>
      have hreply : accepted (env.reply (w.calls + 2)) = true := by
        simpa [gatePasses, hopens] using hpass
      rw [passGate_of_passes hpass, hconfirmed, hreply]
    | false =>
      have hreply : accepted (env.reply (w.calls + 2)) = false := by
        simpa [gatePasses, hopens] using hpass
      rw [hreply] at hconfirmed
      obtain ⟨e, hrun⟩ := @passGate_of_opens env .upgrade r depChanges name w hopens hpass
      rw [hrun]
      split
      · have hall : Performs env (fun _ _ => True) w
            (confirmed env .upgrade r depChanges name w) := performs_stopped.any.act trivial
        have hcancel : Performs env (gateFootprint []).Allows
            (confirmed env .upgrade r depChanges name w)
            ((confirmed env .upgrade r depChanges name w).after env (cancelAct .upgrade name)) :=
          .single (by simp [Footprint.Allows, gateFootprint, cancelAct, cancelCall])
        rw [presence_trans hall hcancel, hconfirmed, presence_gate hcancel]
      · exact hconfirmed

/-- **What the gates do to a package**: they remove it if its name is among those confirmed. -/
theorem presence_passGates {names : List String} :
    presence pkgOf n b w ((passGates env .upgrade r depChanges names).exec w).2 =
      if n ∈ confirmedNames env w.calls names then false else b := by
  induction names generalizing w b with
  | nil => exact presence_self
  | cons name names ih =>
    have hfirst := @presence_passGate env pkgOf n b w r depChanges name
    have hdoes := (@does_passGate env .upgrade r name depChanges w).1
    cases hpass : gatePasses env w.calls with
    | true =>
      have hrun := @passGate_of_passes env .upgrade r depChanges name w hpass
      rw [hrun] at hfirst hdoes
      have hexec : (passGates env .upgrade r depChanges (name :: names)).exec w =
          (passGates env .upgrade r depChanges names).exec
            (confirmed env .upgrade r depChanges name w) := Prog.exec_bind_of_ok hrun
      rw [hexec, presence_trans hdoes (does_passGates depChanges names _).1, ih, hfirst,
        calls_confirmed, confirmedNames, if_pos hpass]
      by_cases hn : n ∈ confirmedNames env (w.calls + 3) names
      · simp [hn]
      · simp [hn, hpass, eq_comm]
    | false =>
      obtain ⟨e, w', hrun⟩ := @passGate_of_not_passes env .upgrade w r depChanges name hpass
      have hexec : (passGates env .upgrade r depChanges (name :: names)).exec w = (.error e, w') :=
        Prog.exec_bind_of_error hrun
      rw [hrun] at hfirst
      rw [hexec, hfirst, confirmedNames, hpass]
      simp

end Gate

/-! ## 3. What the installs do to a package -/

section Install

variable {env : Env} {pkgOf : String → String} {n : String} {b : Bool} {w : World} {r : Report}

/-- The install of a file puts its package back, if it succeeds. -/
theorem presence_installAct {path : String} :
    presence pkgOf n b w (w.after env (installAct path)) =
      if pkgOf path = n ∧ installSucceeded (env.reply w.calls) = true then true else b := by
  rw [presence_after]
  by_cases h : pkgOf path = n ∧ installSucceeded (env.reply w.calls) = true
  · simp [World.event, installAct, writesPackage, h]
  · rw [if_neg h]
    simp [World.event, installAct, writesPackage, h]

/-- Only a call whose first argument is a string can concern a package. -/
theorem call_or_unconcerned (pkgOf : String → String) (n : String) (e : Event) :
    (∃ module method x rest answer, e = .call module method (.str x :: rest) answer) ∨
      writesPackage pkgOf n e = none ∧ installsFile e = none := by
  rcases e with ⟨module, method, args, answer⟩ | _ | _
  · rcases args with _ | ⟨arg, rest⟩
    · exact .inr ⟨rfl, rfl⟩
    · cases arg with
      | str x => exact .inl ⟨module, method, x, rest, answer, rfl⟩
      | _ => exact .inr ⟨rfl, rfl⟩
  all_goals exact .inr ⟨rfl, rfl⟩

/-- An event that does not remove a package can only install a file of it. -/
theorem writesPackage_eq {e : Event} (h : writesPackage pkgOf n e ≠ some false) :
    writesPackage pkgOf n e =
      (installsFile e).bind fun path => if pkgOf path = n then some true else none := by
  rcases call_or_unconcerned pkgOf n e with
    ⟨module, method, path, rest, answer, rfl⟩ | ⟨hnone, hfile⟩
  · simp only [writesPackage, installsFile] at h ⊢
    by_cases hconfirm : module = kPackageManager ∧ method = "confirmUpgrade" ∧ path = n ∧
        accepted answer = true
    · rw [if_pos hconfirm] at h
      exact absurd rfl h
    · rw [if_neg hconfirm]
      by_cases hfile : module = kPackageManager ∧ method = "installPlugin" ∧
          installSucceeded answer = true
      · rw [if_pos hfile, Option.bind_some]
        by_cases hpkg : pkgOf path = n
        · rw [if_pos ⟨hfile.1, hfile.2.1, hpkg, hfile.2.2⟩, if_pos hpkg]
        · rw [if_neg fun hall => hpkg hall.2.2.1, if_neg hpkg]
      · rw [if_neg fun hall => hfile ⟨hall.1, hall.2.1, hall.2.2.2⟩, if_neg hfile]
        rfl
  · rw [hnone, hfile]
    rfl

/-- Without removals, a package is there if a file of it was installed or it was there before. -/
theorem lastWrite_eq_any {es : List Event} (h : ∀ e ∈ es, writesPackage pkgOf n e ≠ some false) :
    lastWrite (writesPackage pkgOf n) b es =
      ((es.filterMap installsFile).any (fun path => pkgOf path = n) || b) := by
  induction es generalizing b with
  | nil => simp
  | cons e es ih =>
    rw [lastWrite_cons, ih fun x hx => h x (List.mem_cons_of_mem e hx),
      writesPackage_eq (h e List.mem_cons_self), List.filterMap_cons]
    cases installsFile e with
    | none => rfl
    | some path => by_cases hx : pkgOf path = n <;> simp [hx]

/-- What calls no `confirmUpgrade` puts a package back if it installs a file of it. -/
theorem presence_eq_any {F : Footprint} {w' : World} (hconfirm : "confirmUpgrade" ∉ F.methods)
    (h : Performs env F.Allows w w') :
    presence pkgOf n b w w' = ((fileInstalls w w').any (fun path => pkgOf path = n) || b) := by
  refine lastWrite_eq_any ?_
  intro e he
  obtain ⟨s, a, -, ha, -, rfl⟩ := h.mem_eventsSince he
  cases a with
  | call module method args =>
    have hne : method ≠ "confirmUpgrade" := fun h => hconfirm (h ▸ ha)
    unfold World.event writesPackage
    split
    · next heq =>
      cases heq
      rw [if_neg (fun h => hne h.2.1)]
      split <;> simp
    · simp
  | unload name b => simp [World.event, writesPackage]
  | load name => simp [World.event, writesPackage]
  | refresh => simp [World.event, writesPackage]
  | warn line => simp [World.event, writesPackage]

/-- The whole of the catalog path after its gates, for one package: a file of it that gets
installed puts it back. -/
theorem presence_downloadAndInstall {names : List String} {opts : Options} :
    presence pkgOf n b w ((downloadAndInstall env r names opts).exec w).2 =
      ((installedPaths env (w.calls + 2) (downloads env opts w.calls)).any
        (fun path => pkgOf path = n) || b) := by
  have hdoes := (@does_downloadAndInstall env r names opts w).1
  rw [presence_eq_any (by simp [downloadFootprint]) hdoes, fileInstalls_downloadAndInstall]

/-! ## 4. The local path -/

/-- A gated file removes the package its change names; a successful install of it puts the
package back that the file holds. -/
def writesGated (pkgOf : String → String) (n : String) (x : Change × Bool) : Option Bool :=
  if x.2 = true ∧ pkgOf x.1.file = n then some true
  else if x.1.name = n then some false
  else none

/-- One gated file, for one package. -/
theorem presence_gatedFile {depChanges : String} {change : Change}
    (hpass : gatePasses env w.calls = true) :
    presence pkgOf n b w ((confirmed env .upgrade r depChanges change.name w).after env
        (installAct change.file)) =
      (writesGated pkgOf n (change, installSucceeded (env.reply (w.calls + 3)))).getD b := by
  have hgate := @presence_passGate env pkgOf n b w r depChanges change.name
  have hdoes := (@does_passGate env .upgrade r change.name depChanges w).1
  rw [passGate_of_passes hpass, hpass] at hgate
  rw [passGate_of_passes hpass] at hdoes
  have hinstall : Performs env (installFootprint r.affectedLoaded).Allows
      (confirmed env .upgrade r depChanges change.name w)
      ((confirmed env .upgrade r depChanges change.name w).after env (installAct change.file)) :=
    .single (by simp [Footprint.Allows, installFootprint, installAct])
  rw [presence_trans hdoes hinstall, presence_installAct, hgate, calls_confirmed]
  unfold writesGated
  by_cases hput : installSucceeded (env.reply (w.calls + 3)) = true ∧ pkgOf change.file = n
  · rw [if_pos hput.symm, if_pos hput]
    rfl
  · rw [if_neg (fun h => hput h.symm), if_neg hput]
    by_cases hname : change.name = n
    · simp [hname]
    · simp [hname]

/-- **What the local path does to a package**: what its gated files do, one after the other. -/
theorem presence_installLocal {depChanges : String} {changes : List Change} :
    presence pkgOf n b w ((installLocal env .upgrade r depChanges changes).exec w).2 =
      lastWrite (writesGated pkgOf n) b (gatedFiles env w.calls changes) := by
  induction changes generalizing w b with
  | nil => exact presence_self
  | cons change changes ih =>
    unfold gatedFiles
    cases hpass : gatePasses env w.calls with
    | false =>
      have hgate := @presence_passGate env pkgOf n b w r depChanges change.name
      obtain ⟨e, w', hrun⟩ := @passGate_of_not_passes env .upgrade w r depChanges change.name hpass
      have hexec : (installLocal env .upgrade r depChanges (change :: changes)).exec w =
          (.error e, w') := Prog.exec_bind_of_error hrun
      rw [hrun, hpass] at hgate
      rw [hexec, hgate]
      simp
    | true =>
      have hfile := @presence_gatedFile env pkgOf n b w r depChanges change hpass
      cases hok : installSucceeded (env.reply (w.calls + 3)) with
      | false =>
        rw [installLocal_of_not_succeeded hpass hok, hfile, hok]
        rfl
      | true =>
        have hfirst : Performs env (fun _ _ => True) w
            ((confirmed env .upgrade r depChanges change.name w).after env
              (installAct change.file)) :=
          (performs_stopped.any.act trivial).act trivial
        have hrest := (@does_installLocal env .upgrade r depChanges changes
          ((confirmed env .upgrade r depChanges change.name w).after env
            (installAct change.file))).1
        rw [installLocal_of_succeeded hpass hok, presence_trans hfirst hrest, ih, hfile, hok,
          calls_gatedFile]
        rfl

end Install

/-! ## 5. When an upgrade loses nothing -/

/-- A gated file concerns a package if it removes it or puts it back. -/
def Concerns (pkgOf : String → String) (n : String) (x : Change × Bool) : Prop :=
  x.1.name = n ∨ (x.2 = true ∧ pkgOf x.1.file = n)

/-- The replies, from the `c`-th on, on which an upgrade with plan `p` does not lose package `n`.
Local files: the last gated file to concern `n` puts it back, if it removed it.  Catalog: if the
upgrade of `n` is confirmed then so are all the others, and a file of `n` gets installed. -/
def KeepsPackage (env : Env) (pkgOf : String → String) (opts : Options) (p : Report)
    (names : List String) (c : Nat) (n : String) : Prop :=
  if !opts.localFiles.isEmpty then
    ∀ pre x post, gatedFiles env c p.changes = pre ++ x :: post →
      (∀ y ∈ post, ¬ Concerns pkgOf n y) → x.1.name = n → x.2 = true ∧ pkgOf x.1.file = n
  else
    n ∈ confirmedNames env c names →
      confirmedNames env c names = names ∧
        ∃ path ∈ installedPaths env (c + 3 * names.length + 2)
          (downloads env opts (c + 3 * names.length)), pkgOf path = n

section Keeps

variable {env : Env} {pkgOf : String → String} {n : String} {w : World} {p : Report}
  {names : List String} {opts : Options}

theorem writesGated_eq_none_iff {x : Change × Bool} :
    writesGated pkgOf n x = none ↔ ¬ Concerns pkgOf n x := by
  unfold writesGated Concerns
  split
  · next h => simp [h]
  · next h =>
    rw [or_iff_left h]
    split
    · next hname => simp [hname]
    · next hname => simp [hname]

theorem writesGated_eq_false_iff {x : Change × Bool} :
    writesGated pkgOf n x = some false ↔ x.1.name = n ∧ ¬ (x.2 = true ∧ pkgOf x.1.file = n) := by
  unfold writesGated
  split
  · next h => simp [h]
  · next h =>
    rw [and_iff_left h]
    split
    · next hname => simp [hname]
    · next hname => simp [hname]

/-- The last gated file to concern a package decides. -/
theorem lastWrite_gatedFiles_iff {files : List (Change × Bool)} :
    lastWrite (writesGated pkgOf n) true files = true ↔
      ∀ pre x post, files = pre ++ x :: post → (∀ y ∈ post, ¬ Concerns pkgOf n y) →
        x.1.name = n → x.2 = true ∧ pkgOf x.1.file = n := by
  have hlast := @lastWrite_eq_iff _ _ (writesGated pkgOf n) true false files
  rw [← Bool.not_eq_false, hlast]
  simp only [writesGated_eq_none_iff, writesGated_eq_false_iff, Bool.true_eq_false, false_and,
    or_false]
  constructor
  · intro h pre x post hsplit hpost hname
    by_contra hput
    exact h ⟨pre, x, post, hsplit, ⟨hname, hput⟩, hpost⟩
  · rintro h ⟨pre, x, post, hsplit, ⟨hname, hput⟩, hpost⟩
    exact hput (h pre x post hsplit hpost hname)

/-- **The installs of an upgrade, for one package.** -/
theorem presence_installAll_iff :
    presence pkgOf n true w ((installAll env .upgrade p names opts).exec w).2 = true ↔
      KeepsPackage env pkgOf opts p names w.calls n := by
  unfold installAll KeepsPackage
  split
  · rw [presence_installLocal]
    exact lastWrite_gatedFiles_iff
  · have hgates := @presence_passGates env pkgOf n true w p (dumpChanges env p) names
    have hdoes := (@does_passGates env .upgrade p (dumpChanges env p) names w).1
    by_cases hall : confirmedNames env w.calls names = names
    · obtain ⟨w₁, hrun, hcalls⟩ := @passGates_of_passes env .upgrade w p (dumpChanges env p) names hall
      rw [hrun] at hgates hdoes
      have hrest := (@does_downloadAndInstall env p names opts w₁).1
      rw [Prog.exec_bind_of_ok hrun, presence_trans hdoes hrest, presence_downloadAndInstall,
        hgates, hcalls, hall]
      by_cases hn : n ∈ names
      · simp [hn]
      · simp [hn]
    · obtain ⟨e, w₁, hrun⟩ := @passGates_of_not_passes env .upgrade w p (dumpChanges env p) names hall
      rw [hrun] at hgates
      rw [Prog.exec_bind_of_error hrun, hgates]
      by_cases hn : n ∈ confirmedNames env w.calls names
      · simp [hn, hall]
      · simp [hn]

/-- Planning changes no package, and neither does what follows the installs. -/
theorem presence_apply (b : Bool) {w₁ : World}
    (hplan : (plan env .upgrade names opts).exec w = (.ok (.report p), w₁)) :
    presence pkgOf n b w ((apply env .upgrade names opts).exec w).2 =
      presence pkgOf n b w₁ ((installAll env .upgrade p names opts).exec w₁).2 := by
  have hpart₁ := (does_plan .upgrade names opts).of_exec hplan
  have hpart₂ := (@does_installAll env .upgrade p names opts w₁).1
  have hpart₃ := performs_rest (by decide) hplan
  rw [presence_trans hpart₁ (hpart₂.any.trans hpart₃.any), presence_trans hpart₂ hpart₃,
    presence_of_footprint (F := planFootprint) (by decide) (by decide) hpart₁,
    presence_of_footprint (F := ⟨[], [], p.affectedLoaded⟩) (by simp) (by simp) hpart₃]

/-- An operation that is over with its plan changes no package. -/
theorem presence_apply_of_not_planned (b : Bool)
    (hno : ∀ p w₁, (plan env .upgrade names opts).exec w ≠ (.ok (.report p), w₁)) :
    presence pkgOf n b w ((apply env .upgrade names opts).exec w).2 = b := by
  rcases hplan : (plan env .upgrade names opts).exec w with ⟨res, w₁⟩
  have hno' : ∀ p, res ≠ .ok (.report p) := fun p heq => hno p w₁ (by rw [hplan, heq])
  rw [(apply_of_not_planned hplan hno').2]
  exact presence_of_footprint (F := planFootprint) (by decide) (by decide)
    ((does_plan .upgrade names opts).of_exec hplan)

/-- **When an upgrade loses no package.**  Every package of `installed` is there when `apply`
ends, in whatever way it ends, exactly when its plan was refused or the replies that follow the
plan keep each of them. -/
theorem upgrade_keeps_packages_iff (env : Env) (pkgOf : String → String) (names : List String)
    (opts : Options) (w : World) (installed : Set String) :
    (∀ n ∈ installed,
        presence pkgOf n true w ((apply env .upgrade names opts).exec w).2 = true) ↔
      ∀ p w₁, (plan env .upgrade names opts).exec w = (.ok (.report p), w₁) →
        ∀ n ∈ installed, KeepsPackage env pkgOf opts p names w₁.calls n := by
  constructor
  · intro hkept p w₁ hplan n hn
    have hn' := hkept n hn
    rw [presence_apply true hplan] at hn'
    exact presence_installAll_iff.mp hn'
  · intro hcond n hn
    by_cases hplanned : ∃ p w₁, (plan env .upgrade names opts).exec w = (.ok (.report p), w₁)
    · obtain ⟨p, w₁, hplan⟩ := hplanned
      rw [presence_apply true hplan]
      exact presence_installAll_iff.mpr (hcond p w₁ hplan n hn)
    · exact presence_apply_of_not_planned true fun p w₁ hplan => hplanned ⟨p, w₁, hplan⟩

end Keeps

/-- The replies of an upgrade of `lib` whose gate passes and whose download fails. -/
def failedDownload : List Reply :=
  [.ok (.arr [.obj [("name", .str "lib"), ("version", .str "1.0")]]),
    .ok (.arr [.obj [("name", .str "lib"), ("topLevel", .bool true), ("version", .str "2.0")]]),
    .ok (.obj [("success", .bool true)]), .ok (.obj [("success", .bool true)]),
    .ok (.obj [("success", .bool true)]), .ok (.arr []), .error "connection refused"]

/-- **An upgrade loses a package.**  `lib` is installed; its upgrade is confirmed, the download
then fails, and `apply` returns its error with `lib` gone. -/
theorem failed_download_loses_package :
    let run := (apply (graphEnv [] failedDownload) .upgrade ["lib"] {}).exec ⟨[], 0, []⟩
    presence (fun _ => "lib") "lib" true ⟨[], 0, []⟩ run.2 = false ∧
      run.1 = .ok (.report
        { op := .upgrade, changes := [⟨"lib", .upgrade, "1.0", "2.0", .catalog "" true⟩],
          affectedLoaded := [], status := .error, failedStep := some "download",
          error := some
            "package_downloader did not return a download set: connection refused" }) := by
  refine ⟨?_, ?_⟩
  · decide +kernel
  · decide +kernel

end Logosctl.PackageOps
