/-
# Which signature policy is active

package_manager starts with the policy `warn`, takes another when a `setSignaturePolicy` call
reaches it, and loses it when it stops.  So the policy it runs with is the last of these in what
the daemon has done (`activePolicy`).  The daemon delivers the session's policy once, at boot; what
keeps it is that the instance configured then is the one still running.  An act that does not
start package_manager, or a module that needs it, while it is stopped keeps the policy armed
(`Armed.after`), and with it every operation all of whose starts are such.
-/
import Logosctl.Library.LastWrite
import Logosctl.CoreService
import Logosctl.PackageBootstrap
import Logosctl.PackageOps.Steps

namespace Logosctl.SignaturePolicy

open Library Relation

/-! ## 1. The active policy -/

/-- What a change of the loaded set does to the policy: none when package_manager is not there
after it, the module's default when it was not there before. -/
def instanceWrites (before after : List String) : Option (Option String) :=
  if kPackageManager ∉ after then some none
  else if kPackageManager ∈ before then none
  else some (some "warn")

/-- What an event does to the policy. -/
def policyWrites : Event → Option (Option String)
  | .call module method [.str policy] (.ok _) =>
    if module = kPackageManager ∧ method = "setSignaturePolicy" then some (some policy) else none
  | .unload _ _ before after => instanceWrites before after
  | .load _ _ before after => instanceWrites before after
  | _ => none

/-- The policy that package_manager runs with. -/
def activePolicy (w : World) : Option String := lastWrite policyWrites none w.log

/-- While package_manager is loaded, it enforces `p`. -/
def Armed (p : String) (w : World) : Prop :=
  kPackageManager ∈ w.loaded → activePolicy w = some p

/-- The act is a call that sets the policy. -/
def SetsPolicy : Act → Prop
  | .call module method _ => module = kPackageManager ∧ method = "setSignaturePolicy"
  | _ => False

/-- The event is the start of package_manager, or of a module that transitively depends on it,
while package_manager was not running. -/
def StartsManager (dependsOn : String → String → Prop) : Event → Prop
  | .load name _ before _ => kPackageManager ∉ before ∧
      (name = kPackageManager ∨ TransGen dependsOn name kPackageManager)
  | _ => False

/-- A start that fails does not leave the module it was asked for running. -/
def FailsCleanly (env : Env) : Prop :=
  ∀ t loaded m, (env.load t loaded m).1 = false → m ∈ (env.load t loaded m).2 → m ∈ loaded

section Armed

variable {env : Env} {dependsOn : String → String → Prop} {p : String} {w w' : World} {a : Act}

theorem activePolicy_after :
    activePolicy (w.after env a) = (policyWrites (w.event env a)).getD (activePolicy w) := by
  rw [activePolicy, World.log_after, lastWrite_concat]
  rfl

theorem instanceWrites_kept {before after : List String} (hb : kPackageManager ∈ before)
    (ha : kPackageManager ∈ after) : instanceWrites before after = none := by
  rw [instanceWrites, if_neg (not_not.mpr ha), if_pos hb]

theorem instanceWrites_started {before after : List String} (hb : kPackageManager ∉ before)
    (ha : kPackageManager ∈ after) : instanceWrites before after = some (some "warn") := by
  rw [instanceWrites, if_neg (not_not.mpr ha), if_neg hb]

/-- A module call that does not set the policy leaves it alone. -/
theorem policyWrites_call {module method : String} {args : List Json} {reply : Reply}
    (h : ¬(module = kPackageManager ∧ method = "setSignaturePolicy")) :
    policyWrites (.call module method args reply) = none := by
  unfold policyWrites
  split
  · rename_i heq
    cases heq
    exact if_neg h
  · rename_i heq
    cases heq
  · rename_i heq
    cases heq
  · rfl

/-- **One act keeps the policy armed**, if it does not set another and does not bring up a new
instance; unless the policy is the one a new instance has. -/
theorem Armed.after (hneeded : StartsOnlyNeeded env dependsOn) (h : Armed p w)
    (hset : ¬SetsPolicy a) (hstart : p = "warn" ∨ ¬StartsManager dependsOn (w.event env a)) :
    Armed p (w.after env a) := by
  intro hloaded
  rw [activePolicy_after]
  cases a with
  | call module method args =>
    rw [World.event, policyWrites_call hset]
    exact h hloaded
  | unload name withDependents =>
    have hbefore := hneeded.stop _ _ _ _ _ hloaded
    have hwrites : policyWrites (w.event env (.unload name withDependents)) = none :=
      instanceWrites_kept hbefore hloaded
    rw [hwrites]
    exact h hbefore
  | load name =>
    by_cases hbefore : kPackageManager ∈ w.loaded
    · have hwrites : policyWrites (w.event env (.load name)) = none :=
        instanceWrites_kept hbefore hloaded
      rw [hwrites]
      exact h hbefore
    · have hwrites : policyWrites (w.event env (.load name)) = some (some "warn") :=
        instanceWrites_started hbefore hloaded
      have hnew : StartsManager dependsOn (w.event env (.load name)) := by
        refine ⟨hbefore, ?_⟩
        rcases hneeded.needed _ _ _ _ hloaded with hold | heq | hdep
        · exact absurd hold hbefore
        · exact Or.inl heq.symm
        · exact Or.inr hdep
      rcases hstart with rfl | hno
      · rw [hwrites]
        rfl
      · exact absurd hnew hno
  | refresh => exact h hloaded
  | warn line => exact h hloaded

/-- **A run of such acts keeps the policy armed.** -/
theorem Armed.performs (hneeded : StartsOnlyNeeded env dependsOn) (h : Armed p w)
    (hrun : Performs env (fun _ a => ¬SetsPolicy a) w w')
    (hstart : p = "warn" ∨ ∀ e ∈ eventsSince w w', ¬StartsManager dependsOn e) : Armed p w' := by
  induction hrun with
  | refl => exact h
  | @tail s s' a hs ha hstep ih =>
    subst hstep
    have hlast : eventsSince s (s.after env a) = [s.event env a] := eventsSince_eq rfl
    rw [Performs.eventsSince_trans hs (Performs.single (C := fun _ _ => True) trivial),
      hlast] at hstart
    refine Armed.after hneeded (ih ?_) ha ?_
    · exact hstart.imp_right fun hno e he => hno e (List.mem_append_left _ he)
    · exact hstart.imp_right fun hno => hno _ (by simp)

end Armed

/-! ## 2. The operations after boot -/

/-- What a client can ask of the daemon that loads or unloads modules. -/
inductive Operation
  | loadModule (name : String)
  | unloadModule (name : String) (withDependents : Bool)
  | reloadModule (name : String)
  | applyPackageOperation (op : PackageOps.Op) (names : List String) (opts : PackageOps.Options)

/-- The world after an operation, however it ended. -/
def Operation.after (env : Env) (info : CoreService.Info) (w : World) : Operation → World
  | .loadModule name => ((CoreService.loadModule env info name).exec w).2
  | .unloadModule name withDependents =>
    ((CoreService.unloadModule env name withDependents).exec w).2
  | .reloadModule name => ((CoreService.reloadModule env info name).exec w).2
  | .applyPackageOperation op names opts => ((PackageOps.apply env op names opts).exec w).2

section Operations

variable {env : Env} {info : CoreService.Info}

/-- What a package operation calls is not the policy setting. -/
theorem not_setsPolicy_of_allows {F : Footprint} (hF : "setSignaturePolicy" ∉ F.methods) {w : World}
    {a : Act} (h : F.Allows w a) : ¬SetsPolicy a := by
  cases a with
  | call module method args =>
    rintro ⟨-, rfl⟩
    exact hF h
  | unload name withDependents => exact id
  | load name => exact id
  | refresh => exact id
  | warn line => exact id

/-- **No operation sets the policy.** -/
theorem performs_operation (o : Operation) (w : World) :
    Performs env (fun _ a => ¬SetsPolicy a) w (o.after env info w) := by
  cases o with
  | loadModule name => exact (CoreService.does_loadModule (fun _ => id) w).1
  | unloadModule name withDependents => exact (CoreService.does_unloadModule (fun _ => id) w).1
  | reloadModule name => exact (CoreService.does_reloadModule (fun _ => id) (fun _ => id) w).1
  | applyPackageOperation op names opts =>
    refine (PackageOps.does_apply ?_ ?_ ?_ (fun _ _ => id) w).1
    · exact fun w a h => not_setsPolicy_of_allows (by decide) h
    · exact fun T w a h => not_setsPolicy_of_allows (by simp [PackageOps.installFootprint]) h
    · exact fun T w a h => not_setsPolicy_of_allows (by simp [PackageOps.removeFootprint]) h

end Operations

/-! ## 3. Boot -/

section Boot

variable {env : Env} {dependsOn : String → String → Prop} {p : String} {verbose : Bool}
  {w w' : World}

open PackageBootstrap

/-- Nothing here leaves early. -/
abbrev Never (_ : TypeError) : Prop := False

theorem does_note {C : World → Act → Prop} {line : String} (h : ∀ w, C w (.warn line)) :
    Does env C Never (note env verbose line) := by
  unfold note
  split
  · exact does_act h
  · exact does_pure _

/-- The call reached the module. -/
def Reply.delivered : Reply → Bool
  | .ok _ => true
  | .error _ => false

theorem exec_configure (method : String) (args : List String) (w : World) :
    (configure env method args).exec w = (.ok (Reply.delivered (env.reply w.calls)),
      w.after env (.call kPackageManager method (args.map .str))) := by
  unfold configure
  simp only [Prog.exec_bind, Prog.exec_get, exec_act]
  cases env.reply w.calls <;> rfl

/-- The act does not set the policy, and starts none but the given modules. -/
def LoadsOnly (names : List String) (a : Act) : Prop :=
  ¬SetsPolicy a ∧ ∀ name, a = .load name → name ∈ names

/-- The act neither sets the policy nor starts anything. -/
abbrev Quiet : Act → Prop := LoadsOnly []

theorem LoadsOnly.mono {names names' : List String} {a : Act} (h : LoadsOnly names a)
    (hsub : names ⊆ names') : LoadsOnly names' a := ⟨h.1, fun name hname => hsub (h.2 name hname)⟩

theorem Armed.loadsOnly {names : List String} (hneeded : StartsOnlyNeeded env dependsOn)
    (h : Armed p w) (hrun : Performs env (fun _ a => LoadsOnly names a) w w')
    (hstart : p = "warn" ∨ ∀ e ∈ eventsSince w w', ∀ name ∈ names, e.Attempts name →
      ¬StartsManager dependsOn e) : Armed p w' := by
  refine h.performs hneeded (hrun.mono fun _ _ hq => hq.1) (hstart.imp_right fun hno => ?_)
  intro e he
  obtain ⟨s, a, -, ha, -, rfl⟩ := hrun.mem_eventsSince he
  cases a with
  | load name => exact hno _ he name (ha.2 name rfl) rfl
  | call module method args => exact id
  | unload name withDependents => exact id
  | refresh => exact id
  | warn line => exact id

theorem Armed.quiet (hneeded : StartsOnlyNeeded env dependsOn) (h : Armed p w)
    (hrun : Performs env (fun _ a => Quiet a) w w') : Armed p w' :=
  h.loadsOnly hneeded hrun (Or.inr fun _ _ _ hname => absurd hname List.not_mem_nil)

theorem quiet_call {module method : String} {args : List Json}
    (h : method ≠ "setSignaturePolicy") : Quiet (.call module method args) :=
  ⟨fun hset => h hset.2, fun _ hload => by cases hload⟩

theorem quiet_warn (line : String) : Quiet (.warn line) := ⟨id, fun _ hload => by cases hload⟩

theorem does_configure {method : String} {args : List String} (h : method ≠ "setSignaturePolicy") :
    Does env (fun _ a => Quiet a) Never (configure env method args) := by
  intro w
  rw [exec_configure]
  refine ⟨.single (C := fun _ a => Quiet a) (quiet_call h), ?_⟩
  intro e he
  cases he

theorem does_setAll {settings : List (String × String)}
    (h : ∀ s ∈ settings, s.1 ≠ "setSignaturePolicy") :
    Does env (fun _ a => Quiet a) Never (setAll env settings) := by
  induction settings with
  | nil => exact does_pure _
  | cons s settings ih =>
    refine does_bind (does_configure (h s (by simp))) fun ok => ?_
    exact does_bind (ih fun x hx => h x (by simp [hx])) fun _ => does_pure _

theorem settings_not_policy (dirs : Dirs) :
    ∀ s ∈ dirs.settings, s.1 ≠ "setSignaturePolicy" := by
  intro s hs
  unfold Dirs.settings at hs
  split at hs
  · simp only [List.nil_append, List.mem_cons, List.not_mem_nil, or_false] at hs
    rcases hs with rfl | rfl | rfl <;> simp
  · simp only [List.cons_append, List.nil_append, List.mem_cons, List.not_mem_nil, or_false] at hs
    rcases hs with rfl | rfl | rfl | rfl | rfl <;> simp

theorem does_finishConfiguration {dirs : Dirs} {out : Outcome} :
    Does env (fun _ a => Quiet a) Never (finishConfiguration env verbose dirs p out) := by
  have hrest : ∀ line, Does env (fun _ a => Quiet a) Never (do
      let _ ← configure env "resetPendingAction" []
      note env verbose line
      pure out) := by
    intro line
    refine does_bind (does_configure (by simp)) fun _ => ?_
    exact does_bind (does_note fun _ => quiet_warn _) fun _ => does_pure _
  unfold finishConfiguration
  dsimp only
  by_cases hdirectories : (!out.directoriesSet) = true
  · rw [if_pos hdirectories]
    exact does_bind (does_act fun _ => quiet_warn _) fun _ => hrest _
  · rw [if_neg hdirectories]
    exact hrest _

/-- After the fail-closed unload package_manager is not loaded. -/
theorem not_loaded_failClosed (hstop : StopsDependents env dependsOn) (out : Outcome) :
    kPackageManager ∉ ((failClosed env p out).exec w).2.loaded := by
  intro hloaded
  obtain ⟨-, hne, -⟩ := (hstop _ _ _ _).mp hloaded
  exact hne rfl

/-- **A configuration that ends leaves the policy armed**, or the module unloaded. -/
theorem armed_configureManager (hneeded : StartsOnlyNeeded env dependsOn)
    (hstop : StopsDependents env dependsOn) (hp : p ≠ "") (dirs : Dirs) (out : Outcome) :
    Armed p ((configureManager env verbose dirs p out).exec w).2 := by
  have hempty : p.isEmpty = false := by simpa using hp
  unfold configureManager
  rw [Prog.exec_bind]
  cases hdirs : (setAll env dirs.settings).exec w with
  | mk r w₁ =>
    cases r with
    | error e => exact absurd ((does_setAll (settings_not_policy dirs)).of_error hdirs) id
    | ok delivered =>
      simp only [setPolicy, hempty, Bool.false_eq_true, if_false, Bool.not_false, Bool.true_and]
      rw [Prog.exec_bind_of_ok (exec_configure _ _ w₁)]
      cases hreply : env.reply w₁.calls with
      | error why =>
        intro hloaded
        exact absurd hloaded (not_loaded_failClosed hstop _)
      | ok j =>
        have harmed : Armed p
            (w₁.after env (.call kPackageManager "setSignaturePolicy" [.str p])) := by
          intro _
          rw [activePolicy_after, World.event, hreply]
          rfl
        exact harmed.quiet hneeded (does_finishConfiguration _).1

theorem does_loadBundled {ms : List (String × String)} :
    Does env (fun _ a => LoadsOnly (ms.map Prod.fst) a) Never (loadBundled env verbose ms) := by
  induction ms with
  | nil => exact does_pure _
  | cons m ms ih =>
    have hquiet : ∀ line, LoadsOnly ((m :: ms).map Prod.fst) (.warn line) := fun line =>
      (quiet_warn line).mono (List.nil_subset _)
    have hrest : Does env (fun _ a => LoadsOnly ((m :: ms).map Prod.fst) a) Never
        (loadBundled env verbose ms) :=
      ih.mono (fun _ _ h => h.mono (List.subset_cons_self _ _)) fun _ h => h
    have hload : ∀ w : World, LoadsOnly ((m :: ms).map Prod.fst) (.load m.1) := by
      intro _
      refine ⟨id, ?_⟩
      rintro name ⟨⟩
      simp
    unfold loadBundled
    refine does_bind (does_load hload) fun ok => ?_
    dsimp only
    by_cases hok : ok = true
    · rw [if_pos hok]
      exact does_bind (does_note fun _ => hquiet _) fun _ => does_bind hrest fun _ => does_pure _
    · rw [if_neg hok]
      exact does_bind (does_act fun _ => hquiet _) fun _ => does_bind hrest fun _ => does_pure _

/-- A bundled module that is not among those that came up failed to start, and what is done after
that starts the others only. -/
theorem loadBundled_missing {m : String × String} {ms : List (String × String)} {up : List String}
    (h : (loadBundled env verbose (m :: ms)).exec w = (.ok up, w')) (hm : m.1 ∉ up) :
    (env.load w.log.length w.loaded m.1).1 = false ∧
      Performs env (fun _ a => LoadsOnly (ms.map Prod.fst) a) (w.after env (.load m.1)) w' := by
  unfold loadBundled at h
  rw [Prog.exec_bind_of_ok (exec_logosCoreLoadModule m.1 w)] at h
  cases hok : (env.load w.log.length w.loaded m.1).1 with
  | true =>
    simp only [hok, if_true] at h
    obtain ⟨_, t, -, h⟩ := Prog.exec_bind_eq_ok.mp h
    obtain ⟨up', t', -, h⟩ := Prog.exec_bind_eq_ok.mp h
    cases h
    exact absurd (by simp) hm
  | false =>
    refine ⟨rfl, ?_⟩
    simp only [hok, Bool.false_eq_true, if_false] at h
    obtain ⟨_, t, hwarn, h⟩ := Prog.exec_bind_eq_ok.mp h
    obtain ⟨up', t', hrest, h⟩ := Prog.exec_bind_eq_ok.mp h
    cases h
    have hline : Performs env (fun _ a => LoadsOnly (ms.map Prod.fst) a)
        (w.after env (.load m.1)) t := by
      cases hwarn
      exact .single (C := fun _ a => LoadsOnly (ms.map Prod.fst) a)
        ((quiet_warn _).mono (List.nil_subset _))
    exact hline.trans (does_loadBundled.of_exec hrest)

/-- **Boot leaves the policy armed.** -/
theorem armed_boot (hneeded : StartsOnlyNeeded env dependsOn) (hstop : StopsDependents env dependsOn)
    (hclean : FailsCleanly env) (hp : p ≠ "") (dirs : Dirs) (hw : kPackageManager ∉ w.loaded)
    (hdownloader : p = "warn" ∨ ∀ e ∈ eventsSince w ((run env verbose dirs p).exec w).2,
      e.Attempts kPackageDownloader → ¬StartsManager dependsOn e) :
    Armed p ((run env verbose dirs p).exec w).2 := by
  cases hload : (loadBundled env verbose kBundled).exec w with
  | mk r w₁ =>
    cases r with
    | error e => exact absurd (does_loadBundled.of_error hload) id
    | ok up =>
      unfold run at hdownloader ⊢
      rw [Prog.exec_bind_of_ok hload] at hdownloader ⊢
      by_cases hup : kPackageManager ∈ up
      · rw [if_neg (by simpa using hup)]
        exact armed_configureManager hneeded hstop hp dirs _
      · rw [if_pos (by simpa using hup)] at hdownloader ⊢
        obtain ⟨hfailed, hrest⟩ := loadBundled_missing hload hup
        have hfirst : Armed p (w.after env (.load kPackageManager)) := fun hloaded =>
          absurd (hclean _ _ _ hfailed hloaded) hw
        refine hfirst.loadsOnly hneeded hrest (hdownloader.imp_right fun hno => ?_)
        intro e he name hname
        rw [show name = kPackageDownloader by simpa [kBundled] using hname]
        refine hno e ?_
        have hstart : Performs env (fun _ _ => True) w (w.after env (.load kPackageManager)) :=
          .single (C := fun _ _ => True) trivial
        rw [Prog.exec_pure, hstart.eventsSince_trans hrest]
        exact List.mem_append_right _ he

end Boot

/-! ## 4. Every run of the daemon -/

section Run

variable {env : Env} {info : CoreService.Info} {dependsOn : String → String → Prop}
  {p : String} {verbose : Bool} {w₀ w : World}

/-- The daemon's operations, one after the other, each of which meets the condition. -/
abbrev Operates (env : Env) (info : CoreService.Info) (C : World → Operation → Prop)
    (w₀ w : World) : Prop :=
  Reaches (fun w o w' => w' = o.after env info w) C w₀ w

/-- The condition of one operation: none of its starts is that of package_manager, or of a module
that needs it, while package_manager is stopped; or the policy is the module's default anyway. -/
def KeepsManager (env : Env) (info : CoreService.Info) (dependsOn : String → String → Prop)
    (p : String) (w : World) (o : Operation) : Prop :=
  p = "warn" ∨ ∀ e ∈ eventsSince w (o.after env info w), ¬StartsManager dependsOn e

/-- A load meets the condition when package_manager runs, or is not needed. -/
theorem keepsManager_loadModule {name : String} (h : kPackageManager ∈ w.loaded ∨
    (name ≠ kPackageManager ∧ ¬TransGen dependsOn name kPackageManager)) :
    KeepsManager env info dependsOn p w (.loadModule name) := by
  refine Or.inr ?_
  have hevents : eventsSince w ((Operation.loadModule name).after env info w) =
      [w.event env (.load name)] := by
    rw [Operation.after, CoreService.world_loadModule]
    exact eventsSince_eq rfl
  rw [hevents]
  intro e he hstarts
  rw [List.mem_singleton.mp he] at hstarts
  obtain ⟨hstopped, hneeds⟩ := hstarts
  rcases h with hloaded | ⟨hne, hdep⟩
  · exact hstopped hloaded
  · exact hneeds.elim hne hdep

/-- An unload always does. -/
theorem keepsManager_unloadModule {name : String} {withDependents : Bool} :
    KeepsManager env info dependsOn p w (.unloadModule name withDependents) := by
  refine Or.inr ?_
  have hevents : eventsSince w ((Operation.unloadModule name withDependents).after env info w) =
      [w.event env (.unload name withDependents)] := by
    rw [Operation.after, CoreService.world_unloadModule]
    exact eventsSince_eq rfl
  rw [hevents]
  intro e he
  rw [List.mem_singleton.mp he]
  exact id

/-- **The configured policy stays armed**, in every run of the daemon that starts no new instance
of package_manager after the one that boot configured. -/
theorem policy_stays_armed (hneeded : StartsOnlyNeeded env dependsOn)
    (hstop : StopsDependents env dependsOn) (hclean : FailsCleanly env) (hp : p ≠ "")
    (dirs : PackageBootstrap.Dirs) (hw : kPackageManager ∉ w₀.loaded)
    (hdownloader : p = "warn" ∨
      ∀ e ∈ eventsSince w₀ ((PackageBootstrap.run env verbose dirs p).exec w₀).2,
        e.Attempts kPackageDownloader → ¬StartsManager dependsOn e)
    (hrun : Operates env info (KeepsManager env info dependsOn p)
      ((PackageBootstrap.run env verbose dirs p).exec w₀).2 w)
    (hloaded : kPackageManager ∈ w.loaded) : activePolicy w = some p := by
  have harmed : Armed p w := by
    refine hrun.invariant (armed_boot hneeded hstop hclean hp dirs hw hdownloader) ?_
    intro t t' o ht ho hstep
    subst hstep
    exact ht.performs hneeded (performs_operation o t) ho
  exact harmed hloaded

/-- A runtime without dependencies, and modules that answer every call. -/
def readyEnv : Env := graphEnv [] (List.replicate 6 (.ok .null))

def readyInfo : CoreService.Info := ⟨fun _ => [], fun _ => [], fun _ _ => none⟩

def sessionDirs : PackageBootstrap.Dirs :=
  ⟨"", "", "/session/modules", "/session/plugins", "/session/keyring"⟩

/-- The daemon after a boot with `signature_policy: require`. -/
def booted : World :=
  ((PackageBootstrap.run readyEnv false sessionDirs "require").exec ⟨[], 0, []⟩).2

theorem readyEnv_failsCleanly : FailsCleanly readyEnv := by
  intro t loaded m hfailed
  cases hfailed

theorem not_depends_empty (x y : String) : ¬TransGen (edge []) x y := by
  intro h
  obtain ⟨z, hz, -⟩ := TransGen.head'_iff.mp h
  simp [edge] at hz

/-- The daemon after a module that does not need package_manager has been loaded and stopped. -/
def walletTried : World :=
  (Operation.unloadModule "wallet" true).after readyEnv readyInfo
    ((Operation.loadModule "wallet").after readyEnv readyInfo booted)

/-- The policy is still `require`. -/
theorem unrelated_load_keeps_policy : activePolicy walletTried = some "require" := by
  refine policy_stays_armed (graphEnv_startsOnlyNeeded [] _) (graphEnv_stopsDependents [] _)
    readyEnv_failsCleanly (by decide) sessionDirs (by decide) (Or.inr ?_)
    ((Reaches.tail .refl (keepsManager_loadModule (Or.inr ⟨by decide, not_depends_empty _ _⟩))
      rfl).tail keepsManager_unloadModule rfl)
    (by decide +kernel)
  intro e _ hattempts hstarts
  cases e with
  | load name ok before after =>
    obtain rfl := hattempts
    exact hstarts.2.elim (by decide) (not_depends_empty _ _)
  | _ => exact hattempts

/-- **A reload disarms the session.**  Boot has delivered `require`; package_manager is reloaded;
it is loaded, and runs with `warn`. -/
theorem reload_disarms : ∃ w,
    (∃ out, (PackageBootstrap.run readyEnv false sessionDirs "require").exec ⟨[], 0, []⟩ =
      (.ok out, booted) ∧ out.policyArmed = true) ∧
    Operates readyEnv readyInfo (fun _ _ => True) booted w ∧
    kPackageManager ∈ w.loaded ∧ activePolicy w = some "warn" :=
  ⟨(Operation.reloadModule kPackageManager).after readyEnv readyInfo booted, ⟨_, rfl, rfl⟩,
    .tail .refl trivial rfl, by decide +kernel, by decide +kernel⟩

end Run

end Logosctl.SignaturePolicy
