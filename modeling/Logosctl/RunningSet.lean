/-
# The running modules across a run of acts

Three assumptions about the module runtime are named here (`StopsDependents`,
`StartsRequested`, `StartsOnlyNeeded`), and each result says which of them it uses.  Under them
a run of acts whose footprint is known changes the set of running modules in a known way: what
it stops lies in the cascade of the modules it is told to stop, over the runtime's dependency
relation, and that cascade is what is gone after all of them have been stopped.

The last section has the assumptions met by a runtime over a finite dependency graph, so that
none of them is vacuous and concrete runs can be computed.
-/
import Logosctl.Runtime
import Logosctl.Library.Cascade

namespace Logosctl

open Library Relation

/-! ## 1. What is assumed of the runtime -/

section Assumptions

variable (env : Env) (dependsOn : String → String → Prop)

/-- Stopping a module with its dependents stops it and every loaded module that transitively
depends on it, and nothing else. -/
def StopsDependents : Prop :=
  ∀ t loaded m x, x ∈ env.unload t loaded m true ↔
    x ∈ loaded ∧ x ≠ m ∧ ¬ TransGen dependsOn x m

/-- A start that succeeds has started the module asked for; no start stops anything. -/
structure StartsRequested : Prop where
  keeps : ∀ t loaded m x, x ∈ loaded → x ∈ (env.load t loaded m).2
  starts : ∀ t loaded m, (env.load t loaded m).1 = true → m ∈ (env.load t loaded m).2

/-- A start brings up nothing but the module and what it transitively depends on, and no stop
brings anything up. -/
structure StartsOnlyNeeded : Prop where
  needed : ∀ t loaded m x, x ∈ (env.load t loaded m).2 →
    x ∈ loaded ∨ x = m ∨ TransGen dependsOn m x
  stop : ∀ t loaded m b x, x ∈ env.unload t loaded m b → x ∈ loaded

end Assumptions

/-! ## 2. Stopping -/

section Stopping

variable {env : Env} {dependsOn : String → String → Prop} {F : Footprint} {w w' : World}
  {x m : String}

/-- What is left after one stop is what the cascade of the module leaves. -/
theorem mem_loaded_after_unload (hstop : StopsDependents env dependsOn) :
    x ∈ (w.after env (.unload m true)).loaded ↔ x ∈ w.loaded ∧ x ∉ cascade dependsOn {m} := by
  rw [notMem_cascade_singleton_iff]
  exact hstop _ _ _ _

/-- The world once every module of `ms` has been told to stop. -/
def stopAll (env : Env) (ms : List String) (w : World) : World :=
  ms.foldl (fun w m => w.after env (.unload m true)) w

@[simp] theorem calls_stopAll (ms : List String) (w : World) :
    (stopAll env ms w).calls = w.calls := by
  induction ms generalizing w with
  | nil => rfl
  | cons m ms ih => exact (ih _).trans rfl

theorem performs_stopAll (ms : List String) (w : World) :
    Performs env (Footprint.Allows ⟨[], ms, []⟩) w (stopAll env ms w) := by
  induction ms generalizing w with
  | nil => exact .refl w
  | cons m ms ih =>
    have hfirst : Performs env (Footprint.Allows ⟨[], m :: ms, []⟩) w
        (w.after env (.unload m true)) := .single (by simp [Footprint.Allows])
    refine hfirst.trans ((ih (w.after env (.unload m true))).mono fun w a h => ?_)
    exact Footprint.allows_mono (F := ⟨[], ms, []⟩) (G := ⟨[], m :: ms, []⟩)
      (List.Subset.refl _) (List.subset_cons_self m ms) (List.Subset.refl _) h

/-- **Stopping a list takes down its cascade**, whatever the order. -/
theorem mem_loaded_stopAll (hstop : StopsDependents env dependsOn) (ms : List String) :
    x ∈ (stopAll env ms w).loaded ↔ x ∈ w.loaded ∧ x ∉ cascade dependsOn {y | y ∈ ms} := by
  induction ms generalizing w with
  | nil =>
    have hempty : x ∉ cascade dependsOn {y | y ∈ ([] : List String)} := by
      rintro ⟨y, hy, -⟩
      simp at hy
    exact (and_iff_left hempty).symm
  | cons m ms ih =>
    have hsplit : x ∉ cascade dependsOn {y | y ∈ m :: ms} ↔
        x ∉ cascade dependsOn {m} ∧ x ∉ cascade dependsOn {y | y ∈ ms} := by
      simp only [mem_cascade_iff, Set.mem_ofPred_eq, List.mem_cons, Set.mem_singleton_iff,
        exists_eq_or_imp, exists_eq_left, not_or]
    have hrest := ih (w := w.after env (.unload m true))
    rw [mem_loaded_after_unload hstop] at hrest
    rw [hsplit, ← and_assoc]
    exact hrest

/-- A run that starts nothing brings nothing up. -/
theorem Performs.loaded_of_mem (hstop : StopsDependents env dependsOn) (hl : F.starts = [])
    (h : Performs env F.Allows w w') (hx : x ∈ w'.loaded) : x ∈ w.loaded := by
  induction h with
  | refl => exact hx
  | @tail s s' a _ ha hstep ih =>
    subst hstep
    cases a with
    | unload m b =>
      obtain ⟨-, rfl⟩ := ha
      exact ih ((mem_loaded_after_unload hstop).mp hx).1
    | load m => simp [Footprint.Allows, hl] at ha
    | call module method args => exact ih hx
    | refresh => exact ih hx
    | warn line => exact ih hx

/-- A run that starts nothing takes down only the cascade of what it stops. -/
theorem Performs.mem_loaded_of_notMem_cascade (hstop : StopsDependents env dependsOn)
    (hl : F.starts = []) (h : Performs env F.Allows w w') (hx : x ∈ w.loaded)
    (hcascade : x ∉ cascade dependsOn {y | y ∈ F.stops}) : x ∈ w'.loaded := by
  induction h with
  | refl => exact hx
  | @tail s s' a _ ha hstep ih =>
    subst hstep
    cases a with
    | unload m b =>
      obtain ⟨hm, rfl⟩ := ha
      have hsub : ({m} : Set String) ⊆ {y | y ∈ F.stops} := Set.singleton_subset_iff.mpr hm
      refine (mem_loaded_after_unload hstop).mpr ⟨ih, ?_⟩
      intro hxm
      exact hcascade (cascade_mono hsub hxm)
    | load m => simp [Footprint.Allows, hl] at ha
    | call module method args => exact ih
    | refresh => exact ih
    | warn line => exact ih

end Stopping

/-! ## 3. What an event stopped, and whether a start came up -/

/-- The module was running before the event and is not after it. -/
def Event.Stops (x : String) : Event → Prop
  | .unload _ _ before after => x ∈ before ∧ x ∉ after
  | .load _ _ before after => x ∈ before ∧ x ∉ after
  | _ => False

/-- The event is a start, and the module was not running before it and is after it. -/
def Event.Starts (x : String) : Event → Prop
  | .load _ _ before after => x ∉ before ∧ x ∈ after
  | _ => False

/-- If the event is a start, it succeeded. -/
def Event.StartsOk : Event → Prop
  | .load _ ok _ _ => ok = true
  | _ => True

instance : DecidablePred Event.StartsOk := fun e =>
  match e with
  | .load _ ok _ _ => inferInstanceAs (Decidable (ok = true))
  | .call _ _ _ _ | .unload _ _ _ _ | .refresh | .warn _ => inferInstanceAs (Decidable True)

/-- The event is an attempt to start the module. -/
def Event.Attempts (x : String) : Event → Prop
  | .load name _ _ _ => name = x
  | _ => False

instance (x : String) : DecidablePred (Event.Attempts x) := fun e =>
  match e with
  | .load name _ _ _ => inferInstanceAs (Decidable (name = x))
  | .call _ _ _ _ | .unload _ _ _ _ | .refresh | .warn _ => inferInstanceAs (Decidable False)

theorem Event.Starts.attempts {x : String} {e : Event} (h : e.Starts x) : ∃ m, e.Attempts m := by
  cases e with
  | load m ok before after => exact ⟨m, rfl⟩
  | _ => exact h.elim

section Events

variable {env : Env} {dependsOn : String → String → Prop} {C : World → Act → Prop}
  {F : Footprint} {w w' : World} {x : String} {a : Act}

/-- An act's event stops a module exactly when the act takes it out of the running set. -/
theorem World.event_stops_iff :
    (w.event env a).Stops x ↔ x ∈ w.loaded ∧ x ∉ (w.after env a).loaded := by
  cases a with
  | unload m b => exact Iff.rfl
  | load m => exact Iff.rfl
  | call module method args =>
    refine ⟨fun h => h.elim, ?_⟩
    rintro ⟨hx, hnx⟩
    exact hnx hx
  | refresh =>
    refine ⟨fun h => h.elim, ?_⟩
    rintro ⟨hx, hnx⟩
    exact hnx hx
  | warn line =>
    refine ⟨fun h => h.elim, ?_⟩
    rintro ⟨hx, hnx⟩
    exact hnx hx

theorem World.mem_loaded_of_event_starts (h : (w.event env a).Starts x) :
    x ∈ (w.after env a).loaded := by
  cases a with
  | load m => exact h.2
  | _ => exact h.elim

/-- What a run of acts did is the events of its acts, each done in a world of the run. -/
theorem Performs.mem_eventsSince (h : Performs env C w w') {e : Event}
    (he : e ∈ eventsSince w w') :
    ∃ s a, Performs env C w s ∧ C s a ∧ Performs env C (s.after env a) w' ∧ e = s.event env a := by
  induction h with
  | refl => simp [eventsSince] at he
  | @tail s s' a hs ha hstep ih =>
    subst hstep
    obtain ⟨es, hes⟩ := Performs.log_append hs
    have hlog : (s.after env a).log = w.log ++ (es ++ [s.event env a]) := by
      rw [World.log_after, hes, List.append_assoc]
    rw [eventsSince_eq hlog] at he
    rw [eventsSince_eq hes] at ih
    rcases List.mem_append.mp he with he | he
    · obtain ⟨t, b, ht, hb, hrest, rfl⟩ := ih he
      exact ⟨t, b, ht, hb, hrest.act ha, rfl⟩
    · rw [List.mem_singleton] at he
      exact ⟨s, a, hs, ha, .refl _, he⟩

/-- The events of the two halves of a run are events of the run. -/
theorem Performs.eventsSince_trans {D : World → Act → Prop} {w₁ : World}
    (h₁ : Performs env C w w₁) (h₂ : Performs env D w₁ w') :
    eventsSince w w' = eventsSince w w₁ ++ eventsSince w₁ w' := by
  obtain ⟨es₁, h₁⟩ := h₁.log_append
  obtain ⟨es₂, h₂⟩ := h₂.log_append
  rw [eventsSince_eq h₁, eventsSince_eq h₂]
  exact eventsSince_eq (by rw [h₂, h₁, List.append_assoc])

/-- A module that was running before a run and is not after it was stopped by an event of it. -/
theorem Performs.exists_stops (h : Performs env C w w') (hx : x ∈ w.loaded)
    (hx' : x ∉ w'.loaded) : ∃ e ∈ eventsSince w w', e.Stops x := by
  induction h with
  | refl => exact absurd hx hx'
  | @tail s s' a hs ha hstep ih =>
    subst hstep
    rw [Performs.eventsSince_trans hs (.single ha)]
    have hlast : eventsSince s (s.after env a) = [s.event env a] := eventsSince_eq rfl
    by_cases hxs : x ∈ s.loaded
    · refine ⟨s.event env a, ?_, World.event_stops_iff.mpr ⟨hxs, hx'⟩⟩
      rw [hlast]
      simp
    · obtain ⟨e, he, hstops⟩ := ih hxs
      exact ⟨e, List.mem_append_left _ he, hstops⟩

/-- Without starts in the footprint, no start is attempted. -/
theorem Performs.not_attempts (hl : F.starts = []) (h : Performs env F.Allows w w') {e : Event}
    (he : e ∈ eventsSince w w') : ¬ e.Attempts x := by
  obtain ⟨s, a, -, ha, -, rfl⟩ := h.mem_eventsSince he
  cases a with
  | load m => simp [Footprint.Allows, hl] at ha
  | call module method args => exact id
  | unload m b => exact id
  | refresh => exact id
  | warn line => exact id

/-- **A run that starts nothing stops only what was running and lies in the cascade.** -/
theorem Performs.stops_mem_cascade (hstop : StopsDependents env dependsOn) (hl : F.starts = [])
    (h : Performs env F.Allows w w') {e : Event} (he : e ∈ eventsSince w w') (hx : e.Stops x) :
    x ∈ w.loaded ∧ x ∈ cascade dependsOn {y | y ∈ F.stops} := by
  obtain ⟨s, a, hs, ha, -, rfl⟩ := h.mem_eventsSince he
  obtain ⟨hxs, hxs'⟩ := World.event_stops_iff.mp hx
  refine ⟨hs.loaded_of_mem hstop hl hxs, ?_⟩
  by_contra hcascade
  exact hxs' (Performs.mem_loaded_of_notMem_cascade hstop hl (.single ha) hxs hcascade)

end Events

/-! ## 4. Starting -/

section Starting

variable {env : Env} {F : Footprint} {w w' : World} {x : String}

/-- A run that stops nothing leaves everything running. -/
theorem Performs.mem_loaded (hstart : StartsRequested env) (hs : F.stops = [])
    (h : Performs env F.Allows w w') (hx : x ∈ w.loaded) : x ∈ w'.loaded := by
  induction h with
  | refl => exact hx
  | @tail s s' a _ ha hstep ih =>
    subst hstep
    cases a with
    | unload m b => simp [Footprint.Allows, hs] at ha
    | load m => exact hstart.keeps _ _ _ _ ih
    | call module method args => exact ih
    | refresh => exact ih
    | warn line => exact ih

/-- Nor does any event of it stop anything. -/
theorem Performs.not_stops (hstart : StartsRequested env) (hs : F.stops = [])
    (h : Performs env F.Allows w w') {e : Event} (he : e ∈ eventsSince w w') : ¬ e.Stops x := by
  obtain ⟨s, a, -, ha, -, rfl⟩ := h.mem_eventsSince he
  rw [World.event_stops_iff]
  rintro ⟨hx, hx'⟩
  exact hx' (Performs.mem_loaded hstart hs (.single ha) hx)

/-- What is down before a run that stops nothing, and up after it, was started by an event of
it. -/
theorem Performs.exists_starts (hs : F.stops = []) (h : Performs env F.Allows w w')
    (hx : x ∉ w.loaded) (hx' : x ∈ w'.loaded) : ∃ e ∈ eventsSince w w', e.Starts x := by
  induction h with
  | refl => exact absurd hx' hx
  | @tail s s' a h ha hstep ih =>
    subst hstep
    rw [Performs.eventsSince_trans h (.single ha)]
    have hlast : eventsSince s (s.after env a) = [s.event env a] := eventsSince_eq rfl
    by_cases hxs : x ∈ s.loaded
    · obtain ⟨e, he, hstarts⟩ := ih hxs
      exact ⟨e, List.mem_append_left _ he, hstarts⟩
    · cases a with
      | unload m b => simp [Footprint.Allows, hs] at ha
      | load m =>
        refine ⟨s.event env (.load m), ?_, hxs, hx'⟩
        rw [hlast]
        simp
      | call module method args => exact absurd hx' hxs
      | refresh => exact absurd hx' hxs
      | warn line => exact absurd hx' hxs

/-- The world once every module of `ms` has been told to start. -/
def startAll (env : Env) (ms : List String) (w : World) : World :=
  ms.foldl (fun w m => w.after env (.load m)) w

theorem performs_startAll (env : Env) (ms : List String) (w : World) :
    Performs env (Footprint.Allows ⟨[], [], ms⟩) w (startAll env ms w) := by
  induction ms generalizing w with
  | nil => exact .refl w
  | cons m ms ih =>
    have hfirst : Performs env (Footprint.Allows ⟨[], [], m :: ms⟩) w (w.after env (.load m)) :=
      .single (by simp [Footprint.Allows])
    refine hfirst.trans ((ih (w.after env (.load m))).mono fun w a h => ?_)
    exact Footprint.allows_mono (F := ⟨[], [], ms⟩) (G := ⟨[], [], m :: ms⟩) (List.Subset.refl _)
      (List.Subset.refl _) (List.subset_cons_self m ms) h

/-- A rescan and the starts after it, as an install ends. -/
theorem performs_restart (env : Env) (ms : List String) (w : World) :
    Performs env (Footprint.Allows ⟨[], [], ms⟩) w (startAll env ms (w.after env .refresh)) := by
  have hrefresh : Performs env (Footprint.Allows ⟨[], [], ms⟩) w (w.after env .refresh) :=
    .single trivial
  exact hrefresh.trans (performs_startAll env ms _)

/-- **Starting a list brings all of it up**, if every start succeeds. -/
theorem mem_loaded_startAll (hstart : StartsRequested env) {ms : List String}
    (hok : ∀ e ∈ eventsSince w (startAll env ms w), e.StartsOk) :
    ∀ m ∈ ms, m ∈ (startAll env ms w).loaded := by
  induction ms generalizing w with
  | nil => simp
  | cons m ms ih =>
    have hrest := performs_startAll env ms (w.after env (.load m))
    have hfirst : Performs env (Footprint.Allows ⟨[], [], [m]⟩) w (w.after env (.load m)) :=
      .single (by simp [Footprint.Allows])
    have hevents := hfirst.eventsSince_trans hrest
    have hfirstEvent : eventsSince w (w.after env (.load m)) = [w.event env (.load m)] :=
      eventsSince_eq rfl
    rw [hfirstEvent] at hevents
    intro x hx
    rcases List.mem_cons.mp hx with rfl | hx
    · refine hrest.mem_loaded hstart rfl (hstart.starts _ _ _ ?_)
      refine hok (w.event env (.load x)) ?_
      rw [show startAll env (x :: ms) w = startAll env ms (w.after env (.load x)) from rfl,
        hevents]
      simp
    · refine ih ?_ x hx
      intro e he
      refine hok e ?_
      rw [show startAll env (m :: ms) w = startAll env ms (w.after env (.load m)) from rfl,
        hevents]
      exact List.mem_append_right _ he

end Starting

/-! ## 5. A runtime over a finite dependency graph -/

section Graph

variable (edges : List (String × String)) (replies : List Reply)

/-- The runtime whose dependency relation has the given edges, with the replies the modules
give, in order; a call beyond the last reply fails. -/
def graphEnv : Env where
  reply n := replies.getD n (.error "module not responding")
  unload _ loaded m withDependents :=
    loaded.filter fun x => x ≠ m && !(withDependents && reach edges x m)
  load _ loaded m :=
    (true, loaded ++ (m :: (edges.map Prod.snd).filter (reach edges m)).filter (· ∉ loaded))
  dump _ := ""

theorem graphEnv_stopsDependents :
    StopsDependents (graphEnv edges replies) (edge edges) := by
  intro t loaded m x
  simp [graphEnv, ← reach_iff]

theorem graphEnv_startsRequested : StartsRequested (graphEnv edges replies) where
  keeps t loaded m x hx := List.mem_append_left _ hx
  starts t loaded m _ := by
    by_cases hm : m ∈ loaded
    · exact List.mem_append_left _ hm
    · exact List.mem_append_right _ (by simp [hm])

theorem graphEnv_startsOnlyNeeded :
    StartsOnlyNeeded (graphEnv edges replies) (edge edges) where
  needed t loaded m x hx := by
    rcases List.mem_append.mp hx with hx | hx
    · exact Or.inl hx
    · have hx' := (List.mem_filter.mp hx).1
      rcases List.mem_cons.mp hx' with rfl | hx'
      · exact Or.inr (Or.inl rfl)
      · exact Or.inr (Or.inr (reach_iff.mp (List.mem_filter.mp hx').2))
  stop t loaded m b x hx := (List.mem_filter.mp hx).1

end Graph

end Logosctl
