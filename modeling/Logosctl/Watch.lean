/-
# Watching a module's events

A `watch` session asks the daemon to forward a module's events and then listens.  What the daemon
registers is a forwarder, which it never takes back; all forwarders publish on one channel,
`module_event`, and a session keeps of that channel whatever names its module.

So a session hears the forwarders of all the others, past ones included.  `exactly_once_iff` says
what follows: the runs in which every session hears what it asked for, once each and nothing
else, are those in which no event of a watched module ever found a second forwarder, or a
forwarder that some live session of the module had not asked for.
-/
import Logosctl.Json
import Logosctl.Library.Transition
import Mathlib.Logic.Function.Basic
import Mathlib.Data.List.Basic

namespace Logosctl.Watch

open Library

/-! ## 1. The daemon's side and the client's side -/

/-- A subscription of the daemon to a module; an empty event name means every event. -/
structure Forwarder where
  module : String
  eventName : String
  deriving DecidableEq, Repr

/-- The subscription is to events of this name. -/
def asksFor (eventName event : String) : Bool := eventName.isEmpty || eventName == event

/-- The forwarder's callback is invoked for this event. -/
def Forwarder.hears (f : Forwarder) (module event : String) : Bool :=
  f.module == module && asksFor f.eventName event

/-- What a forwarder publishes as `module_event`. -/
def forwardData (module event : String) (data : List Json) : Json :=
  .arr (.str module :: .str event :: data)

/-- The names the client gives the arguments of an event. -/
def argsFrom : Nat → List Json → List (String × Json)
  | _, [] => []
  | i, d :: ds => ("arg" ++ toString i, d) :: argsFrom (i + 1) ds

/-- The arguments of an event under their names, in the order of the names: `arg10` stands before
`arg2`. -/
def namedArgs (data : List Json) : List (String × Json) :=
  (argsFrom 0 data).mergeSort fun a b => decide (a.1 ≤ b.1)

/-- The event object handed to the watcher, but for its timestamp. -/
def eventObj (module event : Json) (data : List Json) : Json :=
  .obj [("data", if data.isEmpty then .null else .obj (namedArgs data)), ("event", event),
    ("module", module)]

/-- The client's callback on `module_event`: it looks at the module and at nothing else. -/
def onModuleEvent (module : String) : Json → Option Json
  | .arr (.str m :: event :: data) =>
    if m = module then some (eventObj (.str m) event data) else none
  | _ => none

/-! ## 2. Sessions, and what happens to them -/

/-- A session has asked the daemon, is listening, or is over. -/
inductive Phase
  | asked
  | live
  | ended
  deriving DecidableEq, Repr

structure Session where
  module : String
  eventName : String
  phase : Phase
  deriving DecidableEq, Repr

/-- The daemon's forwarders and the sessions, with what each session has been handed, every event
under the number of its emission.  `owed` is what it should have been handed: the measure of the
result below, which no step reads. -/
structure State where
  loaded : List String
  forwarders : List Forwarder
  sessions : Nat → Option Session
  emitted : Nat
  inbox : Nat → List (Nat × Json)
  owed : Nat → List (Nat × Json)

def init : State := ⟨[], [], fun _ => none, 0, fun _ => [], fun _ => []⟩

inductive Action
  | load (module : String)
  | unload (module : String)
  /-- `accepted` is what `onEventWhenAvailable` answers. -/
  | watch (k : Nat) (module eventName : String) (accepted : Bool)
  /-- `found` is what `requestObject` answers. -/
  | subscribe (k : Nat) (found : Bool)
  | finish (k : Nat)
  | emit (module event : String) (data : List Json)

def State.setSession (s : State) (k : Nat) (σ : Session) : State :=
  { s with sessions := Function.update s.sessions k (some σ) }

/-- `CoreServiceImpl::watchModuleEvents`: whether it succeeds, and the forwarders after it. -/
def watchModuleEvents (s : State) (module eventName : String) (accepted : Bool) :
    Bool × List Forwarder :=
  if s.loaded.contains module && accepted then (true, s.forwarders ++ [⟨module, eventName⟩])
  else (false, s.forwarders)

/-- What reaches session `k` of one event: a copy from each forwarder that hears it, as far as
the session's own callback lets it through. -/
def State.copies (s : State) (module event : String) (data : List Json) (k : Nat) : List Json :=
  match s.sessions k with
  | some ⟨m, _, .live⟩ =>
    ((s.forwarders.filter (·.hears module event)).map fun f =>
      forwardData f.module event data).filterMap (onModuleEvent m)
  | _ => []

/-- What session `k` asked to hear of one event. -/
def State.wanted (s : State) (module event : String) (data : List Json) (k : Nat) : List Json :=
  match s.sessions k with
  | some ⟨m, eventName, .live⟩ =>
    if m = module ∧ asksFor eventName event then [eventObj (.str module) (.str event) data] else []
  | _ => []

def next (s : State) : Action → Option State
  | .load module => some { s with loaded := module :: s.loaded }
  | .unload module => some { s with loaded := s.loaded.filter (· ≠ module) }
  | .watch k module eventName accepted =>
    match s.sessions k with
    | some _ => none
    | none =>
      let (subscribed, forwarders) := watchModuleEvents s module eventName accepted
      some ({ s with forwarders }.setSession k
        ⟨module, eventName, if subscribed then .asked else .ended⟩)
  | .subscribe k found =>
    match s.sessions k with
    | some ⟨module, eventName, .asked⟩ =>
      some (s.setSession k ⟨module, eventName, if found then .live else .ended⟩)
    | _ => none
  | .finish k =>
    match s.sessions k with
    | some ⟨module, eventName, _⟩ => some (s.setSession k ⟨module, eventName, .ended⟩)
    | none => none
  | .emit module event data => some { s with
      emitted := s.emitted + 1
      inbox := fun k => s.inbox k ++ (s.copies module event data k).map fun e => (s.emitted, e)
      owed := fun k => s.owed k ++ (s.wanted module event data k).map fun e => (s.emitted, e) }

abbrev Run (C : State → Action → Prop) : State → Prop :=
  Reaches (fun s a s' => next s a = some s') C init

/-- Every session has been handed what it asked for: each event once, and no other. -/
def ExactlyOnce (s : State) : Prop := ∀ k, s.inbox k = s.owed k

/-- Session `k` listens to `module`. -/
def State.ListensTo (s : State) (k : Nat) (module eventName : String) : Prop :=
  s.sessions k = some ⟨module, eventName, .live⟩

/-- A step that disturbs no session: when a module emits an event while sessions listen to it,
the event finds at most one forwarder, and if it finds one then all those sessions asked for
it. -/
def Undisturbed (s : State) : Action → Prop
  | .emit module event _ => ∀ k eventName, s.ListensTo k module eventName →
      s.forwarders.countP (·.hears module event) ≤ 1 ∧
        (0 < s.forwarders.countP (·.hears module event) → asksFor eventName event = true)
  | _ => True

section Watch

variable {s s' : State} {a : Action} {k : Nat} {module event eventName m : String}
  {data : List Json}

/-! ## 3. What one event brings to one session -/

/-- The forwarders that hear an event all publish the same. -/
theorem map_forwardData :
    (s.forwarders.filter (·.hears module event)).map (fun f => forwardData f.module event data) =
      List.replicate (s.forwarders.countP (·.hears module event))
        (forwardData module event data) := by
  refine List.eq_replicate_iff.mpr ⟨?_, ?_⟩
  · rw [List.length_map, List.countP_eq_length_filter]
  · intro j hj
    obtain ⟨f, hf, rfl⟩ := List.mem_map.mp hj
    have hhears := (List.mem_filter.mp hf).2
    simp only [Forwarder.hears, Bool.and_eq_true, beq_iff_eq] at hhears
    rw [hhears.1]

theorem onModuleEvent_forwardData :
    onModuleEvent m (forwardData module event data) =
      if module = m then some (eventObj (.str module) (.str event) data) else none := rfl

/-- A listening session gets a copy from every forwarder that hears an event of its module. -/
theorem copies_of_listens (h : s.ListensTo k m eventName) :
    s.copies module event data k =
      if module = m then List.replicate (s.forwarders.countP (·.hears module event))
        (eventObj (.str module) (.str event) data) else [] := by
  unfold State.copies
  rw [h]
  dsimp only
  rw [map_forwardData]
  by_cases hm : module = m
  · rw [if_pos hm]
    exact List.filterMap_replicate_of_some (onModuleEvent_forwardData.trans (if_pos hm))
  · rw [if_neg hm]
    exact List.filterMap_replicate_of_none (onModuleEvent_forwardData.trans (if_neg hm))

theorem wanted_of_listens (h : s.ListensTo k m eventName) :
    s.wanted module event data k =
      if m = module ∧ asksFor eventName event then [eventObj (.str module) (.str event) data]
      else [] := by
  unfold State.wanted
  rw [h]

/-- A session that does not listen gets nothing and is owed nothing. -/
theorem copies_eq_wanted_of_not_listens (h : ∀ m eventName, ¬ s.ListensTo k m eventName) :
    s.copies module event data k = s.wanted module event data k := by
  unfold State.copies State.wanted
  split
  · next hk => exact absurd hk (h _ _)
  · rfl

/-- A session gets what it is owed of an event of its module when as many forwarders hear it as
it asked for: one or none. -/
theorem copies_eq_wanted_iff (h : s.ListensTo k module eventName) :
    s.copies module event data k = s.wanted module event data k ↔
      s.forwarders.countP (·.hears module event) = if asksFor eventName event then 1 else 0 := by
  rw [copies_of_listens h, wanted_of_listens h, if_pos rfl]
  simp only [true_and]
  cases asksFor eventName event with
  | true =>
    constructor
    · intro heq
      simpa using congrArg List.length heq
    · intro hone
      rw [hone]
      rfl
  | false => simp

theorem copies_eq_wanted_of_ne (h : s.ListensTo k m eventName) (hne : m ≠ module) :
    s.copies module event data k = s.wanted module event data k := by
  rw [copies_of_listens h, wanted_of_listens h, if_neg (Ne.symm hne), if_neg (fun h => hne h.1)]

/-! ## 4. What every run keeps -/

/-- A session that has not ended has its forwarder, and what was handed out and what was owed
bears the number of an emission that has happened. -/
structure Registered (s : State) : Prop where
  forwarder : ∀ k module eventName phase, s.sessions k = some ⟨module, eventName, phase⟩ →
    phase ≠ .ended → ⟨module, eventName⟩ ∈ s.forwarders
  inbox : ∀ k, ∀ d ∈ s.inbox k, d.1 < s.emitted
  owed : ∀ k, ∀ d ∈ s.owed k, d.1 < s.emitted

theorem registered_init : Registered init := ⟨nofun, nofun, nofun⟩

/-- A session set to what its forwarder is there for keeps the rest. -/
theorem Registered.setSession {σ : Session} (hs : Registered s)
    (hσ : σ.phase ≠ .ended → ⟨σ.module, σ.eventName⟩ ∈ s.forwarders) :
    Registered (s.setSession k σ) := by
  refine ⟨?_, hs.inbox, hs.owed⟩
  intro k' module eventName phase hk' hphase
  by_cases hkk : k' = k
  · subst hkk
    have hσ' : some σ = some ⟨module, eventName, phase⟩ := by
      rw [← hk']
      exact (Function.update_self k' (some σ) s.sessions).symm
    obtain rfl := Option.some.inj hσ'
    exact hσ hphase
  · have hold : s.sessions k' = some ⟨module, eventName, phase⟩ := by
      rw [← hk']
      exact (Function.update_of_ne hkk (some σ) s.sessions).symm
    exact hs.forwarder k' module eventName phase hold hphase

/-- The number of an emission is past, once it has happened. -/
theorem lt_of_mem_append {old : List (Nat × Json)} {copies : List Json} {n : Nat}
    (hold : ∀ d ∈ old, d.1 < n) : ∀ d ∈ old ++ copies.map (fun e => (n, e)), d.1 < n + 1 := by
  intro d hd
  rcases List.mem_append.mp hd with hd | hd
  · exact Nat.lt_succ_of_lt (hold d hd)
  · obtain ⟨e, -, rfl⟩ := List.mem_map.mp hd
    exact Nat.lt_succ_self n

theorem registered_step (hs : Registered s) (h : next s a = some s') : Registered s' := by
  cases a with
  | load module =>
    cases h
    exact ⟨hs.forwarder, hs.inbox, hs.owed⟩
  | unload module =>
    cases h
    exact ⟨hs.forwarder, hs.inbox, hs.owed⟩
  | watch k module eventName accepted =>
    simp only [next] at h
    split at h
    · cases h
    · cases h
      have hmore : Registered
          { s with forwarders := (watchModuleEvents s module eventName accepted).2 } := by
        refine ⟨?_, hs.inbox, hs.owed⟩
        intro k' m e phase hk' hphase
        have hmem := hs.forwarder k' m e phase hk' hphase
        unfold watchModuleEvents
        split
        · exact List.mem_append_left _ hmem
        · exact hmem
      refine hmore.setSession ?_
      unfold watchModuleEvents
      split
      · intro _
        exact List.mem_append_right _ (List.mem_singleton_self _)
      · intro hne
        exact absurd rfl hne
  | subscribe k found =>
    simp only [next] at h
    split at h
    · next module eventName hk =>
      cases h
      exact hs.setSession fun _ => hs.forwarder k module eventName .asked hk nofun
    · cases h
  | finish k =>
    simp only [next] at h
    split at h
    · cases h
      exact hs.setSession fun hne => absurd rfl hne
    · cases h
  | emit module event data =>
    cases h
    exact ⟨hs.forwarder, fun k => lt_of_mem_append (hs.inbox k),
      fun k => lt_of_mem_append (hs.owed k)⟩

/-! ## 5. When every session hears what it asked for -/

/-- Lists that agree as a whole agree before and from an emission on. -/
theorem append_copies_inj {old old' : List (Nat × Json)} {copies copies' : List Json} {n : Nat}
    (hold : ∀ d ∈ old, d.1 < n) (hold' : ∀ d ∈ old', d.1 < n) :
    old ++ copies.map (fun e => (n, e)) = old' ++ copies'.map (fun e => (n, e)) ↔
      old = old' ∧ copies = copies' := by
  have hpast : ∀ l : List (Nat × Json), (∀ d ∈ l, d.1 < n) → ∀ c : List Json,
      (l ++ c.map fun e => (n, e)).filter (fun d => d.1 < n) = l := by
    intro l hl c
    rw [List.filter_append, List.filter_eq_self.mpr fun d hd => by simpa using hl d hd,
      List.filter_eq_nil_iff.mpr, List.append_nil]
    intro d hd
    obtain ⟨e, -, rfl⟩ := List.mem_map.mp hd
    simp
  constructor
  · intro heq
    have hfirst : old = old' := by
      rw [← hpast old hold copies, heq, hpast old' hold' copies']
    subst hfirst
    have hrest := congrArg (List.map Prod.snd) (List.append_cancel_left heq)
    simp only [List.map_map, Function.comp_def, List.map_id'] at hrest
    exact ⟨rfl, hrest⟩
  · rintro ⟨rfl, rfl⟩
    rfl

/-- One event leaves every session with what it is owed when it disturbs none of them. -/
theorem copies_eq_wanted (hs : Registered s) :
    (∀ k, s.copies module event data k = s.wanted module event data k) ↔
      Undisturbed s (.emit module event data) := by
  constructor
  · intro heq k eventName hk
    have hcount := (copies_eq_wanted_iff hk).mp (heq k)
    rw [hcount]
    cases asksFor eventName event <;> simp
  · intro hc k
    by_cases hlistens : ∃ m eventName, s.ListensTo k m eventName
    · obtain ⟨m, eventName, hk⟩ := hlistens
      by_cases hm : m = module
      · subst hm
        refine (copies_eq_wanted_iff hk).mpr ?_
        obtain ⟨hone, hasks⟩ := hc k eventName hk
        cases hask : asksFor eventName event with
        | true =>
          have hmem := hs.forwarder k m eventName .live hk nofun
          have hpos : 0 < s.forwarders.countP (·.hears m event) :=
            List.countP_pos_iff.mpr ⟨_, hmem, by simp [Forwarder.hears, hask]⟩
          rw [if_pos rfl]
          omega
        | false =>
          rw [if_neg (by simp)]
          by_contra hne
          have hyes := hasks (Nat.pos_of_ne_zero hne)
          rw [hask] at hyes
          cases hyes
      · exact copies_eq_wanted_of_ne hk hm
    · exact copies_eq_wanted_of_not_listens fun m eventName hk => hlistens ⟨m, eventName, hk⟩

/-- What a step hands out and owes, and that only an emission hands out anything. -/
theorem exactlyOnce_step (hs : Registered s) (h : next s a = some s') :
    ExactlyOnce s' ↔ ExactlyOnce s ∧ Undisturbed s a := by
  cases a with
  | emit module event data =>
    cases h
    rw [← @copies_eq_wanted s module event data hs]
    unfold ExactlyOnce
    rw [← forall_and]
    exact forall_congr' fun k => append_copies_inj (hs.inbox k) (hs.owed k)
  | load module =>
    cases h
    exact (and_iff_left trivial).symm
  | unload module =>
    cases h
    exact (and_iff_left trivial).symm
  | watch k module eventName accepted =>
    simp only [next] at h
    split at h
    · cases h
    · cases h
      exact (and_iff_left trivial).symm
  | subscribe k found =>
    simp only [next] at h
    split at h
    · cases h
      exact (and_iff_left trivial).symm
    · cases h
  | finish k =>
    simp only [next] at h
    split at h
    · cases h
      exact (and_iff_left trivial).symm
    · cases h

/-- Every run registers its sessions. -/
theorem registered_of_run {C : State → Action → Prop} (h : Run C s) : Registered s :=
  h.invariant registered_init fun hs _ hnext => registered_step hs hnext

/-- **When every watch session hears what it asked for**, each event once and no other: the runs
that end so are the runs no step of which disturbs a session. -/
theorem exactly_once_iff (s : State) :
    (Run (fun _ _ => True) s ∧ ExactlyOnce s) ↔ Run Undisturbed s := by
  constructor
  · rintro ⟨h, hexact⟩
    induction h with
    | refl => exact .refl
    | @tail s s' a hrun _ hnext ih =>
      obtain ⟨hbefore, hc⟩ := (exactlyOnce_step (registered_of_run hrun) hnext).mp hexact
      exact (ih hbefore).tail hc hnext
  · intro h
    refine ⟨h.mono fun _ _ _ => trivial, ?_⟩
    induction h with
    | refl => exact fun _ => rfl
    | @tail s s' a hrun hc hnext ih =>
      exact (exactlyOnce_step (registered_of_run hrun) hnext).mpr ⟨ih, hc⟩

end Watch

/-- **A session hears an event twice.**  A first session watches one event of a module and ends;
its forwarder stays, so that a second session, which watches every event, gets two copies. -/
theorem second_session_hears_twice :
    ∃ s, Run (fun _ _ => True) s ∧ ¬ ExactlyOnce s ∧ s.ListensTo 1 "chat" "" ∧
      s.owed 1 = [(0, eventObj (.str "chat") (.str "joined") [.str "ada"])] ∧
      s.inbox 1 = [(0, eventObj (.str "chat") (.str "joined") [.str "ada"]),
        (0, eventObj (.str "chat") (.str "joined") [.str "ada"])] := by
  obtain ⟨s, hs⟩ : ∃ s, runActions next init [.load "chat", .watch 0 "chat" "joined" true,
      .subscribe 0 true, .finish 0, .watch 1 "chat" "" true, .subscribe 1 true,
      .emit "chat" "joined" [.str "ada"]] = some s := ⟨_, rfl⟩
  have hrun := runActions_reaches _ .refl hs
  cases hs
  refine ⟨_, hrun, ?_, rfl, rfl, rfl⟩
  intro hexact
  exact absurd (congrArg List.length (hexact 1)) (by decide)

end Logosctl.Watch
