/-
# The daemon's surroundings: the module runtime and calls into modules

Everything the daemon's orchestration code does to the world goes through four primitives: call
a method of a module, ask the runtime to stop a module, ask it to start one, and ask it to
rescan its directories.  `World` is what those primitives act on: the runtime's loaded set and
the log of what was done, in order.  What the modules answer and what the runtime does belongs
to code outside this repository, so it is a parameter, `Env`, of everything below: a sequence of
replies, one for each call made, and the runtime's behaviour at each moment.

What is assumed of the runtime, and what follows for the running modules, is in `RunningSet`.
-/
import Logosctl.Library.Program
import Logosctl.Library.Transition
import Logosctl.Json

namespace Logosctl

open Library

/-! ## 1. The world and what is done to it -/

/-- What a module call brings back: a value, or the transport's reason for having none. -/
abbrev Reply := Except String Json

/-- One thing the daemon can do. -/
inductive Act
  | call (module method : String) (args : List Json)
  | unload (name : String) (withDependents : Bool)
  | load (name : String)
  | refresh
  | warn (line : String)

/-- One thing the daemon did, with what came of it. -/
inductive Event
  | call (module method : String) (args : List Json) (reply : Reply)
  | unload (name : String) (withDependents : Bool) (before after : List String)
  | load (name : String) (ok : Bool) (before after : List String)
  | refresh
  | warn (line : String)

/-- The loaded modules, the number of calls made so far, and everything done so far, oldest
first. -/
structure World where
  loaded : List String
  calls : Nat
  log : List Event

/-- The code outside this repository.  `reply n` is the outcome of the `n`-th module call;
`unload` and `load` are the runtime's, at the moment given by the length of the log; `dump` is
the JSON serializer. -/
structure Env where
  reply : Nat → Reply
  unload : Nat → List String → String → Bool → List String
  load : Nat → List String → String → Bool × List String
  dump : Json → String

/-- The event that doing `a` in `w` leaves in the log. -/
def World.event (env : Env) (w : World) : Act → Event
  | .call module method args => .call module method args (env.reply w.calls)
  | .unload name b => .unload name b w.loaded (env.unload w.log.length w.loaded name b)
  | .load name =>
    .load name (env.load w.log.length w.loaded name).1 w.loaded
      (env.load w.log.length w.loaded name).2
  | .refresh => .refresh
  | .warn line => .warn line

/-- The world once `a` has been done in `w`.  A refresh makes new files discoverable and starts
and stops nothing. -/
def World.after (env : Env) (w : World) (a : Act) : World where
  loaded :=
    match a with
    | .unload name b => env.unload w.log.length w.loaded name b
    | .load name => (env.load w.log.length w.loaded name).2
    | _ => w.loaded
  calls :=
    match a with
    | .call _ _ _ => w.calls + 1
    | _ => w.calls
  log := w.log ++ [w.event env a]

@[simp] theorem World.log_after (env : Env) (w : World) (a : Act) :
    (w.after env a).log = w.log ++ [w.event env a] := rfl

@[simp] theorem World.loaded_after_call (env : Env) (w : World) (module method : String)
    (args : List Json) : (w.after env (.call module method args)).loaded = w.loaded := rfl

@[simp] theorem World.calls_after_call (env : Env) (w : World) (module method : String)
    (args : List Json) : (w.after env (.call module method args)).calls = w.calls + 1 := rfl

@[simp] theorem World.calls_after_unload (env : Env) (w : World) (name : String) (b : Bool) :
    (w.after env (.unload name b)).calls = w.calls := rfl

/-- The two bundled package modules. -/
def kPackageManager : String := "package_manager"

@[inherit_doc kPackageManager] def kPackageDownloader : String := "package_downloader"

section Primitives

variable {ε : Type} (env : Env)

/-- Do one thing. -/
def act (a : Act) : Prog World ε Unit := modify fun w => w.after env a

/-- Thin call helper: the value (null when the call itself failed) and the transport's reason. -/
def call (module method : String) (args : List Json) : Prog World ε (Json × String) := do
  let w ← get
  act env (.call module method args)
  match env.reply w.calls with
  | .ok j => pure (j, "")
  | .error why => pure (.null, why)

/-- `logos_core_unload_module`. -/
def logosCoreUnloadModule (name : String) (withDependents : Bool) : Prog World ε Unit :=
  act env (.unload name withDependents)

/-- `logos_core_load_module(name, LOGOS_LOAD_REQUIRED_AND_OPTIONAL)`. -/
def logosCoreLoadModule (name : String) : Prog World ε Bool := do
  let w ← get
  act env (.load name)
  return (env.load w.log.length w.loaded name).1

/-- `logos_core_refresh_modules`. -/
def logosCoreRefreshModules : Prog World ε Unit := act env .refresh

/-- One operator-visible line on stderr. -/
def warn (line : String) : Prog World ε Unit := act env (.warn line)

/-- `logos_core_get_loaded_modules`. -/
def loadedModules : Prog World ε (List String) := do
  let w ← get
  return w.loaded

end Primitives

/-! ## 2. Each primitive, run -/

/-- The value a reply stands for in the caller. -/
def Reply.json : Reply → Json
  | .ok j => j
  | .error _ => .null

/-- The reason a reply gives for having no value. -/
def Reply.why : Reply → String
  | .ok _ => ""
  | .error why => why

section Exec

variable {ε : Type} {env : Env}

@[simp] theorem exec_act (a : Act) (w : World) :
    (act env a : Prog World ε Unit).exec w = (.ok (), w.after env a) := rfl

@[simp] theorem exec_call (module method : String) (args : List Json) (w : World) :
    (call env module method args : Prog World ε (Json × String)).exec w =
      (.ok (Reply.json (env.reply w.calls), Reply.why (env.reply w.calls)),
        w.after env (.call module method args)) := by
  unfold call
  simp only [Prog.exec_bind, Prog.exec_get, exec_act]
  cases h : env.reply w.calls <;> rfl

@[simp] theorem exec_logosCoreUnloadModule (name : String) (b : Bool) (w : World) :
    (logosCoreUnloadModule env name b : Prog World ε Unit).exec w =
      (.ok (), w.after env (.unload name b)) := rfl

@[simp] theorem exec_logosCoreLoadModule (name : String) (w : World) :
    (logosCoreLoadModule env name : Prog World ε Bool).exec w =
      (.ok (env.load w.log.length w.loaded name).1, w.after env (.load name)) := rfl

@[simp] theorem exec_logosCoreRefreshModules (w : World) :
    (logosCoreRefreshModules env : Prog World ε Unit).exec w = (.ok (), w.after env .refresh) :=
  rfl

@[simp] theorem exec_warn (line : String) (w : World) :
    (warn env line : Prog World ε Unit).exec w = (.ok (), w.after env (.warn line)) := rfl

@[simp] theorem exec_loadedModules (w : World) :
    (loadedModules : Prog World ε (List String)).exec w = (.ok w.loaded, w) := rfl

end Exec

/-! ## 3. Runs of acts

What any of the programs does between two worlds is a run of acts.  `Performs env C w w'` says
that such a run leads from `w` to `w'` and that each act of it met `C`, which may look at the
world the act was done in. -/

/-- `w'` is `w` after a run of acts that all met `C`. -/
def Performs (env : Env) (C : World → Act → Prop) : World → World → Prop :=
  Reaches (fun w a w' => w' = w.after env a) C

section Performs

variable {env : Env} {C D : World → Act → Prop} {w w₁ w₂ w₃ : World} {a : Act}

theorem Performs.refl (w : World) : Performs env C w w := Reaches.refl

theorem Performs.trans (h₁ : Performs env C w₁ w₂) (h₂ : Performs env C w₂ w₃) :
    Performs env C w₁ w₃ := Reaches.trans h₁ h₂

theorem Performs.mono (h : Performs env C w₁ w₂) (hCD : ∀ w a, C w a → D w a) :
    Performs env D w₁ w₂ := Reaches.mono h hCD

theorem Performs.act (h : Performs env C w₁ w₂) (ha : C w₂ a) :
    Performs env C w₁ (w₂.after env a) := Reaches.tail h ha rfl

theorem Performs.single (ha : C w a) : Performs env C w (w.after env a) :=
  (Performs.refl w).act ha

/-- A run of acts, whatever they are. -/
theorem Performs.any (h : Performs env C w₁ w₂) : Performs env (fun _ _ => True) w₁ w₂ :=
  h.mono fun _ _ _ => trivial

/-- The log only grows. -/
theorem Performs.log_append (h : Performs env C w₁ w₂) : ∃ es, w₂.log = w₁.log ++ es := by
  induction h with
  | refl => exact ⟨[], by simp⟩
  | @tail s s' a _ _ hs ih =>
    obtain ⟨es, hes⟩ := ih
    refine ⟨es ++ [s.event env a], ?_⟩
    rw [hs, World.log_after, hes, List.append_assoc]

end Performs

/-- `p` does nothing but acts that meet `C`, and leaves early only with exits in `E`. -/
abbrev Does {ε α : Type} (env : Env) (C : World → Act → Prop) (E : ε → Prop)
    (p : Prog World ε α) : Prop := Prog.Keeps (Performs env C) E p

section Does

variable {env : Env} {C : World → Act → Prop} {ε α β : Type} {E : ε → Prop}

theorem Does.mono {D : World → Act → Prop} {E' : ε → Prop} {p : Prog World ε α}
    (h : Does env C E p) (hCD : ∀ w a, C w a → D w a) (hE : ∀ e, E e → E' e) : Does env D E' p :=
  Prog.Keeps.mono h (fun _ _ hp => hp.mono hCD) hE

theorem does_pure (a : α) : Does env C E (pure a : Prog World ε α) :=
  Prog.keeps_pure Performs.refl a

theorem does_throw {e : ε} (he : E e) : Does env C E (throw e : Prog World ε α) :=
  Prog.keeps_throw Performs.refl he

theorem does_lift {δ : Type} {f : δ → ε} (hf : ∀ d, E (f d)) (x : Except δ α) :
    Does env C E (Prog.lift f x : Prog World ε α) := Prog.keeps_lift Performs.refl hf x

theorem does_bind {p : Prog World ε α} {f : α → Prog World ε β} (hp : Does env C E p)
    (hf : ∀ a, Does env C E (f a)) : Does env C E (p >>= f) :=
  Prog.keeps_bind (R := Performs env C) (fun _ _ _ => Performs.trans) hp hf

theorem does_rest (p : Prog World ε α) {f : α → Prog World ε β} (hf : ∀ a, Does env C E (f a))
    (w : World) : Performs env C (p.exec w).2 ((p >>= f).exec w).2 :=
  Prog.keeps_rest Performs.refl p hf w

theorem does_act {a : Act} (h : ∀ w, C w a) : Does env C E (act env a : Prog World ε Unit) :=
  Prog.keeps_modify fun w => .single (h w)

theorem does_call {module method : String} {args : List Json}
    (h : ∀ w, C w (.call module method args)) :
    Does env C E (call env module method args : Prog World ε (Json × String)) := by
  intro w
  rw [exec_call]
  refine ⟨.single (h w), ?_⟩
  intro e he
  cases he

theorem does_loadedModules : Does env C E (loadedModules : Prog World ε (List String)) :=
  does_bind (Prog.keeps_get Performs.refl) fun w => does_pure w.loaded

theorem does_load {name : String} (h : ∀ w, C w (.load name)) :
    Does env C E (logosCoreLoadModule env name : Prog World ε Bool) :=
  does_bind (Prog.keeps_get Performs.refl) fun _ => does_bind (does_act h) fun _ => does_pure _

end Does

/-- What a program may touch: the methods it may call, the modules it may stop (with their
dependents) and the modules it may start. -/
structure Footprint where
  methods : List String
  stops : List String := []
  starts : List String := []

def Footprint.Allows (F : Footprint) (_ : World) : Act → Prop
  | .call _ method _ => method ∈ F.methods
  | .unload name withDependents => name ∈ F.stops ∧ withDependents = true
  | .load name => name ∈ F.starts
  | .refresh => True
  | .warn _ => True

theorem Footprint.allows_mono {F G : Footprint} (hm : F.methods ⊆ G.methods)
    (hs : F.stops ⊆ G.stops) (hl : F.starts ⊆ G.starts) {w : World} {a : Act}
    (h : F.Allows w a) : G.Allows w a := by
  cases a with
  | call module method args => exact hm h
  | unload name b => exact ⟨hs h.1, h.2⟩
  | load name => exact hl h
  | refresh => trivial
  | warn line => trivial

/-- Without stops and starts, what is loaded stays as it is. -/
theorem Performs.loaded_eq {env : Env} {F : Footprint} {w w' : World} (hs : F.stops = [])
    (hl : F.starts = []) (h : Performs env F.Allows w w') : w'.loaded = w.loaded := by
  induction h with
  | refl => rfl
  | @tail s s' a _ ha hstep ih =>
    subst hstep
    cases a with
    | unload name b => simp [Footprint.Allows, hs] at ha
    | load name => simp [Footprint.Allows, hl] at ha
    | call module method args => exact ih
    | refresh => exact ih
    | warn line => exact ih

/-- The events between two worlds of a run. -/
def eventsSince (w w' : World) : List Event := w'.log.drop w.log.length

theorem eventsSince_eq {w w' : World} {es : List Event} (h : w'.log = w.log ++ es) :
    eventsSince w w' = es := by
  rw [eventsSince, h, List.drop_left]

end Logosctl
