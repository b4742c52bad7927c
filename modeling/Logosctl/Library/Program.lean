/-
# Programs that fail without losing what they did

A program over a state `σ` that may leave early with an `ε`: the state it had reached when it
left is kept, which is what an early `return` or an exception means for a process that has
already called out.  The carrier is `ExceptT ε (StateM σ)`; this file gives it one reading
(`exec`), the equations of that reading, the two inversion rules of sequencing, and one rule for
relations that every step of a program respects (`Keeps`).

Nothing here mentions a particular state or a particular failure.
-/
import Mathlib.Order.Basic

namespace Logosctl.Library

/-- A chain of computations without state that answers did each part. -/
theorem except_bind_eq_ok {ε α β : Type} {x : Except ε α} {f : α → Except ε β} {b : β} :
    (x >>= f) = .ok b ↔ ∃ a, x = .ok a ∧ f a = .ok b := by
  cases x with
  | error e => simp [bind, Except.bind]
  | ok a => simp [bind, Except.bind]

theorem except_map_eq_ok {ε α β : Type} {x : Except ε α} {f : α → β} {b : β} :
    x.map f = .ok b ↔ ∃ a, x = .ok a ∧ f a = b := by
  cases x with
  | error e => simp [Except.map]
  | ok a => simp [Except.map]

/-- A program with state `σ`, early exits `ε` and result `α`. -/
abbrev Prog (σ ε α : Type) := ExceptT ε (StateM σ) α

namespace Prog

variable {σ ε α β : Type}

/-! ## 1. Running a program -/

/-- Run `p` from `s`: how it ended, and the state it ended in. -/
def exec (p : Prog σ ε α) (s : σ) : Except ε α × σ := StateT.run (ExceptT.run p) s

/-- A computation that has no effect on the state, with its own kind of failure. -/
def lift {δ : Type} (f : δ → ε) : Except δ α → Prog σ ε α
  | .ok a => pure a
  | .error d => throw (f d)

@[simp] theorem exec_pure (a : α) (s : σ) : (pure a : Prog σ ε α).exec s = (.ok a, s) := rfl

@[simp] theorem exec_throw (e : ε) (s : σ) :
    (throw e : Prog σ ε α).exec s = (.error e, s) := rfl

@[simp] theorem exec_get (s : σ) : (get : Prog σ ε σ).exec s = (.ok s, s) := rfl

@[simp] theorem exec_set (t s : σ) : (set t : Prog σ ε PUnit).exec s = (.ok ⟨⟩, t) := rfl

@[simp] theorem exec_modify (f : σ → σ) (s : σ) :
    (modify f : Prog σ ε PUnit).exec s = (.ok ⟨⟩, f s) := rfl

@[simp] theorem exec_lift_ok {δ : Type} (f : δ → ε) (a : α) (s : σ) :
    (lift f (.ok a) : Prog σ ε α).exec s = (.ok a, s) := rfl

@[simp] theorem exec_lift_error {δ : Type} (f : δ → ε) (d : δ) (s : σ) :
    (lift f (.error d) : Prog σ ε α).exec s = (.error (f d), s) := rfl

/-- Sequencing: the second program runs from where the first one ended, if it ended well. -/
theorem exec_bind (p : Prog σ ε α) (f : α → Prog σ ε β) (s : σ) :
    (p >>= f).exec s =
      (match p.exec s with
        | (.ok a, t) => (f a).exec t
        | (.error e, t) => (.error e, t)) := by
  unfold exec
  simp only [ExceptT.run_bind, StateT.run_bind]
  cases h : StateT.run (ExceptT.run p) s with
  | mk r t => cases r <;> rfl

theorem exec_bind_of_ok {p : Prog σ ε α} {f : α → Prog σ ε β} {s t : σ} {a : α}
    (h : p.exec s = (.ok a, t)) : (p >>= f).exec s = (f a).exec t := by
  rw [exec_bind, h]

theorem exec_bind_of_error {p : Prog σ ε α} {f : α → Prog σ ε β} {s t : σ} {e : ε}
    (h : p.exec s = (.error e, t)) : (p >>= f).exec s = (.error e, t) := by
  rw [exec_bind, h]

/-- A program whose answer is only renamed. -/
theorem exec_bind_pure (p : Prog σ ε α) (f : α → β) (s : σ) :
    (p >>= fun a => pure (f a)).exec s = ((p.exec s).1.map f, (p.exec s).2) := by
  rw [exec_bind]
  cases h : p.exec s with
  | mk r t => cases r <;> rfl

/-! ## 2. Inversion of sequencing -/

/-- A sequence that ends well did both parts well. -/
theorem exec_bind_eq_ok {p : Prog σ ε α} {f : α → Prog σ ε β} {s u : σ} {b : β} :
    (p >>= f).exec s = (.ok b, u) ↔
      ∃ a t, p.exec s = (.ok a, t) ∧ (f a).exec t = (.ok b, u) := by
  rw [exec_bind]
  cases h : p.exec s with
  | mk r t =>
    cases r with
    | ok a =>
      constructor
      · intro hf
        exact ⟨a, t, rfl, hf⟩
      · rintro ⟨a', t', heq, hf⟩
        simp only [Prod.mk.injEq, Except.ok.injEq] at heq
        obtain ⟨rfl, rfl⟩ := heq
        exact hf
    | error e => simp

/-- A sequence that leaves early did so in its first part, or in its second after the first. -/
theorem exec_bind_eq_error {p : Prog σ ε α} {f : α → Prog σ ε β} {s u : σ} {e : ε} :
    (p >>= f).exec s = (.error e, u) ↔
      p.exec s = (.error e, u) ∨ ∃ a t, p.exec s = (.ok a, t) ∧ (f a).exec t = (.error e, u) := by
  rw [exec_bind]
  cases h : p.exec s with
  | mk r t =>
    cases r with
    | ok a =>
      constructor
      · intro hf
        exact Or.inr ⟨a, t, rfl, hf⟩
      · rintro (heq | ⟨a', t', heq, hf⟩)
        · simp at heq
        · simp only [Prod.mk.injEq, Except.ok.injEq] at heq
          obtain ⟨rfl, rfl⟩ := heq
          exact hf
    | error e' => simp

/-! ## 3. Relations that every step respects -/

/-- `p` keeps `R` and leaves early only with exits in `E`: from every state, the state it ends
in is `R`-related to the one it started in, whichever way it ends. -/
def Keeps (R : σ → σ → Prop) (E : ε → Prop) (p : Prog σ ε α) : Prop :=
  ∀ s, R s (p.exec s).2 ∧ ∀ e, (p.exec s).1 = .error e → E e

section Keeps

variable {R : σ → σ → Prop} {E : ε → Prop}

theorem keeps_pure (hrefl : ∀ s, R s s) (a : α) : Keeps R E (pure a : Prog σ ε α) := by
  intro s
  refine ⟨hrefl s, ?_⟩
  intro e he
  cases he

theorem keeps_throw (hrefl : ∀ s, R s s) {e : ε} (he : E e) :
    Keeps R E (throw e : Prog σ ε α) := by
  intro s
  refine ⟨hrefl s, ?_⟩
  intro e' he'
  cases he'
  exact he

theorem keeps_get (hrefl : ∀ s, R s s) : Keeps R E (get : Prog σ ε σ) := by
  intro s
  refine ⟨hrefl s, ?_⟩
  intro e he
  cases he

theorem keeps_lift (hrefl : ∀ s, R s s) {δ : Type} {f : δ → ε} (hf : ∀ d, E (f d))
    (x : Except δ α) : Keeps R E (lift f x : Prog σ ε α) := by
  cases x with
  | ok a => exact keeps_pure hrefl a
  | error d => exact keeps_throw hrefl (hf d)

theorem keeps_modify {f : σ → σ} (h : ∀ s, R s (f s)) :
    Keeps R E (modify f : Prog σ ε PUnit) := by
  intro s
  refine ⟨h s, ?_⟩
  intro e he
  cases he

/-- Two programs that keep a transitive relation keep it in sequence. -/
theorem keeps_bind (htrans : ∀ s t u, R s t → R t u → R s u) {p : Prog σ ε α}
    {f : α → Prog σ ε β} (hp : Keeps R E p) (hf : ∀ a, Keeps R E (f a)) :
    Keeps R E (p >>= f) := by
  intro s
  obtain ⟨hR, hE⟩ := hp s
  rw [exec_bind]
  cases h : p.exec s with
  | mk r t =>
    rw [h] at hR hE
    cases r with
    | ok a =>
      obtain ⟨hR', hE'⟩ := hf a t
      exact ⟨htrans _ _ _ hR hR', hE'⟩
    | error e =>
      refine ⟨hR, ?_⟩
      intro e' he'
      cases he'
      exact hE e rfl

/-- What follows `p` in a sequence relates the end of `p` to the end of the whole. -/
theorem keeps_rest (hrefl : ∀ s, R s s) (p : Prog σ ε α) {f : α → Prog σ ε β}
    (hf : ∀ a, Keeps R E (f a)) (s : σ) : R (p.exec s).2 ((p >>= f).exec s).2 := by
  rw [exec_bind]
  cases h : p.exec s with
  | mk r t =>
    cases r with
    | ok a => exact (hf a t).1
    | error e => exact hrefl t

/-- A program keeps every relation weaker than one that it keeps. -/
theorem Keeps.mono {R' : σ → σ → Prop} {E' : ε → Prop} {p : Prog σ ε α} (h : Keeps R E p)
    (hR : ∀ s t, R s t → R' s t) (hE : ∀ e, E e → E' e) : Keeps R' E' p := by
  intro s
  refine ⟨hR _ _ (h s).1, ?_⟩
  intro e he
  exact hE e ((h s).2 e he)

/-- What `Keeps` says of the state one run ends in. -/
theorem Keeps.of_exec {p : Prog σ ε α} (h : Keeps R E p) {s u : σ} {r : Except ε α}
    (hrun : p.exec s = (r, u)) : R s u := by
  have hs := (h s).1
  rw [hrun] at hs
  exact hs

/-- What `Keeps` says of a run that left early. -/
theorem Keeps.of_error {p : Prog σ ε α} (h : Keeps R E p) {s u : σ} {e : ε}
    (hrun : p.exec s = (.error e, u)) : E e := by
  refine (h s).2 e ?_
  rw [hrun]

end Keeps

end Prog

end Logosctl.Library
