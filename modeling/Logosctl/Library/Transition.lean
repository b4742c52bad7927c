/-
# Transition systems and runs whose steps meet a condition

A step relation over a state type and an action type.  `Reaches step C s₀ s` says that some run
leads from `s₀` to `s` and that every step of it met the condition `C`, which reads the state
before the step and the action.  With the trivial condition this is plain reachability; with a
real one it is the shape in which "in every run whose steps all meet the condition" is stated,
since every state of such a run is itself reached by such a run.
-/
import Mathlib.Data.List.Induction
import Mathlib.Logic.Relation

namespace Logosctl.Library

variable {σ α : Type}

/-! ## 1. Reaching a state -/

/-- `s` is the state after some run from `s₀` all of whose steps met `C`. -/
inductive Reaches (step : σ → α → σ → Prop) (C : σ → α → Prop) (s₀ : σ) : σ → Prop
  | refl : Reaches step C s₀ s₀
  | tail {s s' : σ} {a : α} :
      Reaches step C s₀ s → C s a → step s a s' → Reaches step C s₀ s'

section Reaches

variable {step : σ → α → σ → Prop} {C D : σ → α → Prop} {s₀ s : σ}

/-- A run that meets a condition meets every weaker one. -/
theorem Reaches.mono (h : Reaches step C s₀ s) (hCD : ∀ s a, C s a → D s a) :
    Reaches step D s₀ s := by
  induction h with
  | refl => exact .refl
  | tail _ hc hs ih => exact ih.tail (hCD _ _ hc) hs

/-- Runs compose. -/
theorem Reaches.trans {t : σ} (h₁ : Reaches step C s₀ s) (h₂ : Reaches step C s t) :
    Reaches step C s₀ t := by
  induction h₂ with
  | refl => exact h₁
  | tail _ hc hs ih => exact ih.tail hc hs

/-- **The invariant rule.**  What holds initially and is kept by every step that meets the
condition holds in every state that such a run reaches. -/
theorem Reaches.invariant {I : σ → Prop} (h : Reaches step C s₀ s) (h₀ : I s₀)
    (hstep : ∀ {s s' a}, I s → C s a → step s a s' → I s') : I s := by
  induction h with
  | refl => exact h₀
  | tail _ hc hs ih => exact hstep ih hc hs

/-- The invariant rule beside an invariant `J` that is already known to be kept. -/
theorem Reaches.invariant_beside {I J : σ → Prop} (h : Reaches step C s₀ s) (hJ₀ : J s₀)
    (hJ : ∀ {s s' a}, J s → step s a s' → J s') (h₀ : I s₀)
    (hstep : ∀ {s s' a}, J s → I s → C s a → step s a s' → I s') : I s := by
  have hboth : J s ∧ I s := by
    refine h.invariant (I := fun s => J s ∧ I s) ⟨hJ₀, h₀⟩ ?_
    intro s s' a hs hc hnext
    exact ⟨hJ hs.1 hnext, hstep hs.1 hs.2 hc hnext⟩
  exact hboth.2

end Reaches

/-! ## 2. Executable systems -/

/-- Run a list of actions with an executable step function, stopping at the first refusal. -/
def runActions (next : σ → α → Option σ) : σ → List α → Option σ
  | s, [] => some s
  | s, a :: as => (next s a).bind fun s' => runActions next s' as

/-- A run that an executable step function performs is a run of its relation, and one whose steps
meet a condition that an invariant of the run guarantees. -/
theorem runActions_reaches_of {next : σ → α → Option σ} {I : σ → Prop} {C : σ → α → Prop}
    {s₀ : σ} : ∀ (as : List α) {s s' : σ}, (∀ t, ∀ a ∈ as, I t → C t a) →
      (∀ t t', ∀ a ∈ as, I t → next t a = some t' → I t') → I s →
      Reaches (fun s a s' => next s a = some s') C s₀ s → runActions next s as = some s' →
      Reaches (fun s a s' => next s a = some s') C s₀ s'
  | [], s, s', _, _, _, hr, h => by
    simp only [runActions, Option.some.injEq] at h
    exact h ▸ hr
  | a :: as, s, s', hC, hI, hs, hr, h => by
    simp only [runActions, Option.bind_eq_some_iff] at h
    obtain ⟨t, ht, hrest⟩ := h
    have ha : a ∈ a :: as := List.mem_cons_self
    exact runActions_reaches_of as (fun t b hb => hC t b (List.mem_cons_of_mem a hb))
      (fun t t' b hb => hI t t' b (List.mem_cons_of_mem a hb)) (hI s t a ha hs ht)
      (hr.tail (hC s a ha hs) ht) hrest

theorem runActions_append {next : σ → α → Option σ} (s : σ) (as bs : List α) :
    runActions next s (as ++ bs) = (runActions next s as).bind fun t => runActions next t bs := by
  induction as generalizing s with
  | nil => rfl
  | cons a as ih =>
    rw [List.cons_append, runActions, runActions, Option.bind_assoc]
    exact congrArg _ (funext fun t => ih t)

/-- **The invariant rule for what is said about the run so far**, and not about the state alone. -/
theorem runActions_invariant {next : σ → α → Option σ} {s₀ : σ} {I : List α → σ → Prop}
    (h₀ : I [] s₀)
    (hstep : ∀ {as s a s'}, I as s → next s a = some s' → I (as ++ [a]) s') :
    ∀ {as : List α} {s : σ}, runActions next s₀ as = some s → I as s := by
  intro as
  induction as using List.reverseRecOn with
  | nil =>
    intro s h
    simp only [runActions, Option.some.injEq] at h
    exact h ▸ h₀
  | append_singleton as a ih =>
    intro s' h
    obtain ⟨s, hs, hlast⟩ := Option.bind_eq_some_iff.mp ((runActions_append s₀ as [a]).symm.trans h)
    obtain ⟨s'', hs'', heq⟩ := Option.bind_eq_some_iff.mp hlast
    cases heq
    exact hstep (ih hs) hs''

theorem runActions_reaches {next : σ → α → Option σ} {s₀ : σ} (as : List α) {s s' : σ}
    (hr : Reaches (fun s a s' => next s a = some s') (fun _ _ => True) s₀ s)
    (h : runActions next s as = some s') :
    Reaches (fun s a s' => next s a = some s') (fun _ _ => True) s₀ s' :=
  runActions_reaches_of (I := fun _ => True) as (fun _ _ _ _ => trivial)
    (fun _ _ _ _ _ _ => trivial) trivial hr h

end Logosctl.Library
