/-
# What a cascade takes down, and graphs on which that can be computed

Over a relation `R x y` read as "`x` depends on `y`": taking `m` down takes down everything that
transitively depends on it.  `cascade R T` is all that goes when the members of `T` are taken
down, `m`s included.  The second half computes the transitive closure of a relation given by a
finite list of edges, so that a concrete dependency graph can be run.
-/
import Mathlib.Logic.Relation
import Mathlib.Data.Set.Insert

namespace Logosctl.Library

open Relation

variable {α : Type}

/-! ## 1. The cascade of a set -/

/-- Everything that is in `T` or transitively depends on a member of it. -/
def cascade (R : α → α → Prop) (T : Set α) : Set α := {x | ∃ m ∈ T, ReflTransGen R x m}

section Cascade

variable {R : α → α → Prop} {S T : Set α} {x m : α}

theorem cascade_mono (h : S ⊆ T) : cascade R S ⊆ cascade R T :=
  fun _ ⟨m, hm, hx⟩ => ⟨m, h hm, hx⟩

/-- A member of the cascade is one of the set or properly depends on one. -/
theorem mem_cascade_iff : x ∈ cascade R T ↔ ∃ m ∈ T, x = m ∨ TransGen R x m := by
  simp only [cascade, Set.mem_ofPred_eq, reflTransGen_iff_eq_or_transGen, eq_comm]

/-- Surviving the taking down of one member is neither being it nor depending on it. -/
theorem notMem_cascade_singleton_iff :
    x ∉ cascade R {m} ↔ x ≠ m ∧ ¬ TransGen R x m := by
  simp [mem_cascade_iff, not_or]

end Cascade

/-! ## 2. The transitive closure of a list of edges

Warshall's recursion: a path from `a` to `b` whose inner vertices are among `v :: vs` either
avoids `v`, or runs from `a` to `v` and then from `v` to `b` through `vs`. -/

section Reach

variable [DecidableEq α] (edges : List (α × α))

/-- One edge. -/
def edge (a b : α) : Prop := (a, b) ∈ edges

instance (a b : α) : Decidable (edge edges a b) := inferInstanceAs (Decidable ((a, b) ∈ edges))

/-- A path from `a` to `b` with its inner vertices in the list. -/
def reachVia : List α → α → α → Bool
  | [], a, b => decide (edge edges a b)
  | v :: vs, a, b => reachVia vs a b || (reachVia vs a v && reachVia vs v b)

/-- A path from `a` to `b`: its inner vertices are all sources of some edge. -/
def reach (a b : α) : Bool := reachVia edges (edges.map Prod.fst) a b

variable {edges}

theorem transGen_of_reachVia :
    ∀ (vs : List α) {a b : α}, reachVia edges vs a b = true → TransGen (edge edges) a b
  | [], a, b, h => .single (of_decide_eq_true h)
  | v :: vs, a, b, h => by
    simp only [reachVia, Bool.or_eq_true, Bool.and_eq_true] at h
    rcases h with h | ⟨h₁, h₂⟩
    · exact transGen_of_reachVia vs h
    · exact (transGen_of_reachVia vs h₁).trans (transGen_of_reachVia vs h₂)

theorem reachVia_cons_of_reachVia {v : α} {vs : List α} {a b : α}
    (h : reachVia edges vs a b = true) : reachVia edges (v :: vs) a b = true := by
  simp [reachVia, h]

/-- An edge is a path, whatever vertices are allowed. -/
theorem reachVia_of_edge : ∀ (vs : List α) {a b : α}, edge edges a b → reachVia edges vs a b = true
  | [], _, _, h => decide_eq_true h
  | _ :: vs, _, _, h => reachVia_cons_of_reachVia (reachVia_of_edge vs h)

/-- Paths join at an allowed vertex. -/
theorem reachVia_join : ∀ (vs : List α) {a b c : α}, b ∈ vs →
    reachVia edges vs a b = true → reachVia edges vs b c = true → reachVia edges vs a c = true
  | v :: vs, a, b, c, hb, h₁, h₂ => by
    simp only [reachVia, Bool.or_eq_true, Bool.and_eq_true] at h₁ h₂ ⊢
    by_cases hbv : b = v
    · subst hbv
      refine Or.inr ⟨?_, ?_⟩
      · exact h₁.elim id And.left
      · exact h₂.elim id And.right
    · have hbs : b ∈ vs := (List.mem_cons.mp hb).resolve_left hbv
      rcases h₁ with h₁ | ⟨hav, hvb⟩
      · rcases h₂ with h₂ | ⟨hbv', hvc⟩
        · exact Or.inl (reachVia_join vs hbs h₁ h₂)
        · exact Or.inr ⟨reachVia_join vs hbs h₁ hbv', hvc⟩
      · rcases h₂ with h₂ | ⟨-, hvc⟩
        · exact Or.inr ⟨hav, reachVia_join vs hbs hvb h₂⟩
        · exact Or.inr ⟨hav, hvc⟩

/-- **The computed closure is the transitive closure of the edges.** -/
theorem reach_iff {a b : α} : reach edges a b = true ↔ TransGen (edge edges) a b := by
  constructor
  · exact transGen_of_reachVia _
  · intro h
    induction h with
    | single h => exact reachVia_of_edge _ h
    | tail _ h ih =>
      exact reachVia_join _ (List.mem_map.mpr ⟨_, h, rfl⟩) ih (reachVia_of_edge _ h)

instance (a b : α) : Decidable (TransGen (edge edges) a b) := decidable_of_iff _ reach_iff

end Reach

end Logosctl.Library
