/-
# Asking until yes, or until a deadline

A loop that puts one question over and over: it stops with `true` at the first yes, with `false`
at the first no that comes at the deadline or after it, and otherwise waits and asks again.  Time
is a natural number; the question and the waits are functions of the time, so whatever the
answers depend on is a function of the time as well.

The verdict is read off the questions the loop gets to (`Asked`): the loop ends at one of them
(`exists_asked_run`), and any of them that is answered yes is where it ends (`Asked.run_of_yes`).
-/
import Mathlib.Data.Nat.Notation

namespace Logosctl.Library

/-- The question, as asked at a time: what the answer is, when it is in, and when a loop that
goes on after it asks the next time.  Answering may take no time, waiting does. -/
structure Poll where
  yes : ℕ → Bool
  answered : ℕ → ℕ
  resume : ℕ → ℕ
  le_answered : ∀ t, t ≤ answered t
  lt_resume : ∀ t, t < resume t

namespace Poll

variable {p : Poll} {deadline first t : ℕ}

/-- When the question is asked again, after it was asked at `t`. -/
def next (p : Poll) (t : ℕ) : ℕ := p.resume (p.answered t)

theorem lt_next (p : Poll) (t : ℕ) : t < p.next t :=
  Nat.lt_of_le_of_lt (p.le_answered t) (p.lt_resume _)

/-- The loop from `t` on: its verdict, and when it is over. -/
def run (p : Poll) (deadline t : ℕ) : Bool × ℕ :=
  if p.yes t then (true, p.answered t)
  else if deadline ≤ p.answered t then (false, p.answered t)
  else p.run deadline (p.next t)
termination_by deadline - t
decreasing_by
  have hle := p.le_answered t
  have hlt := p.lt_next t
  omega

/-- The loop goes on after the question it asked at `t`. -/
def GoesOn (p : Poll) (deadline t : ℕ) : Prop := p.yes t = false ∧ p.answered t < deadline

/-- The times at which a loop that starts at `first` asks. -/
inductive Asked (p : Poll) (deadline first : ℕ) : ℕ → Prop
  | first : Asked p deadline first first
  | again {t : ℕ} : Asked p deadline first t → p.GoesOn deadline t →
      Asked p deadline first (p.next t)

theorem run_of_yes (h : p.yes t = true) : p.run deadline t = (true, p.answered t) := by
  rw [run, if_pos h]

theorem run_of_late (hno : p.yes t = false) (hlate : deadline ≤ p.answered t) :
    p.run deadline t = (false, p.answered t) := by
  rw [run, if_neg (by simp [hno]), if_pos hlate]

theorem run_of_goesOn (h : p.GoesOn deadline t) :
    p.run deadline t = p.run deadline (p.next t) := by
  rw [run, if_neg (by simp [h.1]), if_neg (Nat.not_le_of_lt h.2)]

/-- From any question the loop gets to, it runs as from the first. -/
theorem Asked.run_eq (h : p.Asked deadline first t) :
    p.run deadline first = p.run deadline t := by
  induction h with
  | first => rfl
  | again _ hgo ih => rw [ih, run_of_goesOn hgo]

/-- **Where the loop ends**: at a question it gets to, with a yes, or with a no that comes too
late to ask again. -/
theorem exists_asked_run (p : Poll) (deadline first : ℕ) :
    ∃ t, p.Asked deadline first t ∧ p.run deadline first = (p.yes t, p.answered t) ∧
      (p.yes t = false → deadline ≤ p.answered t) := by
  -- Along the loop, from each question it gets to.
  suffices h : ∀ s, p.Asked deadline first s →
      ∃ t, p.Asked deadline first t ∧ p.run deadline s = (p.yes t, p.answered t) ∧
        (p.yes t = false → deadline ≤ p.answered t) from h first .first
  intro s
  induction s using run.induct p deadline with
  | case1 s hyes =>
    intro hs
    refine ⟨s, hs, by rw [run_of_yes hyes, hyes], fun hno => ?_⟩
    exact absurd (hyes.symm.trans hno) (by decide)
  | case2 s hno hlate =>
    intro hs
    have hno : p.yes s = false := Bool.eq_false_iff.mpr hno
    exact ⟨s, hs, by rw [run_of_late hno hlate, hno], fun _ => hlate⟩
  | case3 s hno hlate ih =>
    intro hs
    have hgo : p.GoesOn deadline s := ⟨Bool.eq_false_iff.mpr hno, Nat.lt_of_not_le hlate⟩
    rw [run_of_goesOn hgo]
    exact ih (hs.again hgo)

/-- **A yes ends the loop**, when its answer is in. -/
theorem Asked.run_of_yes (h : p.Asked deadline first t) (hyes : p.yes t = true) :
    p.run deadline first = (true, p.answered t) := by
  rw [h.run_eq, Poll.run_of_yes hyes]

end Poll

end Logosctl.Library
