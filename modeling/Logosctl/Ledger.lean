/-
# What the log says of one thing

A thing that some events of the log set and the others leave alone, such as whether a package is
there or an action is pending, holds between two worlds what the last event to set it left.  The
lemmas here read it off a run: nothing, one act, two runs in a row, and a run none of whose acts
concerns it.
-/
import Logosctl.RunningSet
import Logosctl.Library.LastWrite

namespace Logosctl

open Library

variable {β : Type}

/-- What the thing is in `w'`, when it was `b` in `w`. -/
def ledger (writes : Event → Option β) (b : β) (w w' : World) : β :=
  lastWrite writes b (eventsSince w w')

section Ledger

variable {env : Env} {writes : Event → Option β} {b : β} {C D : World → Act → Prop}
  {w w₁ w' : World}

theorem ledger_self : ledger writes b w w = b := by
  simp [ledger, eventsSince]

theorem ledger_after (a : Act) :
    ledger writes b w (w.after env a) = (writes (w.event env a)).getD b := by
  have hevents : eventsSince w (w.after env a) = [w.event env a] := eventsSince_eq rfl
  rw [ledger, hevents]
  rfl

theorem ledger_trans (h₁ : Performs env C w w₁) (h₂ : Performs env D w₁ w') :
    ledger writes b w w' = ledger writes (ledger writes b w w₁) w₁ w' := by
  rw [ledger, h₁.eventsSince_trans h₂, lastWrite_append]
  rfl

/-- One more act of a run. -/
theorem ledger_act (h : Performs env C w w₁) (a : Act) :
    ledger writes b w (w₁.after env a) =
      (writes (w₁.event env a)).getD (ledger writes b w w₁) := by
  have hlast : Performs env (fun _ _ => True) w₁ (w₁.after env a) := .single trivial
  rw [ledger_trans h hlast, ledger_after]

/-- A run whose acts do not concern the thing leaves it as it was. -/
theorem ledger_of_performs (hnone : ∀ s a, C s a → writes (s.event env a) = none)
    (h : Performs env C w w') : ledger writes b w w' = b := by
  refine lastWrite_of_none ?_
  intro e he
  obtain ⟨s, a, -, ha, -, rfl⟩ := h.mem_eventsSince he
  exact hnone s a ha

end Ledger

end Logosctl
