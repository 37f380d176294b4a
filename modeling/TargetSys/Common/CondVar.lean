import Mathlib.Logic.Function.Basic

/-!
# Condition variables

A family `pos : ι → β` gives the position of every thread of a program, and two positions of a
condition variable are told apart: asleep in its wait, and woken but not yet running again.

`Signal` wakes some one sleeper if there is any, `broadcast` wakes them all. Both only move threads
from asleep to woken (`Signal.apply`, `broadcast_apply`), which is all that most proofs use.
-/

namespace CondVar

variable {ι β : Type*} [DecidableEq ι] {asleep woken : β} {pos pos' : ι → β}

/-- A signal wakes some one sleeper, and is lost if there is none. -/
inductive Signal (asleep woken : β) : (ι → β) → (ι → β) → Prop
  | one {pos : ι → β} {u : ι} :
      pos u = asleep → Signal asleep woken pos (Function.update pos u woken)
  | lost {pos : ι → β} : (∀ u, pos u ≠ asleep) → Signal asleep woken pos pos

/-- A broadcast wakes every sleeper. -/
def broadcast [DecidableEq β] (asleep woken : β) (pos : ι → β) (u : ι) : β :=
  if pos u = asleep then woken else pos u

/-- A signal leaves each thread where it is or wakes it. -/
theorem Signal.apply (h : Signal asleep woken pos pos') (u : ι) :
    pos' u = pos u ∨ (pos u = asleep ∧ pos' u = woken) := by
  cases h with
  | lost _ => exact .inl rfl
  | @one v hv =>
      by_cases huv : u = v
      · subst huv
        exact .inr ⟨hv, Function.update_self ..⟩
      · exact .inl (Function.update_of_ne huv ..)

/-- If somebody is still asleep after a signal, it has woken somebody. -/
theorem Signal.exists_woken (h : Signal asleep woken pos pos') (hsleep : ∃ u, pos' u = asleep) :
    ∃ u, pos' u = woken := by
  cases h with
  | one _ => exact ⟨_, Function.update_self ..⟩
  | lost hnone =>
      obtain ⟨u, hu⟩ := hsleep
      exact absurd hu (hnone u)

omit [DecidableEq ι] in
/-- A broadcast leaves each thread where it is or wakes it. -/
theorem broadcast_apply [DecidableEq β] (asleep woken : β) (pos : ι → β) (u : ι) :
    broadcast asleep woken pos u = pos u ∨
      (pos u = asleep ∧ broadcast asleep woken pos u = woken) := by
  rw [broadcast]
  split
  · exact .inr ⟨‹_›, rfl⟩
  · exact .inl rfl

omit [DecidableEq ι] in
/-- A broadcast leaves nobody asleep. -/
theorem broadcast_ne [DecidableEq β] (h : woken ≠ asleep) (pos : ι → β) (u : ι) :
    broadcast asleep woken pos u ≠ asleep := by
  rw [broadcast]
  split
  · exact h
  · assumption

end CondVar
