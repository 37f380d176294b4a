import Mathlib.Data.Fintype.Card
import Mathlib.Algebra.BigOperators.Group.Finset.Piecewise

/-!
# Counting the members of a finite family

`count p f` is the number of indices `i` whose value `f i` satisfies `p`. The families are the
positions of the threads of a concurrent program, so the main lemma says how a count moves when one
member moves (`count_update`).
-/

namespace Counting

variable {ι β : Type*} [Fintype ι] {p q : β → Prop} [DecidablePred p] [DecidablePred q]
  {f g : ι → β}

/-- The number of indices whose value satisfies `p`. -/
def count (p : β → Prop) [DecidablePred p] (f : ι → β) : ℕ :=
  (Finset.univ.filter fun i => p (f i)).card

/-- No more are counted than there are. -/
theorem count_le_card (p : β → Prop) [DecidablePred p] (f : ι → β) : count p f ≤ Fintype.card ι :=
  Finset.card_filter_le _ _

/-- Something is counted exactly if there is such a value. -/
theorem count_pos_iff : 0 < count p f ↔ ∃ i, p (f i) := by
  simp [count, Finset.card_pos, Finset.Nonempty]

/-- Nothing is counted exactly if no value is such. -/
theorem count_eq_zero_iff : count p f = 0 ↔ ∀ i, ¬ p (f i) := by
  simp [count, Finset.filter_eq_empty_iff]

/-- Values that agree on what is counted have the same count. -/
theorem count_congr (h : ∀ i, p (f i) ↔ q (g i)) : count p f = count q g := by
  simp only [count, h]

variable [DecidableEq ι]

/-- Moving index `i` to the value `b` takes `f i` out of the count and puts `b` into it. -/
theorem count_update (p : β → Prop) [DecidablePred p] (f : ι → β) (i : ι) (b : β) :
    count p (Function.update f i b) + (if p (f i) then 1 else 0)
      = count p f + (if p b then 1 else 0) := by
  have hsum : ∀ g : ι → β, count p g
      = (if p (g i) then 1 else 0) + ∑ j ∈ Finset.univ.erase i, if p (g j) then 1 else 0 := by
    intro g
    rw [count, Finset.card_filter]
    exact (Finset.add_sum_erase _ _ (Finset.mem_univ i)).symm
  have hrest : ∑ j ∈ Finset.univ.erase i, (if p (Function.update f i b j) then 1 else 0)
      = ∑ j ∈ Finset.univ.erase i, if p (f j) then 1 else 0 := by
    refine Finset.sum_congr rfl fun j hj => ?_
    rw [Function.update_of_ne (Finset.ne_of_mem_erase hj)]
  rw [hsum (Function.update f i b), hsum f, hrest, Function.update_self]
  omega

end Counting
