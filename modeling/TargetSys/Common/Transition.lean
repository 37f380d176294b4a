import Mathlib.Data.List.Induction

/-!
# Finite runs of labelled step relations

`Run step s es t` is a finite run of a labelled step relation that starts in `s`, ends in `t` and
emits the labels `es` in order. Every safety statement about an interleaving is proved through one
of three rules:

* `Run.invariant`: a predicate every step preserves holds at the end of every run;
* `Run.invariant_trace`: the same, for a predicate that also speaks of the labels emitted so far;
* `Run.after`: a predicate established by a step and preserved by all later ones holds at the end.

`Run.simulate` carries runs from one step relation over to another.

`owed req ans es` says that the last of the labels `req` and `ans` among `es` is a request, which is
still to be answered.

`Guarded step C` restricts a relation to the steps that meet a side condition `C`; a discipline that
callers are assumed to keep, or the condition under which a flawed step is harmless, is stated so.
-/

namespace Transition

variable {σ α : Type*} {step : σ → α → σ → Prop} {s t u : σ} {es es₁ es₂ : List α} {e : α}

/-- A finite run, with the labels it emits, extended at its end. -/
inductive Run (step : σ → α → σ → Prop) : σ → List α → σ → Prop
  | nil (s : σ) : Run step s [] s
  | snoc {s t u : σ} {es : List α} {e : α} :
      Run step s es t → step t e u → Run step s (es ++ [e]) u

/-- `t` is reached from `s` by some run. -/
def Reachable (step : σ → α → σ → Prop) (s t : σ) : Prop :=
  ∃ es, Run step s es t

/-- The steps of `step` that are taken from a state and with a label satisfying `C`. -/
def Guarded (step : σ → α → σ → Prop) (C : σ → α → Prop) (s : σ) (e : α) (t : σ) : Prop :=
  step s e t ∧ C s e

namespace Run

/-- One step is a run. -/
theorem single (h : step s e t) : Run step s [e] t := (Run.nil s).snoc h

/-- Runs compose. -/
theorem append (h₁ : Run step s es₁ t) (h₂ : Run step t es₂ u) : Run step s (es₁ ++ es₂) u := by
  induction h₂ with
  | nil => simpa using h₁
  | snoc _ hstep ih =>
      rw [← List.append_assoc]
      exact ih.snoc hstep

/-- A run may be put behind a first step. -/
theorem cons (h : step s e t) (hrun : Run step t es u) : Run step s (e :: es) u :=
  (single h).append hrun

/-- A run that emits `es₁ ++ es₂` passes through a state where exactly `es₁` has been emitted. -/
theorem split (h : Run step s (es₁ ++ es₂) u) :
    ∃ t, Run step s es₁ t ∧ Run step t es₂ u := by
  induction es₂ using List.reverseRecOn generalizing u with
  | nil => exact ⟨u, by simpa using h, Run.nil u⟩
  | append_singleton es e ih =>
      rw [← List.append_assoc] at h
      generalize hl : es₁ ++ es ++ [e] = l at h
      cases h with
      | nil => simp at hl
      | snoc hrun hstep =>
          obtain ⟨rfl, hlast⟩ := List.append_inj' hl rfl
          obtain rfl : e = _ := by simpa using hlast
          obtain ⟨t, h₁, h₂⟩ := ih hrun
          exact ⟨t, h₁, h₂.snoc hstep⟩

/-- The step that emitted a given label of a run. -/
theorem split_at (h : Run step s (es₁ ++ e :: es₂) u) :
    ∃ t t', Run step s es₁ t ∧ step t e t' ∧ Run step t' es₂ u := by
  rw [show es₁ ++ e :: es₂ = (es₁ ++ [e]) ++ es₂ from by simp] at h
  obtain ⟨t', h₁, h₂⟩ := h.split
  generalize hl : es₁ ++ [e] = l at h₁
  cases h₁ with
  | nil => simp at hl
  | snoc hrun hstep =>
      obtain ⟨rfl, hlast⟩ := List.append_inj' hl rfl
      obtain rfl : e = _ := by simpa using hlast
      exact ⟨_, t', hrun, hstep, h₂⟩

/-- Runs of a stronger step relation are runs of a weaker one. -/
theorem mono {step' : σ → α → σ → Prop} (himp : ∀ s e t, step s e t → step' s e t)
    (h : Run step s es t) : Run step' s es t := by
  induction h with
  | nil => exact Run.nil _
  | snoc _ hstep ih => exact ih.snoc (himp _ _ _ hstep)

/-- A run with guarded steps is a run. -/
theorem of_guarded {C : σ → α → Prop} (h : Run (Guarded step C) s es t) : Run step s es t :=
  h.mono fun _ _ _ hg => hg.1

/-- A predicate preserved by every step holds at the end of every run that starts in it. -/
theorem invariant {I : σ → Prop} (hstep : ∀ s e t, I s → step s e t → I t)
    (h : Run step s es t) (h0 : I s) : I t := by
  induction h with
  | nil => exact h0
  | snoc _ hs ih => exact hstep _ _ _ ih hs

/-- An invariant that also relates the state to the labels emitted since the start. -/
theorem invariant_trace {I : List α → σ → Prop}
    (hstep : ∀ es s e t, I es s → step s e t → I (es ++ [e]) t)
    (h : Run step s es t) (h0 : I [] s) : I es t := by
  induction h with
  | nil => exact h0
  | snoc _ hs ih => exact hstep _ _ _ _ ih hs

/-- What a labelled step establishes and every step with a label in `P` preserves still holds after
any run of labels in `P`. -/
theorem after {I : σ → Prop} {P : α → Prop}
    (hstep : ∀ s e t, I s → P e → step s e t → I t)
    (h : Run step s es t) (h0 : I s) (hP : ∀ e ∈ es, P e) : I t := by
  induction h with
  | nil => exact h0
  | snoc _ hs ih =>
      exact hstep _ _ _ (ih fun e he => hP e (by simp [he])) (hP _ (by simp)) hs

/-- If each step from related states is matched by a step with the same label, so is each run. -/
theorem simulate {σ' : Type*} {step' : σ' → α → σ' → Prop} {R : σ → σ' → Prop}
    (hstep : ∀ s a e t, R s a → step s e t → ∃ b, step' a e b ∧ R t b)
    (h : Run step s es t) {a : σ'} (h0 : R s a) : ∃ b, Run step' a es b ∧ R t b := by
  induction h with
  | nil => exact ⟨a, .nil a, h0⟩
  | snoc _ hs ih =>
      obtain ⟨b, hrun, hb⟩ := ih
      obtain ⟨c, hs', hc⟩ := hstep _ _ _ _ hb hs
      exact ⟨c, hrun.snoc hs', hc⟩

end Run

namespace Reachable

/-- The invariant rule for reachable states. -/
theorem invariant {I : σ → Prop} (hstep : ∀ s e t, I s → step s e t → I t)
    (h : Reachable step s t) (h0 : I s) : I t :=
  let ⟨_, hrun⟩ := h
  hrun.invariant hstep h0

end Reachable

/-! ## Requests and answers -/

section Owed

variable [DecidableEq α] {req ans : α}

/-- Whether the last request among the labels is still to be answered. -/
def owed (req ans : α) (es : List α) : Bool :=
  es.foldl (fun b e => if e = req then true else if e = ans then false else b) false

/-- Only the request and its answer change what is owed. -/
theorem owed_snoc :
    owed req ans (es ++ [e]) =
      if e = req then true else if e = ans then false else owed req ans es := by
  rw [owed, List.foldl_append]
  rfl

/-- A request that is owed is there, and not answered since. -/
theorem exists_request (h : owed req ans es = true) :
    ∃ es₁ es₂, es = es₁ ++ req :: es₂ ∧ ans ∉ es₂ := by
  induction es using List.reverseRecOn with
  | nil => cases h
  | append_singleton es e ih =>
      rw [owed_snoc] at h
      by_cases hreq : e = req
      · exact ⟨es, [], by rw [hreq], List.not_mem_nil⟩
      · rw [if_neg hreq] at h
        by_cases hans : e = ans
        · rw [if_pos hans] at h
          cases h
        · rw [if_neg hans] at h
          obtain ⟨es₁, es₂, rfl, hmem⟩ := ih h
          refine ⟨es₁, es₂ ++ [e], by simp, ?_⟩
          simp [hmem, Ne.symm hans]

/-- If nothing is owed, every request has its answer behind it. -/
theorem answered (h : owed req ans (es₁ ++ req :: es₂) = false) : ans ∈ es₂ := by
  induction es₂ using List.reverseRecOn with
  | nil =>
      rw [owed_snoc, if_pos rfl] at h
      cases h
  | append_singleton es e ih =>
      rw [← List.cons_append, ← List.append_assoc, owed_snoc] at h
      by_cases he : e = ans
      · simp [he]
      · rw [if_neg he] at h
        split at h
        · cases h
        · exact List.mem_append_left _ (ih h)

end Owed

end Transition
