import Mathlib.Data.Finset.Max
import TargetSys.Timer.LoopRefinement

/-!
# One pass over the timers that are due

Reference: `timers_reify` in `third-party/libev/ev.c`.

The pass takes the root as long as it is due, and what it takes goes from `rfeeds` to `pendings`
in reverse. A timer that repeats goes back into the heap, but never to before `mn_now`, so it is not
taken twice and the pass ends.

## Main results

* `EvLoop.Expires.spec`: what a pass takes, in which order, and what it leaves.
* `timersReify_order`: the watchers that a pass makes pending are those that were due, each once, and
  `ev_invoke_pending` takes the one due first first.
-/

namespace TargetSys.Timer

namespace EvLoop

variable {H W : Type*} [DecidableEq W]

/-- The rounds of `timers_reify`, with the watchers they take. -/
inductive Expires : EvLoop H W → List W → EvLoop H W → Prop
  | done {a : EvLoop H W} : (∀ w, ¬ a.FirstDue w) → Expires a [] a
  | round {a a' : EvLoop H W} {w : W} {ws : List W} :
      a.FirstDue w → Expires (a.expire w) ws a' → Expires a (w :: ws) a'

/-- The watcher is active and due. -/
def IsDue (a : EvLoop H W) (w : W) : Prop := w ∈ a.timers ∧ (a.watcher w).evAt < a.mnNow

instance (a : EvLoop H W) (w : W) : Decidable (a.IsDue w) := inferInstanceAs (Decidable (_ ∧ _))

/-- What becomes of a timer that expires: it goes on if it repeats, and ends otherwise. -/
def Expired (a a' : EvLoop H W) (w : W) : Prop :=
  if (a.watcher w).evRepeat ≠ 0 then
    w ∈ a'.timers ∧ a'.watcher w = { a.watcher w with
      evAt := max ((a.watcher w).evAt + (a.watcher w).evRepeat) a.mnNow }
  else w ∉ a'.timers ∧ a'.watcher w = { a.watcher w with evAt := (a.watcher w).evAt - a.mnNow }

/-- The watcher stays what it is. -/
def Kept (a a' : EvLoop H W) (w : W) : Prop :=
  (w ∈ a'.timers ↔ w ∈ a.timers) ∧ a'.watcher w = a.watcher w

variable {a a' : EvLoop H W} {w v : W} {ws : List W}

omit [DecidableEq W] in
/-- If any watcher is due, one is due first. -/
theorem exists_firstDue [DecidableEq W] (h : a.IsDue w) : ∃ v, a.FirstDue v := by
  obtain ⟨v, hv, hmin⟩ := a.timers.toFinset.exists_min_image (fun v => (a.watcher v).evAt)
    ⟨w, List.mem_toFinset.mpr h.1⟩
  rw [List.mem_toFinset] at hv
  have hle := hmin w (List.mem_toFinset.mpr h.1)
  refine ⟨v, hv, Int.lt_of_le_of_lt hle h.2, fun u hu => hmin u (List.mem_toFinset.mpr hu)⟩

/-! ## One round -/

/-- A round leaves the other timers alone. -/
theorem kept_expire (hv : v ≠ w) : Kept a (a.expire w) v := by
  unfold Kept expire evTimerStop
  dsimp only
  split
  · simp [hv]
  · split
    · simp [clearPending]
    · simp [clearPending, hv]

/-- A round makes its timer expire. -/
theorem expired_expire (hw : w ∈ a.timers) : Expired a (a.expire w) w := by
  unfold Expired expire evTimerStop
  dsimp only
  split
  · exact ⟨hw, Function.update_self ..⟩
  · rw [if_neg (by simpa [clearPending] using hw)]
    simp [clearPending]

/-- A round makes nothing pending. -/
theorem pendings_expire (hp : a.pendings = []) : (a.expire w).pendings = [] := by
  unfold expire evTimerStop
  dsimp only
  split
  · exact hp
  · split <;> simp [clearPending, hp]

/-- A round remembers its timer. -/
theorem rfeeds_expire : (a.expire w).rfeeds = w :: a.rfeeds := by
  unfold expire
  dsimp only
  split
  · rfl
  · rw [rfeeds_evTimerStop]

omit [DecidableEq W] in
/-- A timer that has expired is not due again. -/
theorem Expired.not_isDue (h : Expired a a' w) (hnow : a'.mnNow = a.mnNow) : ¬ a'.IsDue w := by
  rintro ⟨hmem, hlt⟩
  unfold Expired at h
  split at h
  · rw [h.2, hnow] at hlt
    exact absurd hlt (Int.not_lt.mpr (le_max_right ..))
  · exact h.1 hmem

/-- A round leaves one timer less that is due. -/
theorem isDue_expire (hw : w ∈ a.timers) :
    (a.expire w).IsDue v ↔ a.IsDue v ∧ v ≠ w := by
  by_cases hv : v = w
  · subst hv
    have hnot := (expired_expire hw).not_isDue mnNow_expire
    simp [hnot]
  · obtain ⟨hmem, hwatcher⟩ := kept_expire (a := a) hv
    unfold IsDue
    rw [hmem, hwatcher, mnNow_expire]
    exact (and_iff_left hv).symm

/-! ## The pass -/

/-- What a pass does. -/
structure Pass (a : EvLoop H W) (ws : List W) (a' : EvLoop H W) : Prop where
  rfeeds : a'.rfeeds = ws.reverse ++ a.rfeeds
  nodup : ws.Nodup
  mem : ∀ w, w ∈ ws ↔ a.IsDue w
  sorted : ws.Pairwise fun v w => (a.watcher v).evAt ≤ (a.watcher w).evAt
  expired : ∀ w ∈ ws, Expired a a' w
  kept : ∀ w, w ∉ ws → Kept a a' w
  mnNow : a'.mnNow = a.mnNow
  pendings : a.pendings = [] → a'.pendings = []
  none_due : ∀ w, ¬ a'.IsDue w

/-- By induction on the rounds. What is due after the first of them is due before it, and no
earlier. -/
theorem Expires.spec (h : Expires a ws a') : Pass a ws a' := by
  induction h with
  | @done a hnone =>
      have hnot (w : W) (hdue : a.IsDue w) : False := by
        obtain ⟨v, hv⟩ := exists_firstDue hdue
        exact hnone v hv
      refine ⟨rfl, List.nodup_nil, fun w => ?_, .nil, by simp, fun w _ => ⟨.rfl, rfl⟩, rfl, id,
        hnot⟩
      exact ⟨fun hw => absurd hw List.not_mem_nil, fun h => (hnot w h).elim⟩
  | @round a a' w ws hfirst _ ih =>
      obtain ⟨hw, hlt, hmin⟩ := hfirst
      have hmem (v : W) : v ∈ ws ↔ a.IsDue v ∧ v ≠ w := (ih.mem v).trans (isDue_expire hw)
      have hnot : w ∉ ws := fun h => ((hmem w).mp h).2 rfl
      have hwatcher {v : W} (hv : v ∈ ws) : (a.expire w).watcher v = a.watcher v :=
        (kept_expire ((hmem v).mp hv).2).2
      refine ⟨?_, ih.nodup.cons hnot, fun v => ?_, ?_, ?_, fun v hv => ?_, ?_, ?_, ih.none_due⟩
      · rw [ih.rfeeds, rfeeds_expire, List.reverse_cons, List.append_assoc]
        rfl
      · rw [List.mem_cons, hmem]
        constructor
        · rintro (rfl | h)
          · exact ⟨hw, hlt⟩
          · exact h.1
        · intro h
          exact or_iff_not_imp_left.mpr fun hne => ⟨h, hne⟩
      · refine List.Pairwise.cons (fun v hv => hmin v ((hmem v).mp hv).1.1) ?_
        refine ih.sorted.imp_of_mem fun hu hv hle => ?_
        rwa [hwatcher hu, hwatcher hv] at hle
      · rintro v (_ | ⟨_, hv⟩)
        · -- what has expired is kept by the rounds behind
          obtain ⟨hkmem, hkw⟩ := ih.kept w hnot
          have hexp := expired_expire hw
          unfold Expired at hexp ⊢
          rwa [hkmem, hkw]
        · have hexp := ih.expired v hv
          obtain ⟨hkmem, hkw⟩ := kept_expire (a := a) ((hmem v).mp hv).2
          unfold Expired at hexp ⊢
          rwa [hkw, mnNow_expire] at hexp
      · rw [List.mem_cons, not_or] at hv
        obtain ⟨hmem1, hw1⟩ := kept_expire (a := a) hv.1
        obtain ⟨hmem2, hw2⟩ := ih.kept v hv.2
        exact ⟨hmem2.trans hmem1, hw2.trans hw1⟩
      · rw [ih.mnNow, mnNow_expire]
      · exact fun hp => ih.pendings (pendings_expire hp)

/-- Watchers that are not pending are fed one on top of the other. -/
theorem pendings_foldl_evFeedEvent (ws : List W) (a : EvLoop H W) (hnodup : ws.Nodup)
    (hnew : ∀ w ∈ ws, w ∉ a.pendings) :
    (ws.foldl evFeedEvent a).pendings = ws.reverse ++ a.pendings := by
  induction ws generalizing a with
  | nil => rfl
  | cons w ws ih =>
      obtain ⟨hw, hnodup⟩ := List.nodup_cons.mp hnodup
      have hpend : (a.evFeedEvent w).pendings = w :: a.pendings := by
        rw [evFeedEvent, if_neg (hnew w (List.mem_cons_self ..))]
      rw [List.foldl_cons, ih _ hnodup ?_, hpend, List.reverse_cons, List.append_assoc]
      · rfl
      · intro v hv
        rw [hpend, List.mem_cons, not_or]
        exact ⟨fun heq => hw (heq ▸ hv), hnew v (List.mem_cons_of_mem w hv)⟩

/-- The watchers that are due. -/
def dueSet (a : EvLoop H W) : Finset W := a.timers.toFinset.filter a.IsDue

/-- The set has the timers that are due. -/
theorem mem_dueSet : w ∈ a.dueSet ↔ a.IsDue w := by
  rw [dueSet, Finset.mem_filter, List.mem_toFinset]
  exact and_iff_right_of_imp fun h => h.1

/-- A round leaves one watcher less that is due. -/
theorem dueSet_expire (hw : a.FirstDue w) : (a.expire w).dueSet = a.dueSet.erase w := by
  ext v
  rw [Finset.mem_erase, mem_dueSet, mem_dueSet, isDue_expire hw.1, and_comm]

end EvLoop

namespace LoopData

variable {H W : Type*} [DecidableEq W] {K : Set W} {l : LoopData H W} {a : EvLoop H W}

/-- The watchers due are entries of the heap. -/
theorem Refines.card_dueSet_le (h : l.Refines K a) : a.dueSet.card ≤ l.timercnt := by
  have hrange {w : W} (hw : w ∈ a.dueSet) := by
    obtain ⟨hK, hact⟩ := (h.timers w).mp (EvLoop.mem_dueSet.mp hw).1
    exact h.heap.mem_range hK hact
  rw [← Finset.card_range l.timercnt]
  refine Finset.card_le_card_of_injOn (fun w => l.timers.active w - HEAP0) ?_ ?_
  · intro w hw
    obtain ⟨hb, hn, -⟩ := hrange hw
    have hlt : l.timers.active w - HEAP0 < l.timercnt := by omega
    exact Finset.mem_coe.mpr (Finset.mem_range.mpr hlt)
  · intro v hv w hw heq
    obtain ⟨hbv, -, hev⟩ := hrange hv
    obtain ⟨hbw, -, hew⟩ := hrange hw
    have hact : l.timers.active v = l.timers.active w := by
      dsimp only at heq
      omega
    rw [← hev, ← hew, hact]

/-- With a round for each watcher that is due the rounds come to their end. -/
theorem Refines.reifyRounds (h : l.Refines K a) {fuel : ℕ} (hfuel : a.dueSet.card ≤ fuel) :
    ∃ l' ws a', LoopData.reifyRounds fuel l = some l' ∧ a.Expires ws a' ∧ l'.Refines K a' := by
  induction fuel generalizing l a with
  | zero =>
      have hnone : ∀ w, ¬ a.FirstDue w := by
        intro w hw
        have hmem : w ∈ a.dueSet := EvLoop.mem_dueSet.mpr ⟨hw.1, hw.2.1⟩
        rw [Finset.card_eq_zero.mp (Nat.le_zero.mp hfuel)] at hmem
        exact absurd hmem (Finset.notMem_empty w)
      have hdue : ¬ l.Due := fun hdue => hnone _ (h.firstDue hdue)
      exact ⟨l, [], a, by rw [LoopData.reifyRounds, if_neg hdue], .done hnone, h⟩
  | succ fuel ih =>
      by_cases hdue : l.Due
      · have hfirst := h.firstDue hdue
        have hcard : (a.expire (l.timers.entry HEAP0).w).dueSet.card ≤ fuel := by
          rw [EvLoop.dueSet_expire hfirst,
            Finset.card_erase_of_mem (EvLoop.mem_dueSet.mpr ⟨hfirst.1, hfirst.2.1⟩)]
          omega
        obtain ⟨l', ws, a', hl', hexp, href⟩ := ih (h.reifyRound hdue) hcard
        exact ⟨l', _, a', by rw [LoopData.reifyRounds, if_pos hdue, hl'], .round hfirst hexp, href⟩
      · have hnone : ∀ w, ¬ a.FirstDue w := fun w hw => hdue (h.due_iff.mpr ⟨w, hw⟩)
        exact ⟨l, [], a, by rw [LoopData.reifyRounds, if_neg hdue], .done hnone, h⟩

/-- The arrays between two statements of the loop: the heap and the pending watchers are in order,
and nothing waits to be fed. -/
structure Valid (K : Set W) (l : LoopData H W) : Prop where
  heap : l.HeapValid K
  pend : l.PendingValid K
  rfeedcnt : l.rfeedcnt = 0

omit [DecidableEq W] in
/-- Valid arrays hold the lists of some loop. -/
theorem Valid.refines (h : l.Valid K) : ∃ a, l.Refines K a := by
  refine ⟨⟨(List.range l.timercnt).map fun i => (l.timers.entry (HEAP0 + i)).w, [],
    pendingList l.pendings l.pendingcnt, l.mnNow, l.watcher⟩, h.heap, h.pend, fun w => ?_, rfl, ?_,
    ?_, rfl, fun w _ => rfl⟩
  · rw [List.mem_map]
    constructor
    · rintro ⟨i, hi, rfl⟩
      rw [List.mem_range] at hi
      exact (h.heap.good.index.pos_slot (HEAP0 + i) (Nat.le_add_right ..) (by omega)).1
    · rintro ⟨hK, hw⟩
      obtain ⟨hb, hn, hentry⟩ := h.heap.mem_range hK hw
      refine ⟨l.timers.active w - HEAP0, List.mem_range.mpr (by omega), ?_⟩
      rw [Nat.add_sub_cancel' hb, hentry]
  · rw [h.rfeedcnt]
    rfl
  · exact fun w hw => absurd hw List.not_mem_nil

omit [DecidableEq W] in
/-- Arrays that refine lists are valid between two passes. -/
theorem Refines.valid (h : l.Refines K a) (hr : a.rfeeds = []) : l.Valid K := by
  refine ⟨h.heap, h.pend, ?_⟩
  rw [← length_rfeedList l.rfeeds l.rfeedcnt, ← h.rfeeds, hr, List.length_nil]

omit [DecidableEq W] in
/-- Between two passes there is nothing in `rfeeds`. -/
theorem Valid.rfeeds (h : l.Valid K) (href : l.Refines K a) : a.rfeeds = [] := by
  rw [href.rfeeds, h.rfeedcnt]
  rfl

/-- What a timer is behind a pass that took it. -/
def ExpiredTo (l l' : LoopData H W) (w : W) : Prop :=
  if (l.watcher w).evRepeat ≠ 0 then
    l'.timers.active w ≠ 0 ∧ l'.watcher w = { l.watcher w with
      evAt := max ((l.watcher w).evAt + (l.watcher w).evRepeat) l.mnNow }
  else
    l'.timers.active w = 0 ∧
      l'.watcher w = { l.watcher w with evAt := (l.watcher w).evAt - l.mnNow }

/-- **A pass takes what is due, in the order of the due times.** From any valid arrays without
pending watchers `timers_reify` ends, and makes pending exactly the active watchers that were due,
each once; the order in which `ev_invoke_pending` takes them is that of their due times. Each of
them goes on to its next turn, or to now if that has passed, or ends if it does not repeat; all other
watchers stay as they are; and no active watcher is due behind it. -/
theorem timersReify_order (h : l.Valid K) (hp : l.pendingcnt = 0) {fuel : ℕ}
    (hfuel : l.timercnt ≤ fuel) :
    ∃ l' ws, l.timersReify fuel = some l' ∧ l'.Valid K ∧
      pendingList l'.pendings l'.pendingcnt = ws ∧ ws.Nodup ∧
      (∀ w, w ∈ ws ↔ w ∈ K ∧ l.timers.active w ≠ 0 ∧ (l.watcher w).evAt < l.mnNow) ∧
      ws.Pairwise (fun v w => (l.watcher v).evAt ≤ (l.watcher w).evAt) ∧
      (∀ w ∈ ws, l.ExpiredTo l' w) ∧
      (∀ w ∈ K, w ∉ ws → (l'.timers.active w ≠ 0 ↔ l.timers.active w ≠ 0) ∧
        l'.watcher w = l.watcher w) ∧
      ∀ w ∈ K, l'.timers.active w ≠ 0 → l.mnNow ≤ (l'.watcher w).evAt := by
  obtain ⟨a, href⟩ := h.refines
  obtain ⟨l₁, ws, a₁, hl₁, hexp, href₁⟩ := href.reifyRounds (le_trans href.card_dueSet_le hfuel)
  have hpass := hexp.spec
  have href' := href₁.feedReverseDone
  have hpendings : a.pendings = [] := by
    rw [href.pendings, hp]
    rfl
  have hfed : a₁.rfeeds = ws.reverse := by
    rw [hpass.rfeeds, h.rfeeds href, List.append_nil]
  obtain ⟨htimers, hwatcher, -⟩ := EvLoop.foldl_evFeedEvent a₁.rfeeds a₁
  -- twice reversed, the pass is in the order in which it was made
  have hws : a₁.feedReverseDone.pendings = ws := by
    have hfold := EvLoop.pendings_foldl_evFeedEvent a₁.rfeeds a₁
      (by rw [hfed]; exact List.nodup_reverse.mpr hpass.nodup)
      (by rw [hpass.pendings hpendings]; exact fun w _ => List.not_mem_nil)
    rw [hpass.pendings hpendings, hfed, List.reverse_reverse, List.append_nil] at hfold
    rw [EvLoop.feedReverseDone, hfed]
    exact hfold
  have hdue (w : W) : w ∈ ws ↔ w ∈ K ∧ l.timers.active w ≠ 0 ∧ (l.watcher w).evAt < l.mnNow := by
    rw [hpass.mem, EvLoop.IsDue, href.timers, and_assoc]
    refine and_congr_right fun hK => ?_
    rw [href.watcher w hK, href.mnNow]
  have hactive {w : W} (hK : w ∈ K) :
      w ∈ a₁.timers ↔ (l₁.feedReverseDone).timers.active w ≠ 0 := by
    rw [← htimers]
    exact href'.mem_timers hK
  have hwatch {w : W} (hK : w ∈ K) : a₁.watcher w = (l₁.feedReverseDone).watcher w := by
    rw [← href'.watcher w hK, ← hwatcher]
    rfl
  refine ⟨l₁.feedReverseDone, ws, by rw [timersReify, hl₁]; rfl, href'.valid rfl,
    href'.pendings.symm.trans hws, hpass.nodup, hdue, ?_, fun w hw => ?_, fun w hK hw => ?_,
    fun w hK hw => ?_⟩
  · refine hpass.sorted.imp_of_mem fun hv hw hle => ?_
    rwa [href.watcher _ ((hdue _).mp hv).1, href.watcher _ ((hdue _).mp hw).1] at hle
  · have hK := ((hdue w).mp hw).1
    have hexp := hpass.expired w hw
    unfold EvLoop.Expired at hexp
    unfold ExpiredTo
    rw [hactive hK, hwatch hK, href.watcher w hK, href.mnNow, not_not] at hexp
    exact hexp
  · obtain ⟨hmem, hkept⟩ := hpass.kept w hw
    rw [hactive hK, href.mem_timers hK] at hmem
    rw [hwatch hK, href.watcher w hK] at hkept
    exact ⟨hmem, hkept⟩
  · by_contra hlt
    refine hpass.none_due w ⟨(hactive hK).mpr hw, ?_⟩
    rw [hwatch hK, hpass.mnNow, href.mnNow]
    exact Int.not_le.mp hlt

end LoopData

/-- A new loop in which the timers below `n` are started one after the other. -/
def started (after repeat' : ℕ → ℤ) : ℕ → LoopData Unit ℕ
  | 0 => noTimers Unit ℕ
  | n + 1 => ((started after repeat' n).evTimerInit n (after n) (repeat' n) ()).evTimerStart n

/-- The heap has what was started, with the times that it was started with. -/
theorem started_refines (after repeat' : ℕ → ℤ) (n : ℕ) : ∃ a,
    (started after repeat' n).Refines {w | w < n} a ∧ (∀ w, w ∈ a.timers ↔ w < n) ∧
      a.rfeeds = [] ∧ a.mnNow = 0 ∧ ∀ w, w < n → a.watcher w = ⟨after w, repeat' w, ()⟩ := by
  induction n with
  | zero =>
      refine ⟨⟨[], [], [], 0, fun _ => ⟨0, 0, ()⟩⟩, ?_, fun w => ?_, rfl, rfl,
        fun w hw => absurd hw (Nat.not_lt_zero w)⟩
      · have hset : {w | w < 0} = (∅ : Set ℕ) := Set.eq_empty_of_forall_notMem Nat.not_lt_zero
        rw [hset]
        exact (noTimers_fresh Unit ℕ).refines fun _ => ⟨0, 0, ()⟩
      · exact iff_of_false List.not_mem_nil (Nat.not_lt_zero w)
  | succ n ih =>
      obtain ⟨a, href, htimers, hrfeeds, hnow, hwatcher⟩ := ih
      have hn : n ∉ a.timers := fun h => Nat.lt_irrefl n ((htimers n).mp h)
      have hset : insert n {w | w < n} = {w | w < n + 1} := by
        ext w
        exact or_comm.trans Nat.lt_succ_iff_lt_or_eq.symm
      have hstart := (href.evTimerInit (Nat.lt_irrefl n) (after n) (repeat' n) ()).evTimerStart
        (Set.mem_insert n _)
      rw [hset, EvLoop.evTimerStart, if_neg hn] at hstart
      refine ⟨_, hstart, fun w => ?_, hrfeeds, hnow, fun w hw => ?_⟩
      · rw [List.mem_cons, htimers]
        omega
      · by_cases hwn : w = n
        · subst hwn
          simp [hnow]
        · simp [hwn, hwatcher w (by omega)]

/-- Six timers, the last of them due first and the fourth and the first for one turn only, in a loop
that looks at the clock. -/
def sixTimers (now : ℤ) : LoopData Unit ℕ :=
  (started (1000 - 150 * ·) (fun w => if w = 0 ∨ w = 3 then 0 else 100 * w) 6).timeUpdate now

/-- All six are active, and as they were started. -/
theorem sixTimers_spec (now : ℤ) : (sixTimers now).Valid {w | w < 6} ∧
    ∀ w, w < 6 → (sixTimers now).timers.active w ≠ 0 ∧
      (sixTimers now).watcher w =
        ⟨1000 - 150 * (w : ℤ), if w = 0 ∨ w = 3 then 0 else 100 * w, ()⟩ := by
  obtain ⟨a, href, htimers, hrfeeds, -, hwatcher⟩ :=
    started_refines (1000 - 150 * ·) (fun w => if w = 0 ∨ w = 3 then 0 else 100 * w) 6
  refine ⟨(href.timeUpdate now).valid hrfeeds, fun w hw => ⟨?_, ?_⟩⟩
  · exact (href.mem_timers hw).mp ((htimers w).mpr hw)
  · exact (href.watcher w hw).symm.trans (hwatcher w hw)

/-- Three of the six are due. They are taken in the order of their times, and one of them for the last
time. -/
theorem timersReify_order_six : ∃ l', (sixTimers 600).timersReify 6 = some l' ∧
    pendingList l'.pendings l'.pendingcnt = [5, 4, 3] ∧
      (l'.watcher 5).evAt = 750 ∧ l'.timers.active 3 = 0 ∧ (l'.watcher 2).evAt = 700 := by
  obtain ⟨hvalid, hrun⟩ := sixTimers_spec 600
  obtain ⟨l', ws, hl', -, hws, hnodup, hmem, hsorted, hexp, hkept, -⟩ :=
    LoopData.timersReify_order hvalid (by rfl) (show (sixTimers 600).timercnt ≤ 6 by decide)
  have hat {w : ℕ} (hw : w < 6) : ((sixTimers 600).watcher w).evAt = 1000 - 150 * (w : ℤ) :=
    congrArg EvTimer.evAt (hrun w hw).2
  have hdue (w : ℕ) : w ∈ ws ↔ w ∈ [5, 4, 3] := by
    have hlist : w ∈ [5, 4, 3] ↔ w < 6 ∧ 1000 - 150 * (w : ℤ) < 600 := by
      simp only [List.mem_cons, List.not_mem_nil, or_false]
      omega
    rw [hmem, hlist]
    constructor
    · rintro ⟨hw, -, hlt⟩
      exact ⟨hw, (hat hw).symm.trans_lt hlt⟩
    · rintro ⟨hw, hlt⟩
      exact ⟨hw, (hrun w hw).1, (hat hw).trans_lt hlt⟩
  -- the order is that of the times, and no two of them are the same
  have heq : ws = [5, 4, 3] := by
    refine List.Perm.eq_of_pairwise (fun v w hv hw hvw hwv => ?_) hsorted ?_
      ((List.perm_ext_iff_of_nodup hnodup (by decide)).mpr hdue)
    · have hlt : v < 6 ∧ w < 6 := ⟨((hmem v).mp hv).1, ((hmem w).mp ((hdue w).mpr hw)).1⟩
      rw [hat hlt.1, hat hlt.2] at hvw hwv
      omega
    · decide
  subst heq
  have h5 := hexp 5 (by decide)
  have h3 := hexp 3 (by decide)
  rw [LoopData.ExpiredTo, (hrun _ (by decide)).2] at h5 h3
  refine ⟨l', hl', hws, congrArg EvTimer.evAt h5.2, h3.1, ?_⟩
  rw [(hkept 2 (by decide) (by decide)).2, hat (by decide)]
  rfl

end TargetSys.Timer
