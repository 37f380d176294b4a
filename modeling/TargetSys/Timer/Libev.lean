import Mathlib.Data.Int.Basic
import Mathlib.Logic.Function.Basic
import Mathlib.Tactic.Common
import Mathlib.Data.List.Basic

/-!
# The timers of a libev loop

Reference: `third-party/libev/ev.c`.

The part of `struct ev_loop` that `ev_timer` watchers live in: the heap of active timers, the pending
list, and `mn_now`, the time the loop last looked at the clock. Time is in exact milliseconds. The
heap is the list of its members: its order only decides which of several due timers is taken first,
and a caller of `expire` may take any that no other precedes.

A watcher is *referenced* when the loop holds a pointer to it. Starting a watcher adds a reference,
stopping it removes every one, and expiry only moves references from one list to another.
-/

namespace TargetSys.Timer

/-- `ev_timer`, with the fields `at`, `repeat` and `data`. `H` is the type of timer handles. -/
structure EvTimer (H : Type*) where
  evAt : ℤ
  evRepeat : ℤ
  data : H

/-- The members of `struct ev_loop` that concern timers, and the memory the watchers are in. The
head of `pendings` is the entry of highest index, and the head of `rfeeds` the newest. -/
structure EvLoop (H W : Type*) where
  timers : List W
  rfeeds : List W
  pendings : List W
  mnNow : ℤ
  watcher : W → EvTimer H

namespace EvLoop

variable {H W : Type*} [DecidableEq W] (l : EvLoop H W) (w v : W)

/-- The loop holds a pointer to the watcher. -/
def Refers : Prop := w ∈ l.timers ∨ w ∈ l.pendings ∨ w ∈ l.rfeeds

/-- `ev_timer_start`. -/
def evTimerStart : EvLoop H W :=
  if w ∈ l.timers then l
  else { l with
    timers := w :: l.timers
    watcher := Function.update l.watcher w
      { l.watcher w with evAt := (l.watcher w).evAt + l.mnNow } }

/-- `clear_pending`. -/
def clearPending : EvLoop H W := { l with pendings := l.pendings.filter (· ≠ w) }

/-- `ev_timer_stop`. -/
def evTimerStop : EvLoop H W :=
  let l := l.clearPending w
  if w ∉ l.timers then l
  else { l with
    timers := l.timers.filter (· ≠ w)
    watcher := Function.update l.watcher w
      { l.watcher w with evAt := (l.watcher w).evAt - l.mnNow } }

/-- `time_update` at time `now` of the monotonic clock. -/
def timeUpdate (now : ℤ) : EvLoop H W := { l with mnNow := now }

/-- The watcher is due, and no other active one is due earlier. -/
def FirstDue : Prop :=
  w ∈ l.timers ∧ (l.watcher w).evAt < l.mnNow ∧
    ∀ v ∈ l.timers, (l.watcher w).evAt ≤ (l.watcher v).evAt

/-- One round of the loop in `timers_reify`: reschedule the timer or stop it, then remember it. -/
def expire : EvLoop H W :=
  let l :=
    if (l.watcher w).evRepeat ≠ 0 then
      { l with watcher := Function.update l.watcher w { l.watcher w with
          evAt := max ((l.watcher w).evAt + (l.watcher w).evRepeat) l.mnNow } }
    else l.evTimerStop w
  { l with rfeeds := w :: l.rfeeds }

/-- `ev_feed_event`. -/
def evFeedEvent : EvLoop H W := if w ∈ l.pendings then l else { l with pendings := w :: l.pendings }

/-- `feed_reverse_done`. -/
def feedReverseDone : EvLoop H W := { l.rfeeds.foldl evFeedEvent l with rfeeds := [] }

/-! ## What the operations do to the references

One lemma for each operation, and one that says that none of them touches `data`. -/

variable {l w v}

/-- A start adds a reference to its watcher. -/
theorem refers_evTimerStart : (l.evTimerStart w).Refers v ↔ l.Refers v ∨ v = w := by
  rw [evTimerStart]
  split
  · rename_i hw
    refine ⟨.inl, ?_⟩
    rintro (h | rfl)
    · exact h
    · exact .inl hw
  · simp only [Refers, List.mem_cons]
    tauto

/-- A stop takes the references to its watcher away, as long as `rfeeds` has none. -/
theorem refers_evTimerStop (hw : w ∉ l.rfeeds) :
    (l.evTimerStop w).Refers v ↔ l.Refers v ∧ v ≠ w := by
  have hv : v ∈ l.rfeeds → v ≠ w := fun hv h => hw (h ▸ hv)
  rw [evTimerStop]
  split
  · rename_i hw'
    have hv' : v ∈ l.timers → v ≠ w := fun hv h => hw' (h ▸ hv)
    simp only [Refers, clearPending, List.mem_filter, decide_eq_true_eq]
    tauto
  · simp only [Refers, clearPending, List.mem_filter, decide_eq_true_eq]
    tauto

/-- A round moves a reference, and adds none to a watcher that had none. -/
theorem refers_expire (hw : w ∈ l.timers) : (l.expire w).Refers v ↔ l.Refers v := by
  have hv : v = w → v ∈ l.timers := fun h => h ▸ hw
  rw [expire]
  split
  · simp only [Refers, List.mem_cons]
    tauto
  · simp only [evTimerStop, clearPending, hw, not_true_eq_false, if_false, Refers, List.mem_filter,
      decide_eq_true_eq, List.mem_cons]
    tauto

/-- The watcher is pending, and the others are as before. -/
theorem mem_pendings_evFeedEvent : v ∈ (l.evFeedEvent w).pendings ↔ v ∈ l.pendings ∨ v = w := by
  rw [evFeedEvent]
  split
  · rename_i hw
    have hv : v = w → v ∈ l.pendings := fun h => h ▸ hw
    tauto
  · simp only [List.mem_cons]
    tauto

/-- Feeding leaves the heap alone. -/
@[simp] theorem timers_evFeedEvent : (l.evFeedEvent w).timers = l.timers := by
  rw [evFeedEvent]
  split <;> rfl

/-- Feeding leaves the watchers alone. -/
@[simp] theorem watcher_evFeedEvent : (l.evFeedEvent w).watcher = l.watcher := by
  rw [evFeedEvent]
  split <;> rfl

/-- Feeding a list of watchers makes each of them pending. -/
theorem foldl_evFeedEvent (ws : List W) (l : EvLoop H W) :
    (ws.foldl evFeedEvent l).timers = l.timers ∧ (ws.foldl evFeedEvent l).watcher = l.watcher ∧
      ∀ v, v ∈ (ws.foldl evFeedEvent l).pendings ↔ v ∈ l.pendings ∨ v ∈ ws := by
  induction ws generalizing l with
  | nil => simp
  | cons w ws ih =>
      obtain ⟨ht, hw, hp⟩ := ih (l.evFeedEvent w)
      refine ⟨ht.trans timers_evFeedEvent, hw.trans watcher_evFeedEvent, fun v => ?_⟩
      simp only [List.foldl_cons, hp, mem_pendings_evFeedEvent, List.mem_cons, or_assoc]

/-- References go from `rfeeds` to `pendings`. -/
theorem refers_feedReverseDone : l.feedReverseDone.Refers v ↔ l.Refers v := by
  obtain ⟨ht, -, hp⟩ := foldl_evFeedEvent l.rfeeds l
  simp only [Refers, feedReverseDone, ht, hp, List.not_mem_nil, or_false]

/-- A start keeps `data`. -/
@[simp] theorem data_evTimerStart :
    ((l.evTimerStart w).watcher v).data = (l.watcher v).data := by
  rw [evTimerStart]
  split
  · rfl
  · by_cases hv : v = w <;> simp [hv]

/-- A stop keeps `data`. -/
@[simp] theorem data_evTimerStop : ((l.evTimerStop w).watcher v).data = (l.watcher v).data := by
  rw [evTimerStop]
  split
  · rfl
  · by_cases hv : v = w <;> simp [clearPending, hv]

/-- A round keeps `data`. -/
@[simp] theorem data_expire : ((l.expire w).watcher v).data = (l.watcher v).data := by
  rw [expire]
  split
  · by_cases hv : v = w <;> simp [hv]
  · exact data_evTimerStop

/-- The end of a pass keeps `data`. -/
@[simp] theorem data_feedReverseDone :
    (l.feedReverseDone.watcher v).data = (l.watcher v).data := by
  obtain ⟨-, hw, -⟩ := foldl_evFeedEvent l.rfeeds l
  simp only [feedReverseDone, hw]

/-- A start adds nothing to `rfeeds`. -/
@[simp] theorem rfeeds_evTimerStart : (l.evTimerStart w).rfeeds = l.rfeeds := by
  rw [evTimerStart]
  split <;> rfl

/-- A stop leaves `rfeeds` alone. -/
@[simp] theorem rfeeds_evTimerStop : (l.evTimerStop w).rfeeds = l.rfeeds := by
  rw [evTimerStop]
  split <;> rfl

/-- A start does not look at the clock. -/
@[simp] theorem mnNow_evTimerStart : (l.evTimerStart w).mnNow = l.mnNow := by
  rw [evTimerStart]
  split <;> rfl

/-- Nor does a stop. -/
@[simp] theorem mnNow_evTimerStop : (l.evTimerStop w).mnNow = l.mnNow := by
  rw [evTimerStop]
  split <;> rfl

/-- Nor does a round. -/
@[simp] theorem mnNow_expire : (l.expire w).mnNow = l.mnNow := by
  rw [expire]
  split
  · rfl
  · exact mnNow_evTimerStop

omit [DecidableEq W] in
/-- The only active timer is the first one due as soon as it is due. -/
theorem firstDue_of_singleton (h : l.timers = [w]) {a b : ℤ} (ha : (l.watcher w).evAt = a)
    (hb : l.mnNow = b) (hlt : a < b) : l.FirstDue w := by
  refine ⟨by simp [h], by rwa [ha, hb], fun v hv => ?_⟩
  rw [h, List.mem_singleton] at hv
  exact hv ▸ Int.le_refl _

omit [DecidableEq W] in
/-- At the very time that is in `at`, the only active timer is not due yet. -/
theorem not_firstDue_of_singleton (h : l.timers = [w]) {a : ℤ} (ha : (l.watcher w).evAt = a)
    (hb : l.mnNow = a) (v : W) : ¬ l.FirstDue v := by
  rintro ⟨hv, hlt, -⟩
  rw [h, List.mem_singleton] at hv
  rw [hv, ha, hb] at hlt
  exact Int.lt_irrefl _ hlt

end EvLoop

end TargetSys.Timer
