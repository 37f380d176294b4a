import TargetSys.Timer.Reify

/-!
# Timers that are moved in the heap, and clocks that jump

Reference: `ev_timer_again`, `timers_reschedule`, `time_update`, `ev_now_update`, `ev_suspend` and
`ev_resume` in `third-party/libev/ev.c`.

`ev_timer_again` moves the entry of an active timer to where it belongs. It could have stopped the
timer, set its `at` and started it again, which is what `restart` does. `timers_reschedule` adds the
same to all entries in place, where taking each out and putting it in again would also do.

## Main results

* `evTimerAgain_eq_restart`: the two ways to restart a timer leave the same timers.
* `timeUpdateRealtime_remaining`: a jump of the clock takes no time from any timer, and no other step
  of it takes more than the loop may have been blocked.
* `evResume_remaining`: nor does the time for which a loop is suspended, unless there is no monotonic
  clock and the other one jumps.
-/

namespace TargetSys.Timer

/-! ## To restart a timer -/

section Restart

variable {H W : Type*} [DecidableEq W]

/-- To stop a timer, set its `at` to its `repeat`, and start it, if it repeats. -/
def EvLoop.restart (a : EvLoop H W) (w : W) : EvLoop H W :=
  let a := a.evTimerStop w
  if (a.watcher w).evRepeat ≠ 0 then
    ({ a with
      watcher := Function.update a.watcher w
        { a.watcher w with evAt := (a.watcher w).evRepeat } }).evTimerStart w
  else a

/-- The same on the arrays. -/
def LoopData.restart (l : LoopData H W) (w : W) : LoopData H W :=
  let l := l.evTimerStop w
  if (l.watcher w).evRepeat ≠ 0 then (l.setAt w (l.watcher w).evRepeat).evTimerStart w else l

namespace EvLoop

variable {a : EvLoop H W} {w : W}

/-- To stop a timer clears its pending entry anyway. -/
theorem evTimerStop_clearPending : (a.clearPending w).evTimerStop w = a.evTimerStop w := by
  simp [evTimerStop, clearPending]

/-- To restart an active timer that repeats is to put it `repeat` from now. -/
theorem restart_of_mem (hw : w ∈ a.timers) (hr : (a.watcher w).evRepeat ≠ 0) :
    a.restart w = { a.clearPending w with
      timers := w :: a.timers.filter (· ≠ w)
      watcher := Function.update a.watcher w
        { a.watcher w with evAt := (a.watcher w).evRepeat + a.mnNow } } := by
  simp [restart, evTimerStop, evTimerStart, clearPending, hw, hr]

/-- A timer that is not active is started `repeat` from now. -/
theorem restart_of_not_mem (hw : w ∉ a.timers) (hr : (a.watcher w).evRepeat ≠ 0) :
    a.restart w = ({ a.clearPending w with
      watcher := Function.update a.watcher w
        { a.watcher w with evAt := (a.watcher w).evRepeat } }).evTimerStart w := by
  simp [restart, evTimerStop, clearPending, hw, hr]

/-- Without `repeat`, a restart is a stop. -/
theorem restart_of_not_repeat (hr : (a.watcher w).evRepeat = 0) :
    a.restart w = a.evTimerStop w := by
  have hrepeat : ((a.evTimerStop w).watcher w).evRepeat = 0 := by
    unfold evTimerStop
    dsimp only
    split
    · exact hr
    · simp [clearPending, hr]
  simp [restart, hrepeat]

/-- What a restart makes of the timer. -/
theorem restart_spec : (a.restart w).rfeeds = a.rfeeds ∧ (a.restart w).mnNow = a.mnNow ∧
    w ∉ (a.restart w).pendings ∧
    ((a.watcher w).evRepeat ≠ 0 → w ∈ (a.restart w).timers ∧
      ((a.restart w).watcher w).evAt = (a.watcher w).evRepeat + a.mnNow) ∧
    ((a.watcher w).evRepeat = 0 → w ∉ (a.restart w).timers) := by
  by_cases hr : (a.watcher w).evRepeat = 0
  · rw [restart_of_not_repeat hr]
    refine ⟨rfeeds_evTimerStop, mnNow_evTimerStop, ?_, fun h => absurd hr h, fun _ => ?_⟩
    · rw [evTimerStop]
      dsimp only
      split <;> simp [clearPending]
    · rw [evTimerStop]
      dsimp only
      split
      · assumption
      · simp
  · by_cases hw : w ∈ a.timers
    · rw [restart_of_mem hw hr]
      simp [clearPending, hr]
    · rw [restart_of_not_mem hw hr]
      simp [evTimerStart, clearPending, hw, hr]

/-- A restart concerns no other timer. -/
theorem kept_restart {v : W} (hv : v ≠ w) : Kept a (a.restart w) v := by
  unfold Kept
  by_cases hr : (a.watcher w).evRepeat = 0
  · rw [restart_of_not_repeat hr, evTimerStop]
    dsimp only
    split <;> simp [clearPending, hv]
  · by_cases hw : w ∈ a.timers
    · rw [restart_of_mem hw hr]
      simp [hv]
    · rw [restart_of_not_mem hw hr]
      simp [evTimerStart, clearPending, hw, hv]

end EvLoop

namespace LoopData.Refines

variable {K : Set W} {l : LoopData H W} {a : EvLoop H W} {w : W}

/-- A stopped timer has no index. -/
theorem active_evTimerStop (h : l.Refines K a) (hK : w ∈ K) :
    (l.evTimerStop w).timers.active w = 0 := by
  have hact := (h.clearPending hK).heap.stopActive hK |>.2 w hK
  exact by_contra fun hne => (hact.mp hne).2 rfl

/-- On the arrays a restart does what it does on the lists. -/
theorem restart (h : l.Refines K a) (hK : w ∈ K) : (l.restart w).Refines K (a.restart w) := by
  have hstop := h.evTimerStop hK
  unfold LoopData.restart EvLoop.restart
  dsimp only
  rw [hstop.watcher w hK]
  split
  · have hset := hstop.setAt hK (h.active_evTimerStop hK) ((l.evTimerStop w).watcher w).evRepeat
    rw [hstop.watcher w hK] at hset
    exact hset.evTimerStart hK
  · exact hstop

/-- `ev_timer_again` moves an entry where a restart takes it out and puts it in again. -/
theorem evTimerAgain (h : l.Refines K a) (hK : w ∈ K) :
    (l.evTimerAgain w).Refines K (a.restart w) := by
  have hc := h.clearPending hK
  have hrw : ((l.clearPending w).watcher w).evRepeat = (a.watcher w).evRepeat := by
    rw [← hc.watcher w hK]
    rfl
  unfold LoopData.evTimerAgain
  dsimp only
  rw [hrw]
  by_cases hr : (a.watcher w).evRepeat ≠ 0
  · rw [if_pos hr]
    by_cases hw : w ∈ a.timers
    · -- the entry stays in the heap with its new time, and is moved where it belongs
      have hact := (hc.mem_timers hK).mp hw
      rw [if_pos hact, EvLoop.restart_of_mem hw hr, ← hc.mnNow, Int.add_comm]
      have hsifted := (hc.heap.sifting_cacheAt hK hact ((a.watcher w).evRepeat + a.mnNow)).adjustheap
        (hc.heap.entry_cacheAt hK hact _)
      refine (hc.of_sifted hK hsifted).of_mem_iff fun v => ?_
      by_cases hv : v = w
      · simp [hv, hw, EvLoop.clearPending]
      · simp [hv, EvLoop.clearPending]
    · have hact := mt (hc.mem_timers hK).mpr hw
      rw [if_neg hact, if_pos hr, EvLoop.restart_of_not_mem hw hr]
      exact (hc.setAt hK (not_not.mp hact) _).evTimerStart hK
  · rw [if_neg hr, if_neg hr, EvLoop.restart_of_not_repeat (not_not.mp hr)]
    by_cases hact : (l.clearPending w).timers.active w ≠ 0
    · rw [if_pos hact, ← EvLoop.evTimerStop_clearPending]
      exact hc.evTimerStop hK
    · have hw : w ∉ (a.clearPending w).timers := mt (hc.mem_timers hK).mp hact
      rw [if_neg hact, EvLoop.evTimerStop]
      dsimp only
      rw [if_pos hw]
      exact hc

end LoopData.Refines

namespace LoopData

variable {K : Set W} {l : LoopData H W} {a : EvLoop H W} {w : W}

/-- The same watchers are active and pending, and for the same times. -/
structure SameTimers (K : Set W) (l l' : LoopData H W) : Prop where
  active : ∀ w ∈ K, (l'.timers.active w ≠ 0 ↔ l.timers.active w ≠ 0)
  pendings : pendingList l'.pendings l'.pendingcnt = pendingList l.pendings l.pendingcnt
  mnNow : l'.mnNow = l.mnNow
  watcher : ∀ w ∈ K, l'.watcher w = l.watcher w

omit [DecidableEq W] in
/-- Two sets of arrays for one loop. -/
theorem Refines.sameTimers {l' : LoopData H W} (h : l.Refines K a) (h' : l'.Refines K a) :
    l.SameTimers K l' where
  active := fun _ hK => (h'.mem_timers hK).symm.trans (h.mem_timers hK)
  pendings := h'.pendings.symm.trans h.pendings
  mnNow := h'.mnNow.symm.trans h.mnNow
  watcher := fun w hK => (h'.watcher w hK).symm.trans (h.watcher w hK)

/-- **The short way to restart a timer.** `ev_timer_again` keeps the arrays valid and leaves the same
timers as a stop, a new `at` and a start: the timer is not pending, and it runs for `repeat` from now
or, if it does not repeat, not at all. -/
theorem evTimerAgain_eq_restart (h : l.Valid K) (hK : w ∈ K) :
    (l.evTimerAgain w).Valid K ∧ (l.evTimerAgain w).SameTimers K (l.restart w) ∧
      (l.evTimerAgain w).pending w = 0 ∧
      ((l.watcher w).evRepeat ≠ 0 → (l.evTimerAgain w).timers.active w ≠ 0 ∧
        (l.evTimerAgain w).evTimerRemaining w = (l.watcher w).evRepeat) ∧
      ((l.watcher w).evRepeat = 0 → (l.evTimerAgain w).timers.active w = 0) := by
  obtain ⟨a, href⟩ := h.refines
  have hagain := href.evTimerAgain hK
  obtain ⟨hrfeeds, hnow, hpend, hrepeat, hend⟩ := EvLoop.restart_spec (a := a) (w := w)
  rw [href.watcher w hK] at hrepeat hend
  refine ⟨hagain.valid (hrfeeds.trans (h.rfeeds href)), hagain.sameTimers (href.restart hK),
    ?_, fun hr => ?_, fun hr => ?_⟩
  · exact by_contra fun hp => hpend (hagain.mem_pendings.mpr ⟨hK, hp⟩)
  · obtain ⟨hmem, hat⟩ := hrepeat hr
    have hact := (hagain.mem_timers hK).mp hmem
    refine ⟨hact, ?_⟩
    rw [evTimerRemaining, if_pos hact, ← hagain.watcher w hK, ← hagain.mnNow, hat, hnow]
    omega
  · exact by_contra fun hact => hend hr ((hagain.mem_timers hK).mpr hact)

/-- `ev_timer_again` does not look at the clock. -/
theorem Valid.mnNow_evTimerAgain (h : l.Valid K) (hK : w ∈ K) :
    (l.evTimerAgain w).mnNow = l.mnNow := by
  obtain ⟨a, href⟩ := h.refines
  rw [← (href.evTimerAgain hK).mnNow, EvLoop.restart_spec.2.1, href.mnNow]

/-- `ev_timer_again` leaves every other timer alone. -/
theorem Valid.evTimerAgain_other {v : W} (h : l.Valid K) (hK : w ∈ K) (hv : v ∈ K) (hne : v ≠ w) :
    ((l.evTimerAgain w).timers.active v ≠ 0 ↔ l.timers.active v ≠ 0) ∧
      (l.evTimerAgain w).watcher v = l.watcher v := by
  obtain ⟨a, href⟩ := h.refines
  have hagain := href.evTimerAgain hK
  obtain ⟨htimers, hwatcher⟩ := EvLoop.kept_restart (a := a) hne
  rw [hagain.mem_timers hv, href.mem_timers hv] at htimers
  rw [hagain.watcher v hv, href.watcher v hv] at hwatcher
  exact ⟨htimers, hwatcher⟩

/-! ## Clocks that jump -/

namespace Valid

/-- A shift keeps the arrays valid. -/
theorem timersReschedule (h : l.Valid K) (adjust : ℤ) : (l.timersReschedule adjust).Valid K := by
  refine ⟨h.heap.timersReschedule adjust, ?_, ?_⟩
  · rw [h.heap.timersReschedule_eq]
    exact ⟨h.pend.slot, h.pend.pos⟩
  · rw [h.heap.timersReschedule_eq]
    exact h.rfeedcnt

omit [DecidableEq W] in
/-- A look at the clock keeps the arrays valid. -/
theorem timeUpdate (h : l.Valid K) (now : ℤ) : (l.timeUpdate now).Valid K :=
  ⟨h.heap.congr rfl rfl rfl, ⟨h.pend.slot, h.pend.pos⟩, h.rfeedcnt⟩

/-- Each active timer is adjusted once, and no other one is. -/
theorem watcher_timersReschedule (h : l.Valid K) (hK : w ∈ K) (adjust : ℤ) :
    (l.timersReschedule adjust).timers.active w = l.timers.active w ∧
      ((l.timersReschedule adjust).watcher w).evAt =
        (l.watcher w).evAt + if l.timers.active w ≠ 0 then adjust else 0 := by
  rw [h.heap.timersReschedule_eq]
  refine ⟨rfl, ?_⟩
  dsimp only [shift]
  by_cases hact : l.timers.active w ≠ 0
  · obtain ⟨hb, hn, hentry⟩ := h.heap.mem_range hK hact
    rw [if_pos ⟨⟨hb, hn⟩, hentry⟩, if_pos hact]
  · rw [if_neg hact, Int.add_zero, if_neg]
    rintro ⟨⟨hb, -⟩, -⟩
    exact hact (Nat.pos_iff_ne_zero.mp (Nat.lt_of_lt_of_le (by decide) hb))

end Valid

/-- `time_update` finds that the wall clock has jumped. -/
def Jumped (l : LoopData H W) (maxBlock now : ℤ) : Prop :=
  l.mnNow > now ∨ now > l.mnNow + maxBlock + MIN_TIMEJUMP

instance (l : LoopData H W) (maxBlock now : ℤ) : Decidable (l.Jumped maxBlock now) :=
  inferInstanceAs (Decidable (_ ∨ _))

/-- `time_update` is a look at the clock, with a shift before it if the clock has jumped. -/
theorem timeUpdateRealtime_eq {maxBlock now : ℤ} :
    l.timeUpdateRealtime maxBlock now =
      if l.Jumped maxBlock now then (l.timersReschedule (now - l.mnNow)).timeUpdate now
      else l.timeUpdate now := by
  show timeUpdate (if l.Jumped maxBlock now then _ else l) now = _
  split <;> rfl

omit [DecidableEq W] in
/-- What a timer has left, once its `at` and the time are known. -/
theorem evTimerRemaining_eq {l' : LoopData H W} {adjust : ℤ}
    (hact : l'.timers.active w = l.timers.active w)
    (hat : (l'.watcher w).evAt = (l.watcher w).evAt + if l.timers.active w ≠ 0 then adjust else 0) :
    l'.evTimerRemaining w = l.evTimerRemaining w -
      if l.timers.active w ≠ 0 then l'.mnNow - l.mnNow - adjust else 0 := by
  rw [evTimerRemaining, evTimerRemaining, hact, hat]
  split <;> omega

/-- A timer has less time by what has passed, if that was no jump. -/
theorem Valid.remaining_timeUpdateRealtime (h : l.Valid K) (hK : w ∈ K) (maxBlock now : ℤ) :
    (l.timeUpdateRealtime maxBlock now).timers.active w = l.timers.active w ∧
      (l.timeUpdateRealtime maxBlock now).evTimerRemaining w = l.evTimerRemaining w -
        if l.timers.active w ≠ 0 ∧ ¬ l.Jumped maxBlock now then now - l.mnNow else 0 := by
  rw [timeUpdateRealtime_eq]
  by_cases hjump : l.Jumped maxBlock now
  · obtain ⟨hact, hat⟩ := h.watcher_timersReschedule hK (now - l.mnNow)
    have hrem : ((l.timersReschedule (now - l.mnNow)).timeUpdate now).evTimerRemaining w =
        l.evTimerRemaining w -
          if l.timers.active w ≠ 0 then now - l.mnNow - (now - l.mnNow) else 0 :=
      evTimerRemaining_eq hact hat
    rw [Int.sub_self, ite_self] at hrem
    rw [if_pos hjump, if_neg fun hc => hc.2 hjump]
    exact ⟨hact, hrem⟩
  · have hrem : (l.timeUpdate now).evTimerRemaining w =
        l.evTimerRemaining w - if l.timers.active w ≠ 0 then now - l.mnNow - 0 else 0 :=
      evTimerRemaining_eq rfl (by rw [ite_self, Int.add_zero]; rfl)
    rw [Int.sub_zero] at hrem
    rw [if_neg hjump, hrem]
    simp only [hjump, not_false_iff, and_true]
    rfl

/-- **A jump of the clock takes no time from a timer.** Without a monotonic clock `time_update` keeps
the arrays valid whatever the clock shows, and no timer starts or ends. The time that an active one
has left stays what it was if the clock has jumped, and is otherwise less by what has passed, which
is between nothing and a second more than `max_block`. -/
theorem timeUpdateRealtime_remaining (h : l.Valid K) (maxBlock now : ℤ) :
    (l.timeUpdateRealtime maxBlock now).Valid K ∧
      (l.timeUpdateRealtime maxBlock now).mnNow = now ∧
      ∀ w ∈ K, (l.timeUpdateRealtime maxBlock now).timers.active w = l.timers.active w ∧
        (l.timers.active w = 0 →
          (l.timeUpdateRealtime maxBlock now).evTimerRemaining w = l.evTimerRemaining w) ∧
        (l.timers.active w ≠ 0 → ∃ passed,
          (l.timeUpdateRealtime maxBlock now).evTimerRemaining w = l.evTimerRemaining w - passed ∧
          if l.Jumped maxBlock now then passed = 0
          else passed = now - l.mnNow ∧ 0 ≤ passed ∧ passed ≤ maxBlock + MIN_TIMEJUMP) := by
  refine ⟨?_, rfl, fun w hK => ?_⟩
  · rw [timeUpdateRealtime_eq]
    split
    · exact (h.timersReschedule _).timeUpdate now
    · exact h.timeUpdate now
  · obtain ⟨hact, hrem⟩ := h.remaining_timeUpdateRealtime hK maxBlock now
    refine ⟨hact, fun hidle => ?_, fun hne => ⟨_, hrem, ?_⟩⟩
    · rw [hrem, if_neg fun hc => hc.1 hidle, Int.sub_zero]
    · by_cases hjump : l.Jumped maxBlock now
      · rw [if_pos hjump, if_neg fun hc => hc.2 hjump]
      · rw [if_neg hjump, if_pos ⟨hne, hjump⟩]
        unfold Jumped at hjump
        omega

/-- `ev_now_update` adjusts each active timer where it finds a jump, and no other one. -/
theorem Valid.evNowUpdate (h : l.Valid K) (haveMonotonic : Bool) (now : ℤ) :
    (l.evNowUpdate haveMonotonic now).Valid K ∧ (l.evNowUpdate haveMonotonic now).mnNow = now ∧
      ∀ w ∈ K, (l.evNowUpdate haveMonotonic now).timers.active w = l.timers.active w ∧
        ((l.evNowUpdate haveMonotonic now).watcher w).evAt = (l.watcher w).evAt +
          if l.timers.active w ≠ 0 then
            if haveMonotonic = false ∧ l.Jumped NOW_UPDATE_BLOCK now then now - l.mnNow else 0
          else 0 := by
  unfold LoopData.evNowUpdate
  cases haveMonotonic with
  | true =>
      refine ⟨h.timeUpdate now, rfl, fun w _ => ⟨rfl, ?_⟩⟩
      rw [if_neg fun hc : true = false ∧ _ => Bool.noConfusion hc.1, ite_self, Int.add_zero]
      rfl
  | false =>
      rw [if_neg Bool.false_ne_true, timeUpdateRealtime_eq]
      by_cases hjump : l.Jumped NOW_UPDATE_BLOCK now
      · rw [if_pos hjump, if_pos ⟨rfl, hjump⟩]
        exact ⟨(h.timersReschedule _).timeUpdate now, rfl,
          fun w hK => h.watcher_timersReschedule hK (now - l.mnNow)⟩
      · rw [if_neg hjump, if_neg fun hc => hjump hc.2]
        refine ⟨h.timeUpdate now, rfl, fun w _ => ⟨rfl, ?_⟩⟩
        rw [ite_self, Int.add_zero]
        rfl

/-- **A suspended loop takes no time from a timer, unless the clock is set back.** `ev_resume` gives
every active timer the time that it had left when the loop was suspended, whatever the clock shows
since. Only if the clock is not a monotonic one and has jumped, which for `ev_now_update` means back,
or further ahead than `1e100` seconds, the timers are adjusted twice: by `time_update`, and once
more. Then they have as much more or less left as the jump was wide. -/
theorem evResume_remaining (h : l.Valid K) (haveMonotonic : Bool) (now : ℤ) :
    (l.evResume haveMonotonic now).Valid K ∧ (l.evResume haveMonotonic now).mnNow = now ∧
      ∀ w ∈ K, (l.evResume haveMonotonic now).timers.active w = l.timers.active w ∧
        (l.timers.active w = 0 →
          (l.evResume haveMonotonic now).evTimerRemaining w = l.evTimerRemaining w) ∧
        (l.timers.active w ≠ 0 →
          (l.evResume haveMonotonic now).evTimerRemaining w = l.evTimerRemaining w +
            if haveMonotonic = false ∧ l.Jumped NOW_UPDATE_BLOCK now then now - l.mnNow else 0) := by
  obtain ⟨hvalid, hmn, hupdate⟩ := h.evNowUpdate haveMonotonic now
  unfold evResume
  dsimp only
  rw [hmn]
  generalize l.evNowUpdate haveMonotonic now = l₁ at hvalid hmn hupdate ⊢
  have hnow : (l₁.timersReschedule (now - l.mnNow)).mnNow = now := by
    rw [hvalid.heap.timersReschedule_eq]
    exact hmn
  refine ⟨hvalid.timersReschedule _, hnow, fun w hK => ?_⟩
  obtain ⟨hact₁, hat₁⟩ := hupdate w hK
  obtain ⟨hact₂, hat₂⟩ := hvalid.watcher_timersReschedule hK (now - l.mnNow)
  rw [hact₁] at hact₂ hat₂
  rw [hat₁] at hat₂
  refine ⟨hact₂, fun hidle => ?_, fun hne => ?_⟩
  · rw [if_neg (not_not.mpr hidle), if_neg (not_not.mpr hidle)] at hat₂
    rw [evTimerRemaining, evTimerRemaining, hact₂, if_neg (not_not.mpr hidle), hat₂]
    omega
  · rw [if_pos hne, if_pos hne] at hat₂
    rw [evTimerRemaining, evTimerRemaining, hact₂, if_pos hne, if_pos hne, hat₂, hnow]
    omega

end LoopData

end Restart

/-- What each of the six timers has left. -/
theorem sixTimers_remaining {w : ℕ} (hw : w < 6) (now : ℤ) :
    (sixTimers now).evTimerRemaining w = 1000 - 150 * (w : ℤ) - now := by
  obtain ⟨hact, hwatcher⟩ := (sixTimers_spec now).2 w hw
  rw [LoopData.evTimerRemaining, if_pos hact, hwatcher]
  rfl

/-- The timer at the root has its half second again, and the root goes to the one that is due
next. -/
theorem evTimerAgain_eq_restart_six : ((sixTimers 100).evTimerAgain 5).evTimerRemaining 5 = 500 ∧
    (((sixTimers 100).evTimerAgain 5).timers.entry HEAP0).w = 4 := by
  obtain ⟨hvalid, hrun⟩ := sixTimers_spec 100
  obtain ⟨hvalid', -, -, hagain, -⟩ := LoopData.evTimerAgain_eq_restart (w := 5) hvalid (by decide)
  obtain ⟨hact, hrem⟩ := hagain (by decide)
  have hat (w : ℕ) (hw : w < 6) (hne : w ≠ 5) :
      (((sixTimers 100).evTimerAgain 5).watcher w).evAt = 1000 - 150 * (w : ℤ) := by
    rw [(hvalid.evTimerAgain_other (by decide) hw hne).2, (hrun w hw).2]
  have hat5 : (((sixTimers 100).evTimerAgain 5).watcher 5).evAt = 600 := by
    rw [LoopData.evTimerRemaining, if_pos hact, hvalid.mnNow_evTimerAgain (by decide)] at hrem
    exact (Int.sub_eq_iff_eq_add.mp hrem)
  have hact4 := (hvalid.evTimerAgain_other (w := 5) (v := 4) (by decide) (by decide)
    (by decide)).1.mpr (hrun 4 (by decide)).1
  have hcnt : ((sixTimers 100).evTimerAgain 5).timercnt ≠ 0 := by
    have hrange := hvalid'.heap.mem_range (w := 5) (by decide) hact
    omega
  have hroot := hvalid'.heap.root_mem hcnt
  have hle := hvalid'.heap.root_le (w := 4) (by decide) hact4
  generalize (((sixTimers 100).evTimerAgain 5).timers.entry HEAP0).w = r at hroot hle ⊢
  rw [hat 4 (by decide) (by decide)] at hle
  have hlt : r < 6 := hroot
  refine ⟨hrem, by_contra fun hne => ?_⟩
  by_cases h5 : r = 5
  · rw [h5, hat5] at hle
    omega
  · rw [hat r hlt h5] at hle
    omega

/-- Six timers have what they had behind a jump to yesterday, and 100 ms less behind a wait of
100 ms. -/
theorem timeUpdateRealtime_remaining_six :
    (List.range 6).map ((sixTimers 0).timeUpdateRealtime 200 (-86400000)).evTimerRemaining =
        [1000, 850, 700, 550, 400, 250] ∧
      (List.range 6).map ((sixTimers 0).timeUpdateRealtime 200 100).evTimerRemaining =
        [900, 750, 600, 450, 300, 150] := by
  obtain ⟨hvalid, hrun⟩ := sixTimers_spec 0
  have hjump (w : ℕ) (hw : w ∈ List.range 6) :
      ((sixTimers 0).timeUpdateRealtime 200 (-86400000)).evTimerRemaining w =
        1000 - 150 * (w : ℤ) := by
    rw [List.mem_range] at hw
    obtain ⟨-, -, hsix⟩ := LoopData.timeUpdateRealtime_remaining hvalid 200 (-86400000)
    obtain ⟨passed, heq, hpassed⟩ := (hsix w hw).2.2 (hrun w hw).1
    rw [if_pos (by decide)] at hpassed
    rw [heq, hpassed, sixTimers_remaining hw]
    omega
  have hwait (w : ℕ) (hw : w ∈ List.range 6) :
      ((sixTimers 0).timeUpdateRealtime 200 100).evTimerRemaining w = 900 - 150 * (w : ℤ) := by
    rw [List.mem_range] at hw
    obtain ⟨-, -, hsix⟩ := LoopData.timeUpdateRealtime_remaining hvalid 200 100
    obtain ⟨passed, heq, hpassed⟩ := (hsix w hw).2.2 (hrun w hw).1
    rw [if_neg (by decide)] at hpassed
    have hnow : (sixTimers 0).mnNow = 0 := rfl
    rw [heq, hpassed.1, sixTimers_remaining hw, hnow]
    omega
  exact ⟨List.map_congr_left hjump, List.map_congr_left hwait⟩

/-- Six timers of a loop that is suspended 100 ms behind its start have what they had then when it is
resumed an hour later. If the wall clock is set back by 10 seconds meanwhile, and there is no other,
they have 10 seconds less, and all of them are overdue. -/
theorem evResume_remaining_six :
    (List.range 6).map
        (((sixTimers 0).evSuspend true 100).evResume true 3600000).evTimerRemaining =
        [900, 750, 600, 450, 300, 150] ∧
      (List.range 6).map
        (((sixTimers 0).evSuspend false 100).evResume false (-9900)).evTimerRemaining =
        [-9100, -9250, -9400, -9550, -9700, -9850] := by
  obtain ⟨hvalid, hrun⟩ := sixTimers_spec 100
  -- 100 ms are no jump
  have hsuspend : (sixTimers 0).evSuspend false 100 = sixTimers 100 := by
    show LoopData.timeUpdateRealtime _ _ _ = _
    rw [LoopData.timeUpdateRealtime_eq, if_neg (by decide)]
    rfl
  have hkept (w : ℕ) (hw : w ∈ List.range 6) :
      ((sixTimers 100).evResume true 3600000).evTimerRemaining w = 900 - 150 * (w : ℤ) := by
    rw [List.mem_range] at hw
    obtain ⟨-, -, hsix⟩ := LoopData.evResume_remaining hvalid true 3600000
    rw [(hsix w hw).2.2 (hrun w hw).1, if_neg (by decide), sixTimers_remaining hw]
    omega
  have hback (w : ℕ) (hw : w ∈ List.range 6) :
      ((sixTimers 100).evResume false (-9900)).evTimerRemaining w = -9100 - 150 * (w : ℤ) := by
    rw [List.mem_range] at hw
    obtain ⟨-, -, hsix⟩ := LoopData.evResume_remaining hvalid false (-9900)
    have hnow : (sixTimers 100).mnNow = 100 := rfl
    rw [(hsix w hw).2.2 (hrun w hw).1, if_pos (by decide), sixTimers_remaining hw, hnow]
    omega
  rw [hsuspend]
  exact ⟨List.map_congr_left hkept, List.map_congr_left hback⟩

end TargetSys.Timer
