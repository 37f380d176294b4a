import TargetSys.Timer.Adjust

/-!
# How long a loop blocks

Reference: the blocking time in `ev_run`, in `third-party/libev/ev.c`.

The loop waits for the root of the heap, but not less than `timeout_blocktime`, nor than what the
backend can wait. `io_blocktime` moves a part of it into `ev_sleep`, which no file descriptor ends.

The sum of both is what `time_update` is told. `sleeptime` can be less than nothing, when callbacks
took longer than `io_blocktime`: then there is no `ev_sleep`, and the sum is less than what the loop
may wait.

## Main results

* `blocktime_remaining`: the loop waits for the first timer, and for no other.
* `timeUpdateRealtime_blocktime`: when it takes its own wait for a jump of the clock.
-/

namespace TargetSys.Timer

/-- `MAX_BLOCKTIME`. -/
def MAX_BLOCKTIME : ℤ := 59743

/-- What `ev_run` looks at besides the timers to find how long to block. `mayWait` is
`!(flags & EVRUN_NOWAIT || idleall || pipe_write_skipped)`. -/
structure BlockSettings where
  mayWait : Bool
  timeoutBlocktime : ℤ
  ioBlocktime : ℤ
  backendMintime : ℤ

namespace LoopData

variable {H W : Type*} {K : Set W} {l : LoopData H W} {w : W}

/-- `waittime`, before a part of it becomes `sleeptime`. -/
def waittime (l : LoopData H W) (b : BlockSettings) : ℤ :=
  let waittime := MAX_BLOCKTIME
  let waittime :=
    if l.timercnt ≠ 0 then
      let to' := (l.timers.entry HEAP0).evAt - l.mnNow
      if waittime > to' then to' else waittime
    else waittime
  let waittime := if waittime < b.timeoutBlocktime then b.timeoutBlocktime else waittime
  if waittime < b.backendMintime then b.backendMintime else waittime

/-- `waittime` and `sleeptime`, as they are at the poll. -/
def blocktime (l : LoopData H W) (b : BlockSettings) (prevMnNow : ℤ) : ℤ × ℤ :=
  if b.mayWait ∧ l.activecnt ≠ 0 then
    let waittime := l.waittime b
    if b.ioBlocktime ≠ 0 then
      let sleeptime := b.ioBlocktime - (l.mnNow - prevMnNow)
      let sleeptime :=
        if sleeptime > waittime - b.backendMintime then waittime - b.backendMintime else sleeptime
      if sleeptime > 0 then (waittime - sleeptime, sleeptime) else (waittime, sleeptime)
    else (waittime, 0)
  else (0, 0)

/-- What the loop may be blocked for, in `ev_sleep` and in the poll. -/
def blocked (l : LoopData H W) (b : BlockSettings) (prevMnNow : ℤ) : ℤ :=
  (l.blocktime b prevMnNow).1 + max (l.blocktime b prevMnNow).2 0

/-- What `time_update` is told behind the poll. -/
def maxBlock (l : LoopData H W) (b : BlockSettings) (prevMnNow : ℤ) : ℤ :=
  (l.blocktime b prevMnNow).1 + (l.blocktime b prevMnNow).2

/-! ## The first timer -/

variable {b : BlockSettings} {prevMnNow : ℤ}

/-- The loop waits at least as long as the backend can. -/
theorem backendMintime_le_waittime : b.backendMintime ≤ l.waittime b := by
  unfold waittime
  dsimp only
  split <;> omega

/-- The loop waits no longer than `MAX_BLOCKTIME`, but for what the settings ask for. -/
theorem waittime_le_max :
    l.waittime b ≤ max MAX_BLOCKTIME (max b.timeoutBlocktime b.backendMintime) := by
  unfold waittime
  dsimp only
  split_ifs <;> omega

/-- The settings only make the wait longer, and what it is besides is the time of the root. -/
theorem waittime_root (hn : l.timercnt ≠ 0) :
    l.waittime b ≤ max ((l.timers.entry HEAP0).evAt - l.mnNow)
        (max b.timeoutBlocktime b.backendMintime) ∧
      min MAX_BLOCKTIME ((l.timers.entry HEAP0).evAt - l.mnNow) ≤ l.waittime b := by
  unfold waittime
  dsimp only
  rw [if_pos hn]
  split_ifs <;> omega

/-- Without timers it waits that long. -/
theorem MAX_BLOCKTIME_le_waittime (hn : l.timercnt = 0) : MAX_BLOCKTIME ≤ l.waittime b := by
  unfold waittime
  dsimp only
  rw [if_neg (not_not.mpr hn)]
  split_ifs <;> omega

/-- `io_blocktime` changes where the loop waits, and not how long. -/
theorem blocked_eq (prevMnNow : ℤ) (hwait : b.mayWait ∧ l.activecnt ≠ 0) :
    l.blocked b prevMnNow = l.waittime b ∧
      b.backendMintime ≤ (l.blocktime b prevMnNow).1 := by
  have hmin : b.backendMintime ≤ l.waittime b := backendMintime_le_waittime
  unfold blocked blocktime
  dsimp only
  rw [if_pos hwait]
  split_ifs <;> dsimp only <;> omega

/-- What an active timer has left is counted from the time known to the loop. -/
theorem evTimerRemaining_of_active (hw : l.timers.active w ≠ 0) :
    l.evTimerRemaining w = (l.watcher w).evAt - l.mnNow := by
  rw [evTimerRemaining, if_pos hw]

/-- **The loop waits for the first timer.** With any settings, a loop that waits is blocked no longer
than any active timer has left, or than the settings ask for, and not for longer than
`MAX_BLOCKTIME` or what they ask for. It leaves the backend no less than its minimum. And it does
not wake up for nothing: it waits for `MAX_BLOCKTIME`, or until some active timer ends. -/
theorem blocktime_remaining (h : l.Valid K) (b : BlockSettings) (prevMnNow : ℤ)
    (hwait : b.mayWait ∧ l.activecnt ≠ 0) :
    (∀ w ∈ K, l.timers.active w ≠ 0 → l.blocked b prevMnNow ≤
      max (l.evTimerRemaining w) (max b.timeoutBlocktime b.backendMintime)) ∧
      l.blocked b prevMnNow ≤ max MAX_BLOCKTIME (max b.timeoutBlocktime b.backendMintime) ∧
      b.backendMintime ≤ (l.blocktime b prevMnNow).1 ∧
      (MAX_BLOCKTIME ≤ l.blocked b prevMnNow ∨ ∃ w ∈ K, l.timers.active w ≠ 0 ∧
        l.evTimerRemaining w ≤ l.blocked b prevMnNow) := by
  obtain ⟨heq, hmin⟩ := blocked_eq prevMnNow hwait
  rw [heq]
  refine ⟨fun w hK hw => ?_, waittime_le_max, hmin, ?_⟩
  · obtain ⟨hb, hn, -⟩ := h.heap.mem_range hK hw
    -- no active timer ends before the one at the root
    have hcnt : l.timercnt ≠ 0 := by omega
    have hroot : (l.timers.entry HEAP0).evAt ≤ (l.watcher w).evAt := by
      rw [h.heap.cache HEAP0 (Nat.le_refl _) (by omega)]
      exact h.heap.root_le hK hw
    rw [evTimerRemaining_of_active hw]
    refine le_trans (waittime_root hcnt).1 (max_le_max_right _ (Int.sub_le_sub_right hroot _))
  · by_cases hn : l.timercnt = 0
    · exact .inl (MAX_BLOCKTIME_le_waittime hn)
    · rcases min_le_iff.mp (waittime_root (b := b) hn).2 with hmax | hroot
      · exact .inl hmax
      · refine .inr ⟨_, h.heap.root_mem hn, h.heap.root_active_ne_zero hn, ?_⟩
        rw [evTimerRemaining_of_active (h.heap.root_active_ne_zero hn),
          ← h.heap.cache HEAP0 (Nat.le_refl _) (by omega)]
        exact hroot

/-! ## The wait as a jump of the clock -/

/-- The callbacks before a wait and the wait itself together took over a second more than
`waittime` and `io_blocktime`. -/
def Overslept (l : LoopData H W) (b : BlockSettings) (prevMnNow slept : ℤ) : Prop :=
  b.ioBlocktime ≠ 0 ∧
    l.mnNow - prevMnNow + slept > l.waittime b + b.ioBlocktime + MIN_TIMEJUMP

/-- A wait is taken for a jump exactly if the loop has overslept. -/
theorem jumped_blocktime (hwait : b.mayWait ∧ l.activecnt ≠ 0) {slept : ℤ} (hpos : 0 ≤ slept)
    (hle : slept ≤ l.blocked b prevMnNow) :
    l.Jumped (l.maxBlock b prevMnNow) (l.mnNow + slept) ↔ l.Overslept b prevMnNow slept := by
  have hmin : b.backendMintime ≤ l.waittime b := backendMintime_le_waittime
  rw [(blocked_eq prevMnNow hwait).1] at hle
  unfold Jumped Overslept maxBlock blocktime MIN_TIMEJUMP
  dsimp only
  rw [if_pos hwait]
  split_ifs <;> dsimp only <;> omega

variable [DecidableEq W]

/-- **A loop may take its own wait for a jump of the clock.** Without a monotonic clock, and when it
has slept no longer than it asked for, the timers have the time taken off them that the loop has
slept, except when `io_blocktime` is set and the callbacks before took so long that they and the wait
exceed it and `waittime` by over a second. Then every timer goes off later by the time slept. -/
theorem timeUpdateRealtime_blocktime (h : l.Valid K) (b : BlockSettings) (prevMnNow slept : ℤ)
    (hwait : b.mayWait ∧ l.activecnt ≠ 0) (hpos : 0 < slept)
    (hle : slept ≤ l.blocked b prevMnNow) (hK : w ∈ K) (hw : l.timers.active w ≠ 0) :
    let l' := l.timeUpdateRealtime (l.maxBlock b prevMnNow) (l.mnNow + slept)
    (l'.evTimerRemaining w = l.evTimerRemaining w - slept ↔ ¬ l.Overslept b prevMnNow slept) ∧
      (l.Overslept b prevMnNow slept → l'.evTimerRemaining w = l.evTimerRemaining w) := by
  intro l'
  obtain ⟨-, hrem⟩ := h.remaining_timeUpdateRealtime hK (l.maxBlock b prevMnNow) (l.mnNow + slept)
  rw [← jumped_blocktime hwait (Int.le_of_lt hpos) hle]
  have hadd : l.mnNow + slept - l.mnNow = slept := by omega
  by_cases hjump : l.Jumped (l.maxBlock b prevMnNow) (l.mnNow + slept)
  · rw [if_neg fun hc => hc.2 hjump, Int.sub_zero] at hrem
    refine ⟨⟨fun hsub => ?_, fun hn => absurd hjump hn⟩, fun _ => hrem⟩
    have hboth := hrem.symm.trans hsub
    omega
  · rw [if_pos ⟨hw, hjump⟩, hadd] at hrem
    exact ⟨⟨fun _ => hjump, fun _ => hrem⟩, fun hc => absurd hc hjump⟩

end LoopData

/-- Callbacks that took twenty seconds, with an `io_blocktime` of ten milliseconds. The loop waits for
the one of six timers that is due first. -/
theorem blocktime_remaining_six : (sixTimers 0).blocked ⟨true, 0, 10, 1⟩ (-20000) = 250 ∧
    0 < ((sixTimers 0).blocktime ⟨true, 0, 10, 1⟩ (-20000)).1 := by
  obtain ⟨hvalid, hrun⟩ := sixTimers_spec 0
  obtain ⟨hle, -, hmin, hge⟩ := LoopData.blocktime_remaining hvalid ⟨true, 0, 10, 1⟩ (-20000)
    (by decide)
  refine ⟨Int.le_antisymm ?_ ?_, hmin⟩
  · have hfirst := hle 5 (by decide) (hrun 5 (by decide)).1
    rw [sixTimers_remaining (by decide)] at hfirst
    exact hfirst
  · rcases hge with hmax | ⟨w, hw, -, hrem⟩
    · exact le_trans (by decide) hmax
    · rw [sixTimers_remaining hw] at hrem
      have hlt : w < 6 := hw
      omega

/-- Each of the six has as much left behind a wait of 200 ms as before it. -/
theorem timeUpdateRealtime_blocktime_six :
    (List.range 6).map ((sixTimers 0).timeUpdateRealtime
      ((sixTimers 0).maxBlock ⟨true, 0, 10, 1⟩ (-20000)) (0 + 200)).evTimerRemaining =
        [1000, 850, 700, 550, 400, 250] := by
  obtain ⟨hvalid, hrun⟩ := sixTimers_spec 0
  have hroot : ((sixTimers 0).timers.entry HEAP0).evAt = 250 := by
    have hmem := hvalid.heap.root_mem (by decide)
    have hle := hvalid.heap.root_le (w := 5) (by decide) (hrun 5 (by decide)).1
    rw [hvalid.heap.cache HEAP0 (by decide) (by decide)]
    rw [(hrun _ hmem).2, (hrun 5 (by decide)).2] at hle
    rw [(hrun _ hmem).2]
    generalize ((sixTimers 0).timers.entry HEAP0).w = r at hmem hle ⊢
    have hlt : r < 6 := hmem
    dsimp only at hle ⊢
    omega
  have hwait : (sixTimers 0).waittime ⟨true, 0, 10, 1⟩ = 250 := by
    unfold LoopData.waittime
    rw [hroot]
    rfl
  have hlate (w : ℕ) (hw : w ∈ List.range 6) : ((sixTimers 0).timeUpdateRealtime
      ((sixTimers 0).maxBlock ⟨true, 0, 10, 1⟩ (-20000)) (0 + 200)).evTimerRemaining w =
        1000 - 150 * (w : ℤ) := by
    rw [List.mem_range] at hw
    have hkept := (LoopData.timeUpdateRealtime_blocktime hvalid ⟨true, 0, 10, 1⟩ (-20000) 200
      (by decide) (by decide) (by rw [(LoopData.blocked_eq _ (by decide)).1, hwait]; decide) hw
      (hrun w hw).1).2 ⟨by decide, by rw [hwait]; decide⟩
    rw [sixTimers_remaining hw, Int.sub_zero] at hkept
    exact hkept
  exact List.map_congr_left hlate

end TargetSys.Timer
