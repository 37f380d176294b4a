import Mathlib.Algebra.Group.Int.Defs
import Mathlib.Algebra.Group.Nat.Defs
import TargetSys.Timer.Heap
import TargetSys.Timer.Libev

/-!
# The timers of a libev loop, as the arrays they are in

Reference: `third-party/libev/ev.c`.

`EvLoop` says which watchers are active and which are pending. Here is what `struct ev_loop` holds to
know it: the heap `timers`, the array `pendings` with the member `pending` of each watcher as its
inverse, and the array `rfeeds`. The arrays grow by `array_needsize`, and hold anything behind their
counts. `pendings` is that of priority 0, which `ev_init` gives to every watcher.

A pending watcher that is stopped leaves a gap: its entry becomes `&pending_w`, whose callback does
nothing.

## Main results

* `le_arrayNextsize`, `nextsizeFits`: an array that grows has room for what it grew for, and up to
  `2 ^ 25` entries no `int` overflows on the way.
* `LoopData`: the arrays, and the operations of `ev.c` on them.
-/

namespace TargetSys.Timer

/-! ## Sizes of arrays -/

def MALLOC_ROUND : ℕ := 4096

/-- `sizeof (void *)`. -/
def sizeofPtr : ℕ := 8

/-- `do ncur <<= 1; while (cnt > ncur);`. -/
def doubleWhile (cnt ncur : ℕ) (h : 0 < ncur) : ℕ :=
  if cnt > 2 * ncur then doubleWhile cnt (2 * ncur) (by omega) else 2 * ncur
termination_by cnt - ncur

/-- `array_nextsize`. -/
def arrayNextsize (elem cur cnt : ℕ) : ℕ :=
  let ncur := doubleWhile cnt (cur + 1) (Nat.succ_pos cur)
  if elem * ncur > MALLOC_ROUND - sizeofPtr * 4 then
    let bytes := ncur * elem + elem + (MALLOC_ROUND - 1) + sizeofPtr * 4
    -- `bytes & ~(MALLOC_ROUND - 1)`
    (bytes / MALLOC_ROUND * MALLOC_ROUND - sizeofPtr * 4) / elem
  else ncur

/-- `array_needsize`: the size behind it. -/
def arrayNeedsize (elem cur cnt : ℕ) : ℕ :=
  if cnt > cur then arrayNextsize elem cur cnt else cur

/-- The doubled size is enough. -/
theorem le_doubleWhile (cnt ncur : ℕ) (h : 0 < ncur) : cnt ≤ doubleWhile cnt ncur h := by
  fun_induction doubleWhile cnt ncur h with
  | case1 ncur h hlt ih => exact ih
  | case2 ncur h hle => omega

/-- Rounding to whole pages, less some words for `malloc`, never rounds down. -/
theorem le_arrayNextsize {elem cur cnt : ℕ} : cnt ≤ arrayNextsize elem cur cnt := by
  have hcnt := le_doubleWhile cnt (cur + 1) (Nat.succ_pos cur)
  unfold arrayNextsize
  generalize doubleWhile cnt (cur + 1) (Nat.succ_pos cur) = ncur at hcnt
  dsimp only
  split
  · rename_i hlarge
    have helem : 0 < elem := by
      refine Nat.pos_of_ne_zero ?_
      rintro rfl
      omega
    refine le_trans hcnt ((Nat.le_div_iff_mul_le helem).mpr ?_)
    generalize ncur * elem = b
    unfold MALLOC_ROUND sizeofPtr
    omega
  · exact hcnt

/-- The array has room behind the growth. -/
theorem le_arrayNeedsize {elem cur cnt : ℕ} : cnt ≤ arrayNeedsize elem cur cnt := by
  unfold arrayNeedsize
  split
  · exact le_arrayNextsize
  · omega

/-- What `array_nextsize` computes with on its way fits into an `int`. -/
def NextsizeFits (elem cur cnt : ℕ) : Prop :=
  doubleWhile cnt (cur + 1) (Nat.succ_pos cur) * elem + elem + (MALLOC_ROUND - 1) + sizeofPtr * 4 <
    2 ^ 31

/-- The doubled size is at most twice what is needed, or twice what it began with. -/
theorem doubleWhile_le (cnt ncur : ℕ) (h : 0 < ncur) :
    doubleWhile cnt ncur h ≤ 2 * max cnt ncur := by
  fun_induction doubleWhile cnt ncur h with
  | case1 ncur h hlt ih => omega
  | case2 ncur h hle => omega

/-- An array that grows to `cnt` entries of at most 16 bytes at least doubles, and no more than that
unless it was nearly empty. -/
theorem nextsizeFits {elem cur cnt : ℕ} (helem : elem ≤ 16) (hcur : cur < cnt)
    (hcnt : cnt ≤ 2 ^ 25) : NextsizeFits elem cur cnt := by
  have hle := doubleWhile_le cnt (cur + 1) (Nat.succ_pos cur)
  have hmul : doubleWhile cnt (cur + 1) (Nat.succ_pos cur) * elem ≤ 2 ^ 26 * 16 :=
    Nat.mul_le_mul (by omega) helem
  unfold NextsizeFits MALLOC_ROUND sizeofPtr
  omega

/-! ## The loop -/

/-- The members of `struct ev_loop` that concern timers, and the memory the watchers are in. In
`pendings`, `none` is `&pending_w`. -/
structure LoopData (H W : Type*) where
  timers : Heap W
  timercnt : ℕ
  timermax : ℕ
  pendings : ℕ → Option W
  pendingcnt : ℕ
  pendingmax : ℕ
  pending : W → ℕ
  rfeeds : ℕ → W
  rfeedcnt : ℕ
  rfeedmax : ℕ
  mnNow : ℤ
  activecnt : ℤ
  watcher : W → EvTimer H

/-- `sizeof (ANHE)`, which is also `sizeof (ANPENDING)`. -/
def sizeofAnhe : ℕ := 16

namespace LoopData

variable {H W : Type*} [DecidableEq W] (l : LoopData H W) (w : W)

/-- `w->at = at`. -/
def setAt (at' : ℤ) : LoopData H W :=
  { l with watcher := Function.update l.watcher w { l.watcher w with evAt := at' } }

/-- `ANHE_at_cache (timers [k])`. -/
def cacheAt (k : ℕ) : LoopData H W :=
  let he := l.timers.entry k
  { l with timers := { l.timers with
      entry := Function.update l.timers.entry k { he with evAt := (l.watcher he.w).evAt } } }

/-- `ev_timer_init`, with `w->data = data` behind it. -/
def evTimerInit (after repeat' : ℤ) (data : H) : LoopData H W :=
  { l with
    timers := { l.timers with active := Function.update l.timers.active w 0 }
    pending := Function.update l.pending w 0
    watcher := Function.update l.watcher w ⟨after, repeat', data⟩ }

/-- `ev_feed_event`. -/
def evFeedEvent : LoopData H W :=
  if l.pending w ≠ 0 then l
  else { l with
    pending := Function.update l.pending w (l.pendingcnt + 1)
    pendingcnt := l.pendingcnt + 1
    pendingmax := arrayNeedsize sizeofAnhe l.pendingmax (l.pendingcnt + 1)
    pendings := Function.update l.pendings l.pendingcnt (some w) }

/-- `clear_pending`. -/
def clearPending : LoopData H W :=
  if l.pending w ≠ 0 then { l with
    pendings := Function.update l.pendings (l.pending w - 1) none
    pending := Function.update l.pending w 0 }
  else l

/-- `ev_timer_start`. -/
def evTimerStart : LoopData H W :=
  if l.timers.active w ≠ 0 then l
  else
    let l := l.setAt w ((l.watcher w).evAt + l.mnNow)
    let active := l.timercnt + 1 + HEAP0 - 1
    { l with
      timercnt := l.timercnt + 1
      activecnt := l.activecnt + 1
      timermax := arrayNeedsize sizeofAnhe l.timermax (active + 1)
      timers := (l.timers.put active ⟨(l.watcher w).evAt, w⟩).upheap active }

/-- The removal of the entry at `active` in `ev_timer_stop`, `cnt` being the new count. -/
def removeEntry (cnt active : ℕ) : Heap W :=
  if active < cnt + HEAP0 then
    Heap.adjustheap { l.timers with
      entry := Function.update l.timers.entry active (l.timers.entry (cnt + HEAP0)) } cnt active
  else l.timers

/-- `ev_timer_stop`, behind its `clear_pending`. -/
def stopActive : LoopData H W :=
  if l.timers.active w = 0 then l
  else
    let timers := l.removeEntry (l.timercnt - 1) (l.timers.active w)
    { l.setAt w ((l.watcher w).evAt - l.mnNow) with
      timercnt := l.timercnt - 1
      activecnt := l.activecnt - 1
      timers := { timers with active := Function.update timers.active w 0 } }

/-- `ev_timer_stop`. -/
def evTimerStop : LoopData H W := (l.clearPending w).stopActive w

/-- `ev_timer_again`. -/
def evTimerAgain : LoopData H W :=
  let l := l.clearPending w
  if l.timers.active w ≠ 0 then
    if (l.watcher w).evRepeat ≠ 0 then
      let l := (l.setAt w (l.mnNow + (l.watcher w).evRepeat)).cacheAt (l.timers.active w)
      { l with timers := l.timers.adjustheap l.timercnt (l.timers.active w) }
    else l.evTimerStop w
  else if (l.watcher w).evRepeat ≠ 0 then (l.setAt w (l.watcher w).evRepeat).evTimerStart w
  else l

/-- `ev_timer_remaining`. -/
def evTimerRemaining : ℤ :=
  (l.watcher w).evAt - (if l.timers.active w ≠ 0 then l.mnNow else 0)

/-- `timers_reschedule`, from the entry at `i + HEAP0` on, with `n` to go. -/
def timersRescheduleLoop (adjust : ℤ) (l : LoopData H W) (i : ℕ) : ℕ → LoopData H W
  | 0 => l
  | n + 1 =>
      let w := (l.timers.entry (i + HEAP0)).w
      timersRescheduleLoop adjust
        ((l.setAt w ((l.watcher w).evAt + adjust)).cacheAt (i + HEAP0)) (i + 1) n

/-- `timers_reschedule`. -/
def timersReschedule (adjust : ℤ) : LoopData H W := timersRescheduleLoop adjust l 0 l.timercnt

/-- `MIN_TIMEJUMP`. -/
def MIN_TIMEJUMP : ℤ := 1000

/-- `time_update` with a monotonic clock, which shows `now`. -/
def timeUpdate (now : ℤ) : LoopData H W := { l with mnNow := now }

/-- `time_update` without one, when `ev_time` shows `now`. -/
def timeUpdateRealtime (maxBlock now : ℤ) : LoopData H W :=
  let l :=
    if l.mnNow > now ∨ now > l.mnNow + maxBlock + MIN_TIMEJUMP then
      l.timersReschedule (now - l.mnNow)
    else l
  { l with mnNow := now }

/-- The `1e100` seconds that `ev_now_update` tells `time_update`. -/
def NOW_UPDATE_BLOCK : ℤ := 10 ^ 103

/-- `ev_now_update`, when the clock that `time_update` reads shows `now`. -/
def evNowUpdate (haveMonotonic : Bool) (now : ℤ) : LoopData H W :=
  if haveMonotonic then l.timeUpdate now else l.timeUpdateRealtime NOW_UPDATE_BLOCK now

/-- `ev_suspend`. -/
def evSuspend (haveMonotonic : Bool) (now : ℤ) : LoopData H W := l.evNowUpdate haveMonotonic now

/-- `ev_resume`. -/
def evResume (haveMonotonic : Bool) (now : ℤ) : LoopData H W :=
  let mnPrev := l.mnNow
  let l := l.evNowUpdate haveMonotonic now
  l.timersReschedule (l.mnNow - mnPrev)

/-- `feed_reverse`. -/
def feedReverse : LoopData H W :=
  { l with
    rfeedmax := arrayNeedsize sizeofPtr l.rfeedmax (l.rfeedcnt + 1)
    rfeeds := Function.update l.rfeeds l.rfeedcnt w
    rfeedcnt := l.rfeedcnt + 1 }

/-- The loop of `feed_reverse_done`, with `n` watchers to feed. -/
def feedReverseLoop (l : LoopData H W) : ℕ → LoopData H W
  | 0 => l
  | n + 1 => feedReverseLoop (({ l with rfeedcnt := n }).evFeedEvent (l.rfeeds n)) n

/-- `feed_reverse_done`. -/
def feedReverseDone : LoopData H W := feedReverseLoop l l.rfeedcnt

/-- `timercnt && ANHE_at (timers [HEAP0]) < mn_now`. -/
def Due : Prop := l.timercnt ≠ 0 ∧ (l.timers.entry HEAP0).evAt < l.mnNow

instance : Decidable l.Due := inferInstanceAs (Decidable (_ ∧ _))

/-- `ev_at (w) += w->repeat; if (ev_at (w) < mn_now) ev_at (w) = mn_now;`. -/
def repeatAt : LoopData H W :=
  let l := l.setAt w ((l.watcher w).evAt + (l.watcher w).evRepeat)
  if (l.watcher w).evAt < l.mnNow then l.setAt w l.mnNow else l

/-- `ANHE_at_cache (timers [HEAP0]); downheap (timers, timercnt, HEAP0);`. -/
def sinkRoot : LoopData H W :=
  let l := l.cacheAt HEAP0
  { l with timers := l.timers.downheap l.timercnt HEAP0 }

/-- One round of the loop in `timers_reify`. -/
def reifyRound : LoopData H W :=
  let w := (l.timers.entry HEAP0).w
  let l := if (l.watcher w).evRepeat ≠ 0 then (l.repeatAt w).sinkRoot else l.evTimerStop w
  l.feedReverse w

/-- The rounds of `timers_reify`, with fuel. -/
def reifyRounds : ℕ → LoopData H W → Option (LoopData H W)
  | 0, l => if l.Due then none else some l
  | fuel + 1, l => if l.Due then reifyRounds fuel l.reifyRound else some l

/-- `timers_reify`. A round was made exactly if something is in `rfeeds`. -/
def timersReify (fuel : ℕ) : Option (LoopData H W) := (reifyRounds fuel l).map feedReverseDone

/-- `--pendingcnt; p->w->pending = 0;` in `ev_invoke_pending`, with the watcher to be invoked. -/
def takePending : Option W × LoopData H W :=
  let n := l.pendingcnt - 1
  let l := { l with pendingcnt := n }
  match l.pendings n with
  | none => (none, l)
  | some w => (some w, { l with pending := Function.update l.pending w 0 })

variable {l w} {n : ℕ}

/-- A timer whose next turn has passed as well is due now. -/
theorem repeatAt_eq :
    l.repeatAt w = l.setAt w (max ((l.watcher w).evAt + (l.watcher w).evRepeat) l.mnNow) := by
  unfold repeatAt setAt
  dsimp only
  split
  · rename_i hlt
    rw [Function.update_self] at hlt ⊢
    rw [Function.update_idem, max_eq_right (Int.le_of_lt hlt)]
  · rename_i hle
    rw [Function.update_self, Int.not_lt] at hle
    rw [max_eq_left hle]

/-- A gap is skipped. -/
theorem takePending_none (hn : l.pendingcnt = n + 1) (h : l.pendings n = none) :
    l.takePending = (none, { l with pendingcnt := n }) := by
  simp [takePending, hn, h]

/-- The watcher of the last entry is no longer pending. -/
theorem takePending_some (hn : l.pendingcnt = n + 1) (h : l.pendings n = some w) :
    l.takePending =
      (some w, { l with pendingcnt := n, pending := Function.update l.pending w 0 }) := by
  simp [takePending, hn, h]

end LoopData

end TargetSys.Timer
