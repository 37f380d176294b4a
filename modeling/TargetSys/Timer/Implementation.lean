import TargetSys.Timer.LoopRefinement
import TargetSys.Timer.Stopped

/-!
# `bf_sys_timer` over the timer arrays

Reference: `src/bf_sal/linux_usr/bf_sys_timer.c`, and `ev_run`, `timers_reify`, `ev_invoke_pending`
and `ev_verify` in `third-party/libev/ev.c`.

The program again, with the loop as the arrays it is made of. Its state is a state of the abstract
program, whose `ev` is not looked at, beside the arrays. A statement that has nothing to do with the
loop is the abstract one, whatever `ev` is; each other statement is the operation of `ev.c`. The
memory of watchers that are not allocated holds anything and may change at any time.

The arrays are only right as long as nothing is freed or made anew that they refer to, which is what
the discipline of the callers is for.

## Main results

* `bfSysTimer_refines`: every disciplined run is one of the abstract program, with the same calls,
  returns and callbacks.
* `bfSysTimer_evVerify`: in every state of such a run the assertions of `ev_verify` hold, and the
  next statement meets its own.
-/

namespace TargetSys.Timer

open Transition

/-! ## The assertions of libev -/

namespace LoopData

variable {H W : Type*} (l : LoopData H W)

/-- `verify_watcher`. -/
def VerifyWatcher (w : W) : Prop := l.pending w ≠ 0 → l.pendings (l.pending w - 1) = some w

/-- `verify_heap (EV_A_ timers, timercnt)`. -/
def VerifyHeap : Prop :=
  ∀ i, HEAP0 ≤ i → i < l.timercnt + HEAP0 →
    l.timers.active (l.timers.entry i).w = i ∧
      (i = HEAP0 ∨ (l.timers.entry (hparent i)).evAt ≤ (l.timers.entry i).evAt) ∧
      (l.timers.entry i).evAt = (l.watcher (l.timers.entry i).w).evAt ∧
      l.VerifyWatcher (l.timers.entry i).w

/-- `ev_verify`, as far as it is about timers. -/
def EvVerify : Prop :=
  -1 ≤ l.activecnt ∧ l.timercnt ≤ l.timermax ∧ l.VerifyHeap ∧ l.pendingcnt ≤ l.pendingmax

/-- No `int` overflows when the next statement makes one of the arrays grow. `feed_reverse_done` may
add all that is in `rfeeds` to `pendings`. -/
structure GrowthFits : Prop where
  timers : l.timermax < l.timercnt + 1 + HEAP0 →
    NextsizeFits sizeofAnhe l.timermax (l.timercnt + 1 + HEAP0)
  rfeeds : l.rfeedmax < l.rfeedcnt + 1 → NextsizeFits sizeofPtr l.rfeedmax (l.rfeedcnt + 1)
  pendings : ∀ max cnt, max < cnt → cnt ≤ l.pendingcnt + l.rfeedcnt →
    NextsizeFits sizeofAnhe max cnt

variable {l} in
/-- Below `2 ^ 25` entries, no `int` overflows as an array grows. -/
theorem growthFits (htimers : l.timercnt + HEAP0 < 2 ^ 25)
    (hfeeds : l.pendingcnt + l.rfeedcnt < 2 ^ 25) : l.GrowthFits where
  timers := fun h => nextsizeFits (by decide) h (by omega)
  rfeeds := fun h => nextsizeFits (by decide) h (by omega)
  pendings := fun _ _ h hcnt => nextsizeFits (by decide) h (by omega)

/-- The arrays have room for their entries, and `activecnt` counts the timers and `others`. -/
structure Fits (others : ℕ) (l : LoopData H W) : Prop where
  timermax : l.timercnt = 0 ∨ l.timercnt + HEAP0 ≤ l.timermax
  pendingmax : l.pendingcnt ≤ l.pendingmax
  rfeedmax : l.rfeedcnt ≤ l.rfeedmax
  activecnt : l.activecnt = l.timercnt + others

namespace Fits

variable {l} {others : ℕ} {w : W}

/-- A look at the clock changes no array. -/
theorem timeUpdate (h : l.Fits others) (now : ℤ) : (l.timeUpdate now).Fits others :=
  ⟨h.timermax, h.pendingmax, h.rfeedmax, h.activecnt⟩

variable [DecidableEq W]

/-- A new watcher changes no array. -/
theorem evTimerInit (h : l.Fits others) (after repeat' : ℤ) (data : H) :
    (l.evTimerInit w after repeat' data).Fits others :=
  ⟨h.timermax, h.pendingmax, h.rfeedmax, h.activecnt⟩

/-- `ev_timer_start` makes room before it adds the entry. -/
theorem evTimerStart (h : l.Fits others) : (l.evTimerStart w).Fits others := by
  unfold LoopData.evTimerStart
  split
  · exact h
  · refine ⟨.inr ?_, h.pendingmax, h.rfeedmax, ?_⟩
    · refine le_trans ?_ le_arrayNeedsize
      dsimp only [setAt]
      omega
    · have hcnt := h.activecnt
      dsimp only [setAt]
      omega

/-- A gap takes the room of the entry. -/
theorem clearPending (h : l.Fits others) : (l.clearPending w).Fits others := by
  unfold LoopData.clearPending
  split
  · exact ⟨h.timermax, h.pendingmax, h.rfeedmax, h.activecnt⟩
  · exact h

/-- A timer that leaves the heap is no longer counted. -/
theorem stopActive {K : Set W} (h : l.Fits others) (hv : l.HeapValid K) (hK : w ∈ K) :
    (l.stopActive w).Fits others := by
  unfold LoopData.stopActive
  split
  · exact h
  · rename_i hw
    obtain ⟨hb, hn, -⟩ := hv.mem_range hK hw
    have hcnt := h.activecnt
    have hmax := h.timermax
    refine ⟨?_, h.pendingmax, h.rfeedmax, ?_⟩
    · dsimp only [setAt]
      omega
    · dsimp only [setAt]
      omega

/-- `ev_timer_stop` takes an entry away at most. -/
theorem evTimerStop {K : Set W} (h : l.Fits others) (hv : l.HeapValid K) (hK : w ∈ K) :
    (l.evTimerStop w).Fits others := by
  refine h.clearPending.stopActive (hv.congr ?_ ?_ ?_) hK
  all_goals
    unfold LoopData.clearPending
    split <;> rfl

/-- `ev_feed_event` makes room before it adds the entry. -/
theorem evFeedEvent (h : l.Fits others) : (l.evFeedEvent w).Fits others := by
  unfold LoopData.evFeedEvent
  split
  · exact h
  · exact ⟨h.timermax, le_arrayNeedsize, h.rfeedmax, h.activecnt⟩

/-- By induction on the entries that are left in `rfeeds`. -/
theorem feedReverseLoop (n : ℕ) (l : LoopData H W) (h : l.Fits others) (hn : n ≤ l.rfeedcnt) :
    (l.feedReverseLoop n).Fits others := by
  induction n generalizing l with
  | zero => exact h
  | succ n ih =>
      have hcnt : ({ l with rfeedcnt := n } : LoopData H W).Fits others := by
        have hmax := h.rfeedmax
        exact ⟨h.timermax, h.pendingmax, by dsimp only; omega, h.activecnt⟩
      refine ih _ hcnt.evFeedEvent ?_
      unfold LoopData.evFeedEvent
      split <;> exact Nat.le_refl n

omit [DecidableEq W] in
/-- `feed_reverse` makes room before it adds the entry. -/
theorem feedReverse (h : l.Fits others) : (l.feedReverse w).Fits others :=
  ⟨h.timermax, h.pendingmax, le_arrayNeedsize, h.activecnt⟩

/-- A round takes a timer from the heap at most, and adds one to `rfeeds`. -/
theorem reifyRound {K : Set W} (h : l.Fits others) (hv : l.HeapValid K) (hd : l.Due) :
    l.reifyRound.Fits others := by
  have hK := hv.root_mem hd.1
  unfold LoopData.reifyRound
  generalize (l.timers.entry HEAP0).w = w at hK
  refine feedReverse ?_
  split
  · rw [repeatAt_eq]
    exact ⟨h.timermax, h.pendingmax, h.rfeedmax, h.activecnt⟩
  · exact h.evTimerStop hv hK

/-- An entry is taken. -/
theorem takePending (h : l.Fits others) (hn : l.pendingcnt ≠ 0) : l.takePending.2.Fits others := by
  have hmax := h.pendingmax
  obtain ⟨n, hcnt⟩ : ∃ n, l.pendingcnt = n + 1 := ⟨l.pendingcnt - 1, by omega⟩
  cases hslot : l.pendings n with
  | none =>
      rw [takePending_none hcnt hslot]
      exact ⟨h.timermax, by dsimp only; omega, h.rfeedmax, h.activecnt⟩
  | some w =>
      rw [takePending_some hcnt hslot]
      exact ⟨h.timermax, by dsimp only; omega, h.rfeedmax, h.activecnt⟩

end Fits

/-- The assertions of `ev_verify` are part of the invariant. -/
theorem Refines.evVerify {K : Set W} {l : LoopData H W} {a : EvLoop H W} {others : ℕ}
    (h : l.Refines K a) (hfits : l.Fits others) : l.EvVerify := by
  have hcnt := hfits.activecnt
  have hmax := hfits.timermax
  refine ⟨by omega, by omega, fun i hb hn => ?_, hfits.pendingmax⟩
  have hn' : i < HEAP0 + l.timercnt := by omega
  refine ⟨h.heap.entry_active ⟨hb, hn'⟩, ?_, h.heap.cache i hb hn',
    fun hp => (h.pend.pos _ (h.heap.entry_mem ⟨hb, hn'⟩) hp).2⟩
  rcases Nat.eq_or_lt_of_le hb with heq | hlt
  · exact .inl heq.symm
  · exact .inr (h.heap.good.order _ _ (DaryHeap.Child.of_parent hlt hn'))

end LoopData

/-! ## The program -/

section Program

variable {τ H W : Type*} [DecidableEq τ] [DecidableEq H] [DecidableEq W]

/-- The program with `ev` for its loop. -/
def State.withEv (s : State τ H W) (ev : EvLoop H W) : State τ H W := { s with ev := ev }

/-- `evt` in the locked part of `start` or `stop`. -/
def Op.runArrays (op : Op) (l : LoopData H W) (evt : W) : LoopData H W :=
  if op = .start then l.evTimerStart evt else l.evTimerStop evt

/-- Outside the locked part, a statement of the API is the same whatever the loop is. -/
theorem ApiStep.withEv {s s' : State τ H W} {e : Event τ H W} {t : Tid τ}
    (h : ApiStep t s e s') (hmalloc : ∀ w, e ≠ .malloc w)
    (hbody : ∀ f evt, s.frame t = some f → f.pc ≠ .body evt) (ev : EvLoop H W) :
    ApiStep t (s.withEv ev) e (s'.withEv ev) := by
  cases h with
  | mallocFails hf hpc => exact .mallocFails hf hpc
  | malloc hf hpc hop hlive => exact absurd rfl (hmalloc _)
  | test hf hpc => exact .test hf hpc
  | testInStop hf hpc => exact .testInStop hf hpc
  | testInited hf hpc => exact .testInited hf hpc
  | lock hf hpc howner => exact .lock hf hpc howner
  | body hf hpc => exact absurd hpc (hbody _ _ hf)
  | asyncSend hf hpc => exact .asyncSend hf hpc
  | unlock hf hpc => exact .unlock hf hpc
  | free hf hpc ht => exact .free hf hpc ht
  | freeNull hf hpc ht => exact .freeNull hf hpc ht
  | clear hf hpc => exact .clear hf hpc
  | ret hf hpc => exact .ret hf hpc

/-- The statements of the loop thread that look at the loop. -/
def LoopPc.LooksAtLoop (p : LoopPc) : Prop :=
  p ∈ [.getLoop, .invokePending, .timeUpdate, .timeUpdateAfterPoll, .reify]

instance : DecidablePred LoopPc.LooksAtLoop := fun p => inferInstanceAs (Decidable (p ∈ _))

omit [DecidableEq τ] [DecidableEq H] in
/-- The other statements of the loop thread are the same whatever the loop is. -/
theorem LoopStep.withEv {s s' : State τ H W} {e : Event τ H W} (h : LoopStep s e s')
    (hpc : ¬ s.pc.LooksAtLoop) (ev : EvLoop H W) : LoopStep (s.withEv ev) e (s'.withEv ev) := by
  have hlooks {p : LoopPc} (hp : s.pc = p) : ¬ p.LooksAtLoop := hp ▸ hpc
  cases h with
  | next hp => exact .next hp
  | setInited hp => exact .setInited hp
  | mutexInit hp => exact .mutexInit hp
  | acquire hp howner => exact .acquire hp howner
  | callbackReturns hp hf => exact .callbackReturns hp hf
  | release hp => exact .release hp
  | reacquire hp howner => exact .reacquire hp howner
  | noLoop hp => exact absurd (by decide) (hlooks hp)
  | getLoop hp => exact absurd (by decide) (hlooks hp)
  | invoke hp _ _ => exact absurd (by decide) (hlooks hp)
  | nonePending hp _ => exact absurd (by decide) (hlooks hp)
  | timeUpdate hp => exact absurd (by decide) (hlooks hp)
  | timeUpdateAfterPoll hp => exact absurd (by decide) (hlooks hp)
  | expire hp _ => exact absurd (by decide) (hlooks hp)
  | noneDue hp _ => exact absurd (by decide) (hlooks hp)

/-- One step of the program over the arrays. -/
inductive ArrayStep :
    State τ H W × LoopData H W → Event τ H W → State τ H W × LoopData H W → Prop
  | control {c c' : State τ H W} {l : LoopData H W} {e : Event τ H W} :
      (∀ ev, Step (c.withEv ev) e (c'.withEv ev)) → (∀ w, e ≠ .malloc w) →
      ArrayStep (c, l) e (c', l)
  | scribble {c : State τ H W} {l : LoopData H W} {active pending : W → ℕ}
      {watcher : W → EvTimer H} : (∀ w, c.live w = true → active w = l.timers.active w) →
      (∀ w, c.live w = true → pending w = l.pending w) →
      (∀ w, c.live w = true → watcher w = l.watcher w) →
      ArrayStep (c, l) .silent
        (c, { l with
          timers := { l.timers with active := active }, pending := pending, watcher := watcher })
  | malloc {c : State τ H W} {l : LoopData H W} {t : Tid τ} {f : Frame H W} {w : W}
      {start period : ℕ} {cbFn : Option ℕ} {cbData : ℕ} : c.frame t = some f → f.pc = .malloc →
      f.op = .create start period cbFn cbData → c.live w = false →
      ArrayStep (c, l) (.malloc w)
        ((c.initTimer f.handle w start period cbFn cbData).goto t f (.ret .ok),
          l.evTimerInit w start period f.handle)
  | body {c : State τ H W} {l : LoopData H W} {t : Tid τ} {f : Frame H W} {evt : W} :
      c.frame t = some f → f.pc = .body evt →
      ArrayStep (c, l) .silent (c.goto t f (.asyncSend evt), f.op.runArrays l evt)
  | getLoop {c : State τ H W} {l : LoopData H W} : c.pc = .getLoop →
      ArrayStep (c, l) .silent ({ c with pc := .asyncInit }, l.timeUpdate c.clock)
  | timeUpdate {c : State τ H W} {l : LoopData H W} : c.pc = .timeUpdate →
      ArrayStep (c, l) .silent ({ c with pc := .release }, l.timeUpdate c.clock)
  | timeUpdateAfterPoll {c : State τ H W} {l : LoopData H W} : c.pc = .timeUpdateAfterPoll →
      ArrayStep (c, l) .silent ({ c with pc := .reify }, l.timeUpdate c.clock)
  | invoke {c : State τ H W} {l l' : LoopData H W} {w : W} {hd : Handle W} :
      c.pc = .invokePending → l.pendingcnt ≠ 0 → l.takePending = (some w, l') →
      c.handle (l.watcher w).data = hd →
      ArrayStep (c, l) (.invoke (l.watcher w).data hd.cbFn hd.cbData)
        ({ c with pc := .callback }, l')
  | invokeGap {c : State τ H W} {l l' : LoopData H W} : c.pc = .invokePending →
      l.pendingcnt ≠ 0 → l.takePending = (none, l') → ArrayStep (c, l) .silent (c, l')
  | nonePending {c : State τ H W} {l : LoopData H W} : c.pc = .invokePending →
      l.pendingcnt = 0 → ArrayStep (c, l) .silent ({ c with pc := .timeUpdate }, l)
  | reifyRound {c : State τ H W} {l : LoopData H W} : c.pc = .reify → l.Due →
      ArrayStep (c, l) .silent (c, l.reifyRound)
  | reifyDone {c : State τ H W} {l : LoopData H W} : c.pc = .reify → ¬ l.Due →
      ArrayStep (c, l) .silent ({ c with pc := .invokePending }, l.feedReverseDone)

/-- The arrays beside `c` implement the loop of `s`. -/
structure Implements (others : ℕ) (p : State τ H W × LoopData H W) (s : State τ H W) : Prop where
  control : s = p.1.withEv s.ev
  refines : p.2.Refines {w | p.1.live w = true} s.ev
  fits : p.2.Fits others
  sound : Sound s

variable {others : ℕ} {c c' : State τ H W} {l l' : LoopData H W} {s s' : State τ H W}
  {e : Event τ H W} {t : Tid τ} {w : W} {p p' : State τ H W × LoopData H W}

omit [DecidableEq τ] [DecidableEq H] [DecidableEq W] in
/-- At the start the arrays are empty, and no watcher is known. -/
theorem implements_initial (hl : l.Fresh others) (watcher : W → EvTimer H) (clock : ℤ) :
    Implements others (initial τ watcher l.mnNow clock, l)
      (initial τ watcher l.mnNow clock) where
  control := rfl
  refines := by
    have hnone : {w | (initial τ watcher l.mnNow clock).live w = true} = (∅ : Set W) := by
      ext w
      simp [initial]
    rw [hnone]
    exact hl.refines watcher
  fits := by
    refine ⟨.inl hl.timercnt, ?_, ?_, ?_⟩
    · rw [hl.pendingcnt]
      exact Nat.zero_le _
    · rw [hl.rfeedcnt]
      exact Nat.zero_le _
    · rw [hl.activecnt, hl.timercnt]
      omega
  sound := sound_initial watcher l.mnNow clock

namespace Implements

omit [DecidableEq τ] [DecidableEq H] [DecidableEq W] in
/-- A watcher is live on both sides, or on none. -/
theorem live_iff (h : Implements others (c, l) s) : s.live w = true ↔ c.live w = true := by
  rw [h.control]
  rfl

/-- The abstract program makes the same step. -/
theorem of_step {a' : EvLoop H W} (h : Implements others (c, l) s) (hd : Disciplined c e)
    (hstep : Step s e (c'.withEv a')) (href : l'.Refines {w | c'.live w = true} a')
    (hfits : l'.Fits others) :
    Guarded Step Disciplined s e (c'.withEv a') ∧ Implements others (c', l') (c'.withEv a') := by
  have hguard : Guarded Step Disciplined s e (c'.withEv a') := by
    refine ⟨hstep, ?_⟩
    rw [h.control]
    exact hd
  exact ⟨hguard, rfl, href, hfits, sound_step h.sound hguard⟩

/-- A statement that leaves the loop alone. -/
theorem control_step (h : Implements others (c, l) s) (hd : Disciplined c e)
    (hstep : ∀ ev, Step (c.withEv ev) e (c'.withEv ev)) (hmalloc : ∀ w, e ≠ .malloc w) :
    Guarded Step Disciplined s e (c'.withEv s.ev) ∧
      Implements others (c', l) (c'.withEv s.ev) := by
  have hs : Step s e (c'.withEv s.ev) := by
    have hs := hstep s.ev
    rwa [← h.control] at hs
  have hsound := sound_step h.sound ⟨hs, by rw [h.control]; exact hd⟩
  refine h.of_step hd hs (h.refines.forget ?_ ?_) h.fits
  · intro w hw
    by_contra hdead
    have hdead' : s.live w = false := by
      rw [h.control]
      exact Bool.eq_false_iff.mpr hdead
    have hlive : (c'.withEv s.ev).live w = false := dead_step hdead' hs (hmalloc w)
    exact Bool.false_ne_true (hlive.symm.trans hw)
  · intro w hw
    exact (hsound.refers w hw).1

omit [DecidableEq τ] [DecidableEq H] [DecidableEq W] in
/-- The watcher that a locked section works on is allocated. -/
theorem live_body (h : Implements others (c, l) s) {f : Frame H W} (hf : c.frame t = some f)
    {evt : W} (hpc : f.pc = .body evt) : c.live evt = true := by
  have hf' : s.frame t = some f := by
    rw [h.control]
    exact hf
  have hok := h.sound.frames t f hf'
  rw [FrameOk, hpc] at hok
  exact h.live_iff.mp (h.sound.timer_live hf' (by simp [hpc]) hok.1).1

/-- Each step over the arrays is a step of the abstract program. -/
theorem step (h : Implements others p s) (hs : Guarded ArrayStep (fun p => Disciplined p.1) p e p') :
    ∃ s', Guarded Step Disciplined s e s' ∧ Implements others p' s' := by
  obtain ⟨c, l⟩ := p
  obtain ⟨ev, rfl⟩ : ∃ ev, s = c.withEv ev := ⟨_, h.control⟩
  obtain ⟨hs, hd⟩ := hs
  have href : l.Refines {w | c.live w = true} ev := h.refines
  have hfits : l.Fits others := h.fits
  cases hs with
  | control hstep hmalloc => exact ⟨_, h.control_step hd hstep hmalloc⟩
  | scribble hactive hpending hwatcher =>
      -- the abstract program lets no time pass
      have htick : Step (c.withEv ev) .silent (c.withEv ev) := by
        have hs := Step.tick (s := c.withEv ev) 0
        simpa [State.withEv] using hs
      exact ⟨_, h.of_step hd htick (href.scribble hactive hpending hwatcher)
        ⟨hfits.timermax, hfits.pendingmax, hfits.rfeedmax, hfits.activecnt⟩⟩
  | @malloc _ _ t f w start period cbFn cbData hf hpc hop hlive =>
      have hset : {v | ((c.initTimer f.handle w start period cbFn cbData).goto t f (.ret .ok)).live v
          = true} = insert w {v | c.live v = true} := by
        ext v
        by_cases hv : v = w
        · simp [State.goto, State.setFrame, State.initTimer, hv]
        · simp [State.goto, State.setFrame, State.initTimer, hv]
      refine ⟨_, h.of_step hd (.api t (.malloc (s := c.withEv ev) hf hpc hop hlive)) ?_
        (hfits.evTimerInit start period f.handle)⟩
      rw [hset]
      exact href.evTimerInit (by simp [hlive]) start period f.handle
  | @body _ _ t f evt hf hpc =>
      have hK := h.live_body hf hpc
      refine ⟨_, h.of_step hd (.api t (.body (s := c.withEv ev) hf hpc)) ?_ ?_⟩
      · unfold Op.runArrays Op.runBody
        split
        · exact href.evTimerStart hK
        · exact href.evTimerStop hK
      · unfold Op.runArrays
        split
        · exact hfits.evTimerStart
        · exact hfits.evTimerStop href.heap hK
  | getLoop hpc =>
      exact ⟨_, h.of_step hd (.loop (.getLoop (s := c.withEv ev) hpc)) (href.timeUpdate _)
        (hfits.timeUpdate _)⟩
  | timeUpdate hpc =>
      exact ⟨_, h.of_step hd (.loop (.timeUpdate (s := c.withEv ev) hpc)) (href.timeUpdate _)
        (hfits.timeUpdate _)⟩
  | timeUpdateAfterPoll hpc =>
      exact ⟨_, h.of_step hd (.loop (.timeUpdateAfterPoll (s := c.withEv ev) hpc))
        (href.timeUpdate _) (hfits.timeUpdate _)⟩
  | @invoke _ _ l' w hd' hpc hn htake hhd =>
      have htaken := href.takePending hn
      have hfits' := hfits.takePending hn
      rw [htake] at htaken hfits'
      obtain ⟨ws, hws, href'⟩ := htaken
      have hK : w ∈ {w | c.live w = true} := by
        refine (href.mem_pendings.mp ?_).1
        rw [hws]
        exact List.mem_cons_self ..
      rw [← href.watcher w hK] at hhd ⊢
      rw [← href.watcher w hK] at hd
      exact ⟨_, h.of_step hd (.loop (.invoke (s := c.withEv ev) hpc hws hhd)) href' hfits'⟩
  | invokeGap hpc hn htake =>
      have htaken := href.takePending hn
      have hfits' := hfits.takePending hn
      rw [htake] at htaken hfits'
      have htick : Step (c.withEv ev) .silent (c.withEv ev) := by
        have hs := Step.tick (s := c.withEv ev) 0
        simpa [State.withEv] using hs
      exact ⟨_, h.of_step hd htick htaken hfits'⟩
  | nonePending hpc hn =>
      have hnil : ev.pendings = [] := by
        rw [href.pendings, hn]
        rfl
      exact ⟨_, h.of_step hd (.loop (.nonePending (s := c.withEv ev) hpc hnil)) href hfits⟩
  | reifyRound hpc hdue =>
      exact ⟨_, h.of_step hd (.loop (.expire (s := c.withEv ev) hpc (href.firstDue hdue)))
        (href.reifyRound hdue) (hfits.reifyRound href.heap hdue)⟩
  | reifyDone hpc hdue =>
      have hnone : ∀ w, ¬ ev.FirstDue w := fun w hw => hdue (href.due_iff.mpr ⟨w, hw⟩)
      exact ⟨_, h.of_step hd (.loop (.noneDue (s := c.withEv ev) hpc hnone)) href.feedReverseDone
        (hfits.feedReverseLoop l.rfeedcnt l (Nat.le_refl _))⟩

end Implements

/-! ## Timers repeat after a time that is not negative -/

/-- The timers that are allocated have no negative `repeat`. -/
def RepeatsOk (s : State τ H W) : Prop := ∀ w, s.live w = true → 0 ≤ (s.ev.watcher w).evRepeat

section Repeats

variable {ev : EvLoop H W} {v : W}

omit [DecidableEq τ] [DecidableEq H]

/-- A start keeps `repeat`. -/
theorem evRepeat_evTimerStart :
    ((ev.evTimerStart w).watcher v).evRepeat = (ev.watcher v).evRepeat := by
  unfold EvLoop.evTimerStart
  split
  · rfl
  · by_cases hv : v = w <;> simp [hv]

/-- A stop keeps `repeat`. -/
theorem evRepeat_evTimerStop :
    ((ev.evTimerStop w).watcher v).evRepeat = (ev.watcher v).evRepeat := by
  unfold EvLoop.evTimerStop
  dsimp only
  split
  · rfl
  · by_cases hv : v = w <;> simp [hv, EvLoop.clearPending]

/-- A round keeps `repeat`. -/
theorem evRepeat_expire : ((ev.expire w).watcher v).evRepeat = (ev.watcher v).evRepeat := by
  unfold EvLoop.expire
  dsimp only
  split
  · by_cases hv : v = w <;> simp [hv]
  · exact evRepeat_evTimerStop

/-- The end of a pass keeps `repeat`. -/
theorem evRepeat_feedReverseDone :
    (ev.feedReverseDone.watcher v).evRepeat = (ev.watcher v).evRepeat := by
  obtain ⟨-, hw, -⟩ := EvLoop.foldl_evFeedEvent ev.rfeeds ev
  simp only [EvLoop.feedReverseDone, hw]

end Repeats

omit [DecidableEq τ] [DecidableEq H] [DecidableEq W] in
/-- At the start no timer is there. -/
theorem repeatsOk_initial (watcher : W → EvTimer H) (mnNow clock : ℤ) :
    RepeatsOk (initial τ watcher mnNow clock) :=
  fun _ hw => Bool.noConfusion hw

/-- `period_msecs` is unsigned, and nothing else sets `repeat`. -/
theorem repeatsOk_step (h : RepeatsOk s) (hs : Step s e s') : RepeatsOk s' := by
  intro w hw
  cases hs with
  | call op hd hf hcb => exact h w hw
  | tick d => exact h w hw
  | loop hs =>
      cases hs with
      | expire hpc hdue => exact le_of_le_of_eq (h w hw) evRepeat_expire.symm
      | noneDue hpc => exact le_of_le_of_eq (h w hw) evRepeat_feedReverseDone.symm
      | _ => exact h w hw
  | api t hs =>
      cases hs with
      | @body f evt hf hpc =>
          show 0 ≤ ((f.op.runBody s.ev evt).watcher w).evRepeat
          unfold Op.runBody
          split
          · exact le_of_le_of_eq (h w hw) evRepeat_evTimerStart.symm
          · exact le_of_le_of_eq (h w hw) evRepeat_evTimerStop.symm
      | @malloc f v start period cb d hf hpc hop hl =>
          by_cases hwv : w = v
          · subst hwv
            simp [State.initTimer, State.goto, State.setFrame]
          · simp [State.initTimer, State.goto, State.setFrame, hwv] at hw ⊢
            exact h w hw
      | @free f v hf hpc hv =>
          by_cases hwv : w = v
          · subst hwv
            simp at hw
          · simp [State.goto, State.setFrame, hwv] at hw ⊢
            exact h w hw
      | _ => exact h w hw

/-! ## Runs -/

/-- **The arrays implement the loop.** Every disciplined run of the program over the timer heap, the
pending array and the reverse feeds of libev makes the same calls, returns, allocations and callbacks
as a run of the abstract program, whose loop has the same active and pending timers at its end. -/
theorem bfSysTimer_refines (others : ℕ) (l₀ : LoopData H W) (hl : l₀.Fresh others)
    (watcher : W → EvTimer H) (clock : ℤ) (es : List (Event τ H W))
    (p : State τ H W × LoopData H W)
    (hrun : Run (Guarded ArrayStep fun p => Disciplined p.1)
      (initial τ watcher l₀.mnNow clock, l₀) es p) :
    ∃ s, Run (Guarded Step Disciplined) (initial τ watcher l₀.mnNow clock) es s ∧
      s = p.1.withEv s.ev ∧ p.2.Refines {w | p.1.live w = true} s.ev := by
  obtain ⟨s, hs, himpl⟩ := hrun.simulate (fun _ _ _ _ h hs => h.step hs)
    (implements_initial hl watcher clock)
  exact ⟨s, hs, himpl.control, himpl.refines⟩

/-- What the assertions in `ev_timer_start`, `ev_timer_stop` and `timers_reify` demand of the next
statement. -/
structure NextAsserts (p : State τ H W × LoopData H W) : Prop where
  start : ∀ t f evt, p.1.frame t = some f → f.pc = .body evt → f.op = .start →
    0 ≤ (p.2.watcher evt).evRepeat
  stop : ∀ t f evt, p.1.frame t = some f → f.pc = .body evt → p.2.timers.active evt ≠ 0 →
    (p.2.timers.entry (p.2.timers.active evt)).w = evt
  reify : p.2.Due → (p.2.watcher (p.2.timers.entry HEAP0).w).evRepeat ≠ 0 →
    0 < (p.2.watcher (p.2.timers.entry HEAP0).w).evRepeat

/-- **No assertion of libev fails.** In every state of a disciplined run the assertions of
`ev_verify` about the timers hold, and so do those of the statement that comes next: a timer that is
started or expires has no negative `repeat`, and one that is stopped is where its `active` says. With
fewer than `2 ^ 25` entries in an array no `int` overflows when it grows. -/
theorem bfSysTimer_evVerify (others : ℕ) (l₀ : LoopData H W) (hl : l₀.Fresh others)
    (watcher : W → EvTimer H) (clock : ℤ) (es : List (Event τ H W))
    (p : State τ H W × LoopData H W)
    (hrun : Run (Guarded ArrayStep fun p => Disciplined p.1)
      (initial τ watcher l₀.mnNow clock, l₀) es p) :
    p.2.EvVerify ∧ NextAsserts p ∧
      (p.2.timercnt + HEAP0 < 2 ^ 25 → p.2.pendingcnt + p.2.rfeedcnt < 2 ^ 25 →
        p.2.GrowthFits) := by
  obtain ⟨s, -, himpl, hrepeat⟩ := hrun.simulate
    (R := fun p s => Implements others p s ∧ RepeatsOk s) (fun _ _ _ _ h hs => by
      obtain ⟨s', hs', himpl⟩ := h.1.step hs
      exact ⟨s', hs', himpl, repeatsOk_step h.2 hs'.1⟩)
    ⟨implements_initial hl watcher clock, repeatsOk_initial watcher _ clock⟩
  have href := himpl.refines
  have hnonneg {w : W} (hw : p.1.live w = true) : 0 ≤ (p.2.watcher w).evRepeat := by
    rw [← href.watcher w hw]
    exact hrepeat w (himpl.live_iff.mpr hw)
  refine ⟨href.evVerify himpl.fits, ⟨fun t f evt hf hpc _ => hnonneg (himpl.live_body hf hpc),
    fun t f evt hf hpc hact => ?_, fun hdue hne => ?_⟩, LoopData.growthFits⟩
  · exact (href.heap.mem_range (himpl.live_body hf hpc) hact).2.2
  · have h0 := hnonneg (href.heap.root_mem hdue.1)
    omega

end Program

/-- To start or stop a timer at most leaves a gap in `pendings`. -/
theorem pendingcnt_runArrays {H W : Type*} [DecidableEq W] {op : Op} {l : LoopData H W} {w : W} :
    (op.runArrays l w).pendingcnt = l.pendingcnt := by
  unfold Op.runArrays LoopData.evTimerStart LoopData.evTimerStop LoopData.stopActive
    LoopData.clearPending
  split_ifs <;> rfl

/-- A timer of a second that repeats and one of three seconds, in a loop that was made at time 0 and
looks at the clock again when it waits. -/
def twoTimers : LoopData Bool Bool :=
  let l := (noTimers Bool Bool).timeUpdate 0
  let l := (l.evTimerInit false 1000 500 false).evTimerInit true 3000 0 true
  ((l.evTimerStart false).evTimerStart true).timeUpdate 0

/-- Its arrays have both timers. -/
theorem twoTimers_refines (now : ℤ) : (twoTimers.timeUpdate now).Refines Set.univ
    ⟨[true, false], [], [], now, fun w => if w then ⟨3000, 0, true⟩ else ⟨1000, 500, false⟩⟩ := by
  have hnew := ((noTimers_fresh Bool Bool).refines fun _ => ⟨0, 0, false⟩).timeUpdate 0
  have hfirst := hnew.evTimerInit (w := false) id 1000 500 false
  have hsecond := hfirst.evTimerInit (w := true) (by simp) 3000 0 true
  have hset : insert true (insert false ∅) = (Set.univ : Set Bool) :=
    Set.eq_univ_of_forall (by simp)
  rw [hset] at hsecond
  have hboth := (((hsecond.evTimerStart (Set.mem_univ false)).evTimerStart
    (Set.mem_univ true)).timeUpdate 0).timeUpdate now
  refine ⟨hboth.heap, hboth.pend, hboth.timers, hboth.pendings, hboth.rfeeds, hboth.known,
    hboth.mnNow, fun w _ => Eq.trans ?_ (hboth.watcher w trivial)⟩
  cases w <;> rfl

/-- The first of them goes off at 2000, and no other. -/
theorem twoTimers_expire : (twoTimers.timeUpdate 2000).Due ∧
    ¬ (twoTimers.timeUpdate 2000).reifyRound.Due ∧
    (twoTimers.timeUpdate 2000).reifyRound.feedReverseDone.Refines Set.univ
      ⟨[true, false], [], [false], 2000,
        fun w => if w then ⟨3000, 0, true⟩ else ⟨2000, 500, false⟩⟩ := by
  have href := twoTimers_refines 2000
  have hdue : (twoTimers.timeUpdate 2000).Due :=
    href.due_iff.mpr ⟨false, by decide, by decide, by decide⟩
  have hroot := href.firstDue hdue
  have hround := href.reifyRound hdue
  generalize ((twoTimers.timeUpdate 2000).timers.entry HEAP0).w = w at hroot hround
  cases w with
  | true => exact absurd hroot.2.1 (by decide)
  | false =>
      have hdone := hround.feedReverseDone
      refine ⟨hdue, fun hagain => ?_, hdone.heap, hdone.pend, hdone.timers, hdone.pendings,
        hdone.rfeeds, hdone.known, hdone.mnNow, fun w _ => Eq.trans ?_ (hdone.watcher w trivial)⟩
      · obtain ⟨v, -, hlt, -⟩ := hround.due_iff.mp hagain
        cases v <;> exact absurd hlt (by decide)
      · cases w <;> rfl

section TwoTimers

variable {c c' : State Unit Bool Bool} {l : LoopData Bool Bool} {e : Event Unit Bool Bool}

/-- A disciplined statement of the API outside the locked part leaves the arrays alone. -/
theorem guarded_api {f : Frame Bool Bool} (hs : ApiStep (.api ()) c e c')
    (hf : c.frame (.api ()) = some f) (hpc : ∀ evt, f.pc ≠ .body evt) (hd : Disciplined c e)
    (he : ∀ w, e ≠ .malloc w) : Guarded ArrayStep (fun p => Disciplined p.1) (c, l) e (c', l) := by
  refine ⟨.control (fun ev => .api _ (hs.withEv he (fun g evt hg => ?_) ev)) he, hd⟩
  rw [← Option.some.inj (hf.symm.trans hg)]
  exact hpc evt

/-- So does one of the loop thread that does not look at the loop. -/
theorem guarded_loop (hs : LoopStep c e c') (hpc : ¬ c.pc.LooksAtLoop) (hd : Disciplined c e)
    (he : ∀ w, e ≠ .malloc w) : Guarded ArrayStep (fun p => Disciplined p.1) (c, l) e (c', l) :=
  ⟨.control (fun ev => .loop (hs.withEv hpc ev)) he, hd⟩

/-- So does time that passes. -/
theorem guarded_tick (d : ℕ) :
    Guarded ArrayStep (fun p => Disciplined p.1) (c, l) .silent
      ({ c with clock := c.clock + d }, l) :=
  ⟨.control (fun _ => .tick d) nofun, trivial⟩

/-- The thread of the API may begin a call beside an idle loop: a create only on a handle without a
timer. -/
theorem guarded_call (op : Op) (h : Bool) (hloop : c.frame .loop = none)
    (hf : c.frame (.api ()) = none)
    (hop : op ≠ .start ∧ op ≠ .stop ∧ op ≠ .del → (c.handle h).timer = none) :
    Guarded ArrayStep (fun p => Disciplined p.1) (c, l) (.call (.api ()) op h)
      (c.setFrame (.api ()) (some ⟨op, h, op.enter⟩), l) :=
  ⟨.control (fun _ => .callApi op h hf) nofun, nofun, ne_handle_of_idle hloop hf, hop⟩

end TwoTimers

/-- Both timers are created and started, and the first goes off in a loop that has slept for two
seconds. -/
theorem twoTimers_run : ∃ es p, p.1.live = (fun _ => true) ∧ p.1.pc = .invokePending ∧
    p.2 = (twoTimers.timeUpdate 2000).reifyRound.feedReverseDone ∧
    Run (Guarded ArrayStep fun p => Disciplined p.1)
      ((initial Unit (fun _ => ⟨0, 0, false⟩) 0 0 : State Unit Bool Bool), noTimers Bool Bool) es
        p := by
  refine ⟨_, _, ?live, ?pc, ?arrays,
    .cons ⟨.getLoop rfl, trivial⟩ <|
    .cons (guarded_call (.create 1000 500 (some 0) 0) false rfl rfl fun _ => rfl) <|
    .cons ⟨.malloc (t := .api ()) (w := false) rfl rfl rfl rfl, trivial⟩ <|
    .cons (guarded_api (.ret rfl rfl) rfl nofun trivial nofun) <|
    .cons (guarded_call (.create 3000 0 (some 1) 0) true rfl rfl fun _ => rfl) <|
    .cons ⟨.malloc (t := .api ()) (w := true) rfl rfl rfl rfl, trivial⟩ <|
    .cons (guarded_api (.ret rfl rfl) rfl nofun trivial nofun) <|
    .cons (guarded_loop (.next rfl) (by decide) trivial nofun) <|
    .cons (guarded_loop (.next rfl) (by decide) trivial nofun) <|
    .cons (guarded_loop (.setInited rfl) (by decide) trivial nofun) <|
    .cons (guarded_loop (.mutexInit rfl) (by decide) rfl nofun) <|
    .cons (guarded_loop (.next rfl) (by decide) trivial nofun) <|
    .cons (guarded_call .start false rfl rfl fun h => absurd rfl h.1) <|
    .cons (guarded_api (.test rfl rfl) rfl nofun trivial nofun) <|
    .cons (guarded_api (.testInited rfl rfl) rfl nofun trivial nofun) <|
    .cons (guarded_api (.lock rfl rfl rfl) rfl nofun trivial nofun) <|
    .cons ⟨.body (t := .api ()) rfl rfl, trivial⟩ <|
    .cons (guarded_api (.asyncSend rfl rfl) rfl nofun trivial nofun) <|
    .cons (guarded_api (.unlock rfl rfl) rfl nofun trivial nofun) <|
    .cons (guarded_api (.ret rfl rfl) rfl nofun trivial nofun) <|
    .cons (guarded_call .start true rfl rfl fun h => absurd rfl h.1) <|
    .cons (guarded_api (.test rfl rfl) rfl nofun trivial nofun) <|
    .cons (guarded_api (.testInited rfl rfl) rfl nofun trivial nofun) <|
    .cons (guarded_api (.lock rfl rfl rfl) rfl nofun trivial nofun) <|
    .cons ⟨.body (t := .api ()) rfl rfl, trivial⟩ <|
    .cons (guarded_api (.asyncSend rfl rfl) rfl nofun trivial nofun) <|
    .cons (guarded_api (.unlock rfl rfl) rfl nofun trivial nofun) <|
    .cons (guarded_api (.ret rfl rfl) rfl nofun trivial nofun) <|
    .cons (guarded_loop (.acquire rfl rfl) (by decide) trivial nofun) <|
    .cons ⟨.nonePending rfl (pendingcnt_runArrays.trans pendingcnt_runArrays), trivial⟩ <|
    .cons ⟨.timeUpdate rfl, trivial⟩ <|
    .cons (guarded_loop (.release rfl) (by decide) trivial nofun) <|
    .cons (guarded_loop (.next rfl) (by decide) trivial nofun) <|
    .cons (guarded_tick 2000) <|
    .cons (guarded_loop (.reacquire rfl rfl) (by decide) trivial nofun) <|
    .cons ⟨.timeUpdateAfterPoll rfl, trivial⟩ <|
    .cons ⟨.reifyRound rfl twoTimers_expire.1, trivial⟩ <|
    .single ⟨.reifyDone rfl twoTimers_expire.2.1, trivial⟩⟩
  case live =>
    funext w
    cases w <;> rfl
  case pc => rfl
  case arrays => rfl

/-- The abstract program makes the same run, up to where one timer is pending and both go on. -/
theorem bfSysTimer_refines_two : ∃ es p s,
    Run (Guarded ArrayStep fun p => Disciplined p.1)
      ((initial Unit (fun _ => ⟨0, 0, false⟩) 0 0 : State Unit Bool Bool), noTimers Bool Bool) es
        p ∧
      Run (Guarded Step Disciplined) (initial Unit (fun _ => ⟨0, 0, false⟩) 0 0) es s ∧
      p.2.Refines Set.univ s.ev ∧ s.ev.pendings = [false] ∧ ∀ w, w ∈ s.ev.timers := by
  obtain ⟨es, p, hlive, -, harrays, hrun⟩ := twoTimers_run
  obtain ⟨s, hs, -, href⟩ := bfSysTimer_refines 1 (noTimers Bool Bool) (noTimers_fresh Bool Bool)
    _ _ _ p hrun
  have hset : {w : Bool | true = true} = Set.univ := Set.eq_univ_of_forall fun _ => rfl
  rw [hlive, hset] at href
  have hexpire := twoTimers_expire.2.2
  rw [← harrays] at hexpire
  refine ⟨es, p, s, hrun, hs, href, href.pendings.trans hexpire.pendings.symm, fun w => ?_⟩
  rw [href.mem_timers trivial, ← hexpire.mem_timers trivial]
  cases w <;> decide

/-- The assertions hold with two timers in the heap, of which one is in the queue as well. -/
theorem bfSysTimer_evVerify_two : ∃ p : State Unit Bool Bool × LoopData Bool Bool,
    (∀ w, p.2.timers.active w ≠ 0) ∧ p.2.pending false ≠ 0 ∧ p.2.EvVerify ∧ NextAsserts p := by
  obtain ⟨es, p, -, -, harrays, hrun⟩ := twoTimers_run
  obtain ⟨hverify, hnext, -⟩ := bfSysTimer_evVerify 1 (noTimers Bool Bool)
    (noTimers_fresh Bool Bool) _ _ _ p hrun
  have hexpire := twoTimers_expire.2.2
  rw [← harrays] at hexpire
  refine ⟨p, fun w => (hexpire.mem_timers trivial).mp ?_, ?_, hverify, hnext⟩
  · cases w <;> decide
  · exact (hexpire.mem_pendings.mp (List.mem_singleton_self false)).2

end TargetSys.Timer
