import TargetSys.Timer.Blocking
import TargetSys.Timer.EvPipe
import TargetSys.Timer.Stopped

/-!
# The loop does not sleep over a timer

Reference: `src/bf_sal/linux_usr/bf_sys_timer.c`, and `ev_run` and `ev_async_send` in
`third-party/libev/ev.c`.

`bf_sys_timer_start` and `bf_sys_timer_stop` change the timers of a loop that has computed how long
to sleep and sleeps already. That is why they call `ev_async_send`. Here the program and the pipe of
the loop run side by side: the call of `ev_async_send` is made of the accesses in `EvPipe`, and so are
the statements of `ev_run` around its poll. `wakeAt` is the time at which the poll ends by itself.
`io_blocktime` is zero, as nothing sets it.

## Main results

* `Refines.waittime`: what the loop computes from the root of the heap is the time of the first timer.
* `run_prog`: what holds of the program alone holds of it beside its pipe.
* `bfSysTimer_no_oversleep`: a loop that sleeps beyond some timer is about to be woken.
-/

namespace TargetSys.Timer

open Transition

/-! ## The time of the first timer -/

section Waittime

variable {H W : Type*} {a : EvLoop H W} {b : BlockSettings} {w : W}

/-- `waittime`, from the list of the timers. -/
def EvLoop.waittime (a : EvLoop H W) (b : BlockSettings) : ℤ :=
  max (max (a.timers.foldr (fun w to' => min ((a.watcher w).evAt - a.mnNow) to') MAX_BLOCKTIME)
    b.timeoutBlocktime) b.backendMintime

/-- A bound below the least time is one below all of them. -/
theorem le_foldr_min {f : W → ℤ} {x y : ℤ} {ws : List W} :
    y ≤ ws.foldr (fun w z => min (f w) z) x ↔ y ≤ x ∧ ∀ w ∈ ws, y ≤ f w := by
  induction ws with
  | nil => simp
  | cons w ws ih =>
      rw [List.foldr_cons, le_min_iff, ih, List.forall_mem_cons]
      tauto

/-- No timer ends before the loop wakes up, but for what the settings ask for. -/
theorem EvLoop.waittime_le (hw : w ∈ a.timers) :
    a.waittime b ≤ max ((a.watcher w).evAt - a.mnNow) (max b.timeoutBlocktime b.backendMintime) := by
  have hmin := (le_foldr_min.mp (le_refl (a.timers.foldr
    (fun w to' => min ((a.watcher w).evAt - a.mnNow) to') MAX_BLOCKTIME))).2 w hw
  rw [EvLoop.waittime, max_assoc]
  exact max_le_max_right _ hmin

/-- The loop finds the first timer at the root of the heap. -/
theorem LoopData.Refines.waittime {K : Set W} {l : LoopData H W} (h : l.Refines K a) :
    l.waittime b = a.waittime b := by
  have hfold : a.timers.foldr (fun w to' => min ((a.watcher w).evAt - a.mnNow) to') MAX_BLOCKTIME =
      if l.timercnt ≠ 0 then min MAX_BLOCKTIME ((l.timers.entry HEAP0).evAt - l.mnNow)
      else MAX_BLOCKTIME := by
    -- both minima have the same lower bounds, as the root is due first
    apply eq_of_forall_le_iff
    intro y
    rw [le_foldr_min]
    by_cases hn : l.timercnt ≠ 0
    · rw [if_pos hn, le_min_iff]
      have hK := h.heap.root_mem hn
      have hact := h.heap.root_active_ne_zero hn
      have hroot : (l.timers.entry HEAP0).evAt = (a.watcher (l.timers.entry HEAP0).w).evAt := by
        rw [h.watcher _ hK, h.heap.cache HEAP0 (Nat.le_refl _) (by omega)]
      refine and_congr_right fun _ => ⟨fun hall => ?_, fun hle w hw => ?_⟩
      · rw [hroot, ← h.mnNow]
        exact hall _ ((h.timers _).mpr ⟨hK, hact⟩)
      · obtain ⟨hwK, hwact⟩ := (h.timers w).mp hw
        have hfirst := h.heap.root_le hwK hwact
        rw [h.watcher w hwK, h.mnNow]
        rw [hroot, h.watcher _ hK] at hle
        omega
    · rw [if_neg hn]
      refine ⟨fun hall => hall.1, fun hle => ⟨hle, fun w hw => ?_⟩⟩
      obtain ⟨hwK, hwact⟩ := (h.timers w).mp hw
      obtain ⟨hb, hlt, -⟩ := h.heap.mem_range hwK hwact
      omega
  rw [EvLoop.waittime, hfold]
  unfold LoopData.waittime
  dsimp only
  split_ifs <;> omega

end Waittime

/-! ## The program beside the pipe -/

/-- The program, the pipe of its loop, and the time at which the poll ends by itself. The threads of
the program send, and so do others, from signal handlers say. -/
structure Joint (τ H W κ N : Type*) where
  prog : State τ H W
  pipe : EvPipe.State (Tid τ ⊕ κ) N
  wakeAt : ℤ

/-- Where the accesses of the loop to the pipe stand among its other statements. `setWanted` and
`testWait` come between `time_update` and `EV_RELEASE_CB`, and `clearWanted` and `testSkipped` between
`EV_ACQUIRE_CB` and the next `time_update`; `pipecb` comes first in `EV_INVOKE_PENDING`. -/
def LoopPc.Beside {N : Type*} : LoopPc → EvPipe.LoopPc N → Prop
  | .release, p => p = .setWanted ∨ p = .testWait ∨ ∃ wait, p = .poll wait
  | .poll, p => (∃ wait, p = .poll wait) ∨ p = .clearWanted
  | .reacquire, p => p = .clearWanted
  | .timeUpdateAfterPoll, p => p = .clearWanted ∨ p = .testSkipped ∨ p = .invokePending
  | .reify, p => p = .invokePending
  | .invokePending, p => ¬ p.Wants ∧ p ≠ .testSkipped
  | _, p => p = .setWanted

section Joint

variable {τ H W κ N : Type*} [DecidableEq τ] [DecidableEq H] [DecidableEq W] [DecidableEq κ]
  [DecidableEq N] (ws : EvPipe.Watchers N) (asyncW : N) (b : BlockSettings)

/-- The loop computes how long to wait when it looks at `pipe_write_skipped` for the first time. -/
def EvLoop.wakeTime (ev : EvLoop H W) (wakeAt : ℤ) : EvPipe.LoopPc N → ℤ
  | .testWait => ev.mnNow + ev.waittime b
  | _ => wakeAt

/-- One statement of the program, or one access to what the pipe shares. -/
inductive JointStep : Joint τ H W κ N → Event τ H W → Joint τ H W κ N → Prop
  | prog {c c' : State τ H W} {p : EvPipe.State (Tid τ ⊕ κ) N} {wakeAt : ℤ} {e : Event τ H W} :
      Step c e c' →
      (∀ t f evt, c.frame t = some f → f.pc = .asyncSend evt → c'.frame t = some f) →
      c'.pc.Beside p.pc → JointStep ⟨c, p, wakeAt⟩ e ⟨c', p, wakeAt⟩
  | sending {c : State τ H W} {p p' : EvPipe.State (Tid τ ⊕ κ) N} {wakeAt : ℤ} {t : Tid τ}
      {f : Frame H W} {evt : W} {e : EvPipe.Event (Tid τ ⊕ κ) N} :
      c.frame t = some f → f.pc = .asyncSend evt → EvPipe.SendStep ws (.inl t) p e p' →
      e ≠ .ret (.inl t) → (∀ n, e = .call (.inl t) n → n = asyncW) →
      JointStep ⟨c, p, wakeAt⟩ .silent ⟨c, p', wakeAt⟩
  | sent {c : State τ H W} {p p' : EvPipe.State (Tid τ ⊕ κ) N} {wakeAt : ℤ} {t : Tid τ}
      {f : Frame H W} {evt : W} :
      c.frame t = some f → f.pc = .asyncSend evt →
      EvPipe.SendStep ws (.inl t) p (.ret (.inl t)) p' →
      JointStep ⟨c, p, wakeAt⟩ .silent ⟨c.goto t f (.unlock evt), p', wakeAt⟩
  | signal {c : State τ H W} {p p' : EvPipe.State (Tid τ ⊕ κ) N} {wakeAt : ℤ} {k : κ}
      {e : EvPipe.Event (Tid τ ⊕ κ) N} : EvPipe.SendStep ws (.inr k) p e p' →
      JointStep ⟨c, p, wakeAt⟩ .silent ⟨c, p', wakeAt⟩
  | loop {c : State τ H W} {p p' : EvPipe.State (Tid τ ⊕ κ) N} {wakeAt : ℤ}
      {e : EvPipe.Event (Tid τ ⊕ κ) N} : EvPipe.LoopStep ws p e p' → c.pc.Beside p'.pc →
      JointStep ⟨c, p, wakeAt⟩ .silent ⟨c, p', c.ev.wakeTime b wakeAt p.pc⟩

/-- Before `bf_sys_timer_init`, with a pipe that nobody has used. -/
def Joint.initial (watcher : W → EvTimer H) (mnNow clock : ℤ) : Joint τ H W κ N :=
  ⟨Timer.initial τ watcher mnNow clock, EvPipe.initial (Tid τ ⊕ κ) N, mnNow⟩

/-- No timer ends before `wakeAt`, but for what the settings ask for. -/
def Joint.Covers (j : Joint τ H W κ N) : Prop :=
  ∀ w ∈ j.prog.ev.timers, j.wakeAt ≤
    max (j.prog.ev.watcher w).evAt (j.prog.ev.mnNow + max b.timeoutBlocktime b.backendMintime)

/-- A thread has changed the timers, and has not marked `async_w` yet. -/
def Joint.ToSend (j : Joint τ H W κ N) : Prop :=
  ∃ t f evt, j.prog.frame t = some f ∧ f.pc = .asyncSend evt ∧
    ∀ n q, j.pipe.sender (.inl t) = some (n, q) → q = .mark

/-- Someone is within `ev_async_send`, or a signal handler within its send. -/
def Joint.Waking (j : Joint τ H W κ N) : Prop :=
  (∃ t f evt, j.prog.frame t = some f ∧ f.pc = .asyncSend evt) ∨
    ∃ k, j.pipe.sender (.inr k) ≠ none

/-- What holds of the program beside its pipe. -/
structure Awaited (j : Joint τ H W κ N) : Prop where
  prog : Sound j.prog
  pipe : EvPipe.Sound ws j.pipe
  beside : j.prog.pc.Beside j.pipe.pc
  sender : ∀ t n q, j.pipe.sender (.inl t) = some (n, q) →
    n = asyncW ∧ ∃ f evt, j.prog.frame t = some f ∧ f.pc = .asyncSend evt
  asleep : j.pipe.pc = .poll true → j.Covers b ∨ j.pipe.note asyncW = true ∨ j.ToSend

variable {ws asyncW b}

omit [DecidableEq τ] [DecidableEq H] [DecidableEq W] [DecidableEq κ] [DecidableEq N] in
/-- The loop does not sleep yet. -/
theorem awaited_initial (watcher : W → EvTimer H) (mnNow clock : ℤ) :
    Awaited ws asyncW b (Joint.initial watcher mnNow clock : Joint τ H W κ N) :=
  ⟨sound_initial watcher mnNow clock, EvPipe.sound_initial ws, rfl, nofun, nofun⟩

/-! ## What the steps leave alone -/

omit [DecidableEq τ] [DecidableEq H] [DecidableEq W] [DecidableEq κ] [DecidableEq N] in
/-- While the pipe is polled, the program is at `EV_RELEASE_CB` or at its poll. -/
theorem LoopPc.Beside.of_poll {pc : LoopPc} {wait : Bool}
    (h : pc.Beside (.poll wait : EvPipe.LoopPc N)) : pc = .release ∨ pc = .poll := by
  cases pc with
  | release => exact .inl rfl
  | poll => exact .inr rfl
  | timeUpdateAfterPoll => rcases h with h | h | h <;> cases h
  | invokePending => exact absurd trivial h.1
  | _ => cases h

/-- While the loop is on its way to sleep or sleeps, only the locked part of a call changes its
timers, and the call of `ev_async_send` follows. -/
theorem Sound.step_asleep {c c' : State τ H W} {e : Event τ H W} (h : Sound c) (hs : Step c e c')
    (hpc : c.pc = .release ∨ c.pc = .poll) :
    (c'.ev.timers = c.ev.timers ∧ (∀ w ∈ c.ev.timers, c'.ev.watcher w = c.ev.watcher w) ∧
      c'.ev.mnNow = c.ev.mnNow) ∨
      ∃ t f evt, c.frame t = some f ∧ f.pc = .body evt ∧
        c'.frame t = some { f with pc := .asyncSend evt } := by
  cases hs with
  | call op hd hf hcb => exact .inl ⟨rfl, fun _ _ => rfl, rfl⟩
  | tick d => exact .inl ⟨rfl, fun _ _ => rfl, rfl⟩
  | api t hs =>
      cases hs with
      | @malloc f w start period cb d hf hp hop hl =>
          refine .inl ⟨rfl, fun v hv => Function.update_of_ne ?_ .., rfl⟩
          rintro rfl
          rw [(h.refers v (.inl hv)).1] at hl
          cases hl
      | @body f evt hf hp => exact .inr ⟨t, f, evt, hf, hp, State.goto_frame_self ..⟩
      | _ => exact .inl ⟨rfl, fun _ _ => rfl, rfl⟩
  | loop hs =>
      cases hs with
      | next hn => exact .inl ⟨rfl, fun _ _ => rfl, rfl⟩
      | release hr => exact .inl ⟨rfl, fun _ _ => rfl, rfl⟩
      | _ => simp [*] at hpc

variable {j j' : Joint τ H W κ N} {e : Event τ H W}

omit [DecidableEq κ] [DecidableEq N] in
/-- A statement of the program beside the pipe. -/
theorem awaited_prog {c c' : State τ H W} {p : EvPipe.State (Tid τ ⊕ κ) N} {wakeAt : ℤ}
    (h : Awaited ws asyncW b ⟨c, p, wakeAt⟩) (hd : Disciplined c e) (hstep : Step c e c')
    (hkeep : ∀ t f evt, c.frame t = some f → f.pc = .asyncSend evt → c'.frame t = some f)
    (hbeside : c'.pc.Beside p.pc) : Awaited ws asyncW b ⟨c', p, wakeAt⟩ := by
  refine ⟨sound_step h.prog ⟨hstep, hd⟩, h.pipe, hbeside, fun t n q ht => ?_, fun hpc => ?_⟩
  · obtain ⟨rfl, f, evt, hf, hasync⟩ := h.sender t n q ht
    exact ⟨rfl, f, evt, hkeep t f evt hf hasync, hasync⟩
  · have hbefore := h.beside
    rw [show p.pc = .poll true from hpc] at hbefore
    rcases h.asleep hpc with hcov | hnote | ⟨t, f, evt, hf, hasync, hmark⟩
    · rcases h.prog.step_asleep hstep hbefore.of_poll with
        ⟨ht, hw, hnow⟩ | ⟨t, f, evt, hf, hbody, hf'⟩
      · refine .inl fun w hmem => ?_
        dsimp only at hmem ⊢
        rw [ht] at hmem
        rw [hw w hmem, hnow]
        exact hcov w hmem
      · -- the thread that has changed the timers has not called `ev_async_send` yet
        refine .inr (.inr ⟨t, _, evt, hf', rfl, fun n q ht => ?_⟩)
        obtain ⟨-, g, evt', hg, hasync⟩ := h.sender t n q ht
        rw [show c.frame t = some f from hf] at hg
        cases hg
        rw [hbody] at hasync
        cases hasync
    · exact .inr (.inl hnote)
    · exact .inr (.inr ⟨t, f, evt, hkeep t f evt hf hasync, hasync, hmark⟩)

omit [DecidableEq H] [DecidableEq W] in
/-- An access of a sender, while the program is where it was or leaves its `ev_async_send`. A note
stays, so it is enough to look at who has still to mark. -/
theorem Awaited.send {c c' : State τ H W} {p p' : EvPipe.State (Tid τ ⊕ κ) N} {wakeAt : ℤ}
    {u : Tid τ ⊕ κ} {d : EvPipe.Event (Tid τ ⊕ κ) N} (h : Awaited ws asyncW b ⟨c, p, wakeAt⟩)
    (hsend : EvPipe.SendStep ws u p d p') (hprog : Sound c') (hev : c'.ev = c.ev)
    (hpc : c'.pc = c.pc)
    (hsender : ∀ t n q, p'.sender (.inl t) = some (n, q) →
      n = asyncW ∧ ∃ f evt, c'.frame t = some f ∧ f.pc = .asyncSend evt)
    (hmark : ∀ t f evt, c.frame t = some f → f.pc = .asyncSend evt →
      (∀ n q, p.sender (.inl t) = some (n, q) → q = .mark) →
      p'.note asyncW = true ∨ Joint.ToSend (⟨c', p', wakeAt⟩ : Joint τ H W κ N)) :
    Awaited ws asyncW b ⟨c', p', wakeAt⟩ := by
  obtain ⟨hp, -, hmarks⟩ := hsend.frame
  refine ⟨hprog, EvPipe.sound_send h.pipe hsend, ?_, hsender, fun hpoll => ?_⟩
  · dsimp only
    rw [hp, hpc]
    exact h.beside
  · rcases h.asleep (hp.symm.trans hpoll) with hcov | hnote | ⟨t, f, evt, hf, hasync, ht⟩
    · refine .inl ?_
      unfold Joint.Covers at hcov ⊢
      dsimp only at hcov ⊢
      rwa [hev]
    · exact .inr (.inl (hmarks asyncW hnote))
    · exact .inr (hmark t f evt hf hasync ht)

omit [DecidableEq H] [DecidableEq W] in
/-- A thread within its `ev_async_send`. -/
theorem awaited_sending {c : State τ H W} {p p' : EvPipe.State (Tid τ ⊕ κ) N} {wakeAt : ℤ} {t : Tid τ}
    {f : Frame H W} {evt : W} {d : EvPipe.Event (Tid τ ⊕ κ) N}
    (h : Awaited ws asyncW b ⟨c, p, wakeAt⟩) (hf : c.frame t = some f) (hasync : f.pc = .asyncSend evt)
    (hsend : EvPipe.SendStep ws (.inl t) p d p') (hret : d ≠ .ret (.inl t))
    (hcall : ∀ n, d = .call (.inl t) n → n = asyncW) : Awaited ws asyncW b ⟨c, p', wakeAt⟩ := by
  obtain ⟨-, hother, -⟩ := hsend.frame
  have hne {u : Tid τ} (hu : u ≠ t) : p'.sender (.inl u) = p.sender (.inl u) :=
    hother _ (by simpa using hu)
  have hown := hsend.own
  refine h.send hsend h.prog rfl rfl (fun u n q hu => ?_) fun u g evt' hg hgasync hmark => ?_
  · by_cases hut : u = t
    · subst hut
      refine ⟨?_, f, evt, hf, hasync⟩
      rcases hown with ⟨m, he, ht⟩ | ⟨he, -⟩ | ⟨-, m, r, r', ht, ht', -⟩
      · rw [hu] at ht
        cases ht
        exact hcall n he
      · exact absurd he hret
      · rw [hu] at ht'
        cases ht'
        exact (h.sender u _ _ ht).1
    · rw [hne hut] at hu
      exact h.sender u n q hu
  · by_cases hut : u = t
    · subst hut
      rcases hown with ⟨m, he, ht⟩ | ⟨he, -⟩ | ⟨-, m, r, r', ht, ht', hnote⟩
      · refine .inr ⟨u, g, evt', hg, hgasync, fun n q hq => ?_⟩
        rw [show p'.sender (.inl u) = _ from hq] at ht
        cases ht
        rfl
      · exact absurd he hret
      · -- it has marked now
        obtain ⟨rfl, -⟩ := h.sender u _ _ ht
        exact .inl (hnote (hmark _ _ ht))
    · exact .inr ⟨u, g, evt', hg, hgasync, fun n q hq => hmark n q ((hne hut).symm.trans hq)⟩

/-- A thread at the last access of its `ev_async_send`. -/
theorem awaited_sent {c : State τ H W} {p p' : EvPipe.State (Tid τ ⊕ κ) N} {wakeAt : ℤ} {t : Tid τ}
    {f : Frame H W} {evt : W} (h : Awaited ws asyncW b ⟨c, p, wakeAt⟩) (hf : c.frame t = some f)
    (hasync : f.pc = .asyncSend evt) (hsend : EvPipe.SendStep ws (.inl t) p (.ret (.inl t)) p') :
    Awaited ws asyncW b ⟨c.goto t f (.unlock evt), p', wakeAt⟩ := by
  obtain ⟨-, hother, -⟩ := hsend.frame
  have hne {u : Tid τ} (hu : u ≠ t) : p'.sender (.inl u) = p.sender (.inl u) :=
    hother _ (by simpa using hu)
  obtain ⟨hnone, n, q, hq, hqmark⟩ : p'.sender (.inl t) = none ∧
      ∃ n q, p.sender (.inl t) = some (n, q) ∧ q ≠ .mark := by
    rcases hsend.own with ⟨m, he, -⟩ | ⟨-, hnone, hq⟩ | ⟨hret, -⟩
    · cases he
    · exact ⟨hnone, hq⟩
    · exact absurd rfl (hret _)
  refine h.send hsend (sound_step h.prog ⟨.api t (.asyncSend hf hasync), trivial⟩) rfl rfl
    (fun u m r hu => ?_) fun u g evt' hg hgasync hmark => ?_
  · by_cases hut : u = t
    · subst hut
      rw [hu] at hnone
      cases hnone
    · rw [hne hut] at hu
      obtain ⟨rfl, g, evt', hg, hgasync⟩ := h.sender u m r hu
      exact ⟨rfl, g, evt', (State.setFrame_frame_ne hut _).trans hg, hgasync⟩
  · have hut : u ≠ t := by
      rintro rfl
      exact hqmark (hmark n q hq)
    exact .inr ⟨u, g, evt', (State.setFrame_frame_ne hut _).trans hg, hgasync,
      fun m r hr => hmark m r ((hne hut).symm.trans hr)⟩

omit [DecidableEq H] [DecidableEq W] in
/-- A signal handler. -/
theorem awaited_signal {c : State τ H W} {p p' : EvPipe.State (Tid τ ⊕ κ) N} {wakeAt : ℤ} {k : κ}
    {d : EvPipe.Event (Tid τ ⊕ κ) N} (h : Awaited ws asyncW b ⟨c, p, wakeAt⟩)
    (hsend : EvPipe.SendStep ws (.inr k) p d p') : Awaited ws asyncW b ⟨c, p', wakeAt⟩ := by
  obtain ⟨-, hother, -⟩ := hsend.frame
  have hne (u : Tid τ) : p'.sender (.inl u) = p.sender (.inl u) := hother _ nofun
  refine h.send hsend h.prog rfl rfl (fun u m r hu => ?_) fun u g evt hg hgasync hmark => ?_
  · rw [hne u] at hu
    exact h.sender u m r hu
  · exact .inr ⟨u, g, evt, hg, hgasync, fun m r hr => hmark m r ((hne u).symm.trans hr)⟩

omit [DecidableEq τ] [DecidableEq H] [DecidableEq W] [DecidableEq κ] in
/-- An access of the loop. When it goes to sleep, it has just computed for how long. -/
theorem awaited_loop {c : State τ H W} {p p' : EvPipe.State (Tid τ ⊕ κ) N} {wakeAt : ℤ}
    {d : EvPipe.Event (Tid τ ⊕ κ) N} (h : Awaited ws asyncW b ⟨c, p, wakeAt⟩)
    (hloop : EvPipe.LoopStep ws p d p') (hbeside : c.pc.Beside p'.pc) :
    Awaited ws asyncW b ⟨c, p', c.ev.wakeTime b wakeAt p.pc⟩ := by
  refine ⟨h.prog, EvPipe.sound_loop h.pipe hloop, hbeside, fun u m r hu => ?_, fun hp => ?_⟩
  · rw [show p'.sender = p.sender from hloop.sender] at hu
    exact h.sender u m r hu
  · refine .inl fun w hw => ?_
    have hle := c.ev.waittime_le (b := b) hw
    dsimp only
    rw [hloop.to_poll hp, EvLoop.wakeTime]
    omega

/-- Every step of the program and of the pipe keeps it. -/
theorem awaited_step (h : Awaited ws asyncW b j)
    (hs : Guarded (JointStep ws asyncW b) (fun j e => Disciplined j.prog e) j e j') :
    Awaited ws asyncW b j' := by
  obtain ⟨hs, hd⟩ := hs
  cases hs with
  | prog hstep hkeep hbeside => exact awaited_prog h hd hstep hkeep hbeside
  | sending hf hasync hsend hret hcall => exact awaited_sending h hf hasync hsend hret hcall
  | sent hf hasync hsend => exact awaited_sent h hf hasync hsend
  | signal hsend => exact awaited_signal h hsend
  | loop hloop hbeside => exact awaited_loop h hloop hbeside

/-- The loop is awaited in every state that a disciplined run reaches. -/
theorem awaited_run {watcher : W → EvTimer H} {mnNow clock : ℤ} {es : List (Event τ H W)}
    (h : Run (Guarded (JointStep ws asyncW b) fun j e => Disciplined j.prog e)
      (Joint.initial watcher mnNow clock) es j) : Awaited ws asyncW b j :=
  h.invariant (fun _ _ _ => awaited_step) (awaited_initial watcher mnNow clock)

/-- Beside its pipe the program does what it does alone, where `ev_async_send` is one statement. -/
theorem run_prog {watcher : W → EvTimer H} {mnNow clock : ℤ} {es : List (Event τ H W)}
    (h : Run (Guarded (JointStep ws asyncW b) fun j e => Disciplined j.prog e)
      (Joint.initial watcher mnNow clock) es j) :
    Run (Guarded Step Disciplined) (initial τ watcher mnNow clock) es j.prog := by
  have hstutter (c : State τ H W) : Guarded Step Disciplined c .silent c := by
    have htick := Step.tick (s := c) 0
    exact ⟨by simpa using htick, trivial⟩
  have hstep : ∀ (j : Joint τ H W κ N) (s : State τ H W) e j', s = j.prog →
      Guarded (JointStep ws asyncW b) (fun j e => Disciplined j.prog e) j e j' →
      ∃ s', Guarded Step Disciplined s e s' ∧ s' = j'.prog := by
    rintro j s e j' rfl ⟨hs, hd⟩
    refine ⟨j'.prog, ?_, rfl⟩
    cases hs with
    | prog hstep hkeep hbeside => exact ⟨hstep, hd⟩
    | sent hf hasync hsend => exact ⟨.api _ (.asyncSend hf hasync), trivial⟩
    | sending hf hasync hsend hret hcall => exact hstutter _
    | signal hsend => exact hstutter _
    | loop hloop hbeside => exact hstutter _
  obtain ⟨s, hs, rfl⟩ := h.simulate hstep rfl
  exact hs

/-- **The loop does not sleep over a timer.** However calls, signals and the loop interleave, a loop
that sleeps and has nothing in its pipe wakes up by itself before any active timer ends, but for the
times that its settings ask for, unless someone is just about to wake it: some call of
`bf_sys_timer_start`, `bf_sys_timer_stop` or `bf_sys_timer_del` is not past its `ev_async_send`, or a
signal handler is sending. -/
theorem bfSysTimer_no_oversleep (hchan : ws.chan asyncW = .async) (hstarted : asyncW ∈ ws.items .async)
    (watcher : W → EvTimer H) (mnNow clock : ℤ) {es : List (Event τ H W)}
    (h : Run (Guarded (JointStep ws asyncW b) fun j e => Disciplined j.prog e)
      (Joint.initial watcher mnNow clock) es j) (hb : j.pipe.Blocked) :
    (∀ w ∈ j.prog.ev.timers, j.wakeAt ≤ max (j.prog.ev.watcher w).evAt
      (j.prog.ev.mnNow + max b.timeoutBlocktime b.backendMintime)) ∨ j.Waking := by
  have ha := awaited_run h
  rcases ha.asleep hb.1 with hcov | hnote | ⟨t, f, evt, hf, hasync, -⟩
  · exact .inl hcov
  · right
    obtain ⟨t, n, q, ht, -⟩ := ha.pipe.exists_sending hb hnote (hchan ▸ hstarted)
    cases t with
    | inl t =>
        obtain ⟨-, f, evt, hf, hasync⟩ := ha.sender t n q ht
        exact .inl ⟨t, f, evt, hf, hasync⟩
    | inr k => exact .inr ⟨k, by simp [ht]⟩
  · exact .inr (.inl ⟨t, f, evt, hf, hasync⟩)

end Joint

/-- A thread that is not about to send may go on. -/
theorem keeps_setFrame {τ H W : Type*} [DecidableEq τ] {c : State τ H W} {t : Tid τ}
    {p q : Option (Frame H W)} (hp : c.frame t = p)
    (h : ∀ f evt, p = some f → f.pc ≠ .asyncSend evt) :
    ∀ u f evt, c.frame u = some f → f.pc = .asyncSend evt → (c.setFrame t q).frame u = some f := by
  intro u f evt hf hpc
  have hne : u ≠ t := by
    rintro rfl
    exact h f evt (hp.symm.trans hf) hpc
  exact (State.setFrame_frame_ne hne q).trans hf

/-- A loop without timers sleeps, and nobody is in a call. -/
def sleeping : Joint Unit Unit Unit Unit Unit where
  prog := { initial Unit (fun _ => ⟨0, 0, ()⟩) 0 0 with inited := true, pc := .poll }
  pipe := { EvPipe.initial (Tid Unit ⊕ Unit) Unit with wanted := true, pc := .poll true }
  wakeAt := 59743

/-- A run in which the loop falls asleep over a timer that was started. -/
theorem sleeping_run : ∃ es, Run (Guarded (JointStep EvPipe.asyncW () ⟨true, 0, 0, 1⟩)
    fun j e => Disciplined j.prog e) (Joint.initial (fun _ => ⟨0, 0, ()⟩) 0 0) es sleeping :=
  ⟨_, .cons ⟨.prog (.loop (.getLoop rfl)) nofun rfl, trivial⟩ <|
    .cons ⟨.prog (.loop (.next rfl)) nofun rfl, trivial⟩ <|
    .cons ⟨.prog (.loop (.next rfl)) nofun rfl, trivial⟩ <|
    .cons ⟨.prog (.loop (.setInited rfl)) nofun rfl, trivial⟩ <|
    .cons ⟨.prog (.loop (.mutexInit rfl)) nofun rfl, rfl⟩ <|
    .cons ⟨.prog (.loop (.next rfl)) nofun rfl, trivial⟩ <|
    .cons ⟨.prog (.loop (.acquire rfl rfl)) nofun ⟨id, nofun⟩, trivial⟩ <|
    .cons ⟨.prog (.loop (.nonePending rfl rfl)) nofun rfl, trivial⟩ <|
    .cons ⟨.prog (.loop (.timeUpdate rfl)) nofun (.inl rfl), trivial⟩ <|
    .cons ⟨.loop (.setWanted rfl) (.inr (.inl rfl)), trivial⟩ <|
    .cons ⟨.loop (.wait rfl rfl) (.inr (.inr ⟨true, rfl⟩)), trivial⟩ <|
    .single ⟨.prog (.loop (.release rfl)) nofun (.inl ⟨true, rfl⟩), trivial⟩⟩

/-- While the loop sleeps a timer is created and started, and `ev_async_send` is next. -/
theorem starting_run : ∃ es j, Run (Guarded (JointStep EvPipe.asyncW () ⟨true, 0, 0, 1⟩)
    fun j e => Disciplined j.prog e) sleeping es j ∧ j.pipe.Blocked ∧ j.prog.ev.timers = [()] := by
  refine ⟨_, _, .cons ⟨.prog (.callApi (t := ()) (.create 1000 500 (some 0) 0) () rfl)
      (keeps_setFrame rfl nofun) (.inl ⟨true, rfl⟩), nofun, nofun, fun _ => rfl⟩ <|
    .cons ⟨.prog (.api (.api ()) (.malloc (w := ()) rfl rfl rfl rfl)) (keeps_setFrame rfl nofun)
      (.inl ⟨true, rfl⟩), trivial⟩ <|
    .cons ⟨.prog (.api (.api ()) (.ret rfl rfl)) (keeps_setFrame rfl nofun)
      (.inl ⟨true, rfl⟩), trivial⟩ <|
    .cons ⟨.prog (.callApi (t := ()) .start () rfl) (keeps_setFrame rfl nofun) (.inl ⟨true, rfl⟩),
      nofun, nofun, nofun⟩ <|
    .cons ⟨.prog (.api (.api ()) (.test rfl rfl)) (keeps_setFrame rfl nofun)
      (.inl ⟨true, rfl⟩), trivial⟩ <|
    .cons ⟨.prog (.api (.api ()) (.testInited rfl rfl)) (keeps_setFrame rfl nofun)
      (.inl ⟨true, rfl⟩), trivial⟩ <|
    .cons ⟨.prog (.api (.api ()) (.lock rfl rfl rfl)) (keeps_setFrame rfl nofun)
      (.inl ⟨true, rfl⟩), trivial⟩ <|
    .single ⟨.prog (.api (.api ()) (.body rfl rfl)) (keeps_setFrame rfl nofun)
      (.inl ⟨true, rfl⟩), trivial⟩, ⟨rfl, rfl⟩, ?_⟩
  rfl

/-- The loop sleeps, and wakes up in time for its only timer. -/
theorem bfSysTimer_no_oversleep_one : ∃ j : Joint Unit Unit Unit Unit Unit,
    j.pipe.Blocked ∧ j.prog.ev.timers = [()] ∧
      ((∀ w ∈ j.prog.ev.timers, j.wakeAt ≤
        max (j.prog.ev.watcher w).evAt (j.prog.ev.mnNow + max 0 1)) ∨ j.Waking) := by
  obtain ⟨es, hsleeping⟩ := sleeping_run
  obtain ⟨es', j, hcalls, hblocked, htimers⟩ := starting_run
  have hrun := hsleeping.append hcalls
  exact ⟨j, hblocked, htimers, bfSysTimer_no_oversleep (b := ⟨true, 0, 0, 1⟩) rfl
    (List.mem_singleton_self ()) _ 0 0 hrun hblocked⟩

end TargetSys.Timer
