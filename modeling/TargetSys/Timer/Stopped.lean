import TargetSys.Timer.SelfLock

/-!
# Stopped and deleted timers

A timer may be active, pending or both when `bf_sys_timer_stop` or `bf_sys_timer_del` arrives from
another thread, in the middle of a batch of pending callbacks. The invariant `Sound` ties together
the handle, its watcher, the references of the loop and the owner of `u.lock`: the loop refers to
live watchers of their own handles only, and a call that has stopped a timer leaves its handle
silent.

The callers are disciplined: one thread at a time calls on a handle, a timer is created only where
there is none, and callbacks do not call. Of the start-up only one thing matters, that
`pthread_mutex_init` finds `u.lock` free. It does when the calls begin after the event loop has been
entered.

## Main results

* `bfSysTimer_silent_after_stop`: no callback after `stop` before the next `start`, and no reference
  to a watcher that `del` has freed.
-/

namespace TargetSys.Timer

open Transition

section

variable {τ H W : Type*}

/-- How callers use the API, and `pthread_mutex_init` with `u.lock` free. -/
def Disciplined (s : State τ H W) : Event τ H W → Prop
  | .call t op h => t ≠ .loop ∧ (∀ u f, s.frame u = some f → f.handle ≠ h) ∧
      (op ≠ .start ∧ op ≠ .stop ∧ op ≠ .del → (s.handle h).timer = none)
  | .mutexInit => s.owner = none
  | _ => True

/-- The loop refers to no watcher of the handle. -/
def Silent (s : State τ H W) (h : H) : Prop := ∀ w, s.ev.Refers w → (s.ev.watcher w).data ≠ h

/-- What holds of a call at its statement: the watcher it works on is still the one in its handle,
and behind the body of `stop` the handle is silent. -/
def FrameOk (s : State τ H W) (f : Frame H W) : Prop :=
  match f.pc with
  | .malloc => (s.handle f.handle).timer = none
  | .test | .testInStop => True
  | .testInited evt => (s.handle f.handle).timer = some evt
  | .lock evt | .body evt => (s.handle f.handle).timer = some evt ∧ s.inited = true
  | .asyncSend _ | .unlock _ => f.op ≠ .start → Silent s f.handle
  | .free | .clear => f.op = .del ∧ Silent s f.handle
  | .ret status => f.op = .stop → status = .ok → Silent s f.handle

/-- Handles, watchers, references, lock and calls of a disciplined program agree. -/
structure Sound (s : State τ H W) : Prop where
  loop_idle : s.frame .loop = none
  alone : ∀ t u f g, s.frame t = some f → s.frame u = some g → f.handle = g.handle → t = u
  api_owner : ∀ t f, s.frame t = some f → f.pc.InSection → s.owner = some t
  loop_owner : s.pc.InSection → s.owner = some .loop
  not_inited : s.inited = false → ∀ w, ¬ s.ev.Refers w
  rfeeds : s.pc ≠ .reify → s.ev.rfeeds = []
  refers : ∀ w, s.ev.Refers w →
    s.live w = true ∧ (s.handle (s.ev.watcher w).data).timer = some w
  timer : ∀ h w, (s.handle h).timer = some w →
    (s.live w = true ∧ (s.ev.watcher w).data = h) ∨
      ∃ t f, s.frame t = some f ∧ f.handle = h ∧ f.pc = .clear
  frames : ∀ t f, s.frame t = some f → FrameOk s f

/-- At the start there are no handles, references and calls. -/
theorem sound_initial (watcher : W → EvTimer H) (mnNow clock : ℤ) :
    Sound (initial τ watcher mnNow clock) := by
  refine ⟨?_, ?_, ?_, ?_, ?_, ?_, ?_, ?_, ?_⟩ <;> simp [initial, EvLoop.Refers]

variable {s s' : State τ H W} {t : Tid τ} {f : Frame H W}

/-- What holds of a call survives steps that leave the timer of its handle and its silence alone. -/
theorem FrameOk.mono (h : FrameOk s f)
    (htimer : (s'.handle f.handle).timer = (s.handle f.handle).timer)
    (hin : s.inited = true → s'.inited = true)
    (hsilent : f.op ≠ .start → Silent s f.handle → Silent s' f.handle) : FrameOk s' f := by
  obtain ⟨op, hd, pc⟩ := f
  cases pc with
  | malloc | testInited evt => exact htimer.trans h
  | test | testInStop => trivial
  | lock evt | body evt => exact ⟨htimer.trans h.1, hin h.2⟩
  | asyncSend evt | unlock evt => exact fun hop => hsilent hop (h hop)
  | free | clear =>
      obtain ⟨rfl, hs⟩ : op = .del ∧ Silent s hd := h
      exact ⟨rfl, hsilent (by simp) hs⟩
  | ret status =>
      intro hop hst
      obtain rfl : op = .stop := hop
      exact hsilent (by simp) (h rfl hst)

/-- A handle without a timer is silent. -/
theorem Sound.silent_of_none (h : Sound s) {hd : H} (hn : (s.handle hd).timer = none) :
    Silent s hd := by
  rintro w hw rfl
  have := (h.refers w hw).2
  rw [hn] at this
  cases this

/-- The watcher that a call in progress works on is live and belongs to the handle. -/
theorem Sound.timer_live (h : Sound s) (hf : s.frame t = some f) (hpc : f.pc ≠ .clear) {w : W}
    (hw : (s.handle f.handle).timer = some w) :
    s.live w = true ∧ (s.ev.watcher w).data = f.handle := by
  rcases h.timer _ _ hw with hlive | ⟨u, g, hg, hgh, hgpc⟩
  · exact hlive
  · obtain rfl := h.alone _ _ _ _ hg hf hgh
    rw [hf] at hg
    cases hg
    exact absurd hgpc hpc

/-- Nobody else calls on the handle of a call. -/
theorem Sound.others (h : Sound s) (hf : s.frame t = some f) {u : Tid τ} {g : Frame H W}
    (hu : u ≠ t) (hg : s.frame u = some g) : g.handle ≠ f.handle :=
  fun hh => hu (h.alone u t g f hg hf hh)

/-- Calls are made by the other threads. -/
theorem Sound.ne_loop (h : Sound s) (hf : s.frame t = some f) : t ≠ .loop := by
  rintro rfl
  rw [h.loop_idle] at hf
  cases hf

variable [DecidableEq τ] [DecidableEq H] [DecidableEq W] {e : Event τ H W}

omit [DecidableEq H] [DecidableEq W] in
/-- The calls behind a change of one of them. -/
theorem State.setFrame_cases {u : Tid τ} {o : Option (Frame H W)} {g : Frame H W}
    (hg : (s.setFrame t o).frame u = some g) :
    (u = t ∧ o = some g) ∨ (u ≠ t ∧ s.frame u = some g) := by
  by_cases hut : u = t
  · subst hut
    exact .inl ⟨rfl, by simpa using hg⟩
  · exact .inr ⟨hut, by rwa [State.setFrame_frame_ne hut] at hg⟩

omit [DecidableEq H] [DecidableEq W] in
/-- An API thread changes its call, and the shared state stays as it is, `u.lock` apart. -/
theorem Sound.setFrame (h : Sound s) (ht : t ≠ .loop) {o : Option (Tid τ)}
    {c : Option (Frame H W)}
    (hclear : ∀ f, s.frame t = some f → f.pc = .clear → (s.handle f.handle).timer = none)
    (hother : o = s.owner ∨ s.owner = none ∨ ∃ f, s.frame t = some f ∧ f.pc.InSection)
    (hcall : ∀ g, c = some g → FrameOk s g ∧ (g.pc.InSection → o = some t) ∧
      ∀ u f, u ≠ t → s.frame u = some f → f.handle ≠ g.handle) :
    Sound { s.setFrame t c with owner := o } := by
  refine ⟨?_, fun u v f g hf hg hfg => ?_, fun u f hf hsec => ?_, fun hsec => ?_, h.not_inited,
    h.rfeeds, h.refers, fun hd w hw => ?_, fun u f hf => ?_⟩
  · exact (State.setFrame_frame_ne ht.symm c).trans h.loop_idle
  · -- two calls on one handle: one of them is the new one, and `hcall` excludes the other
    rcases State.setFrame_cases hf with ⟨rfl, hc⟩ | ⟨hu, hf'⟩ <;>
      rcases State.setFrame_cases hg with ⟨rfl, hc'⟩ | ⟨hv, hg'⟩
    · rfl
    · exact absurd hfg.symm ((hcall f hc).2.2 v g hv hg')
    · exact absurd hfg ((hcall g hc').2.2 u f hu hf')
    · exact h.alone u v f g hf' hg' hfg
  · rcases State.setFrame_cases hf with ⟨rfl, hc⟩ | ⟨hu, hf'⟩
    · exact (hcall f hc).2.1 hsec
    · have hown := h.api_owner u f hf' hsec
      rcases hother with ho | ho | ⟨g, hg, hgsec⟩
      · exact ho.trans hown
      · rw [hown] at ho
        cases ho
      · have := h.api_owner t g hg hgsec
        rw [hown] at this
        exact absurd (Option.some.inj this) hu
  · have hown := h.loop_owner hsec
    rcases hother with ho | ho | ⟨g, hg, hgsec⟩
    · exact ho.trans hown
    · rw [hown] at ho
      cases ho
    · have := h.api_owner t g hg hgsec
      rw [hown] at this
      exact absurd (Option.some.inj this).symm ht
  · -- a handle whose block is freed and not cleared yet belongs to another call
    rcases h.timer hd w hw with hl | ⟨u, f, hf, hfh, hfpc⟩
    · exact .inl hl
    · have hu : u ≠ t := by
        rintro rfl
        have hn := hclear f hf hfpc
        rw [hfh, show (s.handle hd).timer = some w from hw] at hn
        cases hn
      exact .inr ⟨u, f, (State.setFrame_frame_ne hu c).trans hf, hfh, hfpc⟩
  · have hok : FrameOk s f := by
      rcases State.setFrame_cases hf with ⟨rfl, hc⟩ | ⟨hu, hf'⟩
      · exact (hcall f hc).1
      · exact h.frames u f hf'
    exact hok.mono rfl id fun _ => id

omit [DecidableEq H] [DecidableEq W] in
/-- An API thread moves on within its call, and the shared state stays as it is. -/
theorem Sound.goto (h : Sound s) (hf : s.frame t = some f) (p : ApiPc W) {o : Option (Tid τ)}
    (hclear : f.pc = .clear → (s.handle f.handle).timer = none) (ho : p.InSection → o = some t)
    (hother : o = s.owner ∨ s.owner = none ∨ f.pc.InSection)
    (hok : FrameOk s { f with pc := p }) : Sound { s.goto t f p with owner := o } := by
  refine h.setFrame (h.ne_loop hf) (fun g hg => ?_) ?_ fun g hg => ?_
  · rw [hf] at hg
    cases hg
    exact hclear
  · exact hother.imp_right (Or.imp_right fun hsec => ⟨f, hf, hsec⟩)
  · cases hg
    exact ⟨hok, ho, fun u g hu hg => h.others hf hu hg⟩

omit [DecidableEq τ] [DecidableEq H] [DecidableEq W] in
/-- The loop thread, or the clock, moves on; the references only become fewer. -/
theorem Sound.loop (h : Sound s) {ev : EvLoop H W} {o : Option (Tid τ)} {i : Bool} {p : LoopPc}
    {c : ℤ} (hrefers : ∀ w, ev.Refers w → s.ev.Refers w)
    (hdata : ∀ w, (ev.watcher w).data = (s.ev.watcher w).data)
    (hrfeeds : p ≠ .reify → ev.rfeeds = []) (hin : s.inited = true → i = true)
    (ho : p.InSection → o = some .loop)
    (hother : o = s.owner ∨ s.owner = none ∨ s.pc.InSection) :
    Sound { s with ev := ev, owner := o, inited := i, pc := p, clock := c } := by
  refine ⟨h.loop_idle, h.alone, fun t f hf hsec => ?_, ho, fun hi w hw => ?_, hrfeeds,
    fun w hw => ?_, fun hd w hw => ?_, fun t f hf => ?_⟩
  · -- a call in its section owns the lock, so the loop has not taken it
    have hown := h.api_owner t f hf hsec
    rcases hother with ho | ho | hsec'
    · exact ho.trans hown
    · rw [hown] at ho
      cases ho
    · rw [h.loop_owner hsec'] at hown
      exact absurd (Option.some.inj hown).symm (h.ne_loop hf)
  · have hi' : s.inited = false := by
      cases hs : s.inited with
      | false => rfl
      | true => exact absurd hi (by simp [hin hs])
    exact h.not_inited hi' w (hrefers w hw)
  · rw [hdata]
    exact h.refers w (hrefers w hw)
  · rw [hdata]
    exact h.timer hd w hw
  · refine (h.frames t f hf).mono rfl hin fun _ hs w hw => ?_
    rw [hdata]
    exact hs w (hrefers w hw)

/-! ## The calls that change the shared state -/

omit [DecidableEq τ] [DecidableEq H] [DecidableEq W] in
/-- While a call is in its locked part, the loop thread is not in its own. -/
theorem Sound.rfeeds_of_section (h : Sound s) (hf : s.frame t = some f) (hsec : f.pc.InSection) :
    s.ev.rfeeds = [] := by
  refine h.rfeeds fun hpc => ?_
  have hown := h.loop_owner (by simp [hpc])
  rw [h.api_owner t f hf hsec] at hown
  exact h.ne_loop hf (Option.some.inj hown)

omit [DecidableEq τ] [DecidableEq H] in
/-- What the locked part of a call makes of the references. -/
theorem Sound.refers_runBody (h : Sound s) (hf : s.frame t = some f) {evt w : W}
    (hpc : f.pc = .body evt) :
    (f.op.runBody s.ev evt).Refers w ↔
      if f.op = .start then s.ev.Refers w ∨ w = evt else s.ev.Refers w ∧ w ≠ evt := by
  have hr := h.rfeeds_of_section hf (by simp [hpc])
  rw [Op.runBody]
  split
  · exact EvLoop.refers_evTimerStart
  · exact EvLoop.refers_evTimerStop (by simp [hr])

omit [DecidableEq τ] [DecidableEq H] in
/-- No body touches `data`. -/
@[simp] theorem data_runBody (op : Op) (ev : EvLoop H W) (evt w : W) :
    ((op.runBody ev evt).watcher w).data = (ev.watcher w).data := by
  rw [Op.runBody]
  split <;> simp

omit [DecidableEq τ] [DecidableEq H] [DecidableEq W] in
/-- What holds of a call in its locked part. -/
theorem Sound.frameOk_body (h : Sound s) (hf : s.frame t = some f) {evt : W}
    (hpc : f.pc = .body evt) : (s.handle f.handle).timer = some evt ∧ s.inited = true := by
  have hok := h.frames t f hf
  simpa only [FrameOk, hpc] using hok

omit [DecidableEq τ] [DecidableEq H] in
/-- The locked part of a call. -/
theorem Sound.runBody (h : Sound s) (hf : s.frame t = some f) {evt : W} (hpc : f.pc = .body evt) :
    Sound { s with ev := f.op.runBody s.ev evt } := by
  obtain ⟨htimer, hin⟩ := h.frameOk_body hf hpc
  have hlive := h.timer_live hf (by simp [hpc]) htimer
  have hold : ∀ {w}, (f.op.runBody s.ev evt).Refers w → s.ev.Refers w ∨ f.op = .start ∧ w = evt := by
    intro w hw
    rw [h.refers_runBody hf hpc] at hw
    split at hw
    · exact hw.imp_right fun hw => ⟨‹_›, hw⟩
    · exact .inl hw.1
  refine ⟨h.loop_idle, h.alone, h.api_owner, h.loop_owner, fun hn => ?_, fun hp => ?_, fun w hw => ?_,
    fun hd w hw => ?_, fun u g hg => (h.frames u g hg).mono rfl id fun hop hs w hw hgh => ?_⟩
  · rw [hin] at hn
    cases hn
  · rw [Op.runBody]
    split <;> simp [h.rfeeds hp]
  · rw [data_runBody]
    rcases hold hw with hw | ⟨-, rfl⟩
    · exact h.refers w hw
    · exact ⟨hlive.1, hlive.2 ▸ htimer⟩
  · rw [data_runBody]
    exact h.timer hd w hw
  · rw [data_runBody] at hgh
    rcases hold hw with hw | ⟨hstart, rfl⟩
    · exact hs w hw hgh
    · -- the handle of the watcher just started is that of the call, which is a `start`
      obtain rfl := h.alone u t g f hg hf (hgh.symm.trans hlive.2)
      rw [hf] at hg
      cases hg
      exact hop hstart

omit [DecidableEq τ] in
/-- The initialisation of a fresh watcher for a handle that has none. -/
theorem Sound.initTimer (h : Sound s) {hd : H} {w : W} (hlive : s.live w = false)
    (hnone : (s.handle hd).timer = none)
    (hframes : ∀ u g, s.frame u = some g → g.handle = hd →
      g.op ≠ .stop ∧ ∃ status, g.pc = .ret status) (a b : ℕ) (cb : Option ℕ) (d : ℕ) :
    Sound (s.initTimer hd w a b cb d) := by
  -- the loop refers to live watchers only, and the block was free
  have hne : ∀ {v}, s.ev.Refers v → v ≠ w := by
    rintro v hv rfl
    rw [(h.refers v hv).1] at hlive
    cases hlive
  have hdata : ∀ {v}, v ≠ w →
      (((s.initTimer hd w a b cb d).ev.watcher v).data = (s.ev.watcher v).data ∧
        (s.initTimer hd w a b cb d).live v = s.live v) := fun hv => by
    simp [State.initTimer, hv]
  have hsilent : ∀ {h'}, Silent s h' → Silent (s.initTimer hd w a b cb d) h' := by
    intro h' hs v hv
    rw [(hdata (hne hv)).1]
    exact hs v hv
  refine ⟨h.loop_idle, h.alone, h.api_owner, h.loop_owner, h.not_inited, h.rfeeds, fun v hv => ?_,
    fun h' v hv => ?_, fun u g hg => ?_⟩
  · obtain ⟨hl, ht⟩ := h.refers v hv
    have hh : (s.ev.watcher v).data ≠ hd := h.silent_of_none hnone v hv
    rw [(hdata (hne hv)).1, (hdata (hne hv)).2]
    simp [State.initTimer, hh, hl, ht]
  · by_cases hh : h' = hd
    · subst hh
      obtain rfl : w = v := by simpa [State.initTimer] using hv
      exact .inl (by simp [State.initTimer])
    · have hv' : (s.handle h').timer = some v := by simpa [State.initTimer, hh] using hv
      rcases h.timer h' v hv' with ⟨hl, hdat⟩ | hclear
      · have hvw : v ≠ w := by
          rintro rfl
          rw [hl] at hlive
          cases hlive
        rw [(hdata hvw).1, (hdata hvw).2]
        exact .inl ⟨hl, hdat⟩
      · exact .inr hclear
  · by_cases hh : g.handle = hd
    · obtain ⟨hop, status, hpc⟩ := hframes u g hg hh
      simp only [FrameOk, hpc]
      exact fun h => absurd h hop
    · exact (h.frames u g hg).mono (by simp [State.initTimer, hh]) id fun _ => hsilent

omit [DecidableEq τ] [DecidableEq H] in
/-- The free of the watcher of a silent handle. -/
theorem Sound.freeTimer (h : Sound s) (hf : s.frame t = some f) (hpc : f.pc = .clear) {w : W}
    (hdata : (s.ev.watcher w).data = f.handle) :
    Sound { s with live := Function.update s.live w false } := by
  have hsilent : Silent s f.handle := by
    have hok := h.frames t f hf
    simp only [FrameOk, hpc] at hok
    exact hok.2
  refine ⟨h.loop_idle, h.alone, h.api_owner, h.loop_owner, h.not_inited, h.rfeeds, fun v hv => ?_,
    fun h' v hv => ?_, fun u g hg => (h.frames u g hg).mono rfl id fun _ => id⟩
  · have hvw : v ≠ w := by
      rintro rfl
      exact hsilent v hv hdata
    simpa [hvw] using h.refers v hv
  · by_cases hh : h' = f.handle
    · exact .inr ⟨t, f, hf, hh.symm, hpc⟩
    · rcases h.timer h' v hv with ⟨hl, hd⟩ | hclear
      · have hvw : v ≠ w := by
          rintro rfl
          exact hh (hd.symm.trans hdata)
        exact .inl ⟨by simpa [hvw] using hl, hd⟩
      · exact .inr hclear

omit [DecidableEq τ] [DecidableEq W] in
/-- The reset of a handle whose watcher has been freed. -/
theorem Sound.clearHandle (h : Sound s) (hf : s.frame t = some f) (hpc : f.pc = .clear) :
    Sound { s with
      handle := Function.update s.handle f.handle
        { s.handle f.handle with timer := none, cbFn := none } } := by
  have hsilent : Silent s f.handle := by
    have hok := h.frames t f hf
    simp only [FrameOk, hpc] at hok
    exact hok.2
  refine ⟨h.loop_idle, h.alone, h.api_owner, h.loop_owner, h.not_inited, h.rfeeds, fun v hv => ?_,
    fun h' v hv => ?_, fun u g hg => ?_⟩
  · simpa [hsilent v hv] using h.refers v hv
  · by_cases hh : h' = f.handle
    · subst hh
      simp at hv
    · exact h.timer h' v (by simpa [hh] using hv)
  · by_cases hu : u = t
    · subst hu
      rw [hf] at hg
      cases hg
      have hok := h.frames u f hf
      simp only [FrameOk, hpc] at hok ⊢
      exact hok
    · exact (h.frames u g hg).mono (by simp [h.others hf hu hg]) id fun _ => id

/-! ## One step -/

omit [DecidableEq τ] [DecidableEq H] [DecidableEq W] in
/-- Where `stop` leads when the handle is silent. -/
theorem frameOk_stopped (hs : Silent s f.handle) (status : Status) :
    FrameOk s { f with pc := f.op.stopped status } := by
  obtain ⟨op, hd, pc⟩ := f
  cases op with
  | del => exact ⟨rfl, hs⟩
  | start | stop | create => exact fun _ _ => hs

/-- Every statement of the API keeps it. -/
theorem sound_api (h : Sound s) (hs : ApiStep t s e s') : Sound s' := by
  cases hs with
  | mallocFails hf hpc =>
      exact h.goto hf (.ret .noResources) (by simp [hpc]) False.elim (.inl rfl)
        fun _ hst => by cases hst
  | @malloc f w a b cb d hf hpc hop hl =>
      have hok := h.frames t f hf
      simp only [FrameOk, hpc] at hok
      have hret := h.goto hf (.ret .ok) (by simp [hpc]) False.elim (.inl rfl)
        (by simp [FrameOk, hop])
      refine hret.initTimer hl hok (fun u g hg hh => ?_) a b cb d
      rcases State.setFrame_cases hg with ⟨rfl, hc⟩ | ⟨hu, hg'⟩
      · cases hc
        exact ⟨by simp [hop], _, rfl⟩
      · exact absurd hh (h.others hf hu hg')
  | @test f hf hpc =>
      refine h.goto hf _ (by simp [hpc]) (absurd · (Op.not_inSection_afterTest _ _))
        (.inl rfl) ?_
      cases htimer : (s.handle f.handle).timer with
      | none => exact fun _ hst => by cases hst
      | some evt =>
          rw [Op.afterTest]
          split
          · trivial
          · exact htimer
  | @testInStop f hf hpc =>
      cases htimer : (s.handle f.handle).timer with
      | none =>
          exact h.goto hf _ (by simp [hpc]) (absurd · (Op.not_inSection_stopped f.op _))
            (.inl rfl) (frameOk_stopped (h.silent_of_none htimer) _)
      | some evt => exact h.goto hf _ (by simp [hpc]) False.elim (.inl rfl) htimer
  | @testInited f evt hf hpc =>
      have hok := h.frames t f hf
      simp only [FrameOk, hpc] at hok
      cases hin : s.inited with
      | false =>
          have hsilent : Silent s f.handle := fun w hw => absurd hw (h.not_inited hin w)
          exact h.goto hf _ (by simp [hpc]) (absurd · (Op.not_inSection_stopped f.op _))
            (.inl rfl) (frameOk_stopped hsilent _)
      | true => exact h.goto hf _ (by simp [hpc]) False.elim (.inl rfl) ⟨hok, hin⟩
  | @lock f evt hf hpc ho =>
      have hok := h.frames t f hf
      simp only [FrameOk, hpc] at hok
      exact h.goto hf (.body evt) (by simp [hpc]) (fun _ => rfl) (.inr (.inl ho)) hok
  | @body f evt hf hpc =>
      obtain ⟨htimer, -⟩ := h.frameOk_body hf hpc
      have hown := h.api_owner t f hf (by simp [hpc])
      refine (h.runBody hf hpc).goto hf (.asyncSend evt) (by simp [hpc]) (fun _ => hown)
        (.inl rfl) fun hop w hw hwh => ?_
      -- a reference to a watcher of this handle would be to the one just stopped
      obtain ⟨hw', hne⟩ := by
        simpa only [if_neg (show f.op ≠ .start from hop)] using (h.refers_runBody hf hpc).mp hw
      rw [data_runBody] at hwh
      have := (h.refers w hw').2
      rw [hwh, htimer] at this
      exact hne (Option.some.inj this).symm
  | @asyncSend f evt hf hpc =>
      have hok := h.frames t f hf
      simp only [FrameOk, hpc] at hok
      exact h.goto hf (.unlock evt) (by simp [hpc]) (fun _ => h.api_owner t f hf (by simp [hpc]))
        (.inl rfl) hok
  | @unlock f evt hf hpc =>
      have hok := h.frames t f hf
      simp only [FrameOk, hpc] at hok
      refine h.goto hf _ (by simp [hpc]) (absurd · (Op.not_inSection_stopped f.op _))
        (.inr (.inr (by simp [hpc]))) ?_
      by_cases hop : f.op = .start
      · simp [FrameOk, hop, Op.stopped]
      · exact frameOk_stopped (hok hop) _
  | @free f w hf hpc hw =>
      have hok := h.frames t f hf
      simp only [FrameOk, hpc] at hok
      have hdata := (h.timer_live hf (by simp [hpc]) hw).2
      exact (h.goto hf .clear (by simp [hpc]) False.elim (.inl rfl) hok).freeTimer
        (State.goto_frame_self ..) rfl hdata
  | freeNull hf hpc hw =>
      have hok := h.frames t _ hf
      simp only [FrameOk, hpc] at hok
      exact h.goto hf .clear (by simp [hpc]) False.elim (.inl rfl) hok
  | @clear f hf hpc =>
      have hok := h.frames t f hf
      simp only [FrameOk, hpc] at hok
      exact (h.clearHandle hf hpc).goto hf (.ret .ok) (by simp) False.elim (.inl rfl)
        (by simp [FrameOk, hok.1])
  | @ret f status hf hpc =>
      refine h.setFrame (h.ne_loop hf) (fun g hg hgpc => ?_) (.inl rfl) (fun _ hsome => ?_)
      · rw [hf] at hg
        cases hg
        simp [hpc] at hgpc
      · cases hsome

omit [DecidableEq τ] [DecidableEq H] in
/-- Every statement of the loop thread keeps it, if `pthread_mutex_init` finds the lock free. -/
theorem sound_loop (h : Sound s) (hs : LoopStep s e s') (hinit : e = .mutexInit → s.owner = none) :
    Sound s' := by
  have hsame : ∀ w, s.ev.Refers w → s.ev.Refers w := fun _ => id
  have hdata : ∀ w, (s.ev.watcher w).data = (s.ev.watcher w).data := fun _ => rfl
  have hrf : s.pc ≠ .reify → s.ev.rfeeds = [] := h.rfeeds
  cases hs with
  | noLoop hpc | getLoop hpc =>
      exact h.loop hsame hdata (fun _ => hrf (by simp [hpc])) id False.elim (.inl rfl)
  | @next p hp =>
      have hne : s.pc ≠ .reify := fun hpc => by simp [hpc, LoopPc.next] at hp
      refine h.loop hsame hdata (fun _ => hrf hne) id (fun hsec => ?_) (.inl rfl)
      cases hpc : s.pc <;> simp [hpc, LoopPc.next] at hp <;> subst hp <;> cases hsec
  | setInited hpc =>
      exact h.loop hsame hdata (fun _ => hrf (by simp [hpc])) (fun _ => rfl) False.elim
        (.inl rfl)
  | mutexInit hpc =>
      exact h.loop hsame hdata (fun _ => hrf (by simp [hpc])) id False.elim
        (.inl (hinit rfl).symm)
  | acquire hpc ho | reacquire hpc ho =>
      exact h.loop hsame hdata (fun _ => hrf (by simp [hpc])) id (fun _ => rfl) (.inr (.inl ho))
  | release hpc =>
      exact h.loop hsame hdata (fun _ => hrf (by simp [hpc])) id False.elim
        (.inr (.inr (by simp [hpc])))
  | callbackReturns hpc | nonePending hpc | timeUpdate hpc | timeUpdateAfterPoll hpc =>
      exact h.loop hsame hdata (fun _ => hrf (by simp [hpc])) id
        (fun _ => h.loop_owner (by simp [hpc])) (.inl rfl)
  | @invoke w ws hd hpc hp =>
      refine h.loop (fun v hv => ?_) hdata (fun _ => hrf (by simp [hpc])) id
        (fun _ => h.loop_owner (by simp [hpc])) (.inl rfl)
      exact hv.imp_right (Or.imp_left fun hv => by rw [hp]; exact .tail _ hv)
  | expire hpc hw =>
      exact h.loop (fun v hv => (EvLoop.refers_expire hw.1).mp hv) (fun v => EvLoop.data_expire)
        (absurd hpc ·) id (fun _ => h.loop_owner (by simp [hpc])) (.inl rfl)
  | noneDue hpc hw =>
      exact h.loop (fun v hv => EvLoop.refers_feedReverseDone.mp hv)
        (fun v => EvLoop.data_feedReverseDone) (fun _ => rfl) id
        (fun _ => h.loop_owner (by simp [hpc])) (.inl rfl)

/-- One step of a disciplined program. -/
theorem sound_step (h : Sound s) (hs : Guarded Step Disciplined s e s') : Sound s' := by
  obtain ⟨hs, hd⟩ := hs
  cases hs with
  | @call t op hd' hf hcb =>
      obtain ⟨ht, halone, hcreate⟩ := hd
      refine h.setFrame ht (fun f hf' => by rw [hf] at hf'; cases hf') (.inl rfl) fun g hg => ?_
      cases hg
      refine ⟨?_, ?_, fun u f _ hf' => halone u f hf'⟩
      · cases op with
        | create a b cb d =>
            cases cb with
            | none => exact fun hop => nomatch hop
            | some cb => exact hcreate (by simp)
        | start | stop | del => trivial
      · cases op with
        | create a b cb d => cases cb <;> exact nofun
        | start | stop | del => exact nofun
  | api t hs => exact sound_api h hs
  | loop hs =>
      refine sound_loop h hs ?_
      rintro rfl
      exact hd
  | tick d =>
      exact h.loop (fun _ => id) (fun _ => rfl) h.rfeeds id h.loop_owner (.inl rfl)

/-! ## What a step makes of references -/

/-- A step only adds a reference to a watcher whose handle somebody is starting. -/
theorem refers_step (h : Sound s) (hs : Step s e s') {w : W} (hw : s'.ev.Refers w) :
    (s.ev.Refers w ∧ (s'.ev.watcher w).data = (s.ev.watcher w).data) ∨
      ∃ t f, s.frame t = some f ∧ f.op = .start ∧ f.handle = (s'.ev.watcher w).data := by
  cases hs with
  | call op hd hf hcb => exact .inl ⟨hw, rfl⟩
  | tick d => exact .inl ⟨hw, rfl⟩
  | loop hs =>
      left
      cases hs with
      | invoke hpc hp =>
          exact ⟨hw.imp_right (Or.imp_left fun hv => by rw [hp]; exact .tail _ hv), rfl⟩
      | expire hpc hdue => exact ⟨(EvLoop.refers_expire hdue.1).mp hw, EvLoop.data_expire⟩
      | noneDue hpc => exact ⟨EvLoop.refers_feedReverseDone.mp hw, EvLoop.data_feedReverseDone⟩
      | _ => exact ⟨hw, rfl⟩
  | api t hs =>
      cases hs with
      | @body f evt hf hpc =>
          obtain ⟨htimer, -⟩ := h.frameOk_body hf hpc
          have hold := (h.refers_runBody hf hpc).mp hw
          simp only [data_runBody]
          split at hold
          · -- only the body of `start` adds a reference, to the watcher of its handle
            rcases hold with hold | rfl
            · exact .inl ⟨hold, trivial⟩
            · exact .inr ⟨t, f, hf, ‹_›, (h.timer_live hf (by simp [hpc]) htimer).2.symm⟩
          · exact .inl ⟨hold.1, trivial⟩
      | @malloc f v a b cb d hf hpc hop hl =>
          have hv : w ≠ v := by
            rintro rfl
            rw [(h.refers w hw).1] at hl
            cases hl
          exact .inl ⟨hw, by simp [State.initTimer, State.goto, State.setFrame, hv]⟩
      | _ => exact .inl ⟨hw, rfl⟩

/-- The loop refers to no watcher of the handle, and nobody is starting it. -/
def Muted (h : H) (s : State τ H W) : Prop :=
  Silent s h ∧ ∀ t f, s.frame t = some f → f.handle = h → f.op ≠ .start

/-- A step of the API starts no call, and changes neither function nor handle of one. -/
theorem ApiStep.same_call (hs : ApiStep t s e s') {u : Tid τ} {g : Frame H W}
    (hg : s'.frame u = some g) : ∃ f, s.frame u = some f ∧ f.op = g.op ∧ f.handle = g.handle := by
  obtain ⟨-, -, -, hframe⟩ := hs.frame
  by_cases hu : u = t
  · subst hu
    cases hs with
    | ret hf hpc => simp at hg
    | mallocFails hf | malloc hf | test hf | testInStop hf | testInited hf | lock hf | body hf
    | asyncSend hf | unlock hf | free hf | freeNull hf | clear hf =>
        rw [State.goto_frame_self] at hg
        cases hg
        exact ⟨_, hf, rfl, rfl⟩
  · exact ⟨g, by rw [← hframe u hu, hg], rfl, rfl⟩

/-- Only a call of `start` ends the silence of a handle. -/
theorem muted_step (h : Sound s) {hd : H} (hm : Muted hd s) (hs : Step s e s')
    (he : ∀ t, e ≠ .call t .start hd) : Muted hd s' := by
  refine ⟨fun w hw hwd => ?_, fun u g hg hgh => ?_⟩
  · rcases refers_step h hs hw with ⟨hw', hdata⟩ | ⟨t, f, hf, hop, hfh⟩
    · exact hm.1 w hw' (hdata ▸ hwd)
    · exact hm.2 t f hf (hfh.trans hwd) hop
  · cases hs with
    | @call t op h' hf hcb =>
        rcases State.setFrame_cases hg with ⟨rfl, hc⟩ | ⟨-, hg'⟩
        · cases hc
          rintro rfl
          obtain rfl : h' = hd := hgh
          exact he _ rfl
        · exact hm.2 u g hg' hgh
    | api t hs =>
        obtain ⟨f, hf, hop, hfh⟩ := hs.same_call hg
        exact hop ▸ hm.2 u f hf (hfh.trans hgh)
    | loop hs => exact hm.2 u g (by rwa [hs.frame] at hg) hgh
    | tick d => exact hm.2 u g hg hgh

/-- The return of `BF_SYS_TIMER_OK` from `stop` leaves the handle muted. -/
theorem Sound.muted_after_stop (h : Sound s) {hd : H} (hs : Step s (.ret t .stop hd .ok) s') :
    Muted hd s' := by
  cases hs with
  | loop hs => cases hs
  | api u hs =>
      generalize hop : Op.stop = op at hs
      generalize hst : Status.ok = status at hs
      cases hs with
      | @ret f _ hf hpc =>
          subst hst
          have hok := h.frames _ f hf
          simp only [FrameOk, hpc] at hok
          refine ⟨hok hop.symm trivial, fun v g hg hgh => ?_⟩
          rcases State.setFrame_cases hg with ⟨-, hc⟩ | ⟨hv, hg'⟩
          · cases hc
          · exact absurd hgh (h.others hf hv hg')

/-- The free of a block ends its life. -/
theorem dead_of_free {w : W} (hs : Step s (.free w) s') : s'.live w = false := by
  cases hs with
  | loop hs => cases hs
  | api t hs =>
      cases hs with
      | free hf hpc hw => exact Function.update_self ..

/-- No callback of a muted handle is invoked. -/
theorem Muted.no_invoke {hd : H} (hm : Muted hd s) (cb : Option ℕ) (d : ℕ) :
    ¬ Step s (.invoke hd cb d) s' := by
  intro hs
  cases hs with
  | api t hs => cases hs
  | loop hs =>
      cases hs with
      | invoke hpc hp => exact hm.1 _ (.inr (.inl (by rw [hp]; exact .head _))) rfl

/-- Only `malloc` brings a block to life. -/
theorem dead_step {w : W} (hl : s.live w = false) (hs : Step s e s') (he : e ≠ .malloc w) :
    s'.live w = false := by
  cases hs with
  | call | tick => exact hl
  | loop hs => cases hs <;> exact hl
  | api t hs =>
      cases hs with
      | @malloc f v a b cb d hf hpc hop hv =>
          have hne : w ≠ v := fun hwv => he (hwv ▸ rfl)
          simpa [State.initTimer, State.goto, State.setFrame, hne] using hl
      | @free f v hf hpc hv =>
          by_cases hwv : w = v
          · simp [hwv]
          · simpa [State.goto, State.setFrame, hwv] using hl
      | _ => exact hl

/-- **No callback after stop or delete.** In every run of a disciplined program: behind a `stop`
that returned `BF_SYS_TIMER_OK` the callback of its handle is not invoked until `start` is called on
it; behind the free in `del` the loop refers to that watcher no more, active or pending, unless its
block has been allocated again; and in every state the loop refers to live watchers only, each named
by its own handle. -/
theorem bfSysTimer_silent_after_stop (watcher : W → EvTimer H) (mnNow clock : ℤ)
    (es : List (Event τ H W)) (s : State τ H W)
    (hrun : Run (Guarded Step Disciplined) (initial τ watcher mnNow clock) es s) :
    (∀ es₁ t h es₂, es = es₁ ++ .ret t .stop h .ok :: es₂ → (∀ u, .call u .start h ∉ es₂) →
      ∀ cb d, .invoke h cb d ∉ es₂) ∧
    (∀ es₁ w es₂, es = es₁ ++ .free w :: es₂ → .malloc w ∉ es₂ → ¬ s.ev.Refers w) ∧
    ∀ w, s.ev.Refers w →
      s.live w = true ∧ (s.handle (s.ev.watcher w).data).timer = some w := by
  have hsound : ∀ {es s}, Run (Guarded Step Disciplined) (initial τ watcher mnNow clock) es s →
      Sound s := fun h => h.invariant (fun _ _ _ hi hs => sound_step hi hs)
    (sound_initial watcher mnNow clock)
  refine ⟨?_, ?_, (hsound hrun).refers⟩
  · rintro es₁ t h es₂ rfl hstart cb d hmem
    obtain ⟨s₁, s₂, hrun₁, hret, hrun₂⟩ := hrun.split_at
    obtain ⟨es₃, es₄, rfl⟩ := List.append_of_mem hmem
    obtain ⟨s₃, s₄, hrun₃, hinvoke, -⟩ := hrun₂.split_at
    have hs₂ : Sound s₂ := sound_step (hsound hrun₁) hret
    -- muted from the return of `stop` on, as nobody starts the timer again
    have hmuted : Muted h s₂ := (hsound hrun₁).muted_after_stop hret.1
    have hs₃ := hrun₃.after (I := fun s => Sound s ∧ Muted h s)
      (P := fun e => ∀ u, e ≠ .call u .start h)
      (fun _ _ _ hi he hs => ⟨sound_step hi.1 hs, muted_step hi.1 hi.2 hs.1 he⟩) ⟨hs₂, hmuted⟩
      fun e he u heq => hstart u (heq ▸ List.mem_append_left _ he)
    exact hs₃.2.no_invoke cb d hinvoke.1
  · rintro es₁ w es₂ rfl hmalloc hw
    obtain ⟨s₁, s₂, hrun₁, hfree, hrun₂⟩ := hrun.split_at
    -- dead from the free on, as the block is not given out again
    have hdead := hrun₂.after (I := fun s => s.live w = false) (P := (· ≠ .malloc w))
      (fun _ _ _ hi he hs => dead_step hi hs.1 he) (dead_of_free hfree.1)
      fun e he heq => hmalloc (heq ▸ he)
    have hlive := ((hsound hrun).refers w hw).1
    rw [hdead] at hlive
    cases hlive

end

/-- While neither of two threads has a call under way, none is on the handle. -/
theorem ne_handle_of_idle {H W : Type*} {s : State Unit H W} {h : H}
    (hloop : s.frame .loop = none) (hapi : s.frame (.api ()) = none) :
    ∀ u f, s.frame u = some f → f.handle ≠ h := by
  rintro (_ | _) f hf
  · rw [hloop] at hf
    cases hf
  · rw [hapi] at hf
    cases hf

/-- A timer that is due when it is stopped does not go off. -/
theorem bfSysTimer_silent_after_stop_due : ∃ es₁ es₂ s,
    Run (Guarded Step Disciplined) (initial Unit (fun _ => ⟨0, 0, ()⟩) 0 0 : State Unit Unit Unit)
      (es₁ ++ .ret (.api ()) .stop () .ok :: es₂) s ∧ es₂.length = 4 ∧
    ∀ cb d, .invoke () cb d ∉ es₂ := by
  -- the timer is due when it is stopped, and the loop is in its poll
  have hbefore : Run (Guarded Step Disciplined)
      (initial Unit (fun _ => ⟨0, 0, ()⟩) 0 0 : State Unit Unit Unit) _ _ :=
    .cons ⟨.loop (.getLoop rfl), trivial⟩ <| .cons ⟨.loop (.next rfl), trivial⟩ <|
    .cons ⟨.loop (.next rfl), trivial⟩ <| .cons ⟨.loop (.setInited rfl), trivial⟩ <|
    .cons ⟨.loop (.mutexInit rfl), rfl⟩ <| .cons ⟨.loop (.next rfl), trivial⟩ <|
    .cons ⟨.callApi (t := ()) (.create 1000 0 (some 0) 0) () rfl,
      nofun, ne_handle_of_idle rfl rfl, fun _ => rfl⟩ <|
    .cons ⟨.api (.api ()) (.malloc (w := ()) rfl rfl rfl rfl), trivial⟩ <|
    .cons ⟨.api (.api ()) (.ret rfl rfl), trivial⟩ <|
    .cons ⟨.callApi (t := ()) .start () rfl, nofun, ne_handle_of_idle rfl rfl,
      fun h => absurd rfl h.1⟩ <|
    .cons ⟨.api (.api ()) (.test rfl rfl), trivial⟩ <|
    .cons ⟨.api (.api ()) (.testInited rfl rfl), trivial⟩ <|
    .cons ⟨.api (.api ()) (.lock rfl rfl rfl), trivial⟩ <|
    .cons ⟨.api (.api ()) (.body rfl rfl), trivial⟩ <|
    .cons ⟨.api (.api ()) (.asyncSend rfl rfl), trivial⟩ <|
    .cons ⟨.api (.api ()) (.unlock rfl rfl), trivial⟩ <|
    .cons ⟨.api (.api ()) (.ret rfl rfl), trivial⟩ <|
    .cons ⟨.loop (.acquire rfl rfl), trivial⟩ <| .cons ⟨.loop (.nonePending rfl rfl), trivial⟩ <|
    .cons ⟨.loop (.timeUpdate rfl), trivial⟩ <| .cons ⟨.loop (.release rfl), trivial⟩ <|
    .cons ⟨.loop (.next rfl), trivial⟩ <| .cons ⟨.tick 2000, trivial⟩ <|
    .cons ⟨.callApi (t := ()) .stop () rfl, nofun, ne_handle_of_idle rfl rfl,
      fun h => absurd rfl h.2.1⟩ <|
    .cons ⟨.api (.api ()) (.test rfl rfl), trivial⟩ <|
    .cons ⟨.api (.api ()) (.testInited rfl rfl), trivial⟩ <|
    .cons ⟨.api (.api ()) (.lock rfl rfl rfl), trivial⟩ <|
    .cons ⟨.api (.api ()) (.body rfl rfl), trivial⟩ <|
    .cons ⟨.api (.api ()) (.asyncSend rfl rfl), trivial⟩ <|
    .single ⟨.api (.api ()) (.unlock rfl rfl), trivial⟩
  have hrun := hbefore.append <|
    .cons ⟨.api (.api ()) (.ret rfl rfl), trivial⟩ <| .cons ⟨.loop (.reacquire rfl rfl), trivial⟩ <|
    .cons ⟨.loop (.timeUpdateAfterPoll rfl), trivial⟩ <|
    .cons ⟨.loop (.noneDue rfl fun _ h => nomatch h.1), trivial⟩ <|
    .single ⟨.loop (.nonePending rfl rfl), trivial⟩
  exact ⟨_, _, _, hrun, rfl, (bfSysTimer_silent_after_stop _ _ _ _ _ hrun).1 _ _ _ _ rfl
    (by simp)⟩

end TargetSys.Timer
