import TargetSys.Timer.Basic

/-!
# Callbacks and `u.lock`

The loop thread holds `u.lock` while it invokes callbacks: it takes it before `ev_run` and gives it
up only around the poll. A callback that gets past the `NULL` test of `bf_sys_timer_start`,
`bf_sys_timer_stop` or `bf_sys_timer_del` asks for `u.lock` a second time, and waits for itself.

## Main results

* `bfSysTimer_no_selfRequest`: no thread asks for a lock it owns as long as no callback gets past
  that test, and when one does, the next statements lead there.
* `bfTimerCb_selfRequest`: a callback that stops its own timer.
-/

namespace TargetSys.Timer

open Transition

/-- The statements between taking `u.lock` in the API and giving it up. -/
@[simp] def ApiPc.InSection {W : Type*} : ApiPc W → Prop
  | .body _ | .asyncSend _ | .unlock _ => True
  | _ => False

/-- The statements of the loop thread between taking `u.lock` and giving it up. -/
@[simp] def LoopPc.InSection : LoopPc → Prop
  | .invokePending | .callback | .timeUpdate | .release | .timeUpdateAfterPoll | .reify => True
  | _ => False

/-- The statements of an API call that has not got past the test of `t->timer`, or has returned. -/
@[simp] def ApiPc.Outside {W : Type*} : ApiPc W → Prop
  | .malloc | .test | .ret _ => True
  | _ => False

/-- The statements of the loop thread behind the one that sets `u.inited`. -/
@[simp] def LoopPc.Started : LoopPc → Prop
  | .getLoop | .failed | .asyncInit | .asyncStart | .setInited => False
  | _ => True

section

variable {τ H W : Type*}

/-- Thread `t` is about to lock `u.lock`. -/
def State.Requests (s : State τ H W) (t : Tid τ) : Prop :=
  (∃ f evt, s.frame t = some f ∧ f.pc = .lock evt) ∨
    (t = .loop ∧ (s.pc = .acquire ∨ s.pc = .reacquire))

/-- Some thread is about to lock `u.lock` and owns it already. -/
def SelfRequest (s : State τ H W) : Prop := ∃ t, s.owner = some t ∧ s.Requests t

/-- A callback that reads `t->timer` in `start`, `stop` or `del` finds `NULL`. -/
def FindsNull (s : State τ H W) : Event τ H W → Prop
  | .test .loop h => (s.handle h).timer = none
  | _ => True

/-- The owner of `u.lock` is where it holds it, and the calls of callbacks stay outside. -/
structure NoSelf (s : State τ H W) : Prop where
  api_owner : ∀ t, s.owner = some (.api t) → ∃ f, s.frame (.api t) = some f ∧ f.pc.InSection
  loop_owner : s.owner = some .loop → s.pc.InSection
  loop_call : ∀ f, s.frame .loop = some f → s.pc = .callback ∧ f.pc.Outside
  inited : s.pc.Started → s.inited = true

/-- With this, no thread waits for itself. -/
theorem NoSelf.not_selfRequest {s : State τ H W} (h : NoSelf s) : ¬ SelfRequest s := by
  rintro ⟨t, hown, ⟨f, evt, hf, hpc⟩ | ⟨rfl, hpc⟩⟩
  · cases t with
    | loop =>
        have := (h.loop_call f hf).2
        simp [hpc] at this
    | api t =>
        obtain ⟨g, hg, hsec⟩ := h.api_owner t hown
        rw [hf] at hg
        cases hg
        simp [hpc] at hsec
  · have := h.loop_owner hown
    rcases hpc with hpc | hpc <;> simp [hpc] at this

/-- At the start there are no calls. -/
theorem noSelf_initial (watcher : W → EvTimer H) (mnNow clock : ℤ) :
    NoSelf (initial τ watcher mnNow clock) := by
  refine ⟨?_, ?_, ?_, ?_⟩ <;> simp [initial]

/-! ## What a statement does to the lock -/

/-- Behind `stop`, the section is left. -/
theorem Op.not_inSection_stopped (op : Op) (status : Status) :
    ¬ (op.stopped status : ApiPc W).InSection := by
  cases op <;> exact not_false

/-- The test of `t->timer` is made outside the section. -/
theorem Op.not_inSection_afterTest (op : Op) (o : Option W) : ¬ (op.afterTest o).InSection := by
  cases o with
  | none => exact not_false
  | some evt =>
      rw [Op.afterTest]
      split <;> exact not_false

/-- So is the one in the `stop` that `del` calls. -/
theorem Op.not_inSection_afterTestInStop (op : Op) (o : Option W) :
    ¬ (op.afterTestInStop o).InSection := by
  cases o with
  | none => exact op.not_inSection_stopped _
  | some evt => exact not_false

/-- So is the test of `u.inited`. -/
theorem Op.not_inSection_afterTestInited (op : Op) (inited : Bool) (evt : W) :
    ¬ (op.afterTestInited inited evt).InSection := by
  unfold Op.afterTestInited
  split
  · exact not_false
  · exact op.not_inSection_stopped _

variable [DecidableEq τ] [DecidableEq H] [DecidableEq W] {s s' : State τ H W} {e : Event τ H W}
  {t : Tid τ}

/-- What a statement of the API does to the ownership of `u.lock`: it gives it up, takes it, or
leaves it alone outside the section or within. -/
theorem ApiStep.owner (h : ApiStep t s e s') :
    s'.owner = none ∨ (s'.owner = some t ∧ ∃ f, s'.frame t = some f ∧ f.pc.InSection) ∨
      (s'.owner = s.owner ∧ ((∀ f, s.frame t = some f → ¬ f.pc.InSection) ∨
        ∃ f, s'.frame t = some f ∧ f.pc.InSection)) := by
  have outside : ∀ {f : Frame H W}, s.frame t = some f → ¬ f.pc.InSection →
      ∀ g, s.frame t = some g → ¬ g.pc.InSection := by
    intro f hf hpc g hg
    rw [hf] at hg
    cases hg
    exact hpc
  cases h with
  | lock hf hpc ho => exact .inr (.inl ⟨rfl, _, State.goto_frame_self .., trivial⟩)
  | unlock hf hpc => exact .inl rfl
  | body hf hpc | asyncSend hf hpc =>
      exact .inr (.inr ⟨rfl, .inr ⟨_, State.goto_frame_self .., trivial⟩⟩)
  | mallocFails hf hpc | malloc hf hpc | test hf hpc | testInStop hf hpc | testInited hf hpc
  | free hf hpc | freeNull hf hpc | clear hf hpc | ret hf hpc =>
      exact .inr (.inr ⟨rfl, .inl (outside hf (by simp [hpc]))⟩)

/-- A call that finds `t->timer` to be `NULL` stays outside. -/
theorem ApiStep.outside (h : ApiStep t s e s') {f : Frame H W} (hf : s.frame t = some f)
    (ho : f.pc.Outside) (hn : e = .test t f.handle → (s.handle f.handle).timer = none) :
    ∀ f', s'.frame t = some f' → f'.pc.Outside := by
  intro f' hf'
  cases h with
  | @test g hg hpc =>
      obtain rfl : f = g := Option.some.inj (hf.symm.trans hg)
      rw [State.goto_frame_self, hn rfl] at hf'
      cases hf'
      trivial
  | mallocFails hg hpc | malloc hg hpc =>
      rw [State.goto_frame_self] at hf'
      cases hf'
      trivial
  | ret hg hpc => simp [State.setFrame] at hf'
  | testInStop hg hpc | testInited hg hpc | lock hg hpc | body hg hpc | asyncSend hg hpc
  | unlock hg hpc | free hg hpc | freeNull hg hpc | clear hg hpc =>
      rw [hf] at hg
      cases hg
      simp [hpc] at ho

omit [DecidableEq τ] [DecidableEq H] in
/-- What a statement of the loop thread does to the ownership of `u.lock`. -/
theorem LoopStep.owner (h : LoopStep s e s') :
    s'.owner = none ∨ (s'.owner = some .loop ∧ s'.pc.InSection) ∨
      (s'.owner = s.owner ∧ (s.pc.InSection → s'.pc.InSection)) := by
  cases h with
  | acquire hpc ho | reacquire hpc ho => exact .inr (.inl ⟨rfl, trivial⟩)
  | mutexInit hpc | release hpc => exact .inl rfl
  | @next p hp =>
      refine .inr (.inr ⟨rfl, fun hsec => ?_⟩)
      cases hpc : s.pc <;> simp [hpc, LoopPc.next] at hp hsec
  | noLoop hpc | getLoop hpc | setInited hpc | invoke hpc | callbackReturns hpc | nonePending hpc
  | timeUpdate hpc | timeUpdateAfterPoll hpc | expire hpc | noneDue hpc =>
      exact .inr (.inr ⟨rfl, by simp [hpc]⟩)

omit [DecidableEq τ] [DecidableEq H] in
/-- The loop thread sets `u.inited` before all else that matters. -/
theorem LoopStep.started (h : LoopStep s e s') (hi : s.pc.Started → s.inited = true) :
    s'.pc.Started → s'.inited = true := by
  cases h with
  | setInited hpc => exact fun _ => rfl
  | @next p hp =>
      intro hst
      cases hpc : s.pc <;> simp [hpc, LoopPc.next] at hp hi <;> subst hp <;> first
        | exact hi
        | simp at hst
  | noLoop hpc | getLoop hpc => exact fun hst => absurd hst (by simp)
  | acquire hpc | reacquire hpc | mutexInit hpc | release hpc | invoke hpc | callbackReturns hpc
  | nonePending hpc | timeUpdate hpc | timeUpdateAfterPoll hpc | expire hpc | noneDue hpc =>
      exact fun _ => hi (by simp [hpc])

omit [DecidableEq τ] [DecidableEq H] in
/-- The loop thread goes on only when no callback has a call under way. -/
theorem LoopStep.no_call (h : LoopStep s e s')
    (hc : ∀ f, s.frame .loop = some f → s.pc = .callback) : s.frame .loop = none := by
  by_contra hne
  obtain ⟨f, hf⟩ := Option.ne_none_iff_exists'.mp hne
  have hcb := hc f hf
  cases h with
  | callbackReturns hpc hnone => exact hne hnone
  | next hp => simp [hcb, LoopPc.next] at hp
  | noLoop hpc | getLoop hpc | setInited hpc | acquire hpc | reacquire hpc | mutexInit hpc
  | release hpc | invoke hpc | nonePending hpc | timeUpdate hpc | timeUpdateAfterPoll hpc
  | expire hpc | noneDue hpc => simp [hcb] at hpc

/-! ## One step -/

omit [DecidableEq H] [DecidableEq W] in
/-- A call that begins, in the loop thread only from a callback. -/
theorem NoSelf.call (h : NoSelf s) (op : Op) (hd : H) (hf : s.frame t = none)
    (hcb : t = .loop → s.pc = .callback) :
    NoSelf (s.setFrame t (some ⟨op, hd, op.enter⟩)) := by
  refine ⟨fun u hu => ?_, h.loop_owner, fun f hf' => ?_, h.inited⟩
  · obtain ⟨f, hf', hsec⟩ := h.api_owner u hu
    have hut : Tid.api u ≠ t := by
      rintro rfl
      rw [hf] at hf'
      cases hf'
    exact ⟨f, by rwa [State.setFrame_frame_ne hut], hsec⟩
  · by_cases ht : Tid.loop = t
    · subst ht
      simp only [State.setFrame, Function.update_self, Option.some.injEq] at hf'
      subst hf'
      refine ⟨hcb rfl, ?_⟩
      cases op with
      | create start period cbFn cbData => cases cbFn <;> trivial
      | start | stop | del => trivial
    · rw [State.setFrame_frame_ne ht] at hf'
      exact h.loop_call f hf'

/-- A statement of the API, where a callback finds `NULL`. -/
theorem NoSelf.api (h : NoSelf s) (hs : ApiStep t s e s') (hn : FindsNull s e) : NoSelf s' := by
  obtain ⟨⟨f, hf⟩, hpc, hin, hframe⟩ := hs.frame
  have hcall : ∀ f, s'.frame .loop = some f → s'.pc = .callback ∧ f.pc.Outside := by
    intro g hg
    by_cases ht : Tid.loop = t
    · subst ht
      obtain ⟨hcb, ho⟩ := h.loop_call f hf
      refine ⟨hpc.trans hcb, hs.outside hf ho ?_ g hg⟩
      rintro rfl
      exact hn
    · rw [hframe _ ht] at hg
      rw [hpc]
      exact h.loop_call g hg
  refine ⟨fun u hu => ?_, fun hu => ?_, hcall, by rw [hpc, hin]; exact h.inited⟩
  · rcases hs.owner with ho | ⟨ho, hsec⟩ | ⟨ho, hsec⟩
    · simp [ho] at hu
    · cases ho.symm.trans hu
      exact hsec
    · obtain ⟨g, hg, hgsec⟩ := h.api_owner u (ho ▸ hu)
      by_cases hut : Tid.api u = t
      · subst hut
        rcases hsec with hsec | hsec
        · exact absurd hgsec (hsec g hg)
        · exact hsec
      · exact ⟨g, by rwa [hframe _ hut], hgsec⟩
  · rcases hs.owner with ho | ⟨ho, g, hg, hgsec⟩ | ⟨ho, -⟩
    · simp [ho] at hu
    · -- the loop thread would lock in a call of a callback, which stays outside
      cases ho.symm.trans hu
      have := (hcall g hg).2
      cases hgpc : g.pc <;> simp [hgpc] at hgsec this
    · rw [hpc]
      exact h.loop_owner (ho ▸ hu)

omit [DecidableEq τ] [DecidableEq H] in
/-- A statement of the loop thread. -/
theorem NoSelf.loop (h : NoSelf s) (hs : LoopStep s e s') : NoSelf s' := by
  have hnone := hs.no_call fun f hf => (h.loop_call f hf).1
  refine ⟨fun u hu => ?_, fun hu => ?_, fun f hf => ?_, hs.started h.inited⟩
  · rw [hs.frame]
    rcases hs.owner with ho | ⟨ho, -⟩ | ⟨ho, -⟩
    · simp [ho] at hu
    · simp [ho] at hu
    · exact h.api_owner u (ho ▸ hu)
  · rcases hs.owner with ho | ⟨-, hsec⟩ | ⟨ho, hsec⟩
    · simp [ho] at hu
    · exact hsec
    · exact hsec (h.loop_owner (ho ▸ hu))
  · rw [hs.frame, hnone] at hf
    cases hf

/-- One step, with a callback that finds `NULL`. -/
theorem noSelf_step (h : NoSelf s) (hs : Guarded Step FindsNull s e s') : NoSelf s' := by
  obtain ⟨hs, hn⟩ := hs
  cases hs with
  | call op hd hf hcb => exact h.call op hd hf hcb
  | api t hs => exact h.api hs hn
  | loop hs => exact h.loop hs
  | tick d => exact ⟨h.api_owner, h.loop_owner, h.loop_call, h.inited⟩

/-- Behind the test of `u.inited` the loop thread asks for the lock it owns. -/
theorem selfRequest_of_testInited {f : Frame H W} {evt : W} (hf : s.frame .loop = some f)
    (hpc : f.pc = .testInited evt) (hin : s.inited = true) (hown : s.owner = some .loop) :
    ∃ s', Step s .silent s' ∧ SelfRequest s' := by
  refine ⟨_, .api _ (.testInited hf hpc), .loop, hown, .inl ⟨_, evt, State.goto_frame_self .., ?_⟩⟩
  simp [Op.afterTestInited, hin]

/-- The test in `stop` of a handle whose `timer` is known. -/
theorem testInStop_some {f : Frame H W} {evt : W} (hf : s.frame t = some f)
    (hpc : f.pc = .testInStop) (htimer : (s.handle f.handle).timer = some evt) :
    ApiStep t s .silent (s.goto t f (.testInited evt)) := by
  have h := ApiStep.testInStop hf hpc
  rwa [htimer] at h

/-- A callback that gets past the test of `t->timer` while its thread owns `u.lock` goes on to ask
for `u.lock`. -/
theorem selfRequest_of_test (h : NoSelf s) {hd : H} {w : W} (hown : s.owner = some .loop)
    (htimer : (s.handle hd).timer = some w) (hs : Step s (.test .loop hd) s') :
    ∃ es s'', Run Step s' es s'' ∧ SelfRequest s'' := by
  cases hs with
  | loop hs => cases hs
  | api t hs =>
      cases hs with
      | @test f hf hpc =>
          have hin : s.inited = true := h.inited (by simp [(h.loop_call f hf).1])
          rw [htimer, Op.afterTest]
          have hf' := State.goto_frame_self (s := s) (t := .loop) f
          split
          · -- the `stop` within `del` tests the handle once more
            have hstop := testInStop_some (hf' .testInStop) rfl htimer
            have hf'' := State.goto_frame_self (s := s.goto .loop f .testInStop) (t := .loop)
              { f with pc := .testInStop } (.testInited w)
            obtain ⟨s'', hstep, hself⟩ := selfRequest_of_testInited hf'' rfl hin hown
            exact ⟨_, s'', .cons (.api _ hstop) (.single hstep), hself⟩
          · obtain ⟨s'', hstep, hself⟩ :=
              selfRequest_of_testInited (hf' (.testInited w)) rfl hin hown
            exact ⟨_, s'', .single hstep, hself⟩

/-- **A callback must not get past the `NULL` test.** In every run from the start of the program in
which the callbacks that call `start`, `stop` or `del` find no timer in the handle, no thread asks
for `u.lock` while it owns it. When a callback finds one, and the loop thread owns `u.lock`, such a
state follows. -/
theorem bfSysTimer_no_selfRequest (watcher : W → EvTimer H) (mnNow clock : ℤ)
    (es : List (Event τ H W)) (s : State τ H W)
    (hrun : Run (Guarded Step FindsNull) (initial τ watcher mnNow clock) es s) :
    ¬ SelfRequest s ∧ ∀ h s', Step s (.test .loop h) s' → (s.handle h).timer ≠ none →
      s.owner = some .loop → ∃ es' s'', Run Step s' es' s'' ∧ SelfRequest s'' := by
  have hi : NoSelf s := hrun.invariant (fun _ _ _ hi hs => noSelf_step hi hs)
    (noSelf_initial watcher mnNow clock)
  refine ⟨hi.not_selfRequest, fun h s' hs hne hown => ?_⟩
  obtain ⟨w, hw⟩ := Option.ne_none_iff_exists'.mp hne
  exact selfRequest_of_test hi hown hw hs

end

/-! ## A callback that uses its own timer -/

/-- A periodic timer on the first of two handles, started before the loop, goes off. -/
theorem run_to_callback : ∃ es s,
    Run (Guarded Step FindsNull)
      (initial Unit (fun _ => ⟨0, 0, 0⟩) 0 0 : State Unit (Fin 2) Unit) es s ∧
    s.pc = .callback ∧ s.frame .loop = none ∧ s.owner = some .loop ∧ s.inited = true ∧
      (s.handle 0).timer = some () ∧ (s.handle 1).timer = none := by
  have hrun : Run (Guarded Step FindsNull)
      (initial Unit (fun _ => ⟨0, 0, 0⟩) 0 0 : State Unit (Fin 2) Unit) _ _ :=
    .cons ⟨.loop (.getLoop rfl), trivial⟩ <| .cons ⟨.loop (.next rfl), trivial⟩ <|
    .cons ⟨.loop (.next rfl), trivial⟩ <| .cons ⟨.loop (.setInited rfl), trivial⟩ <|
    .cons ⟨.loop (.mutexInit rfl), trivial⟩ <| .cons ⟨.loop (.next rfl), trivial⟩ <|
    .cons ⟨.callApi (t := ()) (.create 1000 500 (some 0) 0) 0 rfl, trivial⟩ <|
    .cons ⟨.api (.api ()) (.malloc (w := ()) rfl rfl rfl rfl), trivial⟩ <|
    .cons ⟨.api (.api ()) (.ret rfl rfl), trivial⟩ <|
    .cons ⟨.callApi (t := ()) .start 0 rfl, trivial⟩ <|
    .cons ⟨.api (.api ()) (.test rfl rfl), trivial⟩ <|
    .cons ⟨.api (.api ()) (.testInited rfl rfl), trivial⟩ <|
    .cons ⟨.api (.api ()) (.lock rfl rfl rfl), trivial⟩ <|
    .cons ⟨.api (.api ()) (.body rfl rfl), trivial⟩ <|
    .cons ⟨.api (.api ()) (.asyncSend rfl rfl), trivial⟩ <|
    .cons ⟨.api (.api ()) (.unlock rfl rfl), trivial⟩ <|
    .cons ⟨.api (.api ()) (.ret rfl rfl), trivial⟩ <|
    -- the loop waits in its poll until the timer is due, and its callback is invoked
    .cons ⟨.loop (.acquire rfl rfl), trivial⟩ <| .cons ⟨.loop (.nonePending rfl rfl), trivial⟩ <|
    .cons ⟨.loop (.timeUpdate rfl), trivial⟩ <| .cons ⟨.loop (.release rfl), trivial⟩ <|
    .cons ⟨.loop (.next rfl), trivial⟩ <| .cons ⟨.tick 2000, trivial⟩ <|
    .cons ⟨.loop (.reacquire rfl rfl), trivial⟩ <|
    .cons ⟨.loop (.timeUpdateAfterPoll rfl), trivial⟩ <|
    .cons ⟨.loop (.expire (w := ()) rfl
      (EvLoop.firstDue_of_singleton (a := 1000) (b := 2000) rfl rfl rfl (by decide))), trivial⟩ <|
    .cons ⟨.loop (.noneDue rfl
      (EvLoop.not_firstDue_of_singleton (w := ()) (a := 2000) rfl rfl rfl)), trivial⟩ <|
    .single ⟨.loop (.invoke rfl rfl rfl), trivial⟩
  exact ⟨_, _, hrun, rfl, rfl, rfl, rfl, rfl, rfl⟩

/-- A callback may stop the second handle, which has no timer. -/
theorem bfSysTimer_no_selfRequest_null : ∃ es s,
    Run (Guarded Step FindsNull)
      (initial Unit (fun _ => ⟨0, 0, 0⟩) 0 0 : State Unit (Fin 2) Unit) es s ∧
    Event.ret .loop .stop 1 .invalidArg ∈ es ∧ ¬ SelfRequest s := by
  obtain ⟨es, s, hrun, hpc, hframe, -, -, -, hnull⟩ := run_to_callback
  let f₁ : Frame (Fin 2) Unit := ⟨.stop, 1, .test⟩
  let f₂ : Frame (Fin 2) Unit := ⟨.stop, 1, .ret .invalidArg⟩
  let s₁ := s.setFrame .loop (some f₁)
  let s₂ := s₁.goto .loop f₁ f₂.pc
  have hcall : Guarded Step FindsNull s (.call .loop .stop 1) s₁ :=
    ⟨.call .stop 1 hframe fun _ => hpc, trivial⟩
  have htest : Guarded Step FindsNull s₁ (.test .loop 1) s₂ :=
    ⟨.api .loop (.test_eq (f := f₁) (State.setFrame_frame_self _) rfl hnull), hnull⟩
  have hret : Guarded Step FindsNull s₂ (.ret .loop .stop 1 .invalidArg) (s₂.setFrame .loop none) :=
    ⟨.api .loop (.ret (f := f₂) (State.goto_frame_self ..) rfl), trivial⟩
  have hrun' := ((hrun.snoc hcall).snoc htest).snoc hret
  exact ⟨_, _, hrun', by simp, (bfSysTimer_no_selfRequest _ _ _ _ _ hrun').1⟩

/-- **A callback that stops its own timer waits for itself.** -/
theorem bfTimerCb_selfRequest : ∃ es s,
    Run Step (initial Unit (fun _ => ⟨0, 0, 0⟩) 0 0 : State Unit (Fin 2) Unit) es s ∧
      SelfRequest s := by
  obtain ⟨es, s, hrun, hpc, hframe, hown, hin, htimer, -⟩ := run_to_callback
  let f₁ : Frame (Fin 2) Unit := ⟨.stop, 0, .test⟩
  let s₁ := s.setFrame .loop (some f₁)
  have hcall : Step s (.call .loop .stop 0) s₁ := .call .stop 0 hframe fun _ => hpc
  have htest : Step s₁ (.test .loop 0) (s₁.goto .loop f₁ (.testInited ())) :=
    .api .loop (.test_eq (f := f₁) (State.setFrame_frame_self _) rfl htimer)
  obtain ⟨s₂, hinited, hself⟩ :=
    selfRequest_of_testInited (State.goto_frame_self (s := s₁) f₁ (.testInited ())) rfl hin hown
  exact ⟨_, s₂, ((hrun.of_guarded.snoc hcall).snoc htest).snoc hinited, hself⟩

end TargetSys.Timer
