import TargetSys.Timer.SelfLock

/-!
# Exclusive access to the event loop

Reference: `src/bf_sal/linux_usr/bf_sys_timer.c`, `bf_sys_timer_init`, `l_release` and `l_acquire`.

`u.lock` is what keeps the loop thread and the callers of `bf_sys_timer_start`, `bf_sys_timer_stop`
and `bf_sys_timer_del` apart. `bf_sys_timer_init` sets `u.inited`, which lets callers through to
the lock, before it initialises the lock, and the initialisation takes the lock away from whoever
holds it.

## Main results

* `owned_step`: what holds the lock is where the owner says.
* `bfSysTimer_exclusive`: access is exclusive as long as the lock is free when it is initialised, and
  may be lost when it is not.
-/

namespace TargetSys.Timer

open Transition

section

variable {τ H W : Type*}

/-- Thread `t` is between its lock and its unlock of `u.lock` in the API. -/
def State.InSection (s : State τ H W) (t : Tid τ) : Prop :=
  ∃ f, s.frame t = some f ∧ f.pc.InSection

/-- One thread at a time is at work on the loop: the loop thread outside its poll, or one of the
others. -/
structure Exclusive (s : State τ H W) : Prop where
  loop_alone : s.pc.InSection → ∀ t, ¬s.InSection (.api t)
  api_alone : ∀ t u, s.InSection (.api t) → s.InSection (.api u) → t = u

/-- `pthread_mutex_init` comes while no other thread is between its lock and its unlock. -/
def InitFindsFree (s : State τ H W) : Event τ H W → Prop
  | .mutexInit => ∀ t, ¬s.InSection (.api t)
  | _ => True

/-- Whoever is where the lock is held owns it, and callbacks do not get there. -/
structure Owned (s : State τ H W) : Prop where
  api_owner : ∀ t, s.InSection (.api t) → s.owner = some (.api t)
  loop_owner : s.pc.InSection → s.owner = some .loop
  loop_call : ∀ f, s.frame .loop = some f → s.pc = .callback
  loop_outside : ¬s.InSection .loop

/-- A lock that is owned excludes. -/
theorem Owned.exclusive {s : State τ H W} (h : Owned s) : Exclusive s := by
  constructor
  · intro hsec t ht
    have := (h.loop_owner hsec).symm.trans (h.api_owner t ht)
    cases this
  · intro t u ht hu
    have := (h.api_owner t ht).symm.trans (h.api_owner u hu)
    cases this
    rfl

/-- At the start nobody owns the lock, or thinks so. -/
theorem owned_initial (watcher : W → EvTimer H) (mnNow clock : ℤ) :
    Owned (initial τ watcher mnNow clock) := by
  refine ⟨?_, ?_, ?_, ?_⟩ <;> simp [initial, State.InSection]

variable [DecidableEq τ] [DecidableEq H] [DecidableEq W] {s s' : State τ H W} {e : Event τ H W}
  {t : Tid τ}

/-! ## Entering and leaving -/

/-- A statement of the API takes the lock and enters, or gives it up and leaves, or leaves both
alone. -/
theorem ApiStep.section (h : ApiStep t s e s') :
    (s.owner = none ∧ s'.owner = some t) ∨
      (s.InSection t ∧ s'.owner = none ∧ ¬s'.InSection t) ∨
      (s'.owner = s.owner ∧ (s'.InSection t → s.InSection t)) := by
  have leave : ∀ {s'' : State τ H W} {f : Frame H W}, s''.frame t = some f → ¬f.pc.InSection →
      ¬s''.InSection t := by
    rintro s'' f hf hpc ⟨g, hg, hsec⟩
    rw [hf] at hg
    cases hg
    exact hpc hsec
  -- where the lock keeps its owner, the thread is behind the statement outside, or was inside
  have outside : ∀ {s'' : State τ H W} {f : Frame H W} {pc : ApiPc W}, ¬pc.InSection →
      (s''.goto t f pc).InSection t → s.InSection t := fun hpc hsec =>
    absurd hsec (leave (State.goto_frame_self ..) hpc)
  cases h with
  | lock hf hpc ho => exact .inl ⟨ho, rfl⟩
  | @unlock f evt hf hpc =>
      refine .inr (.inl ⟨⟨f, hf, by simp [hpc]⟩, rfl, ?_⟩)
      exact leave (State.goto_frame_self ..) (f.op.not_inSection_stopped _)
  | @body f evt hf hpc | @asyncSend f evt hf hpc =>
      exact .inr (.inr ⟨rfl, fun _ => ⟨f, hf, by simp [hpc]⟩⟩)
  | mallocFails hf hpc | malloc hf hpc | free hf hpc | freeNull hf hpc | clear hf hpc =>
      exact .inr (.inr ⟨rfl, outside not_false⟩)
  | @test f hf hpc => exact .inr (.inr ⟨rfl, outside (f.op.not_inSection_afterTest _)⟩)
  | @testInStop f hf hpc =>
      exact .inr (.inr ⟨rfl, outside (f.op.not_inSection_afterTestInStop _)⟩)
  | @testInited f evt hf hpc =>
      exact .inr (.inr ⟨rfl, outside (f.op.not_inSection_afterTestInited _ _)⟩)
  | ret hf hpc =>
      refine .inr (.inr ⟨rfl, ?_⟩)
      rintro ⟨g, hg, -⟩
      rw [State.setFrame_frame_self] at hg
      cases hg

omit [DecidableEq τ] [DecidableEq H] in
/-- A statement of the loop thread initialises the lock, takes it, gives it up, or leaves it
alone. -/
theorem LoopStep.section (h : LoopStep s e s') :
    (e = .mutexInit ∧ ¬s'.pc.InSection) ∨ (s.owner = none ∧ s'.owner = some .loop) ∨
      (s.pc.InSection ∧ ¬s'.pc.InSection) ∨
      (s'.owner = s.owner ∧ (s'.pc.InSection → s.pc.InSection)) := by
  cases h with
  | mutexInit hpc => exact .inl ⟨rfl, by simp⟩
  | acquire hpc ho | reacquire hpc ho => exact .inr (.inl ⟨ho, rfl⟩)
  | release hpc => exact .inr (.inr (.inl ⟨by simp [hpc], by simp⟩))
  | @next p hp =>
      refine .inr (.inr (.inr ⟨rfl, fun hsec => ?_⟩))
      cases hpc : s.pc <;> simp [hpc, LoopPc.next] at hp <;> subst hp <;> simp at hsec
  | noLoop hpc | getLoop hpc | setInited hpc =>
      exact .inr (.inr (.inr ⟨rfl, fun hsec => absurd hsec (by simp)⟩))
  | invoke hpc | callbackReturns hpc | nonePending hpc | timeUpdate hpc | timeUpdateAfterPoll hpc
  | expire hpc | noneDue hpc =>
      exact .inr (.inr (.inr ⟨rfl, fun _ => by simp [hpc]⟩))

omit [DecidableEq τ] [DecidableEq H] [DecidableEq W] in
/-- Whether a thread is in its section depends on its own call only. -/
theorem State.inSection_congr (h : s'.frame t = s.frame t) : s'.InSection t ↔ s.InSection t := by
  rw [InSection, InSection, h]

/-! ## One step -/

omit [DecidableEq τ] [DecidableEq H] [DecidableEq W] in
/-- While nobody owns the lock, nobody is where it is held. -/
theorem Owned.of_none (h : Owned s) (ho : s.owner = none) : ¬s.InSection t ∧ ¬s.pc.InSection := by
  constructor
  · cases t with
    | loop => exact h.loop_outside
    | api t =>
        intro ht
        have := ho.symm.trans (h.api_owner t ht)
        cases this
  · intro hsec
    have := ho.symm.trans (h.loop_owner hsec)
    cases this

omit [DecidableEq H] [DecidableEq W] in
/-- A call begins outside the section. -/
theorem Owned.call (h : Owned s) (op : Op) (hd : H) (hcb : t = .loop → s.pc = .callback)
    (hf : s.frame t = none) : Owned (s.setFrame t (some ⟨op, hd, op.enter⟩)) := by
  have hnew : ¬(s.setFrame t (some ⟨op, hd, op.enter⟩)).InSection t := by
    rintro ⟨g, hg, hsec⟩
    rw [State.setFrame_frame_self] at hg
    cases hg
    cases op with
    | create start period cbFn cbData => cases cbFn <;> exact hsec
    | start | stop | del => exact hsec
  have hold : ∀ u, (s.setFrame t (some ⟨op, hd, op.enter⟩)).InSection u → s.InSection u := by
    intro u hu
    have hut : u ≠ t := by
      rintro rfl
      exact hnew hu
    exact (State.inSection_congr (State.setFrame_frame_ne hut _)).mp hu
  refine ⟨fun u hu => h.api_owner u (hold _ hu), h.loop_owner, fun f hf' => ?_,
    fun hl => h.loop_outside (hold _ hl)⟩
  by_cases ht : t = .loop
  · exact hcb ht
  · rw [State.setFrame_frame_ne (Ne.symm ht)] at hf'
    exact h.loop_call f hf'

/-- A statement of the API, in the loop thread only from a callback. -/
theorem Owned.api (h : Owned s) (hs : ApiStep t s e s') : Owned s' := by
  obtain ⟨⟨f, hf⟩, hpc, -, hframe⟩ := hs.frame
  have hother : ∀ u, u ≠ t → (s'.InSection u ↔ s.InSection u) := fun u hu =>
    State.inSection_congr (hframe u hu)
  have hcall : ∀ g, s'.frame .loop = some g → s'.pc = .callback := by
    intro g hg
    rw [hpc]
    by_cases ht : Tid.loop = t
    · subst ht
      exact h.loop_call f hf
    · rw [hframe _ ht] at hg
      exact h.loop_call g hg
  rcases hs.section with ⟨hnone, hown⟩ | ⟨hin, hown, hout⟩ | ⟨hown, hsame⟩
  · -- the lock is free, so the loop thread is not in a callback
    have ht : t ≠ .loop := by
      rintro rfl
      exact (h.of_none (t := .loop) hnone).2 (by simp [h.loop_call f hf])
    refine ⟨fun u hu => ?_, fun hsec => ?_, hcall, fun hl => ?_⟩
    · by_cases hut : Tid.api u = t
      · rw [hown, hut]
      · exact absurd ((hother _ hut).mp hu) (h.of_none hnone).1
    · exact absurd (hpc ▸ hsec) (h.of_none (t := .loop) hnone).2
    · exact h.loop_outside ((hother _ ht.symm).mp hl)
  · -- who leaves owned the lock, and nobody else did
    have ht : t ≠ .loop := by
      rintro rfl
      exact h.loop_outside hin
    obtain ⟨v, rfl⟩ : ∃ v, t = .api v := by
      cases t with
      | loop => exact absurd rfl ht
      | api v => exact ⟨v, rfl⟩
    have howner := h.api_owner v hin
    refine ⟨fun u hu => ?_, fun hsec => ?_, hcall, fun hl => ?_⟩
    · have huv : Tid.api u ≠ Tid.api v := fun huv => hout (huv ▸ hu)
      have := howner.symm.trans (h.api_owner u ((hother _ huv).mp hu))
      exact absurd (Option.some.inj this).symm huv
    · have := howner.symm.trans (h.loop_owner (hpc ▸ hsec))
      cases this
    · exact h.loop_outside ((hother _ ht.symm).mp hl)
  · have hold : ∀ u, s'.InSection u → s.InSection u := by
      intro u hu
      by_cases hut : u = t
      · subst hut
        exact hsame hu
      · exact (hother u hut).mp hu
    refine ⟨fun u hu => ?_, fun hsec => ?_, hcall, fun hl => h.loop_outside (hold _ hl)⟩
    · rw [hown]
      exact h.api_owner u (hold _ hu)
    · rw [hown]
      exact h.loop_owner (hpc ▸ hsec)

omit [DecidableEq τ] [DecidableEq H] in
/-- A statement of the loop thread, with an initialisation that finds the lock free. -/
theorem Owned.loop (h : Owned s) (hs : LoopStep s e s') (hinit : InitFindsFree s e) :
    Owned s' := by
  have hnone := hs.no_call h.loop_call
  have hsec : ∀ u, s'.InSection u ↔ s.InSection u := fun u =>
    State.inSection_congr (congrFun hs.frame u)
  have hcall : ∀ g, s'.frame .loop = some g → s'.pc = .callback := by
    intro g hg
    rw [hs.frame, hnone] at hg
    cases hg
  have hout : ¬s'.InSection .loop := fun hl => h.loop_outside ((hsec _).mp hl)
  rcases hs.section with ⟨rfl, hpc⟩ | ⟨hfree, hown⟩ | ⟨hin, hpc⟩ | ⟨hown, hpc⟩
  · exact ⟨fun u hu => absurd ((hsec _).mp hu) (hinit u), fun hp => absurd hp hpc, hcall, hout⟩
  · exact ⟨fun u hu => absurd ((hsec _).mp hu) (h.of_none hfree).1, fun _ => hown, hcall, hout⟩
  · exact ⟨fun u hu => absurd ((hsec _).mp hu) (h.exclusive.loop_alone hin u),
      fun hp => absurd hp hpc, hcall, hout⟩
  · refine ⟨fun u hu => ?_, fun hp => ?_, hcall, hout⟩
    · rw [hown]
      exact h.api_owner u ((hsec _).mp hu)
    · rw [hown]
      exact h.loop_owner (hpc hp)

/-- Every step keeps it, if `pthread_mutex_init` finds the lock free. -/
theorem owned_step (h : Owned s) (hs : Guarded Step InitFindsFree s e s') : Owned s' := by
  obtain ⟨hs, hinit⟩ := hs
  cases hs with
  | call op hd hf hcb => exact h.call op hd hcb hf
  | api t hs => exact h.api hs
  | loop hs => exact h.loop hs hinit
  | tick d => exact ⟨h.api_owner, h.loop_owner, h.loop_call, h.loop_outside⟩

/-! ## Every run -/

/-- Where the initialisation takes the lock from a thread, the loop thread can go on to run the loop
beside it. -/
theorem exists_not_exclusive (hs : Step s .mutexInit s') (hinit : ¬InitFindsFree s .mutexInit) :
    ∃ es s'', Run Step s' es s'' ∧ ¬Exclusive s'' := by
  obtain ⟨t, f, hf, hsec⟩ : ∃ t, s.InSection (.api t) := by
    by_contra hno
    exact hinit fun t ht => hno ⟨t, ht⟩
  cases hs with
  | api t hs => cases hs
  | loop hs =>
      cases hs with
      | mutexInit hpc =>
          refine ⟨_, _, .cons (.loop (.next rfl)) (.single (.loop (.acquire rfl rfl))),
            fun hexcl => ?_⟩
          exact hexcl.loop_alone trivial t ⟨f, hf, hsec⟩

/-- **Exclusive access to the event loop.** In every run from the start of the program in which
`pthread_mutex_init` comes while no other thread is between its lock and its unlock, one thread at a
time is at work on the loop. When it comes while one is there, a state in which two are may
follow. -/
theorem bfSysTimer_exclusive (watcher : W → EvTimer H) (mnNow clock : ℤ)
    (es : List (Event τ H W)) (s : State τ H W)
    (hrun : Run (Guarded Step InitFindsFree) (initial τ watcher mnNow clock) es s) :
    Exclusive s ∧ ∀ s', Step s .mutexInit s' → ¬InitFindsFree s .mutexInit →
      ∃ es' s'', Run Step s' es' s'' ∧ ¬Exclusive s'' := by
  have hi : Owned s := hrun.invariant (fun _ _ _ hi hs => owned_step hi hs)
    (owned_initial watcher mnNow clock)
  exact ⟨hi.exclusive, fun s' hs hinit => exists_not_exclusive hs hinit⟩

end

/-! ## The start-up window -/

/-- Two threads start their timers behind the initialisation. One of them is in the locked part, and
the other one and the loop thread wait. -/
theorem bfSysTimer_exclusive_two : ∃ es s,
    Run (Guarded Step InitFindsFree)
      (initial Bool (fun _ => ⟨0, 0, false⟩) 0 0 : State Bool Bool Bool) es s ∧
      s.InSection (.api true) ∧ s.frame (.api false) = some ⟨.start, false, .lock false⟩ ∧
      s.pc = .acquire ∧ Exclusive s := by
  -- `pthread_mutex_init` comes while one thread is between its test of `t->timer` and the lock
  have outside {s : State Bool Bool Bool} (htrue : s.frame (.api true) = none)
      (hfalse : s.frame (.api false) = some ⟨.start, false, .testInited false⟩) :
      ∀ t, ¬ s.InSection (.api t) := by
    rintro (_ | _) ⟨f, hf, hsec⟩
    · obtain rfl := Option.some.inj (hfalse.symm.trans hf)
      exact hsec
    · rw [htrue] at hf
      cases hf
  have hrun : Run (Guarded Step InitFindsFree)
      (initial Bool (fun _ => ⟨0, 0, false⟩) 0 0 : State Bool Bool Bool) _ _ :=
    .cons ⟨.callApi (t := false) (.create 1000 500 (some 0) 0) false rfl, trivial⟩ <|
    .cons ⟨.callApi (t := true) (.create 3000 0 (some 1) 0) true rfl, trivial⟩ <|
    .cons ⟨.api (.api true) (.malloc (w := true) rfl rfl rfl rfl), trivial⟩ <|
    .cons ⟨.api (.api false) (.malloc (w := false) rfl rfl rfl rfl), trivial⟩ <|
    .cons ⟨.api (.api false) (.ret rfl rfl), trivial⟩ <|
    .cons ⟨.api (.api true) (.ret rfl rfl), trivial⟩ <|
    .cons ⟨.loop (.getLoop rfl), trivial⟩ <| .cons ⟨.loop (.next rfl), trivial⟩ <|
    .cons ⟨.loop (.next rfl), trivial⟩ <| .cons ⟨.loop (.setInited rfl), trivial⟩ <|
    .cons ⟨.callApi (t := false) .start false rfl, trivial⟩ <|
    .cons ⟨.api (.api false) (.test rfl rfl), trivial⟩ <|
    .cons ⟨.loop (.mutexInit rfl), outside rfl rfl⟩ <|
    .cons ⟨.loop (.next rfl), trivial⟩ <|
    .cons ⟨.callApi (t := true) .start true rfl, trivial⟩ <|
    .cons ⟨.api (.api true) (.test rfl rfl), trivial⟩ <|
    .cons ⟨.api (.api false) (.testInited rfl rfl), trivial⟩ <|
    .cons ⟨.api (.api true) (.testInited rfl rfl), trivial⟩ <|
    .single ⟨.api (.api true) (.lock rfl rfl rfl), trivial⟩
  exact ⟨_, _, hrun, ⟨⟨.start, true, .body true⟩, rfl, trivial⟩, rfl, rfl,
    (bfSysTimer_exclusive _ _ _ _ _ hrun).1⟩

/-- It is started between the two statements, and the loop thread takes the lock beside it. -/
theorem bfSysTimer_start_beside_loop :
    ∃ es s, Run Step (initial Unit (fun _ => ⟨0, 0, ()⟩) 0 0 : State Unit Unit Unit) es s ∧
      s.pc = .invokePending ∧ (∃ f, s.frame (.api ()) = some f ∧ f.pc = .body ()) ∧
      ¬Exclusive s := by
  have hrun : Run Step (initial Unit (fun _ => ⟨0, 0, ()⟩) 0 0 : State Unit Unit Unit) _ _ :=
    .cons (.callApi (t := ()) (.create 1000 500 (some 0) 0) () rfl) <|
    .cons (.api (.api ()) (.malloc (w := ()) rfl rfl rfl rfl)) <|
    .cons (.api (.api ()) (.ret rfl rfl)) <|
    .cons (.loop (.getLoop rfl)) <| .cons (.loop (.next rfl)) <| .cons (.loop (.next rfl)) <|
    .cons (.loop (.setInited rfl)) <|
    .cons (.callApi (t := ()) .start () rfl) <|
    .cons (.api (.api ()) (.test rfl rfl)) <| .cons (.api (.api ()) (.testInited rfl rfl)) <|
    .cons (.api (.api ()) (.lock rfl rfl rfl)) <|
    .cons (.loop (.mutexInit rfl)) <| .cons (.loop (.next rfl)) <|
    .single (.loop (.acquire rfl rfl))
  exact ⟨_, _, hrun, rfl, ⟨⟨.start, (), .body ()⟩, rfl, rfl⟩, fun hexcl =>
    hexcl.loop_alone trivial () ⟨⟨.start, (), .body ()⟩, rfl, trivial⟩⟩

end TargetSys.Timer
