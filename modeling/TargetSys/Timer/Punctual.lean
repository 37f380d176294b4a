import TargetSys.Timer.Stopped

/-!
# Timers that are never early

Reference: `src/bf_sal/linux_usr/bf_sys_timer.c`, `include/target-sys/bf_sal/bf_sys_timer.h`, and
`ev_timer_start`, `ev_timer_stop` and `timers_reify` in `third-party/libev/ev.c`.

`bf_sys_timer_start` adds the time that the loop last looked at the clock to the value stored in the
watcher. The loop may have looked long ago, before its poll, and the stored value is the delay given
to `bf_sys_timer_create` only until the first stop or expiry, which subtract the time that the loop
knows then. An `Observer` of a run keeps when the next callback of each timer may come, and `OnTime`
is the condition on starts under which none comes before.

## Main results

* `punctual_step`: steps that meet the condition let no timer go off before it may.
* `bfSysTimer_never_early`: the first callback after a start comes no earlier than the delay.
-/

namespace TargetSys.Timer

open Transition

/-! ## What an observer sees -/

/-- For each handle, the delay of its last `create`, and the earliest time for its callback, from a
`start` that finds the timer inactive to the next callback. -/
structure Observer (H : Type*) where
  startMsecs : H → ℕ
  due : H → Option ℤ

section

variable {τ H W : Type*}

/-- The timer of the handle is active. -/
def State.Active (s : State τ H W) (h : H) : Prop := ∃ w ∈ s.ev.timers, (s.ev.watcher w).data = h

instance [DecidableEq H] (s : State τ H W) (h : H) : Decidable (s.Active h) :=
  inferInstanceAs (Decidable (∃ w ∈ s.ev.timers, (s.ev.watcher w).data = h))

/-- What the observer keeps after a step from `s`. -/
def Observer.next [DecidableEq H] (o : Observer H) (s : State τ H W) : Event τ H W → Observer H
  | .call _ (.create startMsecs _ _ _) h =>
      ⟨Function.update o.startMsecs h startMsecs, Function.update o.due h none⟩
  | .call _ .start h =>
      if s.Active h then o
      else { o with due := Function.update o.due h (some (s.clock + o.startMsecs h)) }
  | .invoke h _ _ => { o with due := Function.update o.due h none }
  | _ => o

/-- A program before `bf_sys_timer_init`, with an observer that has seen nothing. -/
def observed (s : State τ H W) : State τ H W × Observer H := (s, ⟨fun _ => 0, fun _ => none⟩)

/-- The conditions on the starts of timers, for a step from `s` to `s'`. -/
structure OnTime (s : State τ H W) (o : Observer H) (e : Event τ H W) (s' : State τ H W) :
    Prop where
  /-- A timer with a delay is not started while a callback of its last expiry is outstanding. -/
  outstanding : ∀ t h, e = .call t .start h → ¬s.Active h →
    ∀ w, w ∈ s.ev.pendings ∨ w ∈ s.ev.rfeeds → (s.ev.watcher w).data = h → o.startMsecs h = 0
  /-- The stored value and the time known to the loop reach the time at which the callback may come,
  up to the one millisecond by which a timer has to be overdue, or that time has passed. -/
  stored : ∀ w, w ∉ s.ev.timers → w ∈ s'.ev.timers → ∀ due,
    o.due (s.ev.watcher w).data = some due →
      due ≤ (s.ev.watcher w).evAt + s.ev.mnNow + 1 ∨ due ≤ s.clock

/-! ## Timers that may not go off yet -/

/-- No active timer goes off before it may, and those that have gone off might. -/
structure EvLoop.Punctual (l : EvLoop H W) (due : H → Option ℤ) (clock : ℤ) : Prop where
  active : ∀ w ∈ l.timers, ∀ d, due (l.watcher w).data = some d →
    d ≤ (l.watcher w).evAt + 1 ∨ d ≤ clock
  fired : ∀ w, w ∈ l.pendings ∨ w ∈ l.rfeeds → ∀ d, due (l.watcher w).data = some d → d ≤ clock

namespace EvLoop.Punctual

variable [DecidableEq W] {l : EvLoop H W} {due : H → Option ℤ} {clock clock' : ℤ} {w : W}
  (h : l.Punctual due clock)

include h

omit [DecidableEq W] in
/-- Time passes. -/
theorem later (hle : clock ≤ clock') : l.Punctual due clock' := by
  constructor
  · intro w hw d hd
    exact (h.active w hw d hd).imp_right fun hd => Int.le_trans hd hle
  · intro w hw d hd
    exact Int.le_trans (h.fired w hw d hd) hle

/-- A timer is started on time. -/
theorem evTimerStart (hnew : w ∉ l.timers → ∀ d, due (l.watcher w).data = some d →
    d ≤ (l.watcher w).evAt + l.mnNow + 1 ∨ d ≤ clock) : (l.evTimerStart w).Punctual due clock := by
  by_cases hw : w ∈ l.timers
  · rwa [EvLoop.evTimerStart, if_pos hw]
  · constructor
    · intro v hv d hd
      rw [data_evTimerStart] at hd
      rw [EvLoop.evTimerStart, if_neg hw] at hv ⊢
      by_cases hvw : v = w
      · subst hvw
        simpa using hnew hw d hd
      · have hv' : v ∈ l.timers := (List.mem_cons.mp hv).resolve_left hvw
        simpa [hvw] using h.active v hv' d hd
    · intro v hv d hd
      rw [data_evTimerStart] at hd
      rw [EvLoop.evTimerStart, if_neg hw] at hv
      exact h.fired v hv d hd

/-- A timer is stopped. -/
theorem evTimerStop : (l.evTimerStop w).Punctual due clock := by
  have hpend : ∀ v, v ∈ (l.evTimerStop w).pendings → v ∈ l.pendings := by
    intro v hv
    rw [EvLoop.evTimerStop] at hv
    split at hv <;> exact (List.mem_filter.mp hv).1
  constructor
  · intro v hv d hd
    rw [data_evTimerStop] at hd
    rw [EvLoop.evTimerStop] at hv ⊢
    split at hv
    · rename_i hw
      rw [if_pos hw]
      exact h.active v hv d hd
    · rename_i hw
      rw [if_neg hw]
      obtain ⟨hv', hvw⟩ := List.mem_filter.mp hv
      have hne : v ≠ w := of_decide_eq_true hvw
      simpa [hne, clearPending] using h.active v hv' d hd
  · intro v hv d hd
    rw [data_evTimerStop] at hd
    rw [rfeeds_evTimerStop] at hv
    exact h.fired v (hv.imp_left (hpend v)) d hd

omit [DecidableEq W] in
/-- A timer that is overdue goes into `rfeeds`. -/
theorem remember (hfire : ∀ d, due (l.watcher w).data = some d → d ≤ clock) :
    ({ l with rfeeds := w :: l.rfeeds } : EvLoop H W).Punctual due clock := by
  refine ⟨h.active, fun v hv d hd => ?_⟩
  rcases hv with hv | hv
  · exact h.fired v (.inl hv) d hd
  · rcases List.mem_cons.mp hv with rfl | hv
    · exact hfire d hd
    · exact h.fired v (.inr hv) d hd

/-- The next time of a timer that is overdue does not matter, as its first one has passed. -/
theorem reschedule (hfire : ∀ d, due (l.watcher w).data = some d → d ≤ clock) (a : ℤ) :
    ({ l with watcher := Function.update l.watcher w { l.watcher w with evAt := a } } :
      EvLoop H W).Punctual due clock := by
  constructor
  · intro v hv d hd
    by_cases hvw : v = w
    · subst hvw
      simp only [Function.update_self] at hd
      exact .inr (hfire d hd)
    · simp only [Function.update_of_ne hvw] at hd ⊢
      exact h.active v hv d hd
  · intro v hv d hd
    by_cases hvw : v = w
    · subst hvw
      simp only [Function.update_self] at hd
      exact hfire d hd
    · simp only [Function.update_of_ne hvw] at hd
      exact h.fired v hv d hd

/-- A timer goes off, and the loop has seen that it is overdue. -/
theorem expire (hw : w ∈ l.timers) (hdue : (l.watcher w).evAt < l.mnNow) (hnow : l.mnNow ≤ clock) :
    (l.expire w).Punctual due clock := by
  have hfire : ∀ d, due (l.watcher w).data = some d → d ≤ clock := by
    intro d hd
    rcases h.active w hw d hd with hle | hle
    · omega
    · exact hle
  rw [EvLoop.expire]
  split
  · refine (h.reschedule hfire _).remember fun d hd => hfire d ?_
    simpa only [Function.update_self] using hd
  · refine h.evTimerStop.remember fun d hd => hfire d ?_
    rwa [data_evTimerStop] at hd

/-- The timers in `rfeeds` become pending. -/
theorem feedReverseDone : l.feedReverseDone.Punctual due clock := by
  obtain ⟨ht, hw, hp⟩ := foldl_evFeedEvent l.rfeeds l
  constructor
  · intro v hv d hd
    simp only [EvLoop.feedReverseDone, ht, hw] at hv hd ⊢
    exact h.active v hv d hd
  · intro v hv d hd
    simp only [EvLoop.feedReverseDone, hw, hp, List.not_mem_nil, or_false] at hv hd
    exact h.fired v hv d hd

omit [DecidableEq W] in
/-- The callback of a timer is taken out, and the observer waits no more. -/
theorem invoke [DecidableEq H] {ws : List W} (hp : l.pendings = w :: ws) :
    ({ l with pendings := ws } : EvLoop H W).Punctual
      (Function.update due (l.watcher w).data none) clock := by
  have hold : ∀ {hd : H} {d : ℤ}, Function.update due (l.watcher w).data none hd = some d →
      due hd = some d := by
    intro hd d hdue
    by_cases heq : hd = (l.watcher w).data
    · subst heq
      rw [Function.update_self] at hdue
      cases hdue
    · rwa [Function.update_of_ne heq] at hdue
  refine ⟨fun v hv d hd => h.active v hv d (hold hd), fun v hv d hd => h.fired v ?_ d (hold hd)⟩
  refine hv.imp_left fun hv => ?_
  rw [hp]
  exact List.mem_cons_of_mem _ hv

omit [DecidableEq W] in
/-- The observer waits for a callback of a handle, from the time `d` on. -/
theorem await [DecidableEq H] {hd : H} {o : Option ℤ} (hactive : ∀ v ∈ l.timers,
    (l.watcher v).data = hd → o = none)
    (hfired : ∀ v, v ∈ l.pendings ∨ v ∈ l.rfeeds → (l.watcher v).data = hd → ∀ d, o = some d →
      d ≤ clock) : l.Punctual (Function.update due hd o) clock := by
  constructor
  · intro v hv d hdue
    by_cases heq : (l.watcher v).data = hd
    · rw [heq, Function.update_self, hactive v hv heq] at hdue
      cases hdue
    · rw [Function.update_of_ne heq] at hdue
      exact h.active v hv d hdue
  · intro v hv d hdue
    by_cases heq : (l.watcher v).data = hd
    · rw [heq, Function.update_self] at hdue
      exact hfired v hv heq d hdue
    · rw [Function.update_of_ne heq] at hdue
      exact h.fired v hv d hdue

/-- The memory of a watcher that the loop does not refer to is written. -/
theorem initTimer (hw : ¬l.Refers w) (x : EvTimer H) :
    ({ l with watcher := Function.update l.watcher w x } : EvLoop H W).Punctual due clock := by
  have hne : ∀ {v}, l.Refers v → v ≠ w := fun hv heq => hw (heq ▸ hv)
  constructor
  · intro v hv d hd
    simp only [Function.update_of_ne (hne (.inl hv))] at hd ⊢
    exact h.active v hv d hd
  · intro v hv d hd
    simp only [Function.update_of_ne (hne (.inr hv))] at hd
    exact h.fired v hv d hd

end EvLoop.Punctual

/-! ## One step -/

/-- A disciplined program in which no timer is early, and whose loop knows no time that has not
come. -/
structure Punctual (p : State τ H W × Observer H) : Prop where
  sound : Sound p.1
  reify : p.1.pc = .reify → p.1.ev.mnNow ≤ p.1.clock
  ev : p.1.ev.Punctual p.2.due p.1.clock

variable [DecidableEq τ] [DecidableEq H] [DecidableEq W]

/-- A step of a disciplined program that meets the conditions, with its observer. -/
structure TimelyStep (p : State τ H W × Observer H) (e : Event τ H W)
    (q : State τ H W × Observer H) : Prop where
  step : Step p.1 e q.1
  observer : q.2 = p.2.next p.1 e
  disciplined : Disciplined p.1 e
  onTime : OnTime p.1 p.2 e q.1

variable {s s' : State τ H W} {o : Observer H} {e : Event τ H W} {t : Tid τ}

/-- The API does not look at the clock. -/
theorem ApiStep.time (hs : ApiStep t s e s') : s'.ev.mnNow = s.ev.mnNow ∧ s'.clock = s.clock := by
  cases hs with
  | @body f evt hf hpc =>
      refine ⟨?_, rfl⟩
      change (f.op.runBody s.ev evt).mnNow = s.ev.mnNow
      rw [Op.runBody]
      split <;> simp
  | _ => exact ⟨rfl, rfl⟩

/-- What a statement of the API does to the loop. -/
theorem EvLoop.Punctual.api (h : s.ev.Punctual o.due s.clock) (hsound : Sound s)
    (hs : ApiStep t s e s') (hon : OnTime s o e s') :
    s'.ev.Punctual (o.next s e).due s'.clock := by
  cases hs with
  | @malloc f w a b cb d hf hpc hop hl =>
      refine h.initTimer (fun hw => ?_) _
      rw [(hsound.refers w hw).1] at hl
      cases hl
  | @body f evt hf hpc =>
      change (f.op.runBody s.ev evt).Punctual o.due s.clock
      rw [Op.runBody]
      split
      · rename_i hop
        refine h.evTimerStart fun hnew => hon.stored evt hnew ?_
        change evt ∈ (f.op.runBody s.ev evt).timers
        rw [Op.runBody, if_pos hop, EvLoop.evTimerStart, if_neg hnew]
        exact List.mem_cons_self
      · exact h.evTimerStop
  | _ => exact h

omit [DecidableEq τ] in
/-- What a statement of the loop thread does to the loop, and to what it knows of the time. -/
theorem Punctual.loop (h : Punctual (s, o)) (hs : LoopStep s e s') :
    s'.ev.Punctual (o.next s e).due s'.clock ∧ (s'.pc = .reify → s'.ev.mnNow ≤ s'.clock) := by
  have hev := h.ev
  cases hs with
  | noLoop hpc | setInited hpc | mutexInit hpc | acquire hpc | release hpc | reacquire hpc
  | callbackReturns hpc | nonePending hpc => exact ⟨hev, fun hpc' => by cases hpc'⟩
  | getLoop hpc | timeUpdate hpc => exact ⟨⟨hev.active, hev.fired⟩, fun hpc' => by cases hpc'⟩
  | @next p hp =>
      refine ⟨hev, fun hpc' => ?_⟩
      cases hpc : s.pc <;> simp [hpc, LoopPc.next] at hp <;> subst hp <;> cases hpc'
  | timeUpdateAfterPoll hpc => exact ⟨⟨hev.active, hev.fired⟩, fun _ => Int.le_refl _⟩
  | invoke hpc hp => exact ⟨hev.invoke hp, fun hpc' => by cases hpc'⟩
  | @expire w hpc hdue =>
      have hnow := h.reify hpc
      refine ⟨hev.expire hdue.1 hdue.2.1 hnow, fun _ => ?_⟩
      change (s.ev.expire w).mnNow ≤ s.clock
      rwa [EvLoop.mnNow_expire]
  | noneDue hpc => exact ⟨hev.feedReverseDone, fun hpc' => by cases hpc'⟩

omit [DecidableEq τ] [DecidableEq W] in
/-- What a call does to the observer. -/
theorem EvLoop.Punctual.call (h : s.ev.Punctual o.due s.clock) (op : Op) (hd : H)
    (hon : OnTime s o (.call t op hd) s') :
    s.ev.Punctual (o.next s (.call t op hd)).due s.clock := by
  cases op with
  | create a b cb d => exact h.await (fun _ _ _ => rfl) fun _ _ _ _ hnone => (nomatch hnone)
  | start =>
      rw [Observer.next]
      split
      · exact h
      · rename_i hactive
        refine h.await (fun v hv hdata => absurd ⟨v, hv, hdata⟩ hactive) fun v hv hdata d hdue => ?_
        have hzero := hon.outstanding t hd rfl hactive v hv hdata
        cases hdue
        omega
  | stop | del => exact h

/-- A step that meets the conditions lets no timer go off before it may. -/
theorem punctual_step {p q : State τ H W × Observer H} (h : Punctual p) (hs : TimelyStep p e q) :
    Punctual q := by
  obtain ⟨s, o⟩ := p
  obtain ⟨s', o'⟩ := q
  obtain ⟨hstep, hobs, hdisc, hon⟩ := hs
  dsimp only at hstep hobs hdisc hon
  subst hobs
  have hsound : Sound s' := sound_step h.sound ⟨hstep, hdisc⟩
  cases hstep with
  | call op hd hf hcb => exact ⟨hsound, h.reify, h.ev.call op hd hon⟩
  | api t hs =>
      refine ⟨hsound, fun hpc => ?_, h.ev.api h.sound hs hon⟩
      obtain ⟨hmn, hclock⟩ := hs.time
      rw [hs.frame.2.1] at hpc
      rw [hmn, hclock]
      exact h.reify hpc
  | loop hs =>
      obtain ⟨hev, hreify⟩ := h.loop hs
      exact ⟨hsound, hreify, hev⟩
  | tick d =>
      have hle : s.clock ≤ s.clock + d := by omega
      exact ⟨hsound, fun hpc => Int.le_trans (h.reify hpc) hle, h.ev.later hle⟩

/-! ## Every run -/

omit [DecidableEq τ] [DecidableEq H] [DecidableEq W] in
/-- At the start no timer is there. -/
theorem punctual_initial (watcher : W → EvTimer H) (mnNow clock : ℤ) :
    Punctual (observed (initial τ watcher mnNow clock)) := by
  refine ⟨sound_initial watcher mnNow clock, nofun, ⟨nofun, ?_⟩⟩
  rintro w (hw | hw) <;> cases hw

/-- It holds in every state that a timely run reaches. -/
theorem punctual_run {watcher : W → EvTimer H} {mnNow clock : ℤ} {es : List (Event τ H W)}
    {p : State τ H W × Observer H}
    (hrun : Run TimelyStep (observed (initial τ watcher mnNow clock)) es p) : Punctual p :=
  hrun.invariant (fun _ _ _ h hs => punctual_step h hs) (punctual_initial watcher mnNow clock)

/-- The clock does not go back. -/
theorem clock_step (hs : Step s e s') : s.clock ≤ s'.clock := by
  cases hs with
  | call op hd hf hcb => exact Int.le_refl _
  | api t hs => exact Int.le_of_eq hs.time.2.symm
  | loop hs => cases hs <;> exact Int.le_refl _
  | tick d => exact Int.le_add_of_nonneg_right (Int.natCast_nonneg d)

/-- Behind a start at time `T`, the observer waits for the callback from `T` and the delay on, or
longer. -/
structure Awaits (hd : H) (T : ℤ) (msecs : ℕ) (p : State τ H W × Observer H) : Prop where
  startMsecs : p.2.startMsecs hd = msecs
  clock : T ≤ p.1.clock
  due : ∃ d, p.2.due hd = some d ∧ T + msecs ≤ d

/-- It goes on to wait until the callback, or until another timer is created in the handle. -/
theorem awaits_step {hd : H} {T : ℤ} {msecs : ℕ} {p q : State τ H W × Observer H}
    (h : Awaits hd T msecs p) (hs : TimelyStep p e q)
    (hsame : ∀ t a b cb c, e ≠ .call t (.create a b cb c) hd) (hfirst : ∀ cb c, e ≠ .invoke hd cb c) :
    Awaits hd T msecs q := by
  obtain ⟨hmsecs, hclock, d, hdue, hle⟩ := h
  have hclock' : T ≤ q.1.clock := Int.le_trans hclock (clock_step hs.step)
  suffices hnext : (p.2.next p.1 e).startMsecs hd = msecs ∧
      ∃ d, (p.2.next p.1 e).due hd = some d ∧ T + msecs ≤ d by
    rw [← hs.observer] at hnext
    exact ⟨hnext.1, hclock', hnext.2⟩
  cases e with
  | call t op hd' =>
      cases op with
      | create a b cb c =>
          have hne : hd ≠ hd' := by
            rintro rfl
            exact hsame t a b cb c rfl
          simp only [Observer.next, Function.update_of_ne hne]
          exact ⟨hmsecs, d, hdue, hle⟩
      | start =>
          -- a start of an idle timer sets the time anew, and not to an earlier one: the clock goes on
          rw [Observer.next]
          split
          · exact ⟨hmsecs, d, hdue, hle⟩
          · refine ⟨hmsecs, ?_⟩
            by_cases heq : hd = hd'
            · subst heq
              refine ⟨_, Function.update_self .., ?_⟩
              rw [hmsecs]
              omega
            · exact ⟨d, (Function.update_of_ne heq ..).trans hdue, hle⟩
      | stop | del => exact ⟨hmsecs, d, hdue, hle⟩
  | invoke hd' cb c =>
      have hne : hd ≠ hd' := by
        rintro rfl
        exact hfirst cb c rfl
      exact ⟨hmsecs, d, (Function.update_of_ne hne ..).trans hdue, hle⟩
  | test | malloc | free | ret | mutexInit | silent => exact ⟨hmsecs, d, hdue, hle⟩

/-- **A timer is never early.** In every run of a disciplined program whose starts meet the
conditions: behind a `start` at some time on a timer that is not active, the first callback comes
when the delay given to `create` has passed since then, or later. -/
theorem bfSysTimer_never_early (watcher : W → EvTimer H) (mnNow clock : ℤ)
    {es₁ es₂ : List (Event τ H W)} {t : Tid τ} {hd : H} {cb : Option ℕ} {c : ℕ}
    {p₁ p₂ p₃ : State τ H W × Observer H} {s : State τ H W}
    (hbefore : Run TimelyStep (observed (initial τ watcher mnNow clock)) es₁ p₁)
    (hstart : TimelyStep p₁ (.call t .start hd) p₂) (hinactive : ¬p₁.1.Active hd)
    (hafter : Run TimelyStep p₂ es₂ p₃)
    (hsame : ∀ t a b cb c, .call t (.create a b cb c) hd ∉ es₂)
    (hfirst : ∀ cb c, .invoke hd cb c ∉ es₂) (hinvoke : Step p₃.1 (.invoke hd cb c) s) :
    p₁.1.clock + p₁.2.startMsecs hd ≤ p₃.1.clock := by
  have hpunctual : Punctual p₃ := punctual_run ((hbefore.snoc hstart).append hafter)
  have hawaits₂ : Awaits hd p₁.1.clock (p₁.2.startMsecs hd) p₂ := by
    have hnext := hstart.observer
    rw [Observer.next, if_neg hinactive] at hnext
    refine ⟨by rw [hnext], clock_step hstart.step, _, ?_, Int.le_refl _⟩
    rw [hnext]
    exact Function.update_self ..
  have hawaits₃ : Awaits hd p₁.1.clock (p₁.2.startMsecs hd) p₃ :=
    hafter.after (P := fun e => (∀ t a b cb c, e ≠ .call t (.create a b cb c) hd) ∧
        ∀ cb c, e ≠ .invoke hd cb c)
      (fun _ _ _ h he hs => awaits_step h hs he.1 he.2) hawaits₂
      fun e he => ⟨fun t a b cb c heq => hsame t a b cb c (heq ▸ he),
        fun cb c heq => hfirst cb c (heq ▸ he)⟩
  obtain ⟨d, hdue, hle⟩ := hawaits₃.due
  suffices hd' : d ≤ p₃.1.clock from Int.le_trans hle hd'
  cases hinvoke with
  | api t hs => cases hs
  | loop hs =>
      cases hs with
      | invoke hpc hp =>
          refine hpunctual.ev.fired _ (.inl ?_) d hdue
          rw [hp]
          exact List.mem_cons_self

end

section Runs

variable {s : State Unit Unit Unit}

/-- With no timer in the heap, the only handle is not active. -/
theorem inactive_of_nil (h : s.ev.timers = []) : ¬s.Active () := by
  rintro ⟨w, hw, -⟩
  rw [h] at hw
  cases hw

/-- A pending callback can be invoked. -/
theorem exists_invoke (hpc : s.pc = .invokePending) (hp : s.ev.pendings = [()])
    (hh : s.handle () = ⟨some (), some 0, 0⟩) : ∃ s', Step s (.invoke () (some 0) 0) s' :=
  ⟨_, .loop (.invoke hpc hp hh)⟩

end Runs

/-- A timer of 1000 ms with a period of 500 ms is started before the loop polls, at time 0, and goes
off at 2000. -/
theorem bfSysTimer_never_early_one : ∃ p₁ p₃ : State Unit Unit Unit × Observer Unit,
    p₁.1.clock + p₁.2.startMsecs () ≤ p₃.1.clock ∧ p₁.2.startMsecs () = 1000 ∧
      p₃.1.clock = 2000 ∧ ∃ s, Step p₃.1 (.invoke () (some 0) 0) s := by
  -- a step that is no start leaves both conditions alone
  have quiet : ∀ {p : State Unit Unit Unit × Observer Unit} {e s'}, Step p.1 e s' →
      Disciplined p.1 e → s'.ev.timers = p.1.ev.timers → (∀ t h, e ≠ .call t .start h) →
      TimelyStep p e (s', p.2.next p.1 e) := by
    intro p e s' hs hd htimers he
    refine ⟨hs, rfl, hd, fun t h heq => absurd heq (he t h), fun w hw hw' => ?_⟩
    rw [htimers] at hw'
    exact absurd hw' hw
  have hstart : ∀ {p : State Unit Unit Unit × Observer Unit}, p.1.frame .loop = none →
      p.1.frame (.api ()) = none → p.1.ev.pendings = [] → p.1.ev.rfeeds = [] →
      TimelyStep p (.call (.api ()) .start ()) (p.1.setFrame (.api ()) (some ⟨.start, (), .test⟩),
        p.2.next p.1 (.call (.api ()) .start ())) := by
    intro p h₁ h₂ hp hr
    refine ⟨.callApi .start () h₂, rfl, ⟨nofun, ne_handle_of_idle h₁ h₂, fun h => absurd rfl h.1⟩,
      fun t h _ _ w hw => ?_, fun w hw hw' => absurd hw' hw⟩
    rw [hp, hr] at hw
    rcases hw with hw | hw <;> cases hw
  have hbody : ∀ {p : State Unit Unit Unit × Observer Unit} {f : Frame Unit Unit},
      p.1.frame (.api ()) = some f → f.pc = .body () → p.2.due () = some 1000 →
      (p.1.ev.watcher ()).evAt = 1000 → p.1.ev.mnNow = 0 →
      TimelyStep p .silent ({ p.1.goto (.api ()) f (.asyncSend ()) with
        ev := f.op.runBody p.1.ev () }, p.2.next p.1 .silent) := by
    intro p f hf hpc hdue hat hmn
    refine ⟨.api _ (.body hf hpc), rfl, trivial, nofun, fun w _ _ due hw => .inl ?_⟩
    rw [hdue] at hw
    cases hw
    rw [hat, hmn]
    decide
  have hbefore : Run TimelyStep (observed
      (initial Unit (fun _ => ⟨0, 0, ()⟩) 0 0 : State Unit Unit Unit)) _ _ :=
    .cons (quiet (.loop (.getLoop rfl)) trivial rfl nofun) <|
    .cons (quiet (.loop (.next rfl)) trivial rfl nofun) <|
    .cons (quiet (.loop (.next rfl)) trivial rfl nofun) <|
    .cons (quiet (.loop (.setInited rfl)) trivial rfl nofun) <|
    .cons (quiet (.loop (.mutexInit rfl)) rfl rfl nofun) <|
    .cons (quiet (.loop (.next rfl)) trivial rfl nofun) <|
    .cons (quiet (.callApi (t := ()) (.create 1000 500 (some 0) 0) () rfl)
      ⟨nofun, ne_handle_of_idle rfl rfl, fun _ => rfl⟩ rfl nofun) <|
    .cons (quiet (.api (.api ()) (.malloc (w := ()) rfl rfl rfl rfl)) trivial rfl nofun) <|
    .single (quiet (.api (.api ()) (.ret rfl rfl)) trivial rfl nofun)
  exact ⟨_, _, bfSysTimer_never_early _ _ _ hbefore (hstart rfl rfl rfl rfl) (inactive_of_nil rfl)
    (.cons (quiet (.api (.api ()) (.test rfl rfl)) trivial rfl nofun) <|
    .cons (quiet (.api (.api ()) (.testInited rfl rfl)) trivial rfl nofun) <|
    .cons (quiet (.api (.api ()) (.lock rfl rfl rfl)) trivial rfl nofun) <|
    .cons (hbody rfl rfl rfl rfl rfl) <|
    .cons (quiet (.api (.api ()) (.asyncSend rfl rfl)) trivial rfl nofun) <|
    .cons (quiet (.api (.api ()) (.unlock rfl rfl)) trivial rfl nofun) <|
    .cons (quiet (.loop (.acquire rfl rfl)) trivial rfl nofun) <|
    .cons (quiet (.loop (.nonePending rfl rfl)) trivial rfl nofun) <|
    .cons (quiet (.loop (.timeUpdate rfl)) trivial rfl nofun) <|
    .cons (quiet (.loop (.release rfl)) trivial rfl nofun) <|
    .cons (quiet (.loop (.next rfl)) trivial rfl nofun) <|
    .cons (quiet (.tick 2000) trivial rfl nofun) <|
    .cons (quiet (.loop (.reacquire rfl rfl)) trivial rfl nofun) <|
    .cons (quiet (.loop (.timeUpdateAfterPoll rfl)) trivial rfl nofun) <|
    .cons (quiet (.loop (.expire (w := ()) rfl (EvLoop.firstDue_of_singleton (a := 1000) (b := 2000)
      rfl rfl rfl (by decide)))) trivial rfl nofun) <|
    .single (quiet (.loop (.noneDue rfl (EvLoop.not_firstDue_of_singleton rfl (a := 2000)
      rfl rfl))) trivial rfl nofun))
    (by simp) (by simp) (exists_invoke rfl rfl rfl).choose_spec, rfl, rfl, exists_invoke rfl rfl rfl⟩

/-! ## Early timers -/

/-- The loop polls from time 0 on, and a timer of 1000 ms is started at 5000. The loop takes it for
one started at 0, and it goes off at once. -/
theorem bfSysTimer_early : ∃ es₁ s₁ s₂ es₂ s₃,
    Run (Guarded Step Disciplined) (initial Unit (fun _ => ⟨0, 0, ()⟩) 0 0 : State Unit Unit Unit)
      es₁ s₁ ∧
    .call (.api ()) (.create 1000 0 (some 0) 0) () ∈ es₁ ∧ ¬s₁.Active () ∧ s₁.clock = 5000 ∧
    Guarded Step Disciplined s₁ (.call (.api ()) .start ()) s₂ ∧
    Run (Guarded Step Disciplined) s₂ es₂ s₃ ∧
    (∀ t a b cb c, .call t (.create a b cb c) () ∉ es₂) ∧ (∀ cb c, .invoke () cb c ∉ es₂) ∧
    s₃.clock < 5000 + 1000 ∧ ∃ s₄, Step s₃ (.invoke () (some 0) 0) s₄ := by
  have hbefore : Run (Guarded Step Disciplined)
      (initial Unit (fun _ => ⟨0, 0, ()⟩) 0 0 : State Unit Unit Unit) _ _ :=
    .cons ⟨.loop (.getLoop rfl), trivial⟩ <| .cons ⟨.loop (.next rfl), trivial⟩ <|
    .cons ⟨.loop (.next rfl), trivial⟩ <| .cons ⟨.loop (.setInited rfl), trivial⟩ <|
    .cons ⟨.loop (.mutexInit rfl), rfl⟩ <| .cons ⟨.loop (.next rfl), trivial⟩ <|
    .cons ⟨.loop (.acquire rfl rfl), trivial⟩ <| .cons ⟨.loop (.nonePending rfl rfl), trivial⟩ <|
    .cons ⟨.loop (.timeUpdate rfl), trivial⟩ <| .cons ⟨.loop (.release rfl), trivial⟩ <|
    .cons ⟨.callApi (t := ()) (.create 1000 0 (some 0) 0) () rfl,
      nofun, ne_handle_of_idle rfl rfl, fun _ => rfl⟩ <|
    .cons ⟨.api (.api ()) (.malloc (w := ()) rfl rfl rfl rfl), trivial⟩ <|
    .cons ⟨.api (.api ()) (.ret rfl rfl), trivial⟩ <|
    .single ⟨.tick 5000, trivial⟩
  have hstart : ∀ {s : State Unit Unit Unit}, s.frame .loop = none → s.frame (.api ()) = none →
      Guarded Step Disciplined s (.call (.api ()) .start ())
        (s.setFrame (.api ()) (some ⟨.start, (), .test⟩)) := fun h₁ h₂ =>
    ⟨.callApi .start () h₂, nofun, ne_handle_of_idle h₁ h₂, fun h => absurd rfl h.1⟩
  exact ⟨_, _, _, _, _, hbefore, by simp, inactive_of_nil rfl, rfl, hstart rfl rfl,
    .cons ⟨.api (.api ()) (.test rfl rfl), trivial⟩ <|
    .cons ⟨.api (.api ()) (.testInited rfl rfl), trivial⟩ <|
    .cons ⟨.api (.api ()) (.lock rfl rfl rfl), trivial⟩ <|
    .cons ⟨.api (.api ()) (.body rfl rfl), trivial⟩ <|
    .cons ⟨.api (.api ()) (.asyncSend rfl rfl), trivial⟩ <|
    .cons ⟨.api (.api ()) (.unlock rfl rfl), trivial⟩ <|
    .cons ⟨.loop (.next rfl), trivial⟩ <| .cons ⟨.loop (.reacquire rfl rfl), trivial⟩ <|
    .cons ⟨.loop (.timeUpdateAfterPoll rfl), trivial⟩ <|
    .cons ⟨.loop (.expire (w := ()) rfl
      (EvLoop.firstDue_of_singleton (a := 1000) (b := 5000) rfl rfl rfl (by decide))), trivial⟩ <|
    .single ⟨.loop (.noneDue rfl fun _ h => nomatch h.1), trivial⟩,
    by simp, by simp, by decide, exists_invoke rfl rfl rfl⟩

end TargetSys.Timer
