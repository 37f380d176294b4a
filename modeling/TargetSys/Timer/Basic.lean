import TargetSys.Common.Transition
import TargetSys.Timer.Libev

/-!
# `bf_sys_timer`: the loop thread and the API threads

Reference: `src/bf_sal/linux_usr/bf_sys_timer.c`, `include/target-sys/bf_sal/bf_sys_timer.h`, and
`ev_run` in `third-party/libev/ev.c`.

One thread runs `bf_sys_timer_init` and stays in `ev_run`; any thread calls the API. The loop thread
calls it too, from inside a timeout callback. The statements of all of them interleave. `u.lock` is
a default mutex: whoever asks for it while it is taken waits, the owner included, and locking and
unlocking do not fail. It is zero-initialised, which is unlocked, and `pthread_mutex_init` makes it
unlocked whatever it was before.

`u.loop`, once obtained, does not change. `ev_async_send` only ends the poll, which here may end at
any time, so it changes nothing. The watcher `async_w` keeps the loop from ending, and its own
callback is empty.
-/

namespace TargetSys.Timer

open Transition

/-- `bf_sys_timer_status_t`. -/
inductive Status
  | ok
  | invalidArg
  | noResources
  | notInited
deriving DecidableEq, Repr

/-- The API functions. A callback and its data are named by numbers, and `none` is `NULL`. -/
inductive Op
  | create (startMsecs periodMsecs : ℕ) (cbFn : Option ℕ) (cbData : ℕ)
  | start
  | stop
  | del
deriving DecidableEq, Repr

/-- `bf_sys_timer_t`. -/
structure Handle (W : Type*) where
  timer : Option W
  cbFn : Option ℕ
  cbData : ℕ

/-- The statement of an API call that comes next. A call that has read `t->timer` keeps it in `evt`.
The statements from `testInited` to `unlock` are those of `start` and `stop`; `del` runs them as its
call of `stop`. -/
inductive ApiPc (W : Type*)
  | malloc
  | test
  | testInStop
  | testInited (evt : W)
  | lock (evt : W)
  | body (evt : W)
  | asyncSend (evt : W)
  | unlock (evt : W)
  | free
  | clear
  | ret (status : Status)

/-- An API call under way. -/
structure Frame (H W : Type*) where
  op : Op
  handle : H
  pc : ApiPc W

/-- The statement of `bf_sys_timer_init`, or of `ev_run` under it, that comes next. `failed` is the
return when there is no loop. -/
inductive LoopPc
  | getLoop
  | failed
  | asyncInit
  | asyncStart
  | setInited
  | mutexInit
  | setReleaseCb
  | acquire
  | invokePending
  | callback
  | timeUpdate
  | release
  | poll
  | reacquire
  | timeUpdateAfterPoll
  | reify
deriving DecidableEq, Repr

/-- The loop thread and the API threads. -/
inductive Tid (τ : Type*)
  | loop
  | api (t : τ)
deriving DecidableEq

/-- The state shared by the threads and the statement of each. -/
structure State (τ H W : Type*) where
  ev : EvLoop H W
  live : W → Bool
  handle : H → Handle W
  owner : Option (Tid τ)
  inited : Bool
  pc : LoopPc
  frame : Tid τ → Option (Frame H W)
  clock : ℤ

/-- What a step shows: a call, its test of `t->timer`, its allocation, free or return, the call of
`pthread_mutex_init`, and the invocation of a callback with the handle and data it receives. -/
inductive Event (τ H W : Type*)
  | call (t : Tid τ) (op : Op) (h : H)
  | test (t : Tid τ) (h : H)
  | malloc (w : W)
  | free (w : W)
  | ret (t : Tid τ) (op : Op) (h : H) (status : Status)
  | mutexInit
  | invoke (h : H) (cbFn : Option ℕ) (cbData : ℕ)
  | silent

/-! ## Where the branches of the API lead -/

section Branches

variable {W : Type*}

/-- The first statement behind the test of the arguments. -/
def Op.enter : Op → ApiPc W
  | .create _ _ none _ => .ret .invalidArg
  | .create .. => .malloc
  | _ => .test

/-- Behind the return of `stop`: `del` drops the status and goes on. -/
def Op.stopped : Op → Status → ApiPc W
  | .del, _ => .free
  | _, status => .ret status

/-- `if (t->timer == NULL)`, in `start`, `stop` and `del`. -/
def Op.afterTest (op : Op) : Option W → ApiPc W
  | none => .ret .invalidArg
  | some evt => if op = .del then .testInStop else .testInited evt

/-- `if (t->timer == NULL)`, in the `stop` that `del` calls. -/
def Op.afterTestInStop (op : Op) : Option W → ApiPc W
  | none => op.stopped .invalidArg
  | some evt => .testInited evt

/-- `if (!u.inited)`. -/
def Op.afterTestInited (op : Op) (inited : Bool) (evt : W) : ApiPc W :=
  if inited then .lock evt else op.stopped .notInited

end Branches

/-- The locked part of `start` and of `stop`. -/
def Op.runBody {H W : Type*} [DecidableEq W] (op : Op) (ev : EvLoop H W) (evt : W) : EvLoop H W :=
  if op = .start then ev.evTimerStart evt else ev.evTimerStop evt

section Semantics

variable {τ H W : Type*} [DecidableEq τ] [DecidableEq H] [DecidableEq W]

/-- Thread `t` continues with the call `f`, or with none. -/
def State.setFrame (s : State τ H W) (t : Tid τ) (f : Option (Frame H W)) : State τ H W :=
  { s with frame := Function.update s.frame t f }

/-- Thread `t` continues its call `f` at the statement `p`. -/
def State.goto (s : State τ H W) (t : Tid τ) (f : Frame H W) (p : ApiPc W) : State τ H W :=
  s.setFrame t (some { f with pc := p })

/-- A watcher fresh from `ev_timer_init` in the block `w`, for the handle `h`. -/
def State.initTimer (s : State τ H W) (h : H) (w : W) (startMsecs periodMsecs : ℕ)
    (cbFn : Option ℕ) (cbData : ℕ) : State τ H W :=
  { s with
    ev := { s.ev with watcher := Function.update s.ev.watcher w ⟨startMsecs, periodMsecs, h⟩ }
    live := Function.update s.live w true
    handle := Function.update s.handle h ⟨some w, cbFn, cbData⟩ }

/-- One statement of an API call of thread `t`. -/
inductive ApiStep (t : Tid τ) : State τ H W → Event τ H W → State τ H W → Prop
  | mallocFails {s : State τ H W} {f : Frame H W} : s.frame t = some f → f.pc = .malloc →
      ApiStep t s .silent (s.goto t f (.ret .noResources))
  | malloc {s : State τ H W} {f : Frame H W} {w : W} {start period : ℕ} {cbFn : Option ℕ}
      {cbData : ℕ} : s.frame t = some f → f.pc = .malloc →
      f.op = .create start period cbFn cbData → s.live w = false →
      ApiStep t s (.malloc w)
        ((s.initTimer f.handle w start period cbFn cbData).goto t f (.ret .ok))
  | test {s : State τ H W} {f : Frame H W} : s.frame t = some f → f.pc = .test →
      ApiStep t s (.test t f.handle)
        (s.goto t f (f.op.afterTest (s.handle f.handle).timer))
  | testInStop {s : State τ H W} {f : Frame H W} : s.frame t = some f → f.pc = .testInStop →
      ApiStep t s .silent (s.goto t f (f.op.afterTestInStop (s.handle f.handle).timer))
  | testInited {s : State τ H W} {f : Frame H W} {evt : W} :
      s.frame t = some f → f.pc = .testInited evt →
      ApiStep t s .silent (s.goto t f (f.op.afterTestInited s.inited evt))
  | lock {s : State τ H W} {f : Frame H W} {evt : W} :
      s.frame t = some f → f.pc = .lock evt → s.owner = none →
      ApiStep t s .silent { s.goto t f (.body evt) with owner := some t }
  | body {s : State τ H W} {f : Frame H W} {evt : W} :
      s.frame t = some f → f.pc = .body evt →
      ApiStep t s .silent { s.goto t f (.asyncSend evt) with ev := f.op.runBody s.ev evt }
  | asyncSend {s : State τ H W} {f : Frame H W} {evt : W} :
      s.frame t = some f → f.pc = .asyncSend evt →
      ApiStep t s .silent (s.goto t f (.unlock evt))
  | unlock {s : State τ H W} {f : Frame H W} {evt : W} :
      s.frame t = some f → f.pc = .unlock evt →
      ApiStep t s .silent { s.goto t f (f.op.stopped .ok) with owner := none }
  | free {s : State τ H W} {f : Frame H W} {w : W} : s.frame t = some f → f.pc = .free →
      (s.handle f.handle).timer = some w →
      ApiStep t s (.free w) { s.goto t f .clear with live := Function.update s.live w false }
  | freeNull {s : State τ H W} {f : Frame H W} : s.frame t = some f → f.pc = .free →
      (s.handle f.handle).timer = none →
      ApiStep t s .silent (s.goto t f .clear)
  | clear {s : State τ H W} {f : Frame H W} : s.frame t = some f → f.pc = .clear →
      ApiStep t s .silent { s.goto t f (.ret .ok) with
        handle := Function.update s.handle f.handle
          { s.handle f.handle with timer := none, cbFn := none } }
  | ret {s : State τ H W} {f : Frame H W} {status : Status} :
      s.frame t = some f → f.pc = .ret status →
      ApiStep t s (.ret t f.op f.handle status) (s.setFrame t none)

/-- The loop-thread statements that only move on, with where they lead. -/
def LoopPc.next : LoopPc → Option LoopPc
  | .asyncInit => some .asyncStart
  | .asyncStart => some .setInited
  | .setReleaseCb => some .acquire
  | .poll => some .reacquire
  | _ => none

/-- One statement of the loop thread, outside the API. A new loop looks at the clock. -/
inductive LoopStep : State τ H W → Event τ H W → State τ H W → Prop
  | noLoop {s : State τ H W} : s.pc = .getLoop → LoopStep s .silent { s with pc := .failed }
  | getLoop {s : State τ H W} : s.pc = .getLoop →
      LoopStep s .silent { s with pc := .asyncInit, ev := s.ev.timeUpdate s.clock }
  | next {s : State τ H W} {p : LoopPc} : s.pc.next = some p →
      LoopStep s .silent { s with pc := p }
  | setInited {s : State τ H W} : s.pc = .setInited →
      LoopStep s .silent { s with pc := .mutexInit, inited := true }
  | mutexInit {s : State τ H W} : s.pc = .mutexInit →
      LoopStep s .mutexInit { s with pc := .setReleaseCb, owner := none }
  | acquire {s : State τ H W} : s.pc = .acquire → s.owner = none →
      LoopStep s .silent { s with pc := .invokePending, owner := some .loop }
  | invoke {s : State τ H W} {w : W} {ws : List W} {hd : Handle W} : s.pc = .invokePending →
      s.ev.pendings = w :: ws → s.handle (s.ev.watcher w).data = hd →
      LoopStep s (.invoke (s.ev.watcher w).data hd.cbFn hd.cbData)
        { s with pc := .callback, ev := { s.ev with pendings := ws } }
  | callbackReturns {s : State τ H W} : s.pc = .callback → s.frame .loop = none →
      LoopStep s .silent { s with pc := .invokePending }
  | nonePending {s : State τ H W} : s.pc = .invokePending → s.ev.pendings = [] →
      LoopStep s .silent { s with pc := .timeUpdate }
  | timeUpdate {s : State τ H W} : s.pc = .timeUpdate →
      LoopStep s .silent { s with pc := .release, ev := s.ev.timeUpdate s.clock }
  | release {s : State τ H W} : s.pc = .release →
      LoopStep s .silent { s with pc := .poll, owner := none }
  | reacquire {s : State τ H W} : s.pc = .reacquire → s.owner = none →
      LoopStep s .silent { s with pc := .timeUpdateAfterPoll, owner := some .loop }
  | timeUpdateAfterPoll {s : State τ H W} : s.pc = .timeUpdateAfterPoll →
      LoopStep s .silent { s with pc := .reify, ev := s.ev.timeUpdate s.clock }
  | expire {s : State τ H W} {w : W} : s.pc = .reify → s.ev.FirstDue w →
      LoopStep s .silent { s with ev := s.ev.expire w }
  | noneDue {s : State τ H W} : s.pc = .reify → (∀ w, ¬ s.ev.FirstDue w) →
      LoopStep s .silent { s with pc := .invokePending, ev := s.ev.feedReverseDone }

/-- One step of the program. The loop thread calls the API only from a callback, and a callback does
not return before its calls have. -/
inductive Step : State τ H W → Event τ H W → State τ H W → Prop
  | call {s : State τ H W} {t : Tid τ} (op : Op) (h : H) : s.frame t = none →
      (t = .loop → s.pc = .callback) →
      Step s (.call t op h) (s.setFrame t (some ⟨op, h, op.enter⟩))
  | api {s s' : State τ H W} {e : Event τ H W} (t : Tid τ) : ApiStep t s e s' → Step s e s'
  | loop {s s' : State τ H W} {e : Event τ H W} : LoopStep s e s' → Step s e s'
  | tick {s : State τ H W} (d : ℕ) : Step s .silent { s with clock := s.clock + d }

variable {s s' : State τ H W} {e : Event τ H W} {t : Tid τ}

/-- A thread without a call can make one at any time. -/
theorem Step.callApi {t : τ} (op : Op) (h : H) (hf : s.frame (.api t) = none) :
    Step s (.call (.api t) op h) (s.setFrame (.api t) (some ⟨op, h, op.enter⟩)) :=
  .call op h hf nofun

/-- The test of a handle whose `timer` is known. -/
theorem ApiStep.test_eq {f : Frame H W} {o : Option W} (hf : s.frame t = some f)
    (hpc : f.pc = .test) (ho : (s.handle f.handle).timer = o) :
    ApiStep t s (.test t f.handle) (s.goto t f (f.op.afterTest o)) :=
  ho ▸ .test hf hpc

/-! ## What every step leaves alone -/

omit [DecidableEq H] [DecidableEq W] in
/-- The thread has the call that it was given. -/
@[simp] theorem State.setFrame_frame_self (f : Option (Frame H W)) :
    (s.setFrame t f).frame t = f := Function.update_self ..

omit [DecidableEq H] [DecidableEq W] in
/-- The call goes on at the statement that it was sent to. -/
@[simp] theorem State.goto_frame_self (f : Frame H W) (p : ApiPc W) :
    (s.goto t f p).frame t = some { f with pc := p } := Function.update_self ..

omit [DecidableEq H] [DecidableEq W] in
/-- The calls of the other threads stay as they are. -/
theorem State.setFrame_frame_ne {u : Tid τ} (h : u ≠ t) (f : Option (Frame H W)) :
    (s.setFrame t f).frame u = s.frame u := Function.update_of_ne h ..

/-- A statement of the API is executed within a call, and concerns no other thread's. -/
theorem ApiStep.frame (h : ApiStep t s e s') :
    (∃ f, s.frame t = some f) ∧ s'.pc = s.pc ∧ s'.inited = s.inited ∧
      ∀ u, u ≠ t → s'.frame u = s.frame u := by
  cases h <;> exact ⟨⟨_, ‹_›⟩, rfl, rfl, fun u hu => Function.update_of_ne hu ..⟩

omit [DecidableEq τ] [DecidableEq H] in
/-- A statement of the loop thread concerns no API call. -/
theorem LoopStep.frame (h : LoopStep s e s') : s'.frame = s.frame := by
  cases h <;> rfl

end Semantics

/-- The program before `bf_sys_timer_init` is called: the statics are zero, and no timer exists.
The memory of the watchers holds anything. -/
def initial (τ : Type*) {H W : Type*} (watcher : W → EvTimer H) (mnNow clock : ℤ) :
    State τ H W where
  ev := ⟨[], [], [], mnNow, watcher⟩
  live := fun _ => false
  handle := fun _ => ⟨none, none, 0⟩
  owner := none
  inited := false
  pc := .getLoop
  frame := fun _ => none
  clock := clock

end TargetSys.Timer
