import Mathlib.Logic.Function.Basic
import Mathlib.Tactic.Common
import TargetSys.Common.Transition

/-!
# Waking a libev loop from outside

Reference: `ev_feed_signal`, `ev_async_send`, `evpipe_write` and `pipecb`, and their part of
`ev_run`, in `third-party/libev/ev.c`.

Any thread and any signal handler may send, at any time and without a lock. A sender marks what it
sends, raises the flag of its kind, and wakes the loop only if it must: while `pipe_write_wanted` is
not set it leaves `pipe_write_skipped` behind instead, which the loop looks at before and after each
poll. Every access to a shared variable is a step of its own; the memory fences of the source are
what lets these steps be taken in one order.

A signal handler that interrupts a sender is one more sender. A poll may return for other reasons, and
then need not report the pipe. `pipe_w` has the highest priority, so `pipecb` is invoked first.

## Main results

* `sound_step`: what keeps the loop from sleeping over a sender.
* `evPipe_no_lost_wakeup`: if the loop sleeps and nobody is within a call, all that was sent has been
  delivered, and nothing was that was not sent.
* `evPipe_delivers`: behind the return of a send the loop delivers it in this pass, after a bounded
  number of its own accesses.
-/

namespace TargetSys.Timer.EvPipe

open Transition

/-- The flags that `evpipe_write` is called with: `sig_pending` and `async_pending`. -/
inductive Channel
  | sig
  | async
deriving DecidableEq, Repr

/-- The access of `ev_feed_signal` or `ev_async_send`, or of `evpipe_write` under it, that comes
next. -/
inductive SendPc
  | mark
  | testFlag
  | setFlag
  | setSkipped
  | testWanted
  | clearSkipped
  | write
deriving DecidableEq, Repr

/-- The access of the loop thread that comes next, in `ev_run` and, from `clearSkipped` on, in
`pipecb`. `wait` says that the poll is given a `waittime` other than zero. The loop over the watchers
of a channel has `ns` to look at. -/
inductive LoopPc (N : Type*)
  | setWanted
  | testWait
  | poll (wait : Bool)
  | clearWanted
  | testSkipped
  | invokePending
  | clearSkipped
  | testPending (c : Channel)
  | clearPending (c : Channel)
  | scan (c : Channel) (ns : List N)
  | take (c : Channel) (n : N) (ns : List N)
  | callbacks

/-- What can be sent: the signals, and the `ev_async` watchers that are started. `items` are those of
a channel in the order in which `pipecb` looks at them. With an eventfd one read empties the pipe. -/
structure Watchers (N : Type*) where
  chan : N → Channel
  items : Channel → List N
  eventfd : Bool
  chan_items : ∀ c, ∀ n ∈ items c, chan n = c

/-- The variables that senders and the loop share, and where each of them is. `note` is
`signals [i].pending` or `asyncs [i]->sent`; `fed` says that `pipe_w` is pending, and `readable` that
`EV_READ` is among its events; `pipe` counts what is in the pipe. -/
structure State (τ N : Type*) where
  note : N → Bool
  flag : Channel → Bool
  skipped : Bool
  wanted : Bool
  pipe : ℕ
  fed : Bool
  readable : Bool
  pc : LoopPc N
  sender : τ → Option (N × SendPc)

/-- What a step shows. -/
inductive Event (τ N : Type*)
  | call (t : τ) (n : N)
  | send (n : N)
  | ret (t : τ)
  | poll (reported : Bool)
  | deliver (n : N)
  | silent
deriving DecidableEq

section Semantics

variable {τ N : Type*} [DecidableEq τ] [DecidableEq N] (ws : Watchers N)

/-- `read (evpipe [0], &dummy, sizeof (dummy))`, or the same on an eventfd. -/
def Watchers.drained (n : ℕ) : ℕ := if ws.eventfd then 0 else n - 4

/-- Behind the part of `pipecb` for a channel. -/
def Channel.next : Channel → LoopPc N
  | .sig => .testPending .async
  | .async => .callbacks

/-- The sender goes on, or returns. -/
def State.goto (s : State τ N) (t : τ) (q : Option (N × SendPc)) : State τ N :=
  { s with sender := Function.update s.sender t q }

/-- One access of a sender. -/
inductive SendStep (t : τ) : State τ N → Event τ N → State τ N → Prop
  | call {s : State τ N} (n : N) : s.sender t = none →
      SendStep t s (.call t n) (s.goto t (some (n, .mark)))
  | mark {s : State τ N} {n : N} : s.sender t = some (n, .mark) →
      SendStep t s (.send n)
        { s.goto t (some (n, .testFlag)) with note := Function.update s.note n true }
  | flagged {s : State τ N} {n : N} : s.sender t = some (n, .testFlag) → s.flag (ws.chan n) = true →
      SendStep t s (.ret t) (s.goto t none)
  | notFlagged {s : State τ N} {n : N} : s.sender t = some (n, .testFlag) →
      s.flag (ws.chan n) = false → SendStep t s .silent (s.goto t (some (n, .setFlag)))
  | setFlag {s : State τ N} {n : N} : s.sender t = some (n, .setFlag) →
      SendStep t s .silent
        { s.goto t (some (n, .setSkipped)) with flag := Function.update s.flag (ws.chan n) true }
  | setSkipped {s : State τ N} {n : N} : s.sender t = some (n, .setSkipped) →
      SendStep t s .silent { s.goto t (some (n, .testWanted)) with skipped := true }
  | notWanted {s : State τ N} {n : N} : s.sender t = some (n, .testWanted) → s.wanted = false →
      SendStep t s (.ret t) (s.goto t none)
  | wanted {s : State τ N} {n : N} : s.sender t = some (n, .testWanted) → s.wanted = true →
      SendStep t s .silent (s.goto t (some (n, .clearSkipped)))
  | clearSkipped {s : State τ N} {n : N} : s.sender t = some (n, .clearSkipped) →
      SendStep t s .silent { s.goto t (some (n, .write)) with skipped := false }
  | write {s : State τ N} {n : N} : s.sender t = some (n, .write) →
      SendStep t s (.ret t) { s.goto t none with pipe := s.pipe + 1 }

/-- One access of the loop thread. -/
inductive LoopStep : State τ N → Event τ N → State τ N → Prop
  | setWanted {s : State τ N} : s.pc = .setWanted →
      LoopStep s .silent { s with pc := .testWait, wanted := true }
  | wait {s : State τ N} : s.pc = .testWait → s.skipped = false →
      LoopStep s .silent { s with pc := .poll true }
  -- there are other reasons not to wait
  | noWait {s : State τ N} : s.pc = .testWait → LoopStep s .silent { s with pc := .poll false }
  | pollReports {s : State τ N} {wait : Bool} : s.pc = .poll wait → 0 < s.pipe →
      LoopStep s (.poll true) { s with pc := .clearWanted, fed := true, readable := true }
  | pollReturns {s : State τ N} {wait : Bool} : s.pc = .poll wait →
      LoopStep s (.poll false) { s with pc := .clearWanted }
  | clearWanted {s : State τ N} : s.pc = .clearWanted →
      LoopStep s .silent { s with pc := .testSkipped, wanted := false }
  | testSkipped {s : State τ N} : s.pc = .testSkipped →
      LoopStep s .silent { s with pc := .invokePending, fed := s.fed || s.skipped }
  | pipecb {s : State τ N} : s.pc = .invokePending → s.fed = true →
      LoopStep s .silent { s with
        pc := .clearSkipped, fed := false, readable := false,
        pipe := if s.readable then ws.drained s.pipe else s.pipe }
  | notFed {s : State τ N} : s.pc = .invokePending → s.fed = false →
      LoopStep s .silent { s with pc := .callbacks }
  | clearSkipped {s : State τ N} : s.pc = .clearSkipped →
      LoopStep s .silent { s with pc := .testPending .sig, skipped := false }
  | pending {s : State τ N} {c : Channel} : s.pc = .testPending c → s.flag c = true →
      LoopStep s .silent { s with pc := .clearPending c }
  | notPending {s : State τ N} {c : Channel} : s.pc = .testPending c → s.flag c = false →
      LoopStep s .silent { s with pc := c.next }
  | clearPending {s : State τ N} {c : Channel} : s.pc = .clearPending c →
      LoopStep s .silent
        { s with pc := .scan c (ws.items c), flag := Function.update s.flag c false }
  | noted {s : State τ N} {c : Channel} {n : N} {ns : List N} : s.pc = .scan c (n :: ns) →
      s.note n = true → LoopStep s .silent { s with pc := .take c n ns }
  | notNoted {s : State τ N} {c : Channel} {n : N} {ns : List N} : s.pc = .scan c (n :: ns) →
      s.note n = false → LoopStep s .silent { s with pc := .scan c ns }
  | take {s : State τ N} {c : Channel} {n : N} {ns : List N} : s.pc = .take c n ns →
      LoopStep s (.deliver n) { s with pc := .scan c ns, note := Function.update s.note n false }
  | scanned {s : State τ N} {c : Channel} : s.pc = .scan c [] →
      LoopStep s .silent { s with pc := c.next }
  | callbacks {s : State τ N} : s.pc = .callbacks → LoopStep s .silent { s with pc := .setWanted }

/-- One access of any sender or of the loop. -/
inductive Step : State τ N → Event τ N → State τ N → Prop
  | send {s s' : State τ N} {e : Event τ N} (t : τ) : SendStep ws t s e s' → Step s e s'
  | loop {s s' : State τ N} {e : Event τ N} : LoopStep ws s e s' → Step s e s'

end Semantics

/-- A new loop: `loop_init` clears the flags, and nobody sends yet. -/
def initial (τ N : Type*) : State τ N where
  note := fun _ => false
  flag := fun _ => false
  skipped := false
  wanted := false
  pipe := 0
  fed := false
  readable := false
  pc := .setWanted
  sender := fun _ => none

/-! ## Where the threads are -/

variable {τ N : Type*} {s s' : State τ N} {t : τ} {n m : N}

/-- Some sender is at one of these accesses. -/
def State.Sending (s : State τ N) (P : N → SendPc → Prop) : Prop :=
  ∃ t n pc, s.sender t = some (n, pc) ∧ P n pc

/-- The loop will look at these watchers before it leaves `pipecb`. -/
def LoopPc.unscanned : LoopPc N → List N
  | .scan _ ns => ns
  | .take _ n ns => n :: ns
  | _ => []

/-- The loop is within `pipecb`, and will look at the flag of the channel. -/
def LoopPc.Tests (c : Channel) : LoopPc N → Prop
  | .clearSkipped => True
  | .testPending c' => c' = .sig ∨ c' = c
  | .clearPending c' => c' = .sig ∨ c' = c
  | .scan c' _ => c' = .sig ∧ c = .async
  | .take c' _ _ => c' = .sig ∧ c = .async
  | _ => False

/-- The loop is not within `pipecb`. -/
def LoopPc.Outside : LoopPc N → Prop
  | .setWanted => True
  | .testWait => True
  | .poll _ => True
  | .clearWanted => True
  | .testSkipped => True
  | .invokePending => True
  | .callbacks => True
  | _ => False

/-- The loop has `pipe_write_wanted` set. -/
def LoopPc.Wants : LoopPc N → Prop
  | .testWait => True
  | .poll _ => True
  | .clearWanted => True
  | _ => False

/-- The loop sleeps, and nothing in the pipe ends it. -/
def State.Blocked (s : State τ N) : Prop := s.pc = .poll true ∧ s.pipe = 0

/-- Outside `pipecb`, no watchers are left to look at. -/
theorem LoopPc.Outside.unscanned {p : LoopPc N} (h : p.Outside) : p.unscanned = [] := by
  cases p with
  | scan c ns => exact h.elim
  | take c n ns => exact h.elim
  | _ => rfl

/-- Outside `pipecb`, no flag is about to be tested. -/
theorem LoopPc.Outside.not_tests {p : LoopPc N} (h : p.Outside) (c : Channel) : ¬ p.Tests c := by
  cases p with
  | clearSkipped => exact h.elim
  | testPending c => exact h.elim
  | clearPending c => exact h.elim
  | scan c ns => exact h.elim
  | take c n ns => exact h.elim
  | _ => exact id

/-! ## What the accesses leave alone -/

section Frame

variable [DecidableEq τ] [DecidableEq N] {ws : Watchers N} {e : Event τ N}

/-- A send concerns no other sender, and takes no mark away. -/
theorem SendStep.frame (hs : SendStep ws t s e s') :
    s'.pc = s.pc ∧ (∀ u, u ≠ t → s'.sender u = s.sender u) ∧
      ∀ n, s.note n = true → s'.note n = true := by
  have hne {q : Option (N × SendPc)} : ∀ u, u ≠ t → (s.goto t q).sender u = s.sender u :=
    fun u hu => Function.update_of_ne hu ..
  cases hs with
  | @mark m ht =>
      refine ⟨rfl, hne, fun n hn => ?_⟩
      change Function.update s.note m true n = true
      by_cases hnm : n = m
      · rw [hnm, Function.update_self]
      · rwa [Function.update_of_ne hnm]
  | _ => exact ⟨rfl, hne, fun _ hn => hn⟩

/-- A sender begins, returns, or goes on with what it sends, which it marks first. -/
theorem SendStep.own (hs : SendStep ws t s e s') :
    (∃ n, e = .call t n ∧ s'.sender t = some (n, .mark)) ∨
      (e = .ret t ∧ s'.sender t = none ∧ ∃ n q, s.sender t = some (n, q) ∧ q ≠ .mark) ∨
      ((∀ u, e ≠ .ret u) ∧ ∃ n q q', s.sender t = some (n, q) ∧ s'.sender t = some (n, q') ∧
        (q = .mark → s'.note n = true)) := by
  have hself {q : Option (N × SendPc)} : (s.goto t q).sender t = q := Function.update_self ..
  cases hs with
  | call n ht => exact .inl ⟨n, rfl, hself⟩
  | mark ht => exact .inr (.inr ⟨nofun, _, _, _, ht, hself, fun _ => Function.update_self ..⟩)
  | flagged ht hf => exact .inr (.inl ⟨rfl, hself, _, _, ht, nofun⟩)
  | notWanted ht hw => exact .inr (.inl ⟨rfl, hself, _, _, ht, nofun⟩)
  | write ht => exact .inr (.inl ⟨rfl, hself, _, _, ht, nofun⟩)
  | notFlagged ht hf => exact .inr (.inr ⟨nofun, _, _, _, ht, hself, nofun⟩)
  | setFlag ht => exact .inr (.inr ⟨nofun, _, _, _, ht, hself, nofun⟩)
  | setSkipped ht => exact .inr (.inr ⟨nofun, _, _, _, ht, hself, nofun⟩)
  | wanted ht hw => exact .inr (.inr ⟨nofun, _, _, _, ht, hself, nofun⟩)
  | clearSkipped ht => exact .inr (.inr ⟨nofun, _, _, _, ht, hself, nofun⟩)

omit [DecidableEq τ] in
/-- The loop leaves the senders alone. -/
theorem LoopStep.sender (hs : LoopStep ws s e s') : s'.sender = s.sender := by
  cases hs <;> rfl

omit [DecidableEq τ] in
/-- The loop goes to its poll from the test whether to wait. -/
theorem LoopStep.to_poll (hs : LoopStep ws s e s') {wait : Bool} (hpc : s'.pc = .poll wait) :
    s.pc = .testWait := by
  cases hs with
  | wait h _ => exact h
  | noWait h => exact h
  | @notPending c h _ => cases c <;> cases hpc
  | @scanned c h => cases c <;> cases hpc
  | _ => cases hpc

end Frame

/-! ## What keeps the loop from sleeping over a sender -/

/-- Each part says who takes care of what is left behind: of a note the one who raises the flag, of a
raised flag the one who wakes the loop, of a skipped wake-up the one who has seen the loop poll. -/
structure Sound (ws : Watchers N) (s : State τ N) : Prop where
  note : ∀ n, s.note n = true → n ∈ ws.items (ws.chan n) →
    s.Sending (fun m pc => ws.chan m = ws.chan n ∧ (pc = .testFlag ∨ pc = .setFlag)) ∨
      s.flag (ws.chan n) = true ∨ n ∈ s.pc.unscanned
  flag : ∀ c, s.flag c = true →
    s.Sending (fun _ pc => pc = .setSkipped ∨ pc = .write) ∨ s.skipped = true ∨ 0 < s.pipe ∨
      s.pc.Tests c
  skipped : s.pc = .poll true → s.skipped = true →
    s.Sending (fun _ pc => pc = .testWanted ∨ pc = .clearSkipped) ∨ 0 < s.pipe
  wanted : s.pc.Wants → s.wanted = true

/-- At the start nothing is marked, flagged or skipped. -/
theorem sound_initial (ws : Watchers N) : Sound ws (initial τ N) := by
  constructor <;> simp [initial, LoopPc.Wants]

section Steps

variable [DecidableEq τ] {ws : Watchers N} {P : N → SendPc → Prop} {q : Option (N × SendPc)}
  {pc : SendPc} {e : Event τ N}

/-- The sender that has moved is the one. -/
theorem sending_goto (hP : P n pc) : (s.goto t (some (n, pc))).Sending P :=
  ⟨t, n, pc, Function.update_self .., hP⟩

/-- A sender that moves on from somewhere else is not the one. -/
theorem State.Sending.goto (h : s.Sending P)
    (ht : ∀ n pc, s.sender t = some (n, pc) → ¬ P n pc) : (s.goto t q).Sending P := by
  obtain ⟨u, n, pc, hu, hP⟩ := h
  refine ⟨u, n, pc, ?_, hP⟩
  rw [← hu]
  apply Function.update_of_ne
  rintro rfl
  exact ht n pc hu hP

/-- A sender that moves on from elsewhere is not the one, so that one is still there. -/
theorem State.Sending.move (h : s.Sending P) (ht : s.sender t = some (n, pc)) (hP : ¬ P n pc) :
    (s.goto t q).Sending P := by
  refine h.goto fun m pc' hm => ?_
  rw [ht] at hm
  cases hm
  exact hP

variable [DecidableEq N]

/-- Each access of a sender keeps it. -/
theorem sound_send (h : Sound ws s) (hs : SendStep ws t s e s') : Sound ws s' := by
  cases hs with
  | call n ht =>
      have keep {P : N → SendPc → Prop} (hP : s.Sending P) :
          (s.goto t (some (n, .mark))).Sending P :=
        hP.goto (by simp [ht])
      exact ⟨fun m hm hi => (h.note m hm hi).imp_left keep, fun c hc => (h.flag c hc).imp_left keep,
        fun hp hk => (h.skipped hp hk).imp_left keep, h.wanted⟩
  | @mark n ht =>
      refine ⟨fun m hm hi => ?_, fun c hc => (h.flag c hc).imp_left fun hP => hP.move ht (by simp),
        fun hp hk => (h.skipped hp hk).imp_left fun hP => hP.move ht (by simp), h.wanted⟩
      by_cases hmn : m = n
      · exact .inl (sending_goto ⟨hmn ▸ rfl, .inl rfl⟩)
      · change Function.update s.note n true m = true at hm
        rw [Function.update_of_ne hmn] at hm
        exact (h.note m hm hi).imp_left fun hP => hP.move ht (by simp)
  | @flagged n ht hf =>
      refine ⟨fun m hm hi => ?_, fun c hc => (h.flag c hc).imp_left fun hP => hP.move ht (by simp),
        fun hp hk => (h.skipped hp hk).imp_left fun hP => hP.move ht (by simp), h.wanted⟩
      -- the flag that this sender has found raised is that of all notes of its channel
      by_cases hc : ws.chan n = ws.chan m
      · exact .inr (.inl (hc ▸ hf))
      · exact (h.note m hm hi).imp_left fun hP => hP.move ht fun hP => hc hP.1
  | @notFlagged n ht hf =>
      refine ⟨fun m hm hi => ?_, fun c hc => (h.flag c hc).imp_left fun hP => hP.move ht (by simp),
        fun hp hk => (h.skipped hp hk).imp_left fun hP => hP.move ht (by simp), h.wanted⟩
      by_cases hc : ws.chan n = ws.chan m
      · exact .inl (sending_goto ⟨hc, .inr rfl⟩)
      · exact (h.note m hm hi).imp_left fun hP => hP.move ht fun hP => hc hP.1
  | @setFlag n ht =>
      refine ⟨fun m hm hi => ?_, fun c hc => .inl (sending_goto (.inl rfl)),
        fun hp hk => (h.skipped hp hk).imp_left fun hP => hP.move ht (by simp), h.wanted⟩
      by_cases hc : ws.chan m = ws.chan n
      · refine .inr (.inl ?_)
        rw [hc]
        exact Function.update_self ..
      · rcases h.note m hm hi with hP | hf | hscan
        · exact .inl (hP.move ht fun hP => hc hP.1.symm)
        · exact .inr (.inl ((Function.update_of_ne hc ..).trans hf))
        · exact .inr (.inr hscan)
  | @setSkipped n ht =>
      exact ⟨fun m hm hi => (h.note m hm hi).imp_left fun hP => hP.move ht (by simp),
        fun c hc => .inr (.inl rfl), fun hp hk => .inl (sending_goto (.inl rfl)), h.wanted⟩
  | @notWanted n ht hw =>
      refine ⟨fun m hm hi => (h.note m hm hi).imp_left fun hP => hP.move ht (by simp),
        fun c hc => (h.flag c hc).imp_left fun hP => hP.move ht (by simp), fun hp hk => ?_, h.wanted⟩
      -- a loop that polls wants to be written to
      have hwanted := h.wanted (show s.pc.Wants by rw [show s.pc = _ from hp]; trivial)
      rw [hw] at hwanted
      cases hwanted
  | @wanted n ht hw =>
      exact ⟨fun m hm hi => (h.note m hm hi).imp_left fun hP => hP.move ht (by simp),
        fun c hc => (h.flag c hc).imp_left fun hP => hP.move ht (by simp),
        fun hp hk => .inl (sending_goto (.inr rfl)), h.wanted⟩
  | @clearSkipped n ht =>
      exact ⟨fun m hm hi => (h.note m hm hi).imp_left fun hP => hP.move ht (by simp),
        fun c hc => .inl (sending_goto (.inr rfl)), nofun, h.wanted⟩
  | @write n ht =>
      exact ⟨fun m hm hi => (h.note m hm hi).imp_left fun hP => hP.move ht (by simp),
        fun c hc => .inr (.inr (.inl (Nat.succ_pos _))), fun hp hk => .inr (Nat.succ_pos _), h.wanted⟩

omit [DecidableEq τ] [DecidableEq N] in
/-- The loop goes on and changes none of what the senders wait for. -/
theorem Sound.advance (h : Sound ws s) (hnote : s'.note = s.note) (hflag : s'.flag = s.flag)
    (hskipped : s'.skipped = s.skipped) (hpipe : s'.pipe = s.pipe) (hsender : s'.sender = s.sender)
    (hscan : ∀ n ∈ s.pc.unscanned, s.note n = true → n ∈ s'.pc.unscanned)
    (htests : ∀ c, s.pc.Tests c → s.flag c = true → s'.pc.Tests c)
    (hpoll : s'.pc = .poll true → s.skipped = false) (hwanted : s'.pc.Wants → s'.wanted = true) :
    Sound ws s' := by
  have hsend {P : N → SendPc → Prop} : s.Sending P → s'.Sending P := by
    unfold State.Sending
    rw [hsender]
    exact id
  refine ⟨fun m hm hi => ?_, fun c hc => ?_, fun hp hk => ?_, hwanted⟩
  · rw [hnote] at hm
    rw [hflag]
    -- whoever takes care of the note still does
    rcases h.note m hm hi with hP | hf | hs
    · exact .inl (hsend hP)
    · exact .inr (.inl hf)
    · exact .inr (.inr (hscan m hs hm))
  · rw [hflag] at hc
    rw [hskipped, hpipe]
    rcases h.flag c hc with hP | hk | hp | hs
    · exact .inl (hsend hP)
    · exact .inr (.inl hk)
    · exact .inr (.inr (.inl hp))
    · exact .inr (.inr (.inr (htests c hs hc)))
  · rw [hskipped, hpoll hp] at hk
    cases hk

omit [DecidableEq τ] [DecidableEq N] in
/-- Outside `pipecb` the loop takes nothing that the senders have left, and it may go to sleep only if
no wake-up was skipped. -/
theorem Sound.outside (h : Sound ws s) (hout : s.pc.Outside) {p : LoopPc N} {w f r : Bool}
    (hpoll : p = .poll true → s.skipped = false) (hwanted : p.Wants → w = true) :
    Sound ws { s with pc := p, wanted := w, fed := f, readable := r } := by
  refine h.advance rfl rfl rfl rfl rfl (fun n hn _ => ?_) (fun c hc _ => ?_) hpoll hwanted
  · rw [hout.unscanned] at hn
    cases hn
  · exact absurd hc (hout.not_tests c)

omit [DecidableEq τ] [DecidableEq N] in
/-- `pipecb` may empty the pipe, but it looks at both flags behind that. -/
theorem sound_pipecb (h : Sound ws s) (hpc : s.pc = .invokePending) (n : ℕ) :
    Sound ws { s with pc := .clearSkipped, fed := false, readable := false, pipe := n } := by
  refine ⟨fun m hm hi => ?_, fun c hc => .inr (.inr (.inr trivial)), nofun, nofun⟩
  have hnote := h.note m hm hi
  rw [hpc] at hnote
  exact hnote

omit [DecidableEq τ] [DecidableEq N] in
/-- So it does behind the write that clears `pipe_write_skipped`. -/
theorem sound_clearSkipped (h : Sound ws s) (hpc : s.pc = .clearSkipped) :
    Sound ws { s with pc := .testPending .sig, skipped := false } := by
  refine ⟨fun m hm hi => ?_, fun c hc => .inr (.inr (.inr (.inl rfl))), nofun, nofun⟩
  have hnote := h.note m hm hi
  rw [hpc] at hnote
  exact hnote

omit [DecidableEq τ] [DecidableEq N] in
/-- Past a flag that is not raised, `pipecb` still looks at the other one. -/
theorem sound_next (h : Sound ws s) {c : Channel} (hscan : s.pc.unscanned = [])
    (htests : ∀ c', s.pc.Tests c' → s.flag c' = true → c = .sig ∧ c' = .async) :
    Sound ws { s with pc := c.next } := by
  refine h.advance rfl rfl rfl rfl rfl (fun n hn _ => ?_) (fun c' ht hc' => ?_) ?_ ?_
  · rw [hscan] at hn
    cases hn
  · obtain ⟨rfl, rfl⟩ := htests c' ht hc'
    exact .inr rfl
  · cases c <;> nofun
  · cases c <;> nofun

omit [DecidableEq τ] [DecidableEq N] in
/-- Behind the write that clears a flag, all watchers of its channel are still to be looked at. -/
theorem sound_clearPending (h : Sound ws s) {c : Channel} (hpc : s.pc = .clearPending c) :
    Sound ws { s with pc := .scan c (ws.items c), flag := Function.update s.flag c false } := by
  refine ⟨fun m hm hi => ?_, fun c' hc => ?_, nofun, nofun⟩
  · by_cases hc : ws.chan m = c
    · exact .inr (.inr (hc ▸ hi))
    · have hnote := h.note m hm hi
      rw [hpc] at hnote
      dsimp only
      rw [Function.update_of_ne hc]
      exact hnote.imp_right fun hs => hs.imp_right nofun
  · change Function.update s.flag c false c' = true at hc
    have hne : c' ≠ c := by
      rintro rfl
      rw [Function.update_self] at hc
      cases hc
    rw [Function.update_of_ne hne] at hc
    have hflag := h.flag c' hc
    rw [hpc] at hflag
    refine hflag.imp_right fun hs => hs.imp_right fun hs => hs.imp_right fun hs => ?_
    -- the other flag is looked at later only if it is that of the watchers
    obtain rfl := hs.resolve_right (Ne.symm hne)
    refine ⟨rfl, ?_⟩
    cases c' with
    | sig => exact absurd rfl hne
    | async => rfl

omit [DecidableEq τ] in
/-- What the loop takes it need not look at again. -/
theorem sound_take (h : Sound ws s) {c : Channel} {ns : List N} (hpc : s.pc = .take c n ns) :
    Sound ws { s with pc := .scan c ns, note := Function.update s.note n false } := by
  refine ⟨fun m hm hi => ?_, fun c' hc => ?_, nofun, nofun⟩
  · change Function.update s.note n false m = true at hm
    have hne : m ≠ n := by
      rintro rfl
      rw [Function.update_self] at hm
      cases hm
    rw [Function.update_of_ne hne] at hm
    have hnote := h.note m hm hi
    rw [hpc] at hnote
    exact hnote.imp_right fun hs => hs.imp_right fun hs => (List.mem_cons.mp hs).resolve_left hne
  · have hflag := h.flag c' hc
    rw [hpc] at hflag
    exact hflag

omit [DecidableEq τ] in
/-- Each access of the loop keeps it. Only those of `pipecb` take something away. -/
theorem sound_loop (h : Sound ws s) (hs : LoopStep ws s e s') : Sound ws s' := by
  have hwanted := h.wanted
  cases hs with
  | setWanted hpc => exact h.outside (hpc ▸ trivial) nofun fun _ => rfl
  | wait hpc hk => exact h.outside (hpc ▸ trivial) (fun _ => hk) fun _ => hwanted (hpc ▸ trivial)
  | noWait hpc => exact h.outside (hpc ▸ trivial) nofun fun _ => hwanted (hpc ▸ trivial)
  | pollReports hpc _ => exact h.outside (hpc ▸ trivial) nofun fun _ => hwanted (hpc ▸ trivial)
  | pollReturns hpc => exact h.outside (hpc ▸ trivial) nofun fun _ => hwanted (hpc ▸ trivial)
  | clearWanted hpc => exact h.outside (hpc ▸ trivial) nofun nofun
  | testSkipped hpc => exact h.outside (hpc ▸ trivial) nofun nofun
  | notFed hpc hf => exact h.outside (hpc ▸ trivial) nofun nofun
  | callbacks hpc => exact h.outside (hpc ▸ trivial) nofun nofun
  | pipecb hpc hf => exact sound_pipecb h hpc _
  | clearSkipped hpc => exact sound_clearSkipped h hpc
  | @pending c hpc hf =>
      refine h.advance rfl rfl rfl rfl rfl (by simp [hpc, LoopPc.unscanned]) ?_ nofun nofun
      intro c' ht _
      rw [hpc] at ht
      exact ht
  | @notPending c hpc hf =>
      refine sound_next h (by rw [hpc]; rfl) fun c' ht hc' => ?_
      rw [hpc] at ht
      -- the channel whose flag is not raised is not the one that is
      have hne : c' ≠ c := by
        rintro rfl
        rw [hf] at hc'
        cases hc'
      obtain rfl := ht.resolve_right (Ne.symm hne)
      cases c' with
      | sig => exact absurd rfl hne
      | async => exact ⟨rfl, rfl⟩
  | clearPending hpc => exact sound_clearPending h hpc
  | @noted c n ns hpc hn =>
      refine h.advance rfl rfl rfl rfl rfl (fun m hm _ => ?_) (fun c' ht _ => ?_) nofun nofun
      · rw [hpc] at hm
        exact hm
      · rw [hpc] at ht
        exact ht
  | @notNoted c n ns hpc hn =>
      refine h.advance rfl rfl rfl rfl rfl (fun m hm hnm => ?_) (fun c' ht _ => ?_) nofun nofun
      · rw [hpc] at hm
        refine (List.mem_cons.mp hm).resolve_left ?_
        rintro rfl
        rw [hn] at hnm
        cases hnm
      · rw [hpc] at ht
        exact ht
  | take hpc => exact sound_take h hpc
  | @scanned c hpc =>
      refine sound_next h (by rw [hpc]; rfl) fun c' ht _ => ?_
      rw [hpc] at ht
      exact ht

/-- Every access keeps it. -/
theorem sound_step (h : Sound ws s) (hs : Step ws s e s') : Sound ws s' := by
  cases hs with
  | send t hs => exact sound_send h hs
  | loop hs => exact sound_loop h hs

/-- What the loop takes has been sent. -/
theorem taking_step (h : ∀ c n ns, s.pc = .take c n ns → s.note n = true) (hs : Step ws s e s') :
    ∀ c n ns, s'.pc = .take c n ns → s'.note n = true := by
  cases hs with
  | send t hs =>
      cases hs with
      | @mark m ht =>
          intro c n ns hpc
          change Function.update s.note m true n = true
          by_cases hn : n = m
          · rw [hn, Function.update_self]
          · rw [Function.update_of_ne hn]
            exact h c n ns hpc
      | _ => exact h
  | loop hs =>
      cases hs with
      | @noted c n ns hpc hn =>
          intro c' m ms heq
          cases heq
          exact hn
      | @notPending c hpc hf => cases c <;> exact nofun
      | @scanned c hpc => cases c <;> exact nofun
      | _ => exact nofun

/-- A watcher is marked while its last send has not been delivered. -/
theorem note_step {es : List (Event τ N)}
    (h : ∀ n, s.note n = owed (.send n) (.deliver n) es) (hs : Step ws s e s') :
    ∀ n, s'.note n = owed (.send n) (.deliver n) (es ++ [e]) := by
  intro n
  rw [owed_snoc, ← h n]
  cases hs with
  | send t hs =>
      cases hs with
      | @mark m ht =>
          by_cases hn : n = m
          · subst hn
            simp
          · simp [hn, Ne.symm hn]
      | _ => simp [State.goto]
  | loop hs =>
      cases hs with
      | @take c m ns hpc =>
          by_cases hn : n = m
          · subst hn
            simp
          · simp [hn, Ne.symm hn]
      | _ => simp

end Steps

/-! ## No lost wake-up -/

variable [DecidableEq τ] [DecidableEq N] {ws : Watchers N} {es : List (Event τ N)}

/-- It holds in every state that a run reaches. -/
theorem sound_run (h : Run (Step ws) (initial τ N) es s) : Sound ws s :=
  h.invariant (fun _ _ _ => sound_step) (sound_initial ws)

omit [DecidableEq τ] [DecidableEq N] in
/-- A loop that sleeps over a send is about to be woken by some sender. -/
theorem Sound.exists_sending (h : Sound ws s) (hb : s.Blocked) (hn : s.note n = true)
    (hi : n ∈ ws.items (ws.chan n)) : s.Sending fun _ pc => pc ≠ .mark := by
  obtain ⟨hpc, hpipe⟩ := hb
  have hweaken {P : N → SendPc → Prop} (hP : s.Sending P) (himp : ∀ m pc, P m pc → pc ≠ .mark) :
      s.Sending fun _ pc => pc ≠ .mark := by
    obtain ⟨t, m, pc, ht, hP⟩ := hP
    exact ⟨t, m, pc, ht, himp m pc hP⟩
  rcases h.note n hn hi with hP | hf | hs
  · exact hweaken hP (by rintro m pc ⟨-, rfl | rfl⟩ <;> nofun)
  · rcases h.flag _ hf with hP | hk | hp | hs
    · exact hweaken hP (by rintro m pc (rfl | rfl) <;> nofun)
    · rcases h.skipped hpc hk with hP | hp
      · exact hweaken hP (by rintro m pc (rfl | rfl) <;> nofun)
      · omega
    · omega
    · rw [hpc] at hs
      exact hs.elim
  · rw [hpc] at hs
    cases hs

/-- The loop starts in `initial`, where nothing is owed. -/
theorem note_run (h : Run (Step ws) (initial τ N) es s) (n : N) :
    s.note n = owed (.send n) (.deliver n) es :=
  h.invariant_trace (I := fun es s => ∀ n, s.note n = owed (.send n) (.deliver n) es)
    (fun _ _ _ _ => note_step) (fun _ => rfl) n

/-- In every state, what the loop takes has been sent. -/
theorem taking_run (h : Run (Step ws) (initial τ N) es s) :
    ∀ c n ns, s.pc = .take c n ns → s.note n = true :=
  h.invariant (fun _ _ _ => taking_step) nofun

/-- **No wake-up is lost, and none is made up.** However senders and loop interleave, each delivery
follows a send that was not delivered yet. Whenever the loop sleeps with an empty pipe, and every
sender has returned or has not yet marked what it sends, each send has been delivered. -/
theorem evPipe_no_lost_wakeup (h : Run (Step ws) (initial τ N) es s) (n : N) :
    (∀ es₁ es₂, es = es₁ ++ .deliver n :: es₂ →
      ∃ es₃ es₄, es₁ = es₃ ++ .send n :: es₄ ∧ .deliver n ∉ es₄) ∧
      (s.Blocked → (∀ t m pc, s.sender t = some (m, pc) → pc = .mark) →
        n ∈ ws.items (ws.chan n) → ∀ es₁ es₂, es = es₁ ++ .send n :: es₂ → .deliver n ∈ es₂) := by
  constructor
  · rintro es₁ es₂ rfl
    obtain ⟨u, u', h₁, hs, -⟩ := h.split_at
    refine exists_request ?_
    rw [← note_run h₁]
    cases hs with
    | send t hs => cases hs
    | loop hs =>
        cases hs with
        | @take c n ns hpc => exact taking_run h₁ c n ns hpc
  · rintro hb hidle hi es₁ es₂ rfl
    have hnote : s.note n = false := by
      rw [Bool.eq_false_iff]
      intro hn
      obtain ⟨t, m, pc, ht, hpc⟩ := (sound_run h).exists_sending hb hn hi
      exact hpc (hidle t m pc ht)
    rw [note_run h] at hnote
    exact answered hnote

/-- One `ev_async` watcher, as `bf_sys_timer_init` starts it. -/
def asyncW : Watchers Unit where
  chan := fun _ => .async
  items := fun c => if c = .async then [()] else []
  eventfd := true
  chan_items := by
    intro c n hn
    cases c with
    | sig => cases hn
    | async => rfl

/-- The loop sleeps, is sent to, and sleeps again. -/
theorem evPipe_no_lost_wakeup_one : ∃ (s : State Unit Unit) (es₁ es₂ : List (Event Unit Unit)),
    Run (Step asyncW) (initial Unit Unit) (es₁ ++ .send () :: es₂) s ∧ s.Blocked ∧
      .deliver () ∈ es₂ := by
  have hrun : Run (Step asyncW) (initial Unit Unit)
      ([.silent, .silent, .call () ()] ++ .send () :: [.silent, .silent, .silent, .silent, .silent,
        .ret (), .poll true, .silent, .silent, .silent, .silent, .silent, .silent, .silent, .silent,
        .deliver (), .silent, .silent, .silent, .silent]) _ :=
    .cons (.loop (.setWanted rfl)) <| .cons (.loop (.wait rfl rfl)) <|
    .cons (.send () (.call () rfl)) <| .cons (.send () (.mark rfl)) <|
    .cons (.send () (.notFlagged rfl rfl)) <| .cons (.send () (.setFlag rfl)) <|
    .cons (.send () (.setSkipped rfl)) <| .cons (.send () (.wanted rfl rfl)) <|
    .cons (.send () (.clearSkipped rfl)) <| .cons (.send () (.write rfl)) <|
    .cons (.loop (.pollReports rfl (Nat.succ_pos 0))) <| .cons (.loop (.clearWanted rfl)) <|
    .cons (.loop (.testSkipped rfl)) <| .cons (.loop (.pipecb rfl rfl)) <|
    .cons (.loop (.clearSkipped rfl)) <| .cons (.loop (.notPending rfl rfl)) <|
    .cons (.loop (.pending rfl rfl)) <| .cons (.loop (.clearPending rfl)) <|
    .cons (.loop (.noted rfl rfl)) <| .cons (.loop (.take rfl)) <|
    .cons (.loop (.scanned rfl)) <| .cons (.loop (.callbacks rfl)) <|
    .cons (.loop (.setWanted rfl)) <| .single (.loop (.wait rfl rfl))
  exact ⟨_, _, _, hrun, ⟨rfl, rfl⟩, (evPipe_no_lost_wakeup hrun ()).2 ⟨rfl, rfl⟩ nofun
    (List.mem_singleton_self ()) _ _ rfl⟩

/-! ## The loop wakes up -/

/-- The poll reports a pipe that is not empty, and nothing else ends a sleep. -/
def Prompt (s : State τ N) (e : Event τ N) : Prop :=
  ∀ wait, s.pc = .poll wait → wait = true ∨ 0 < s.pipe → e = .poll true

/-- What the loop still has to look at behind the part of `pipecb` for a channel. -/
def Watchers.behind (ws : Watchers N) : Channel → ℕ
  | .sig => 2 * (ws.items .async).length + 3
  | .async => 0

/-- The accesses of the loop, at most, until its pass is over. -/
def Watchers.left (ws : Watchers N) : LoopPc N → ℕ
  | .setWanted => 2 * (ws.items .sig).length + ws.behind .sig + 10
  | .testWait => 2 * (ws.items .sig).length + ws.behind .sig + 9
  | .poll _ => 2 * (ws.items .sig).length + ws.behind .sig + 8
  | .clearWanted => 2 * (ws.items .sig).length + ws.behind .sig + 7
  | .testSkipped => 2 * (ws.items .sig).length + ws.behind .sig + 6
  | .invokePending => 2 * (ws.items .sig).length + ws.behind .sig + 5
  | .clearSkipped => 2 * (ws.items .sig).length + ws.behind .sig + 4
  | .testPending c => 2 * (ws.items c).length + ws.behind c + 3
  | .clearPending c => 2 * (ws.items c).length + ws.behind c + 2
  | .take c _ ns => 2 * ns.length + ws.behind c + 2
  | .scan c ns => 2 * ns.length + ws.behind c + 1
  | .callbacks => 0

omit [DecidableEq τ] [DecidableEq N] in
/-- Behind the part for one channel, that for the next one is left. -/
theorem left_next (c : Channel) : ws.left (c.next : LoopPc N) = ws.behind c := by
  cases c <;> rfl

/-- The loop is not in `pipecb` yet, but will be in this pass. -/
def State.Woken (s : State τ N) : Prop :=
  match s.pc with
  | .setWanted => s.skipped = true ∨ 0 < s.pipe
  | .testWait => s.skipped = true ∨ 0 < s.pipe
  | .poll wait => s.skipped = true ∧ wait = false ∨ 0 < s.pipe
  | .clearWanted => s.skipped = true ∨ s.fed = true
  | .testSkipped => s.skipped = true ∨ s.fed = true
  | .invokePending => s.fed = true
  | _ => False

/-- The loop will deliver `n` in this pass. -/
structure Delivering (ws : Watchers N) (n : N) (s : State τ N) : Prop where
  note : s.note n = true
  items : n ∈ ws.items (ws.chan n)
  pc : n ∈ s.pc.unscanned ∨ s.flag (ws.chan n) = true ∧ (s.pc.Tests (ws.chan n) ∨ s.Woken)

omit [DecidableEq τ] [DecidableEq N] in
/-- A loop that is not in `pipecb` yet is outside. -/
theorem State.Woken.outside (hw : s.Woken) : s.pc.Outside := by
  unfold State.Woken at hw
  cases hpc : s.pc with
  | setWanted => trivial
  | testWait => trivial
  | poll wait => trivial
  | clearWanted => trivial
  | testSkipped => trivial
  | invokePending => trivial
  | _ =>
      rw [hpc] at hw
      exact hw.elim

section Delivering

variable {e : Event τ N}

omit [DecidableEq τ] [DecidableEq N] in
/-- Outside `pipecb` it is the flag that keeps the loop awake. -/
theorem Delivering.of_outside (h : Delivering ws n s) (hout : s.pc.Outside) :
    s.flag (ws.chan n) = true ∧ s.Woken := by
  rcases h.pc with hs | ⟨hf, hs | hs⟩
  · rw [hout.unscanned] at hs
    cases hs
  · exact absurd hs (hout.not_tests _)
  · exact ⟨hf, hs⟩

omit [DecidableEq τ] [DecidableEq N] in
/-- Within it nothing can hold up the loop. -/
theorem Delivering.of_pipecb (h : Delivering ws n s) (hw : ¬ s.Woken) :
    n ∈ s.pc.unscanned ∨ s.flag (ws.chan n) = true ∧ s.pc.Tests (ws.chan n) :=
  h.pc.imp_right fun hq => ⟨hq.1, hq.2.resolve_right hw⟩

omit [DecidableEq τ] in
/-- A loop that is woken stays so until it is in `pipecb`, and touches neither notes nor flags. -/
theorem State.Woken.step (hw : s.Woken) (hs : LoopStep ws s e s') (hp : Prompt s e) :
    s'.note = s.note ∧ s'.flag = s.flag ∧ (s'.pc = .clearSkipped ∨ s'.Woken) := by
  unfold State.Woken at hw
  cases hs with
  | setWanted hpc =>
      rw [hpc] at hw
      exact ⟨rfl, rfl, .inr hw⟩
  | wait hpc hk =>
      rw [hpc, hk] at hw
      exact ⟨rfl, rfl, .inr (.inr (hw.resolve_left nofun))⟩
  | noWait hpc =>
      rw [hpc] at hw
      exact ⟨rfl, rfl, .inr (hw.imp_left fun hk => ⟨hk, rfl⟩)⟩
  | pollReports hpc _ => exact ⟨rfl, rfl, .inr (.inr rfl)⟩
  | @pollReturns wait hpc =>
      rw [hpc] at hw
      refine ⟨rfl, rfl, .inr (.inl ?_)⟩
      -- it does not return from a sleep, nor with something in the pipe
      rcases hw with hk | hpipe
      · exact hk.1
      · exact nomatch hp wait hpc (.inr hpipe)
  | clearWanted hpc =>
      rw [hpc] at hw
      exact ⟨rfl, rfl, .inr hw⟩
  | testSkipped hpc =>
      rw [hpc] at hw
      exact ⟨rfl, rfl, .inr ((Bool.or_eq_true _ _).mpr hw.symm)⟩
  | pipecb hpc _ => exact ⟨rfl, rfl, .inl rfl⟩
  | notFed hpc hfed =>
      rw [hpc, hfed] at hw
      cases hw
  | _ =>
      rw [‹s.pc = _›] at hw
      exact hw.elim

omit [DecidableEq τ] [DecidableEq N] in
/-- An access to a flag within `pipecb`: a flag that is raised has to be tested. -/
theorem Delivering.testing (h : Delivering ws n s) (hw : ¬ s.Woken) (hscan : s.pc.unscanned = [])
    (hnote : s'.note = s.note)
    (hpc : s.flag (ws.chan n) = true → s.pc.Tests (ws.chan n) →
      n ∈ s'.pc.unscanned ∨ s'.flag (ws.chan n) = true ∧ s'.pc.Tests (ws.chan n)) :
    Delivering ws n s' := by
  have hq := h.of_pipecb hw
  rw [hscan] at hq
  obtain ⟨hf, ht⟩ := hq.resolve_left List.not_mem_nil
  refine ⟨?_, h.items, (hpc hf ht).imp_right fun hq => ⟨hq.1, .inl hq.2⟩⟩
  rw [hnote]
  exact h.note

omit [DecidableEq τ] [DecidableEq N] in
/-- An access to a note within `pipecb`: the loop may pass over any watcher but this one. -/
theorem Delivering.scanning (h : Delivering ws n s) (hw : ¬ s.Woken) (hnote : s'.note n = true)
    (hflag : s'.flag = s.flag) (hscan : n ∈ s.pc.unscanned → n ∈ s'.pc.unscanned)
    (htests : s.pc.Tests (ws.chan n) → s'.pc.Tests (ws.chan n)) : Delivering ws n s' := by
  refine ⟨hnote, h.items, (h.of_pipecb hw).imp hscan fun hq => ?_⟩
  rw [hflag]
  exact ⟨hq.1, .inl (htests hq.2)⟩

omit [DecidableEq τ] in
/-- Until its pass is over, each access of the loop leaves fewer. -/
theorem left_step (hs : LoopStep ws s e s') (hover : s.pc ≠ .callbacks) :
    ws.left s'.pc < ws.left s.pc := by
  cases hs with
  | callbacks hpc => exact absurd hpc hover
  | notFed hpc _ =>
      rw [hpc]
      exact Nat.succ_pos _
  | notPending hpc _ =>
      -- the tests that fail skip some accesses
      rw [hpc, left_next, Watchers.left]
      omega
  | scanned hpc =>
      rw [hpc, left_next, Watchers.left]
      omega
  | noted hpc _ =>
      rw [hpc, Watchers.left, Watchers.left, List.length_cons]
      omega
  | notNoted hpc _ =>
      rw [hpc, Watchers.left, Watchers.left, List.length_cons]
      omega
  -- every other access is one of those that are counted
  | setWanted hpc => exact hpc ▸ Nat.lt_succ_self _
  | wait hpc _ => exact hpc ▸ Nat.lt_succ_self _
  | noWait hpc => exact hpc ▸ Nat.lt_succ_self _
  | pollReports hpc _ => exact hpc ▸ Nat.lt_succ_self _
  | pollReturns hpc => exact hpc ▸ Nat.lt_succ_self _
  | clearWanted hpc => exact hpc ▸ Nat.lt_succ_self _
  | testSkipped hpc => exact hpc ▸ Nat.lt_succ_self _
  | pipecb hpc _ => exact hpc ▸ Nat.lt_succ_self _
  | clearSkipped hpc => exact hpc ▸ Nat.lt_succ_self _
  | pending hpc _ => exact hpc ▸ Nat.lt_succ_self _
  | clearPending hpc => exact hpc ▸ Nat.lt_succ_self _
  | take hpc => exact hpc ▸ Nat.lt_succ_self _

omit [DecidableEq τ] [DecidableEq N] in
/-- The pass is not over before the delivery. -/
theorem Delivering.not_over (h : Delivering ws n s) : s.pc ≠ .callbacks := by
  intro hpc
  obtain ⟨-, hw⟩ := h.of_outside (hpc ▸ trivial)
  rw [State.Woken, hpc] at hw
  exact hw

omit [DecidableEq τ] in
/-- Each access leaves the loop on its way to the delivery. -/
theorem Delivering.step (h : Delivering ws n s) (hs : LoopStep ws s e s') (hp : Prompt s e) :
    e = .deliver n ∨ Delivering ws n s' := by
  by_cases hw : s.Woken
  · obtain ⟨hnote, hflag, hpc⟩ := hw.step hs hp
    refine .inr ⟨hnote ▸ h.note, h.items, .inr ⟨hflag ▸ (h.of_outside hw.outside).1, ?_⟩⟩
    refine hpc.imp_left fun hpc => ?_
    rw [hpc]
    trivial
  -- the loop is in `pipecb`
  cases hs with
  | clearSkipped hpc =>
      refine .inr (h.testing hw (by rw [hpc]; rfl) rfl fun hf _ => .inr ⟨hf, .inl rfl⟩)
  | @pending c hpc hc =>
      refine .inr (h.testing hw (by rw [hpc]; rfl) rfl fun hf ht => .inr ⟨hf, ?_⟩)
      rw [hpc] at ht
      exact ht
  | @notPending c hpc hc =>
      refine .inr (h.testing hw (by rw [hpc]; rfl) rfl fun hf ht => .inr ⟨hf, ?_⟩)
      rw [hpc] at ht
      -- the signals were looked at, the watchers are still to be
      have hne : ws.chan n ≠ c := by
        rintro rfl
        rw [hc] at hf
        cases hf
      obtain rfl := ht.resolve_right (Ne.symm hne)
      cases hch : ws.chan n with
      | sig => exact absurd hch hne
      | async => exact .inr rfl
  | @clearPending c hpc =>
      refine .inr (h.testing hw (by rw [hpc]; rfl) rfl fun hf ht => ?_)
      rw [hpc] at ht
      by_cases hc : ws.chan n = c
      · exact .inl (hc ▸ h.items)
      · obtain rfl := ht.resolve_right (Ne.symm hc)
        refine .inr ⟨(Function.update_of_ne hc ..).trans hf, rfl, ?_⟩
        cases hch : ws.chan n with
        | sig => exact absurd hch hc
        | async => rfl
  | @scanned c hpc =>
      refine .inr (h.testing hw (by rw [hpc]; rfl) rfl fun hf ht => .inr ⟨hf, ?_⟩)
      rw [hpc] at ht
      obtain ⟨rfl, hasync⟩ := ht
      exact .inr hasync.symm
  | @noted c m ns hpc hm =>
      refine .inr (h.scanning hw h.note rfl (fun hn => ?_) fun ht => ?_)
      · rw [hpc] at hn
        exact hn
      · rw [hpc] at ht
        exact ht
  | @notNoted c m ns hpc hm =>
      refine .inr (h.scanning hw h.note rfl (fun hn => ?_) fun ht => ?_)
      · rw [hpc] at hn
        refine (List.mem_cons.mp hn).resolve_left ?_
        rintro rfl
        rw [h.note] at hm
        cases hm
      · rw [hpc] at ht
        exact ht
  | @take c m ns hpc =>
      by_cases hnm : n = m
      · exact .inl (hnm ▸ rfl)
      · refine .inr (h.scanning hw
          ((Function.update_of_ne hnm ..).trans h.note) rfl (fun hn => ?_) fun ht => ?_)
        · rw [hpc] at hn
          exact (List.mem_cons.mp hn).resolve_left hnm
        · rw [hpc] at ht
          exact ht
  | _ => exact absurd (h.of_outside (by rw [‹s.pc = _›]; trivial)).2 hw

omit [DecidableEq τ] [DecidableEq N] in
/-- Only at the poll there is something to be prompt about. -/
theorem prompt_of_ne (h : ∀ wait, s.pc ≠ .poll wait) : Prompt s e := fun wait hw => absurd hw (h wait)

omit [DecidableEq τ] in
/-- The loop is not asleep before it has delivered. -/
theorem Delivering.exists_step (h : Delivering ws n s) :
    ∃ e s', Guarded (LoopStep ws) Prompt s e s' := by
  cases hpc : s.pc with
  | setWanted => exact ⟨_, _, .setWanted hpc, prompt_of_ne (by simp [hpc])⟩
  | testWait => exact ⟨_, _, .noWait hpc, prompt_of_ne (by simp [hpc])⟩
  | poll wait =>
      obtain ⟨-, hw⟩ := h.of_outside (hpc ▸ trivial)
      rw [State.Woken, hpc] at hw
      -- a pipe that is empty was skipped, and then the loop does not wait
      by_cases hpipe : 0 < s.pipe
      · exact ⟨_, _, .pollReports hpc hpipe, fun _ _ _ => rfl⟩
      · obtain ⟨-, rfl⟩ := hw.resolve_right hpipe
        refine ⟨_, _, .pollReturns hpc, fun wait hw hor => ?_⟩
        rw [hpc] at hw
        cases hw
        exact absurd (hor.resolve_left nofun) hpipe
  | clearWanted => exact ⟨_, _, .clearWanted hpc, prompt_of_ne (by simp [hpc])⟩
  | testSkipped => exact ⟨_, _, .testSkipped hpc, prompt_of_ne (by simp [hpc])⟩
  | invokePending =>
      obtain ⟨-, hw⟩ := h.of_outside (hpc ▸ trivial)
      rw [State.Woken, hpc] at hw
      exact ⟨_, _, .pipecb hpc hw, prompt_of_ne (by simp [hpc])⟩
  | clearSkipped => exact ⟨_, _, .clearSkipped hpc, prompt_of_ne (by simp [hpc])⟩
  | testPending c =>
      cases hf : s.flag c with
      | false => exact ⟨_, _, .notPending hpc hf, prompt_of_ne (by simp [hpc])⟩
      | true => exact ⟨_, _, .pending hpc hf, prompt_of_ne (by simp [hpc])⟩
  | clearPending c => exact ⟨_, _, .clearPending hpc, prompt_of_ne (by simp [hpc])⟩
  | scan c ns =>
      cases ns with
      | nil => exact ⟨_, _, .scanned hpc, prompt_of_ne (by simp [hpc])⟩
      | cons m ns =>
          cases hm : s.note m with
          | false => exact ⟨_, _, .notNoted hpc hm, prompt_of_ne (by simp [hpc])⟩
          | true => exact ⟨_, _, .noted hpc hm, prompt_of_ne (by simp [hpc])⟩
  | take c m ns => exact ⟨_, _, .take hpc, prompt_of_ne (by simp [hpc])⟩
  | callbacks => exact ⟨_, _, .callbacks hpc, prompt_of_ne (by simp [hpc])⟩

omit [DecidableEq τ] [DecidableEq N] in
/-- A loop at the start of its pass will deliver what the senders have left for it. -/
theorem Sound.delivering (h : Sound ws s) (hidle : ∀ t m pc, s.sender t = some (m, pc) → pc = .mark)
    (hpc : s.pc = .setWanted ∨ s.pc = .testWait ∨ ∃ wait, s.pc = .poll wait)
    (hn : s.note n = true) (hi : n ∈ ws.items (ws.chan n)) : Delivering ws n s := by
  have hnone {P : N → SendPc → Prop} (hP : ∀ m, ¬ P m .mark) : ¬ s.Sending P := by
    rintro ⟨t, m, pc, ht, hp⟩
    rw [hidle t m pc ht] at hp
    exact hP m hp
  have hscan : n ∉ s.pc.unscanned := by
    rcases hpc with hpc | hpc | ⟨wait, hpc⟩ <;> simp [hpc, LoopPc.unscanned]
  have htests : ¬ s.pc.Tests (ws.chan n) := by
    rcases hpc with hpc | hpc | ⟨wait, hpc⟩ <;> simp [hpc, LoopPc.Tests]
  have hflag := ((h.note n hn hi).resolve_left (hnone (by simp))).resolve_right hscan
  have hwake : s.skipped = true ∨ 0 < s.pipe :=
    ((h.flag _ hflag).resolve_left (hnone (by simp))).imp_right fun hs => hs.resolve_right htests
  refine ⟨hn, hi, .inr ⟨hflag, .inr ?_⟩⟩
  rcases hpc with hpc | hpc | ⟨wait, hpc⟩
  · rwa [State.Woken, hpc]
  · rwa [State.Woken, hpc]
  · rw [State.Woken, hpc]
    by_cases hpipe : 0 < s.pipe
    · exact .inr hpipe
    · have hk := hwake.resolve_right hpipe
      cases wait with
      | false => exact .inl ⟨hk, rfl⟩
      | true => exact .inr ((h.skipped hpc hk).resolve_left (hnone (by simp)))

omit [DecidableEq τ] in
/-- By induction on the run: until the delivery each access counts down. -/
theorem Delivering.run {es' : List (Event τ N)} (h : Delivering ws n s)
    (h' : Run (Guarded (LoopStep ws) Prompt) s es' s') : .deliver n ∈ es' ∨
      Delivering ws n s' ∧ es'.length + ws.left s'.pc ≤ ws.left s.pc := by
  induction h' with
  | nil => exact .inr ⟨h, Nat.le_of_eq (Nat.zero_add _)⟩
  | snoc _ hs ih =>
      rcases ih with hd | ⟨hd, hle⟩
      · exact .inl (List.mem_append_left _ hd)
      · have hlt := left_step hs.1 hd.not_over
        rcases hd.step hs.1 hs.2 with rfl | hd
        · exact .inl (by simp)
        · refine .inr ⟨hd, ?_⟩
          rw [List.length_append, List.length_singleton]
          omega

end Delivering

/-- **The loop wakes up and delivers.** Let every sender have returned, or not have marked yet what
it sends, while the loop is anywhere from the start of its pass to the poll. Even if nothing but the
pipe ends a sleep, and no sender does anything more, the loop goes on until it has delivered all that
was sent, within a number of accesses that depends only on how many watchers there are. -/
theorem evPipe_delivers (h : Run (Step ws) (initial τ N) es s)
    (hidle : ∀ t m pc, s.sender t = some (m, pc) → pc = .mark)
    (hpc : s.pc = .setWanted ∨ s.pc = .testWait ∨ ∃ wait, s.pc = .poll wait)
    (hn : s.note n = true) (hi : n ∈ ws.items (ws.chan n)) {es' : List (Event τ N)}
    (h' : Run (Guarded (LoopStep ws) Prompt) s es' s') (hd : .deliver n ∉ es') :
    es'.length ≤ 2 * ((ws.items .sig).length + (ws.items .async).length) + 13 ∧
      ∃ e s'', Guarded (LoopStep ws) Prompt s' e s'' := by
  have hstart := (sound_run h).delivering hidle hpc hn hi
  obtain ⟨hdel, hle⟩ := (hstart.run h').resolve_left hd
  refine ⟨?_, hdel.exists_step⟩
  have hleft : ws.left s.pc ≤ 2 * (ws.items .sig).length + ws.behind .sig + 10 := by
    rcases hpc with hpc | hpc | ⟨wait, hpc⟩ <;> rw [hpc, Watchers.left] <;> omega
  rw [Watchers.behind] at hleft
  omega

/-- The loop sleeps, is sent to, and looks at its pipe and at its flags. -/
theorem woken : ∃ s s₁ : State Unit Unit, Run (Step asyncW) (initial Unit Unit)
    [.silent, .silent, .call () (), .send (), .silent, .silent, .silent, .silent, .silent, .ret ()] s ∧
      s.pc = .poll true ∧ s.note () = true ∧ s.sender = (fun _ => none) ∧
      Run (Guarded (LoopStep asyncW) Prompt) s
        [.poll true, .silent, .silent, .silent, .silent, .silent, .silent, .silent, .silent] s₁ := by
  -- what is not the poll needs no condition
  have awake {s s' : State Unit Unit} {e : Event Unit Unit} (hs : LoopStep asyncW s e s')
      (hpc : ∀ wait, s.pc ≠ .poll wait) : Guarded (LoopStep asyncW) Prompt s e s' :=
    ⟨hs, fun wait hw => absurd hw (hpc wait)⟩
  refine ⟨_, _, .cons (.loop (.setWanted rfl)) <| .cons (.loop (.wait rfl rfl)) <|
    .cons (.send () (.call () rfl)) <| .cons (.send () (.mark rfl)) <|
    .cons (.send () (.notFlagged rfl rfl)) <| .cons (.send () (.setFlag rfl)) <|
    .cons (.send () (.setSkipped rfl)) <| .cons (.send () (.wanted rfl rfl)) <|
    .cons (.send () (.clearSkipped rfl)) <| .single (.send () (.write rfl)), rfl, rfl, ?_,
    .cons ⟨.pollReports rfl (Nat.succ_pos 0), fun _ _ _ => rfl⟩ <|
    .cons (awake (.clearWanted rfl) nofun) <| .cons (awake (.testSkipped rfl) nofun) <|
    .cons (awake (.pipecb rfl rfl) nofun) <| .cons (awake (.clearSkipped rfl) nofun) <|
    .cons (awake (.notPending rfl rfl) nofun) <| .cons (awake (.pending rfl rfl) nofun) <|
    .cons (awake (.clearPending rfl) nofun) <| .single (awake (.noted rfl rfl) nofun)⟩
  funext t
  rfl

/-- Nine accesses behind its poll the loop has not delivered yet, and goes on. -/
theorem evPipe_delivers_one : ∃ (s s₁ s₂ : State Unit Unit) (es es₁ : List (Event Unit Unit))
    (e : Event Unit Unit), Run (Step asyncW) (initial Unit Unit) es s ∧ s.pc = .poll true ∧
      Run (Guarded (LoopStep asyncW) Prompt) s es₁ s₁ ∧ es₁.length = 9 ∧
      Guarded (LoopStep asyncW) Prompt s₁ e s₂ := by
  obtain ⟨s, s₁, hsent, hpc, hn, hidle, hwake⟩ := woken
  obtain ⟨-, e, s₂, hstep⟩ := evPipe_delivers hsent (by simp [hidle]) (.inr (.inr ⟨true, hpc⟩)) hn
    (List.mem_singleton_self ()) hwake (by simp)
  exact ⟨s, s₁, s₂, _, _, e, hsent, hpc, hwake, rfl, hstep⟩

end TargetSys.Timer.EvPipe
