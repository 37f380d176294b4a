import Mathlib.Logic.Function.Basic
import TargetSys.Common.Transition
import TargetSys.Dma.FreeList

/-!
# The spin gate of the free list

Reference: `src/bf_sal/linux_usr/bf_sys_dma_hugepages.c`, `bf_pop_free_buf`, `bf_push_free_buf`.

Here the two functions interleave access by access. A compare-and-swap on `pool_gate` is one step;
each test, each read and each write of `pool_buf_offset`, and each access to a slot is another.

The invariant speaks of what the rest of a section will do (`finish`): with somebody behind the
gate, the free list as it will be when the section is over is the abstract stack after all
acquisitions so far, and the result the section will return is the abstract one.

## Main results

* `spinGate_linearizable`: mutual exclusion, all indices in range, and complete runs return what the
  abstract stack returns for the calls in the order of their acquisitions.
-/

namespace TargetSys.Dma

open Lifo Transition

/-- The access a thread makes next. `off` is a value of `pool_buf_offset` it has read. -/
inductive GatePc
  | idle
  | spin (op : Op Addr)
  | popTest
  | popLoad
  | popStore (off : UInt32)
  | popRead (off : UInt32)
  | pushTestZero (v : Addr)
  | pushTestCnt (v : Addr)
  | pushLoad (v : Addr)
  | pushStore (v : Addr) (off : UInt32)
  | pushReload (v : Addr)
  | pushWrite (v : Addr) (off : UInt32)
  | release (op : Op Addr) (r : Result Addr)
  | ret (op : Op Addr) (r : Result Addr)
deriving DecidableEq

namespace GatePc

/-- Between taking the gate and giving it up. -/
@[simp] def InGate : GatePc → Prop
  | .idle | .spin _ | .ret .. => False
  | _ => True

/-- Between taking the gate and the compare-and-swap that opens it. -/
@[simp] def InBody : GatePc → Prop
  | .idle | .spin _ | .ret .. | .release .. => False
  | _ => True

/-- The call a thread behind the gate is in. -/
def op : GatePc → Op Addr
  | .pushTestZero v | .pushTestCnt v | .pushLoad v | .pushStore v _ | .pushReload v
  | .pushWrite v _ => .push v
  | .release op _ => op
  | _ => .pop

/-- The slot that the access uses. -/
def slotIndex : GatePc → Option UInt32
  | .popRead off => some off
  | .pushWrite _ off => some off
  | _ => none

/-- The first access behind the gate. -/
def enter : Op Addr → GatePc
  | .pop => .popTest
  | .push v => .pushTestZero v

end GatePc

/-- One access of `bf_pop_free_buf` or `bf_push_free_buf` behind the gate. -/
def access (fl : FreeList) : GatePc → GatePc × FreeList
  | .popTest =>
      (if fl.poolBufOffset ≥ fl.bufCnt.toUInt32 then .release .pop .empty else .popLoad, fl)
  | .popLoad => (.popStore fl.poolBufOffset, fl)
  | .popStore off => (.popRead off, { fl with poolBufOffset := off + 1 })
  | .popRead off => (.release .pop (.popped (fl.slot off)), fl)
  | .pushTestZero v =>
      (if fl.poolBufOffset = 0 then .release (.push v) .refused else .pushTestCnt v, fl)
  | .pushTestCnt v =>
      (if fl.poolBufOffset > fl.bufCnt.toUInt32 then .release (.push v) .refused else .pushLoad v,
        fl)
  | .pushLoad v => (.pushStore v fl.poolBufOffset, fl)
  | .pushStore v off => (.pushReload v, { fl with poolBufOffset := off - 1 })
  | .pushReload v => (.pushWrite v fl.poolBufOffset, fl)
  | .pushWrite v off =>
      (.release (.push v) .pushed, { fl with poolBufPtr := fl.poolBufPtr.set off.toNat v })
  | p => (p, fl)

/-- `__sync_val_compare_and_swap (&pool->pool_gate, old, new)`. -/
def casGate (fl : FreeList) (old new : Int32) : FreeList :=
  if fl.poolGate = old then { fl with poolGate := new } else fl

structure GateState (τ : Type*) where
  fl : FreeList
  pc : τ → GatePc

inductive GateEvent (τ : Type*)
  | call (t : τ) (op : Op Addr)
  | acquire (t : τ) (op : Op Addr)
  | ret (t : τ) (op : Op Addr) (r : Result Addr)
  | silent

section Semantics

variable {τ : Type*} [DecidableEq τ]

/-- Thread `t` goes on at `p`, with the free list `fl`. -/
def GateState.set (s : GateState τ) (t : τ) (fl : FreeList) (p : GatePc) : GateState τ :=
  ⟨fl, Function.update s.pc t p⟩

/-- One step of one thread. The loop at the gate ends when the compare-and-swap has not found 1. -/
inductive GateStep : GateState τ → GateEvent τ → GateState τ → Prop
  | call {s : GateState τ} {t : τ} (op : Op Addr) : s.pc t = .idle →
      GateStep s (.call t op) (s.set t s.fl (.spin op))
  | spin {s : GateState τ} {t : τ} {op : Op Addr} : s.pc t = .spin op → s.fl.poolGate = 1 →
      GateStep s .silent s
  | acquire {s : GateState τ} {t : τ} {op : Op Addr} : s.pc t = .spin op → s.fl.poolGate ≠ 1 →
      GateStep s (.acquire t op) (s.set t (casGate s.fl 0 1) (.enter op))
  | access {s : GateState τ} {t : τ} : (s.pc t).InBody →
      GateStep s .silent (s.set t (access s.fl (s.pc t)).2 (access s.fl (s.pc t)).1)
  | release {s : GateState τ} {t : τ} {op : Op Addr} {r : Result Addr} :
      s.pc t = .release op r →
      GateStep s .silent (s.set t (casGate s.fl 1 0) (.ret op r))
  | ret {s : GateState τ} {t : τ} {op : Op Addr} {r : Result Addr} : s.pc t = .ret op r →
      GateStep s (.ret t op r) (s.set t s.fl .idle)

end Semantics

/-- A pool whose buffers are all free, and no thread at work on it. -/
def gateInitial (τ : Type*) (cnt : Int32) (bufs : List Addr) : GateState τ :=
  ⟨⟨cnt, bufs, 0, 0⟩, fun _ => .idle⟩

/-- The calls in the order of their gate acquisitions. -/
def acquired {τ : Type*} (es : List (GateEvent τ)) : List (τ × Op Addr) :=
  es.filterMap fun
    | .acquire t op => some (t, op)
    | _ => none

/-- What the calls of thread `t` have returned. -/
def returned {τ : Type*} [DecidableEq τ] (t : τ) (es : List (GateEvent τ)) :
    List (Op Addr × Result Addr) :=
  es.filterMap fun
    | .ret u op r => if u = t then some (op, r) else none
    | _ => none

/-! ## What the rest of a section does -/

/-- The result and the free list at the end of the section. -/
def finish (fl : FreeList) : GatePc → Result Addr × FreeList
  | .popTest => (popResult (bfPopFreeBuf fl).1, (bfPopFreeBuf fl).2)
  | .popLoad =>
      (.popped (fl.slot fl.poolBufOffset), { fl with poolBufOffset := fl.poolBufOffset + 1 })
  | .popStore off => (.popped (fl.slot off), { fl with poolBufOffset := off + 1 })
  | .popRead off => (.popped (fl.slot off), fl)
  | .pushTestZero v => (pushResult (bfPushFreeBuf fl v).1, (bfPushFreeBuf fl v).2)
  | .pushTestCnt v =>
      if fl.poolBufOffset > fl.bufCnt.toUInt32 then (.refused, fl)
      else (.pushed, { fl with
        poolBufOffset := fl.poolBufOffset - 1
        poolBufPtr := fl.poolBufPtr.set (fl.poolBufOffset - 1).toNat v })
  | .pushLoad v =>
      (.pushed, { fl with
        poolBufOffset := fl.poolBufOffset - 1
        poolBufPtr := fl.poolBufPtr.set (fl.poolBufOffset - 1).toNat v })
  | .pushStore v off =>
      (.pushed, { fl with
        poolBufOffset := off - 1
        poolBufPtr := fl.poolBufPtr.set (off - 1).toNat v })
  | .pushReload v =>
      (.pushed, { fl with poolBufPtr := fl.poolBufPtr.set fl.poolBufOffset.toNat v })
  | .pushWrite v off => (.pushed, { fl with poolBufPtr := fl.poolBufPtr.set off.toNat v })
  | .release _ r => (r, fl)
  | _ => (.empty, fl)

/-- An access takes the section nearer to the end that it had in view. -/
theorem finish_access {p : GatePc} (fl : FreeList) (hp : p.InBody) :
    finish (access fl p).2 (access fl p).1 = finish fl p ∧ (access fl p).1.op = p.op ∧
      (access fl p).1.InGate := by
  cases p with
  | popTest =>
      by_cases h : fl.poolBufOffset ≥ fl.bufCnt.toUInt32 <;>
        simp [access, finish, bfPopFreeBuf, h, popResult, GatePc.op]
  | pushTestZero v =>
      by_cases h : fl.poolBufOffset = 0
      · simp [access, finish, bfPushFreeBuf, h, pushResult, GatePc.op]
      · by_cases h' : fl.poolBufOffset > fl.bufCnt.toUInt32 <;>
          simp [access, finish, bfPushFreeBuf, h, h', pushResult, GatePc.op]
  | pushTestCnt v =>
      by_cases h : fl.poolBufOffset > fl.bufCnt.toUInt32 <;> simp [access, finish, h, GatePc.op]
  | popLoad | popStore | popRead | pushLoad | pushStore | pushReload | pushWrite =>
      exact ⟨rfl, rfl, trivial⟩
  | idle | spin | release | ret => exact hp.elim

/-- What a thread has established of the offset at its next access. -/
def OffsetOk (fl : FreeList) : GatePc → Prop
  | .popLoad | .pushReload _ => fl.poolBufOffset.toNat < fl.bufCnt.toUInt32.toNat
  | .popStore off => off.toNat < fl.bufCnt.toUInt32.toNat
  | .popRead off | .pushWrite _ off => off.toNat < fl.bufCnt.toUInt32.toNat
  | .pushTestCnt _ | .pushLoad _ => fl.poolBufOffset ≠ 0
  | .pushStore _ off => off ≠ 0 ∧ off.toNat ≤ fl.bufCnt.toUInt32.toNat
  | _ => True

/-- An access keeps the free list valid and establishes what the next one needs. -/
theorem valid_access {p : GatePc} {fl : FreeList} (h : fl.Valid) (hp : OffsetOk fl p) :
    (access fl p).2.Valid ∧ OffsetOk (access fl p).2 (access fl p).1 := by
  cases p with
  | popTest =>
      refine ⟨h, ?_⟩
      by_cases hc : fl.poolBufOffset ≥ fl.bufCnt.toUInt32
      · simp [access, OffsetOk, hc]
      · rw [ge_iff_le, UInt32.le_iff_toNat_le] at hc
        simp only [access, ge_iff_le, UInt32.le_iff_toNat_le, if_neg hc, OffsetOk]
        omega
  | popLoad => exact ⟨h, hp⟩
  | popStore off =>
      have hsucc : (off + 1).toNat = off.toNat + 1 :=
        @toNat_succ_offset { fl with poolBufOffset := off } hp
      exact ⟨⟨h.length, by simpa only [access, hsucc] using Nat.succ_le_of_lt hp⟩, hp⟩
  | pushTestZero v =>
      refine ⟨h, ?_⟩
      by_cases hc : fl.poolBufOffset = 0 <;> simp [access, OffsetOk, hc]
  | pushTestCnt v =>
      refine ⟨h, ?_⟩
      simp only [access]
      split
      · trivial
      · exact hp
  | pushLoad v => exact ⟨h, hp, h.offset_le⟩
  | pushStore v off =>
      obtain ⟨h0, hle⟩ := hp
      have hpred : (off - 1).toNat = off.toNat - 1 :=
        @toNat_pred_offset { fl with poolBufOffset := off } h0
      have hpos : off.toNat ≠ 0 := by rwa [ne_eq, ← UInt32.toNat_inj] at h0
      refine ⟨⟨h.length, ?_⟩, ?_⟩ <;> simp only [access, OffsetOk, hpred] <;> omega
  | pushReload v => exact ⟨h, hp⟩
  | pushWrite v off =>
      exact ⟨⟨by simpa [access] using h.length, h.offset_le⟩, trivial⟩
  | popRead | idle | spin | release | ret => exact ⟨h, trivial⟩

/-! ## The invariant -/

section Invariant

variable {τ : Type*} [DecidableEq τ]

/-- What thread is owed by the calls it has under way: a result it has in hand, or will have at the
end of its section. -/
def inFlight (fl : FreeList) : GatePc → List (Op Addr × Result Addr)
  | .idle | .spin _ => []
  | .ret op r => [(op, r)]
  | p => [(p.op, (finish fl p).1)]

/-- In the gate, the operation that is not over has the result which `finish` gives it. -/
theorem inFlight_inGate {fl : FreeList} {p : GatePc} (h : p.InGate) :
    inFlight fl p = [(p.op, (finish fl p).1)] := by
  cases p <;> first | rfl | exact h.elim

/-- Outside the gate the free list does not matter. -/
theorem inFlight_outside {fl fl' : FreeList} {p : GatePc} (h : ¬ p.InGate) :
    inFlight fl p = inFlight fl' p := by
  cases p <;> first | rfl | exact absurd trivial h

/-- The state of the gate and of the abstract stack `st` that began with the free buffers, after the
labels `es`. -/
structure GateInv (st : Stack Addr) (es : List (GateEvent τ)) (s : GateState τ) : Prop where
  valid : s.fl.Valid
  gate : s.fl.poolGate = 1 ∧ (∃ t, (s.pc t).InGate) ∨ s.fl.poolGate = 0 ∧ ∀ t, ¬ (s.pc t).InGate
  alone : ∀ t u, (s.pc t).InGate → (s.pc u).InGate → t = u
  offset : ∀ t, OffsetOk s.fl (s.pc t)
  behind : ∀ t, (s.pc t).InGate → (finish s.fl (s.pc t)).2.toStack = (st.run (acquired es)).2
  opened : (∀ t, ¬ (s.pc t).InGate) → s.fl.toStack = (st.run (acquired es)).2
  seen : ∀ t, returned t es ++ inFlight s.fl (s.pc t) = seenBy t (st.run (acquired es)).1

/-- Before the first access the gate is open, and all buffers are on the stack. -/
theorem gateInv_initial {cnt : Int32} {bufs : List Addr}
    (h : bufs.length = cnt.toUInt32.toNat) :
    GateInv ⟨bufs, 0⟩ [] (gateInitial τ cnt bufs) := by
  refine ⟨⟨h, Nat.zero_le _⟩, .inr ⟨rfl, fun _ => not_false⟩, fun _ _ h => h.elim, fun _ => trivial,
    fun _ h => h.elim, fun _ => rfl, fun _ => rfl⟩

variable {st : Stack Addr} {es : List (GateEvent τ)} {s s' : GateState τ} {t : τ}

/-- The thread that moves is where it has moved to. -/
@[simp] theorem GateState.set_pc_self (s : GateState τ) (t : τ) (fl : FreeList) (p : GatePc) :
    (s.set t fl p).pc t = p := Function.update_self ..

/-- The other threads stay where they are. -/
theorem GateState.set_pc_ne {u : τ} (h : u ≠ t) (fl : FreeList) (p : GatePc) :
    (s.set t fl p).pc u = s.pc u := Function.update_of_ne h ..

/-- A thread moves outside the gate. -/
theorem GateInv.outside (h : GateInv st es s) {es' : List (GateEvent τ)} {p : GatePc}
    (ht : ¬ (s.pc t).InGate) (hp : ¬ p.InGate) (hok : OffsetOk s.fl p)
    (hacq : acquired es' = acquired es)
    (hret : ∀ u, u ≠ t → returned u es' = returned u es)
    (hseen : returned t es' ++ inFlight s.fl p = returned t es ++ inFlight s.fl (s.pc t)) :
    GateInv st es' (s.set t s.fl p) := by
  have hin : ∀ {u}, ((s.set t s.fl p).pc u).InGate → u ≠ t ∧ (s.pc u).InGate := by
    intro u hu
    by_cases hut : u = t
    · subst hut
      rw [GateState.set_pc_self] at hu
      exact absurd hu hp
    · exact ⟨hut, by rwa [GateState.set_pc_ne hut] at hu⟩
  have hin' : ∀ {u}, (s.pc u).InGate → ((s.set t s.fl p).pc u).InGate := by
    intro u hu
    have hut : u ≠ t := fun hut => ht (hut ▸ hu)
    rwa [GateState.set_pc_ne hut]
  refine ⟨h.valid, ?_, fun u v hu hv => h.alone u v (hin hu).2 (hin hv).2, fun u => ?_,
    fun u hu => ?_, fun hnone => ?_, fun u => ?_⟩
  · refine h.gate.imp (fun hg => ⟨hg.1, hg.2.imp fun _ => hin'⟩)
      fun hg => ⟨hg.1, fun u hu => hg.2 u (hin hu).2⟩
  · by_cases hut : u = t
    · subst hut
      rwa [GateState.set_pc_self]
    · rw [GateState.set_pc_ne hut]
      exact h.offset u
  · rw [GateState.set_pc_ne (hin hu).1, hacq]
    exact h.behind u (hin hu).2
  · rw [hacq]
    exact h.opened fun u hu => hnone u (hin' hu)
  · rw [hacq]
    by_cases hut : u = t
    · subst hut
      rw [GateState.set_pc_self, ← h.seen u]
      exact hseen
    · rw [GateState.set_pc_ne hut, hret u hut]
      exact h.seen u

/-- Outside the gate a thread promises nothing. -/
theorem offsetOk_outside {fl : FreeList} {p : GatePc} (h : ¬ p.InGate) : OffsetOk fl p := by
  cases p <;> first | trivial | exact absurd trivial h

/-- A thread takes the gate, makes an access behind it or opens it, and nobody else is behind it. -/
theorem GateInv.inside (h : GateInv st es s) {es' : List (GateEvent τ)} {fl : FreeList} {p : GatePc}
    (hothers : ∀ u, u ≠ t → ¬ (s.pc u).InGate) (hvalid : fl.Valid) (hok : OffsetOk fl p)
    (hgate : fl.poolGate = 1 ∧ p.InGate ∨ fl.poolGate = 0 ∧ ¬ p.InGate)
    (hbehind : p.InGate → (finish fl p).2.toStack = (st.run (acquired es')).2)
    (hopened : ¬ p.InGate → fl.toStack = (st.run (acquired es')).2)
    (hret : ∀ u, returned u es' = returned u es)
    (hseen : returned t es ++ inFlight fl p = seenBy t (st.run (acquired es')).1)
    (hsame : ∀ u, u ≠ t →
      seenBy u (st.run (acquired es')).1 = seenBy u (st.run (acquired es)).1) :
    GateInv st es' (s.set t fl p) := by
  have hin : ∀ {u}, ((s.set t fl p).pc u).InGate → u = t := by
    intro u hu
    by_contra hut
    rw [GateState.set_pc_ne hut] at hu
    exact hothers u hut hu
  refine ⟨hvalid, ?_, fun u v hu hv => (hin hu).trans (hin hv).symm, fun u => ?_, fun u hu => ?_,
    fun hnone => ?_, fun u => ?_⟩
  · refine hgate.imp (fun hg => ⟨hg.1, t, by rw [GateState.set_pc_self]; exact hg.2⟩)
      fun hg => ⟨hg.1, fun u hu => ?_⟩
    obtain rfl := hin hu
    rw [GateState.set_pc_self] at hu
    exact hg.2 hu
  · by_cases hut : u = t
    · subst hut
      rwa [GateState.set_pc_self]
    · rw [GateState.set_pc_ne hut]
      exact offsetOk_outside (hothers u hut)
  · obtain rfl := hin hu
    rw [GateState.set_pc_self] at hu ⊢
    exact hbehind hu
  · refine hopened fun hp => hnone t ?_
    rwa [GateState.set_pc_self]
  · rw [hret u]
    by_cases hut : u = t
    · subst hut
      rw [GateState.set_pc_self]
      exact hseen
    · rw [GateState.set_pc_ne hut, hsame u hut, ← h.seen u]
      exact congrArg _ (inFlight_outside (hothers u hut))

/-- The abstract operation of a call is what its section will do. -/
theorem finish_enter {fl : FreeList} (h : fl.Valid) (op : Op Addr) :
    fl.toStack.exec op = ((finish fl (.enter op)).1, (finish fl (.enter op)).2.toStack) := by
  cases op with
  | pop => exact (bfPopFreeBuf_refines h).1
  | push v => exact (bfPushFreeBuf_refines h v).1

/-- Behind the gate an operation starts with its own first access. -/
theorem GatePc.enter_spec (op : Op Addr) :
    (GatePc.enter op).InGate ∧ (GatePc.enter op).op = op := by
  cases op <;> exact ⟨trivial, rfl⟩

/-- The gate word is no part of the stack. -/
theorem toStack_casGate (fl : FreeList) (old new : Int32) :
    (casGate fl old new).toStack = fl.toStack := by
  rw [casGate]
  split <;> rfl

/-- The gate word is no part of what makes the free list valid. -/
theorem valid_casGate {fl : FreeList} (h : fl.Valid) (old new : Int32) :
    (casGate fl old new).Valid := by
  rw [casGate]
  split
  · exact ⟨h.length, h.offset_le⟩
  · exact h

/-- One step. -/
theorem gateInv_step {e : GateEvent τ} (h : GateInv st es s) (hs : GateStep s e s') :
    GateInv st (es ++ [e]) s' := by
  have hothers : ∀ {t}, (s.pc t).InGate → ∀ u, u ≠ t → ¬ (s.pc u).InGate :=
    fun ht u hut hu => hut (h.alone u _ hu ht)
  have hclosed : ∀ {t}, (s.pc t).InGate → s.fl.poolGate = 1 := fun {t} ht =>
    (h.gate.resolve_right fun hg => hg.2 t ht).1
  cases hs with
  | @call t op ht =>
      refine h.outside (by simp [ht]) (by simp) trivial (by simp [acquired])
        (fun u _ => by simp [returned]) ?_
      simp [returned, ht, inFlight]
  | @spin t op ht hg =>
      rw [show s = s.set t s.fl (s.pc t) from by simp [GateState.set]]
      exact h.outside (by simp [ht]) (by simp [ht]) (h.offset t) (by simp [acquired])
        (fun u _ => by simp [returned]) (by simp [returned])
  | @acquire t op ht hg =>
      obtain ⟨hzero, hnone⟩ := h.gate.resolve_left fun hg' => hg hg'.1
      obtain ⟨hin, hop⟩ := GatePc.enter_spec op
      -- the abstract operation, on the stack that the opened gate shows
      have hfin := finish_enter (valid_casGate h.valid 0 1) op
      rw [toStack_casGate, h.opened hnone] at hfin
      have hacq : acquired (es ++ [.acquire t op]) = acquired es ++ [(t, op)] := by
        simp [acquired]
      have hrun := Stack.run_snoc st (acquired es) t op
      rw [hfin] at hrun
      refine h.inside (fun u _ => hnone u) (valid_casGate h.valid 0 1) ?_
        (.inl ⟨by rw [casGate, if_pos hzero], hin⟩) (fun _ => ?_) (fun hout => absurd hin hout)
        (fun u => by simp [returned]) ?_ fun u hut => ?_
      · cases op <;> trivial
      · rw [hacq, hrun]
      · have hseen := h.seen t
        rw [ht] at hseen
        rw [hacq, hrun, seenBy_append, seenBy_singleton_self, ← hseen, inFlight_inGate hin, hop]
        simp [inFlight]
      · rw [hacq, hrun, seenBy_append, seenBy_singleton_ne (Ne.symm hut), List.append_nil]
  | @access t ht =>
      have hin : (s.pc t).InGate := by cases hpc : s.pc t <;> simp_all
      obtain ⟨hfin, hop, hin'⟩ := finish_access s.fl ht
      obtain ⟨hvalid, hok⟩ := valid_access h.valid (h.offset t)
      have hacq : acquired (es ++ [.silent]) = acquired es := by simp [acquired]
      refine h.inside (hothers hin) hvalid hok (.inl ⟨?_, hin'⟩) (fun _ => ?_)
        (fun hout => absurd hin' hout) (fun u => by simp [returned]) ?_ fun u _ => by rw [hacq]
      · rw [← hclosed hin]
        cases hpc : s.pc t <;> rfl
      · rw [hfin, hacq]
        exact h.behind t hin
      · rw [hacq, inFlight_inGate hin', hop, hfin, ← inFlight_inGate hin]
        exact h.seen t
  | @release t op r ht =>
      have hin : (s.pc t).InGate := by simp [ht]
      have hacq : acquired (es ++ [.silent]) = acquired es := by simp [acquired]
      have hbehind := h.behind t hin
      rw [ht] at hbehind
      refine h.inside (hothers hin) (valid_casGate h.valid 1 0) trivial
        (.inr ⟨by rw [casGate, if_pos (hclosed hin)], by simp⟩) (fun hin' => hin'.elim) (fun _ => ?_)
        (fun u => by simp [returned]) ?_ fun u _ => by rw [hacq]
      · rw [toStack_casGate, hacq]
        exact hbehind
      · rw [hacq, ← h.seen t, ht]
        rfl
  | @ret t op r ht =>
      refine h.outside (by simp [ht]) (by simp) trivial (by simp [acquired])
        (fun u hu => by simp [returned, Ne.symm hu]) ?_
      simp [returned, ht, inFlight]

/-- No access writes the number of slots. -/
theorem bufCnt_step {e : GateEvent τ} (hs : GateStep s e s') : s'.fl.bufCnt = s.fl.bufCnt := by
  cases hs with
  | call | spin | ret => rfl
  | acquire | release =>
      simp only [GateState.set, casGate]
      split <;> rfl
  | @access t ht => cases hpc : s.pc t <;> rfl

/-- The slot a thread is about to use is in the table. -/
theorem slotIndex_lt {fl : FreeList} {p : GatePc} {i : UInt32} (h : OffsetOk fl p)
    (hi : p.slotIndex = some i) : i.toNat < fl.bufCnt.toUInt32.toNat := by
  cases p with
  | popRead off | pushWrite v off =>
      cases hi
      exact h
  | _ => cases hi

/-- **The spin gate makes the free list a stack.** In every run on a pool whose `cnt` buffers are
free at the start, with pushes of arbitrary pointers: at most one thread is behind the gate, and the
gate is 1 exactly then; `pool_buf_offset` stays within `0 .. buf_cnt` and every slot used is below
`buf_cnt`; and when nobody is in a call any more, each thread has received the results, and the live
slots are the items, of the abstract stack after the same calls one by one, in the order of their
gate acquisitions. -/
theorem spinGate_linearizable (cnt : Int32) (bufs : List Addr)
    (hcnt : bufs.length = cnt.toUInt32.toNat) (es : List (GateEvent τ)) (s : GateState τ)
    (hrun : Run GateStep (gateInitial τ cnt bufs) es s) :
    ((∀ t u, (s.pc t).InGate → (s.pc u).InGate → t = u) ∧
      (s.fl.poolGate = 1 ↔ ∃ t, (s.pc t).InGate)) ∧
    s.fl.poolBufOffset.toNat ≤ bufs.length ∧
    (∀ t i, (s.pc t).slotIndex = some i → i.toNat < bufs.length) ∧
    ((∀ t, s.pc t = .idle) →
      (∀ t, returned t es = seenBy t ((⟨bufs, 0⟩ : Stack Addr).run (acquired es)).1) ∧
      s.fl.poolBufPtr.drop s.fl.poolBufOffset.toNat =
        ((⟨bufs, 0⟩ : Stack Addr).run (acquired es)).2.items) := by
  have h : GateInv ⟨bufs, 0⟩ es s := hrun.invariant_trace
    (fun _ _ _ _ hi hs => gateInv_step hi hs) (gateInv_initial hcnt)
  have hlen : s.fl.bufCnt.toUInt32.toNat = bufs.length := by
    rw [hrun.invariant (I := fun s => s.fl.bufCnt = cnt)
      (fun _ _ _ hi hs => (bufCnt_step hs).trans hi) rfl, hcnt]
  refine ⟨⟨h.alone, fun hg => ?_, fun ht => ?_⟩, hlen ▸ h.valid.offset_le,
    fun t i hi => hlen ▸ slotIndex_lt (h.offset t) hi, fun hidle => ⟨fun t => ?_, ?_⟩⟩
  · refine (h.gate.resolve_right fun hg' => ?_).2
    rw [hg'.1] at hg
    exact absurd hg (by decide)
  · obtain ⟨t, ht⟩ := ht
    exact (h.gate.resolve_right fun hg => hg.2 t ht).1
  · rw [← h.seen t, hidle t]
    exact (List.append_nil _).symm
  · exact congrArg Stack.items (h.opened fun t => by simp [hidle t])

/-- Two threads, of which one spins while the other pops the only buffer. -/
theorem spinGate_linearizable_two : ∃ es s,
    Run GateStep (gateInitial (Fin 2) 1 [4096]) es s ∧ (∀ t, s.pc t = .idle) ∧
      returned 0 es = [(.pop, .popped 4096)] ∧ returned 1 es = [(.pop, .empty)] := by
  have hrun : Run GateStep (gateInitial (Fin 2) 1 [4096]) _ _ :=
    .cons (.call (t := 0) .pop rfl) <| .cons (.call (t := 1) .pop rfl) <|
    .cons (.acquire (t := 0) rfl (by decide)) <| .cons (.spin (t := 1) rfl rfl) <|
    .cons (.access (t := 0) trivial) <| .cons (.access (t := 0) trivial) <|
    .cons (.access (t := 0) trivial) <| .cons (.access (t := 0) trivial) <|
    .cons (.release (t := 0) rfl) <| .cons (.acquire (t := 1) rfl (by decide)) <|
    .cons (.access (t := 1) trivial) <| .cons (.release (t := 1) rfl) <|
    .cons (.ret (t := 1) rfl) <| .single (.ret (t := 0) rfl)
  obtain ⟨hseen, -⟩ := (spinGate_linearizable 1 [4096] rfl _ _ hrun).2.2.2
    fun | 0 => rfl | 1 => rfl
  exact ⟨_, _, hrun, fun | 0 => rfl | 1 => rfl, (hseen 0).trans rfl, (hseen 1).trans rfl⟩

end Invariant

end TargetSys.Dma
