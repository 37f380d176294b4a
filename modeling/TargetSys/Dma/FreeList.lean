import Mathlib.Data.List.Basic
import Mathlib.Data.UInt
import Mathlib.Tactic.Common
import TargetSys.Common.Lifo

/-!
# The free list of a DMA pool

Reference: `src/bf_sal/linux_usr/bf_sys_dma_hugepages.c`, `bf_pop_free_buf` and `bf_push_free_buf`.

`pool_buf_ptr` is a table of `buf_cnt` slots and `pool_buf_offset` the number of the first slot that
is still free; the slots below it hold stale pointers. Here the two functions run undisturbed. How
they interleave is the business of `Dma.SpinGate`.

## Main results

* `bfPopFreeBuf_refines`, `bfPushFreeBuf_refines`: the two functions are `pop` and `push` of the
  stack whose items are the slots from `pool_buf_offset` up.
-/

namespace TargetSys.Dma

open Lifo

/-- A pointer, on a platform with 64-bit addresses. -/
abbrev Addr := UInt64

/-- The members of `bf_huge_pool_t` that make up the free list. -/
structure FreeList where
  bufCnt : Int32
  poolBufPtr : List Addr
  poolBufOffset : UInt32
  poolGate : Int32
deriving DecidableEq, Repr

namespace FreeList

/-- The slot `i`. Behind the table there is nothing to read; `Valid` excludes it. -/
def slot (fl : FreeList) (i : UInt32) : Addr := fl.poolBufPtr.getD i.toNat 0

/-- The table has `buf_cnt` slots, and the offset is within. -/
structure Valid (fl : FreeList) : Prop where
  length : fl.poolBufPtr.length = fl.bufCnt.toUInt32.toNat
  offset_le : fl.poolBufOffset.toNat ≤ fl.bufCnt.toUInt32.toNat

/-- The stack that a free list stands for. -/
def toStack (fl : FreeList) : Stack Addr :=
  ⟨fl.poolBufPtr.drop fl.poolBufOffset.toNat, fl.poolBufOffset.toNat⟩

end FreeList

/-- `bf_pop_free_buf` between its gate operations. `none` is the error return. -/
def bfPopFreeBuf (pool : FreeList) : Option Addr × FreeList :=
  if pool.poolBufOffset ≥ pool.bufCnt.toUInt32 then (none, pool)
  else (some (pool.slot pool.poolBufOffset),
    { pool with poolBufOffset := pool.poolBufOffset + 1 })

/-- `bf_push_free_buf` between its gate operations. `false` is the error return. -/
def bfPushFreeBuf (pool : FreeList) (bufPtr : Addr) : Bool × FreeList :=
  if pool.poolBufOffset = 0 ∨ pool.poolBufOffset > pool.bufCnt.toUInt32 then (false, pool)
  else
    let pool := { pool with poolBufOffset := pool.poolBufOffset - 1 }
    (true, { pool with poolBufPtr := pool.poolBufPtr.set pool.poolBufOffset.toNat bufPtr })

/-! ## The two functions as operations of a stack -/

section Refinement

variable {fl : FreeList}

/-- The offset of a pop does not wrap. -/
theorem toNat_succ_offset (h : fl.poolBufOffset.toNat < fl.bufCnt.toUInt32.toNat) :
    (fl.poolBufOffset + 1).toNat = fl.poolBufOffset.toNat + 1 := by
  have hlt := fl.bufCnt.toUInt32.toNat_lt
  rw [UInt32.toNat_add, UInt32.toNat_one]
  omega

/-- The offset of a push does not wrap. -/
theorem toNat_pred_offset (h : fl.poolBufOffset ≠ 0) :
    (fl.poolBufOffset - 1).toNat = fl.poolBufOffset.toNat - 1 := by
  have hpos : 1 ≤ fl.poolBufOffset := by
    rw [UInt32.le_iff_toNat_le, UInt32.toNat_one]
    rw [Ne, ← UInt32.toNat_inj] at h
    exact Nat.one_le_iff_ne_zero.mpr h
  rw [UInt32.toNat_sub_of_le _ _ hpos, UInt32.toNat_one]

/-- A pop in two cases. -/
theorem bfPopFreeBuf_empty (h : fl.bufCnt.toUInt32.toNat ≤ fl.poolBufOffset.toNat) :
    bfPopFreeBuf fl = (none, fl) := by
  rw [bfPopFreeBuf, if_pos (by rwa [ge_iff_le, UInt32.le_iff_toNat_le])]

/-- With a free buffer left, a pop takes the one at the offset. -/
theorem bfPopFreeBuf_some (h : fl.poolBufOffset.toNat < fl.bufCnt.toUInt32.toNat) :
    bfPopFreeBuf fl = (some (fl.slot fl.poolBufOffset),
      { fl with poolBufOffset := fl.poolBufOffset + 1 }) := by
  rw [bfPopFreeBuf, if_neg]
  rw [ge_iff_le, UInt32.le_iff_toNat_le]
  omega

/-- A push in two cases. -/
theorem bfPushFreeBuf_refused (v : Addr) (h : fl.poolBufOffset = 0) :
    bfPushFreeBuf fl v = (false, fl) := by
  rw [bfPushFreeBuf, if_pos (.inl h)]

/-- With a buffer outstanding, a push puts `v` into the slot before the offset. -/
theorem bfPushFreeBuf_accepted (v : Addr) (h : fl.poolBufOffset ≠ 0)
    (hle : fl.poolBufOffset.toNat ≤ fl.bufCnt.toUInt32.toNat) :
    bfPushFreeBuf fl v = (true, { fl with
      poolBufOffset := fl.poolBufOffset - 1
      poolBufPtr := fl.poolBufPtr.set (fl.poolBufOffset - 1).toNat v }) := by
  rw [bfPushFreeBuf, if_neg]
  rw [not_or, gt_iff_lt, UInt32.lt_iff_toNat_lt, Nat.not_lt]
  exact ⟨h, hle⟩

/-- The error code and the pointer of a pop, as the result of a stack operation. -/
def popResult : Option Addr → Result Addr
  | none => .empty
  | some v => .popped v

/-- The error code of a push, as the result of a stack operation. -/
def pushResult : Bool → Result Addr
  | false => .refused
  | true => .pushed

/-- The live slots of a list that is not exhausted. -/
theorem FreeList.Valid.drop_eq (h : fl.Valid)
    (hlt : fl.poolBufOffset.toNat < fl.bufCnt.toUInt32.toNat) :
    fl.poolBufPtr.drop fl.poolBufOffset.toNat =
      fl.slot fl.poolBufOffset :: fl.poolBufPtr.drop (fl.poolBufOffset.toNat + 1) := by
  have hlt' : fl.poolBufOffset.toNat < fl.poolBufPtr.length := by rwa [h.length]
  rw [List.drop_eq_getElem_cons hlt', FreeList.slot, List.getD_eq_getElem?_getD,
    List.getElem?_eq_getElem hlt', Option.getD_some]

/-- `bf_pop_free_buf` is `pop`. -/
theorem bfPopFreeBuf_refines (h : fl.Valid) :
    fl.toStack.exec .pop = (popResult (bfPopFreeBuf fl).1, (bfPopFreeBuf fl).2.toStack) ∧
      (bfPopFreeBuf fl).2.Valid := by
  rcases Nat.lt_or_ge fl.poolBufOffset.toNat fl.bufCnt.toUInt32.toNat with hlt | hge
  · rw [bfPopFreeBuf_some hlt]
    have hsucc := toNat_succ_offset hlt
    refine ⟨?_, h.length, by simpa only [hsucc] using Nat.succ_le_of_lt hlt⟩
    simp only [FreeList.toStack, h.drop_eq hlt, Stack.exec, hsucc, popResult]
  · rw [bfPopFreeBuf_empty hge]
    have hnil : fl.poolBufPtr.drop fl.poolBufOffset.toNat = [] :=
      List.drop_eq_nil_of_le (by rwa [h.length])
    exact ⟨by simp only [FreeList.toStack, hnil, Stack.exec, popResult], h⟩

/-- `bf_push_free_buf` is `push`. -/
theorem bfPushFreeBuf_refines (h : fl.Valid) (v : Addr) :
    fl.toStack.exec (.push v) =
        (pushResult (bfPushFreeBuf fl v).1, (bfPushFreeBuf fl v).2.toStack) ∧
      (bfPushFreeBuf fl v).2.Valid := by
  by_cases h0 : fl.poolBufOffset = 0
  · rw [bfPushFreeBuf_refused v h0]
    have hz : fl.poolBufOffset.toNat = 0 := by rw [h0]; rfl
    exact ⟨by simp only [FreeList.toStack, hz, Stack.exec, pushResult], h⟩
  · rw [bfPushFreeBuf_accepted v h0 h.offset_le]
    have hpred := toNat_pred_offset h0
    have hpos : fl.poolBufOffset.toNat ≠ 0 := by
      rwa [← UInt32.toNat_inj] at h0
    obtain ⟨n, hn⟩ := Nat.exists_eq_succ_of_ne_zero hpos
    have hle := h.offset_le
    have hlen : n < fl.poolBufPtr.length := by
      rw [h.length]
      omega
    rw [hn, Nat.succ_eq_add_one, Nat.add_sub_cancel] at hpred
    refine ⟨?_, by simpa using h.length, ?_⟩
    · simp only [FreeList.toStack, hn, hpred, Nat.succ_eq_add_one, Stack.exec, pushResult,
        Prod.mk.injEq, Stack.mk.injEq, true_and, and_true]
      have hlen' : n < (fl.poolBufPtr.set n v).length := by rwa [List.length_set]
      rw [List.drop_eq_getElem_cons hlen', List.getElem_set_self,
        List.drop_set_of_lt (Nat.lt_succ_self n)]
    · simp only [hpred]
      omega

end Refinement

end TargetSys.Dma
