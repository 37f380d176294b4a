import Mathlib.Data.List.Nodup
import TargetSys.Common.Transition
import TargetSys.Dma.Layout

/-!
# The clients of a DMA pool

Reference: `src/bf_sal/linux_usr/bf_sys_dma_hugepages.c`, `bf_sys_dma_alloc` and `bf_sys_dma_free`.

Any number of clients allocate and free buffers of one pool, and write to the buffers they hold.
Each call is one step; that the gate makes them so is `spinGate_linearizable`. A client frees only
what it holds and asks for no more than a buffer.

`InPlace` holds in every run: the tables are as created, and every slot and every held address is a
buffer. `Custody` needs valid page translations in addition: each buffer is either on the free list
or with one client.

## Main results

* `InPlace.of_run`, `Custody.of_run`: the two invariants over whole runs.
* `bfSysDma_no_lost_buffer`: no buffer is lost or handed out twice.
-/

namespace TargetSys.Dma

open Lifo Transition ByteMemory Align

/-- The buffers of a pool in order. -/
def BfHugePool.buffers (pool : BfHugePool) : List Addr := (List.range pool.count).map pool.bufAddr

/-- Buffer `i` of the list is the one at `bufAddr i`. -/
theorem getElem?_buffers {pool : BfHugePool} {i : ℕ} {v : Addr} :
    pool.buffers[i]? = some v ↔ i < pool.count ∧ v = pool.bufAddr i := by
  rw [BfHugePool.buffers, List.getElem?_map, Option.map_eq_some_iff]
  constructor
  · rintro ⟨k, hk, rfl⟩
    obtain ⟨hlt, rfl⟩ := List.getElem?_eq_some_iff.mp hk
    rw [List.length_range] at hlt
    rw [List.getElem_range]
    exact ⟨hlt, rfl⟩
  · rintro ⟨hlt, rfl⟩
    exact ⟨i, List.getElem?_range hlt, rfl⟩

/-! ## The system -/

/-- A pool with the clients at work on it. `held` has an entry for each buffer that a successful
allocation has handed to a client and that the client has not freed since. -/
structure ClientState (κ : Type*) where
  pool : BfHugePool
  world : World
  held : List (κ × Addr)

inductive ClientEvent (κ : Type*)
  | alloc (c : κ) (size : UInt64) (result : AllocResult)
  | free (c : κ) (vAddr : Addr) (accepted : Bool)
  | write (c : κ) (a : Addr) (b : UInt8)

section Semantics

variable {κ : Type*}

/-- What is held after an allocation by `c`. -/
def receive (c : κ) (held : List (κ × Addr)) : AllocResult → List (κ × Addr)
  | .ok vAddr _ => (c, vAddr) :: held
  | .failed .. | .outOfTable => held

/-- The memory with one byte written. -/
def World.write (w : World) (a : Addr) (b : UInt8) : World :=
  { w with mem := Function.update w.mem a b }

/-- One step of one client. -/
inductive ClientStep [DecidableEq κ] : ClientState κ → ClientEvent κ → ClientState κ → Prop
  | alloc {s : ClientState κ} (c : κ) (size : UInt64) : size ≤ s.pool.bufSize →
      ClientStep s (.alloc c size (bfSysDmaAlloc s.pool size).1)
        ⟨(bfSysDmaAlloc s.pool size).2, s.world, receive c s.held (bfSysDmaAlloc s.pool size).1⟩
  | free {s : ClientState κ} {c : κ} {vAddr : Addr} : (c, vAddr) ∈ s.held →
      ClientStep s (.free c vAddr (bfSysDmaFree s.pool vAddr).1)
        ⟨(bfSysDmaFree s.pool vAddr).2, s.world, s.held.erase (c, vAddr)⟩
  | write {s : ClientState κ} {c : κ} {vAddr : Addr} (off : UInt64) (b : UInt8) :
      (c, vAddr) ∈ s.held → off < s.pool.bufSize →
      ClientStep s (.write c (vAddr + off) b) ⟨s.pool, s.world.write (vAddr + off) b, s.held⟩

end Semantics

/-- A pool that nobody uses yet. -/
def clientsInitial (κ : Type*) (pool : BfHugePool) (w : World) : ClientState κ := ⟨pool, w, []⟩

/-! ## What the two calls do -/

section Calls

variable {pool : BfHugePool} {size : UInt64} {v : Addr} {phys : UInt64}

/-- An allocation changes the free list only. -/
theorem bfSysDmaAlloc_snd :
    (bfSysDmaAlloc pool size).2 =
      { pool with toFreeList := (bfPopFreeBuf pool.toFreeList).2 } := by
  rw [bfSysDmaAlloc]
  rcases bfPopFreeBuf pool.toFreeList with ⟨_ | v, fl⟩
  · rfl
  · dsimp only
    split <;> rfl

/-- With nothing on the free list, an allocation fails and writes both addresses as zero. -/
theorem bfSysDmaAlloc_of_empty (h : (bfPopFreeBuf pool.toFreeList).1 = none) :
    (bfSysDmaAlloc pool size).1 = .failed 0 0 := by
  rw [bfSysDmaAlloc]
  rcases hpop : bfPopFreeBuf pool.toFreeList with ⟨o, fl⟩
  rw [hpop] at h
  obtain rfl : o = none := h
  rfl

/-- An allocation that finds a buffer returns it with the address computed from the tables. -/
theorem bfSysDmaAlloc_of_pop (h : (bfPopFreeBuf pool.toFreeList).1 = some v) :
    (bfSysDmaAlloc pool size).1 =
      match bfSysDmaGetPhyAddrFromPool pool v with
      | none => .outOfTable
      | some phys => if phys = bfInvalidPhyAddr then .failed v phys else .ok v phys := by
  rw [bfSysDmaAlloc]
  rcases hpop : bfPopFreeBuf pool.toFreeList with ⟨o, fl⟩
  rw [hpop] at h
  obtain rfl : o = some v := h
  have htable : bfSysDmaGetPhyAddrFromPool { pool with toFreeList := fl } v =
      bfSysDmaGetPhyAddrFromPool pool v := rfl
  dsimp only
  rw [htable]
  cases bfSysDmaGetPhyAddrFromPool pool v with
  | none => rfl
  | some phys => rfl

/-- Only a popped buffer is returned with 0. -/
theorem bfSysDmaAlloc_ok (h : (bfSysDmaAlloc pool size).1 = .ok v phys) :
    (bfPopFreeBuf pool.toFreeList).1 = some v ∧
      bfSysDmaGetPhyAddrFromPool pool v = some phys ∧ phys ≠ bfInvalidPhyAddr := by
  cases hpop : (bfPopFreeBuf pool.toFreeList).1 with
  | none =>
      rw [bfSysDmaAlloc_of_empty hpop] at h
      cases h
  | some u =>
      rw [bfSysDmaAlloc_of_pop hpop] at h
      cases hphys : bfSysDmaGetPhyAddrFromPool pool u with
      | none =>
          rw [hphys] at h
          cases h
      | some p =>
          rw [hphys] at h
          dsimp only at h
          split_ifs at h with hp
          cases h
          exact ⟨rfl, hphys, hp⟩

/-- A free changes the free list only. -/
theorem bfSysDmaFree_snd :
    (bfSysDmaFree pool v).2 =
      { pool with toFreeList := (bfPushFreeBuf pool.toFreeList v).2 } := rfl

/-- A free is accepted exactly if the free list takes the buffer. -/
theorem bfSysDmaFree_fst :
    (bfSysDmaFree pool v).1 = (bfPushFreeBuf pool.toFreeList v).1 := rfl

end Calls

section FreeListFacts

variable {fl : FreeList} {u v : Addr}

/-- A pop moves the offset and nothing else. -/
theorem bfPopFreeBuf_frame (fl : FreeList) :
    (bfPopFreeBuf fl).2.bufCnt = fl.bufCnt ∧ (bfPopFreeBuf fl).2.poolBufPtr = fl.poolBufPtr := by
  rw [bfPopFreeBuf]
  split <;> exact ⟨rfl, rfl⟩

/-- A push keeps the number of slots. -/
theorem bfPushFreeBuf_bufCnt (fl : FreeList) (v : Addr) :
    (bfPushFreeBuf fl v).2.bufCnt = fl.bufCnt := by
  rw [bfPushFreeBuf]
  split <;> rfl

/-- A push writes nothing but the pointer it was given. -/
theorem mem_bfPushFreeBuf (h : u ∈ (bfPushFreeBuf fl v).2.poolBufPtr) :
    u ∈ fl.poolBufPtr ∨ u = v := by
  rw [bfPushFreeBuf] at h
  split at h
  · exact .inl h
  · exact List.mem_or_eq_of_mem_set h

/-- A pop returns what some slot holds. -/
theorem mem_of_bfPopFreeBuf (hvalid : fl.Valid) (h : (bfPopFreeBuf fl).1 = some v) :
    v ∈ fl.poolBufPtr := by
  rcases Nat.lt_or_ge fl.poolBufOffset.toNat fl.bufCnt.toUInt32.toNat with hlt | hge
  · rw [bfPopFreeBuf_some hlt] at h
    cases h
    have hmem : fl.slot fl.poolBufOffset ∈ fl.poolBufPtr.drop fl.poolBufOffset.toNat := by
      rw [hvalid.drop_eq hlt]
      exact List.mem_cons_self
    exact List.mem_of_mem_drop hmem
  · rw [bfPopFreeBuf_empty hge] at h
    cases h

end FreeListFacts

/-- All page translations are valid: each page of the table ends below `2 ^ 64`. -/
def Translated (pool : BfHugePool) : Prop :=
  ∀ page ∈ pool.hugePageInfo, page.baseDmaAddr.toNat + 2 ^ 21 < 2 ^ 64

instance (pool : BfHugePool) : Decidable (Translated pool) :=
  inferInstanceAs (Decidable (∀ page ∈ pool.hugePageInfo, _))

/-- Two addresses that belong to different buffers. -/
structure Apart (pool : BfHugePool) (u v : Addr) : Prop where
  disjoint : u.toNat + pool.bufSize.toNat ≤ v.toNat ∨ v.toNat + pool.bufSize.toNat ≤ u.toNat
  index_ne : bfSysDmaBufferIndex pool u ≠ bfSysDmaBufferIndex pool v

/-! ## The pool under its clients -/

/-- The buffers of a pool do not depend on what is free. -/
theorem buffers_setFreeList {pool : BfHugePool} {fl : FreeList} (hcnt : fl.bufCnt = pool.bufCnt) :
    ({ pool with toFreeList := fl } : BfHugePool).buffers = pool.buffers := by
  simp only [BfHugePool.buffers, BfHugePool.count, hcnt]
  rfl

/-- The tables are those of `pool₀`, the free list is well formed, and whatever is in a slot is a
buffer. -/
structure Tabled (pool₀ pool : BfHugePool) : Prop where
  tables : pool = { pool₀ with toFreeList := pool.toFreeList }
  bufCnt : pool.bufCnt = pool₀.bufCnt
  valid : pool.toFreeList.Valid
  slots : ∀ v ∈ pool.poolBufPtr, v ∈ pool₀.buffers

namespace Tabled

variable {pool₀ pool : BfHugePool}

/-- An allocation keeps the page table. -/
theorem alloc (h : Tabled pool₀ pool) (size : UInt64) :
    Tabled pool₀ (bfSysDmaAlloc pool size).2 := by
  obtain ⟨hcnt, hslots⟩ := bfPopFreeBuf_frame pool.toFreeList
  constructor
  case tables =>
    rw [bfSysDmaAlloc_snd, h.tables]
  case bufCnt =>
    rw [bfSysDmaAlloc_snd]
    exact hcnt.trans h.bufCnt
  case valid =>
    rw [bfSysDmaAlloc_snd]
    exact (bfPopFreeBuf_refines h.valid).2
  case slots =>
    rw [bfSysDmaAlloc_snd, hslots]
    exact h.slots

/-- Whether what is freed had been handed out does not matter here. -/
theorem free (h : Tabled pool₀ pool) {v : Addr} (hv : v ∈ pool₀.buffers) :
    Tabled pool₀ (bfSysDmaFree pool v).2 := by
  constructor
  case tables =>
    rw [bfSysDmaFree_snd, h.tables]
  case bufCnt =>
    rw [bfSysDmaFree_snd]
    exact (bfPushFreeBuf_bufCnt _ _).trans h.bufCnt
  case valid =>
    rw [bfSysDmaFree_snd]
    exact (bfPushFreeBuf_refines h.valid v).2
  case slots =>
    intro u hu
    rw [bfSysDmaFree_snd] at hu
    rcases mem_bfPushFreeBuf hu with hu | rfl
    · exact h.slots u hu
    · exact hv

/-- The buffers are those of the start. -/
theorem buffers (h : Tabled pool₀ pool) : pool.buffers = pool₀.buffers := by
  rw [h.tables]
  exact buffers_setFreeList h.bufCnt

/-- The translation is that of the start. -/
theorem getPhyAddr (h : Tabled pool₀ pool) (v : Addr) :
    bfSysDmaGetPhyAddrFromPool pool v = bfSysDmaGetPhyAddrFromPool pool₀ v := by
  rw [h.tables]
  rfl

end Tabled

/-! ## Everything in place -/

/-- The tables are those of `pool₀`, the free list is well formed, and whatever is in a slot or with
a client is a buffer. -/
structure InPlace {κ : Type*} (pool₀ : BfHugePool) (s : ClientState κ) : Prop where
  tables : s.pool = { pool₀ with toFreeList := s.pool.toFreeList }
  bufCnt : s.pool.bufCnt = pool₀.bufCnt
  valid : s.pool.toFreeList.Valid
  slots : ∀ v ∈ s.pool.poolBufPtr, v ∈ pool₀.buffers
  held : ∀ e ∈ s.held, e.2 ∈ pool₀.buffers

/-- A pool as created: all buffers are in their slots. -/
structure Fresh (pool : BfHugePool) : Prop where
  slots : pool.poolBufPtr = pool.buffers
  offset : pool.poolBufOffset = 0

/-- The queue of a pool that was just created has all the buffers in their order. -/
theorem createdPool_fresh (pf : Platform) (devId : Int32) (subdevId : UInt32) (size : UInt64)
    (cnt : Int32) (align : UInt32) (g : Grant) :
    Fresh (createdPool pf devId subdevId size cnt align g) := by
  constructor
  · simp only [createdPool, freeQueue_eq, BfHugePool.buffers, BfHugePool.count]
    rfl
  · simp only [createdPool]

/-- It holds of the pool at the start. -/
theorem Tabled.initial {pool : BfHugePool} {base : Addr} (hlayout : Layout pool base)
    (hfresh : Fresh pool) : Tabled pool pool := by
  constructor
  case tables => rfl
  case bufCnt => rfl
  case valid =>
    constructor
    · rw [hfresh.slots, BfHugePool.buffers, List.length_map, List.length_range,
        toNat_toUInt32_of_nonneg hlayout.cnt_nonneg, BfHugePool.count]
    · rw [hfresh.offset]
      exact Nat.zero_le _
  case slots =>
    intro v hv
    rwa [hfresh.slots] at hv

namespace InPlace

variable {κ : Type*} {pool₀ : BfHugePool} {s t : ClientState κ} {base : Addr}

/-- The part that is about the pool. -/
theorem tabled (h : InPlace pool₀ s) : Tabled pool₀ s.pool :=
  ⟨h.tables, h.bufCnt, h.valid, h.slots⟩

/-- It is enough that what the clients hold are buffers of the pool. -/
theorem of_tabled (h : Tabled pool₀ s.pool) (hheld : ∀ e ∈ s.held, e.2 ∈ pool₀.buffers) :
    InPlace pool₀ s :=
  ⟨h.tables, h.bufCnt, h.valid, h.slots, hheld⟩

/-- The functions that do not read the free list. -/
theorem getPhyAddr (h : InPlace pool₀ s) (v : Addr) :
    bfSysDmaGetPhyAddrFromPool s.pool v = bfSysDmaGetPhyAddrFromPool pool₀ v :=
  h.tabled.getPhyAddr v

/-- Buffers that are apart at the start are so in every state. -/
theorem apart (h : InPlace pool₀ s) {u v : Addr} (hapart : Apart pool₀ u v) :
    Apart s.pool u v := by
  rw [h.tables]
  exact ⟨hapart.disjoint, hapart.index_ne⟩

/-- The way back is the one of the start. -/
theorem dma2virt (h : InPlace pool₀ s) (a : UInt64) :
    bfMemDma2virt s.pool a = bfMemDma2virt pool₀ a := by
  rw [h.tables]
  rfl

/-- It holds before the first call. -/
theorem initial (hlayout : Layout pool₀ base) (hfresh : Fresh pool₀) (w : World) :
    InPlace pool₀ (clientsInitial κ pool₀ w) :=
  of_tabled (Tabled.initial hlayout hfresh) fun _ hentry => (nomatch hentry)

variable [DecidableEq κ] {e : ClientEvent κ}

/-- Every call of a client keeps it. -/
theorem step (h : InPlace pool₀ s) (hstep : ClientStep s e t) : InPlace pool₀ t := by
  cases hstep with
  | alloc c size hsize =>
      refine of_tabled (h.tabled.alloc size) fun entry hentry => ?_
      cases hr : (bfSysDmaAlloc s.pool size).1 with
      | ok v phys =>
          rw [hr] at hentry
          rcases List.mem_cons.mp hentry with rfl | hmem
          · exact h.slots _ (mem_of_bfPopFreeBuf h.valid (bfSysDmaAlloc_ok hr).1)
          · exact h.held _ hmem
      | failed v phys =>
          rw [hr] at hentry
          exact h.held _ hentry
      | outOfTable =>
          rw [hr] at hentry
          exact h.held _ hentry
  | @free c v hmem =>
      exact of_tabled (h.tabled.free (h.held _ hmem)) fun entry hentry =>
        h.held _ (List.mem_of_mem_erase hentry)
  | write off b hmem hoff => exact ⟨h.tables, h.bufCnt, h.valid, h.slots, h.held⟩

/-- Everything stays in place over any run. -/
theorem of_run {es : List (ClientEvent κ)} {w : World} (hlayout : Layout pool₀ base)
    (hfresh : Fresh pool₀) (hrun : Run ClientStep (clientsInitial κ pool₀ w) es s) :
    InPlace pool₀ s :=
  hrun.invariant (fun _ _ _ h hstep => h.step hstep) (initial hlayout hfresh w)

end InPlace

/-- The buffers of a fresh pool can be taken in order: after `i` allocations, the next slot holds
buffer `i`. -/
theorem exists_run_slots {pool₀ : BfHugePool} {base : Addr} (hlayout : Layout pool₀ base)
    (hfresh : Fresh pool₀) (w : World) {i : ℕ} (hi : i ≤ pool₀.count) :
    ∃ (es : List (ClientEvent Unit)) (s : ClientState Unit),
      Run ClientStep (clientsInitial Unit pool₀ w) es s ∧ s.pool.poolBufPtr = pool₀.buffers ∧
      s.pool.poolBufOffset.toNat = i := by
  induction i with
  | zero =>
      refine ⟨[], _, Run.nil _, hfresh.slots, ?_⟩
      rw [clientsInitial, hfresh.offset]
      rfl
  | succ i ih =>
      obtain ⟨es, s, hrun, hslots, hoffset⟩ := ih (Nat.le_of_succ_le hi)
      have hplace := InPlace.of_run hlayout hfresh hrun
      have hlt : s.pool.poolBufOffset.toNat < s.pool.bufCnt.toUInt32.toNat := by
        rw [hoffset, hplace.bufCnt, toNat_toUInt32_of_nonneg hlayout.cnt_nonneg]
        exact hi
      refine ⟨_, _, hrun.snoc (.alloc () 0 ?_), ?_, ?_⟩
      · rw [UInt64.le_iff_toNat_le]
        exact Nat.zero_le _
      · rw [bfSysDmaAlloc_snd]
        exact (bfPopFreeBuf_frame _).2.trans hslots
      · rw [bfSysDmaAlloc_snd, bfPopFreeBuf_some hlt]
        exact (toNat_succ_offset hlt).trans (by rw [hoffset])

/-- With valid translations, some run ends where the next allocation returns a given buffer. -/
theorem exists_run_alloc {pool₀ : BfHugePool} {base : Addr} (hlayout : Layout pool₀ base)
    (hfresh : Fresh pool₀) (w : World) {i : ℕ} (hi : i < pool₀.count) {phys : UInt64}
    (hphys : bfSysDmaGetPhyAddrFromPool pool₀ (pool₀.bufAddr i) = some phys)
    (hne : phys ≠ bfInvalidPhyAddr) :
    ∃ (es : List (ClientEvent Unit)) (s : ClientState Unit),
      Run ClientStep (clientsInitial Unit pool₀ w) es s ∧
      (bfSysDmaAlloc s.pool 0).1 = .ok (pool₀.bufAddr i) phys := by
  obtain ⟨es, s, hrun, hslots, hoffset⟩ := exists_run_slots hlayout hfresh w hi.le
  have hplace := InPlace.of_run hlayout hfresh hrun
  have hlt : s.pool.poolBufOffset.toNat < s.pool.bufCnt.toUInt32.toNat := by
    rw [hoffset, hplace.bufCnt, toNat_toUInt32_of_nonneg hlayout.cnt_nonneg]
    exact hi
  have hslot : s.pool.toFreeList.slot s.pool.poolBufOffset = pool₀.bufAddr i := by
    rw [FreeList.slot, hoffset, hslots, List.getD_eq_getElem?_getD,
      getElem?_buffers.mpr ⟨hi, rfl⟩, Option.getD_some]
  refine ⟨es, s, hrun, ?_⟩
  rw [bfSysDmaAlloc_of_pop (v := pool₀.bufAddr i), hplace.getPhyAddr, hphys]
  · exact if_neg hne
  · rw [bfPopFreeBuf_some hlt, hslot]

/-! ## Custody of the buffers -/

namespace Layout

variable {pool : BfHugePool} {base : Addr} (h : Layout pool base)

include h

/-- With valid translations, the tables give a buffer an address that is not the invalid one. -/
theorem exists_phys (htr : Translated pool) {v : Addr} (hv : v ∈ pool.buffers) :
    ∃ phys, bfSysDmaGetPhyAddrFromPool pool v = some phys ∧ phys ≠ bfInvalidPhyAddr := by
  obtain ⟨i, hi, rfl⟩ := List.mem_map.mp hv
  obtain ⟨page, hpage, hoff, hphys⟩ := h.getPhyAddr_bufAddr (List.mem_range.mp hi)
  refine ⟨_, hphys, fun heq => ?_⟩
  have hlt := htr page hpage
  rw [← UInt64.toNat_inj, UInt64.toNat_add, Nat.mod_eq_of_lt (by omega),
    show bfInvalidPhyAddr.toNat = 2 ^ 64 - 1 from rfl] at heq
  omega

/-- Buffers with different numbers are apart. -/
theorem apart (hpos : 0 < pool.bufSize.toNat) {i j : ℕ} (hi : i < pool.count)
    (hj : j < pool.count) (hij : i ≠ j) : Apart pool (pool.bufAddr i) (pool.bufAddr j) := by
  obtain ⟨haddr, -⟩ := h.toNat_bufAddr hi
  obtain ⟨haddr', -⟩ := h.toNat_bufAddr hj
  constructor
  · rw [haddr, haddr']
    rcases Nat.lt_or_gt_of_ne hij with hlt | hlt
    · have := Nat.mul_le_mul_right pool.bufSize.toNat (Nat.succ_le_of_lt hlt)
      rw [Nat.succ_mul] at this
      omega
    · have := Nat.mul_le_mul_right pool.bufSize.toNat (Nat.succ_le_of_lt hlt)
      rw [Nat.succ_mul] at this
      omega
  · obtain ⟨idx, hidx, hval⟩ := h.bufferIndex hi hpos
    obtain ⟨idx', hidx', hval'⟩ := h.bufferIndex hj hpos
    rw [show UInt64.ofNat 0 = 0 from rfl, UInt64.add_zero] at hidx hidx'
    rw [hidx, hidx']
    intro heq
    cases heq
    omega

/-- Two different buffers do not overlap. -/
theorem apart_of_ne (hpos : 0 < pool.bufSize.toNat) {u v : Addr} (hu : u ∈ pool.buffers)
    (hv : v ∈ pool.buffers) (hne : u ≠ v) : Apart pool u v := by
  obtain ⟨i, hi, rfl⟩ := List.mem_map.mp hu
  obtain ⟨j, hj, rfl⟩ := List.mem_map.mp hv
  exact h.apart hpos (List.mem_range.mp hi) (List.mem_range.mp hj) fun hij => hne (by rw [hij])

/-- No buffer is there twice. -/
theorem nodup_buffers (hpos : 0 < pool.bufSize.toNat) : pool.buffers.Nodup := by
  refine List.Nodup.map_on (fun i hi j hj heq => ?_) List.nodup_range
  by_contra hij
  have hdisj := (h.apart hpos (List.mem_range.mp hi) (List.mem_range.mp hj) hij).disjoint
  rw [heq] at hdisj
  omega

end Layout

/-- Each buffer is either on the free list or with one client. -/
structure Custody {κ : Type*} (pool₀ : BfHugePool) (s : ClientState κ) : Prop extends
    InPlace pool₀ s where
  owned : s.pool.toFreeList.toStack.Owned (s.held.map Prod.snd) pool₀.buffers

namespace Custody

variable {κ : Type*} {pool₀ : BfHugePool} {s t : ClientState κ} {base : Addr}

/-- Before the first call the queue has every buffer, and no client has one. -/
theorem initial (hlayout : Layout pool₀ base) (hfresh : Fresh pool₀) (w : World) :
    Custody pool₀ (clientsInitial κ pool₀ w) := by
  refine ⟨InPlace.initial hlayout hfresh w, ?_, ?_⟩
  · simp [clientsInitial, FreeList.toStack, hfresh.slots, hfresh.offset]
  · simp [clientsInitial, FreeList.toStack, hfresh.offset]

/-- An allocation fails with everything held, and otherwise hands out a buffer that was free. -/
theorem alloc_cases (h : Custody pool₀ s) (hlayout : Layout pool₀ base) (htr : Translated pool₀)
    (size : UInt64) :
    (bfSysDmaAlloc s.pool size).1 = .failed 0 0 ∧ s.held.length = pool₀.count ∧
        (bfSysDmaAlloc s.pool size).2.toFreeList.toStack = s.pool.toFreeList.toStack ∨
      ∃ v phys, (bfSysDmaAlloc s.pool size).1 = .ok v phys ∧ s.held.length < pool₀.count ∧
        (bfSysDmaAlloc s.pool size).2.toFreeList.toStack.Owned (v :: s.held.map Prod.snd)
          pool₀.buffers := by
  have hlen : pool₀.buffers.length = pool₀.count := by
    rw [BfHugePool.buffers, List.length_map, List.length_range]
  have href := (bfPopFreeBuf_refines h.valid).1
  rw [bfSysDmaAlloc_snd]
  -- the abstract stack has nothing, or a buffer that no client has
  rcases h.owned.pop_cases with ⟨hpop, hall⟩ | ⟨v, st, hpop, howned, hlt⟩
  · rw [hpop] at href
    cases hres : (bfPopFreeBuf s.pool.toFreeList).1 with
    | none =>
        refine .inl ⟨bfSysDmaAlloc_of_empty hres, ?_, (congrArg Prod.snd href).symm⟩
        rwa [List.length_map, hlen] at hall
    | some v =>
        rw [hres] at href
        cases congrArg Prod.fst href
  · rw [hpop] at href
    cases hres : (bfPopFreeBuf s.pool.toFreeList).1 with
    | none =>
        rw [hres] at href
        cases congrArg Prod.fst href
    | some u =>
        rw [hres] at href
        cases congrArg Prod.fst href
        have hv := howned.mem_of_held List.mem_cons_self
        obtain ⟨phys, hphys, hne⟩ := hlayout.exists_phys htr hv
        refine .inr ⟨v, phys, ?_, ?_, ?_⟩
        · rw [bfSysDmaAlloc_of_pop hres, h.getPhyAddr, hphys]
          exact if_neg hne
        · rwa [List.length_map, hlen] at hlt
        · have hst : st = (bfPopFreeBuf s.pool.toFreeList).2.toStack := congrArg Prod.snd href
          rw [hst] at howned
          exact howned

variable [DecidableEq κ] {e : ClientEvent κ}

/-- A free of a held buffer is accepted. -/
theorem free_accepted (h : Custody pool₀ s) {c : κ} {v : Addr} (hmem : (c, v) ∈ s.held) :
    (bfSysDmaFree s.pool v).1 = true ∧
      (bfSysDmaFree s.pool v).2.toFreeList.toStack.Owned
        ((s.held.erase (c, v)).map Prod.snd) pool₀.buffers := by
  have hperm : (s.held.map Prod.snd).Perm (v :: (s.held.erase (c, v)).map Prod.snd) :=
    (List.perm_cons_erase hmem).map Prod.snd
  obtain ⟨st, hpush, howned⟩ := h.owned.push hperm
  have href := (bfPushFreeBuf_refines h.valid v).1
  rw [hpush] at href
  rw [bfSysDmaFree_fst, bfSysDmaFree_snd]
  cases hres : (bfPushFreeBuf s.pool.toFreeList v).1 with
  | false =>
      rw [hres] at href
      cases congrArg Prod.fst href
  | true =>
      have hst : st = (bfPushFreeBuf s.pool.toFreeList v).2.toStack := congrArg Prod.snd href
      rw [hst] at howned
      exact ⟨rfl, howned⟩

/-- Every call of a client keeps it: an allocation moves a buffer from the queue to the client, and
a free that is accepted moves it back. -/
theorem step (h : Custody pool₀ s) (hlayout : Layout pool₀ base) (htr : Translated pool₀)
    (hstep : ClientStep s e t) : Custody pool₀ t := by
  refine ⟨h.toInPlace.step hstep, ?_⟩
  cases hstep with
  | alloc c size hsize =>
      rcases h.alloc_cases hlayout htr size with ⟨hr, -, hst⟩ | ⟨v, phys, hr, -, howned⟩
      · rw [hr, hst]
        exact h.owned
      · rw [hr]
        exact howned
  | free hmem => exact (h.free_accepted hmem).2
  | write off b hmem hoff => exact h.owned

/-- Custody is kept over any run. -/
theorem of_run {es : List (ClientEvent κ)} {w : World} (hlayout : Layout pool₀ base)
    (hfresh : Fresh pool₀) (htr : Translated pool₀)
    (hrun : Run ClientStep (clientsInitial κ pool₀ w) es s) : Custody pool₀ s :=
  hrun.invariant (fun _ _ _ h hstep => h.step hlayout htr hstep) (initial hlayout hfresh w)

end Custody

/-- **No buffer is lost or handed out twice.** In every run of clients on a created pool with
valid page translations: the offset counts the held buffers; the live slots and the held buffers
are the buffers of the pool; any two held buffers are apart; an allocation fails exactly when all
buffers are held; and the push of a held buffer is accepted. -/
theorem bfSysDma_no_lost_buffer {κ : Type*} [DecidableEq κ] {pf : Platform} {devId : Int32}
    {subdevId : UInt32} {size : UInt64} {cnt : Int32} {align : UInt32} {w w' : World}
    {pool : BfHugePool} (hsize : 1 ≤ size.toNat) (halign : align.toNat.isPowerOfTwo)
    (hcreate : bfSysDmaPoolCreate pf devId subdevId size cnt align w = (some pool, w'))
    (htr : Translated pool) {es : List (ClientEvent κ)} {s : ClientState κ}
    (hrun : Run ClientStep (clientsInitial κ pool w') es s) :
    s.pool.poolBufOffset.toNat = s.held.length ∧
    (s.pool.poolBufPtr.drop s.pool.poolBufOffset.toNat ++ s.held.map Prod.snd).Perm
      ((List.range cnt.toInt.toNat).map fun i =>
        pool.bufStart + UInt64.ofNat i * pool.bufSize) ∧
    s.held.Pairwise (fun e e' => Apart s.pool e.2 e'.2) ∧
    (∀ req, (bfSysDmaAlloc s.pool req).1 ≠ .outOfTable ∧
      ((∃ v phys, (bfSysDmaAlloc s.pool req).1 = .failed v phys) ↔
        (s.held.length : ℤ) = cnt.toInt)) ∧
    ∀ c v, (c, v) ∈ s.held → (bfPushFreeBuf s.pool.toFreeList v).1 = true := by
  obtain ⟨g, hg, rfl, rfl⟩ := create_some devId subdevId w hcreate
  have hlayout := hg.layout devId subdevId
  have hcust := Custody.of_run hlayout (createdPool_fresh ..) htr hrun
  -- a buffer has at least one byte, so different buffers are at different addresses
  have hpos : 0 < (createdPool pf devId subdevId size cnt align g).bufSize.toNat := by
    have hle := le_roundUp (n := size.toNat) (Nat.pos_of_isPowerOfTwo halign)
    simp only [createdPool]
    rw [toNat_bufferSize hg.size_le halign]
    omega
  refine ⟨?_, hcust.owned.perm, ?_, ?_, ?_⟩
  · simpa [FreeList.toStack] using hcust.owned.outstanding
  · have hnodup := hcust.owned.nodup_held (hlayout.nodup_buffers hpos)
    refine List.Pairwise.imp_of_mem (fun he he' hne => ?_) (List.pairwise_map.mp hnodup)
    exact hcust.apart (hlayout.apart_of_ne hpos (hcust.held _ he) (hcust.held _ he') hne)
  · intro req
    have hcnt : 0 ≤ cnt.toInt := hlayout.cnt_nonneg
    have hcount : (createdPool pf devId subdevId size cnt align g).count = cnt.toInt.toNat := rfl
    rcases hcust.alloc_cases hlayout htr req with ⟨hr, hall, -⟩ | ⟨v, phys, hr, hlt, -⟩
    · -- the queue is empty exactly if the clients have all buffers
      rw [hr]
      refine ⟨AllocResult.noConfusion, ⟨fun _ => ?_, fun _ => ⟨0, 0, rfl⟩⟩⟩
      rw [hall, hcount, Int.toNat_of_nonneg hcnt]
    · rw [hr]
      refine ⟨AllocResult.noConfusion, ⟨?_, fun hall => ?_⟩⟩
      · rintro ⟨_, _, hfail⟩
        cases hfail
      · omega
  · intro c v hmem
    exact (hcust.free_accepted hmem).1

/-- Two clients and two buffers of 64 bytes; the first client has taken one. -/
theorem bfSysDma_no_lost_buffer_one :
    ∃ (pool : BfHugePool) (w : World) (es : List (ClientEvent Bool)) (s : ClientState Bool),
      bfSysDmaPoolCreate (.granting (fun _ => .entry 1) none) 0 0 64 2 64 ⟨[], fun _ => 0⟩ =
        (some pool, w) ∧
      Run ClientStep (clientsInitial Bool pool w) es s ∧ s.held.length = 1 ∧
      s.pool.poolBufOffset.toNat = s.held.length := by
  have hg : Accepts (.granting (fun _ => .entry 1) none) 64 2 64 .granting := by
    constructor <;> decide
  refine ⟨_, _, _, _, create_of_accepts 0 0 _ hg, Run.single (.alloc true 64 (by decide)), ?_, ?_⟩
  · decide
  · exact (bfSysDma_no_lost_buffer (by decide) ⟨6, by decide⟩ (create_of_accepts 0 0 _ hg)
      (by decide) (Run.single (.alloc true 64 (by decide)))).1

end TargetSys.Dma
