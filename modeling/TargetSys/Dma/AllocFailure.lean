import TargetSys.Dma.Lifetime
import TargetSys.Dma.Rollback

/-!
# Failed allocations

Reference: `src/bf_sal/linux_usr/bf_sys_dma_hugepages.c`, `bf_sys_dma_alloc` and
`bf_sys_dma_buffer_alloc`.

`bf_sys_dma_alloc` takes a buffer off the free list before it looks at its address, and does not put
it back when the address is `BF_INVALID_PHY_ADDR`. `bf_sys_dma_buffer_alloc` then destroys the pool
and leaves `*hndl` and `*v_addr` as they are. Here a buffer may be freed that is not held, so that
what is free is counted by the answers alone.

## Main results

* `exists_run_pool`: what clients do is such a run.
* `failedAlloc_iff`: failed allocations are harmless exactly when no buffer has the invalid address.
-/

namespace TargetSys.Dma

open Lifo Transition ByteMemory

/-! ## Runs of a pool -/

inductive PoolEvent
  | alloc (size : UInt64) (result : AllocResult)
  | free (vAddr : Addr) (accepted : Bool)

/-- An allocation, or the free of a buffer of the pool. -/
inductive PoolStep : BfHugePool → PoolEvent → BfHugePool → Prop
  | alloc {pool : BfHugePool} (size : UInt64) :
      PoolStep pool (.alloc size (bfSysDmaAlloc pool size).1) (bfSysDmaAlloc pool size).2
  | free {pool : BfHugePool} {vAddr : Addr} : vAddr ∈ pool.buffers →
      PoolStep pool (.free vAddr (bfSysDmaFree pool vAddr).1) (bfSysDmaFree pool vAddr).2

/-- The number of successful allocations. -/
def allocated (es : List PoolEvent) : ℕ :=
  es.countP fun
    | .alloc _ (.ok ..) => true
    | _ => false

/-- The number of accepted frees. -/
def released (es : List PoolEvent) : ℕ :=
  es.countP fun
    | .free _ accepted => accepted
    | _ => false

section Runs

variable {pool₀ pool : BfHugePool} {base : Addr} {es : List PoolEvent}

/-- The page table is what it was at the start, in every pool that a run reaches. -/
theorem Tabled.of_run (hlayout : Layout pool₀ base) (hfresh : Fresh pool₀)
    (hrun : Run PoolStep pool₀ es pool) : Tabled pool₀ pool := by
  refine hrun.invariant (fun p e p' h hstep => ?_) (Tabled.initial hlayout hfresh)
  cases hstep with
  | alloc size => exact h.alloc size
  | free hmem => exact h.free (h.buffers ▸ hmem)

/-- The runs of clients are runs of their pool. -/
theorem exists_run_pool {κ : Type*} [DecidableEq κ] {w : World} {ces : List (ClientEvent κ)}
    {s : ClientState κ} (hlayout : Layout pool₀ base) (hfresh : Fresh pool₀)
    (hrun : Run ClientStep (clientsInitial κ pool₀ w) ces s) :
    ∃ es, Run PoolStep pool₀ es s.pool := by
  refine (Run.invariant (I := fun s => InPlace pool₀ s ∧ ∃ es, Run PoolStep pool₀ es s.pool)
    (fun s e t h hstep => ?_) hrun ⟨InPlace.initial hlayout hfresh w, [], Run.nil _⟩).2
  obtain ⟨hplace, es, hpool⟩ := h
  refine ⟨hplace.step hstep, ?_⟩
  cases hstep with
  | alloc c size hsize => exact ⟨_, hpool.snoc (.alloc size)⟩
  | free hmem => exact ⟨_, hpool.snoc (.free (hplace.tabled.buffers ▸ hplace.held _ hmem))⟩
  | write off b hmem hoff => exact ⟨es, hpool⟩

end Runs

/-! ## The invalid address -/

/-- No buffer has the invalid address: the DMA address of its page and its distance from the
beginning of the page do not add up to it. -/
def NoInvalidBuffer (pool : BfHugePool) : Prop :=
  ∀ v ∈ pool.buffers, ∀ page ∈ pool.hugePageInfo, page.baseVirtAddr.toNat ≤ v.toNat →
    v.toNat < page.baseVirtAddr.toNat + 2 ^ 21 →
      page.baseDmaAddr + (v - page.baseVirtAddr) ≠ bfInvalidPhyAddr

instance (pool : BfHugePool) : Decidable (NoInvalidBuffer pool) :=
  haveI (v : Addr) := List.decidableBAll (fun page : HugePageInfo =>
    page.baseVirtAddr.toNat ≤ v.toNat → v.toNat < page.baseVirtAddr.toNat + 2 ^ 21 →
      page.baseDmaAddr + (v - page.baseVirtAddr) ≠ bfInvalidPhyAddr) pool.hugePageInfo
  List.decidableBAll _ pool.buffers

section Invalid

variable {pool : BfHugePool} {base : Addr} (h : Layout pool base)

include h

/-- A page of the table that holds an address of the pool is the one that the index finds. -/
theorem Layout.getPhyAddr_of_holds {v : Addr} {page : HugePageInfo} (hlo : base.toNat ≤ v.toNat)
    (hhi : v.toNat < base.toNat + pool.hugePageInfo.length * 2 ^ 21)
    (hpage : page ∈ pool.hugePageInfo) (hle : page.baseVirtAddr.toNat ≤ v.toNat)
    (hlt : v.toNat < page.baseVirtAddr.toNat + 2 ^ 21) :
    bfSysDmaGetPhyAddrFromPool pool v = some (page.baseDmaAddr + (v - page.baseVirtAddr)) := by
  obtain ⟨k, hk⟩ := List.getElem?_of_mem hpage
  have hklt := (List.getElem?_eq_some_iff.mp hk).1
  have haddr := h.toNat_pageAddr hklt.le
  rw [← h.virt k page hk] at haddr
  obtain ⟨found, hfound, -, hphys⟩ := h.getPhyAddr hlo hhi
  have hindex : (v.toNat - base.toNat) / 2 ^ 21 = k :=
    Nat.div_eq_of_lt_le (by omega) (by rw [Nat.succ_mul]; omega)
  rw [hindex, hk, Option.some.injEq] at hfound
  rw [hphys, hfound]

/-- In terms of what the translation says of the buffers. -/
theorem noInvalidBuffer_iff : NoInvalidBuffer pool ↔
    ∀ v ∈ pool.buffers, bfSysDmaGetPhyAddrFromPool pool v ≠ some bfInvalidPhyAddr := by
  constructor
  · intro hno v hv
    obtain ⟨i, hi, rfl⟩ := List.mem_map.mp hv
    have hi' := List.mem_range.mp hi
    obtain ⟨haddr, -⟩ := h.toNat_bufAddr hi'
    have hhi := h.bufAddr_lt hi'
    obtain ⟨page, hpage, -, hphys⟩ := h.getPhyAddr (by omega) hhi
    have hindex : ((pool.bufAddr i).toNat - base.toNat) / 2 ^ 21 ≤ pool.hugePageInfo.length :=
      (List.getElem?_eq_some_iff.mp hpage).1.le
    have hpageAddr := h.toNat_pageAddr hindex
    rw [← h.virt _ page hpage] at hpageAddr
    have hdiv := Nat.div_add_mod' ((pool.bufAddr i).toNat - base.toNat) (2 ^ 21)
    have hmod := Nat.mod_lt ((pool.bufAddr i).toNat - base.toNat) (Nat.two_pow_pos 21)
    rw [hphys, Ne, Option.some.injEq]
    exact hno _ hv page (List.mem_of_getElem? hpage) (by omega) (by omega)
  · intro hno v hv page hpage hle hlt heq
    obtain ⟨i, hi, rfl⟩ := List.mem_map.mp hv
    have hi' := List.mem_range.mp hi
    obtain ⟨haddr, -⟩ := h.toNat_bufAddr hi'
    refine hno _ hv ?_
    rw [h.getPhyAddr_of_holds (by omega) (h.bufAddr_lt hi') hpage hle hlt, heq]

end Invalid

/-! ## The free list after a failed allocation -/

/-- What is asked of failed allocations of a pool. In every run the free list is as before each of
them, and the number of buffers still available is accounted for by the answers. -/
def KeepsFreeList (pool₀ : BfHugePool) : Prop :=
  ∀ es pool, Run PoolStep pool₀ es pool →
    (∀ size v phys, (bfSysDmaAlloc pool size).1 = .failed v phys →
      (bfSysDmaAlloc pool size).2.toFreeList.toStack = pool.toFreeList.toStack) ∧
    pool.bufCnt.toInt - pool.poolBufOffset.toNat =
      pool₀.bufCnt.toInt - allocated es + released es

section FreeLists

variable {pool₀ pool : BfHugePool} {base : Addr} {es : List PoolEvent} {size : UInt64}

/-- An allocation, where no buffer has the invalid address: it fails on an exhausted list, or takes
a buffer. -/
theorem Tabled.alloc_cases (h : Tabled pool₀ pool) (hlayout : Layout pool₀ base)
    (hno : NoInvalidBuffer pool₀) (size : UInt64) :
    ((∃ v phys, (bfSysDmaAlloc pool size).1 = .failed v phys) ∧
        (bfSysDmaAlloc pool size).2.toFreeList = pool.toFreeList) ∨
      (∃ v phys, (bfSysDmaAlloc pool size).1 = .ok v phys) ∧
        (bfSysDmaAlloc pool size).2.poolBufOffset.toNat = pool.poolBufOffset.toNat + 1 := by
  rw [bfSysDmaAlloc_snd]
  rcases Nat.lt_or_ge pool.poolBufOffset.toNat pool.bufCnt.toUInt32.toNat with hlt | hge
  · have hpop := bfPopFreeBuf_some hlt
    have hfst := congrArg Prod.fst hpop
    have hv := h.slots _ (mem_of_bfPopFreeBuf h.valid hfst)
    obtain ⟨i, hi, hvi⟩ := List.mem_map.mp hv
    obtain ⟨page, -, -, hphys⟩ := hlayout.getPhyAddr_bufAddr (List.mem_range.mp hi)
    rw [hvi] at hphys
    have hne := (noInvalidBuffer_iff hlayout).mp hno _ hv
    rw [hphys, Ne, Option.some.injEq] at hne
    refine .inr ⟨⟨pool.slot pool.poolBufOffset, page.baseDmaAddr +
      (pool.slot pool.poolBufOffset - page.baseVirtAddr), ?_⟩, ?_⟩
    · rw [bfSysDmaAlloc_of_pop hfst, h.getPhyAddr, hphys]
      exact if_neg hne
    · rw [hpop]
      exact toNat_succ_offset hlt
  · have hpop := bfPopFreeBuf_empty hge
    exact .inl ⟨⟨0, 0, bfSysDmaAlloc_of_empty (congrArg Prod.fst hpop)⟩, congrArg Prod.snd hpop⟩

/-- Allocations are counted one by one. -/
theorem allocated_append (e : PoolEvent) : allocated (es ++ [e]) = allocated es + allocated [e] :=
  List.countP_append

/-- Accepted frees are counted one by one. -/
theorem released_append (e : PoolEvent) : released (es ++ [e]) = released es + released [e] :=
  List.countP_append

/-- Where no buffer has the invalid address, the offset counts what is allocated and not released. -/
theorem offset_of_run (hlayout : Layout pool₀ base) (hfresh : Fresh pool₀)
    (hno : NoInvalidBuffer pool₀) (hrun : Run PoolStep pool₀ es pool) :
    pool.poolBufOffset.toNat + released es = allocated es := by
  refine (Run.invariant_trace (I := fun es pool => Tabled pool₀ pool ∧
    pool.poolBufOffset.toNat + released es = allocated es) (fun es p e p' h hstep => ?_) hrun
    ⟨Tabled.initial hlayout hfresh, by rw [hfresh.offset]; rfl⟩).2
  obtain ⟨htab, hcount⟩ := h
  rw [allocated_append, released_append]
  cases hstep with
  | alloc size =>
      refine ⟨htab.alloc size, ?_⟩
      rcases htab.alloc_cases hlayout hno size with ⟨⟨v, phys, hr⟩, hfl⟩ | ⟨⟨v, phys, hr⟩, hoff⟩
      · rw [hr, hfl]
        exact hcount
      · rw [hr, hoff]
        have h1 : allocated [.alloc size (.ok v phys)] = 1 := rfl
        have h0 : released [.alloc size (.ok v phys)] = 0 := rfl
        omega
  | @free v hmem =>
      refine ⟨htab.free (htab.buffers ▸ hmem), ?_⟩
      rw [bfSysDmaFree_snd, bfSysDmaFree_fst]
      -- a refused release moves neither side
      by_cases h0 : p.poolBufOffset = 0
      · rw [bfPushFreeBuf_refused v h0]
        exact hcount
      · rw [bfPushFreeBuf_accepted v h0 htab.valid.offset_le]
        have hpos : p.poolBufOffset.toNat ≠ 0 := by rwa [← UInt32.toNat_inj] at h0
        have hpred := toNat_pred_offset h0
        have h0 : allocated [.free v true] = 0 := rfl
        have h1 : released [.free v true] = 1 := rfl
        dsimp only
        omega

/-- An allocation of a buffer with the invalid address fails, and keeps the buffer. -/
theorem not_keepsFreeList (hlayout : Layout pool₀ base) (hfresh : Fresh pool₀)
    (hinvalid : ¬NoInvalidBuffer pool₀) : ¬KeepsFreeList pool₀ := by
  rw [noInvalidBuffer_iff hlayout] at hinvalid
  push Not at hinvalid
  obtain ⟨v, hv, hphys⟩ := hinvalid
  obtain ⟨i, hi, rfl⟩ := List.mem_map.mp hv
  have hi' := List.mem_range.mp hi
  -- after `i` allocations, whatever they return, it is the turn of buffer `i`
  obtain ⟨ces, s, hclients, hslots, hoffset⟩ :=
    exists_run_slots hlayout hfresh ⟨[], fun _ => 0⟩ hi'.le
  obtain ⟨es, hrun⟩ := exists_run_pool hlayout hfresh hclients
  have htab := Tabled.of_run hlayout hfresh hrun
  have hlt : s.pool.poolBufOffset.toNat < s.pool.bufCnt.toUInt32.toNat := by
    rw [hoffset, htab.bufCnt, toNat_toUInt32_of_nonneg hlayout.cnt_nonneg]
    exact hi'
  have hpop := bfPopFreeBuf_some hlt
  have hslot : s.pool.slot s.pool.poolBufOffset = pool₀.bufAddr i := by
    rw [FreeList.slot, hoffset, hslots, List.getD_eq_getElem?_getD,
      getElem?_buffers.mpr ⟨hi', rfl⟩, Option.getD_some]
  have hfailed : (bfSysDmaAlloc s.pool 0).1 = .failed (pool₀.bufAddr i) bfInvalidPhyAddr := by
    rw [bfSysDmaAlloc_of_pop ((congrArg Prod.fst hpop).trans (congrArg some hslot)),
      htab.getPhyAddr, hphys]
    exact if_pos rfl
  intro hkeeps
  have hsame := congrArg Stack.outstanding ((hkeeps es s.pool hrun).1 0 _ _ hfailed)
  rw [bfSysDmaAlloc_snd, hpop] at hsame
  exact absurd ((toNat_succ_offset hlt).symm.trans hsame) (Nat.succ_ne_self _)

/-- Failed allocations keep the free list exactly when no buffer has the invalid address. -/
theorem keepsFreeList_iff (hlayout : Layout pool₀ base) (hfresh : Fresh pool₀) :
    KeepsFreeList pool₀ ↔ NoInvalidBuffer pool₀ := by
  constructor
  · intro hkeeps
    by_contra hinvalid
    exact not_keepsFreeList hlayout hfresh hinvalid hkeeps
  · intro hno es pool hrun
    have htab := Tabled.of_run hlayout hfresh hrun
    constructor
    · intro size v phys hfailed
      rcases htab.alloc_cases hlayout hno size with ⟨-, hfl⟩ | ⟨⟨u, q, hok⟩, -⟩
      · rw [hfl]
      · rw [hok] at hfailed
        cases hfailed
    · have hcount := offset_of_run hlayout hfresh hno hrun
      rw [htab.bufCnt]
      omega

end FreeLists

/-! ## A failed `bf_sys_dma_buffer_alloc` -/

/-- What is asked of a failed `bf_sys_dma_buffer_alloc`. It does not leave an address in a region that
it has unmapped in `*v_addr`, and not the address of a pool that it has freed in `*hndl`, where that
held `NULL` before. -/
def NoDangling (pf : Platform) (unmapFn : Bool) (devId : Int32) (subdevId : UInt32)
    (size : UInt64) : Prop :=
  ∀ hndl w res w', bfSysDmaBufferAlloc pf unmapFn devId subdevId size hndl w = some (res, w') →
    res.status = -1 →
    ∃ calls, w'.log = w.log ++ calls ∧
      (hndl = 0 → res.hndl ≠ 0 → .free res.hndl ∉ calls) ∧
      (res.vAddr ≠ 0 → ∀ base len, .munmap base len ∈ calls →
        ¬(base.toNat ≤ res.vAddr.toNat ∧ res.vAddr.toNat < base.toNat + len.toNat))

section BufferAlloc

variable {pf : Platform} {unmapFn : Bool} {devId : Int32} {subdevId : UInt32} {size : UInt64}

/-- The first allocation from a fresh pool finds the first buffer. -/
theorem bfPopFreeBuf_fresh {pool : BfHugePool} {base : Addr} (hlayout : Layout pool base)
    (hfresh : Fresh pool) (hpos : 0 < pool.count) :
    (bfPopFreeBuf pool.toFreeList).1 = some (pool.bufAddr 0) := by
  have hzero : pool.poolBufOffset.toNat = 0 := by
    rw [hfresh.offset]
    rfl
  have hlt : pool.poolBufOffset.toNat < pool.bufCnt.toUInt32.toNat := by
    rw [hzero, toNat_toUInt32_of_nonneg hlayout.cnt_nonneg]
    exact hpos
  rw [bfPopFreeBuf_some hlt, FreeList.slot, hzero, hfresh.slots, List.getD_eq_getElem?_getD,
    getElem?_buffers.mpr ⟨hpos, rfl⟩, Option.getD_some]

section Single

variable {g : Grant} (hg : Accepts pf size 1 64 g)

include hg

/-- The allocation of the single buffer. -/
theorem bfSysDmaAlloc_single (devId : Int32) (subdevId : UInt32) :
    ∃ phys, bfSysDmaAlloc (createdPool pf devId subdevId size 1 64 g) size =
        (if phys = bfInvalidPhyAddr then
            .failed ((createdPool pf devId subdevId size 1 64 g).bufAddr 0) phys
          else .ok ((createdPool pf devId subdevId size 1 64 g).bufAddr 0) phys,
          { createdPool pf devId subdevId size 1 64 g with
            toFreeList := (bfPopFreeBuf (createdPool pf devId subdevId size 1 64 g).toFreeList).2 }) ∧
      (phys ≠ bfInvalidPhyAddr ↔ NoInvalidBuffer (createdPool pf devId subdevId size 1 64 g)) := by
  have hlayout := hg.layout devId subdevId
  have hcount : (createdPool pf devId subdevId size 1 64 g).count = 1 := rfl
  have hfresh := createdPool_fresh pf devId subdevId size 1 64 g
  generalize createdPool pf devId subdevId size 1 64 g = pool at hlayout hcount hfresh ⊢
  have hbuffers : pool.buffers = [pool.bufAddr 0] := by
    rw [BfHugePool.buffers, hcount]
    rfl
  obtain ⟨page, -, -, hphys⟩ := hlayout.getPhyAddr_bufAddr (i := 0) (by omega)
  have hpop := bfPopFreeBuf_fresh hlayout hfresh (by omega)
  have halloc : (bfSysDmaAlloc pool size).1 = _ := bfSysDmaAlloc_of_pop hpop
  rw [hphys] at halloc
  refine ⟨_, Prod.ext halloc bfSysDmaAlloc_snd, ?_⟩
  rw [noInvalidBuffer_iff hlayout, hbuffers, List.forall_mem_singleton, hphys, Ne, Ne,
    Option.some.injEq]

variable (unmapFn) in
/-- The result of the call where the create succeeds and the buffer has a valid address. -/
theorem bufferAlloc_ok (hno : NoInvalidBuffer (createdPool pf devId subdevId size 1 64 g))
    (hndl : Addr) (w : World) :
    ∃ v phys w', bfSysDmaBufferAlloc pf unmapFn devId subdevId size hndl w =
      some (⟨0, g.poolBlock, v, phys⟩, w') := by
  obtain ⟨phys, halloc, hiff⟩ := bfSysDmaAlloc_single hg devId subdevId
  rw [if_neg (hiff.mpr hno)] at halloc
  rw [bfSysDmaBufferAlloc, create_of_accepts devId subdevId w hg]
  dsimp only
  rw [halloc]
  exact ⟨_, _, _, rfl⟩

variable (unmapFn) in
/-- Where it has the invalid address, the call fails, and leaves the pool that it has freed and an
address in the region that it has unmapped. -/
theorem bufferAlloc_failed (hinvalid : ¬NoInvalidBuffer (createdPool pf devId subdevId size 1 64 g))
    (hndl : Addr) (w : World) :
    ∃ v phys w' calls, bfSysDmaBufferAlloc pf unmapFn devId subdevId size hndl w =
        some (⟨-1, g.poolBlock, v, phys⟩, w') ∧
      w'.log = w.log ++ calls ∧ .free g.poolBlock ∈ calls ∧
      ∃ len, .munmap g.base len ∈ calls ∧
        g.base.toNat < v.toNat ∧ v.toNat < g.base.toNat + len.toNat := by
  have hlayout := hg.layout devId subdevId
  obtain ⟨phys, halloc, hiff⟩ := bfSysDmaAlloc_single hg devId subdevId
  rw [if_pos (not_not.mp fun hne => hinvalid (hiff.mp hne))] at halloc
  obtain ⟨haddr, -⟩ := hlayout.toNat_bufAddr Nat.one_pos
  have hend := hlayout.bufAddr_lt Nat.one_pos
  have hheader := hlayout.header
  have hlen : (mapLength (bufferSize size 64) 1).toNat =
      (createdPool pf devId subdevId size 1 64 g).hugePageInfo.length * 2 ^ 21 :=
    hg.length_pageTable.symm
  rw [bfSysDmaBufferAlloc, create_of_accepts devId subdevId w hg]
  have hdestroy := bfSysDmaPoolDestroy_of_layout
    (w := ⟨w.log ++ createLog pf devId subdevId size 1 64 g,
      store64 w.mem g.base (mapLength (bufferSize size 64) 1)⟩) unmapFn
    (hlayout.setFreeList (bfPopFreeBuf_frame _).1) hlen (load64_store64 ..)
  dsimp only
  rw [halloc]
  dsimp only
  rw [hdestroy]
  refine ⟨_, _, _, _, rfl, List.append_assoc .., ?_, mapLength (bufferSize size 64) 1, ?_,
    by omega, by omega⟩
  · refine List.mem_append_right _ (List.mem_append_right _ ?_)
    exact List.mem_cons_of_mem _ (List.mem_cons_of_mem _ (List.mem_cons_of_mem _
      List.mem_cons_self))
  · exact List.mem_append_right _ (List.mem_append_right _ List.mem_cons_self)

end Single

/-- A failed create only adds to the calls. -/
theorem exists_calls_of_none {cnt : Int32} {align : UInt32} {w w' : World}
    (h : bfSysDmaPoolCreate pf devId subdevId size cnt align w = (none, w')) :
    ∃ calls, w'.log = w.log ++ calls := by
  by_cases hm : ∃ p q b, Mapped pf size cnt align p q b
  · obtain ⟨p, q, b, hm⟩ := hm
    obtain ⟨calls, hlog, -⟩ := mmap_kept_of_mapped hm h
    exact ⟨calls, hlog⟩
  · obtain ⟨calls, hlog, -⟩ := replay_of_not_mapped (fun p q b h => hm ⟨p, q, b, h⟩) h
    exact ⟨calls, hlog⟩

/-- Nothing dangles exactly when the single buffer of no created pool has the invalid address. -/
theorem noDangling_iff : NoDangling pf unmapFn devId subdevId size ↔
    ∀ g, Accepts pf size 1 64 g → NoInvalidBuffer (createdPool pf devId subdevId size 1 64 g) := by
  constructor
  · intro hdangling g hg
    by_contra hinvalid
    obtain ⟨v, phys, w', calls, hres, hlog, -, len, hunmap, hlo, hhi⟩ :=
      bufferAlloc_failed unmapFn hg hinvalid 0 ⟨[], fun _ => 0⟩
    obtain ⟨calls', hlog', -, hregion⟩ := hdangling _ _ _ _ hres rfl
    have hcalls : calls = calls' := List.append_cancel_left (hlog.symm.trans hlog')
    subst hcalls
    refine hregion (fun h0 => ?_) _ _ hunmap ⟨hlo.le, hhi⟩
    rw [← UInt64.toNat_inj, UInt64.toNat_zero] at h0
    exact Nat.ne_of_gt (Nat.zero_lt_of_lt hlo) h0
  · intro hno hndl w res w' hres hstatus
    rcases hcreate : bfSysDmaPoolCreate pf devId subdevId size 1 64 w with ⟨_ | pool, w₁⟩
    · obtain ⟨calls, hlog⟩ := exists_calls_of_none hcreate
      rw [bfSysDmaBufferAlloc, hcreate] at hres
      cases hres
      exact ⟨calls, hlog, fun h0 hne => absurd h0 hne, fun hne => absurd rfl hne⟩
    · obtain ⟨g, hg, -, -⟩ := create_some devId subdevId w hcreate
      obtain ⟨v, phys, w₂, hok⟩ := bufferAlloc_ok unmapFn hg (hno g hg) hndl w
      rw [hok] at hres
      cases hres
      exact absurd hstatus (show (0 : Int32) ≠ -1 by decide)

end BufferAlloc

/-! ## Failed allocations -/

/-- **Failed allocations.** For every pool that a create returns, failed allocations keep its free
list exactly when none of its buffers has the invalid address; and a failed
`bf_sys_dma_buffer_alloc` leaves nothing dangling exactly when the buffer of no pool that it creates
has it. -/
theorem failedAlloc_iff (pf : Platform) (unmapFn : Bool) (devId : Int32) (subdevId : UInt32)
    (size : UInt64) :
    (∀ cnt align w pool w', bfSysDmaPoolCreate pf devId subdevId size cnt align w =
      (some pool, w') → (KeepsFreeList pool ↔ NoInvalidBuffer pool)) ∧
    (NoDangling pf unmapFn devId subdevId size ↔ ∀ w pool w',
      bfSysDmaPoolCreate pf devId subdevId size 1 64 w = (some pool, w') →
        NoInvalidBuffer pool) := by
  refine ⟨fun cnt align w pool w' hcreate => ?_, noDangling_iff.trans ⟨?_, ?_⟩⟩
  · obtain ⟨g, hg, rfl, -⟩ := create_some devId subdevId w hcreate
    exact keepsFreeList_iff (hg.layout devId subdevId) (createdPool_fresh ..)
  · intro hno w pool w' hcreate
    obtain ⟨g, hg, rfl, -⟩ := create_some devId subdevId w hcreate
    exact hno g hg
  · intro hno g hg
    exact hno ⟨[], fun _ => 0⟩ _ _ (create_of_accepts devId subdevId _ hg)

/-- One buffer that fills a page, behind a header that fills one, and the lookup of its page fails.
The pool is created. The first allocation fails and keeps the buffer, and the one of
`bf_sys_dma_buffer_alloc` leaves both pointers behind. -/
theorem failedAlloc_readFails :
    (∃ pool w', bfSysDmaPoolCreate (.granting (fun i => if i = 1 then .readFails else .entry 1) none)
      0 0 (2 ^ 21) 1 64 ⟨[], fun _ => 0⟩ = (some pool, w') ∧ ¬KeepsFreeList pool) ∧
    ¬NoDangling (.granting (fun i => if i = 1 then .readFails else .entry 1) none) true 0 0
      (2 ^ 21) := by
  have hg : Accepts (.granting (fun i => if i = 1 then .readFails else .entry 1) none) (2 ^ 21) 1 64
      .granting := by
    constructor <;> decide
  have hinvalid : ¬NoInvalidBuffer (createdPool
      (.granting (fun i => if i = 1 then .readFails else .entry 1) none) 0 0 (2 ^ 21) 1 64
      .granting) := by
    decide
  refine ⟨⟨_, _, create_of_accepts 0 0 _ hg, ?_⟩, fun hdangling => ?_⟩
  · exact not_keepsFreeList (hg.layout 0 0) (createdPool_fresh ..) hinvalid
  · exact hinvalid (noDangling_iff.mp hdangling _ hg)

end TargetSys.Dma
