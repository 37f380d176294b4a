import TargetSys.Dma.Layout

/-!
# Failed creates

Reference: `src/bf_sal/linux_usr/bf_sys_dma_hugepages.c`, `bf_sys_dma_pool_create`.

A create that fails gives back what it has acquired, but it gives the mapping to `bf_sys_free`, and
it keeps the mapping and what the map function has mapped. `Live` records what is acquired, and
replaying the calls of a create over it says whether each release is one of something live, and what
is left.

## Main results

* `cleanFailure_iff`: failed creates leave nothing behind exactly when no create fails behind its
  `mmap`.
-/

namespace TargetSys.Dma

open ByteMemory

/-! ## Live resources -/

/-- The live heap blocks, mappings and bus mappings. -/
structure Live where
  heap : List Addr
  regions : List (Addr × UInt64)
  bus : List (Int32 × UInt32 × UInt64 × UInt64)

/-- What is live after a call. `none` is the release of something that is not live, or not of this
kind. -/
def Live.step (l : Live) : Call → Option Live
  | .calloc _ _ block => some { l with heap := block.toList ++ l.heap }
  | .free block => if block ∈ l.heap then some { l with heap := l.heap.erase block } else none
  | .mmap len base => some { l with regions := (base.map (·, len)).toList ++ l.regions }
  | .munmap base len =>
      if (base, len) ∈ l.regions then some { l with regions := l.regions.erase (base, len) }
      else none
  | .busMap devId subdevId _ size status dma =>
      some (if status = 0 then { l with bus := (devId, subdevId, dma, size) :: l.bus } else l)
  | .busUnmap devId subdevId dma size =>
      if (devId, subdevId, dma, size) ∈ l.bus then
        some { l with bus := l.bus.erase (devId, subdevId, dma, size) }
      else none

/-- What is live after some calls. -/
def Live.replay (l : Live) (calls : List Call) : Option Live := calls.foldlM Live.step l

/-- The first call, and the rest of them. -/
theorem Live.replay_cons (l : Live) (c : Call) (calls : List Call) :
    l.replay (c :: calls) = (l.step c).bind (·.replay calls) := rfl

/-- Calls are replayed one part behind the other. -/
theorem Live.replay_append (l : Live) (calls calls' : List Call) :
    l.replay (calls ++ calls') = (l.replay calls).bind (·.replay calls') := by
  rw [replay, List.foldlM_append]
  rfl

/-- A call that is not a `munmap` keeps the regions, and adds its own. -/
theorem Live.step_regions {c : Call} {l l' : Live} (hno : ∀ base len, c ≠ .munmap base len)
    (h : l.step c = some l') :
    (∀ r ∈ l.regions, r ∈ l'.regions) ∧
      ∀ base len, c = .mmap len (some base) → (base, len) ∈ l'.regions := by
  cases c with
  | calloc elem size block =>
      cases h
      exact ⟨fun _ hr => hr, fun _ _ hc => nomatch hc⟩
  | free block =>
      rw [Live.step] at h
      split_ifs at h
      cases h
      exact ⟨fun _ hr => hr, fun _ _ hc => nomatch hc⟩
  | mmap len base =>
      cases h
      refine ⟨fun _ hr => List.mem_append_right _ hr, fun base' len' hc => ?_⟩
      cases hc
      exact List.mem_cons_self
  | munmap base len => exact absurd rfl (hno base len)
  | busMap devId subdevId phys size status dma =>
      cases h
      refine ⟨fun r hr => ?_, fun _ _ hc => nomatch hc⟩
      split <;> exact hr
  | busUnmap devId subdevId dma size =>
      rw [Live.step] at h
      split_ifs at h
      cases h
      exact ⟨fun _ hr => hr, fun _ _ hc => nomatch hc⟩

/-- Without `munmap`, what is mapped stays mapped. -/
theorem Live.mem_regions {calls : List Call} (hno : ∀ base len, .munmap base len ∉ calls)
    {l l' : Live} (h : l.replay calls = some l') :
    (∀ r ∈ l.regions, r ∈ l'.regions) ∧
      ∀ base len, .mmap len (some base) ∈ calls → (base, len) ∈ l'.regions := by
  induction calls generalizing l with
  | nil =>
      cases h
      exact ⟨fun _ hr => hr, fun _ _ hmem => nomatch hmem⟩
  | cons c calls ih =>
      rw [replay_cons, Option.bind_eq_some_iff] at h
      obtain ⟨m, hstep, hrest⟩ := h
      obtain ⟨hkept, hmapped⟩ := ih (fun base len hmem => hno base len (.tail _ hmem)) hrest
      have hone := step_regions (fun base len hc => hno base len (hc ▸ List.mem_cons_self)) hstep
      refine ⟨fun r hr => hkept r (hone.1 r hr), fun base len hmem => ?_⟩
      rcases List.mem_cons.mp hmem with hc | hmem
      · exact hkept _ (hone.2 base len hc.symm)
      · exact hmapped base len hmem

/-- A block that is freed again, with another one on top of it. -/
theorem Live.replay_free_two (l : Live) (p q : Addr) :
    Live.replay { l with heap := q :: p :: l.heap } [.free p, .free q] = some l := by
  have hp : p ∈ q :: p :: l.heap := List.mem_cons_of_mem _ List.mem_cons_self
  rw [replay_cons, Live.step, if_pos hp, Option.bind_some, replay_cons, Live.step]
  rcases eq_or_ne q p with rfl | hne
  · rw [List.erase_cons_head, if_pos List.mem_cons_self, List.erase_cons_head]
    rfl
  · rw [List.erase_cons_tail (by simpa using hne), List.erase_cons_head,
      if_pos List.mem_cons_self, List.erase_cons_head]
    rfl

/-! ## The failures of a create -/

/-- The checks of a create up to its `mmap`, all passed. -/
structure Mapped (pf : Platform) (size : UInt64) (cnt : Int32) (align : UInt32)
    (poolBlock queueBlock base : Addr) : Prop where
  pow2 : align &&& (align - 1) = 0
  size_le : size ≤ bfHugePageSize
  pool : pf.poolCalloc.answer 1 sizeofPool = some poolBlock
  queue : pf.queueCalloc.answer (intToSize cnt) sizeofPtr = some queueBlock
  mapping : mmapBase pf (mapLength (bufferSize size align) cnt) = some base

section Failures

variable {pf : Platform} {size : UInt64} {cnt : Int32} {align : UInt32} {base : Addr} {len : UInt64}

/-- The mapping itself releases nothing. -/
theorem munmap_not_mem_mmapLog (b : Addr) (n : UInt64) : .munmap b n ∉ mmapLog pf len := by
  rw [mmapLog]
  split <;> simp

/-- Nothing is released while the pages are mapped for DMA. -/
theorem munmap_not_mem_mapLog (devId : Int32) (subdevId : UInt32) (i : ℕ) (ptr : Addr) (k : ℕ)
    (b : Addr) (n : UInt64) : .munmap b n ∉ mapLog pf devId subdevId i ptr k := by
  rw [mapLog, List.mem_flatMap]
  rintro ⟨j, -, hmem⟩
  rw [mapCalls] at hmem
  split at hmem
  · cases hmem
  · rw [List.mem_singleton] at hmem
    cases hmem

/-- Two attempts to map that fail leave nothing. -/
theorem Live.replay_mmapLog (h : mmapBase pf len = none) (l : Live) :
    l.replay (mmapLog pf len) = some l := by
  rw [mmapBase, Option.or_eq_none_iff] at h
  rw [mmapLog, h.1, h.2]
  rfl

variable {devId : Int32} {subdevId : UInt32} {w w' : World} {p q b : Addr}

/-- A create that does not get its mapping leaves everything as it was. -/
theorem replay_of_not_mapped (hno : ∀ p q b, ¬Mapped pf size cnt align p q b)
    (h : bfSysDmaPoolCreate pf devId subdevId size cnt align w = (none, w')) :
    ∃ calls, w'.log = w.log ++ calls ∧ ∀ l : Live, l.replay calls = some l := by
  rw [bfSysDmaPoolCreate] at h
  -- the exits of the source in their order, up to the one behind the two `mmap` attempts
  by_cases hpow2 : align &&& (align - 1) ≠ 0
  · rw [if_pos hpow2] at h
    cases h
    exact ⟨[], (List.append_nil _).symm, fun l => rfl⟩
  by_cases hsize : size > bfHugePageSize
  · rw [if_neg hpow2, if_pos hsize] at h
    cases h
    exact ⟨[], (List.append_nil _).symm, fun l => rfl⟩
  rw [if_neg hpow2, if_neg hsize] at h
  cases hpool : pf.poolCalloc.answer 1 sizeofPool with
  | none =>
      simp only [hpool] at h
      cases h
      exact ⟨_, rfl, fun l => rfl⟩
  | some p =>
  cases hqueue : pf.queueCalloc.answer (intToSize cnt) sizeofPtr with
  | none =>
      simp only [hpool, hqueue] at h
      cases h
      refine ⟨[.calloc 1 sizeofPool (some p), .calloc (intToSize cnt) sizeofPtr none, .free p],
        by simp only [World.call, List.append_assoc, List.cons_append, List.nil_append],
        fun l => ?_⟩
      have hmem : p ∈ p :: l.heap := List.mem_cons_self
      change Live.replay { l with heap := p :: l.heap } [.free p] = some l
      rw [Live.replay_cons, Live.step, if_pos hmem, List.erase_cons_head]
      rfl
  | some q =>
  cases hmap : mmapBase pf (mapLength (bufferSize size align) cnt) with
  | none =>
      simp only [hpool, hqueue, allocHugePages_none _ hmap] at h
      cases h
      refine ⟨[.calloc 1 sizeofPool (some p), .calloc (intToSize cnt) sizeofPtr (some q)] ++
        mmapLog pf (mapLength (bufferSize size align) cnt) ++ [.free p, .free q],
        by simp only [World.call, List.append_assoc, List.cons_append, List.nil_append],
        fun l => ?_⟩
      rw [Live.replay_append, Live.replay_append]
      change ((Live.replay { l with heap := q :: p :: l.heap } _).bind _) = some l
      rw [Live.replay_mmapLog hmap, Option.bind_some, Live.replay_free_two]
  | some b =>
      exact absurd ⟨not_not.mp hpow2, UInt64.not_lt.mp hsize, hpool, hqueue, hmap⟩ (hno p q b)

/-- A create that fails behind its `mmap` does not undo the `mmap`. -/
theorem mmap_kept_of_mapped (hm : Mapped pf size cnt align p q b)
    (h : bfSysDmaPoolCreate pf devId subdevId size cnt align w = (none, w')) :
    ∃ calls, w'.log = w.log ++ calls ∧
      .mmap (mapLength (bufferSize size align) cnt) (some b) ∈ calls ∧
      ∀ base len, .munmap base len ∉ calls := by
  rw [bfSysDmaPoolCreate, if_neg (not_not.mpr hm.pow2), if_neg (UInt64.not_lt.mpr hm.size_le)] at h
  simp only [hm.pool, hm.queue, allocHugePages_some _ hm.mapping] at h
  simp only [UInt64.add_sub_cancel] at h
  rw [load64_store64, ← pageCount] at h
  cases hinfo : pf.infoCalloc.answer (intToSize (pageCount (bufferSize size align) cnt))
      sizeofPageInfo with
  | none =>
      -- no memory for the page table: both blocks are freed, and an address in the mapping
      simp only [logVirtDmaAddr_none _ _ _ hinfo] at h
      refine ⟨[.calloc 1 sizeofPool (some p), .calloc (intToSize cnt) sizeofPtr (some q)] ++
        mmapLog pf (mapLength (bufferSize size align) cnt) ++
        [.calloc (intToSize (pageCount (bufferSize size align) cnt)) sizeofPageInfo none, .free p,
          .free q, .free (b + (headerOffset (bufferSize size align) cnt).toUInt64)],
        ?_, ?_, fun base len hmem => ?_⟩
      · rw [← (Prod.mk.inj h).2]
        simp only [World.call, List.append_assoc, List.cons_append, List.nil_append]
      · exact List.mem_append_left _ (List.mem_append_right _ (mem_mmapLog hm.mapping))
      · rw [List.mem_append, List.mem_append] at hmem
        rcases hmem with (hmem | hmem) | hmem
        · simp at hmem
        · exact munmap_not_mem_mmapLog base len hmem
        · simp at hmem
  | some infoBlock =>
      simp only [logVirtDmaAddr_some _ _ _ hinfo] at h
      by_cases hfirst : bfMemVirt2phy pf.pageSize pf.basePagemap
          (b + (headerOffset (bufferSize size align) cnt).toUInt64) = bfInvalidPhyAddr
      · -- no physical address: the page table is freed as well, the mapping still is not
        rw [if_pos hfirst] at h
        refine ⟨createLog pf devId subdevId size cnt align ⟨p, q, infoBlock, b⟩ ++ [.free p,
            .free q, .free (b + (headerOffset (bufferSize size align) cnt).toUInt64),
            .free infoBlock], ?_, ?_, fun base len hmem => ?_⟩
        · rw [← (Prod.mk.inj h).2, createLog]
          simp only [World.call, List.append_assoc]
          rfl
        · exact List.mem_append_left _ (List.mem_append_left _
            (List.mem_append_right _ (mem_mmapLog hm.mapping)))
        · rw [createLog, List.mem_append, List.mem_append, List.mem_append] at hmem
          rcases hmem with ((hmem | hmem) | hmem) | hmem
          · simp at hmem
          · exact munmap_not_mem_mmapLog base len hmem
          · rcases List.mem_cons.mp hmem with hmem | hmem
            · cases hmem
            · exact munmap_not_mem_mapLog devId subdevId 0 b _ base len hmem
          · simp at hmem
      · rw [if_neg hfirst] at h
        cases h

end Failures

/-! ## Clean failures -/

/-- A failed create releases what is live and of the right kind, once, and leaves live what was live
before. -/
def CleanFailure (pf : Platform) (devId : Int32) (subdevId : UInt32) (size : UInt64) (cnt : Int32)
    (align : UInt32) : Prop :=
  ∀ w w', bfSysDmaPoolCreate pf devId subdevId size cnt align w = (none, w') →
    ∃ calls, w'.log = w.log ++ calls ∧ ∀ l : Live, l.replay calls = some l

/-- A create never fails behind its `mmap`: the table of pages is allocated, and the physical address
of the first buffer is found. -/
def NeverFailsMapped (pf : Platform) (size : UInt64) (cnt : Int32) (align : UInt32) : Prop :=
  ∀ p q b, Mapped pf size cnt align p q b →
    (∃ i, pf.infoCalloc.answer (intToSize (pageCount (bufferSize size align) cnt)) sizeofPageInfo =
      some i) ∧
    bfMemVirt2phy pf.pageSize pf.basePagemap
      (b + (headerOffset (bufferSize size align) cnt).toUInt64) ≠ bfInvalidPhyAddr

/-- A create that fails behind its `mmap` leaves at least its mapping. -/
theorem not_cleanFailure {pf : Platform} {devId : Int32} {subdevId : UInt32} {size : UInt64}
    {cnt : Int32} {align : UInt32} {p q b : Addr} (hm : Mapped pf size cnt align p q b)
    (hfails : ∀ i, ¬Accepts pf size cnt align ⟨p, q, i, b⟩) :
    ¬CleanFailure pf devId subdevId size cnt align := by
  intro hclean
  have hnone : (bfSysDmaPoolCreate pf devId subdevId size cnt align ⟨[], fun _ => 0⟩).1 = none := by
    by_contra hsome
    obtain ⟨pool, hpool⟩ := Option.ne_none_iff_exists'.mp hsome
    obtain ⟨g, hg⟩ := exists_accepts devId subdevId _ hpool
    have hbase : g.base = b := Option.some_inj.mp (hg.mapping.symm.trans hm.mapping)
    exact hfails g.infoBlock ⟨hm.pow2, hm.size_le, hm.pool, hm.queue, hm.mapping, hg.info,
      hbase ▸ hg.first⟩
  obtain ⟨calls, hlog, hreplay⟩ := hclean ⟨[], fun _ => 0⟩ _ (Prod.ext hnone rfl)
  obtain ⟨calls', hlog', hmmap, hno⟩ := mmap_kept_of_mapped hm (Prod.ext hnone rfl)
  have hcalls : calls = calls' := List.append_cancel_left (hlog.symm.trans hlog')
  subst hcalls
  exact nomatch (Live.mem_regions hno (hreplay ⟨[], [], []⟩)).2 _ _ hmmap

/-- Failed creates are clean exactly when none fails behind its `mmap`. -/
theorem cleanFailure_iff (pf : Platform) (devId : Int32) (subdevId : UInt32) (size : UInt64)
    (cnt : Int32) (align : UInt32) :
    CleanFailure pf devId subdevId size cnt align ↔ NeverFailsMapped pf size cnt align := by
  constructor
  · intro hclean p q b hm
    by_contra hfails
    exact not_cleanFailure hm (fun i hi => hfails ⟨⟨i, hi.info⟩, hi.first⟩) hclean
  · intro hnever w w' hw
    refine replay_of_not_mapped (fun p q b hmapped => ?_) hw
    obtain ⟨⟨i, hinfo⟩, hfirst⟩ := hnever p q b hmapped
    have haccepts : Accepts pf size cnt align ⟨p, q, i, b⟩ :=
      ⟨hmapped.pow2, hmapped.size_le, hmapped.pool, hmapped.queue, hmapped.mapping, hinfo, hfirst⟩
    rw [create_of_accepts devId subdevId w haccepts] at hw
    cases hw

/-- The address of the first buffer cannot be read: the create frees it as a heap block, and keeps
the mapping. -/
theorem not_cleanFailure_base_unknown :
    ¬CleanFailure { Platform.granting (fun _ => .entry 1) none with basePagemap := fun _ => .readFails }
      0 0 64 2 64 := by
  have hm : Mapped { Platform.granting (fun _ => .entry 1) none with basePagemap := fun _ => .readFails }
      64 2 64 0x1000 0x2000 (2 ^ 30) := by
    constructor <;> decide
  exact not_cleanFailure hm fun i hi => hi.first rfl

end TargetSys.Dma
