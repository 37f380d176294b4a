import TargetSys.Dma.Clients

/-!
# The lifetime of a DMA pool

Reference: `src/bf_sal/linux_usr/bf_sys_dma_hugepages.c`, `bf_sys_dma_pool_create` and
`bf_sys_dma_pool_destroy`.

`free_huge_pages` takes neither the base nor the length of the mapping from the pool. It computes
the base from the header offset, and reads the length from the word that `alloc_huge_pages` has
stored there, in memory that the clients write to. The header keeps the buffers away from this word.

## Main results

* `SizeWord.of_run`: no run of clients changes the word.
* `bfSysDmaPool_balance`: destroying a pool undoes what creating it did, each call once.
-/

namespace TargetSys.Dma

open Transition ByteMemory

/-- The call that releases what a successful call has acquired. -/
def Call.undo : Call → Option Call
  | .calloc _ _ block => block.map .free
  | .mmap len base => base.map (.munmap · len)
  | .busMap devId subdevId _ size _ dma => some (.busUnmap devId subdevId dma size)
  | .free .. | .munmap .. | .busUnmap .. => none

/-- A `calloc` is undone by the `free` of its block. -/
theorem Call.undo_calloc (elem size : UInt64) (block : Addr) :
    (Call.calloc elem size (some block)).undo = some (.free block) := rfl

/-! ## What clients leave alone -/

section Runs

variable {κ : Type*} [DecidableEq κ] {pool₀ : BfHugePool} {base : Addr} {len : UInt64}
  {s t : ClientState κ} {e : ClientEvent κ} {es : List (ClientEvent κ)} {w : World}

/-- Allocations, frees and writes call neither the heap nor the kernel. -/
theorem ClientStep.log_eq (hstep : ClientStep s e t) : t.world.log = s.world.log := by
  cases hstep <;> rfl

/-- The clients make no calls to the platform. -/
theorem log_of_run (hrun : Run ClientStep (clientsInitial κ pool₀ w) es s) :
    s.world.log = w.log :=
  hrun.invariant (I := fun s => s.world.log = w.log) (fun _ _ _ h hstep => hstep.log_eq.trans h) rfl

/-- A byte of a buffer is not one of the first eight of the mapping. -/
theorem Layout.sizeWord_ne (hlayout : Layout pool₀ base) {v off : Addr} (hv : v ∈ pool₀.buffers)
    (hoff : off < pool₀.bufSize) {i : ℕ} (hi : i < 8) : base + UInt64.ofNat i ≠ v + off := by
  obtain ⟨k, hk, rfl⟩ := List.mem_map.mp hv
  obtain ⟨haddr, hend⟩ := hlayout.toNat_bufAddr (List.mem_range.mp hk)
  have hheader := hlayout.header
  have hspace := hlayout.in_user_space
  rw [UInt64.lt_iff_toNat_lt] at hoff
  have hi64 : (UInt64.ofNat i).toNat = i := UInt64.toNat_ofNat_of_lt' (by
    simp only [UInt64.size]
    omega)
  rw [Ne, ← UInt64.toNat_inj, UInt64.toNat_add, UInt64.toNat_add, hi64, haddr,
    Nat.mod_eq_of_lt (by omega), Nat.mod_eq_of_lt (by omega)]
  omega

/-- The pool is in place, and its size word holds `len`. -/
structure SizeWord (pool₀ : BfHugePool) (base : Addr) (len : UInt64) (s : ClientState κ) : Prop
    extends InPlace pool₀ s where
  word : load64 s.world.mem base = len

/-- A call of a client keeps the word with the size. -/
theorem SizeWord.step (hlayout : Layout pool₀ base) (h : SizeWord pool₀ base len s)
    (hstep : ClientStep s e t) : SizeWord pool₀ base len t := by
  refine ⟨h.toInPlace.step hstep, ?_⟩
  cases hstep with
  | alloc c size hsize => exact h.word
  | free hmem => exact h.word
  | @write c v off b hmem hoff =>
      have hsize : s.pool.bufSize = pool₀.bufSize := by
        rw [h.tables]
      rw [hsize] at hoff
      rw [← h.word]
      refine load64_congr fun i hi => ?_
      exact Function.update_of_ne (hlayout.sizeWord_ne (h.held _ hmem) hoff hi) ..

/-- **The size word.** No run of clients that write to the buffers they hold changes it. -/
theorem SizeWord.of_run (hlayout : Layout pool₀ base) (hfresh : Fresh pool₀)
    (hrun : Run ClientStep (clientsInitial κ pool₀ w) es s) (hword : load64 w.mem base = len) :
    SizeWord pool₀ base len s :=
  hrun.invariant (fun _ _ _ h hstep => h.step hlayout hstep)
    ⟨InPlace.initial hlayout hfresh w, hword⟩

end Runs

/-! ## What destroy does -/

section Destroy

variable {pool : BfHugePool} {base : Addr} {len : UInt64} {w : World}

/-- The calls of the unmap function for a table. -/
def unmapLog (devId : Int32) (subdevId : UInt32) (pages : List HugePageInfo) : List Call :=
  pages.map fun page => .busUnmap devId subdevId page.baseDmaAddr bfHugePageSize

/-- The loop unmaps the pages of the table from the `i`-th one on. -/
theorem unmapLoop_eq (devId : Int32) (subdevId : UInt32) (pages : List HugePageInfo) (n i : ℕ)
    (hn : i + n = pages.length) (w : World) :
    unmapLoop devId subdevId pages n i w =
      some { w with log := w.log ++ unmapLog devId subdevId (pages.drop i) } := by
  induction n generalizing i w with
  | zero =>
      have hdrop : pages.drop i = [] := List.drop_eq_nil_of_le (by omega)
      simp [unmapLoop, unmapLog, hdrop]
  | succ n ih =>
      have hi : i < pages.length := by omega
      simp only [unmapLoop, List.getElem?_eq_getElem hi]
      rw [ih (i + 1) (by omega), List.drop_eq_getElem_cons hi]
      simp only [unmapLog, World.call, List.map_cons, List.append_assoc, List.singleton_append]

/-- The calls that destroy a pool mapped at `base` with length `len`. -/
def destroyLog (pool : BfHugePool) (base : Addr) (len : UInt64) : List Call :=
  unmapLog pool.devId pool.subdevId pool.hugePageInfo ++
    [.munmap base len, .free pool.queueBlock, .free pool.infoBlock, .free pool.block]

/-- A laid out pool whose size word is intact is destroyed without a read behind its table, with or
without an unmap function. -/
theorem bfSysDmaPoolDestroy_of_layout (unmapFn : Bool) (hlayout : Layout pool base)
    (hlen : len.toNat = pool.hugePageInfo.length * 2 ^ 21) (hword : load64 w.mem base = len) :
    bfSysDmaPoolDestroy unmapFn pool w =
      some { w with log := w.log ++
        ((if unmapFn then unmapLog pool.devId pool.subdevId pool.hugePageInfo else []) ++
          [.munmap base len, .free pool.queueBlock, .free pool.infoBlock, .free pool.block]) } := by
  have hspace := hlayout.in_user_space
  have hptr : pool.poolPtr ≠ 0 := by
    have hstart := hlayout.toNat_bufStart
    have hheader := hlayout.header
    rw [hlayout.poolPtr, Ne, ← UInt64.toNat_inj, hstart, UInt64.toNat_zero]
    omega
  have hbase : pool.poolPtr - pool.poolHdrOffset.toUInt64 = base := by
    rw [hlayout.poolPtr, hlayout.bufStart, UInt64.add_sub_cancel]
  -- destroy counts the pages from the size word, and create from the sizes
  have hpages : (sizeToInt (len / bfHugePageSize)).toInt.toNat = pool.hugePageInfo.length := by
    have hdiv : (len / bfHugePageSize).toNat = pool.hugePageInfo.length := by
      rw [UInt64.toNat_div, hlen, toNat_bfHugePageSize, Nat.mul_div_cancel _ (by simp)]
    rw [toInt_sizeToInt (by omega), hdiv, Int.toNat_natCast]
  rw [bfSysDmaPoolDestroy, freeHugePages, if_neg hptr]
  simp only [hbase, hword, hpages]
  cases unmapFn with
  | true =>
      rw [if_pos rfl, unmapLoop_eq _ _ _ _ 0 (Nat.zero_add _), if_pos rfl]
      simp only [Option.map_some, World.call, List.drop_zero, List.append_assoc, List.cons_append,
        List.nil_append]
  | false =>
      rw [if_neg Bool.false_ne_true, unmapLoop, if_neg Bool.false_ne_true]
      simp only [Option.map_some, World.call, List.append_assoc, List.cons_append, List.nil_append]

/-- The calls that destroy makes, which depend on the size word. -/
theorem bfSysDmaPoolDestroy_eq (hlayout : Layout pool base)
    (hlen : len.toNat = pool.hugePageInfo.length * 2 ^ 21) (hword : load64 w.mem base = len) :
    bfSysDmaPoolDestroy true pool w =
      some { w with log := w.log ++ destroyLog pool base len } :=
  bfSysDmaPoolDestroy_of_layout true hlayout hlen hword

end Destroy

/-! ## Create and destroy -/

section Balance

variable {pf : Platform} {f : ℕ → UInt64 → Int32 × UInt64} {base : Addr} {len : UInt64}

/-- Of the attempts to map, one succeeds. -/
theorem filterMap_mmapLog (h : mmapBase pf len = some base) :
    (mmapLog pf len).filterMap Call.undo = [.munmap base len] := by
  rw [mmapBase] at h
  rw [mmapLog]
  cases h2M : pf.mmap2M.answer len with
  | some p =>
      rw [h2M, Option.some_or, Option.some.injEq] at h
      subst h
      rfl
  | none =>
      rw [h2M, Option.none_or] at h
      rw [h]
      rfl

/-- The unmap calls for a table undo the map calls that filled it. -/
theorem filterMap_mapLog (hmap : pf.mapFn = some f) (devId : Int32) (subdevId : UInt32) (i : ℕ)
    (ptr : Addr) (n : ℕ) :
    (mapLog pf devId subdevId i ptr n).filterMap Call.undo =
      unmapLog devId subdevId (pageTable pf i ptr n) := by
  simp only [mapLog, unmapLog, pageTable, mapCalls, pageDma, hmap, List.filterMap_flatMap,
    List.map_map, List.filterMap_cons, List.filterMap_nil, Call.undo]
  exact List.map_eq_flatMap.symm

variable {size : UInt64} {cnt : Int32} {align : UInt32} {g : Grant}

/-- The order in which destroy releases, against the one in which create asks. -/
theorem perm_release {α : Type*} (pages : List α) (mapping queue info pool : α) :
    (pages ++ [mapping, queue, info, pool]).Perm ([pool, queue] ++ [mapping] ++ info :: pages) :=
  calc pages ++ [mapping, queue, info, pool]
    List.Perm _ ([mapping, queue, info, pool] ++ pages) := List.perm_append_comm
    List.Perm _ ([pool, queue, mapping, info] ++ pages) := List.Perm.append_right pages
      ((List.perm_append_singleton pool [mapping, queue, info]).trans
        (.cons pool (.swap queue mapping [info])))

/-- What destroy calls is what undoes a create, in another order. -/
theorem destroyLog_perm (hg : Accepts pf size cnt align g) (hmap : pf.mapFn = some f)
    (devId : Int32) (subdevId : UInt32) :
    (destroyLog (createdPool pf devId subdevId size cnt align g) g.base
      (mapLength (bufferSize size align) cnt)).Perm
      ((createLog pf devId subdevId size cnt align g).filterMap Call.undo) := by
  have hundo : (createLog pf devId subdevId size cnt align g).filterMap Call.undo =
      [.free g.poolBlock, .free g.queueBlock] ++
        [.munmap g.base (mapLength (bufferSize size align) cnt)] ++
        .free g.infoBlock :: unmapLog devId subdevId
          (pageTable pf 0 g.base (pageCount (bufferSize size align) cnt).toInt.toNat) := by
    simp only [createLog]
    rw [List.filterMap_append, List.filterMap_append, filterMap_mmapLog hg.mapping,
      List.filterMap_cons_some (Call.undo_calloc ..),
      List.filterMap_cons_some (Call.undo_calloc ..), List.filterMap_nil,
      List.filterMap_cons_some (Call.undo_calloc ..), filterMap_mapLog hmap]
  rw [hundo]
  exact perm_release ..

end Balance

/-- **Create and destroy balance.** A pool is created with a map function registered, and used by
any clients. The size word at the start of its mapping still holds the length given to `mmap`, and
destroying the pool with an unmap function registered makes the calls that undo the calls of create,
each exactly once and nothing else. -/
theorem bfSysDmaPool_balance {κ : Type*} [DecidableEq κ] {pf : Platform}
    {f : ℕ → UInt64 → Int32 × UInt64} {devId : Int32} {subdevId : UInt32} {size : UInt64}
    {cnt : Int32} {align : UInt32} {w w' : World} {pool : BfHugePool} (hmap : pf.mapFn = some f)
    (hcreate : bfSysDmaPoolCreate pf devId subdevId size cnt align w = (some pool, w'))
    {es : List (ClientEvent κ)} {s : ClientState κ}
    (hrun : Run ClientStep (clientsInitial κ pool w') es s) :
    ∃ created destroyed base len,
      w'.log = w.log ++ created ∧ s.world.log = w'.log ∧
      .mmap len (some base) ∈ created ∧ load64 s.world.mem base = len ∧
      bfSysDmaPoolDestroy true s.pool s.world =
        some { s.world with log := s.world.log ++ destroyed } ∧
      destroyed.Perm (created.filterMap Call.undo) := by
  obtain ⟨g, hg, rfl, rfl⟩ := create_some devId subdevId w hcreate
  have hlayout := hg.layout devId subdevId
  have hword : SizeWord (createdPool pf devId subdevId size cnt align g) g.base
      (mapLength (bufferSize size align) cnt) s :=
    SizeWord.of_run hlayout (createdPool_fresh ..) hrun (load64_store64 ..)
  -- the clients have changed the free list only
  have hlayout' : Layout s.pool g.base := by
    rw [hword.tables]
    exact hlayout.setFreeList hword.bufCnt
  have hpages : (mapLength (bufferSize size align) cnt).toNat =
      s.pool.hugePageInfo.length * 2 ^ 21 := by
    rw [hword.tables]
    exact hg.length_pageTable.symm
  have hdestroyed : destroyLog s.pool g.base (mapLength (bufferSize size align) cnt) =
      destroyLog (createdPool pf devId subdevId size cnt align g) g.base
        (mapLength (bufferSize size align) cnt) := by
    rw [hword.tables]
    rfl
  refine ⟨createLog pf devId subdevId size cnt align g,
    destroyLog s.pool g.base (mapLength (bufferSize size align) cnt), g.base,
    mapLength (bufferSize size align) cnt, rfl, log_of_run hrun, ?_, hword.word,
    bfSysDmaPoolDestroy_eq hlayout' hpages hword.word, ?_⟩
  · rw [createLog]
    exact List.mem_append_left _ (List.mem_append_right _ (mem_mmapLog hg.mapping))
  · rw [hdestroyed]
    exact destroyLog_perm hg hmap devId subdevId

/-- Two buffers of 64 bytes; a client takes one, writes its first byte, and leaves. -/
theorem bfSysDmaPool_balance_one :
    ∃ (pool : BfHugePool) (w : World) (es : List (ClientEvent Bool)) (s : ClientState Bool)
      (created destroyed : List Call),
      bfSysDmaPoolCreate (.granting (fun _ => .entry 1) (some fun _ phys => (0, phys))) 0 0 64 2 64
        ⟨[], fun _ => 0⟩ = (some pool, w) ∧
      Run ClientStep (clientsInitial Bool pool w) es s ∧ es.length = 2 ∧ w.log = [] ++ created ∧
      bfSysDmaPoolDestroy true s.pool s.world =
        some { s.world with log := s.world.log ++ destroyed } ∧
      destroyed.Perm (created.filterMap Call.undo) := by
  have hg : Accepts (.granting (fun _ => .entry 1) (some fun _ phys => (0, phys))) 64 2 64
      .granting := by
    constructor <;> decide
  obtain ⟨pool, w, hpool, hcreate⟩ : ∃ pool w, pool = createdPool
      (.granting (fun _ => .entry 1) (some fun _ phys => (0, phys))) 0 0 64 2 64 .granting ∧
      bfSysDmaPoolCreate (.granting (fun _ => .entry 1) (some fun _ phys => (0, phys))) 0 0 64 2 64
        ⟨[], fun _ => 0⟩ = (some pool, w) := ⟨_, _, rfl, create_of_accepts 0 0 _ hg⟩
  have hsize : pool.bufSize = 64 := by
    rw [hpool]
    decide
  -- a client takes the first buffer and writes its first word
  have hok : (bfSysDmaAlloc pool 64).1 = .ok (2 ^ 30 + 4096) 8192 := by
    rw [hpool]
    decide
  have hsize' : (64 : UInt64) ≤ pool.bufSize := by
    rw [hsize]
    decide
  have halloc : ClientStep (clientsInitial Bool pool w) _ _ := .alloc true 64 hsize'
  have hheld : (true, 2 ^ 30 + 4096) ∈ receive true [] (bfSysDmaAlloc pool 64).1 := by
    rw [hok]
    exact List.mem_cons_self
  have hwrite := ClientStep.write (s := ⟨(bfSysDmaAlloc pool 64).2, w,
    receive true [] (bfSysDmaAlloc pool 64).1⟩) 0 7 hheld (by
      rw [bfSysDmaAlloc_snd, hsize]
      decide)
  have hrun := (Run.single halloc).snoc hwrite
  obtain ⟨created, destroyed, -, -, hcreated, -, -, -, hdestroy, hperm⟩ :=
    bfSysDmaPool_balance rfl hcreate hrun
  exact ⟨_, _, _, _, created, destroyed, hcreate, hrun, rfl, hcreated, hdestroy, hperm⟩

end TargetSys.Dma
