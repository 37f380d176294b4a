import TargetSys.Dma.Platform

/-!
# DMA pools

Reference: `src/bf_sal/linux_usr/bf_sys_dma_hugepages.c`.

The functions of the library as they compute, with C's conversions between `size_t`, `unsigned` and
`int`. `assert` is compiled out, as in the build type that the project sets. A read behind the table
of huge pages is undefined in C; the functions that could make one return `none` there.

The pool's name, its number and its file descriptor are never read and are left out.
-/

namespace TargetSys.Dma

open ByteMemory

/-- `bf_huge_page_info_t`. -/
structure HugePageInfo where
  baseDmaAddr : UInt64
  baseVirtAddr : Addr
deriving DecidableEq, Repr

/-- `bf_huge_pool_t`, with the contents of its two tables and the addresses of its three blocks. -/
structure BfHugePool extends FreeList where
  block : Addr
  poolInited : Int32
  hdrSize : UInt64
  poolPtr : Addr
  bufStart : Addr
  bufSize : UInt64
  alignment : Int32
  queueBlock : Addr
  basePhyAddr : UInt64
  hugePageInfo : List HugePageInfo
  infoBlock : Addr
  numHugePages : Int32
  poolHdrOffset : UInt32
  devId : Int32
  subdevId : UInt32
deriving DecidableEq, Repr

/-! ## Conversions -/

/-- An `int` used as a `size_t`. -/
def intToSize (n : Int32) : UInt64 := n.toInt64.toUInt64

/-- A `size_t` kept in an `int`. -/
def sizeToInt (n : UInt64) : Int32 := n.toUInt32.toInt32

/-- The element at an `int` index of a table. -/
def tableGet {α : Type*} (table : List α) (i : Int32) : Option α :=
  if 0 ≤ i.toInt then table[i.toInt.toNat]? else none

/-! ## Layout -/

/-- `conv_to_next_aligned`. -/
def convToNextAligned (val alignment : UInt32) : UInt32 :=
  if val &&& (alignment - 1) ≠ 0 then (val + alignment) &&& ~~~(alignment - 1) else val

/-- `ALIGN_TO_BF_PAGE_SIZE`. -/
def alignToBfPageSize (x : UInt64) : UInt64 :=
  (x + bfHugePageSize - 1) / bfHugePageSize * bfHugePageSize

/-- The size of one buffer: `size = conv_to_next_aligned(size, align)`. -/
def bufferSize (size : UInt64) (align : UInt32) : UInt64 :=
  (convToNextAligned size.toUInt32 align).toUInt64

/-- The choice of `header_offset`, for buffers of the final size. -/
def headerOffset (size : UInt64) (cnt : Int32) : UInt32 :=
  if size * intToSize cnt + poolHdrSize.toUInt64 > bfHugePageSize then
    convToNextAligned size.toUInt32 poolHdrSize
  else poolHdrSize

/-! ## Creating a pool -/

/-- The two attempts of `alloc_huge_pages` to map `actual_size` bytes. -/
def mmapHugePages (pf : Platform) (actualSize : UInt64) (w : World) : Option Addr × World :=
  let w := w.call (.mmap actualSize (pf.mmap2M.answer actualSize))
  match pf.mmap2M.answer actualSize with
  | some ptr => (some ptr, w)
  | none =>
      (pf.mmapDefault.answer actualSize,
        w.call (.mmap actualSize (pf.mmapDefault.answer actualSize)))

/-- `alloc_huge_pages`. -/
def allocHugePages (pf : Platform) (size : UInt64) (headerOffset : UInt32) (w : World) :
    Option Addr × World :=
  let actualSize := alignToBfPageSize (size + headerOffset.toUInt64)
  match mmapHugePages pf actualSize w with
  | (none, w) => (none, w)
  | (some ptr, w) =>
      (some (ptr + headerOffset.toUInt64), { w with mem := store64 w.mem ptr actualSize })

/-- The DMA address of page `i`, and the world after the bus map function has been asked for it. A
status other than 0 is only reported. -/
def mapPage (pf : Platform) (devId : Int32) (subdevId : UInt32) (i : ℕ) (hugePtr : Addr)
    (w : World) : UInt64 × World :=
  let phys := bfMemVirt2dma pf.pageSize (pf.pagemap i) hugePtr
  match pf.mapFn with
  | none => (phys, w)
  | some f =>
      ((f i phys).2, w.call (.busMap devId subdevId phys bfHugePageSize (f i phys).1 (f i phys).2))

/-- The loop of `log_virt_dma_addr`, with `n` pages to go from page `i` on. -/
def logVirtDmaLoop (pf : Platform) (devId : Int32) (subdevId : UInt32) :
    ℕ → ℕ → Addr → World → List HugePageInfo × World
  | 0, _, _, w => ([], w)
  | n + 1, i, hugePtr, w =>
      let (dma, w) := mapPage pf devId subdevId i hugePtr w
      let (pages, w) := logVirtDmaLoop pf devId subdevId n (i + 1) (hugePtr + bfHugePageSize) w
      (⟨dma, hugePtr⟩ :: pages, w)

/-- `log_virt_dma_addr`: the block of the table and its contents. -/
def logVirtDmaAddr (pf : Platform) (devId : Int32) (subdevId : UInt32) (ptr : Addr) (cnt : Int32)
    (w : World) : Option (Addr × List HugePageInfo) × World :=
  let answer := pf.infoCalloc.answer (intToSize cnt) sizeofPageInfo
  let w := w.call (.calloc (intToSize cnt) sizeofPageInfo answer)
  match answer with
  | none => (none, w)
  | some block =>
      let (pages, w) := logVirtDmaLoop pf devId subdevId cnt.toInt.toNat 0 ptr w
      (some (block, pages), w)

/-- The loop that fills the queue: `n` buffers of the given size from `bufPtr` on. -/
def freeQueue (size : UInt64) : ℕ → Addr → List Addr
  | 0, _ => []
  | n + 1, bufPtr => bufPtr :: freeQueue size n (bufPtr + size)

/-- `bf_sys_dma_pool_create`. `none` is the return of -1, with `*hndl` unwritten. -/
def bfSysDmaPoolCreate (pf : Platform) (devId : Int32) (subdevId : UInt32) (size : UInt64)
    (cnt : Int32) (align : UInt32) (w : World) : Option BfHugePool × World :=
  if align &&& (align - 1) ≠ 0 then (none, w)
  else if size > bfHugePageSize then (none, w)
  else
    let size := bufferSize size align
    let answer := pf.poolCalloc.answer 1 sizeofPool
    let w := w.call (.calloc 1 sizeofPool answer)
    match answer with
    | none => (none, w)
    | some dmaPool =>
    let answer := pf.queueCalloc.answer (intToSize cnt) sizeofPtr
    let w := w.call (.calloc (intToSize cnt) sizeofPtr answer)
    match answer with
    | none => (none, w.call (.free dmaPool))
    | some vbufQ =>
    let headerOffset := headerOffset size cnt
    match allocHugePages pf (size * intToSize cnt) headerOffset w with
    | (none, w) => (none, (w.call (.free dmaPool)).call (.free vbufQ))
    | (some vhuge, w) =>
    let hugePtr := vhuge - headerOffset.toUInt64
    let allocedSize := load64 w.mem hugePtr
    let numHugePages := sizeToInt (allocedSize / bfHugePageSize)
    match logVirtDmaAddr pf devId subdevId hugePtr numHugePages w with
    | (none, w) => (none, ((w.call (.free dmaPool)).call (.free vbufQ)).call (.free vhuge))
    | (some (infoBlock, pages), w) =>
    let basePhyAddr := bfMemVirt2phy pf.pageSize pf.basePagemap vhuge
    if basePhyAddr = bfInvalidPhyAddr then
      (none, (((w.call (.free dmaPool)).call (.free vbufQ)).call (.free vhuge)).call
        (.free infoBlock))
    else
      (some {
        bufCnt := cnt
        poolBufPtr := freeQueue size cnt.toInt.toNat vhuge
        poolBufOffset := 0
        poolGate := 0
        block := dmaPool
        poolInited := 1
        hdrSize := poolHdrSize.toUInt64
        poolPtr := vhuge
        bufStart := vhuge
        bufSize := size
        alignment := align.toInt32
        queueBlock := vbufQ
        basePhyAddr := basePhyAddr
        hugePageInfo := pages
        infoBlock := infoBlock
        numHugePages := numHugePages
        poolHdrOffset := headerOffset
        devId := devId
        subdevId := subdevId }, w)

/-! ## Destroying a pool -/

/-- The loop of `free_huge_pages` over the bus unmap function, with `n` pages to go from page `i`
on. A status other than 0 is only reported. -/
def unmapLoop (devId : Int32) (subdevId : UInt32) (pages : List HugePageInfo) :
    ℕ → ℕ → World → Option World
  | 0, _, w => some w
  | n + 1, i, w =>
      match pages[i]? with
      | none => none
      | some page =>
          unmapLoop devId subdevId pages n (i + 1)
            (w.call (.busUnmap devId subdevId page.baseDmaAddr bfHugePageSize))

/-- `free_huge_pages`. `unmapFn` says whether an unmap function is registered. -/
def freeHugePages (unmapFn : Bool) (devId : Int32) (subdevId : UInt32)
    (baseHugePage : List HugePageInfo) (ptr : Addr) (headerOffset : UInt32) (w : World) :
    Option World :=
  if ptr = 0 then some w
  else
    let hugePtr := ptr - headerOffset.toUInt64
    let actualSize := load64 w.mem hugePtr
    let n := if unmapFn then (sizeToInt (actualSize / bfHugePageSize)).toInt.toNat else 0
    (unmapLoop devId subdevId baseHugePage n 0 w).map (·.call (.munmap hugePtr actualSize))

/-- `bf_sys_dma_pool_destroy`. -/
def bfSysDmaPoolDestroy (unmapFn : Bool) (pool : BfHugePool) (w : World) : Option World :=
  (freeHugePages unmapFn pool.devId pool.subdevId pool.hugePageInfo pool.poolPtr pool.poolHdrOffset
    w).map fun w =>
      ((w.call (.free pool.queueBlock)).call (.free pool.infoBlock)).call (.free pool.block)

/-! ## Addresses -/

/-- `page_index` of `bf_sys_dma_get_phy_addr_from_pool`. -/
def BfHugePool.pageIndex (pool : BfHugePool) (vAddr : Addr) : Int32 :=
  let poolBaseVaddr := pool.bufStart - pool.poolHdrOffset.toUInt64
  sizeToInt ((vAddr - poolBaseVaddr) / bfHugePageSize)

/-- `bf_sys_dma_get_phy_addr_from_pool`. -/
def bfSysDmaGetPhyAddrFromPool (pool : BfHugePool) (vAddr : Addr) : Option UInt64 :=
  match tableGet pool.hugePageInfo (pool.pageIndex vAddr) with
  | none => none
  | some page => some (page.baseDmaAddr + (vAddr - page.baseVirtAddr))

/-- `bf_mem_dma2virt`. `none` is `NULL`. -/
def bfMemDma2virt (pool : BfHugePool) (dmaAddr : UInt64) : Option Addr :=
  let pages := pool.hugePageInfo.take pool.numHugePages.toInt.toNat
  match pages.find? fun page =>
      page.baseDmaAddr ≤ dmaAddr ∧ dmaAddr < page.baseDmaAddr + bfHugePageSize with
  | none => none
  | some page => some (page.baseVirtAddr + (dmaAddr - page.baseDmaAddr))

/-- `bf_sys_dma_buffer_index`. `none` is the division by zero. -/
def bfSysDmaBufferIndex (pool : BfHugePool) (vAddr : Addr) : Option Int32 :=
  if pool.bufSize = 0 then none else some (sizeToInt ((vAddr - pool.poolPtr) / pool.bufSize))

/-! ## Buffers -/

/-- What `bf_sys_dma_alloc` returns: -1 or 0, with `*v_addr` and `*phys_addr`. -/
inductive AllocResult
  | failed (vAddr : Addr) (phys : UInt64)
  | ok (vAddr : Addr) (phys : UInt64)
  | outOfTable
deriving DecidableEq, Repr

/-- `bf_sys_dma_alloc`. The requested size is only asserted upon. -/
def bfSysDmaAlloc (pool : BfHugePool) (_size : UInt64) : AllocResult × BfHugePool :=
  match bfPopFreeBuf pool.toFreeList with
  | (none, fl) => (.failed 0 0, { pool with toFreeList := fl })
  | (some vAddr, fl) =>
      let pool := { pool with toFreeList := fl }
      match bfSysDmaGetPhyAddrFromPool pool vAddr with
      | none => (.outOfTable, pool)
      | some phys => (if phys = bfInvalidPhyAddr then .failed vAddr phys else .ok vAddr phys, pool)

/-- `bf_sys_dma_free`, with the error code of its push, which it drops. -/
def bfSysDmaFree (pool : BfHugePool) (vAddr : Addr) : Bool × BfHugePool :=
  let (accepted, fl) := bfPushFreeBuf pool.toFreeList vAddr
  (accepted, { pool with toFreeList := fl })

/-! ## A pool of one buffer -/

/-- What `bf_sys_dma_buffer_alloc` returns, and what it leaves in `*hndl`, `*v_addr` and
`*phys_addr`. -/
structure BufferAllocResult where
  status : Int32
  hndl : Addr
  vAddr : Addr
  physAddr : UInt64
deriving DecidableEq, Repr

/-- `bf_sys_dma_buffer_alloc`, where `*hndl` holds `hndl` before. `none` is a read behind a table. -/
def bfSysDmaBufferAlloc (pf : Platform) (unmapFn : Bool) (devId : Int32) (subdevId : UInt32)
    (size : UInt64) (hndl : Addr) (w : World) : Option (BufferAllocResult × World) :=
  match bfSysDmaPoolCreate pf devId subdevId size 1 64 w with
  | (none, w) => some (⟨-1, hndl, 0, 0⟩, w)
  | (some pool, w) =>
      match bfSysDmaAlloc pool size with
      | (.outOfTable, _) => none
      | (.ok vAddr phys, pool) => some (⟨0, pool.block, vAddr, phys⟩, w)
      | (.failed vAddr phys, pool) =>
          (bfSysDmaPoolDestroy unmapFn pool w).map fun w => (⟨-1, pool.block, vAddr, phys⟩, w)

end TargetSys.Dma
