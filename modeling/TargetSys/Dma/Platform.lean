import TargetSys.Common.ByteMemory
import TargetSys.Dma.FreeList

/-!
# What a DMA pool asks of the platform

Reference: `src/bf_sal/linux_usr/bf_sys_dma_hugepages.c`, `include/target-sys/bf_sal/bf_sys_dma.h`.

`Platform` holds the answers of everything the library calls while it creates a pool: the heap, one
answer for each of the three allocations; `mmap`; `/proc/self/pagemap`, one outcome for each lookup;
and the bus map function, if one is registered. Each may fail independently of the others. `World`
is what the library leaves behind: the calls it has made, and the bytes in memory.
-/

namespace TargetSys.Dma

open ByteMemory

/-- `BF_HUGE_PAGE_SIZE`. -/
def bfHugePageSize : UInt64 := 2 * 1024 * 1024

/-- `POOL_HDR_SIZE`. -/
def poolHdrSize : UInt32 := 4 * 1024

/-- `BF_INVALID_PHY_ADDR`, which is also `BF_INVALID_DMA_ADDR`. -/
def bfInvalidPhyAddr : UInt64 := 0xFFFFFFFFFFFFFFFF

/-- `sizeof(bf_huge_pool_t)`, `sizeof(void *)` and `sizeof(bf_huge_page_info_t)`. -/
def sizeofPool : UInt64 := 184
def sizeofPtr : UInt64 := 8
def sizeofPageInfo : UInt64 := 16

/-- A call to the heap, to the kernel or to a registered function, with its answer. `none` is `NULL`
or `MAP_FAILED`. -/
inductive Call
  | calloc (elem size : UInt64) (block : Option Addr)
  | free (block : Addr)
  | mmap (len : UInt64) (base : Option Addr)
  | munmap (base : Addr) (len : UInt64)
  | busMap (devId : Int32) (subdevId : UInt32) (phys size : UInt64) (status : Int32) (dma : UInt64)
  | busUnmap (devId : Int32) (subdevId : UInt32) (dma size : UInt64)
deriving DecidableEq, Repr

/-- The calls made so far, and the memory. -/
structure World where
  log : List Call
  mem : Memory

/-- The world after one more call. -/
def World.call (w : World) (c : Call) : World := { w with log := w.log ++ [c] }

/-- One `bf_sys_calloc`, by the number of elements and the size of one. A table whose size a `size_t`
cannot hold is refused. -/
structure Calloc where
  answer : UInt64 → UInt64 → Option Addr
  fits : ∀ elem size p, answer elem size = some p → elem.toNat * size.toNat < 2 ^ 64

/-- `mmap` of anonymous huge pages, by the length asked for. A mapping begins at a huge page and
lies in the 47-bit address space of a process. -/
structure Mmap where
  answer : UInt64 → Option Addr
  aligned : ∀ len p, answer len = some p → bfHugePageSize.toNat ∣ p.toNat
  in_user_space : ∀ len p, answer len = some p → p.toNat + len.toNat ≤ 2 ^ 47

/-- The outcome of one lookup in `/proc/self/pagemap`, at some offset. -/
inductive Pagemap
  | openFails
  | lseekFails
  | readFails
  | entry (page : UInt64)
deriving DecidableEq, Repr

/-- The answers of the platform during one `bf_sys_dma_pool_create`. Each lookup in the page map, one
for every page and one for the first buffer, is answered by the offset that it looks at. The bus map
function receives the physical address of page `i` and answers with its status and with what it has
put where the DMA address belongs. -/
structure Platform where
  pageSize : UInt64
  poolCalloc : Calloc
  queueCalloc : Calloc
  infoCalloc : Calloc
  mmap2M : Mmap
  mmapDefault : Mmap
  pagemap : ℕ → UInt64 → Pagemap
  basePagemap : UInt64 → Pagemap
  mapFn : Option (ℕ → UInt64 → Int32 × UInt64)

/-- The offset of the entry of an address in `/proc/self/pagemap`: an entry has 8 bytes, and there is
one for each page. -/
def pagemapOffset (pageSize : UInt64) (virtaddr : Addr) : UInt64 :=
  let virtPfn := virtaddr / pageSize
  8 * virtPfn

/-- `bf_mem_virt2phy`, given what the page map answers at each offset. -/
def bfMemVirt2phy (pageSize : UInt64) (lookup : UInt64 → Pagemap) (virtaddr : Addr) : UInt64 :=
  match lookup (pagemapOffset pageSize virtaddr) with
  | .openFails | .lseekFails | .readFails => bfInvalidPhyAddr
  | .entry page => (page &&& 0x7fffffffffffff) * pageSize + virtaddr % pageSize

/-- `bf_mem_virt2dma`. -/
def bfMemVirt2dma (pageSize : UInt64) (lookup : UInt64 → Pagemap) (virtaddr : Addr) : UInt64 :=
  let dmaAddr := bfMemVirt2phy pageSize lookup virtaddr
  if dmaAddr = bfInvalidPhyAddr then bfInvalidPhyAddr else dmaAddr

end TargetSys.Dma
