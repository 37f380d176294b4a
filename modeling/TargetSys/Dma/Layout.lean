import TargetSys.Common.Align
import TargetSys.Dma.Pool

/-!
# The layout of a created pool

What a successful `bf_sys_dma_pool_create` has computed, over the natural numbers: the size of a
buffer, the header offset, the length of the mapping, the page table and the queue. Nothing wraps,
since a mapping lies in the 47-bit address space of a process.

## Main results

* `create_some`: what a successful create has checked, called, stored and returned.
* `Accepts.layout`: the numbers of the layout.
-/

namespace TargetSys.Dma

open ByteMemory Align

/-! ## Machine numbers -/

/-- A huge page has 2 MiB. -/
theorem toNat_bfHugePageSize : bfHugePageSize.toNat = 2 ^ 21 := rfl

/-- The header has 4 KiB. -/
theorem toNat_poolHdrSize : poolHdrSize.toNat = 2 ^ 12 := rfl

/-- A count that is not negative is the same number without its sign. -/
theorem toNat_toUInt32_of_nonneg {n : Int32} (h : 0 ≤ n.toInt) :
    n.toUInt32.toNat = n.toInt.toNat :=
  Int32.toNat_toUInt32_of_le (Int32.le_iff_toInt_le.mpr h)

/-- An `int` that is not negative is the same number as a `size_t`. -/
theorem toNat_intToSize {n : Int32} (h : 0 ≤ n.toInt) : (intToSize n).toNat = n.toInt.toNat := by
  have h64 : 0 ≤ n.toInt64 := by
    rw [Int64.le_iff_toInt_le, Int32.toInt_toInt64]
    exact h
  rw [intToSize, Int64.toNat_toUInt64_of_le h64, Int32.toNatClampNeg_toInt64]
  rfl

/-- A table of a negative number of pointers does not fit. -/
theorem nonneg_of_fits {n : Int32} (h : (intToSize n).toNat * sizeofPtr.toNat < 2 ^ 64) :
    0 ≤ n.toInt := by
  by_contra hneg
  rw [Int.not_le, ← Int32.toInt_toInt64, ← Int64.toInt_toBitVec, BitVec.toInt_neg_iff] at hneg
  have hsize : (intToSize n).toNat = n.toInt64.toBitVec.toNat := rfl
  rw [hsize, show sizeofPtr.toNat = 8 from rfl] at h
  omega

/-- A `size_t` that an `int` can hold. -/
theorem toInt_sizeToInt {n : UInt64} (h : n.toNat < 2 ^ 31) : (sizeToInt n).toInt = n.toNat := by
  have hmod : n.toUInt32.toNat = n.toNat := by
    rw [UInt64.toNat_toUInt32, Nat.mod_eq_of_lt (by omega)]
  rw [sizeToInt, ← Int32.toInt_toBitVec, UInt32.toBitVec_toInt32, BitVec.toInt_eq_toNat_of_lt]
  · rw [UInt32.toNat_toBitVec, hmod]
  · rw [UInt32.toNat_toBitVec, hmod]
    omega

/-- An index that is not negative looks its entry up. -/
theorem tableGet_of_nonneg {α : Type*} (table : List α) {i : Int32} (h : 0 ≤ i.toInt) :
    tableGet table i = table[i.toInt.toNat]? := by
  rw [tableGet, if_pos h]

/-- `conv_to_next_aligned` rounds up to a power of two, where 32 bits are enough. -/
theorem toNat_convToNextAligned {val alignment : UInt32} {k : ℕ}
    (ha : alignment.toNat = 2 ^ k) (hlt : val.toNat + alignment.toNat < 2 ^ 32) :
    (convToNextAligned val alignment).toNat = roundUp val.toNat alignment.toNat := by
  have hpos : 0 < alignment.toNat := ha ▸ Nat.two_pow_pos k
  have hmod := toNat_and_pred (x := val) ha
  rw [convToNextAligned]
  split
  · rename_i hne
    have hndvd : ¬ alignment.toNat ∣ val.toNat := by
      rw [Nat.dvd_iff_mod_eq_zero, ← hmod]
      rwa [ne_eq, ← UInt32.toNat_inj] at hne
    rw [toNat_and_not_pred ha, UInt32.toNat_add, Nat.mod_eq_of_lt hlt,
      roundUp_of_not_dvd hpos hndvd]
  · rename_i heq
    rw [not_not, ← UInt32.toNat_inj, hmod] at heq
    exact (roundUp_of_dvd hpos (Nat.dvd_of_mod_eq_zero heq)).symm

/-- `ALIGN_TO_BF_PAGE_SIZE` rounds up to whole huge pages. -/
theorem toNat_alignToBfPageSize {x : UInt64} (h : x.toNat + 2 ^ 21 < 2 ^ 64) :
    (alignToBfPageSize x).toNat = roundUp x.toNat (2 ^ 21) := by
  have hadd : (x + bfHugePageSize).toNat = x.toNat + 2 ^ 21 := by
    rw [UInt64.toNat_add, toNat_bfHugePageSize, Nat.mod_eq_of_lt h]
  have hsum : (x + bfHugePageSize - 1).toNat = x.toNat + 2 ^ 21 - 1 := by
    rw [UInt64.toNat_sub_of_le, hadd]
    · rfl
    · rw [UInt64.le_iff_toNat_le, hadd, UInt64.toNat_one]
      omega
  have hle : (x.toNat + 2 ^ 21 - 1) / 2 ^ 21 * 2 ^ 21 ≤ x.toNat + 2 ^ 21 - 1 :=
    Nat.div_mul_le_self ..
  rw [alignToBfPageSize, UInt64.toNat_mul, UInt64.toNat_div, hsum, toNat_bfHugePageSize, roundUp,
    Nat.mod_eq_of_lt]
  omega

/-! ## Sizes -/

/-- The length of the mapping for `cnt` buffers of the final size `size`. -/
def mapLength (size : UInt64) (cnt : Int32) : UInt64 :=
  alignToBfPageSize (size * intToSize cnt + (headerOffset size cnt).toUInt64)

/-- The number of its huge pages. -/
def pageCount (size : UInt64) (cnt : Int32) : Int32 :=
  sizeToInt (mapLength size cnt / bfHugePageSize)

section Sizes

variable {size : UInt64} {align : UInt32} {cnt : Int32}

/-- What passes the test of `align` is 0 or a power of two. -/
theorem eq_zero_or_isPowerOfTwo (h : align &&& (align - 1) = 0) :
    align = 0 ∨ align.toNat.isPowerOfTwo := by
  by_cases h0 : align = 0
  · exact .inl h0
  · have hne : align.toNat ≠ 0 := by rwa [← UInt32.toNat_inj] at h0
    have hone : (1 : UInt32) ≤ align := by
      rw [UInt32.le_iff_toNat_le]
      exact Nat.one_le_iff_ne_zero.mpr hne
    rw [← UInt32.toNat_inj, UInt32.toNat_and, UInt32.toNat_sub_of_le _ _ hone] at h
    exact .inr ((Nat.and_sub_one_eq_zero_iff_isPowerOfTwo hne).mp h)

/-- A size that has passed its check fits into 32 bits. -/
theorem toNat_size_toUInt32 (hsize : size ≤ bfHugePageSize) :
    size.toUInt32.toNat = size.toNat := by
  rw [UInt64.le_iff_toNat_le, toNat_bfHugePageSize] at hsize
  rw [UInt64.toNat_toUInt32, Nat.mod_eq_of_lt (by omega)]

/-- The final size of a buffer. -/
theorem toNat_bufferSize (hsize : size ≤ bfHugePageSize) (halign : align.toNat.isPowerOfTwo) :
    (bufferSize size align).toNat = roundUp size.toNat align.toNat := by
  obtain ⟨k, hk⟩ := halign
  have hk31 : align.toNat ≤ 2 ^ 31 := by
    have hlt := align.toNat_lt
    rw [hk, Nat.pow_lt_pow_iff_right (by simp)] at hlt
    rw [hk]
    exact Nat.pow_le_pow_right (by simp) (by omega)
  have hsize' := toNat_size_toUInt32 hsize
  rw [UInt64.le_iff_toNat_le, toNat_bfHugePageSize] at hsize
  rw [bufferSize, UInt32.toNat_toUInt64, toNat_convToNextAligned hk (by omega), hsize']

/-- `conv_to_next_aligned` makes nothing of an alignment of 0. -/
theorem bufferSize_zero (size : UInt64) : bufferSize size 0 = 0 := by
  have hzero : convToNextAligned size.toUInt32 0 = 0 := by
    rw [convToNextAligned]
    split <;> simp_all
  rw [bufferSize, hzero]
  rfl

/-- It is at most the larger one of the alignment and a huge page. -/
theorem toNat_bufferSize_le (hsize : size ≤ bfHugePageSize) (halign : align &&& (align - 1) = 0) :
    (bufferSize size align).toNat ≤ 2 ^ 31 := by
  rcases eq_zero_or_isPowerOfTwo halign with rfl | hpow2
  · rw [bufferSize_zero]
    simp
  · rw [toNat_bufferSize hsize hpow2]
    obtain ⟨k, hk⟩ := hpow2
    have hk32 : k < 32 := by
      have hlt := align.toNat_lt
      rwa [hk, Nat.pow_lt_pow_iff_right (by simp)] at hlt
    rw [UInt64.le_iff_toNat_le, toNat_bfHugePageSize] at hsize
    rw [hk]
    exact roundUp_le_of_dvd (Nat.two_pow_pos k) (Nat.pow_dvd_pow 2 (by omega)) (by omega)

/-- Buffers of the final size, taken together, do not wrap. -/
theorem toNat_size_mul_cnt (hsize : size.toNat ≤ 2 ^ 31) (hcnt : 0 ≤ cnt.toInt) :
    (size * intToSize cnt).toNat = size.toNat * cnt.toInt.toNat ∧
      size.toNat * cnt.toInt.toNat ≤ 2 ^ 62 := by
  have hcnt31 : cnt.toInt.toNat ≤ 2 ^ 31 := by
    have := cnt.toInt_lt
    omega
  have hle : size.toNat * cnt.toInt.toNat ≤ 2 ^ 31 * 2 ^ 31 := Nat.mul_le_mul hsize hcnt31
  refine ⟨?_, by omega⟩
  rw [UInt64.toNat_mul, toNat_intToSize hcnt, Nat.mod_eq_of_lt (by omega)]

/-- The header offset: a page of 4 KiB, or, with more than one huge page, a buffer rounded up. -/
theorem toNat_headerOffset (hsize : size.toNat ≤ 2 ^ 31) (hcnt : 0 ≤ cnt.toInt) :
    (headerOffset size cnt).toNat =
      if 2 ^ 21 < size.toNat * cnt.toInt.toNat + 2 ^ 12 then roundUp size.toNat (2 ^ 12)
      else 2 ^ 12 := by
  obtain ⟨hmul, hle⟩ := toNat_size_mul_cnt hsize hcnt
  have hsum : (size * intToSize cnt + poolHdrSize.toUInt64).toNat =
      size.toNat * cnt.toInt.toNat + 2 ^ 12 := by
    rw [UInt64.toNat_add, hmul, UInt32.toNat_toUInt64, toNat_poolHdrSize,
      Nat.mod_eq_of_lt (by omega)]
  rw [headerOffset]
  simp only [gt_iff_lt, UInt64.lt_iff_toNat_lt, hsum, toNat_bfHugePageSize]
  split
  · have h32 : size.toUInt32.toNat = size.toNat := by
      rw [UInt64.toNat_toUInt32, Nat.mod_eq_of_lt (by omega)]
    rw [toNat_convToNextAligned (k := 12) rfl, h32, toNat_poolHdrSize]
    rw [h32, toNat_poolHdrSize]
    omega
  · exact toNat_poolHdrSize

/-- The buffers start between 4 KiB and 2 GiB into the mapping. -/
theorem headerOffset_bounds (hsize : size.toNat ≤ 2 ^ 31) (hcnt : 0 ≤ cnt.toInt) :
    2 ^ 12 ≤ (headerOffset size cnt).toNat ∧ (headerOffset size cnt).toNat ≤ 2 ^ 31 := by
  rw [toNat_headerOffset hsize hcnt]
  split
  · rename_i hlarge
    have hpos : 0 < size.toNat := by
      by_contra h0
      rw [Nat.eq_zero_of_not_pos h0] at hlarge
      omega
    refine ⟨?_, roundUp_le_of_dvd (by simp) (Nat.pow_dvd_pow 2 (by simp)) hsize⟩
    exact Nat.le_of_dvd (hpos.trans_le (le_roundUp (by simp))) (dvd_roundUp ..)
  · exact ⟨le_rfl, by simp⟩

/-- The length of the mapping: the header and the buffers, in whole huge pages. -/
theorem toNat_mapLength (hsize : size.toNat ≤ 2 ^ 31) (hcnt : 0 ≤ cnt.toInt) :
    (mapLength size cnt).toNat =
      roundUp (size.toNat * cnt.toInt.toNat + (headerOffset size cnt).toNat) (2 ^ 21) := by
  obtain ⟨hmul, hle⟩ := toNat_size_mul_cnt hsize hcnt
  have hhdr := (headerOffset_bounds hsize hcnt).2
  have hsum : (size * intToSize cnt + (headerOffset size cnt).toUInt64).toNat =
      size.toNat * cnt.toInt.toNat + (headerOffset size cnt).toNat := by
    rw [UInt64.toNat_add, hmul, UInt32.toNat_toUInt64, Nat.mod_eq_of_lt (by omega)]
  rw [mapLength, toNat_alignToBfPageSize (by omega), hsum]

/-- The number of huge pages of a mapping that a process can hold. -/
theorem toInt_pageCount (hsize : size.toNat ≤ 2 ^ 31) (hcnt : 0 ≤ cnt.toInt)
    (hlen : (mapLength size cnt).toNat ≤ 2 ^ 47) :
    0 ≤ (pageCount size cnt).toInt ∧
      (pageCount size cnt).toInt.toNat * 2 ^ 21 = (mapLength size cnt).toNat := by
  have hdiv : (mapLength size cnt / bfHugePageSize).toNat = (mapLength size cnt).toNat / 2 ^ 21 := by
    rw [UInt64.toNat_div, toNat_bfHugePageSize]
  have hint := toInt_sizeToInt (n := mapLength size cnt / bfHugePageSize) (by omega)
  rw [pageCount, hint, Int.toNat_natCast, hdiv, toNat_mapLength hsize hcnt]
  exact ⟨Int.natCast_nonneg _, Nat.div_mul_cancel (dvd_roundUp ..)⟩

end Sizes

/-! ## The loop over the huge pages -/

/-- The address of huge page `i` of a mapping at `base`. -/
def pageAddr (base : Addr) (i : ℕ) : Addr := base + UInt64.ofNat i * bfHugePageSize

/-- The DMA address that `log_virt_dma_addr` notes down for page `i`, found at `ptr`. -/
def pageDma (pf : Platform) (i : ℕ) (ptr : Addr) : UInt64 :=
  match pf.mapFn with
  | none => bfMemVirt2dma pf.pageSize (pf.pagemap i) ptr
  | some f => (f i (bfMemVirt2dma pf.pageSize (pf.pagemap i) ptr)).2

/-- The calls of the map function for page `i`, found at `ptr`. -/
def mapCalls (pf : Platform) (devId : Int32) (subdevId : UInt32) (i : ℕ) (ptr : Addr) :
    List Call :=
  match pf.mapFn with
  | none => []
  | some f =>
      let phys := bfMemVirt2dma pf.pageSize (pf.pagemap i) ptr
      [.busMap devId subdevId phys bfHugePageSize (f i phys).1 (f i phys).2]

section Loop

variable (pf : Platform) (devId : Int32) (subdevId : UInt32)

/-- One page: the DMA address that its calls answer, and the calls themselves. -/
theorem mapPage_eq (i : ℕ) (ptr : Addr) (w : World) :
    mapPage pf devId subdevId i ptr w =
      (pageDma pf i ptr, { w with log := w.log ++ mapCalls pf devId subdevId i ptr }) := by
  rw [mapPage, pageDma, mapCalls]
  cases pf.mapFn with
  | none => simp
  | some f => rfl

/-- Page 0 is at the start of the mapping. -/
theorem pageAddr_zero (base : Addr) : pageAddr base 0 = base := by
  simp [pageAddr]

/-- The pages from the second one on are those of a mapping that starts one page later. -/
theorem pageAddr_succ (base : Addr) (i : ℕ) :
    pageAddr (base + bfHugePageSize) i = pageAddr base (i + 1) := by
  rw [pageAddr, pageAddr, UInt64.ofNat_add, UInt64.add_mul, UInt64.add_assoc,
    UInt64.add_comm bfHugePageSize]
  rfl

/-- The table of `n` pages from page `i` on, the first of them at `ptr`. -/
def pageTable (i : ℕ) (ptr : Addr) (n : ℕ) : List HugePageInfo :=
  (List.range n).map fun k => ⟨pageDma pf (i + k) (pageAddr ptr k), pageAddr ptr k⟩

/-- The map calls for these pages. -/
def mapLog (i : ℕ) (ptr : Addr) (n : ℕ) : List Call :=
  (List.range n).flatMap fun k => mapCalls pf devId subdevId (i + k) (pageAddr ptr k)

/-- An entry of the table. -/
theorem getElem?_pageTable {i k n : ℕ} {ptr : Addr} {page : HugePageInfo} :
    (pageTable pf i ptr n)[k]? = some page ↔
      k < n ∧ page = ⟨pageDma pf (i + k) (pageAddr ptr k), pageAddr ptr k⟩ := by
  rw [pageTable, List.getElem?_map, Option.map_eq_some_iff]
  constructor
  · rintro ⟨k', hk', rfl⟩
    obtain ⟨hlt, rfl⟩ := List.getElem?_eq_some_iff.mp hk'
    rw [List.length_range] at hlt
    rw [List.getElem_range]
    exact ⟨hlt, rfl⟩
  · rintro ⟨hlt, rfl⟩
    exact ⟨k, List.getElem?_range hlt, rfl⟩

/-- The loop fills the table of the pages and logs their calls. -/
theorem logVirtDmaLoop_eq (n i : ℕ) (ptr : Addr) (w : World) :
    logVirtDmaLoop pf devId subdevId n i ptr w =
      (pageTable pf i ptr n, { w with log := w.log ++ mapLog pf devId subdevId i ptr n }) := by
  induction n generalizing i ptr w with
  | zero => simp [logVirtDmaLoop, pageTable, mapLog]
  | succ n ih =>
      have hidx (k : ℕ) : i + 1 + k = i + (k + 1) := by omega
      simp only [logVirtDmaLoop, mapPage_eq, ih, pageTable, mapLog, List.range_succ_eq_map,
        List.map_cons, List.map_map, List.flatMap_cons, List.flatMap_map, pageAddr_zero,
        pageAddr_succ, Function.comp_def, hidx, Nat.add_zero, List.append_assoc,
        Nat.succ_eq_add_one]

end Loop

/-! ## A successful create -/

/-- The answer of the two attempts to map `len` bytes. -/
def mmapBase (pf : Platform) (len : UInt64) : Option Addr :=
  (pf.mmap2M.answer len).or (pf.mmapDefault.answer len)

/-- The calls they make. -/
def mmapLog (pf : Platform) (len : UInt64) : List Call :=
  .mmap len (pf.mmap2M.answer len) ::
    if (pf.mmap2M.answer len).isSome then [] else [.mmap len (pf.mmapDefault.answer len)]

/-- What the mapping returns, and the calls it makes. -/
theorem mmapHugePages_eq (pf : Platform) (len : UInt64) (w : World) :
    mmapHugePages pf len w = (mmapBase pf len, { w with log := w.log ++ mmapLog pf len }) := by
  rw [mmapHugePages, mmapBase, mmapLog]
  cases pf.mmap2M.answer len with
  | none => simp [World.call]
  | some ptr => simp [World.call]

section Stages

variable {pf : Platform} {size : UInt64} {cnt : Int32} {base block : Addr} (devId : Int32)
  (subdevId : UInt32) (w : World)

/-- A mapping that succeeds has its length in its first word, and the buffers start behind the
header. -/
theorem allocHugePages_some (h : mmapBase pf (mapLength size cnt) = some base) :
    allocHugePages pf (size * intToSize cnt) (headerOffset size cnt) w =
      (some (base + (headerOffset size cnt).toUInt64),
        ⟨w.log ++ mmapLog pf (mapLength size cnt),
          store64 w.mem base (mapLength size cnt)⟩) := by
  unfold mapLength at h ⊢
  rw [allocHugePages, mmapHugePages_eq, h]

/-- If there is no mapping, nothing is written. -/
theorem allocHugePages_none (h : mmapBase pf (mapLength size cnt) = none) :
    allocHugePages pf (size * intToSize cnt) (headerOffset size cnt) w =
      (none, ⟨w.log ++ mmapLog pf (mapLength size cnt), w.mem⟩) := by
  unfold mapLength at h ⊢
  rw [allocHugePages, mmapHugePages_eq, h]

/-- If the table has a block, it is filled page by page. -/
theorem logVirtDmaAddr_some
    (h : pf.infoCalloc.answer (intToSize cnt) sizeofPageInfo = some block) :
    logVirtDmaAddr pf devId subdevId base cnt w =
      (some (block, pageTable pf 0 base cnt.toInt.toNat),
        ⟨w.log ++ .calloc (intToSize cnt) sizeofPageInfo (some block) ::
          mapLog pf devId subdevId 0 base cnt.toInt.toNat, w.mem⟩) := by
  simp only [logVirtDmaAddr, h, logVirtDmaLoop_eq, World.call, List.append_assoc,
    List.singleton_append]

/-- If it has none, no page is mapped for DMA. -/
theorem logVirtDmaAddr_none (h : pf.infoCalloc.answer (intToSize cnt) sizeofPageInfo = none) :
    logVirtDmaAddr pf devId subdevId base cnt w =
      (none, w.call (.calloc (intToSize cnt) sizeofPageInfo none)) := by
  simp only [logVirtDmaAddr, h]

end Stages

/-- One attempt to map is the successful one. -/
theorem mem_mmapLog {pf : Platform} {len : UInt64} {base : Addr}
    (h : mmapBase pf len = some base) :
    .mmap len (some base) ∈ mmapLog pf len := by
  rw [mmapBase] at h
  rw [mmapLog]
  cases h2M : pf.mmap2M.answer len with
  | some p =>
      rw [h2M, Option.some_or] at h
      exact h ▸ List.mem_cons_self
  | none =>
      rw [h2M, Option.none_or] at h
      exact h ▸ List.mem_cons_of_mem _ List.mem_cons_self

/-- The memory that a create is granted: its three blocks and its mapping. -/
structure Grant where
  poolBlock : Addr
  queueBlock : Addr
  infoBlock : Addr
  base : Addr

/-- The checks of a create, all passed with the grant `g`. -/
structure Accepts (pf : Platform) (size : UInt64) (cnt : Int32) (align : UInt32) (g : Grant) :
    Prop where
  pow2 : align &&& (align - 1) = 0
  size_le : size ≤ bfHugePageSize
  pool : pf.poolCalloc.answer 1 sizeofPool = some g.poolBlock
  queue : pf.queueCalloc.answer (intToSize cnt) sizeofPtr = some g.queueBlock
  mapping : mmapBase pf (mapLength (bufferSize size align) cnt) = some g.base
  info : pf.infoCalloc.answer (intToSize (pageCount (bufferSize size align) cnt)) sizeofPageInfo =
    some g.infoBlock
  first : bfMemVirt2phy pf.pageSize pf.basePagemap
    (g.base + (headerOffset (bufferSize size align) cnt).toUInt64) ≠ bfInvalidPhyAddr

section Create

variable (pf : Platform) (devId : Int32) (subdevId : UInt32) (size : UInt64) (cnt : Int32)
  (align : UInt32) (w : World) (g : Grant)

/-- The pool that a successful create returns. -/
def createdPool : BfHugePool :=
  let size := bufferSize size align
  let vhuge := g.base + (headerOffset size cnt).toUInt64
  { bufCnt := cnt
    poolBufPtr := freeQueue size cnt.toInt.toNat vhuge
    poolBufOffset := 0
    poolGate := 0
    block := g.poolBlock
    poolInited := 1
    hdrSize := poolHdrSize.toUInt64
    poolPtr := vhuge
    bufStart := vhuge
    bufSize := size
    alignment := align.toInt32
    queueBlock := g.queueBlock
    basePhyAddr := bfMemVirt2phy pf.pageSize pf.basePagemap vhuge
    hugePageInfo := pageTable pf 0 g.base (pageCount size cnt).toInt.toNat
    infoBlock := g.infoBlock
    numHugePages := pageCount size cnt
    poolHdrOffset := headerOffset size cnt
    devId := devId
    subdevId := subdevId }

/-- The calls that a successful create makes. -/
def createLog : List Call :=
  let size := bufferSize size align
  [.calloc 1 sizeofPool (some g.poolBlock),
    .calloc (intToSize cnt) sizeofPtr (some g.queueBlock)] ++
  mmapLog pf (mapLength size cnt) ++
  .calloc (intToSize (pageCount size cnt)) sizeofPageInfo (some g.infoBlock) ::
  mapLog pf devId subdevId 0 g.base (pageCount size cnt).toInt.toNat

variable {pf size cnt align g} {pool : BfHugePool} {w' : World}

/-- A create whose checks pass. -/
theorem create_of_accepts (h : Accepts pf size cnt align g) :
    bfSysDmaPoolCreate pf devId subdevId size cnt align w =
      (some (createdPool pf devId subdevId size cnt align g),
        ⟨w.log ++ createLog pf devId subdevId size cnt align g,
          store64 w.mem g.base (mapLength (bufferSize size align) cnt)⟩) := by
  rw [bfSysDmaPoolCreate, if_neg (by simpa using h.pow2), if_neg (by simpa using h.size_le)]
  have hinfo := h.info
  have hfirst := h.first
  simp only [h.pool, h.queue, allocHugePages_some _ h.mapping]
  simp only [UInt64.add_sub_cancel]
  rw [load64_store64, ← pageCount]
  simp only [logVirtDmaAddr_some _ _ _ hinfo]
  rw [if_neg hfirst]
  simp only [createdPool, createLog, World.call, List.append_assoc, List.cons_append,
    List.nil_append]

/-- A create that succeeds has passed its checks. -/
theorem exists_accepts (h : (bfSysDmaPoolCreate pf devId subdevId size cnt align w).1 = some pool) :
    ∃ g, Accepts pf size cnt align g := by
  rw [bfSysDmaPoolCreate] at h
  by_cases hpow2 : align &&& (align - 1) ≠ 0
  · rw [if_pos hpow2] at h
    cases h
  by_cases hsize : size > bfHugePageSize
  · rw [if_neg hpow2, if_pos hsize] at h
    cases h
  rw [if_neg hpow2, if_neg hsize] at h
  -- the checks in the order of the source, each of which returns if it fails
  cases hpool : pf.poolCalloc.answer 1 sizeofPool with
  | none =>
      simp only [hpool] at h
      cases h
  | some poolBlock =>
  cases hqueue : pf.queueCalloc.answer (intToSize cnt) sizeofPtr with
  | none =>
      simp only [hpool, hqueue] at h
      cases h
  | some queueBlock =>
  cases hmap : mmapBase pf (mapLength (bufferSize size align) cnt) with
  | none =>
      simp only [hpool, hqueue, allocHugePages_none _ hmap] at h
      cases h
  | some base =>
  simp only [hpool, hqueue, allocHugePages_some _ hmap, UInt64.add_sub_cancel] at h
  rw [load64_store64, ← pageCount] at h
  cases hinfo : pf.infoCalloc.answer (intToSize (pageCount (bufferSize size align) cnt))
      sizeofPageInfo with
  | none =>
      simp only [logVirtDmaAddr_none _ _ _ hinfo] at h
      cases h
  | some infoBlock =>
  simp only [logVirtDmaAddr_some _ _ _ hinfo] at h
  refine ⟨⟨poolBlock, queueBlock, infoBlock, base⟩, not_not.mp hpow2, UInt64.not_lt.mp hsize,
    hpool, hqueue, hmap, hinfo, fun hfirst => ?_⟩
  rw [if_pos hfirst] at h
  cases h

/-- What a successful create returns, and the world that it leaves. -/
theorem create_some (h : bfSysDmaPoolCreate pf devId subdevId size cnt align w = (some pool, w')) :
    ∃ g, Accepts pf size cnt align g ∧ pool = createdPool pf devId subdevId size cnt align g ∧
      w' = ⟨w.log ++ createLog pf devId subdevId size cnt align g,
        store64 w.mem g.base (mapLength (bufferSize size align) cnt)⟩ := by
  obtain ⟨g, hg⟩ := exists_accepts devId subdevId w (congrArg Prod.fst h)
  rw [create_of_accepts devId subdevId w hg, Prod.mk.injEq, Option.some.injEq] at h
  exact ⟨g, hg, h.1.symm, h.2.symm⟩

end Create

/-! ## A generous platform -/

/-- A heap that answers every request that fits with the block at `p`. -/
def Calloc.granting (p : Addr) : Calloc where
  answer elem size := if elem.toNat * size.toNat < 2 ^ 64 then some p else none
  fits elem size q h := by
    split_ifs at h with hfits
    exact hfits

/-- A kernel that maps whatever fits behind the address `2 ^ 30`. -/
def Mmap.granting : Mmap where
  answer len := if 2 ^ 30 + len.toNat ≤ 2 ^ 47 then some (2 ^ 30) else none
  aligned len p h := by
    split_ifs at h
    cases h
    decide
  in_user_space len p h := by
    split_ifs at h with hfits
    cases h
    exact hfits

/-- A platform that refuses no memory, with the given page lookups and map function. -/
def Platform.granting (pagemap : ℕ → Pagemap) (mapFn : Option (ℕ → UInt64 → Int32 × UInt64)) :
    Platform where
  pageSize := 4096
  poolCalloc := .granting 0x1000
  queueCalloc := .granting 0x2000
  infoCalloc := .granting 0x3000
  mmap2M := .granting
  mmapDefault := .granting
  pagemap i _ := pagemap i
  basePagemap _ := .entry 1
  mapFn := mapFn

/-- What it grants. -/
def Grant.granting : Grant := ⟨0x1000, 0x2000, 0x3000, 2 ^ 30⟩

/-! ## The layout of a pool -/

/-- The address of buffer `i`. -/
def BfHugePool.bufAddr (pool : BfHugePool) (i : ℕ) : Addr :=
  pool.bufStart + UInt64.ofNat i * pool.bufSize

/-- The number of buffers. -/
def BfHugePool.count (pool : BfHugePool) : ℕ := pool.bufCnt.toInt.toNat

/-- The layout of a pool mapped at `base`: a header, the buffers side by side, and a table of the
huge pages that hold them. -/
structure Layout (pool : BfHugePool) (base : Addr) : Prop where
  cnt_nonneg : 0 ≤ pool.bufCnt.toInt
  poolPtr : pool.poolPtr = pool.bufStart
  bufStart : pool.bufStart = base + pool.poolHdrOffset.toUInt64
  aligned : 2 ^ 21 ∣ base.toNat
  header : 2 ^ 12 ≤ pool.poolHdrOffset.toNat
  fits : pool.poolHdrOffset.toNat + pool.bufSize.toNat * pool.count ≤
    pool.hugePageInfo.length * 2 ^ 21
  header_lt : pool.poolHdrOffset.toNat < pool.hugePageInfo.length * 2 ^ 21
  in_user_space : base.toNat + pool.hugePageInfo.length * 2 ^ 21 ≤ 2 ^ 47
  numHugePages : pool.numHugePages.toInt = pool.hugePageInfo.length
  virt : ∀ k page, pool.hugePageInfo[k]? = some page → page.baseVirtAddr = pageAddr base k

/-- A mapping starts at a huge page and lies in the address space of the user. -/
theorem mmapBase_spec {pf : Platform} {len : UInt64} {base : Addr}
    (h : mmapBase pf len = some base) :
    2 ^ 21 ∣ base.toNat ∧ base.toNat + len.toNat ≤ 2 ^ 47 := by
  rw [mmapBase, Option.or_eq_some_iff] at h
  rcases h with h | ⟨-, h⟩
  · exact ⟨pf.mmap2M.aligned _ _ h, pf.mmap2M.in_user_space _ _ h⟩
  · exact ⟨pf.mmapDefault.aligned _ _ h, pf.mmapDefault.in_user_space _ _ h⟩

namespace Accepts

variable {pf : Platform} {size : UInt64} {cnt : Int32} {align : UInt32} {g : Grant}
  (h : Accepts pf size cnt align g)

include h

/-- The queue of a negative number of buffers would not fit into memory. -/
theorem cnt_nonneg : 0 ≤ cnt.toInt := nonneg_of_fits (pf.queueCalloc.fits _ _ _ h.queue)

/-- The rounded size is at most 2 GiB. -/
theorem bufferSize_le : (bufferSize size align).toNat ≤ 2 ^ 31 :=
  toNat_bufferSize_le h.size_le h.pow2

/-- The pages that are counted are those of the mapping. -/
theorem pageCount_eq : 0 ≤ (pageCount (bufferSize size align) cnt).toInt ∧
    (pageCount (bufferSize size align) cnt).toInt.toNat * 2 ^ 21 =
      (mapLength (bufferSize size align) cnt).toNat :=
  toInt_pageCount h.bufferSize_le h.cnt_nonneg
    ((Nat.le_add_left ..).trans (mmapBase_spec h.mapping).2)

/-- Entry by entry, the table covers the mapping. -/
theorem length_pageTable :
    (pageTable pf 0 g.base (pageCount (bufferSize size align) cnt).toInt.toNat).length * 2 ^ 21 =
      (mapLength (bufferSize size align) cnt).toNat := by
  rw [pageTable, List.length_map, List.length_range, h.pageCount_eq.2]

/-- What a create returns is laid out. -/
theorem layout (devId : Int32) (subdevId : UInt32) :
    Layout (createdPool pf devId subdevId size cnt align g) g.base := by
  have hcnt := h.cnt_nonneg
  have hsize := h.bufferSize_le
  obtain ⟨haligned, hspace⟩ := mmapBase_spec h.mapping
  have hcount := h.pageCount_eq.1
  have hpages := h.length_pageTable
  constructor
  case cnt_nonneg => exact hcnt
  case poolPtr => rfl
  case bufStart => simp only [createdPool]
  case aligned => exact haligned
  case header =>
    simp only [createdPool]
    exact (headerOffset_bounds hsize hcnt).1
  case fits =>
    simp only [createdPool, BfHugePool.count]
    rw [hpages, toNat_mapLength hsize hcnt, Nat.add_comm]
    exact le_roundUp (by simp)
  case header_lt =>
    simp only [createdPool]
    rw [hpages, toNat_mapLength hsize hcnt]
    have hle := le_roundUp (n := (bufferSize size align).toNat * cnt.toInt.toNat +
      (headerOffset (bufferSize size align) cnt).toNat) (a := 2 ^ 21) (by simp)
    -- without buffers the mapping is one huge page, and the header is 4 KiB
    rcases Nat.eq_zero_or_pos ((bufferSize size align).toNat * cnt.toInt.toNat) with h0 | hpos
    · have hhdr := toNat_headerOffset hsize hcnt
      rw [h0, if_neg (by simp)] at hhdr
      have := Nat.le_of_dvd (by omega) (dvd_roundUp ((bufferSize size align).toNat *
        cnt.toInt.toNat + (headerOffset (bufferSize size align) cnt).toNat) (2 ^ 21))
      omega
    · omega
  case in_user_space =>
    simp only [createdPool]
    rwa [hpages]
  case numHugePages =>
    simp only [createdPool, pageTable, List.length_map, List.length_range]
    exact (Int.toNat_of_nonneg hcount).symm
  case virt =>
    intro k page hk
    simp only [createdPool] at hk
    rw [((getElem?_pageTable pf).mp hk).2]

end Accepts

/-- The queue holds the buffers in order. -/
theorem freeQueue_eq (size : UInt64) (n : ℕ) (ptr : Addr) :
    freeQueue size n ptr = (List.range n).map fun i => ptr + UInt64.ofNat i * size := by
  induction n generalizing ptr with
  | zero => rfl
  | succ n ih =>
      have hnext (i : ℕ) : ptr + size + UInt64.ofNat i * size =
          ptr + UInt64.ofNat (i + 1) * size := by
        rw [UInt64.ofNat_add, UInt64.add_mul, UInt64.add_assoc, UInt64.add_comm size]
        simp
      simp only [freeQueue, ih, hnext, List.range_succ_eq_map, List.map_cons, List.map_map,
        Function.comp_def, Nat.succ_eq_add_one, List.cons.injEq]
      simp

namespace Layout

variable {pool : BfHugePool} {base : Addr} (h : Layout pool base)

include h

/-- The layout does not depend on what is free. -/
theorem setFreeList {fl : FreeList} (hcnt : fl.bufCnt = pool.bufCnt) :
    Layout { pool with toFreeList := fl } base := by
  constructor
  case cnt_nonneg => exact hcnt ▸ h.cnt_nonneg
  case poolPtr => exact h.poolPtr
  case bufStart => exact h.bufStart
  case aligned => exact h.aligned
  case header => exact h.header
  case fits =>
    have hfits := h.fits
    rw [BfHugePool.count] at hfits ⊢
    rwa [← hcnt] at hfits
  case header_lt => exact h.header_lt
  case in_user_space => exact h.in_user_space
  case numHugePages => exact h.numHugePages
  case virt => exact h.virt

/-- An address given by its distance from the beginning of the mapping. -/
theorem toNat_base_add {x : UInt64} (hx : x.toNat ≤ pool.hugePageInfo.length * 2 ^ 21) :
    (base + x).toNat = base.toNat + x.toNat := by
  have hspace := h.in_user_space
  rw [UInt64.toNat_add, Nat.mod_eq_of_lt (by omega)]

/-- The addresses of the pages do not wrap. -/
theorem toNat_pageAddr {k : ℕ} (hk : k ≤ pool.hugePageInfo.length) :
    (pageAddr base k).toNat = base.toNat + k * 2 ^ 21 := by
  have hspace := h.in_user_space
  have hle : k * 2 ^ 21 ≤ pool.hugePageInfo.length * 2 ^ 21 := Nat.mul_le_mul_right _ hk
  have hoff : (UInt64.ofNat k * bfHugePageSize).toNat = k * 2 ^ 21 := by
    rw [UInt64.toNat_mul, toNat_bfHugePageSize, UInt64.toNat_ofNat_of_lt' (by
      simp only [UInt64.size]
      omega), Nat.mod_eq_of_lt (by omega)]
  rw [pageAddr, h.toNat_base_add (by rwa [hoff]), hoff]

/-- The start of the buffers does not wrap. -/
theorem toNat_bufStart : pool.bufStart.toNat = base.toNat + pool.poolHdrOffset.toNat := by
  have hlt := h.header_lt
  rw [h.bufStart, h.toNat_base_add]
  · rw [UInt32.toNat_toUInt64]
  · rw [UInt32.toNat_toUInt64]
    omega

/-- A buffer lies behind the header and inside the mapping. -/
theorem toNat_bufAddr {i : ℕ} (hi : i < pool.count) :
    (pool.bufAddr i).toNat =
        base.toNat + pool.poolHdrOffset.toNat + i * pool.bufSize.toNat ∧
      pool.poolHdrOffset.toNat + i * pool.bufSize.toNat + pool.bufSize.toNat ≤
        pool.hugePageInfo.length * 2 ^ 21 := by
  have hfits := h.fits
  have hspace := h.in_user_space
  have hend : i * pool.bufSize.toNat + pool.bufSize.toNat ≤ pool.bufSize.toNat * pool.count := by
    rw [← Nat.succ_mul, Nat.mul_comm]
    exact Nat.mul_le_mul_left _ hi
  have hi64 : i < 2 ^ 64 := by
    have := pool.bufCnt.toInt_lt
    rw [BfHugePool.count] at hi
    omega
  have hoff : (UInt64.ofNat i * pool.bufSize).toNat = i * pool.bufSize.toNat := by
    rw [UInt64.toNat_mul, UInt64.toNat_ofNat_of_lt' hi64, Nat.mod_eq_of_lt (by omega)]
  refine ⟨?_, by omega⟩
  rw [BfHugePool.bufAddr, UInt64.toNat_add, hoff, h.toNat_bufStart, Nat.mod_eq_of_lt (by omega)]

/-- It begins before the mapping ends, also where buffers are empty. -/
theorem bufAddr_lt {i : ℕ} (hi : i < pool.count) :
    (pool.bufAddr i).toNat < base.toNat + pool.hugePageInfo.length * 2 ^ 21 := by
  obtain ⟨haddr, hle⟩ := h.toNat_bufAddr hi
  have hlt := h.header_lt
  rw [haddr]
  rcases Nat.eq_zero_or_pos pool.bufSize.toNat with h0 | hpos
  · rw [h0, Nat.mul_zero]
    omega
  · omega

/-- The index of a page that `bf_sys_dma_get_phy_addr_from_pool` computes. -/
theorem pageIndex {v : Addr} (hlo : base.toNat ≤ v.toNat)
    (hhi : v.toNat < base.toNat + pool.hugePageInfo.length * 2 ^ 21) :
    (pool.pageIndex v).toInt = ((v.toNat - base.toNat) / 2 ^ 21 : ℕ) := by
  have hspace := h.in_user_space
  have hbase : pool.bufStart - pool.poolHdrOffset.toUInt64 = base := by
    rw [h.bufStart, UInt64.add_sub_cancel]
  have hdiv : ((v - base) / bfHugePageSize).toNat = (v.toNat - base.toNat) / 2 ^ 21 := by
    rw [UInt64.toNat_div, UInt64.toNat_sub_of_le _ _ (UInt64.le_iff_toNat_le.mpr hlo),
      toNat_bfHugePageSize]
  rw [BfHugePool.pageIndex, hbase, toInt_sizeToInt (by omega), hdiv]

/-- The page of an address, and what `bf_sys_dma_get_phy_addr_from_pool` makes of it. -/
theorem getPhyAddr {v : Addr} (hlo : base.toNat ≤ v.toNat)
    (hhi : v.toNat < base.toNat + pool.hugePageInfo.length * 2 ^ 21) :
    ∃ page, pool.hugePageInfo[(v.toNat - base.toNat) / 2 ^ 21]? = some page ∧
      (v - page.baseVirtAddr).toNat = (v.toNat - base.toNat) % 2 ^ 21 ∧
      bfSysDmaGetPhyAddrFromPool pool v = some (page.baseDmaAddr + (v - page.baseVirtAddr)) := by
  have hspace := h.in_user_space
  have hindex : (v.toNat - base.toNat) / 2 ^ 21 < pool.hugePageInfo.length := by
    rw [Nat.div_lt_iff_lt_mul (by simp)]
    omega
  have hpage := List.getElem?_eq_getElem hindex
  refine ⟨_, hpage, ?_, ?_⟩
  · have hdiv := Nat.div_add_mod' (v.toNat - base.toNat) (2 ^ 21)
    have haddr := h.toNat_pageAddr hindex.le
    rw [h.virt _ _ hpage, UInt64.toNat_sub_of_le, haddr]
    · omega
    · rw [UInt64.le_iff_toNat_le, haddr, ← Nat.le_sub_iff_add_le' hlo]
      exact Nat.div_mul_le_self ..
  · have hint := h.pageIndex hlo hhi
    rw [bfSysDmaGetPhyAddrFromPool, tableGet_of_nonneg _ (by omega), hint, Int.toNat_natCast,
      hpage]

/-- The page index of an address of the mapping is one of the table, and the entry there is what
`bf_sys_dma_get_phy_addr_from_pool` adds the offset to. -/
theorem exists_page {v : Addr} (hlo : base.toNat ≤ v.toNat)
    (hhi : v.toNat < base.toNat + pool.hugePageInfo.length * 2 ^ 21) :
    0 ≤ (pool.pageIndex v).toInt ∧ (pool.pageIndex v).toInt < pool.numHugePages.toInt ∧
      ∃ page, tableGet pool.hugePageInfo (pool.pageIndex v) = some page ∧
        bfSysDmaGetPhyAddrFromPool pool v =
          some (page.baseDmaAddr + (v - page.baseVirtAddr)) := by
  have hint := h.pageIndex hlo hhi
  obtain ⟨page, hpage, -, hphys⟩ := h.getPhyAddr hlo hhi
  refine ⟨by omega, ?_, page, ?_, hphys⟩
  · rw [h.numHugePages, hint]
    omega
  · rw [tableGet_of_nonneg _ (by omega), hint, Int.toNat_natCast, hpage]

/-- What the tables say of a buffer. -/
theorem getPhyAddr_bufAddr {i : ℕ} (hi : i < pool.count) :
    ∃ page ∈ pool.hugePageInfo, (pool.bufAddr i - page.baseVirtAddr).toNat < 2 ^ 21 ∧
      bfSysDmaGetPhyAddrFromPool pool (pool.bufAddr i) =
        some (page.baseDmaAddr + (pool.bufAddr i - page.baseVirtAddr)) := by
  obtain ⟨haddr, -⟩ := h.toNat_bufAddr hi
  obtain ⟨page, hpage, hoff, hphys⟩ := h.getPhyAddr (v := pool.bufAddr i) (by omega)
    (h.bufAddr_lt hi)
  refine ⟨page, List.mem_of_getElem? hpage, ?_, hphys⟩
  rw [hoff]
  exact Nat.mod_lt _ (by simp)

/-- A byte of a buffer. -/
theorem toNat_byte {i j : ℕ} (hi : i < pool.count) (hj : j < pool.bufSize.toNat) :
    (pool.bufAddr i + UInt64.ofNat j).toNat = (pool.bufAddr i).toNat + j ∧
      (pool.bufAddr i).toNat + j < base.toNat + pool.hugePageInfo.length * 2 ^ 21 := by
  obtain ⟨haddr, hle⟩ := h.toNat_bufAddr hi
  have hspace := h.in_user_space
  have hlt := pool.bufSize.toNat_lt
  have hj64 : (UInt64.ofNat j).toNat = j := UInt64.toNat_ofNat_of_lt' (by
    simp only [UInt64.size]
    omega)
  rw [UInt64.toNat_add, hj64, Nat.mod_eq_of_lt (by omega)]
  omega

/-- `bf_sys_dma_buffer_index` of a byte of a buffer. -/
theorem bufferIndex {i j : ℕ} (hi : i < pool.count) (hj : j < pool.bufSize.toNat) :
    ∃ idx, bfSysDmaBufferIndex pool (pool.bufAddr i + UInt64.ofNat j) = some idx ∧
      idx.toInt = i := by
  obtain ⟨haddr, -⟩ := h.toNat_bufAddr hi
  obtain ⟨hbyte, -⟩ := h.toNat_byte hi hj
  have hstart := h.toNat_bufStart
  have hne : pool.bufSize ≠ 0 := by
    rw [Ne, ← UInt64.toNat_inj]
    exact Nat.ne_of_gt (Nat.zero_lt_of_lt hj)
  have hdiv : ((pool.bufAddr i + UInt64.ofNat j - pool.poolPtr) / pool.bufSize).toNat = i := by
    rw [UInt64.toNat_div, h.poolPtr, UInt64.toNat_sub_of_le, hbyte, haddr, hstart, Nat.add_assoc,
      Nat.add_sub_cancel_left]
    · exact Nat.div_eq_of_lt_le (by omega) (by rw [Nat.succ_mul]; omega)
    · rw [UInt64.le_iff_toNat_le]
      omega
  refine ⟨_, by rw [bfSysDmaBufferIndex, if_neg hne], ?_⟩
  rw [toInt_sizeToInt, hdiv]
  have := pool.bufCnt.toInt_lt
  rw [BfHugePool.count] at hi
  omega

end Layout

/-! ## The addresses of a created pool -/

section Created

variable {pf : Platform} {devId : Int32} {subdevId : UInt32} {size : UInt64} {cnt : Int32}
  {align : UInt32} {g : Grant}

/-- The beginning of the mapping, as the library computes it. -/
theorem createdPool_base :
    (createdPool pf devId subdevId size cnt align g).poolPtr -
      (createdPool pf devId subdevId size cnt align g).poolHdrOffset.toUInt64 = g.base := by
  simp only [createdPool, UInt64.add_sub_cancel]

/-- The page of an address of the mapping, and what the tables make of the address. -/
theorem Accepts.phys_eq (hg : Accepts pf size cnt align g) {v : Addr} {phys : UInt64}
    (hlo : g.base.toNat ≤ v.toNat)
    (hhi : v.toNat < g.base.toNat +
      (createdPool pf devId subdevId size cnt align g).hugePageInfo.length * 2 ^ 21)
    (hphys : bfSysDmaGetPhyAddrFromPool (createdPool pf devId subdevId size cnt align g) v =
      some phys) :
    ∃ i < (pageCount (bufferSize size align) cnt).toInt.toNat,
      (pageAddr g.base i).toNat ≤ v.toNat ∧ v.toNat < (pageAddr g.base i).toNat + 2 ^ 21 ∧
      phys = pageDma pf i (pageAddr g.base i) + (v - pageAddr g.base i) := by
  have hlayout := hg.layout devId subdevId
  obtain ⟨page, hpage, -, hget⟩ := hlayout.getPhyAddr hlo hhi
  rw [hphys, Option.some.injEq] at hget
  have hentry := hpage
  simp only [createdPool] at hentry
  obtain ⟨hlt, rfl⟩ := (getElem?_pageTable pf).mp hentry
  have hle : (v.toNat - g.base.toNat) / 2 ^ 21 ≤
      (createdPool pf devId subdevId size cnt align g).hugePageInfo.length := by
    simp only [createdPool, pageTable, List.length_map, List.length_range]
    exact hlt.le
  have haddr := hlayout.toNat_pageAddr hle
  have hdiv := Nat.div_add_mod' (v.toNat - g.base.toNat) (2 ^ 21)
  have hmod := Nat.mod_lt (v.toNat - g.base.toNat) (Nat.two_pow_pos 21)
  refine ⟨_, hlt, ?_, ?_, ?_⟩
  · omega
  · omega
  · rw [hget, Nat.zero_add]

end Created

end TargetSys.Dma
