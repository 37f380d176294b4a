import TargetSys.Dma.Clients

/-!
# Requests for a pool

Reference: `src/bf_sal/linux_usr/bf_sys_dma_hugepages.c`, `bf_sys_dma_pool_create`,
`conv_to_next_aligned`, `alloc_huge_pages` and `bf_sys_dma_buffer_index`.

For a buffer size of at least 1 and an alignment that is a power of two up to 4096, the layout of a
created pool is sound: no step of its computation wraps. `bf_sys_dma_pool_create` refuses neither
the size 0 nor the alignment 0, and an alignment above 4096 only with `assert` compiled in.

## Main results

* `poolLayout_sound`: the layout for every request in the range above.
* `serves_iff`: which other requests are served.
-/

namespace TargetSys.Dma

open ByteMemory Align

/-! ## The steps of the computation -/

/-- No step of the layout computation wraps or truncates: each machine number is the number it
stands for. The steps are those of `bf_sys_dma_pool_create` and `alloc_huge_pages` in order. -/
structure NoWrap (size : UInt64) (cnt : Int32) (align : UInt32) (base : Addr) : Prop where
  size32 : size.toUInt32.toNat = size.toNat
  rounding : (size.toUInt32 + align).toNat = size.toNat + align.toNat
  cnt64 : ((intToSize cnt).toNat : ℤ) = cnt.toInt
  total : (bufferSize size align * intToSize cnt).toNat =
    (bufferSize size align).toNat * cnt.toInt.toNat
  withHeader : (bufferSize size align * intToSize cnt + poolHdrSize.toUInt64).toNat =
    (bufferSize size align).toNat * cnt.toInt.toNat + 2 ^ 12
  header32 : (bufferSize size align).toUInt32.toNat = (bufferSize size align).toNat
  headerRounding : ((bufferSize size align).toUInt32 + poolHdrSize).toNat =
    (bufferSize size align).toNat + 2 ^ 12
  mapped : (bufferSize size align * intToSize cnt +
    (headerOffset (bufferSize size align) cnt).toUInt64).toNat =
    (bufferSize size align).toNat * cnt.toInt.toNat +
      (headerOffset (bufferSize size align) cnt).toNat
  mapRounding : (bufferSize size align * intToSize cnt +
    (headerOffset (bufferSize size align) cnt).toUInt64 + bfHugePageSize).toNat =
    (bufferSize size align).toNat * cnt.toInt.toNat +
      (headerOffset (bufferSize size align) cnt).toNat + 2 ^ 21
  mapLength : (mapLength (bufferSize size align) cnt).toNat =
    roundUp ((bufferSize size align).toNat * cnt.toInt.toNat +
      (headerOffset (bufferSize size align) cnt).toNat) (2 ^ 21)
  pages : (pageCount (bufferSize size align) cnt).toInt * 2 ^ 21 =
    (Dma.mapLength (bufferSize size align) cnt).toNat
  bufStart : (base + (headerOffset (bufferSize size align) cnt).toUInt64).toNat =
    base.toNat + (headerOffset (bufferSize size align) cnt).toNat
  bufPtr : ∀ i ≤ cnt.toInt.toNat,
    (base + (headerOffset (bufferSize size align) cnt).toUInt64 +
      UInt64.ofNat i * bufferSize size align).toNat =
    base.toNat + (headerOffset (bufferSize size align) cnt).toNat +
      i * (bufferSize size align).toNat

section Layout

variable {pf : Platform} {size : UInt64} {cnt : Int32} {align : UInt32} {g : Grant}

/-- The address of the first buffer. -/
theorem Accepts.toNat_first (h : Accepts pf size cnt align g) :
    (g.base + (headerOffset (bufferSize size align) cnt).toUInt64).toNat =
      g.base.toNat + (headerOffset (bufferSize size align) cnt).toNat := by
  have hheader := (headerOffset_bounds h.bufferSize_le h.cnt_nonneg).2
  have hspace := (mmapBase_spec h.mapping).2
  rw [UInt64.toNat_add, UInt32.toNat_toUInt64, Nat.mod_eq_of_lt (by omega)]

/-- The numbers of an accepted create stay in their ranges. -/
theorem Accepts.noWrap (h : Accepts pf size cnt align g) (halign : align.toNat ≤ 2 ^ 12) :
    NoWrap size cnt align g.base := by
  have hcnt := h.cnt_nonneg
  have hbuf := h.bufferSize_le
  have hsize := h.size_le
  have hsize32 := toNat_size_toUInt32 hsize
  rw [UInt64.le_iff_toNat_le, toNat_bfHugePageSize] at hsize
  obtain ⟨hmul, hle⟩ := toNat_size_mul_cnt hbuf hcnt
  obtain ⟨hheader, hheader'⟩ := headerOffset_bounds hbuf hcnt
  obtain ⟨hcount, hpages⟩ := h.pageCount_eq
  have hspace := (mmapBase_spec h.mapping).2
  have hmapped : (bufferSize size align * intToSize cnt +
      (headerOffset (bufferSize size align) cnt).toUInt64).toNat =
      (bufferSize size align).toNat * cnt.toInt.toNat +
        (headerOffset (bufferSize size align) cnt).toNat := by
    rw [UInt64.toNat_add, hmul, UInt32.toNat_toUInt64, Nat.mod_eq_of_lt (by omega)]
  have hlength := toNat_mapLength hbuf hcnt
  have hfits := le_roundUp (n := (bufferSize size align).toNat * cnt.toInt.toNat +
    (headerOffset (bufferSize size align) cnt).toNat) (a := 2 ^ 21) (by simp)
  have hstart := h.toNat_first
  constructor
  case size32 => exact hsize32
  case rounding => rw [UInt32.toNat_add, hsize32, Nat.mod_eq_of_lt (by omega)]
  case cnt64 => rw [toNat_intToSize hcnt, Int.toNat_of_nonneg hcnt]
  case total => exact hmul
  case withHeader =>
    rw [UInt64.toNat_add, hmul, UInt32.toNat_toUInt64, toNat_poolHdrSize,
      Nat.mod_eq_of_lt (by omega)]
  case header32 => rw [UInt64.toNat_toUInt32, Nat.mod_eq_of_lt (by omega)]
  case headerRounding =>
    rw [UInt32.toNat_add, UInt64.toNat_toUInt32, toNat_poolHdrSize,
      Nat.mod_eq_of_lt (by omega), Nat.mod_eq_of_lt (by omega)]
  case mapped => exact hmapped
  case mapRounding =>
    rw [UInt64.toNat_add, hmapped, toNat_bfHugePageSize, Nat.mod_eq_of_lt (by omega)]
  case mapLength => exact hlength
  case pages => omega
  case bufStart => exact hstart
  case bufPtr =>
    intro i hi
    have hprod : i * (bufferSize size align).toNat ≤
        (bufferSize size align).toNat * cnt.toInt.toNat := by
      rw [Nat.mul_comm]
      exact Nat.mul_le_mul_left _ hi
    have hi64 : (UInt64.ofNat i).toNat = i := UInt64.toNat_ofNat_of_lt' (by
      have := cnt.toInt_lt
      simp only [UInt64.size]
      omega)
    rw [UInt64.toNat_add, hstart, UInt64.toNat_mul, hi64, Nat.mod_eq_of_lt (by omega),
      Nat.mod_eq_of_lt (by omega)]

/-- Every buffer is aligned where the first one is, and the size of a buffer. -/
theorem Layout.dvd_bufAddr {pool : BfHugePool} {base : Addr} (h : Layout pool base) {a : ℕ}
    (hstart : a ∣ pool.bufStart.toNat) (hsize : a ∣ pool.bufSize.toNat) {i : ℕ}
    (hi : i < pool.count) : a ∣ (pool.bufAddr i).toNat := by
  rw [(h.toNat_bufAddr hi).1, ← h.toNat_bufStart]
  exact Nat.dvd_add hstart (hsize.mul_left i)

/-- Each buffer ends before the next ones begin. -/
theorem Layout.pairwise_buffers {pool : BfHugePool} {base : Addr} (h : Layout pool base) :
    pool.buffers.Pairwise (fun u v => u.toNat + pool.bufSize.toNat ≤ v.toNat) := by
  rw [BfHugePool.buffers, List.pairwise_map]
  refine List.pairwise_lt_range.imp_of_mem fun {i j} hi hj hij => ?_
  rw [List.mem_range] at hi hj
  have hle : (i + 1) * pool.bufSize.toNat ≤ j * pool.bufSize.toNat := Nat.mul_le_mul_right _ hij
  rw [(h.toNat_bufAddr hi).1, (h.toNat_bufAddr hj).1]
  rw [Nat.succ_mul] at hle
  omega

/-- A power of two up to 4096 divides the address of the first buffer. -/
theorem Accepts.dvd_bufStart (h : Accepts pf size cnt align g) (hpow2 : align.toNat.isPowerOfTwo)
    (halign : align.toNat ≤ 2 ^ 12) :
    align.toNat ∣ (g.base + (headerOffset (bufferSize size align) cnt).toUInt64).toNat := by
  have hdvd : align.toNat ∣ 2 ^ 12 := by
    obtain ⟨k, hk⟩ := hpow2
    rw [hk] at halign ⊢
    exact Nat.pow_dvd_pow 2 ((Nat.pow_le_pow_iff_right (by simp)).mp halign)
  have hheader : 2 ^ 12 ∣ (headerOffset (bufferSize size align) cnt).toNat := by
    rw [toNat_headerOffset h.bufferSize_le h.cnt_nonneg]
    split
    · exact dvd_roundUp ..
    · exact Nat.dvd_refl _
  rw [h.toNat_first]
  exact Nat.dvd_add (hdvd.trans (Nat.dvd_trans ⟨2 ^ 9, rfl⟩ (mmapBase_spec h.mapping).1))
    (hdvd.trans hheader)

end Layout

/-- **The layout of a pool is sound**, for a size of at least 1 and a power of two up to 4096 as the
alignment. No step of the computation wraps; the size of a buffer is the least multiple of the
alignment that is large enough; the buffers that create has put into the queue are as many as asked
for, disjoint and aligned, and lie between the header and the end of the mapping; and every byte of
a buffer has the index of the buffer, and a page of the table, from which its address is taken. -/
theorem poolLayout_sound {pf : Platform} {devId : Int32} {subdevId : UInt32} {size : UInt64}
    {cnt : Int32} {align : UInt32} {w w' : World} {pool : BfHugePool} (hsize : 1 ≤ size.toNat)
    (hpow2 : align.toNat.isPowerOfTwo) (halign : align.toNat ≤ 4096)
    (hcreate : bfSysDmaPoolCreate pf devId subdevId size cnt align w = (some pool, w')) :
    let base := pool.poolPtr - pool.poolHdrOffset.toUInt64
    NoWrap size cnt align base ∧ load64 w'.mem base = mapLength pool.bufSize cnt ∧
    0 < pool.bufSize.toNat ∧ IsLeast {m | align.toNat ∣ m ∧ size.toNat ≤ m} pool.bufSize.toNat ∧
    pool.poolBufPtr = (List.range cnt.toInt.toNat).map pool.bufAddr ∧
    pool.poolBufPtr.Pairwise (fun u v => u.toNat + pool.bufSize.toNat ≤ v.toNat) ∧
    (∀ v ∈ pool.poolBufPtr, align.toNat ∣ v.toNat ∧ base.toNat + 2 ^ 12 ≤ v.toNat ∧
      v.toNat + pool.bufSize.toNat ≤ base.toNat + (mapLength pool.bufSize cnt).toNat) ∧
    ∀ (i : ℕ) (buf : Addr), pool.poolBufPtr[i]? = some buf → ∀ j < pool.bufSize.toNat,
      let v := buf + UInt64.ofNat j
      (∃ idx, bfSysDmaBufferIndex pool v = some idx ∧ idx.toInt = i) ∧
      0 ≤ (pool.pageIndex v).toInt ∧ (pool.pageIndex v).toInt < pool.numHugePages.toInt ∧
      ∃ page, tableGet pool.hugePageInfo (pool.pageIndex v) = some page ∧
        bfSysDmaGetPhyAddrFromPool pool v =
          some (page.baseDmaAddr + (v - page.baseVirtAddr)) := by
  obtain ⟨g, hg, rfl, rfl⟩ := create_some devId subdevId w hcreate
  have hlayout := hg.layout devId subdevId
  have hpos : 0 < align.toNat := Nat.pos_of_isPowerOfTwo hpow2
  have hbuf := toNat_bufferSize hg.size_le hpow2
  have hbufpos : 0 < (createdPool pf devId subdevId size cnt align g).bufSize.toNat := by
    have hle := le_roundUp (n := size.toNat) hpos
    simp only [createdPool]
    omega
  have hlen := hg.length_pageTable
  rw [createdPool_base]
  have hslots := (createdPool_fresh pf devId subdevId size cnt align g).slots
  refine ⟨hg.noWrap halign, load64_store64 .., hbufpos, ?_, hslots, ?_, ?_, ?_⟩
  · simp only [createdPool]
    rw [hbuf]
    exact isLeast_roundUp hpos
  · rw [hslots]
    exact hlayout.pairwise_buffers
  · intro v hv
    rw [hslots] at hv
    obtain ⟨i, hi, rfl⟩ := List.mem_map.mp hv
    rw [List.mem_range] at hi
    obtain ⟨haddr, hend⟩ := hlayout.toNat_bufAddr hi
    have hheader := hlayout.header
    refine ⟨hlayout.dvd_bufAddr (hg.dvd_bufStart hpow2 halign) ?_ hi, by omega, ?_⟩
    · simp only [createdPool]
      rw [hbuf]
      exact dvd_roundUp ..
    · have hlen' : (createdPool pf devId subdevId size cnt align g).hugePageInfo.length * 2 ^ 21 =
          (mapLength (createdPool pf devId subdevId size cnt align g).bufSize cnt).toNat := hlen
      omega
  · intro i buf hget j hj
    rw [hslots] at hget
    obtain ⟨hi, rfl⟩ := getElem?_buffers.mp hget
    obtain ⟨haddr, -⟩ := hlayout.toNat_bufAddr hi
    obtain ⟨hbyte, hend⟩ := hlayout.toNat_byte hi hj
    exact ⟨hlayout.bufferIndex hi hj, hlayout.exists_page (by omega) (by omega)⟩

/-- Three buffers of 1 MiB and a half, aligned to 64: the second one lies on two pages, and every
byte of the third one has the index 2. -/
theorem poolLayout_sound_three :
    ∃ (pool : BfHugePool) (w : World),
      bfSysDmaPoolCreate (.granting (fun _ => .entry 1) none) 0 0 1572800 3 64 ⟨[], fun _ => 0⟩ =
        (some pool, w) ∧
      pool.poolBufPtr = [2 ^ 30 + 1572864, 2 ^ 30 + 3145664, 2 ^ 30 + 4718464] ∧
      pool.poolBufPtr.Pairwise (fun u v => u.toNat + 1572800 ≤ v.toNat) ∧
      ∀ j < 1572800, ∃ idx,
        bfSysDmaBufferIndex pool (2 ^ 30 + 4718464 + UInt64.ofNat j) = some idx ∧ idx.toInt = 2 := by
  have hg : Accepts (.granting (fun _ => .entry 1) none) 1572800 3 64 .granting := by
    constructor <;> decide
  obtain ⟨-, -, -, -, -, hapart, -, hbytes⟩ := poolLayout_sound (by decide) ⟨6, by decide⟩ (by decide)
    (create_of_accepts 0 0 ⟨[], fun _ => 0⟩ hg)
  exact ⟨_, _, create_of_accepts 0 0 _ hg, by decide, hapart,
    fun j hj => (hbytes 2 (2 ^ 30 + 4718464) (by decide) j hj).1⟩

/-! ## Requests that are served -/

/-- What a delivered pool owes to a request: its buffers have different addresses, consecutive ones
are at least the requested size apart, all are aligned as requested, and the index of an address is
defined. -/
structure Serves (pool : BfHugePool) (size : UInt64) (align : UInt32) : Prop where
  distinct : pool.poolBufPtr.Nodup
  apart : ∀ (i : ℕ) (u v : Addr), pool.poolBufPtr[i]? = some u →
    pool.poolBufPtr[i + 1]? = some v → u.toNat + size.toNat ≤ v.toNat
  aligned : 0 < align → ∀ v ∈ pool.poolBufPtr, align.toNat ∣ v.toNat
  index : ∀ v, (bfSysDmaBufferIndex pool v).isSome

section Serves

variable {pf : Platform} {size : UInt64} {cnt : Int32} {align : UInt32} {g : Grant}

/-- A buffer has a size where one was asked for, and an alignment too. -/
theorem bufferSize_pos_iff (hsize : size ≤ bfHugePageSize) (hpow2 : align &&& (align - 1) = 0) :
    0 < (bufferSize size align).toNat ↔ 0 < size ∧ 0 < align := by
  rw [UInt64.lt_iff_toNat_lt, UInt32.lt_iff_toNat_lt]
  change _ ↔ 0 < size.toNat ∧ 0 < align.toNat
  rcases eq_zero_or_isPowerOfTwo hpow2 with rfl | halign
  · simp [bufferSize_zero]
  · have hpos := Nat.pos_of_isPowerOfTwo halign
    rw [toNat_bufferSize hsize halign]
    refine ⟨fun h => ⟨?_, hpos⟩, fun h => h.1.trans_le (le_roundUp hpos)⟩
    by_contra h0
    rw [Nat.eq_zero_of_not_pos h0, roundUp_of_dvd hpos (Nat.dvd_zero _)] at h
    omega

end Serves

/-- Where the sizes are positive and the first buffer is aligned, a created pool serves. -/
theorem Accepts.serves {pf : Platform} {size : UInt64} {cnt : Int32} {align : UInt32} {g : Grant}
    (hg : Accepts pf size cnt align g) (devId : Int32) (subdevId : UInt32) (hsize : 0 < size)
    (halign : 0 < align) (hfirst : 0 < cnt.toInt → align.toNat ∣
      (g.base + (headerOffset (bufferSize size align) cnt).toUInt64).toNat) :
    Serves (createdPool pf devId subdevId size cnt align g) size align := by
  have hlayout := hg.layout devId subdevId
  have hslots := (createdPool_fresh pf devId subdevId size cnt align g).slots
  have hpos : 0 < (createdPool pf devId subdevId size cnt align g).bufSize.toNat :=
    (bufferSize_pos_iff hg.size_le hg.pow2).mpr ⟨hsize, halign⟩
  have hpow2 : align.toNat.isPowerOfTwo := by
    refine (eq_zero_or_isPowerOfTwo hg.pow2).resolve_left fun h0 => ?_
    rw [h0] at halign
    exact absurd halign (by decide)
  have hbuf : (createdPool pf devId subdevId size cnt align g).bufSize.toNat =
      roundUp size.toNat align.toNat := toNat_bufferSize hg.size_le hpow2
  constructor
  case distinct =>
    rw [hslots]
    exact hlayout.nodup_buffers hpos
  case apart =>
    intro i u v hu hv
    rw [hslots] at hu hv
    obtain ⟨hi, rfl⟩ := getElem?_buffers.mp hu
    obtain ⟨hi', rfl⟩ := getElem?_buffers.mp hv
    have hle := le_roundUp (n := size.toNat) (Nat.pos_of_isPowerOfTwo hpow2)
    rw [(hlayout.toNat_bufAddr hi).1, (hlayout.toNat_bufAddr hi').1, Nat.succ_mul]
    omega
  case aligned =>
    intro _ v hv
    rw [hslots] at hv
    obtain ⟨i, hi, rfl⟩ := List.mem_map.mp hv
    have hi' := List.mem_range.mp hi
    have hcnt : 0 < cnt.toInt := by
      have hcount : i < cnt.toInt.toNat := hi'
      omega
    refine hlayout.dvd_bufAddr (hfirst hcnt) ?_ hi'
    rw [hbuf]
    exact dvd_roundUp ..
  case index =>
    intro v
    rw [bfSysDmaBufferIndex, if_neg]
    · rfl
    · rw [← UInt64.toNat_inj]
      exact hpos.ne'

/-- When the first buffer is aligned: always, for an alignment up to 4096; beyond, where there is
more than one page, so that the header is a buffer, and the mapping itself is aligned. -/
theorem Accepts.dvd_first_iff {pf : Platform} {size : UInt64} {cnt : Int32} {align : UInt32}
    {g : Grant} (hg : Accepts pf size cnt align g) (halign : 0 < align) :
    align.toNat ∣ (g.base + (headerOffset (bufferSize size align) cnt).toUInt64).toNat ↔
      align.toNat ≤ 2 ^ 12 ∨
        2 ^ 21 < roundUp size.toNat align.toNat * cnt.toInt.toNat + 2 ^ 12 ∧
          align.toNat ∣ g.base.toNat := by
  have hpow2 : align.toNat.isPowerOfTwo := by
    refine (eq_zero_or_isPowerOfTwo hg.pow2).resolve_left fun h0 => ?_
    rw [h0] at halign
    exact absurd halign (by decide)
  rcases Nat.lt_or_ge (2 ^ 12) align.toNat with hlt | hle
  case inr => exact ⟨fun _ => .inl hle, fun _ => hg.dvd_bufStart hpow2 hle⟩
  -- the alignment is a multiple of 4096, so a header of whole buffers is aligned, and one page is not
  have hdvd : 2 ^ 12 ∣ align.toNat := by
    obtain ⟨k, hk⟩ := hpow2
    rw [hk] at hlt ⊢
    exact Nat.pow_dvd_pow 2 ((Nat.pow_lt_pow_iff_right (by simp)).mp hlt).le
  have hheader := toNat_headerOffset hg.bufferSize_le hg.cnt_nonneg
  rw [toNat_bufferSize hg.size_le hpow2] at hheader
  rw [hg.toNat_first, hheader]
  split
  case isTrue hlarge =>
    rw [roundUp_of_dvd (Nat.two_pow_pos 12) (hdvd.trans (dvd_roundUp ..)),
      Nat.dvd_add_left (dvd_roundUp ..)]
    exact ⟨fun h => .inr ⟨hlarge, h⟩, fun h => (h.resolve_left (by omega)).2⟩
  case isFalse hsmall =>
    refine ⟨fun h => ?_, fun h => absurd (h.resolve_left (by omega)).1 hsmall⟩
    obtain ⟨haligned, -⟩ := mmapBase_spec hg.mapping
    obtain ⟨j, hj⟩ : 2 ^ 13 ∣ align.toNat := by
      obtain ⟨k, hk⟩ := hpow2
      rw [hk] at hlt ⊢
      exact Nat.pow_dvd_pow 2 ((Nat.pow_lt_pow_iff_right (by simp)).mp hlt)
    have h13 : 2 ^ 13 ∣ g.base.toNat + 2 ^ 12 := (Dvd.intro j hj.symm).trans h
    omega

/-- **Which requests are served.** A create refuses, or serves the request, exactly when the request
has a size and an alignment and, with a buffer to deliver, the alignment is at most 4096, or the
buffers take more than one huge page and the mapping is aligned as asked for; or when one of the
checks of create fails. -/
theorem serves_iff (pf : Platform) (devId : Int32) (subdevId : UInt32) (size : UInt64)
    (cnt : Int32) (align : UInt32) (w : World) :
    (∀ pool w', bfSysDmaPoolCreate pf devId subdevId size cnt align w = (some pool, w') →
      Serves pool size align) ↔
    ∀ g, Accepts pf size cnt align g → 0 < size ∧ 0 < align ∧
      (0 < cnt.toInt → align.toNat ≤ 2 ^ 12 ∨
        2 ^ 21 < roundUp size.toNat align.toNat * cnt.toInt.toNat + 2 ^ 12 ∧
          align.toNat ∣ g.base.toNat) := by
  constructor
  · intro h g hg
    have hserves := h _ _ (create_of_accepts devId subdevId w hg)
    -- an index is computed, so the buffers have a size
    have hpos : 0 < (bufferSize size align).toNat := by
      have hindex := hserves.index 0
      rw [bfSysDmaBufferIndex] at hindex
      split_ifs at hindex with h0
      · cases hindex
      · rw [← UInt64.toNat_inj] at h0
        exact Nat.pos_of_ne_zero h0
    obtain ⟨hsize, halign⟩ := (bufferSize_pos_iff hg.size_le hg.pow2).mp hpos
    refine ⟨hsize, halign, fun hcnt =>
      (hg.dvd_first_iff halign).mp (hserves.aligned halign _ ?_)⟩
    have hcount : ∃ n, cnt.toInt.toNat = n + 1 := ⟨cnt.toInt.toNat - 1, by omega⟩
    obtain ⟨n, hn⟩ := hcount
    simp only [createdPool, hn, freeQueue]
    exact List.mem_cons_self
  · intro h pool w' hcreate
    obtain ⟨g, hg, rfl, -⟩ := create_some devId subdevId w hcreate
    obtain ⟨hsize, halign, hfirst⟩ := h g hg
    exact hg.serves devId subdevId hsize halign fun hcnt =>
      (hg.dvd_first_iff halign).mpr (hfirst hcnt)

/-- Two buffers of 64 bytes, with an alignment of 0: the buffers are one and the same. -/
theorem serves_zero_align :
    ¬ ∀ pool w', bfSysDmaPoolCreate (.granting (fun _ => .entry 1) none) 0 0 64 2 0
        ⟨[], fun _ => 0⟩ = (some pool, w') → Serves pool 64 0 := by
  intro h
  have hg : Accepts (.granting (fun _ => .entry 1) none) 64 2 0 .granting := by
    constructor <;> decide
  exact absurd (h _ _ (create_of_accepts 0 0 _ hg)).distinct (by decide)

end TargetSys.Dma
