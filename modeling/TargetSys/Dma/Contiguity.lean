import Mathlib.Data.Nat.Prime.Basic
import TargetSys.Dma.Translation

/-!
# Buffers and page boundaries

Reference: `src/bf_sal/linux_usr/bf_sys_dma_hugepages.c`, `bf_sys_dma_pool_create` ("offset the
allocation of the buffers so that none of the buffers in the memory pool spill over from a physical
page"), and `tests/test_dma_mem.c`, `test_dma_2_virt`.

The header offset puts the first page boundary between two buffers only if the buffer size divides
what is left of the first page, and the later boundaries only if it divides a page. A device that
is given the address of any other buffer writes into a foreign page.

## Main results

* `Accepts.forall_inPage_iff`: when no buffer of a pool crosses a page boundary.
* `contiguous_iff`: this is also when every buffer is contiguous on the bus, whatever the addresses
  of the pages.
-/

namespace TargetSys.Dma

open Transition ByteMemory Align

/-- Buffers of size `s`, `c` of them, whose layout puts every page boundary between two of them: one
page is enough, or a page is a whole number of buffers, or there are two pages and the boundary
between them is met. -/
def FitsPages (s c : ℕ) : Prop :=
  s * c + 2 ^ 12 ≤ 2 ^ 21 ∨ s ∣ 2 ^ 21 ∨
    s ≤ 2 ^ 21 ∧ s ∣ 2 ^ 21 - roundUp s (2 ^ 12) ∧ roundUp s (2 ^ 12) + s * c ≤ 2 * 2 ^ 21

instance (s c : ℕ) : Decidable (FitsPages s c) := inferInstanceAs (Decidable (_ ∨ _ ∨ _))

/-! ## Tiles behind a header -/

/-- A divisor of a page divides what it leaves of the first page. -/
theorem dvd_sub_roundUp {s : ℕ} (hs : s ∣ 2 ^ 21) : s ∣ 2 ^ 21 - roundUp s (2 ^ 12) := by
  refine Nat.dvd_sub hs ?_
  obtain ⟨j, -, rfl⟩ := (Nat.dvd_prime_pow Nat.prime_two).mp hs
  rcases Nat.le_total j 12 with hj | hj
  · exact (Nat.pow_dvd_pow 2 hj).trans (dvd_roundUp ..)
  · rw [roundUp_of_dvd (by simp) (Nat.pow_dvd_pow 2 hj)]

/-- The header of `bf_sys_dma_pool_create`, and the buffers behind it. -/
theorem forall_inPage_header_iff {s c : ℕ} (hc : 1 ≤ c) :
    (∀ i < c, InPage (2 ^ 21)
      ((if 2 ^ 21 < s * c + 2 ^ 12 then roundUp s (2 ^ 12) else 2 ^ 12) + i * s) s) ↔
      FitsPages s c := by
  rw [FitsPages]
  split
  · rename_i hlarge
    have hspos : 0 < s := by
      by_contra h0
      rw [Nat.eq_zero_of_not_pos h0, Nat.zero_mul] at hlarge
      omega
    have hheader := le_roundUp (n := s) (Nat.two_pow_pos 12)
    rcases Nat.lt_or_ge (2 ^ 21) s with hs | hs
    · -- a buffer larger than a page
      constructor
      · intro hall
        have hfirst := inPage_iff.mp (hall 0 hc)
        omega
      · rintro (h | h | h)
        · omega
        · exact absurd (Nat.le_of_dvd (Nat.two_pow_pos 21) h) (by omega)
        · omega
    · -- a buffer that fits a page, behind a header as large as the buffer rounded up
      have hle : roundUp s (2 ^ 12) ≤ 2 ^ 21 :=
        roundUp_le_of_dvd (Nat.two_pow_pos 12) ⟨2 ^ 9, rfl⟩ hs
      have hpos : 2 ^ 12 ≤ roundUp s (2 ^ 12) :=
        Nat.le_of_dvd (hspos.trans_le hheader) (dvd_roundUp ..)
      rw [forall_inPage_iff hspos (Nat.two_pow_pos 21) hle (by rw [Nat.mul_comm]; omega),
        Nat.mul_comm c s]
      constructor
      · rintro ⟨hfirst, hdvd | hend⟩
        · exact .inr (.inl hdvd)
        · exact .inr (.inr ⟨hs, hfirst, hend⟩)
      · rintro (h | h | ⟨-, hfirst, hend⟩)
        · omega
        · exact ⟨dvd_sub_roundUp h, .inl h⟩
        · exact ⟨hfirst, .inr hend⟩
  · -- header and buffers in one page
    rename_i hsmall
    rw [Nat.not_lt] at hsmall
    refine iff_of_true (fun i hi => ⟨0, by simp, ?_⟩) (.inl hsmall)
    have hend : i * s + s ≤ s * c := by
      rw [← Nat.succ_mul, Nat.mul_comm]
      exact Nat.mul_le_mul_left _ hi
    omega

/-- **Buffers and page boundaries.** No buffer of a created pool crosses a page boundary exactly
when the layout fits. -/
theorem Accepts.forall_inPage_iff {pf : Platform} {size : UInt64} {cnt : Int32} {align : UInt32}
    {g : Grant} (hg : Accepts pf size cnt align g) (devId : Int32) (subdevId : UInt32)
    (hcnt : 1 ≤ cnt.toInt) :
    (∀ i < cnt.toInt.toNat,
      InPage (2 ^ 21) ((createdPool pf devId subdevId size cnt align g).bufAddr i).toNat
        (bufferSize size align).toNat) ↔
      FitsPages (bufferSize size align).toNat cnt.toInt.toNat := by
  have hlayout := hg.layout devId subdevId
  have hheader := toNat_headerOffset hg.bufferSize_le hg.cnt_nonneg
  rw [← forall_inPage_header_iff (by omega), ← hheader]
  refine forall₂_congr fun i hi => ?_
  have haddr := (hlayout.toNat_bufAddr (i := i) hi).1
  rw [haddr, Nat.add_assoc, inPage_add_left hlayout.aligned]
  simp only [createdPool]

/-! ## What a device sees -/

/-- The platform with a map function that puts page `k` at `d k`. -/
def Platform.assigning (pf : Platform) (d : ℕ → UInt64) : Platform :=
  { pf with mapFn := some fun k _ => (0, d k) }

/-- Whatever the addresses of the pages on the bus, as long as their ranges are disjoint and end
below `2 ^ 64`: after any run of clients, the bytes from the DMA address that an allocation returns
are those of its buffer. -/
def TranslatesWhole (pf : Platform) (devId : Int32) (subdevId : UInt32) (size : UInt64)
    (cnt : Int32) (align : UInt32) : Prop :=
  ∀ (d : ℕ → UInt64) (w w' : World) (pool : BfHugePool),
    bfSysDmaPoolCreate (pf.assigning d) devId subdevId size cnt align w = (some pool, w') →
    RangesDisjoint pool → Translated pool →
    ∀ (κ : Type) [DecidableEq κ] (es : List (ClientEvent κ)) (s : ClientState κ),
      Run ClientStep (clientsInitial κ pool w') es s →
      ∀ req v phys, (bfSysDmaAlloc s.pool req).1 = .ok v phys →
        ∀ j < pool.bufSize.toNat,
          bfMemDma2virt s.pool (phys + UInt64.ofNat j) = some (v + UInt64.ofNat j)

section Device

variable {pool : BfHugePool} {base : Addr}

/-- A buffer inside a page is contiguous on the bus. -/
theorem dma2virt_of_inPage (hlayout : Layout pool base) (htr : Translated pool)
    (hdisj : RangesDisjoint pool) {i j : ℕ} (hi : i < pool.count) (hj : j < pool.bufSize.toNat)
    (hin : InPage (2 ^ 21) (pool.bufAddr i).toNat pool.bufSize.toNat) {phys : UInt64}
    (hphys : bfSysDmaGetPhyAddrFromPool pool (pool.bufAddr i) = some phys) :
    bfMemDma2virt pool (phys + UInt64.ofNat j) = some (pool.bufAddr i + UInt64.ofNat j) := by
  obtain ⟨haddr, -⟩ := hlayout.toNat_bufAddr hi
  obtain ⟨page, hpage, hoff, hget⟩ := hlayout.getPhyAddr (v := pool.bufAddr i) (by omega)
    (hlayout.bufAddr_lt hi)
  rw [hphys, Option.some.injEq] at hget
  have hmem := List.mem_of_getElem? hpage
  have hend := htr page hmem
  have hj64 : (UInt64.ofNat j).toNat = j := UInt64.toNat_ofNat_of_lt' (by
    have := pool.bufSize.toNat_lt
    simp only [UInt64.size]
    omega)
  have hsplit : (pool.bufAddr i).toNat =
      base.toNat + ((pool.bufAddr i).toNat - base.toNat) := by omega
  rw [hsplit, inPage_add_left hlayout.aligned, inPage_iff] at hin
  rw [bfMemDma2virt_eq_some hlayout htr hdisj hmem]
  · rw [hget, UInt64.add_assoc, UInt64.add_comm page.baseDmaAddr, UInt64.add_sub_cancel,
      ← UInt64.add_assoc, UInt64.add_comm page.baseVirtAddr, UInt64.sub_add_cancel]
  · rw [hget, HugePageInfo.Holds, UInt64.add_assoc, UInt64.toNat_add, UInt64.toNat_add, hoff, hj64,
      Nat.mod_eq_of_lt (by omega), Nat.mod_eq_of_lt (by omega)]
    omega

/-- A buffer that crosses a boundary: with page `k` at `2 ^ 22 * k`, the first byte behind the
boundary is not where the address of the buffer leads. -/
theorem dma2virt_of_not_inPage (hlayout : Layout pool base) (htr : Translated pool)
    (hassign : ∀ (k : ℕ) (page : HugePageInfo), pool.hugePageInfo[k]? = some page →
      page.baseDmaAddr.toNat = 2 ^ 22 * k)
    {i : ℕ} (hi : i < pool.count)
    (hin : ¬ InPage (2 ^ 21) (pool.bufAddr i).toNat pool.bufSize.toNat) {phys : UInt64}
    (hphys : bfSysDmaGetPhyAddrFromPool pool (pool.bufAddr i) = some phys) :
    ∃ j < pool.bufSize.toNat, bfMemDma2virt pool (phys + UInt64.ofNat j) = none := by
  obtain ⟨haddr, -⟩ := hlayout.toNat_bufAddr hi
  obtain ⟨page, hpage, hoff, hget⟩ := hlayout.getPhyAddr (v := pool.bufAddr i) (by omega)
    (hlayout.bufAddr_lt hi)
  rw [hphys, Option.some.injEq] at hget
  have hmem := List.mem_of_getElem? hpage
  have hend := htr page hmem
  have hdma := hassign _ page hpage
  have hsplit : (pool.bufAddr i).toNat =
      base.toNat + ((pool.bufAddr i).toNat - base.toNat) := by omega
  rw [hsplit, inPage_add_left hlayout.aligned, inPage_iff, Nat.not_le] at hin
  have hlt := Nat.mod_lt ((pool.bufAddr i).toNat - base.toNat) (Nat.two_pow_pos 21)
  -- the first byte of the next page
  refine ⟨2 ^ 21 - ((pool.bufAddr i).toNat - base.toNat) % 2 ^ 21, by omega, ?_⟩
  refine bfMemDma2virt_eq_none hlayout htr fun q hq => ?_
  obtain ⟨k, hk, rfl⟩ := List.mem_iff_getElem.mp hq
  have hqdma := hassign k _ (List.getElem?_eq_getElem hk)
  have hj64 : (UInt64.ofNat (2 ^ 21 - ((pool.bufAddr i).toNat - base.toNat) % 2 ^ 21)).toNat =
      2 ^ 21 - ((pool.bufAddr i).toNat - base.toNat) % 2 ^ 21 := UInt64.toNat_ofNat_of_lt' (by
    simp only [UInt64.size]
    omega)
  rw [hget, HugePageInfo.Holds, UInt64.add_assoc, UInt64.toNat_add, UInt64.toNat_add, hoff, hj64,
    Nat.mod_eq_of_lt (by omega), Nat.mod_eq_of_lt (by omega)]
  omega

end Device

section Assignments

variable {pf : Platform} {size : UInt64} {cnt : Int32} {align : UInt32} {g : Grant}

/-- The checks of a create do not ask the map function. -/
theorem Accepts.assigning (hg : Accepts pf size cnt align g) (d : ℕ → UInt64) :
    Accepts (pf.assigning d) size cnt align g :=
  ⟨hg.pow2, hg.size_le, hg.pool, hg.queue, hg.mapping, hg.info, hg.first⟩

/-- Pages at every other place of 2 MiB. -/
def everyOther (k : ℕ) : UInt64 := UInt64.ofNat (2 ^ 22 * k)

/-- With every other huge page of the bus, page `k` of the mapping is at `2 ^ 22 * k`. -/
theorem Accepts.everyOther_page (hg : Accepts (pf.assigning everyOther) size cnt align g)
    (devId : Int32) (subdevId : UInt32) {k : ℕ} {page : HugePageInfo}
    (hpage : (createdPool (pf.assigning everyOther) devId subdevId size cnt align
      g).hugePageInfo[k]? = some page) :
    page.baseDmaAddr.toNat = 2 ^ 22 * k ∧ k < 2 ^ 26 := by
  have hspace := (hg.layout devId subdevId).in_user_space
  have hlen := (List.getElem?_eq_some_iff.mp hpage).1
  have hk : k < 2 ^ 26 := by omega
  simp only [createdPool] at hpage
  obtain ⟨-, rfl⟩ := (getElem?_pageTable _).mp hpage
  simp only [pageDma, Platform.assigning, everyOther, Nat.zero_add]
  refine ⟨UInt64.toNat_ofNat_of_lt' ?_, hk⟩
  simp only [UInt64.size]
  omega

/-- Such an assignment is one that the claims about translations allow: the pages do not overlap,
and none is invalid. -/
theorem Accepts.everyOther_valid (hg : Accepts (pf.assigning everyOther) size cnt align g)
    (devId : Int32) (subdevId : UInt32) :
    RangesDisjoint (createdPool (pf.assigning everyOther) devId subdevId size cnt align g) ∧
      Translated (createdPool (pf.assigning everyOther) devId subdevId size cnt align g) := by
  constructor
  · rw [RangesDisjoint, List.pairwise_iff_getElem]
    intro i j hi hj hij
    have hdi := (hg.everyOther_page devId subdevId (List.getElem?_eq_getElem hi)).1
    have hdj := (hg.everyOther_page devId subdevId (List.getElem?_eq_getElem hj)).1
    omega
  · intro page hmem
    obtain ⟨k, hk, rfl⟩ := List.mem_iff_getElem.mp hmem
    obtain ⟨hdma, hlt⟩ := hg.everyOther_page devId subdevId (List.getElem?_eq_getElem hk)
    omega

/-- Where the layout does not fit, some buffer is not contiguous on the bus. -/
theorem Accepts.not_translatesWhole (hg : Accepts pf size cnt align g) {devId : Int32}
    {subdevId : UInt32} (hcnt : 1 ≤ cnt.toInt)
    (hfits : ¬ FitsPages (bufferSize size align).toNat cnt.toInt.toNat) :
    ¬ TranslatesWhole pf devId subdevId size cnt align := by
  intro h
  have hg' := hg.assigning everyOther
  rw [← hg'.forall_inPage_iff devId subdevId hcnt, not_forall] at hfits
  obtain ⟨i, hfits⟩ := hfits
  rw [Classical.not_imp] at hfits
  obtain ⟨hi, hin⟩ := hfits
  have hlayout := hg'.layout devId subdevId
  obtain ⟨hdisj, htr⟩ := hg'.everyOther_valid devId subdevId
  obtain ⟨phys, hphys, hne⟩ := hlayout.exists_phys htr
    (List.mem_map.mpr ⟨i, List.mem_range.mpr hi, rfl⟩)
  obtain ⟨j, hj, hnone⟩ := dma2virt_of_not_inPage hlayout htr
    (fun k page hpage => (hg'.everyOther_page devId subdevId hpage).1) hi hin hphys
  have hcreate := create_of_accepts devId subdevId ⟨[], fun _ => 0⟩ hg'
  obtain ⟨es, s, hrun, halloc⟩ := exists_run_alloc hlayout (createdPool_fresh ..)
    (bfSysDmaPoolCreate (pf.assigning everyOther) devId subdevId size cnt align
      ⟨[], fun _ => 0⟩).2 hi hphys hne
  rw [hcreate] at hrun
  have hsome := h everyOther _ _ _ hcreate hdisj htr Unit es s hrun 0 _ _ halloc j hj
  rw [(InPlace.of_run hlayout (createdPool_fresh ..) hrun).dma2virt, hnone] at hsome
  cases hsome

end Assignments

/-- **Contiguity of the buffers.** Let a create for at least one buffer, with a power of two as the
alignment, succeed. No buffer of the pool crosses a page boundary, and every buffer is contiguous on
the bus for every assignment of addresses to the pages, each exactly when the layout fits. -/
theorem contiguous_iff {pf : Platform} {devId : Int32} {subdevId : UInt32} {size : UInt64}
    {cnt : Int32} {align : UInt32} {w w' : World} {pool : BfHugePool} (hcnt : 1 ≤ cnt.toInt)
    (hpow2 : align.toNat.isPowerOfTwo)
    (hcreate : bfSysDmaPoolCreate pf devId subdevId size cnt align w = (some pool, w')) :
    ((∀ v ∈ pool.poolBufPtr, InPage (2 ^ 21) v.toNat pool.bufSize.toNat) ↔
      FitsPages (roundUp size.toNat align.toNat) cnt.toInt.toNat) ∧
    (TranslatesWhole pf devId subdevId size cnt align ↔
      FitsPages (roundUp size.toNat align.toNat) cnt.toInt.toNat) := by
  obtain ⟨g, hg, rfl, -⟩ := create_some devId subdevId w hcreate
  rw [← toNat_bufferSize hg.size_le hpow2]
  constructor
  · rw [← hg.forall_inPage_iff devId subdevId hcnt, (createdPool_fresh ..).slots]
    constructor
    · intro h i hi
      exact h _ (List.mem_map.mpr ⟨i, List.mem_range.mpr hi, rfl⟩)
    · intro h v hv
      obtain ⟨i, hi, rfl⟩ := List.mem_map.mp hv
      exact h i (List.mem_range.mp hi)
  · constructor
    · -- a buffer across two pages is not translated as a whole if the pages are apart on the bus
      intro h
      by_contra hfits
      exact hg.not_translatesWhole hcnt hfits h
    · intro hfits d w₁ w₂ pool hcreate' hdisj htr κ _ es s hrun req v phys halloc j hj
      obtain ⟨g', hg', rfl, -⟩ := create_some devId subdevId w₁ hcreate'
      have hlayout := hg'.layout devId subdevId
      have hplace := InPlace.of_run hlayout (createdPool_fresh ..) hrun
      obtain ⟨hpop, hphys, -⟩ := bfSysDmaAlloc_ok halloc
      rw [hplace.getPhyAddr] at hphys
      obtain ⟨i, hi, rfl⟩ := List.mem_map.mp
        (hplace.slots v (mem_of_bfPopFreeBuf hplace.valid hpop))
      have hi' := List.mem_range.mp hi
      rw [hplace.dma2virt]
      exact dma2virt_of_inPage hlayout htr hdisj hi' hj
        ((hg'.forall_inPage_iff devId subdevId hcnt).mpr hfits i hi') hphys

/-- Three buffers of 1 MiB on two pages: the boundary of the pages is one of the buffers. -/
theorem contiguous_iff_three :
    (∃ (pool : BfHugePool) (w : World),
      bfSysDmaPoolCreate (.granting (fun _ => .entry 1) none) 0 0 (2 ^ 20) 3 4096
        ⟨[], fun _ => 0⟩ = (some pool, w) ∧ pool.numHugePages = 2 ∧
      ∀ v ∈ pool.poolBufPtr, InPage (2 ^ 21) v.toNat pool.bufSize.toNat) ∧
    TranslatesWhole (.granting (fun _ => .entry 1) none) 0 0 (2 ^ 20) 3 4096 := by
  have hg : Accepts (.granting (fun _ => .entry 1) none) (2 ^ 20) 3 4096 .granting := by
    constructor <;> decide
  have hiff := contiguous_iff (by decide) ⟨12, by decide⟩ (create_of_accepts 0 0 ⟨[], fun _ => 0⟩ hg)
  exact ⟨⟨_, _, create_of_accepts 0 0 _ hg, by decide, hiff.1.mpr (by decide)⟩,
    hiff.2.mpr (by decide)⟩

/-- Two buffers of 1.5 MiB: the first one ends behind the first boundary. -/
theorem contiguous_large :
    (∃ (pool : BfHugePool) (w : World),
      bfSysDmaPoolCreate (.granting (fun _ => .entry 1) none) 0 0 1572864 2 4096
        ⟨[], fun _ => 0⟩ = (some pool, w) ∧
      ¬ ∀ v ∈ pool.poolBufPtr, InPage (2 ^ 21) v.toNat pool.bufSize.toNat) ∧
    ¬ TranslatesWhole (.granting (fun _ => .entry 1) none) 0 0 1572864 2 4096 := by
  have hg : Accepts (.granting (fun _ => .entry 1) none) 1572864 2 4096 .granting := by
    constructor <;> decide
  constructor
  · refine ⟨_, _, create_of_accepts 0 0 _ hg, fun h => ?_⟩
    have hfirst := inPage_iff.mp (h (2 ^ 30 + 1572864) (by decide))
    exact absurd hfirst (by decide)
  · exact hg.not_translatesWhole (by decide) (by decide)

end TargetSys.Dma
