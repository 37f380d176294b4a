import TargetSys.Dma.Clients

/-!
# The two address translations

Reference: `src/bf_sal/linux_usr/bf_sys_dma_hugepages.c`, `bf_sys_dma_get_phy_addr_from_pool`,
`bf_mem_dma2virt` and `bf_mem_virt2phy`.

From virtual to DMA addresses the library indexes the page table; in the other direction it scans
the table and stops at the first page that holds the address. Both are compared with each other,
and the former with a walk of the kernel's page map.

## Main results

* `translations_inverse`: the two are inverse to each other where the DMA ranges of the pages are
  disjoint.
* `getPhyAddr_eq_virt2phy`: where huge pages are contiguous in physical memory, the table gives what
  the page map gives.
-/

namespace TargetSys.Dma

open ByteMemory

/-! ## The scan -/

/-- The address `a` lies in the DMA range of `page`. -/
def HugePageInfo.Holds (page : HugePageInfo) (a : UInt64) : Prop :=
  page.baseDmaAddr.toNat ≤ a.toNat ∧ a.toNat < page.baseDmaAddr.toNat + 2 ^ 21

/-- The DMA ranges of different pages have no address in common. -/
def RangesDisjoint (pool : BfHugePool) : Prop :=
  pool.hugePageInfo.Pairwise fun p q =>
    p.baseDmaAddr.toNat + 2 ^ 21 ≤ q.baseDmaAddr.toNat ∨
      q.baseDmaAddr.toNat + 2 ^ 21 ≤ p.baseDmaAddr.toNat

instance (pool : BfHugePool) : Decidable (RangesDisjoint pool) :=
  inferInstanceAs (Decidable (List.Pairwise _ _))

section Scan

variable {pool : BfHugePool} {base : Addr} {page : HugePageInfo} {a : UInt64}

/-- The test of `bf_mem_dma2virt`, for a page that ends below `2 ^ 64`. -/
theorem HugePageInfo.test_iff (hpage : page.baseDmaAddr.toNat + 2 ^ 21 < 2 ^ 64) :
    (page.baseDmaAddr ≤ a ∧ a < page.baseDmaAddr + bfHugePageSize) ↔ page.Holds a := by
  rw [UInt64.le_iff_toNat_le, UInt64.lt_iff_toNat_lt, UInt64.toNat_add, toNat_bfHugePageSize,
    Nat.mod_eq_of_lt hpage]
  rfl

/-- The search covers the whole table. -/
theorem Layout.take_hugePageInfo (hlayout : Layout pool base) :
    pool.hugePageInfo.take pool.numHugePages.toInt.toNat = pool.hugePageInfo := by
  rw [hlayout.numHugePages, Int.toNat_natCast, List.take_length]

/-- An address that no page holds is not translated. -/
theorem bfMemDma2virt_eq_none (hlayout : Layout pool base) (htr : Translated pool)
    (hno : ∀ page ∈ pool.hugePageInfo, ¬ page.Holds a) : bfMemDma2virt pool a = none := by
  have hfind : pool.hugePageInfo.find? (fun page =>
      page.baseDmaAddr ≤ a ∧ a < page.baseDmaAddr + bfHugePageSize) = none := by
    rw [List.find?_eq_none]
    intro page hmem
    rw [decide_eq_true_iff, HugePageInfo.test_iff (htr page hmem)]
    exact hno page hmem
  simp only [bfMemDma2virt, hlayout.take_hugePageInfo, hfind]

/-- With disjoint ranges, the scan finds the page that holds the address. -/
theorem bfMemDma2virt_eq_some (hlayout : Layout pool base) (htr : Translated pool)
    (hdisj : RangesDisjoint pool) (hmem : page ∈ pool.hugePageInfo) (hholds : page.Holds a) :
    bfMemDma2virt pool a = some (page.baseVirtAddr + (a - page.baseDmaAddr)) := by
  have hfind : pool.hugePageInfo.find? (fun page =>
      page.baseDmaAddr ≤ a ∧ a < page.baseDmaAddr + bfHugePageSize) = some page := by
    cases hfound : pool.hugePageInfo.find? (fun page =>
        page.baseDmaAddr ≤ a ∧ a < page.baseDmaAddr + bfHugePageSize) with
    | none =>
        rw [List.find?_eq_none] at hfound
        have htest := hfound page hmem
        rw [decide_eq_true_iff, HugePageInfo.test_iff (htr page hmem)] at htest
        exact absurd hholds htest
    | some q =>
        have hq := List.mem_of_find?_eq_some hfound
        have htest := List.find?_some hfound
        rw [decide_eq_true_iff, HugePageInfo.test_iff (htr q hq)] at htest
        obtain ⟨i, hi, rfl⟩ := List.mem_iff_getElem.mp hmem
        obtain ⟨j, hj, rfl⟩ := List.mem_iff_getElem.mp hq
        obtain ⟨hlo, hhi⟩ := hholds
        obtain ⟨hlo', hhi'⟩ := htest
        -- both pages hold the address, so they are one
        rcases Nat.lt_trichotomy i j with hij | rfl | hij
        · have hapart := List.pairwise_iff_getElem.mp hdisj i j hi hj hij
          omega
        · rfl
        · have hapart := List.pairwise_iff_getElem.mp hdisj j i hj hi hij
          omega
  simp only [bfMemDma2virt, hlayout.take_hugePageInfo, hfind]

end Scan

/-! ## The translations of a created pool -/

/-- **The two translations are inverse to each other.** For a created pool whose pages have disjoint
DMA ranges below `2 ^ 64`: every virtual address of the mapping is recovered from its DMA address,
every DMA address in the range of a page from its virtual address, and no other is translated. -/
theorem translations_inverse {pf : Platform} {devId : Int32} {subdevId : UInt32} {size : UInt64}
    {cnt : Int32} {align : UInt32} {w w' : World} {pool : BfHugePool}
    (hcreate : bfSysDmaPoolCreate pf devId subdevId size cnt align w = (some pool, w'))
    (hdisj : RangesDisjoint pool) (htr : Translated pool) :
    let base := pool.poolPtr - pool.poolHdrOffset.toUInt64
    let len := pool.numHugePages.toInt.toNat * 2 ^ 21
    (∀ v : Addr, base.toNat ≤ v.toNat → v.toNat < base.toNat + len →
      ∃ d, bfSysDmaGetPhyAddrFromPool pool v = some d ∧ bfMemDma2virt pool d = some v) ∧
    (∀ d : UInt64, (∃ page ∈ pool.hugePageInfo, page.Holds d) →
      ∃ v, base.toNat ≤ v.toNat ∧ v.toNat < base.toNat + len ∧
        bfMemDma2virt pool d = some v ∧ bfSysDmaGetPhyAddrFromPool pool v = some d) ∧
    ∀ d : UInt64, (∀ page ∈ pool.hugePageInfo, ¬ page.Holds d) → bfMemDma2virt pool d = none := by
  obtain ⟨g, hg, hpool, -⟩ := create_some devId subdevId w hcreate
  have hlayout : Layout pool g.base := hpool ▸ hg.layout devId subdevId
  have hbase : pool.poolPtr - pool.poolHdrOffset.toUInt64 = g.base := by
    rw [hlayout.poolPtr, hlayout.bufStart, UInt64.add_sub_cancel]
  have hlen : pool.numHugePages.toInt.toNat = pool.hugePageInfo.length := by
    rw [hlayout.numHugePages, Int.toNat_natCast]
  have hspace := hlayout.in_user_space
  simp only [hbase, hlen]
  refine ⟨fun v hlo hhi => ?_, fun d ⟨page, hmem, hholds⟩ => ?_, fun d hno => ?_⟩
  · -- from the address to its page, and back through the only page that holds the result
    obtain ⟨page, hpage, hoff, hphys⟩ := hlayout.getPhyAddr hlo hhi
    have hmem := List.mem_of_getElem? hpage
    have hlt := Nat.mod_lt (v.toNat - g.base.toNat) (Nat.two_pow_pos 21)
    have hend := htr page hmem
    refine ⟨_, hphys, ?_⟩
    rw [bfMemDma2virt_eq_some hlayout htr hdisj hmem]
    · rw [UInt64.add_comm page.baseDmaAddr, UInt64.add_sub_cancel, UInt64.add_comm,
        UInt64.sub_add_cancel]
    · rw [HugePageInfo.Holds, UInt64.toNat_add, hoff, Nat.mod_eq_of_lt (by omega)]
      omega
  · -- page `k` of the table holds `d`, and the address found lies in page `k` of the mapping
    obtain ⟨k, hk⟩ := List.mem_iff_getElem?.mp hmem
    obtain ⟨hklt, -⟩ := List.getElem?_eq_some_iff.mp hk
    have hvirt := hlayout.virt k page hk
    have haddr := hlayout.toNat_pageAddr hklt.le
    have hkle : (k + 1) * 2 ^ 21 ≤ pool.hugePageInfo.length * 2 ^ 21 :=
      Nat.mul_le_mul_right _ hklt
    rw [Nat.succ_mul] at hkle
    obtain ⟨hdlo, hdhi⟩ := hholds
    have hoff : (d - page.baseDmaAddr).toNat = d.toNat - page.baseDmaAddr.toNat :=
      UInt64.toNat_sub_of_le _ _ (UInt64.le_iff_toNat_le.mpr hdlo)
    have hv : (page.baseVirtAddr + (d - page.baseDmaAddr)).toNat =
        g.base.toNat + k * 2 ^ 21 + (d.toNat - page.baseDmaAddr.toNat) := by
      rw [UInt64.toNat_add, hvirt, haddr, hoff, Nat.mod_eq_of_lt (by omega)]
    obtain ⟨page', hpage', -, hphys⟩ := hlayout.getPhyAddr
      (v := page.baseVirtAddr + (d - page.baseDmaAddr)) (by omega) (by omega)
    have hindex : ((page.baseVirtAddr + (d - page.baseDmaAddr)).toNat - g.base.toNat) / 2 ^ 21 =
        k := by
      rw [hv]
      omega
    rw [hindex, hk, Option.some.injEq] at hpage'
    subst hpage'
    refine ⟨_, ?_, ?_, bfMemDma2virt_eq_some hlayout htr hdisj hmem ⟨hdlo, hdhi⟩, ?_⟩
    · omega
    · omega
    · rw [hphys, UInt64.add_comm page.baseVirtAddr, UInt64.add_sub_cancel, UInt64.add_comm,
        UInt64.sub_add_cancel]
  · exact bfMemDma2virt_eq_none hlayout htr hno

/-- Two pages, the second one below the first on the bus: an address of the second page. -/
theorem translations_inverse_two :
    ∃ (pool : BfHugePool) (w : World),
      bfSysDmaPoolCreate (.granting (fun _ => .entry 1)
        (some fun i _ => (0, if i = 0 then 0x800000 else 0x400000))) 0 0 (2 ^ 20) 3 4096
        ⟨[], fun _ => 0⟩ = (some pool, w) ∧
      ∃ d, bfSysDmaGetPhyAddrFromPool pool (2 ^ 30 + 2 ^ 21 + 5) = some d ∧
        bfMemDma2virt pool d = some (2 ^ 30 + 2 ^ 21 + 5) := by
  have hg : Accepts (.granting (fun _ => .entry 1)
      (some fun i _ => (0, if i = 0 then 0x800000 else 0x400000))) (2 ^ 20) 3 4096 .granting := by
    constructor <;> decide
  refine ⟨_, _, create_of_accepts 0 0 _ hg, ?_⟩
  exact (translations_inverse (create_of_accepts 0 0 ⟨[], fun _ => 0⟩ hg) (by decide)
    (by decide)).1 (2 ^ 30 + 2 ^ 21 + 5) (by decide) (by decide)

/-! ## The walk of the page map -/

/-- The page frame number of an entry of `/proc/self/pagemap`: its bits 0 to 54. -/
def frameNumber (entry : UInt64) : UInt64 := entry &&& 0x7fffffffffffff

section Pagemap

variable {pageSize : UInt64} {m : ℕ}

/-- A successful lookup without a map function is noted down as it is. -/
theorem bfMemVirt2dma_entry {lookup : UInt64 → Pagemap} {page : UInt64} {v : Addr}
    (h : lookup (pagemapOffset pageSize v) = .entry page) :
    bfMemVirt2dma pageSize lookup v = frameNumber page * pageSize + v % pageSize := by
  have hphy : bfMemVirt2phy pageSize lookup v = frameNumber page * pageSize + v % pageSize := by
    rw [bfMemVirt2phy, h]
    rfl
  rw [bfMemVirt2dma, hphy]
  exact ite_eq_right_iff.mpr Eq.symm

/-- `off` bytes into a block of consecutive frames. -/
theorem frame_add_offset (hps : pageSize.toNat = 2 ^ m) {frame : UInt64} {v start : Addr}
    (halign : pageSize.toNat ∣ start.toNat) (hle : start.toNat ≤ v.toNat) :
    (frame + UInt64.ofNat ((v.toNat - start.toNat) / pageSize.toNat)) * pageSize + v % pageSize =
      frame * pageSize + start % pageSize + (v - start) := by
  have hpos : 0 < pageSize.toNat := hps ▸ Nat.two_pow_pos m
  have hv := v.toNat_lt
  have hdiv := Nat.div_add_mod' (v.toNat - start.toNat) pageSize.toNat
  have hsub : (v - start).toNat = v.toNat - start.toNat :=
    UInt64.toNat_sub_of_le _ _ (UInt64.le_iff_toNat_le.mpr hle)
  have hstart : start % pageSize = 0 := by
    rw [← UInt64.toNat_inj, UInt64.toNat_mod, Nat.mod_eq_zero_of_dvd halign]
    rfl
  have hmod : v.toNat % pageSize.toNat = (v.toNat - start.toNat) % pageSize.toNat := by
    obtain ⟨x, hx⟩ := halign
    have hsplit : v.toNat = v.toNat - start.toNat + pageSize.toNat * x := by omega
    conv_lhs => rw [hsplit]
    exact Nat.add_mul_mod_self_left ..
  have hquot : (v.toNat - start.toNat) / pageSize.toNat < 2 ^ 64 :=
    (Nat.div_le_self ..).trans_lt (by omega)
  have hrest : UInt64.ofNat ((v.toNat - start.toNat) / pageSize.toNat) * pageSize + v % pageSize =
      v - start := by
    rw [← UInt64.toNat_inj, UInt64.toNat_add, UInt64.toNat_mul, UInt64.toNat_mod, hmod, hsub,
      UInt64.toNat_ofNat_of_lt' hquot, Nat.mod_add_mod, hdiv, Nat.mod_eq_of_lt (by omega)]
  rw [UInt64.add_mul, UInt64.add_assoc, hrest, hstart, UInt64.add_zero]

end Pagemap

/-- The same for every address of the mapping. -/
theorem Accepts.getPhyAddr_eq_walk {pf : Platform} {size : UInt64} {cnt : Int32}
    {align : UInt32} {g : Grant} {entry : ℕ → UInt64} {m : ℕ} (hg : Accepts pf size cnt align g)
    (devId : Int32) (subdevId : UInt32) (hm : m ≤ 21) (hps : pf.pageSize.toNat = 2 ^ m)
    (hmap : pf.mapFn = none)
    (hlookup : ∀ i < (pageCount (bufferSize size align) cnt).toInt.toNat,
      pf.pagemap i (pagemapOffset pf.pageSize (pageAddr g.base i)) =
        .entry (entry ((pageAddr g.base i).toNat / pf.pageSize.toNat)))
    (hframes : ∀ i < (pageCount (bufferSize size align) cnt).toInt.toNat,
      ∀ k < 2 ^ 21 / pf.pageSize.toNat,
      (frameNumber (entry ((pageAddr g.base i).toNat / pf.pageSize.toNat + k))).toNat =
        (frameNumber (entry ((pageAddr g.base i).toNat / pf.pageSize.toNat))).toNat + k)
    {v : Addr} (hlo : g.base.toNat ≤ v.toNat)
    (hhi : v.toNat < g.base.toNat +
      (createdPool pf devId subdevId size cnt align g).hugePageInfo.length * 2 ^ 21)
    {lookup : UInt64 → Pagemap}
    (hv : lookup (pagemapOffset pf.pageSize v) = .entry (entry (v.toNat / pf.pageSize.toNat))) :
    bfSysDmaGetPhyAddrFromPool (createdPool pf devId subdevId size cnt align g) v =
      some (bfMemVirt2phy pf.pageSize lookup v) := by
  have hlayout := hg.layout devId subdevId
  obtain ⟨page, -, -, hphys⟩ := hlayout.getPhyAddr hlo hhi
  obtain ⟨k, hk, hstartle, hend, heq⟩ := hg.phys_eq hlo hhi hphys
  -- the page begins with a frame
  have hdvd : pf.pageSize.toNat ∣ 2 ^ 21 := hps ▸ Nat.pow_dvd_pow 2 hm
  have hstart : pf.pageSize.toNat ∣ (pageAddr g.base k).toNat := by
    have hkle : k ≤ (createdPool pf devId subdevId size cnt align g).hugePageInfo.length := by
      simp only [createdPool, pageTable, List.length_map, List.length_range]
      exact hk.le
    rw [hlayout.toNat_pageAddr hkle]
    exact Nat.dvd_add (hdvd.trans hlayout.aligned) (hdvd.mul_left k)
  -- the number of frames from there to `v`
  have hframe := hframes k hk ((v.toNat - (pageAddr g.base k).toNat) / pf.pageSize.toNat)
    (Nat.div_lt_div_of_lt_of_dvd hdvd (by omega))
  have hnumber : (pageAddr g.base k).toNat / pf.pageSize.toNat +
      (v.toNat - (pageAddr g.base k).toNat) / pf.pageSize.toNat = v.toNat / pf.pageSize.toNat := by
    rw [← Nat.add_div_of_dvd_right hstart, Nat.add_sub_cancel' hstartle]
  rw [hnumber] at hframe
  have hsum : frameNumber (entry (v.toNat / pf.pageSize.toNat)) =
      frameNumber (entry ((pageAddr g.base k).toNat / pf.pageSize.toNat)) +
        UInt64.ofNat ((v.toNat - (pageAddr g.base k).toNat) / pf.pageSize.toNat) := by
    have hlt := (frameNumber (entry (v.toNat / pf.pageSize.toNat))).toNat_lt
    rw [hframe] at hlt
    rw [← UInt64.toNat_inj, hframe, UInt64.toNat_add, UInt64.toNat_ofNat_of_lt' (by
      simp only [UInt64.size]
      omega), Nat.mod_eq_of_lt hlt]
  rw [hphys, heq, pageDma, hmap]
  simp only [bfMemVirt2dma_entry (hlookup k hk)]
  rw [← frame_add_offset hps hstart hstartle, ← hsum, bfMemVirt2phy, hv]
  rfl

/-- **The table agrees with the page map.** `entry` is the kernel's page map, by virtual page
number. Without a map function, and with each huge page backed by consecutive frames, the table of
a created pool gives every address of every buffer what the page map gives it. -/
theorem getPhyAddr_eq_virt2phy {pf : Platform} {devId : Int32} {subdevId : UInt32} {size : UInt64}
    {cnt : Int32} {align : UInt32} {w w' : World} {pool : BfHugePool} {entry : ℕ → UInt64} {m : ℕ}
    (hm : m ≤ 21) (hps : pf.pageSize.toNat = 2 ^ m) (hmap : pf.mapFn = none)
    (hcreate : bfSysDmaPoolCreate pf devId subdevId size cnt align w = (some pool, w'))
    (hlookup : ∀ i < pool.numHugePages.toInt.toNat,
      let start := pageAddr (pool.poolPtr - pool.poolHdrOffset.toUInt64) i
      pf.pagemap i (pagemapOffset pf.pageSize start) =
        .entry (entry (start.toNat / pf.pageSize.toNat)))
    (hframes : ∀ i < pool.numHugePages.toInt.toNat, ∀ k < 2 ^ 21 / pf.pageSize.toNat,
      let first := (pageAddr (pool.poolPtr - pool.poolHdrOffset.toUInt64) i).toNat /
        pf.pageSize.toNat
      (frameNumber (entry (first + k))).toNat = (frameNumber (entry first)).toNat + k)
    {i j : ℕ} (hi : i < cnt.toInt.toNat) (hj : j < pool.bufSize.toNat)
    {lookup : UInt64 → Pagemap} :
    let v := pool.bufStart + UInt64.ofNat i * pool.bufSize + UInt64.ofNat j
    lookup (pagemapOffset pf.pageSize v) = .entry (entry (v.toNat / pf.pageSize.toNat)) →
    bfSysDmaGetPhyAddrFromPool pool v = some (bfMemVirt2phy pf.pageSize lookup v) := by
  obtain ⟨g, hg, rfl, -⟩ := create_some devId subdevId w hcreate
  have hlayout := hg.layout devId subdevId
  rw [createdPool_base] at hlookup hframes
  obtain ⟨haddr, -⟩ := hlayout.toNat_bufAddr hi
  obtain ⟨hbyte, hend⟩ := hlayout.toNat_byte hi hj
  intro v hv
  exact hg.getPhyAddr_eq_walk devId subdevId hm hps hmap hlookup hframes
    (v := (createdPool pf devId subdevId size cnt align g).bufAddr i + UInt64.ofNat j)
    (by omega) (by omega) hv

/-- The frame number is the lower 55 bits of the entry. -/
theorem toNat_frameNumber (entry : UInt64) : (frameNumber entry).toNat = entry.toNat % 2 ^ 55 := by
  rw [frameNumber, UInt64.toNat_and, ← Nat.and_two_pow_sub_one_eq_mod]
  rfl

/-- A page map that maps every page to the frame of the same number: the last byte of the second of
two buffers. -/
theorem getPhyAddr_eq_virt2phy_identity :
    ∃ (pool : BfHugePool) (w : World),
      bfSysDmaPoolCreate (.granting (fun i => .entry (UInt64.ofNat (2 ^ 18 + i * 512))) none) 0 0
        64 2 64 ⟨[], fun _ => 0⟩ = (some pool, w) ∧
      let v := pool.bufStart + UInt64.ofNat 1 * pool.bufSize + UInt64.ofNat 63
      bfSysDmaGetPhyAddrFromPool pool v =
        some (bfMemVirt2phy 4096 (fun offset => .entry (offset / 8)) v) := by
  have hg : Accepts (.granting (fun i => .entry (UInt64.ofNat (2 ^ 18 + i * 512))) none) 64 2 64
      .granting := by
    constructor <;> decide
  refine ⟨_, _, create_of_accepts 0 0 _ hg, ?_⟩
  refine @getPhyAddr_eq_virt2phy _ _ _ _ _ _ _ _ _ UInt64.ofNat 12 (by decide) rfl rfl
    (create_of_accepts 0 0 ⟨[], fun _ => 0⟩ hg) (by decide) (fun i hi k hk => ?_) 1 63 (by decide)
    (by decide) (fun offset => .entry (offset / 8)) (by decide)
  have hpages : (createdPool (.granting (fun i => .entry (UInt64.ofNat (2 ^ 18 + i * 512))) none) 0
      0 64 2 64 .granting).numHugePages.toInt.toNat = 1 := by decide
  rw [hpages, Nat.lt_one_iff] at hi
  subst hi
  have hk' : k < 512 := hk
  rw [createdPool_base]
  have hfirst : (pageAddr Grant.granting.base 0).toNat = 2 ^ 30 := by decide
  have hsize : (Platform.granting (fun i => .entry (UInt64.ofNat (2 ^ 18 + i * 512)))
      none).pageSize.toNat = 2 ^ 12 := by decide
  simp only [hfirst, hsize, toNat_frameNumber, UInt64.toNat_ofNat']
  omega

end TargetSys.Dma
