import TargetSys.Dma.Clients

/-!
# The addresses of the pages

Reference: `src/bf_sal/linux_usr/bf_sys_dma_hugepages.c`, `log_virt_dma_addr` and
`bf_sys_dma_pool_create`.

`log_virt_dma_addr` reports a failed page lookup or a failed map call and goes on, and
`bf_sys_dma_pool_create` looks at one address only, which it looks up anew. So a pool may be created
with an entry of its table that no lookup delivered, and an allocation adds an offset to it.

## Main results

* `addressesValid_iff`: the addresses of created pools are valid exactly when no lookup and no map
  call fails where create would go through.
-/

namespace TargetSys.Dma

open Transition ByteMemory

/-- The lookup of page `i` of a mapping at `base` succeeds, and so does the map call for it. -/
structure PageOk (pf : Platform) (base : Addr) (i : ℕ) : Prop where
  lookup : ∃ page, pf.pagemap i (pagemapOffset pf.pageSize (pageAddr base i)) = .entry page
  map : ∀ f, pf.mapFn = some f →
    (f i (bfMemVirt2dma pf.pageSize (pf.pagemap i) (pageAddr base i))).1 = 0

/-- What is asked of every pool that a create returns: each entry of the page table has the address
that a successful lookup, or a successful map call, has delivered; and after any run of clients, an
allocation that succeeds returns an address derived from such an entry. -/
def AddressesValid (pf : Platform) (devId : Int32) (subdevId : UInt32) (size : UInt64) (cnt : Int32)
    (align : UInt32) : Prop :=
  ∀ w pool w', bfSysDmaPoolCreate pf devId subdevId size cnt align w = (some pool, w') →
    let base := pool.poolPtr - pool.poolHdrOffset.toUInt64
    (∀ i < pool.numHugePages.toInt.toNat, PageOk pf base i ∧
      ∃ page, pool.hugePageInfo[i]? = some page ∧
        page.baseDmaAddr = pageDma pf i (pageAddr base i)) ∧
    ∀ (κ : Type) [DecidableEq κ] (es : List (ClientEvent κ)) (s : ClientState κ),
      Run ClientStep (clientsInitial κ pool w') es s →
      ∀ req v phys, (bfSysDmaAlloc s.pool req).1 = .ok v phys →
        ∃ i, PageOk pf base i ∧ (pageAddr base i).toNat ≤ v.toNat ∧
          v.toNat < (pageAddr base i).toNat + 2 ^ 21 ∧
          phys = pageDma pf i (pageAddr base i) + (v - pageAddr base i)

/-- **The addresses of a created pool.** They are valid exactly when every lookup and every map call
for a page succeeds, where the checks that create does make are passed. -/
theorem addressesValid_iff (pf : Platform) (devId : Int32) (subdevId : UInt32) (size : UInt64)
    (cnt : Int32) (align : UInt32) :
    AddressesValid pf devId subdevId size cnt align ↔
      ∀ g, Accepts pf size cnt align g →
        ∀ i < (pageCount (bufferSize size align) cnt).toInt.toNat, PageOk pf g.base i := by
  constructor
  · intro h g hg i hi
    obtain ⟨hpages, -⟩ := h ⟨[], fun _ => 0⟩ _ _ (create_of_accepts devId subdevId _ hg)
    have hok := (hpages i hi).1
    rwa [createdPool_base] at hok
  · intro h w pool w' hcreate
    obtain ⟨g, hg, rfl, rfl⟩ := create_some devId subdevId w hcreate
    have hlayout := hg.layout devId subdevId
    rw [createdPool_base]
    constructor
    · intro i hi
      refine ⟨h g hg i hi, ⟨_, _⟩, (getElem?_pageTable pf).mpr ⟨hi, rfl⟩, ?_⟩
      rw [Nat.zero_add]
    · -- an allocated buffer begins in some page, and has the address of that page
      intro κ _ es s hrun req v phys halloc
      have hplace := InPlace.of_run hlayout (createdPool_fresh ..) hrun
      obtain ⟨hpop, hphys, -⟩ := bfSysDmaAlloc_ok halloc
      rw [hplace.getPhyAddr] at hphys
      obtain ⟨k, hk, rfl⟩ := List.mem_map.mp
        (hplace.slots v (mem_of_bfPopFreeBuf hplace.valid hpop))
      have hk' := List.mem_range.mp hk
      obtain ⟨haddr, -⟩ := hlayout.toNat_bufAddr hk'
      obtain ⟨i, hi, hlo, hhi, heq⟩ := hg.phys_eq (by omega) (hlayout.bufAddr_lt hk') hphys
      exact ⟨i, h g hg i hi, hlo, hhi, heq⟩

/-- Three buffers of 1 MiB on two pages, and the lookup of the second page fails. The pool is
created, and the third allocation returns an address derived from the invalid one. -/
theorem addressesValid_readFails :
    ¬ AddressesValid (.granting (fun i => if i = 1 then .readFails else .entry 1) none) 0 0
        (2 ^ 20) 3 4096 ∧
      let pool := createdPool (.granting (fun i => if i = 1 then .readFails else .entry 1) none) 0 0
        (2 ^ 20) 3 4096 .granting
      (bfSysDmaAlloc (bfSysDmaAlloc (bfSysDmaAlloc pool 0).2 0).2 0).1 =
        .ok (2 ^ 30 + 3 * 2 ^ 20) (bfInvalidPhyAddr + 2 ^ 20) := by
  have hg : Accepts (.granting (fun i => if i = 1 then .readFails else .entry 1) none) (2 ^ 20) 3
      4096 .granting := by
    constructor <;> decide
  refine ⟨fun h => ?_, by decide⟩
  obtain ⟨hpages, -⟩ := h ⟨[], fun _ => 0⟩ _ _ (create_of_accepts 0 0 _ hg)
  obtain ⟨page, hpage⟩ := (hpages 1 (by decide)).1.lookup
  cases hpage

end TargetSys.Dma
