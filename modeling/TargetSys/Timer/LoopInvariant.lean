import TargetSys.Timer.LoopData

/-!
# The invariant of the timer arrays

Reference: `third-party/libev/ev.c`.

The watchers with `active` other than `0` are those of the heap, and `active` is their position; the
entries hold the `at` of their watchers; `pending` and `pendings` are inverse to each other. These
are the assertions of `ev_verify`, and what makes them hold behind the next operation.

## Main results

* `HeapValid`, `PendingValid`: the invariants of the two arrays, with one lemma for each operation.
* `HeapValid.timersReschedule_eq`: the loop over the heap shifts each entry and its watcher once.
-/

namespace TargetSys.Timer

namespace Heap

variable {W : Type*} {S : Set W} {h : Heap W} {n : ℕ} {w : W}

namespace Good

/-- A watcher in the heap has an entry, at its own index. -/
theorem mem_range (hg : h.Good S n) (hw : w ∈ S) :
    HEAP0 ≤ h.active w ∧ h.active w < HEAP0 + n ∧ (h.entry (h.active w)).w = w :=
  hg.index.slot_pos w hw

/-- The index of a watcher in the heap is not 0. -/
theorem active_ne_zero (hg : h.Good S n) (hw : w ∈ S) : h.active w ≠ 0 := by
  have hrange := (hg.mem_range hw).1
  have hpos : 0 < HEAP0 := by decide
  omega

/-- The watchers in the heap are those that have a position. -/
theorem eq_active {K : Set W} (hg : h.Good S n) (hS : S ⊆ K)
    (hout : ∀ v ∈ K, v ∉ S → h.active v = 0) : {v | v ∈ K ∧ h.active v ≠ 0} = S := by
  ext v
  constructor
  · rintro ⟨hK, hv⟩
    exact by_contra fun hv' => hv (hout v hK hv')
  · exact fun hv => ⟨hS hv, hg.active_ne_zero hv⟩

/-- The positions of watchers outside the heap do not matter. -/
theorem congr_active (hg : h.Good S n) (active : W → ℕ) (ha : ∀ v ∈ S, active v = h.active v) :
    Good S { h with active := active } n :=
  ⟨hg.order, hg.index.congr_pos ha⟩

end Good

end Heap

namespace LoopData

variable {H W : Type*} {K : Set W} {l : LoopData H W} {w v : W}

/-- The heap has the active watchers of `K`, and knows when they are due. -/
structure HeapValid (K : Set W) (l : LoopData H W) : Prop where
  good : l.timers.Good {w | w ∈ K ∧ l.timers.active w ≠ 0} l.timercnt
  cache : ∀ i, HEAP0 ≤ i → i < HEAP0 + l.timercnt →
    (l.timers.entry i).evAt = (l.watcher (l.timers.entry i).w).evAt

/-- A pending watcher of `K` knows its entry in `pendings`, and the entry the watcher. -/
structure PendingValid (K : Set W) (l : LoopData H W) : Prop where
  slot : ∀ i w, i < l.pendingcnt → l.pendings i = some w → w ∈ K ∧ l.pending w = i + 1
  pos : ∀ w ∈ K, l.pending w ≠ 0 →
    l.pending w ≤ l.pendingcnt ∧ l.pendings (l.pending w - 1) = some w

namespace HeapValid

/-- The entry of an active watcher is at its index. -/
theorem mem_range (hv : l.HeapValid K) (hK : w ∈ K) (hw : l.timers.active w ≠ 0) :
    HEAP0 ≤ l.timers.active w ∧ l.timers.active w < HEAP0 + l.timercnt ∧
      (l.timers.entry (l.timers.active w)).w = w :=
  hv.good.mem_range ⟨hK, hw⟩

/-- The entries are those of known watchers. -/
theorem entry_mem (hv : l.HeapValid K) {i : ℕ} (hi : HEAP0 ≤ i ∧ i < HEAP0 + l.timercnt) :
    (l.timers.entry i).w ∈ K :=
  (hv.good.index.pos_slot i hi.1 hi.2).1.1

/-- A watcher knows the index of its entry. -/
theorem entry_active (hv : l.HeapValid K) {i : ℕ} (hi : HEAP0 ≤ i ∧ i < HEAP0 + l.timercnt) :
    l.timers.active (l.timers.entry i).w = i :=
  (hv.good.index.pos_slot i hi.1 hi.2).2

/-- The root is the active watcher due first. -/
theorem root_le (hv : l.HeapValid K) (hK : w ∈ K) (hw : l.timers.active w ≠ 0) :
    (l.watcher (l.timers.entry HEAP0).w).evAt ≤ (l.watcher w).evAt := by
  obtain ⟨hb, hn, hentry⟩ := hv.mem_range hK hw
  have hroot := hv.good.order.root_le hb hn
  rw [hv.cache _ hb hn, hv.cache _ (Nat.le_refl _) (by omega), hentry] at hroot
  exact hroot

/-- The watcher at the root is a known one. -/
theorem root_mem (hv : l.HeapValid K) (hn : l.timercnt ≠ 0) : (l.timers.entry HEAP0).w ∈ K :=
  hv.entry_mem ⟨Nat.le_refl _, by omega⟩

/-- The watcher at the root knows that it is there. -/
theorem root_active (hv : l.HeapValid K) (hn : l.timercnt ≠ 0) :
    l.timers.active (l.timers.entry HEAP0).w = HEAP0 :=
  hv.entry_active ⟨Nat.le_refl _, by omega⟩

/-- The watcher at the root is active. -/
theorem root_active_ne_zero (hv : l.HeapValid K) (hn : l.timercnt ≠ 0) :
    l.timers.active (l.timers.entry HEAP0).w ≠ 0 := by
  rw [hv.root_active hn]
  decide

variable [DecidableEq W]

/-! ## The heap -/

/-- A watcher joins the heap. -/
theorem evTimerStart (hv : l.HeapValid K) (hK : w ∈ K) :
    (l.evTimerStart w).HeapValid K ∧ ∀ v ∈ K,
      ((l.evTimerStart w).timers.active v ≠ 0 ↔ l.timers.active v ≠ 0 ∨ v = w) := by
  unfold LoopData.evTimerStart
  by_cases hw : l.timers.active w ≠ 0
  · rw [if_pos hw]
    refine ⟨hv, fun v _ => ⟨.inl, ?_⟩⟩
    rintro (h | rfl)
    · exact h
    · exact hw
  · rw [if_neg hw]
    have hend : l.timercnt + 1 + HEAP0 - 1 = HEAP0 + l.timercnt := by
      unfold HEAP0 DHEAP
      omega
    dsimp only [setAt]
    rw [hend, Function.update_self]
    generalize (l.watcher w).evAt + l.mnNow = x
    -- the new watcher waits in the hole behind the last entry
    have hsift : Heap.Sifting (insert w {v | v ∈ K ∧ l.timers.active v ≠ 0})
        (l.timers.put (HEAP0 + l.timercnt) ⟨x, w⟩) (l.timercnt + 1) (HEAP0 + l.timercnt)
        ⟨x, w⟩ :=
      ⟨hv.good.order.hole_end.update,
        (hv.good.index.off_end fun h => hw h.2).update.update_pos⟩
    have hsifted := hsift.upheap (Function.update_self ..) fun c hc => by
      have hlt := hc.lt
      have hn := hc.2.1
      omega
    have hset := hsifted.good.eq_active (K := K)
      (Set.insert_subset hK fun v h => h.1) fun v hvK hv' => by
        rw [hsifted.other v hv']
        rw [Set.mem_insert_iff, not_or] at hv'
        refine (Function.update_of_ne hv'.1 ..).trans (by_contra fun h => hv'.2 ⟨hvK, h⟩)
    refine ⟨⟨?_, ?_⟩, fun v hvK => ?_⟩
    · show Heap.Good {v | v ∈ K ∧ Heap.active _ v ≠ 0} _ _
      rw [hset]
      exact hsifted.good
    · refine hsifted.forall (P := fun he => he.evAt = (Function.update l.watcher w _ he.w).evAt)
        (by simp) fun j hb hn hj => ?_
      have hjn : j < HEAP0 + l.timercnt := by omega
      have hne : (l.timers.entry j).w ≠ w := fun heq =>
        hw (heq ▸ (hv.good.index.pos_slot j hb hjn).1.2)
      rw [show (l.timers.put (HEAP0 + l.timercnt) ⟨x, w⟩).entry j = l.timers.entry j from
        Function.update_of_ne hj .., Function.update_of_ne hne]
      exact hv.cache j hb hjn
    · have hiff := Set.ext_iff.mp hset v
      rw [Set.mem_insert_iff, Set.mem_ofPred_eq, Set.mem_ofPred_eq] at hiff
      tauto

/-- The entry of a watcher leaves the heap. -/
theorem removeEntry (hv : l.HeapValid K) (hK : w ∈ K) (hw : l.timers.active w ≠ 0) :
    (l.removeEntry (l.timercnt - 1) (l.timers.active w)).Good
        ({v | v ∈ K ∧ l.timers.active v ≠ 0} \ {w}) (l.timercnt - 1) ∧
      (∀ v, l.timers.active v = 0 →
        (l.removeEntry (l.timercnt - 1) (l.timers.active w)).active v = 0) ∧
      ∀ (P : Anhe W → Prop), (∀ i, HEAP0 ≤ i → i < HEAP0 + l.timercnt → P (l.timers.entry i)) →
        ∀ i, HEAP0 ≤ i → i < HEAP0 + (l.timercnt - 1) →
          P ((l.removeEntry (l.timercnt - 1) (l.timers.active w)).entry i) := by
  obtain ⟨hb, hn, hentry⟩ := hv.mem_range hK hw
  have hgood := hv.good
  obtain ⟨cnt, hcnt⟩ : ∃ cnt, l.timercnt = cnt + 1 := ⟨l.timercnt - 1, by omega⟩
  rw [hcnt] at hgood hn ⊢
  rw [Nat.add_sub_cancel]
  unfold LoopData.removeEntry
  split
  · rename_i hlt
    -- the last entry takes the place of the one that leaves
    have hindex := (hgood.index.off_drop ⟨hb, by omega⟩).update
      (e := l.timers.entry (HEAP0 + cnt))
    rw [hentry] at hindex
    have hsifting : Heap.Sifting ({v | v ∈ K ∧ l.timers.active v ≠ 0} \ {w})
        ⟨Function.update l.timers.entry (l.timers.active w) (l.timers.entry (cnt + HEAP0)),
          l.timers.active⟩
        cnt (l.timers.active w) (l.timers.entry (HEAP0 + cnt)) :=
      ⟨((hgood.order.mono (Nat.le_succ cnt)).hole _).update, by rwa [Nat.add_comm cnt HEAP0]⟩
    have hsifted := hsifting.adjustheap (by simp [Nat.add_comm])
    refine ⟨hsifted.good, fun v hv0 => ?_, fun P hP => ?_⟩
    · rw [hsifted.other v (by simp [hv0])]
      exact hv0
    · refine hsifted.forall (hP _ (by omega) (by omega)) fun j hbj hnj hj => ?_
      dsimp only
      rw [Function.update_of_ne hj]
      exact hP j hbj (by omega)
  · rename_i hlast
    obtain heq : l.timers.active w = HEAP0 + cnt := by omega
    have hindex := hgood.index.drop_last
    rw [← heq, hentry] at hindex
    exact ⟨⟨hgood.order.mono (Nat.le_succ cnt), hindex⟩, fun v hv0 => hv0,
      fun P hP i hbi hni => hP i hbi (by omega)⟩

/-- A watcher leaves the heap. -/
theorem stopActive (hv : l.HeapValid K) (hK : w ∈ K) :
    (l.stopActive w).HeapValid K ∧ ∀ v ∈ K,
      ((l.stopActive w).timers.active v ≠ 0 ↔ l.timers.active v ≠ 0 ∧ v ≠ w) := by
  unfold LoopData.stopActive
  by_cases hw : l.timers.active w = 0
  · rw [if_pos hw]
    refine ⟨hv, fun v _ => ⟨fun hv0 => ⟨hv0, ?_⟩, fun h => h.1⟩⟩
    rintro rfl
    exact hv0 hw
  · rw [if_neg hw]
    obtain ⟨hgood, hout, hentries⟩ := hv.removeEntry hK hw
    generalize l.removeEntry (l.timercnt - 1) (l.timers.active w) = timers at *
    dsimp only [setAt]
    have hgood' := hgood.congr_active (Function.update timers.active w 0)
      fun v hv' => Function.update_of_ne hv'.2 ..
    -- of the known watchers, those with an index are now those in the heap
    have hset := hgood'.eq_active (K := K) (fun v h => h.1.1) fun v hvK hv' => by
      by_cases hvw : v = w
      · exact hvw ▸ Function.update_self ..
      · refine (Function.update_of_ne hvw ..).trans
          (hout v (by_contra fun hv0 => hv' ⟨⟨hvK, hv0⟩, hvw⟩))
    refine ⟨⟨?_, ?_⟩, fun v hvK => ?_⟩
    · show Heap.Good {v | v ∈ K ∧ Heap.active _ v ≠ 0} _ _
      rw [hset]
      exact hgood'
    · intro i hb hn
      have hne : (timers.entry i).w ≠ w := (hgood.index.pos_slot i hb hn).1.2
      dsimp only
      rw [Function.update_of_ne hne]
      exact hentries (fun he => he.evAt = (l.watcher he.w).evAt) hv.cache i hb hn
    · have hiff := Set.ext_iff.mp hset v
      rw [Set.mem_sdiff, Set.mem_ofPred_eq, Set.mem_ofPred_eq, Set.mem_singleton_iff] at hiff
      tauto

/-- The entry of a watcher whose `at` has changed. -/
theorem timers_cacheAt (hv : l.HeapValid K) (hK : w ∈ K) (hw : l.timers.active w ≠ 0) (x : ℤ) :
    ((l.setAt w x).cacheAt (l.timers.active w)).timers =
      { l.timers with entry := Function.update l.timers.entry (l.timers.active w) ⟨x, w⟩ } := by
  simp [LoopData.cacheAt, LoopData.setAt, (hv.mem_range hK hw).2.2]

/-- The entry has the new time. -/
theorem entry_cacheAt (hv : l.HeapValid K) (hK : w ∈ K) (hw : l.timers.active w ≠ 0) (x : ℤ) :
    ((l.setAt w x).cacheAt (l.timers.active w)).timers.entry (l.timers.active w) = ⟨x, w⟩ := by
  rw [hv.timers_cacheAt hK hw]
  exact Function.update_self ..

/-- The entry of a watcher whose `at` has changed is to be put where it belongs. -/
theorem sifting_cacheAt (hv : l.HeapValid K) (hK : w ∈ K) (hw : l.timers.active w ≠ 0) (x : ℤ) :
    Heap.Sifting {v | v ∈ K ∧ l.timers.active v ≠ 0}
      ((l.setAt w x).cacheAt (l.timers.active w)).timers l.timercnt (l.timers.active w)
      ⟨x, w⟩ := by
  obtain ⟨hb, hn, hentry⟩ := hv.mem_range hK hw
  have hindex := (hv.good.index.off ⟨hb, hn⟩).update (e := ⟨x, w⟩)
  rw [hentry] at hindex
  rw [hv.timers_cacheAt hK hw]
  exact ⟨(hv.good.order.hole _).update, hindex⟩

/-- The heap behind the sift of a changed entry. -/
theorem of_sifted (hv : l.HeapValid K) {x : ℤ} {timers : Heap W}
    (hs : Heap.Sifted {v | v ∈ K ∧ l.timers.active v ≠ 0}
      ((l.setAt w x).cacheAt (l.timers.active w)).timers l.timercnt (l.timers.active w) ⟨x, w⟩
      timers) :
    { (l.setAt w x).cacheAt (l.timers.active w) with timers := timers }.HeapValid K ∧
      ∀ v ∈ K, (timers.active v ≠ 0 ↔ l.timers.active v ≠ 0) := by
  have hset := hs.good.eq_active (K := K) (fun v h => h.1) fun v hvK hv' => by
    rw [hs.other v hv']
    exact by_contra fun h => hv' ⟨hvK, h⟩
  refine ⟨⟨?_, ?_⟩, fun v hvK => ?_⟩
  · show Heap.Good {v | v ∈ K ∧ Heap.active _ v ≠ 0} _ _
    rw [hset]
    exact hs.good
  · refine hs.forall (P := fun he => he.evAt = ((l.setAt w x).watcher he.w).evAt)
      (by simp [LoopData.setAt]) fun j hb hn hj => ?_
    have hne : (l.timers.entry j).w ≠ w := by
      intro heq
      have hpos := hv.entry_active ⟨hb, hn⟩
      rw [heq] at hpos
      exact hj hpos.symm
    dsimp only [LoopData.cacheAt, LoopData.setAt]
    rw [Function.update_of_ne hj, Function.update_of_ne hne]
    exact hv.cache j hb hn
  · have hiff := Set.ext_iff.mp hset v
    rw [Set.mem_ofPred_eq, Set.mem_ofPred_eq] at hiff
    tauto

omit [DecidableEq W] in
/-- Only the heap, its count and the watchers matter. -/
theorem congr {l' : LoopData H W} (hv : l.HeapValid K) (ht : l'.timers = l.timers)
    (hn : l'.timercnt = l.timercnt) (hw : l'.watcher = l.watcher) : l'.HeapValid K where
  good := by
    rw [ht, hn]
    exact hv.good
  cache := by
    rw [ht, hn, hw]
    exact hv.cache

end HeapValid

/-! ## Rescheduling -/

variable [DecidableEq W]

/-- The loop with the entries at `lo` to `hi - 1`, and their watchers, shifted by `adjust`. -/
def shift (l : LoopData H W) (adjust : ℤ) (lo hi : ℕ) : LoopData H W :=
  { l with
    timers := { l.timers with
      entry := fun j =>
        if lo ≤ j ∧ j < hi then ⟨(l.timers.entry j).evAt + adjust, (l.timers.entry j).w⟩
        else l.timers.entry j }
    watcher := fun v =>
      if (lo ≤ l.timers.active v ∧ l.timers.active v < hi) ∧
          (l.timers.entry (l.timers.active v)).w = v then
        { l.watcher v with evAt := (l.watcher v).evAt + adjust }
      else l.watcher v }

/-- No entries, no shift. -/
theorem shift_empty (adjust : ℤ) (k : ℕ) : l.shift adjust k k = l := by
  have hno (j : ℕ) : ¬ (k ≤ j ∧ j < k) := by omega
  unfold shift
  simp only [hno, false_and, if_false]

omit [DecidableEq W] in
/-- The entries keep their watchers. -/
@[simp] theorem cacheAt_entry_w (k j : ℕ) :
    ((l.cacheAt k).timers.entry j).w = (l.timers.entry j).w := by
  dsimp only [cacheAt]
  by_cases hj : j = k
  · rw [hj, Function.update_self]
  · rw [Function.update_of_ne hj]

/-- One round of `timers_reschedule` shifts one entry, and the rest the entries behind it. -/
theorem shift_succ (adjust : ℤ) {k hi : ℕ} (hlt : k < hi)
    (hpos : l.timers.active (l.timers.entry k).w = k)
    (hcache : (l.timers.entry k).evAt = (l.watcher (l.timers.entry k).w).evAt) :
    ((l.setAt (l.timers.entry k).w ((l.watcher (l.timers.entry k).w).evAt + adjust)).cacheAt
      k).shift adjust (k + 1) hi = l.shift adjust k hi := by
  have hw := cacheAt_entry_w (k := k)
    (l := l.setAt (l.timers.entry k).w ((l.watcher (l.timers.entry k).w).evAt + adjust))
  unfold shift
  simp only [hw]
  unfold cacheAt setAt
  dsimp only
  congr 2
  · -- the entries, of which round `k` has changed one
    funext j
    by_cases hj : j = k
    · subst hj
      rw [Function.update_self, Function.update_self, if_neg (by omega), if_pos (by omega), hcache]
    · rw [Function.update_of_ne hj]
      exact if_congr (by omega) rfl rfl
  · -- the watchers, of which it has changed that of entry `k`
    funext v
    by_cases hv : v = (l.timers.entry k).w
    · subst hv
      rw [Function.update_self, hpos, if_neg (by omega), if_pos ⟨by omega, rfl⟩]
    · rw [Function.update_of_ne hv]
      refine if_congr ?_ rfl rfl
      have hne : (l.timers.entry (l.timers.active v)).w = v → l.timers.active v ≠ k := by
        intro heq hk
        rw [hk] at heq
        exact hv heq.symm
      constructor
      · rintro ⟨hrange, heq⟩
        exact ⟨by omega, heq⟩
      · rintro ⟨hrange, heq⟩
        have := hne heq
        exact ⟨by omega, heq⟩

/-- `n` rounds from entry `i` on shift `n` entries. -/
theorem timersRescheduleLoop_eq (adjust : ℤ) (n : ℕ) (i : ℕ) (l : LoopData H W)
    (hpos : ∀ j, i + HEAP0 ≤ j → j < i + HEAP0 + n → l.timers.active (l.timers.entry j).w = j)
    (hcache : ∀ j, i + HEAP0 ≤ j → j < i + HEAP0 + n →
      (l.timers.entry j).evAt = (l.watcher (l.timers.entry j).w).evAt) :
    timersRescheduleLoop adjust l i n = l.shift adjust (i + HEAP0) (i + HEAP0 + n) := by
  induction n generalizing i l with
  | zero => exact (shift_empty adjust _).symm
  | succ n ih =>
      have hposi := hpos _ (Nat.le_refl _) (by omega)
      have hlt : i + HEAP0 < i + HEAP0 + (n + 1) := by omega
      have hsucc := shift_succ adjust hlt hposi (hcache _ (Nat.le_refl _) (by omega))
      rw [timersRescheduleLoop, ← hsucc]
      have hstart : i + 1 + HEAP0 = i + HEAP0 + 1 := by omega
      have hend : i + 1 + HEAP0 + n = i + HEAP0 + (n + 1) := by omega
      rw [← hstart, ← hend]
      refine ih (i + 1) _ ?_ ?_
      · intro j hb hn
        rw [cacheAt_entry_w]
        exact hpos j (by omega) (by omega)
      · intro j hb hn
        have hj : j ≠ i + HEAP0 := by omega
        -- the watcher of the round has no other entry, so the others are still as they were
        have hne : (l.timers.entry j).w ≠ (l.timers.entry (i + HEAP0)).w := by
          intro heq
          have hposj := hpos j (by omega) (by omega)
          rw [heq, hposi] at hposj
          exact hj hposj.symm
        dsimp only [cacheAt, setAt]
        rw [Function.update_of_ne hj, Function.update_of_ne hne]
        exact hcache j (by omega) (by omega)

namespace HeapValid

/-- `timers_reschedule` shifts the whole heap. -/
theorem timersReschedule_eq (hv : l.HeapValid K) (adjust : ℤ) :
    l.timersReschedule adjust = l.shift adjust HEAP0 (HEAP0 + l.timercnt) := by
  have h := timersRescheduleLoop_eq adjust l.timercnt 0 l
    (fun j hb hn => hv.entry_active ⟨by omega, by omega⟩)
    (fun j hb hn => hv.cache j (by omega) (by omega))
  rwa [Nat.zero_add] at h

/-- A shift of the whole heap keeps its order. -/
theorem timersReschedule (hv : l.HeapValid K) (adjust : ℤ) :
    (l.timersReschedule adjust).HeapValid K := by
  rw [hv.timersReschedule_eq]
  constructor
  · constructor
    · -- parent and child move by the same amount
      intro p c hc
      have hp : HEAP0 ≤ p ∧ p < HEAP0 + l.timercnt := ⟨hc.base_le, Nat.lt_trans hc.lt hc.2.1⟩
      have hc' : HEAP0 ≤ c ∧ c < HEAP0 + l.timercnt := ⟨Nat.le_of_lt hc.1, hc.2.1⟩
      dsimp only [shift]
      rw [if_pos hp, if_pos hc']
      have hle := hv.good.order p c hc
      dsimp only
      omega
    · constructor
      · intro i hb hn
        dsimp only [shift]
        rw [if_pos ⟨hb, hn⟩]
        exact hv.good.index.pos_slot i hb hn
      · intro v hS
        obtain ⟨hb, hn, hslot⟩ := hv.good.index.slot_pos v hS
        dsimp only [shift]
        rw [if_pos ⟨hb, hn⟩]
        exact ⟨hb, hn, hslot⟩
  · intro i hb hn
    have hact := hv.entry_active ⟨hb, hn⟩
    dsimp only [shift] at hn ⊢
    rw [if_pos ⟨hb, hn⟩]
    dsimp only
    rw [hact, if_pos ⟨⟨hb, hn⟩, rfl⟩]
    dsimp only
    rw [hv.cache i hb hn]

end HeapValid

/-! ## The pending watchers -/

namespace PendingValid

omit [DecidableEq W] in
/-- Only one entry of `pendings` is a watcher's. -/
theorem slot_unique (hp : l.PendingValid K) {i : ℕ} (hi : i < l.pendingcnt)
    (hw : l.pendings i = some w) : i = l.pending w - 1 := by
  rw [(hp.slot i w hi hw).2, Nat.add_sub_cancel]

omit [DecidableEq W] in
/-- A watcher that has an entry in `pendings` is pending. -/
theorem ne_zero (hp : l.PendingValid K) {i : ℕ} (hi : i < l.pendingcnt)
    (hw : l.pendings i = some w) : l.pending w ≠ 0 := by
  rw [(hp.slot i w hi hw).2]
  exact Nat.succ_ne_zero i

/-- A watcher that is fed has the new entry, if it had none. -/
theorem evFeedEvent (hp : l.PendingValid K) (hK : w ∈ K) : (l.evFeedEvent w).PendingValid K := by
  unfold LoopData.evFeedEvent
  split
  · exact hp
  · rename_i hw
    rw [not_not] at hw
    constructor
    · intro i v hi hv
      dsimp only at hi hv ⊢
      by_cases hin : i = l.pendingcnt
      · subst hin
        rw [Function.update_self, Option.some.injEq] at hv
        subst hv
        exact ⟨hK, Function.update_self ..⟩
      · rw [Function.update_of_ne hin] at hv
        have hi' : i < l.pendingcnt := by omega
        -- `w` had no entry, so the older entries are of others
        have hne : v ≠ w := fun heq => hp.ne_zero hi' hv (heq ▸ hw)
        rw [Function.update_of_ne hne]
        exact hp.slot i v hi' hv
    · intro v hvK hv
      dsimp only at hv ⊢
      by_cases hvw : v = w
      · subst hvw
        rw [Function.update_self]
        exact ⟨Nat.le_refl _, Function.update_self ..⟩
      · rw [Function.update_of_ne hvw] at hv ⊢
        obtain ⟨hle, hslot⟩ := hp.pos v hvK hv
        rw [Function.update_of_ne (by omega)]
        exact ⟨by omega, hslot⟩

/-- The entry of a watcher becomes a gap. -/
theorem clearPending (hp : l.PendingValid K) (hK : w ∈ K) :
    (l.clearPending w).PendingValid K := by
  unfold LoopData.clearPending
  split
  · rename_i hw
    have hslotw := (hp.pos w hK hw).2
    constructor
    · intro i v hi hv
      dsimp only at hi hv ⊢
      -- the entry of `w` is the gap, and the others are of others
      by_cases hik : i = l.pending w - 1
      · rw [hik, Function.update_self] at hv
        cases hv
      · rw [Function.update_of_ne hik] at hv
        have hne : v ≠ w := fun heq => hik (heq ▸ hp.slot_unique hi hv)
        rw [Function.update_of_ne hne]
        exact hp.slot i v hi hv
    · intro v hvK hv
      dsimp only at hv ⊢
      have hvw : v ≠ w := by
        rintro rfl
        exact hv (Function.update_self ..)
      rw [Function.update_of_ne hvw] at hv ⊢
      obtain ⟨hle, hslot⟩ := hp.pos v hvK hv
      have hne : l.pending v - 1 ≠ l.pending w - 1 := by
        intro heq
        rw [heq, hslotw, Option.some.injEq] at hslot
        exact hvw hslot.symm
      rw [Function.update_of_ne hne]
      exact ⟨hle, hslot⟩
  · exact hp

/-- The last entry is dropped, be it a gap or not. -/
theorem takePending (hp : l.PendingValid K) (hn : l.pendingcnt ≠ 0) :
    l.takePending.2.PendingValid K := by
  obtain ⟨n, hcnt⟩ : ∃ n, l.pendingcnt = n + 1 := ⟨l.pendingcnt - 1, by omega⟩
  cases hslot : l.pendings n with
  | none =>
      rw [takePending_none hcnt hslot]
      refine ⟨fun i v hi => hp.slot i v ?_, fun v hvK hv => ?_⟩
      · rw [hcnt]
        exact Nat.lt_succ_of_lt hi
      · obtain ⟨hle, hv'⟩ := hp.pos v hvK hv
        refine ⟨?_, hv'⟩
        have hne : l.pending v - 1 ≠ n := fun heq => by
          rw [heq, hslot] at hv'
          cases hv'
        dsimp only at hv ⊢
        omega
  | some w =>
      rw [takePending_some hcnt hslot]
      have hw := (hp.slot n w (by omega) hslot).2
      constructor
      · intro i v hi hv
        dsimp only at hi hv ⊢
        obtain ⟨hvK, hi'⟩ := hp.slot i v (by omega) hv
        have hne : v ≠ w := by
          rintro rfl
          omega
        rw [Function.update_of_ne hne]
        exact ⟨hvK, hi'⟩
      · intro v hvK hv
        dsimp only at hv ⊢
        have hvw : v ≠ w := by
          rintro rfl
          exact hv (Function.update_self ..)
        rw [Function.update_of_ne hvw] at hv ⊢
        obtain ⟨hle, hv'⟩ := hp.pos v hvK hv
        refine ⟨?_, hv'⟩
        have hne : l.pending v - 1 ≠ n := fun heq => by
          rw [heq, hslot, Option.some.injEq] at hv'
          exact hvw hv'.symm
        omega

end PendingValid

end LoopData

end TargetSys.Timer
