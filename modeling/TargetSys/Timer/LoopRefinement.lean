import TargetSys.Timer.LoopInvariant

/-!
# The timer arrays refine the loop

Reference: `third-party/libev/ev.c`.

`Refines l a` says that the arrays of `l` hold the lists of `a`: the heap its active watchers, and
`pendings` and `rfeeds` its lists read from their ends, without the gaps. Each operation on the arrays
is the operation on the lists. The arrays settle what `EvLoop` leaves open: of several watchers due,
the one at the root expires first, and it is one that no other precedes.

## Main results

* `Refines.evTimerStart`, `evTimerStop`, `evFeedEvent`, `takePending`, `reifyRound`,
  `feedReverseDone`: one lemma for each operation.
* `Refines.due_iff`: the test of the root is the search for a watcher that is due.
-/

namespace TargetSys.Timer

/-! ## Arrays read from their ends -/

section Lists

variable {W : Type*} {p q : ℕ → Option W} {n k : ℕ} {w : W}

/-- The watchers among the first `n` entries of `pendings`, the last first. -/
def pendingList (p : ℕ → Option W) : ℕ → List W
  | 0 => []
  | n + 1 => (p n).toList ++ pendingList p n

/-- The first `n` entries of `rfeeds`, the last first. -/
def rfeedList (r : ℕ → W) : ℕ → List W
  | 0 => []
  | n + 1 => r n :: rfeedList r n

/-- The list has the watchers of the entries that are no gaps. -/
theorem mem_pendingList : w ∈ pendingList p n ↔ ∃ i, i < n ∧ p i = some w := by
  induction n with
  | zero => simp [pendingList]
  | succ n ih =>
      rw [pendingList, List.mem_append, ih, Option.mem_toList]
      constructor
      · rintro (h | ⟨i, hi, h⟩)
        · exact ⟨n, Nat.lt_succ_self n, h⟩
        · exact ⟨i, Nat.lt_succ_of_lt hi, h⟩
      · rintro ⟨i, hi, h⟩
        rcases Nat.lt_succ_iff_lt_or_eq.mp hi with hlt | rfl
        · exact .inr ⟨i, hlt, h⟩
        · exact .inl h

/-- The list depends on its entries only. -/
theorem pendingList_congr (h : ∀ i, i < n → p i = q i) : pendingList p n = pendingList q n := by
  induction n with
  | zero => rfl
  | succ n ih =>
      rw [pendingList, pendingList, h n (Nat.lt_succ_self n),
        ih fun i hi => h i (Nat.lt_succ_of_lt hi)]

/-- An entry behind the end is not in the list. -/
theorem pendingList_update_of_le {o : Option W} (h : n ≤ k) :
    pendingList (Function.update p k o) n = pendingList p n :=
  pendingList_congr fun i hi => Function.update_of_ne (by omega) ..

/-- The list depends on its entries only. -/
theorem rfeedList_congr {r s : ℕ → W} (h : ∀ i, i < n → r i = s i) :
    rfeedList r n = rfeedList s n := by
  induction n with
  | zero => rfl
  | succ n ih =>
      rw [rfeedList, rfeedList, h n (Nat.lt_succ_self n),
        ih fun i hi => h i (Nat.lt_succ_of_lt hi)]

/-- In `rfeeds` there are no gaps. -/
theorem length_rfeedList (r : ℕ → W) (n : ℕ) : (rfeedList r n).length = n := by
  induction n with
  | zero => rfl
  | succ n ih => rw [rfeedList, List.length_cons, ih]

/-- A gap at the only entry of a watcher takes it out of the list. -/
theorem pendingList_clear [DecidableEq W] (hk : p k = some w)
    (honly : ∀ i, i < n → p i = some w → i = k) :
    pendingList (Function.update p k none) n = (pendingList p n).filter (· ≠ w) := by
  induction n with
  | zero => rfl
  | succ n ih =>
      have ih := ih fun i hi => honly i (Nat.lt_succ_of_lt hi)
      rw [pendingList, pendingList, List.filter_append, ih]
      congr 1
      by_cases hnk : n = k
      · subst hnk
        simp [hk]
      · rw [Function.update_of_ne hnk]
        cases hn : p n with
        | none => rfl
        | some v =>
            have hvw : v ≠ w := fun heq => hnk (honly n (Nat.lt_succ_self n) (heq ▸ hn))
            simp [hvw]

end Lists

namespace LoopData

/-- The arrays are valid and hold the lists of `a`. Of the watchers only those in `K` are looked at;
the memory of others holds anything. -/
structure Refines {H W : Type*} (K : Set W) (l : LoopData H W) (a : EvLoop H W) : Prop where
  heap : l.HeapValid K
  pend : l.PendingValid K
  timers : ∀ w, w ∈ a.timers ↔ w ∈ K ∧ l.timers.active w ≠ 0
  pendings : a.pendings = pendingList l.pendings l.pendingcnt
  rfeeds : a.rfeeds = rfeedList l.rfeeds l.rfeedcnt
  known : ∀ w ∈ a.rfeeds, w ∈ K
  mnNow : a.mnNow = l.mnNow
  watcher : ∀ w ∈ K, a.watcher w = l.watcher w

/-- The loop before its first timer, with `others` watchers. What is in the arrays does not
matter. -/
structure Fresh {H W : Type*} (others : ℕ) (l : LoopData H W) : Prop where
  timercnt : l.timercnt = 0
  pendingcnt : l.pendingcnt = 0
  rfeedcnt : l.rfeedcnt = 0
  activecnt : l.activecnt = others

/-- Without timers, the lists are empty. -/
theorem Fresh.refines {H W : Type*} {others : ℕ} {l : LoopData H W} (hl : l.Fresh others)
    (watcher : W → EvTimer H) : l.Refines ∅ ⟨[], [], [], l.mnNow, watcher⟩ := by
  obtain ⟨htimer, hpending, hrfeed, -⟩ := hl
  refine ⟨⟨⟨?_, ?_, ?_⟩, ?_⟩, ⟨?_, ?_⟩, ?_, ?_, ?_, ?_, rfl, ?_⟩
  · rw [htimer]
    exact DaryHeap.Ordered.zero
  · intro i hb hn
    omega
  · exact fun w hw => hw.1.elim
  · intro i hb hn
    omega
  · intro i w hi
    omega
  · exact fun w hw => hw.elim
  · intro w
    simp
  · rw [hpending]
    rfl
  · rw [hrfeed]
    rfl
  · exact fun w hw => absurd hw List.not_mem_nil
  · exact fun w hw => hw.elim

namespace Refines

variable {H W : Type*} {K : Set W} {l : LoopData H W} {a : EvLoop H W} {w : W}

/-- Of the known watchers, those with an index are active. -/
theorem mem_timers (h : l.Refines K a) (hK : w ∈ K) : w ∈ a.timers ↔ l.timers.active w ≠ 0 := by
  rw [h.timers]
  exact and_iff_right hK

/-- The pending watchers are those with an entry. -/
theorem mem_pendings (h : l.Refines K a) : w ∈ a.pendings ↔ w ∈ K ∧ l.pending w ≠ 0 := by
  rw [h.pendings, mem_pendingList]
  constructor
  · rintro ⟨i, hi, hw⟩
    exact ⟨(h.pend.slot i w hi hw).1, h.pend.ne_zero hi hw⟩
  · rintro ⟨hK, hw⟩
    obtain ⟨hle, hslot⟩ := h.pend.pos w hK hw
    exact ⟨_, by omega, hslot⟩

/-- The root is a watcher that is due, and no other is due earlier. -/
theorem firstDue (h : l.Refines K a) (hd : l.Due) : a.FirstDue (l.timers.entry HEAP0).w := by
  have hn := hd.1
  have hK := h.heap.root_mem hn
  refine ⟨(h.timers _).mpr ⟨hK, h.heap.root_active_ne_zero hn⟩, ?_, fun v hv => ?_⟩
  · rw [h.watcher _ hK, h.mnNow, ← h.heap.cache _ (Nat.le_refl _) (by omega)]
    exact hd.2
  · obtain ⟨hvK, hact⟩ := (h.timers v).mp hv
    rw [h.watcher _ hK, h.watcher _ hvK]
    exact h.heap.root_le hvK hact

/-- The root is the only watcher that the loop looks at. -/
theorem due_iff (h : l.Refines K a) : l.Due ↔ ∃ w, a.FirstDue w := by
  refine ⟨fun hd => ⟨_, h.firstDue hd⟩, ?_⟩
  rintro ⟨w, hw, hlt, -⟩
  obtain ⟨hK, hact⟩ := (h.timers w).mp hw
  obtain ⟨hb, hn, -⟩ := h.heap.mem_range hK hact
  have hle := h.heap.root_le hK hact
  rw [h.watcher _ hK, h.mnNow] at hlt
  refine ⟨by omega, ?_⟩
  rw [h.heap.cache _ (Nat.le_refl _) (by omega)]
  exact Int.lt_of_le_of_lt hle hlt

/-- A look at the clock. -/
theorem timeUpdate (h : l.Refines K a) (now : ℤ) :
    (l.timeUpdate now).Refines K (a.timeUpdate now) where
  heap := h.heap.congr rfl rfl rfl
  pend := ⟨h.pend.slot, h.pend.pos⟩
  timers := h.timers
  pendings := h.pendings
  rfeeds := h.rfeeds
  known := h.known
  mnNow := rfl
  watcher := h.watcher

variable [DecidableEq W]

omit [DecidableEq W] in
/-- An unknown watcher may be forgotten, and a watcher that the loop does not refer to as well. -/
theorem forget (h : l.Refines K a) {K' : Set W} (hsub : K' ⊆ K) (hrefers : ∀ v, a.Refers v → v ∈ K') :
    l.Refines K' a := by
  have hset : {v | v ∈ K ∧ l.timers.active v ≠ 0} = {v | v ∈ K' ∧ l.timers.active v ≠ 0} := by
    ext v
    exact ⟨fun hv => ⟨hrefers v (.inl ((h.timers v).mpr hv)), hv.2⟩, fun hv => ⟨hsub hv.1, hv.2⟩⟩
  refine ⟨⟨hset ▸ h.heap.good, h.heap.cache⟩, ⟨?_, fun v hv => h.pend.pos v (hsub hv)⟩, ?_,
    h.pendings, h.rfeeds, fun v hv => hrefers v (.inr (.inr hv)), h.mnNow,
    fun v hv => h.watcher v (hsub hv)⟩
  · intro i v hi hv
    obtain ⟨-, hpos⟩ := h.pend.slot i v hi hv
    refine ⟨hrefers v (.inr (.inl ?_)), hpos⟩
    rw [h.pendings, mem_pendingList]
    exact ⟨i, hi, hv⟩
  · intro v
    rw [h.timers]
    exact Set.ext_iff.mp hset v

omit [DecidableEq W] in
/-- The memory outside `K` changes. -/
theorem scribble (h : l.Refines K a) {active pending : W → ℕ} {watcher : W → EvTimer H}
    (hactive : ∀ w ∈ K, active w = l.timers.active w) (hpending : ∀ w ∈ K, pending w = l.pending w)
    (hwatcher : ∀ w ∈ K, watcher w = l.watcher w) :
    { l with timers := { l.timers with active := active }
             pending := pending
             watcher := watcher }.Refines K a := by
  have hset : {v | v ∈ K ∧ active v ≠ 0} = {v | v ∈ K ∧ l.timers.active v ≠ 0} := by
    ext v
    exact and_congr_right fun hv => by rw [hactive v hv]
  refine ⟨⟨?_, fun i hb hn => ?_⟩, ⟨fun i v hi hv => ?_, fun v hv => ?_⟩, fun v => ?_, h.pendings,
    h.rfeeds, h.known, h.mnNow, fun v hv => (h.watcher v hv).trans (hwatcher v hv).symm⟩
  · show Heap.Good {v | v ∈ K ∧ active v ≠ 0} _ _
    rw [hset]
    exact h.heap.good.congr_active _ fun v hv => hactive v hv.1
  · dsimp only
    rw [hwatcher _ (h.heap.entry_mem ⟨hb, hn⟩)]
    exact h.heap.cache i hb hn
  · obtain ⟨hK, hpos⟩ := h.pend.slot i v hi hv
    exact ⟨hK, (hpending v hK).trans hpos⟩
  · dsimp only
    rw [hpending v hv]
    exact h.pend.pos v hv
  · rw [h.timers]
    exact (Set.ext_iff.mp hset v).symm

/-- A watcher that the loop does not know is made anew. -/
theorem evTimerInit (h : l.Refines K a) (hK : w ∉ K) (after repeat' : ℤ) (data : H) :
    (l.evTimerInit w after repeat' data).Refines (insert w K)
      { a with watcher := Function.update a.watcher w ⟨after, repeat', data⟩ } := by
  have hne {v : W} (hv : v ∈ K) : v ≠ w := fun heq => hK (heq ▸ hv)
  have hs : (l.evTimerInit w after repeat' data).Refines K a :=
    h.scribble (fun v hv => Function.update_of_ne (hne hv) ..)
      (fun v hv => Function.update_of_ne (hne hv) ..)
      (fun v hv => Function.update_of_ne (hne hv) ..)
  have hact : (l.evTimerInit w after repeat' data).timers.active w = 0 := Function.update_self ..
  have hpend : (l.evTimerInit w after repeat' data).pending w = 0 := Function.update_self ..
  have hwatcher : (l.evTimerInit w after repeat' data).watcher w = ⟨after, repeat', data⟩ :=
    Function.update_self ..
  generalize l.evTimerInit w after repeat' data = l at hs hact hpend hwatcher ⊢
  have hset : {v | v ∈ insert w K ∧ l.timers.active v ≠ 0} =
      {v | v ∈ K ∧ l.timers.active v ≠ 0} := by
    ext v
    constructor
    · rintro ⟨rfl | hv, hv0⟩
      · exact absurd hact hv0
      · exact ⟨hv, hv0⟩
    · exact fun hv => ⟨Set.mem_insert_of_mem w hv.1, hv.2⟩
  refine ⟨⟨?_, hs.heap.cache⟩, ⟨fun i v hi hv => ?_, ?_⟩, fun v => ?_, hs.pendings, hs.rfeeds,
    fun v hv => Set.mem_insert_of_mem w (hs.known v hv), hs.mnNow, ?_⟩
  · rw [hset]
    exact hs.heap.good
  · obtain ⟨hv, hpos⟩ := hs.pend.slot i v hi hv
    exact ⟨Set.mem_insert_of_mem w hv, hpos⟩
  · rintro v (rfl | hv) hv0
    · exact absurd hpend hv0
    · exact hs.pend.pos v hv hv0
  · rw [hs.timers]
    exact (Set.ext_iff.mp hset v).symm
  · rintro v (rfl | hv)
    · rw [hwatcher]
      exact Function.update_self ..
    · dsimp only
      rw [Function.update_of_ne (hne hv)]
      exact hs.watcher v hv

/-- Two updates of known watchers agree if they agree on the one that is updated. -/
theorem watcher_update (h : l.Refines K a) {x y : EvTimer H} (hxy : x = y) :
    ∀ v ∈ K, Function.update a.watcher w x v = Function.update l.watcher w y v := by
  intro v hv
  subst hxy
  by_cases hvw : v = w
  · subst hvw
    rw [Function.update_self, Function.update_self]
  · rw [Function.update_of_ne hvw, Function.update_of_ne hvw]
    exact h.watcher v hv

/-- `ev_timer_start` for a known watcher. -/
theorem evTimerStart (h : l.Refines K a) (hK : w ∈ K) :
    (l.evTimerStart w).Refines K (a.evTimerStart w) := by
  obtain ⟨hheap, hact⟩ := h.heap.evTimerStart hK
  by_cases hw : l.timers.active w ≠ 0
  · rw [LoopData.evTimerStart, EvLoop.evTimerStart, if_pos hw, if_pos ((h.mem_timers hK).mpr hw)]
    exact h
  · have ha : w ∉ a.timers := fun ha => hw ((h.mem_timers hK).mp ha)
    rw [LoopData.evTimerStart, if_neg hw] at hheap hact ⊢
    rw [EvLoop.evTimerStart, if_neg ha]
    refine ⟨hheap, ⟨h.pend.slot, h.pend.pos⟩, fun v => ?_, h.pendings, h.rfeeds, h.known, h.mnNow,
      h.watcher_update ?_⟩
    · rw [List.mem_cons, h.timers]
      constructor
      · rintro (rfl | hv)
        · exact ⟨hK, (hact v hK).mpr (.inr rfl)⟩
        · exact ⟨hv.1, (hact v hv.1).mpr (.inl hv.2)⟩
      · rintro ⟨hvK, hv⟩
        rcases (hact v hvK).mp hv with hv | rfl
        · exact .inr ⟨hvK, hv⟩
        · exact .inl rfl
    · rw [h.watcher w hK, h.mnNow]

/-- `clear_pending`, which leaves a gap in the array and none in the list. -/
theorem clearPending (h : l.Refines K a) (hK : w ∈ K) :
    (l.clearPending w).Refines K (a.clearPending w) := by
  have hpend := h.pend.clearPending hK
  by_cases hw : l.pending w ≠ 0
  · rw [LoopData.clearPending, if_pos hw] at hpend ⊢
    refine ⟨h.heap.congr rfl rfl rfl, hpend, h.timers, ?_, h.rfeeds, h.known, h.mnNow, h.watcher⟩
    rw [EvLoop.clearPending, h.pendings]
    exact (pendingList_clear (h.pend.pos w hK hw).2 fun i hi => h.pend.slot_unique hi).symm
  · have hnot : w ∉ a.pendings := fun hmem => hw (h.mem_pendings.mp hmem).2
    have hfilter : a.pendings.filter (· ≠ w) = a.pendings := by
      rw [List.filter_eq_self]
      intro v hv
      simpa using fun heq : v = w => hnot (heq ▸ hv)
    rw [LoopData.clearPending, if_neg hw, EvLoop.clearPending, hfilter]
    exact h

/-- `ev_timer_stop` for a known watcher. -/
theorem evTimerStop (h : l.Refines K a) (hK : w ∈ K) :
    (l.evTimerStop w).Refines K (a.evTimerStop w) := by
  have hc := h.clearPending hK
  rw [LoopData.evTimerStop, EvLoop.evTimerStop]
  generalize l.clearPending w = l at hc ⊢
  generalize a.clearPending w = a at hc ⊢
  obtain ⟨hheap, hact⟩ := hc.heap.stopActive hK
  dsimp only
  by_cases hw : l.timers.active w = 0
  · have ha : w ∉ a.timers := fun ha => (hc.mem_timers hK).mp ha hw
    rw [LoopData.stopActive, if_pos hw, if_pos ha]
    exact hc
  · have ha : ¬ w ∉ a.timers := not_not.mpr ((hc.mem_timers hK).mpr hw)
    rw [LoopData.stopActive, if_neg hw] at hheap hact ⊢
    rw [if_neg ha]
    refine ⟨hheap, ⟨hc.pend.slot, hc.pend.pos⟩, fun v => ?_, hc.pendings, hc.rfeeds, hc.known,
      hc.mnNow, hc.watcher_update ?_⟩
    · rw [List.mem_filter, hc.timers, decide_eq_true_eq, and_assoc]
      exact and_congr_right fun hv => (hact v hv).symm
    · rw [hc.watcher w hK, hc.mnNow]

/-- `ev_feed_event` for a known watcher. -/
theorem evFeedEvent (h : l.Refines K a) (hK : w ∈ K) :
    (l.evFeedEvent w).Refines K (a.evFeedEvent w) := by
  have hpend := h.pend.evFeedEvent hK
  by_cases hw : l.pending w ≠ 0
  · rw [LoopData.evFeedEvent, EvLoop.evFeedEvent, if_pos hw, if_pos (h.mem_pendings.mpr ⟨hK, hw⟩)]
    exact h
  · have ha : w ∉ a.pendings := fun ha => hw (h.mem_pendings.mp ha).2
    rw [LoopData.evFeedEvent, if_neg hw] at hpend ⊢
    rw [EvLoop.evFeedEvent, if_neg ha]
    refine ⟨h.heap.congr rfl rfl rfl, hpend, h.timers, ?_, h.rfeeds, h.known, h.mnNow, h.watcher⟩
    dsimp only
    rw [pendingList, Function.update_self, pendingList_update_of_le (Nat.le_refl _), h.pendings]
    rfl

omit [DecidableEq W] in
/-- `feed_reverse` for a known watcher. -/
theorem feedReverse (h : l.Refines K a) (hK : w ∈ K) :
    (l.feedReverse w).Refines K { a with rfeeds := w :: a.rfeeds } := by
  refine ⟨h.heap.congr rfl rfl rfl, ⟨h.pend.slot, h.pend.pos⟩, h.timers, h.pendings, ?_, ?_,
    h.mnNow, h.watcher⟩
  · dsimp only [LoopData.feedReverse]
    rw [rfeedList, Function.update_self, h.rfeeds]
    congr 1
    exact rfeedList_congr fun i hi => (Function.update_of_ne (Nat.ne_of_lt hi) ..).symm
  · rw [List.forall_mem_cons]
    exact ⟨hK, h.known⟩

omit [DecidableEq W] in
/-- The last entry of `rfeeds` is dropped. -/
theorem set_rfeedcnt {r : List W} (h : l.Refines K { a with rfeeds := w :: r }) {n : ℕ}
    (hr : r = rfeedList l.rfeeds n) :
    { l with rfeedcnt := n }.Refines K { a with rfeeds := r } :=
  ⟨h.heap.congr rfl rfl rfl, ⟨h.pend.slot, h.pend.pos⟩, h.timers, h.pendings, hr,
    fun v hv => h.known v (List.mem_cons_of_mem w hv), h.mnNow, h.watcher⟩

/-- Feeding looks at no list but `pendings`. -/
theorem evFeedEvent_rfeeds (a : EvLoop H W) (r : List W) :
    ({ a with rfeeds := r }).evFeedEvent w = { a.evFeedEvent w with rfeeds := r } := by
  unfold EvLoop.evFeedEvent
  dsimp only
  split <;> rfl

/-- By induction on the entries that are left in `rfeeds`, the last of them first. -/
theorem feedReverseLoop (n : ℕ) (l : LoopData H W) (a : EvLoop H W)
    (h : l.Refines K { a with rfeeds := rfeedList l.rfeeds n }) (hn : l.rfeedcnt = n) :
    (l.feedReverseLoop n).Refines K
      { (rfeedList l.rfeeds n).foldl EvLoop.evFeedEvent a with rfeeds := [] } := by
  induction n generalizing l a with
  | zero => exact h
  | succ n ih =>
      have hcnt : (({ l with rfeedcnt := n }).evFeedEvent (l.rfeeds n)).rfeedcnt = n := by
        unfold LoopData.evFeedEvent
        split <;> rfl
      have hfeeds : (({ l with rfeedcnt := n }).evFeedEvent (l.rfeeds n)).rfeeds = l.rfeeds := by
        unfold LoopData.evFeedEvent
        split <;> rfl
      have hK : l.rfeeds n ∈ K := h.known _ (List.mem_cons_self ..)
      have hstep := (set_rfeedcnt h rfl).evFeedEvent hK
      rw [evFeedEvent_rfeeds] at hstep
      have hloop := ih _ (a.evFeedEvent (l.rfeeds n)) (by rwa [hfeeds]) hcnt
      rwa [hfeeds] at hloop

/-- `feed_reverse_done`, which feeds the whole of `rfeeds`. -/
theorem feedReverseDone (h : l.Refines K a) : l.feedReverseDone.Refines K a.feedReverseDone := by
  have hloop := feedReverseLoop l.rfeedcnt l a (by rw [← h.rfeeds]; exact h) rfl
  rw [← h.rfeeds] at hloop
  exact hloop

/-- An entry of `pendings` is taken: a watcher is the head of the list, and a gap is nothing. -/
theorem takePending (h : l.Refines K a) (hn : l.pendingcnt ≠ 0) :
    match l.takePending with
    | (some w, l') => ∃ ws, a.pendings = w :: ws ∧ l'.Refines K { a with pendings := ws }
    | (none, l') => l'.Refines K a := by
  have hpend := h.pend.takePending hn
  obtain ⟨n, hcnt⟩ : ∃ n, l.pendingcnt = n + 1 := ⟨l.pendingcnt - 1, by omega⟩
  have hlist := h.pendings
  rw [hcnt, pendingList] at hlist
  cases hslot : l.pendings n with
  | none =>
      rw [takePending_none hcnt hslot] at hpend ⊢
      rw [hslot] at hlist
      exact ⟨h.heap.congr rfl rfl rfl, hpend, h.timers, hlist, h.rfeeds, h.known, h.mnNow,
        h.watcher⟩
  | some w =>
      rw [takePending_some hcnt hslot] at hpend ⊢
      rw [hslot] at hlist
      exact ⟨_, hlist, h.heap.congr rfl rfl rfl, hpend, h.timers, rfl, h.rfeeds, h.known, h.mnNow,
        h.watcher⟩

/-- An active watcher changes its `at`, and its entry is sifted. -/
theorem of_sifted (h : l.Refines K a) (hK : w ∈ K) {x : ℤ} {timers : Heap W}
    (hs : Heap.Sifted {v | v ∈ K ∧ l.timers.active v ≠ 0}
      ((l.setAt w x).cacheAt (l.timers.active w)).timers l.timercnt (l.timers.active w) ⟨x, w⟩
      timers) :
    { (l.setAt w x).cacheAt (l.timers.active w) with timers := timers }.Refines K
      { a with watcher := Function.update a.watcher w { a.watcher w with evAt := x } } := by
  obtain ⟨hheap, hact⟩ := h.heap.of_sifted hs
  refine ⟨hheap, ⟨h.pend.slot, h.pend.pos⟩, fun v => ?_, h.pendings, h.rfeeds, h.known, h.mnNow,
    h.watcher_update (by rw [h.watcher w hK])⟩
  rw [h.timers]
  exact and_congr_right fun hv => (hact v hv).symm

/-- The root gets another `at`, and sinks to where it belongs. -/
theorem sinkRoot (h : l.Refines K a) (hK : w ∈ K) (hw : l.timers.active w = HEAP0) (x : ℤ) :
    (l.setAt w x).sinkRoot.Refines K
      { a with watcher := Function.update a.watcher w { a.watcher w with evAt := x } } := by
  have hne : l.timers.active w ≠ 0 := by
    rw [hw]
    decide
  have hsift := h.heap.sifting_cacheAt hK hne x
  have hentry := h.heap.entry_cacheAt hK hne x
  have hsifted := hsift.downheap hentry fun p hp => by
    have hb := hp.1
    omega
  have href := h.of_sifted hK hsifted
  rwa [hw] at href

/-- The first watcher due expires. -/
theorem reifyRound (h : l.Refines K a) (hd : l.Due) :
    l.reifyRound.Refines K (a.expire (l.timers.entry HEAP0).w) := by
  have hactive := h.heap.root_active hd.1
  have hK := h.heap.root_mem hd.1
  unfold LoopData.reifyRound EvLoop.expire
  generalize (l.timers.entry HEAP0).w = w at *
  dsimp only
  rw [h.watcher w hK, h.mnNow]
  by_cases hr : (l.watcher w).evRepeat ≠ 0
  · rw [if_pos hr, if_pos hr, repeatAt_eq]
    have hsink := h.sinkRoot hK hactive (max ((l.watcher w).evAt + (l.watcher w).evRepeat) l.mnNow)
    rw [h.watcher w hK, h.mnNow] at hsink
    exact hsink.feedReverse hK
  · rw [if_neg hr, if_neg hr]
    exact (h.evTimerStop hK).feedReverse hK

/-- The `at` of a watcher outside the heap changes. -/
theorem setAt (h : l.Refines K a) (hK : w ∈ K) (hw : l.timers.active w = 0) (x : ℤ) :
    (l.setAt w x).Refines K
      { a with watcher := Function.update a.watcher w { a.watcher w with evAt := x } } := by
  refine ⟨⟨h.heap.good, fun i hb hn => ?_⟩, ⟨h.pend.slot, h.pend.pos⟩, h.timers, h.pendings,
    h.rfeeds, h.known, h.mnNow, h.watcher_update (by rw [h.watcher w hK])⟩
  have hne : (l.timers.entry i).w ≠ w := by
    intro heq
    have hact := h.heap.entry_active ⟨hb, hn⟩
    rw [heq, hw] at hact
    exact absurd hb (by rw [← hact]; decide)
  dsimp only [LoopData.setAt]
  rw [Function.update_of_ne hne]
  exact h.heap.cache i hb hn

omit [DecidableEq W] in
/-- The order of the active watchers does not matter. -/
theorem of_mem_iff (h : l.Refines K a) {ts : List W} (hts : ∀ v, v ∈ ts ↔ v ∈ a.timers) :
    l.Refines K { a with timers := ts } :=
  ⟨h.heap, h.pend, fun v => (hts v).trans (h.timers v), h.pendings, h.rfeeds, h.known, h.mnNow,
    h.watcher⟩

end Refines

end LoopData

/-- Arrays without room, and watchers with nonsense in them. -/
def noTimers (H W : Type*) [Inhabited H] [Inhabited W] : LoopData H W where
  timers := ⟨fun _ => ⟨0, default⟩, fun _ => 7⟩
  timercnt := 0
  timermax := 0
  pendings := fun _ => none
  pendingcnt := 0
  pendingmax := 0
  pending := fun _ => 7
  rfeeds := fun _ => default
  rfeedcnt := 0
  rfeedmax := 0
  mnNow := 0
  activecnt := 1
  watcher := fun _ => ⟨0, -7, default⟩

/-- Its only watcher is the one for wake-ups. -/
theorem noTimers_fresh (H W : Type*) [Inhabited H] [Inhabited W] : (noTimers H W).Fresh 1 :=
  ⟨rfl, rfl, rfl, rfl⟩

end TargetSys.Timer
