import TargetSys.Common.DaryHeap

/-!
# The 4-heap of libev

Reference: `third-party/libev/ev.c`, with `EV_USE_4HEAP` and `EV_HEAP_CACHE_AT` as the default
`EV_FEATURES` set them.

A heap is an array of entries `ANHE`, and the position of an entry is also in the member `active` of
its watcher. The first entry is at `HEAP0`. `upheap` and `downheap` take the entry at `k` out and
move others into the hole until the entry fits.

## Main results

* `Heap.Sifting.upheap`, `downheap`, `adjustheap`: from a heap that is in order around
  `k`, the result is in order and each watcher knows its position.
-/

namespace TargetSys.Timer

/-- `ANHE`: a watcher and a copy of its `at`. -/
structure Anhe (W : Type*) where
  evAt : ℤ
  w : W

/-- An array `ANHE *heap`, and the member `active` of the watchers. -/
structure Heap (W : Type*) where
  entry : ℕ → Anhe W
  active : W → ℕ

def DHEAP : ℕ := 4

/-- Index of the first element in a heap. -/
def HEAP0 : ℕ := DHEAP - 1

/-- `HPARENT`. -/
def hparent (k : ℕ) : ℕ := (k - HEAP0 - 1) / DHEAP + HEAP0

/-- `pos` in `downheap`: the first of the positions below `k`. -/
def childPos (k : ℕ) : ℕ := DHEAP * (k - HEAP0) + HEAP0 + 1

section Find

variable {W : Type*} (entry : ℕ → Anhe W)

/-- One line of the search for the minimum child: `minpos` moves on to `p`. -/
def pick (inside : Bool) (minpos p : ℕ) : ℕ :=
  if inside ∧ (entry p).evAt < (entry minpos).evAt then p else minpos

/-- The search when all four positions from `pos` on are used. -/
def fastMinpos (pos : ℕ) : ℕ :=
  pick entry true (pick entry true (pick entry true pos (pos + 1)) (pos + 2)) (pos + 3)

/-- The search when the heap ends at `e`. -/
def slowMinpos (e pos : ℕ) : ℕ :=
  pick entry (pos + 3 < e)
    (pick entry (pos + 2 < e) (pick entry (pos + 1 < e) pos (pos + 1)) (pos + 2)) (pos + 3)

/-- The minimum child, or none where `downheap` breaks. -/
def minposOf (e pos : ℕ) : Option ℕ :=
  if pos + DHEAP - 1 < e then some (fastMinpos entry pos)
  else if pos < e then some (slowMinpos entry e pos)
  else none

variable {entry} {e pos m p : ℕ}

/-- The fast path finds what the slow one would. -/
theorem fastMinpos_eq_slowMinpos (h : pos + 3 < e) :
    fastMinpos entry pos = slowMinpos entry e pos := by
  have h1 : pos + 1 < e := by omega
  have h2 : pos + 2 < e := by omega
  simp only [fastMinpos, slowMinpos, h, h1, h2, decide_true]

/-- Whether it looks fast or slow, the search finds the same child. -/
theorem minposOf_eq :
    minposOf entry e pos = if pos < e then some (slowMinpos entry e pos) else none := by
  unfold minposOf DHEAP
  by_cases h : pos + 3 < e
  · rw [if_pos (by omega), if_pos (by omega), fastMinpos_eq_slowMinpos h]
  · rw [if_neg (by omega)]

variable (entry) in
/-- A pick stays or moves inside, and is no greater than what it has seen. -/
theorem pick_spec (inside : Bool) (m p : ℕ) :
    (pick entry inside m p = m ∨ inside ∧ pick entry inside m p = p) ∧
      (entry (pick entry inside m p)).evAt ≤ (entry m).evAt ∧
      (inside → (entry (pick entry inside m p)).evAt ≤ (entry p).evAt) := by
  unfold pick
  split
  · rename_i h
    exact ⟨.inr ⟨h.1, rfl⟩, by omega, fun _ => le_refl _⟩
  · rename_i h
    refine ⟨.inl rfl, le_refl _, fun hi => ?_⟩
    rw [not_and, Int.not_lt] at h
    exact h hi

/-- The position found is one of the four and inside, and no entry at one of them is less. -/
theorem slowMinpos_spec (h : pos < e) :
    (pos ≤ slowMinpos entry e pos ∧ slowMinpos entry e pos < pos + DHEAP ∧
        slowMinpos entry e pos < e) ∧
      ∀ p, pos ≤ p → p < pos + DHEAP → p < e →
        (entry (slowMinpos entry e pos)).evAt ≤ (entry p).evAt := by
  obtain ⟨hm1, hle1, hp1⟩ := pick_spec entry (pos + 1 < e) pos (pos + 1)
  unfold slowMinpos DHEAP
  generalize pick entry (pos + 1 < e) pos (pos + 1) = m1 at *
  obtain ⟨hm2, hle2, hp2⟩ := pick_spec entry (pos + 2 < e) m1 (pos + 2)
  generalize pick entry (pos + 2 < e) m1 (pos + 2) = m2 at *
  obtain ⟨hm3, hle3, hp3⟩ := pick_spec entry (pos + 3 < e) m2 (pos + 3)
  generalize pick entry (pos + 3 < e) m2 (pos + 3) = m3 at *
  simp only [decide_eq_true_eq] at *
  refine ⟨by omega, fun p hpos hlt hpe => ?_⟩
  have hcases : p = pos ∨ p = pos + 1 ∨ p = pos + 2 ∨ p = pos + 3 := by omega
  rcases hcases with rfl | rfl | rfl | rfl
  · omega
  · have := hp1 hpe
    omega
  · have := hp2 hpe
    omega
  · exact hp3 hpe

/-- The child that is found is one in the heap, and no child is due earlier. -/
theorem minposOf_some (h : minposOf entry e pos = some m) :
    (pos ≤ m ∧ m < pos + DHEAP ∧ m < e) ∧
      ∀ p, pos ≤ p → p < pos + DHEAP → p < e → (entry m).evAt ≤ (entry p).evAt := by
  rw [minposOf_eq] at h
  split at h
  · rename_i hlt
    obtain rfl := Option.some.inj h
    exact slowMinpos_spec hlt
  · cases h

/-- Nothing is found only where the heap ends. -/
theorem minposOf_none (h : minposOf entry e pos = none) : e ≤ pos := by
  rw [minposOf_eq] at h
  split at h
  · cases h
  · omega

end Find

namespace Heap

variable {W : Type*} [DecidableEq W]

/-- `heap [k] = he; ev_active (ANHE_w (he)) = k;`. -/
def put (h : Heap W) (k : ℕ) (he : Anhe W) : Heap W where
  entry := Function.update h.entry k he
  active := Function.update h.active he.w k

omit [DecidableEq W] in
/-- The child lies behind its parent, and in the heap. -/
theorem lt_minposOf {h : Heap W} {n k m : ℕ}
    (hm : minposOf h.entry (n + HEAP0) (childPos k) = some m) : k < m ∧ m < n + HEAP0 := by
  have hspec := (minposOf_some hm).1
  unfold childPos DHEAP HEAP0 at hspec
  unfold HEAP0
  omega

/-- The loop of `downheap`, with the entry `he` to be placed. -/
def downheapLoop (he : Anhe W) (h : Heap W) (n k : ℕ) : Heap W :=
  match _hm : minposOf h.entry (n + HEAP0) (childPos k) with
  | none => h.put k he
  | some m =>
      if he.evAt ≤ (h.entry m).evAt then h.put k he
      else downheapLoop he (h.put k (h.entry m)) n m
termination_by n + HEAP0 - k
decreasing_by
  have hlt := lt_minposOf _hm
  omega

/-- `downheap`: away from the root. -/
def downheap (h : Heap W) (n k : ℕ) : Heap W := downheapLoop (h.entry k) h n k

/-- The loop of `upheap`, with the entry `he` to be placed. -/
def upheapLoop (he : Anhe W) (h : Heap W) (k : ℕ) : Heap W :=
  if hparent k = k ∨ (h.entry (hparent k)).evAt ≤ he.evAt then h.put k he
  else upheapLoop he (h.put k (h.entry (hparent k))) (hparent k)
termination_by if k < HEAP0 then 1 else k - HEAP0
decreasing_by
  rename_i hk
  rw [not_or] at hk
  unfold hparent HEAP0 DHEAP at *
  split <;> split <;> omega

/-- `upheap`: towards the root. -/
def upheap (h : Heap W) (k : ℕ) : Heap W := upheapLoop (h.entry k) h k

/-- `adjustheap`: move an element suitably so it is in a correct place. -/
def adjustheap (h : Heap W) (n k : ℕ) : Heap W :=
  if HEAP0 < k ∧ (h.entry k).evAt ≤ (h.entry (hparent k)).evAt then h.upheap k
  else h.downheap n k

/-! ## The heap in order -/

/-- The `n` entries from `HEAP0` on are those of the watchers `S`, each of which knows its position,
and no entry is less than the one above it. -/
structure Good (S : Set W) (h : Heap W) (n : ℕ) : Prop where
  order : DaryHeap.Ordered DHEAP HEAP0 Anhe.evAt h.entry n
  index : DaryHeap.Indexed HEAP0 Anhe.w S h.entry n h.active

/-- The same around a hole at `k` that waits for the entry `he`. -/
structure Sifting (S : Set W) (h : Heap W) (n k : ℕ) (he : Anhe W) : Prop where
  order : DaryHeap.Hole DHEAP HEAP0 Anhe.evAt h.entry n k
  index : DaryHeap.IndexedOff HEAP0 Anhe.w S h.entry n h.active k he.w

/-- What a sift makes of the heap `h`: the entries are the old ones and `he`, in order, and only the
watchers in the heap have learned of it. -/
structure Sifted (S : Set W) (h : Heap W) (n k : ℕ) (he : Anhe W) (h' : Heap W) : Prop where
  good : h'.Good S n
  entry : ∀ i, HEAP0 ≤ i → i < HEAP0 + n → h'.entry i = he ∨
    ∃ j, HEAP0 ≤ j ∧ j < HEAP0 + n ∧ j ≠ k ∧ h'.entry i = h.entry j
  other : ∀ w ∉ S, h'.active w = h.active w

variable {S : Set W} {h h' h'' : Heap W} {n k m : ℕ} {he : Anhe W}

namespace Sifting

/-- The entry fits into the hole. -/
theorem fill (hs : Sifting S h n k he)
    (above : ∀ p, DaryHeap.Child DHEAP HEAP0 n p k → (h.entry p).evAt ≤ he.evAt)
    (below : ∀ c, DaryHeap.Child DHEAP HEAP0 n k c → he.evAt ≤ (h.entry c).evAt) :
    Sifted S h n k he (h.put k he) where
  good := ⟨hs.order.fill above below, hs.index.fill⟩
  entry := by
    intro i hb hn
    by_cases hik : i = k
    · subst hik
      exact .inl (Function.update_self ..)
    · exact .inr ⟨i, hb, hn, hik, Function.update_of_ne hik ..⟩
  other := by
    intro w hw
    refine Function.update_of_ne (fun heq => hw ?_) ..
    rw [heq]
    exact hs.index.awaited

/-- What is sifted behind the move of the entry at `m` into the hole is sifted from the start. -/
theorem sifted_of_move (hs : Sifting S h n k he) (hm : HEAP0 ≤ m ∧ m < HEAP0 + n) (hmk : m ≠ k)
    (h' : Sifted S (h.put k (h.entry m)) n m he h'') : Sifted S h n k he h'' where
  good := h'.good
  entry := by
    intro i hb hn
    rcases h'.entry i hb hn with heq | ⟨j, hbj, hnj, hjm, heq⟩
    · exact .inl heq
    · right
      by_cases hjk : j = k
      · subst hjk
        exact ⟨m, hm.1, hm.2, hmk, heq.trans (Function.update_self ..)⟩
      · exact ⟨j, hbj, hnj, hjk, heq.trans (Function.update_of_ne hjk ..)⟩
  other := by
    intro w hw
    have hS := (hs.index.pos_slot m hm.1 hm.2 hmk).1
    have hne : w ≠ (h.entry m).w := fun heq => hw (heq ▸ hS)
    exact (h'.other w hw).trans (Function.update_of_ne hne ..)

/-- By induction along the way up. No child of the hole is earlier than `he`, which is what each
move keeps. -/
theorem upheapLoop (hs : Sifting S h n k he)
    (below : ∀ c, DaryHeap.Child DHEAP HEAP0 n k c → he.evAt ≤ (h.entry c).evAt) :
    Sifted S h n k he (upheapLoop he h k) := by
  fun_induction Heap.upheapLoop he h k with
  | case1 h k hk =>
      refine hs.fill (fun p hp => ?_) below
      obtain rfl : hparent k = p := hp.2.2
      have hlt : hparent k < k := hp.lt
      rcases hk with heq | hle
      · omega
      · exact hle
  | case2 h k hk ih =>
      rw [not_or, Int.not_le] at hk
      have hbk : HEAP0 < k := by
        refine Nat.lt_of_le_of_ne hs.index.hole.1 fun heq => hk.1 ?_
        subst heq
        rfl
      have hp : DaryHeap.Child DHEAP HEAP0 n (hparent k) k := ⟨hbk, hs.index.hole.2, rfl⟩
      have hrange : HEAP0 ≤ hparent k ∧ hparent k < HEAP0 + n :=
        ⟨hp.base_le, Nat.lt_trans hp.lt hs.index.hole.2⟩
      refine hs.sifted_of_move hrange hk.1 (ih ⟨hs.order.up hp, ?_⟩ ?_)
      · exact hs.index.move hrange hk.1
      · exact hs.order.up_below hp (Int.le_of_lt hk.2)

/-- By induction along the way down. The parent of the hole is no later than `he`, which is what
each move keeps. -/
theorem downheapLoop (hs : Sifting S h n k he)
    (above : ∀ p, DaryHeap.Child DHEAP HEAP0 n p k → (h.entry p).evAt ≤ he.evAt) :
    Sifted S h n k he (downheapLoop he h n k) := by
  have hd : 0 < DHEAP := by decide
  fun_induction Heap.downheapLoop he h n k with
  | case1 h k hm =>
      -- no child, or none that is earlier than `he`: the hole is filled
      refine hs.fill above fun c hc => ?_
      have hle := minposOf_none hm
      have hrange := (hc.range hd).1
      have hn := hc.2.1
      unfold childPos at hle
      omega
  | case2 h k m hm hle =>
      refine hs.fill above fun c hc => le_trans hle ?_
      have hrange := hc.range hd
      exact (minposOf_some hm).2 c hrange.1 hrange.2 (by have := hc.2.1; omega)
  | case3 h k m hm hle ih =>
      -- the least child moves up, and the hole down to its place
      obtain ⟨⟨hpos, hlt, hn⟩, hmin⟩ := minposOf_some hm
      have hkm := (lt_minposOf hm).1
      obtain ⟨i, rfl⟩ := Nat.exists_eq_add_of_le hpos
      have hc : DaryHeap.Child DHEAP HEAP0 n k (childPos k + i) :=
        DaryHeap.Child.of_range hs.index.hole.1 (by omega) (by unfold childPos at hn; omega)
      have hrange : HEAP0 ≤ childPos k + i ∧ childPos k + i < HEAP0 + n :=
        ⟨Nat.le_of_lt hc.1, hc.2.1⟩
      have hmin' : ∀ c, DaryHeap.Child DHEAP HEAP0 n k c →
          (h.entry (childPos k + i)).evAt ≤ (h.entry c).evAt := by
        intro c hc
        have hrange := hc.range hd
        exact hmin c hrange.1 hrange.2 (by have := hc.2.1; omega)
      have hne := Nat.ne_of_gt hkm
      refine hs.sifted_of_move hrange hne (ih ⟨hs.order.down hc hmin', hs.index.move hrange hne⟩ ?_)
      exact DaryHeap.Hole.down_above hc (by omega)

/-- An entry that is too early for its place. -/
theorem upheap (hs : Sifting S h n k he) (hk : h.entry k = he)
    (below : ∀ c, DaryHeap.Child DHEAP HEAP0 n k c → he.evAt ≤ (h.entry c).evAt) :
    Sifted S h n k he (h.upheap k) := by
  unfold Heap.upheap
  rw [hk]
  exact hs.upheapLoop below

/-- An entry that is too late for its place. -/
theorem downheap (hs : Sifting S h n k he) (hk : h.entry k = he)
    (above : ∀ p, DaryHeap.Child DHEAP HEAP0 n p k → (h.entry p).evAt ≤ he.evAt) :
    Sifted S h n k he (h.downheap n k) := by
  unfold Heap.downheap
  rw [hk]
  exact hs.downheapLoop above

/-- An entry that may be either: it goes up if it is no later than its parent, and down if not. -/
theorem adjustheap (hs : Sifting S h n k he) (hk : h.entry k = he) :
    Sifted S h n k he (h.adjustheap n k) := by
  unfold Heap.adjustheap
  rw [hk]
  split
  · rename_i hup
    have hp : DaryHeap.Child DHEAP HEAP0 n (hparent k) k := ⟨hup.1, hs.index.hole.2, rfl⟩
    exact hs.upheap hk (hs.order.below_of_le hp hup.2)
  · rename_i hdown
    refine hs.downheap hk fun p hp => ?_
    obtain rfl : hparent k = p := hp.2.2
    have hb := hp.1
    omega

end Sifting

omit [DecidableEq W] in
/-- What holds of the entries around the hole and of the one that fills it holds of all. -/
theorem Sifted.forall {P : Anhe W → Prop} (hs : Sifted S h n k he h') (hhe : P he)
    (hP : ∀ j, HEAP0 ≤ j → j < HEAP0 + n → j ≠ k → P (h.entry j)) :
    ∀ i, HEAP0 ≤ i → i < HEAP0 + n → P (h'.entry i) := by
  intro i hb hn
  rcases hs.entry i hb hn with heq | ⟨j, hbj, hnj, hjk, heq⟩
  · rwa [heq]
  · rw [heq]
    exact hP j hbj hnj hjk

end Heap

end TargetSys.Timer
