import Mathlib.Data.Set.Insert
import Mathlib.Order.Defs.LinearOrder
import Mathlib.Logic.Function.Basic
import Mathlib.Tactic.Common

/-!
# Heaps of any arity in an array

A heap of arity `d` with `n` entries lies in an array `a` at the positions `base` to `base + n - 1`,
level by level: the entries below position `k` are at `d * (k - base) + base + 1` and the `d - 1`
positions behind it. `key` orders the entries, and the least key is at `base`.

An entry is put in its place by moving a *hole* through the heap. `Hole` says that the pairs around
the hole are in order whatever will fill it, and the rules `Hole.up`, `Hole.down` and `Hole.fill`
say what a move and the end of the moves need.

Entries often know their own position, so that one can be removed from the middle. `Indexed` says
that the positions `pos` and the entries agree, and `IndexedOff` says it of a heap with a hole.

## Main results

* `Hole.up`, `Hole.down`, `Hole.fill`: the moves keep the heap in order around the hole, and an
  entry between its neighbours closes it.
* `Ordered.root_le`: no entry has a key less than the root's.
* `IndexedOff.move`, `IndexedOff.fill`: the same moves keep the positions right.
-/

namespace DaryHeap

/-! ## Positions -/

section Positions

variable (d base : ℕ)

/-- The position above `k`; the root is above itself. -/
def parent (k : ℕ) : ℕ := (k - base - 1) / d + base

/-- Position `c` of a heap of `n` entries is right below `k`. -/
def Child (n k c : ℕ) : Prop := base < c ∧ c < base + n ∧ parent d base c = k

variable {d base} {n k c p : ℕ}

/-- The parent of an entry is an entry. -/
theorem base_le_parent : base ≤ parent d base k := by
  unfold parent
  exact Nat.le_add_left base _

/-- A parent lies before its children. -/
theorem parent_lt (h : base < k) : parent d base k < k := by
  have hdiv := Nat.div_le_self (k - base - 1) d
  unfold parent
  omega

namespace Child

/-- A child lies behind its parent. -/
theorem lt (h : Child d base n k c) : k < c := h.2.2 ▸ parent_lt h.1

/-- A parent lies in the array. -/
theorem base_le (h : Child d base n k c) : base ≤ k := h.2.2 ▸ base_le_parent

/-- A child has one parent. -/
theorem unique (h : Child d base n k c) (h' : Child d base n p c) : k = p := h.2.2.symm.trans h'.2.2

/-- Every entry but the root is a child of its parent. -/
theorem of_parent (hb : base < c) (hn : c < base + n) : Child d base n (parent d base c) c :=
  ⟨hb, hn, rfl⟩

/-- A child stays one in a longer array. -/
theorem mono {m : ℕ} (h : Child d base n k c) (hm : n ≤ m) : Child d base m k c :=
  ⟨h.1, by have := h.2.1; omega, h.2.2⟩

/-- The positions below `k`. -/
theorem range (h : Child d base n k c) (hd : 0 < d) :
    d * (k - base) + base + 1 ≤ c ∧ c < d * (k - base) + base + 1 + d := by
  obtain ⟨hb, -, rfl⟩ := h
  have hdiv := Nat.div_add_mod (c - base - 1) d
  have hmod := Nat.mod_lt (c - base - 1) hd
  rw [parent, Nat.add_sub_cancel]
  omega

/-- The `d` places behind `d * (k - base) + base`, as far as they are in the heap, are children of
`k`. -/
theorem of_range {i : ℕ} (hk : base ≤ k) (hi : i < d)
    (hn : d * (k - base) + base + 1 + i < base + n) :
    Child d base n k (d * (k - base) + base + 1 + i) := by
  refine ⟨by omega, hn, ?_⟩
  have hsub : d * (k - base) + base + 1 + i - base - 1 = i + d * (k - base) := by omega
  rw [parent, hsub, Nat.add_mul_div_left _ _ (Nat.zero_lt_of_lt hi), Nat.div_eq_of_lt hi]
  omega

end Child

end Positions

/-! ## Order -/

section Order

variable {E α : Type*} [LinearOrder α] (d base : ℕ) (key : E → α)

/-- No entry has a key less than that of the entry above it. -/
def Ordered (a : ℕ → E) (n : ℕ) : Prop :=
  ∀ k c, Child d base n k c → key (a k) ≤ key (a c)

/-- Every two entries that the hole at `k` does not touch are in order, and so are those above the
hole and those below it. -/
structure Hole (a : ℕ → E) (n k : ℕ) : Prop where
  off : ∀ p c, Child d base n p c → p ≠ k → c ≠ k → key (a p) ≤ key (a c)
  across : ∀ p c, Child d base n p k → Child d base n k c → key (a p) ≤ key (a c)

variable {d base key} {a : ℕ → E} {n k c p : ℕ} {e : E}

namespace Ordered

/-- Nothing is out of order in an empty heap. -/
theorem zero : Ordered d base key a 0 := by
  rintro k c ⟨hb, hn, -⟩
  omega

/-- A shorter heap is in order too. -/
theorem mono {m : ℕ} (h : Ordered d base key a n) (hm : m ≤ n) : Ordered d base key a m :=
  fun k c hc => h k c (hc.mono hm)

/-- Any entry of an ordered heap may be taken out. -/
theorem hole (h : Ordered d base key a n) (k : ℕ) : Hole d base key a n k where
  off := fun p c hc _ _ => h p c hc
  across := fun p c hp hc => le_trans (h p k hp) (h k c hc)

/-- An ordered heap has room for an entry behind its last. -/
theorem hole_end (h : Ordered d base key a n) : Hole d base key a (n + 1) (base + n) where
  off := by
    rintro p c ⟨hb, hn, hp⟩ - hc
    exact h p c ⟨hb, by omega, hp⟩
  across := by
    rintro p c - hc
    have hlt := hc.lt
    have hn := hc.2.1
    omega

/-- The root has the least key, by induction along the parents. -/
theorem root_le (h : Ordered d base key a n) (hb : base ≤ k) (hn : k < base + n) :
    key (a base) ≤ key (a k) := by
  induction k using Nat.strongRecOn with
  | ind k ih =>
      rcases Nat.eq_or_lt_of_le hb with rfl | hlt
      · exact le_refl _
      · have hp := parent_lt (d := d) hlt
        have hup := ih _ hp base_le_parent (by omega)
        exact le_trans hup (h _ _ (Child.of_parent hlt hn))

end Ordered

namespace Hole

/-- What is in the hole does not matter. -/
theorem update (h : Hole d base key a n k) : Hole d base key (Function.update a k e) n k where
  off := by
    intro p c hc hp hck
    rw [Function.update_of_ne hp, Function.update_of_ne hck]
    exact h.off p c hc hp hck
  across := by
    intro p c hp hc
    rw [Function.update_of_ne (Nat.ne_of_lt hp.lt), Function.update_of_ne (Nat.ne_of_gt hc.lt)]
    exact h.across p c hp hc

/-- An entry between its neighbours closes the hole. -/
theorem fill (h : Hole d base key a n k) (above : ∀ p, Child d base n p k → key (a p) ≤ key e)
    (below : ∀ c, Child d base n k c → key e ≤ key (a c)) :
    Ordered d base key (Function.update a k e) n := by
  intro p c hc
  by_cases hck : c = k
  · subst hck
    rw [Function.update_self, Function.update_of_ne (Nat.ne_of_lt hc.lt)]
    exact above p hc
  · rw [Function.update_of_ne hck]
    by_cases hpk : p = k
    · subst hpk
      rw [Function.update_self]
      exact below c hc
    · rw [Function.update_of_ne hpk]
      exact h.off p c hc hpk hck

/-- The entry above the hole moves into it. -/
theorem up (h : Hole d base key a n k) (hp : Child d base n p k) :
    Hole d base key (Function.update a k (a p)) n p where
  off := by
    intro q c hc hqp hcp
    -- the parent of the old hole is the new one
    have hck : c ≠ k := fun hck => hqp ((hck ▸ hc).unique hp)
    rw [Function.update_of_ne hck]
    by_cases hqk : q = k
    · subst hqk
      rw [Function.update_self]
      exact h.across p c hp hc
    · rw [Function.update_of_ne hqk]
      exact h.off q c hc hqk hck
  across := by
    intro q c hq hc
    have hpk : p ≠ k := Nat.ne_of_lt hp.lt
    have hqk : q ≠ k := Nat.ne_of_lt (Nat.lt_trans hq.lt hp.lt)
    have hqp := h.off q p hq hqk hpk
    rw [Function.update_of_ne hqk]
    by_cases hck : c = k
    · subst hck
      rwa [Function.update_self]
    · rw [Function.update_of_ne hck]
      exact le_trans hqp (h.off p c hc hpk hck)

/-- What fitted above the entries below the hole, and is less than the entry that moves into it,
fits above those below the new hole. -/
theorem up_below (h : Hole d base key a n k) (hp : Child d base n p k) (he : key e ≤ key (a p)) :
    ∀ c, Child d base n p c → key e ≤ key (Function.update a k (a p) c) := by
  intro c hc
  by_cases hck : c = k
  · subst hck
    rwa [Function.update_self]
  · rw [Function.update_of_ne hck]
    exact le_trans he (h.off p c hc (Nat.ne_of_lt hp.lt) hck)

/-- The least of the entries below the hole moves into it. -/
theorem down (h : Hole d base key a n k) (hc : Child d base n k c)
    (hmin : ∀ c', Child d base n k c' → key (a c) ≤ key (a c')) :
    Hole d base key (Function.update a k (a c)) n c where
  off := by
    intro p c' hc' hpc hcc
    by_cases hck : c' = k
    · subst hck
      rw [Function.update_self, Function.update_of_ne (Nat.ne_of_lt hc'.lt)]
      exact h.across p c hc' hc
    · rw [Function.update_of_ne hck]
      by_cases hpk : p = k
      · subst hpk
        rw [Function.update_self]
        exact hmin c' hc'
      · rw [Function.update_of_ne hpk]
        exact h.off p c' hc' hpk hck
  across := by
    intro q c' hq hc'
    obtain rfl := hq.unique hc
    have hck : c ≠ q := Nat.ne_of_gt hc.lt
    have hck' : c' ≠ q := Nat.ne_of_gt (Nat.lt_trans hc.lt hc'.lt)
    rw [Function.update_self, Function.update_of_ne hck']
    exact h.off c c' hc' hck hck'

/-- What moves up is no later than `e`, so `e` may lie below it. -/
theorem down_above (hc : Child d base n k c) (he : key (a c) ≤ key e) :
    ∀ p, Child d base n p c → key (Function.update a k (a c) p) ≤ key e := by
  intro p hp
  obtain rfl := hp.unique hc
  rwa [Function.update_self]

/-- What is no greater than an entry above the hole fits above those below it. -/
theorem below_of_le (h : Hole d base key a n k) (hp : Child d base n p k) (he : key e ≤ key (a p)) :
    ∀ c, Child d base n k c → key e ≤ key (a c) :=
  fun c hc => le_trans he (h.across p c hp hc)

end Hole

end Order

/-! ## Positions that the entries know -/

section Index

variable {E W : Type*} (base : ℕ) (slot : E → W)

/-- The entries belong to the owners of `S`, one each, and an owner has its entry's position. -/
structure Indexed (S : Set W) (a : ℕ → E) (n : ℕ) (pos : W → ℕ) : Prop where
  pos_slot : ∀ i, base ≤ i → i < base + n → slot (a i) ∈ S ∧ pos (slot (a i)) = i
  slot_pos : ∀ w ∈ S, base ≤ pos w ∧ pos w < base + n ∧ slot (a (pos w)) = w

/-- The same around a hole at `k` that waits for the entry of the owner `v`. -/
structure IndexedOff (S : Set W) (a : ℕ → E) (n : ℕ) (pos : W → ℕ) (k : ℕ) (v : W) : Prop where
  hole : base ≤ k ∧ k < base + n
  awaited : v ∈ S
  pos_slot : ∀ i, base ≤ i → i < base + n → i ≠ k →
    slot (a i) ∈ S ∧ slot (a i) ≠ v ∧ pos (slot (a i)) = i
  slot_pos : ∀ w ∈ S, w ≠ v → base ≤ pos w ∧ pos w < base + n ∧ pos w ≠ k ∧ slot (a (pos w)) = w

variable {base slot} {S : Set W} {a : ℕ → E} {n i k : ℕ} {pos : W → ℕ} {v w : W} {e : E}

namespace IndexedOff

/-- What is in the hole does not matter. -/
theorem update (h : IndexedOff base slot S a n pos k v) :
    IndexedOff base slot S (Function.update a k e) n pos k v where
  hole := h.hole
  awaited := h.awaited
  pos_slot := by
    intro i hb hn hik
    rw [Function.update_of_ne hik]
    exact h.pos_slot i hb hn hik
  slot_pos := by
    intro w hS hw
    obtain ⟨hb, hn, hwk, hslot⟩ := h.slot_pos w hS hw
    rw [Function.update_of_ne hwk]
    exact ⟨hb, hn, hwk, hslot⟩

variable [DecidableEq W]

/-- What position the awaited owner has does not matter. -/
theorem update_pos (h : IndexedOff base slot S a n pos k v) :
    IndexedOff base slot S a n (Function.update pos v i) k v where
  hole := h.hole
  awaited := h.awaited
  pos_slot := by
    intro j hb hn hjk
    obtain ⟨hS, hv, hpos⟩ := h.pos_slot j hb hn hjk
    rw [Function.update_of_ne hv]
    exact ⟨hS, hv, hpos⟩
  slot_pos := by
    intro w hS hw
    rw [Function.update_of_ne hw]
    exact h.slot_pos w hS hw

/-- The entry at `i` moves into the hole. -/
theorem move (h : IndexedOff base slot S a n pos k v) (hi : base ≤ i ∧ i < base + n) (hik : i ≠ k) :
    IndexedOff base slot S (Function.update a k (a i)) n (Function.update pos (slot (a i)) k) i
      v where
  hole := hi
  awaited := h.awaited
  pos_slot := by
    intro j hb hn hji
    obtain ⟨hiS, hiv, hposi⟩ := h.pos_slot i hi.1 hi.2 hik
    by_cases hjk : j = k
    · subst hjk
      rw [Function.update_self, Function.update_self]
      exact ⟨hiS, hiv, rfl⟩
    · obtain ⟨hS, hv, hpos⟩ := h.pos_slot j hb hn hjk
      have hne : slot (a j) ≠ slot (a i) := by
        intro heq
        rw [← heq, hpos] at hposi
        exact hji hposi
      rw [Function.update_of_ne hjk, Function.update_of_ne hne]
      exact ⟨hS, hv, hpos⟩
  slot_pos := by
    intro w hS hw
    by_cases hwi : w = slot (a i)
    · subst hwi
      rw [Function.update_self, Function.update_self]
      exact ⟨h.hole.1, h.hole.2, hik.symm, rfl⟩
    · rw [Function.update_of_ne hwi]
      obtain ⟨hb, hn, hwk, hslot⟩ := h.slot_pos w hS hw
      have hpi : pos w ≠ i := fun hpi => hwi (by rw [← hslot, hpi])
      rw [Function.update_of_ne hwk]
      exact ⟨hb, hn, hpi, hslot⟩

/-- The awaited entry fills the hole. -/
theorem fill (h : IndexedOff base slot S a n pos k (slot e)) :
    Indexed base slot S (Function.update a k e) n (Function.update pos (slot e) k) where
  pos_slot := by
    intro j hb hn
    by_cases hjk : j = k
    · subst hjk
      rw [Function.update_self, Function.update_self]
      exact ⟨h.awaited, rfl⟩
    · obtain ⟨hS, hv, hpos⟩ := h.pos_slot j hb hn hjk
      rw [Function.update_of_ne hjk, Function.update_of_ne hv]
      exact ⟨hS, hpos⟩
  slot_pos := by
    intro w hS
    by_cases hw : w = slot e
    · subst hw
      rw [Function.update_self, Function.update_self]
      exact ⟨h.hole.1, h.hole.2, rfl⟩
    · rw [Function.update_of_ne hw]
      obtain ⟨hb, hn, hwk, hslot⟩ := h.slot_pos w hS hw
      rw [Function.update_of_ne hwk]
      exact ⟨hb, hn, hslot⟩

end IndexedOff

namespace Indexed

/-- Two positions hold entries of different owners. -/
theorem slot_inj {j : ℕ} (h : Indexed base slot S a n pos) (hi : base ≤ i ∧ i < base + n)
    (hj : base ≤ j ∧ j < base + n) (heq : slot (a i) = slot (a j)) : i = j := by
  have hposi := (h.pos_slot i hi.1 hi.2).2
  have hposj := (h.pos_slot j hj.1 hj.2).2
  rw [← hposi, ← hposj, heq]

/-- Only the positions of the owners matter. -/
theorem congr_pos {pos' : W → ℕ} (h : Indexed base slot S a n pos)
    (hpos : ∀ w ∈ S, pos' w = pos w) : Indexed base slot S a n pos' where
  pos_slot := by
    intro i hb hn
    obtain ⟨hS, hposi⟩ := h.pos_slot i hb hn
    exact ⟨hS, (hpos _ hS).trans hposi⟩
  slot_pos := by
    intro w hS
    rw [hpos w hS]
    exact h.slot_pos w hS

/-- An entry is taken out, to be put in again. -/
theorem off (h : Indexed base slot S a n pos) (hk : base ≤ k ∧ k < base + n) :
    IndexedOff base slot S a n pos k (slot (a k)) where
  hole := hk
  awaited := (h.pos_slot k hk.1 hk.2).1
  pos_slot := by
    intro i hb hn hik
    obtain ⟨hS, hpos⟩ := h.pos_slot i hb hn
    exact ⟨hS, fun heq => hik (h.slot_inj ⟨hb, hn⟩ hk heq), hpos⟩
  slot_pos := by
    intro w hS hw
    obtain ⟨hb, hn, hslot⟩ := h.slot_pos w hS
    refine ⟨hb, hn, fun hwk => hw ?_, hslot⟩
    rw [← hslot, hwk]

/-- There is room for the entry of a new owner behind the last. -/
theorem off_end (h : Indexed base slot S a n pos) (hv : v ∉ S) :
    IndexedOff base slot (insert v S) a (n + 1) pos (base + n) v where
  hole := by omega
  awaited := Set.mem_insert v S
  pos_slot := by
    intro i hb hn hi
    obtain ⟨hS, hpos⟩ := h.pos_slot i hb (by omega)
    exact ⟨Set.mem_insert_of_mem v hS, fun heq => hv (heq ▸ hS), hpos⟩
  slot_pos := by
    intro w hS hw
    obtain ⟨hb, hn, hslot⟩ := h.slot_pos w (Set.mem_of_mem_insert_of_ne hS hw)
    exact ⟨hb, by omega, by omega, hslot⟩

/-- The last entry leaves. -/
theorem drop_last (h : Indexed base slot S a (n + 1) pos) :
    Indexed base slot (S \ {slot (a (base + n))}) a n pos where
  pos_slot := by
    intro i hb hn
    obtain ⟨hS, hpos⟩ := h.pos_slot i hb (by omega)
    refine ⟨⟨hS, fun heq => ?_⟩, hpos⟩
    have hi := h.slot_inj ⟨hb, by omega⟩ ⟨by omega, by omega⟩ heq
    omega
  slot_pos := by
    rintro w ⟨hS, hw⟩
    obtain ⟨hb, hn, hslot⟩ := h.slot_pos w hS
    refine ⟨hb, ?_, hslot⟩
    have hne : pos w ≠ base + n := fun heq => hw (by rw [Set.mem_singleton_iff, ← hslot, heq])
    omega

/-- The entry at `k` leaves, and its place waits for the last entry. -/
theorem off_drop (h : Indexed base slot S a (n + 1) pos) (hk : base ≤ k ∧ k < base + n) :
    IndexedOff base slot (S \ {slot (a k)}) a n pos k (slot (a (base + n))) where
  hole := hk
  awaited := by
    refine ⟨(h.pos_slot _ (by omega) (by omega)).1, fun heq => ?_⟩
    have hi := h.slot_inj ⟨by omega, by omega⟩ ⟨hk.1, by omega⟩ heq
    omega
  pos_slot := by
    intro i hb hn hik
    obtain ⟨hS, hpos⟩ := h.pos_slot i hb (by omega)
    refine ⟨⟨hS, fun heq => hik ?_⟩, fun heq => ?_, hpos⟩
    · exact h.slot_inj ⟨hb, by omega⟩ ⟨hk.1, by omega⟩ heq
    · have hi := h.slot_inj ⟨hb, by omega⟩ ⟨by omega, by omega⟩ heq
      omega
  slot_pos := by
    rintro w ⟨hS, hwk⟩ hw
    obtain ⟨hb, hn, hslot⟩ := h.slot_pos w hS
    have hne : pos w ≠ base + n := fun heq => hw (by rw [← hslot, heq])
    refine ⟨hb, by omega, fun heq => hwk ?_, hslot⟩
    rw [Set.mem_singleton_iff, ← hslot, heq]

end Indexed

end Index

end DaryHeap
