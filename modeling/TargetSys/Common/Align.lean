import Mathlib.Algebra.Order.Group.Nat
import Mathlib.Data.Nat.Bitwise
import Mathlib.Order.Bounds.Defs
import Mathlib.Tactic.Common

/-!
# Alignment and tiles

`roundUp n a` is the least multiple of `a` that is at least `n`. On 32-bit words with a power of two
`a`, masking with `a - 1` takes the remainder and masking with its complement drops it.

Tiles of size `s` are laid side by side from `h` on, over pages of size `P`. `InPage P start len`
says that a block lies inside one page, and `forall_inPage_iff` says when all of `n` tiles do.

## Main results

* `roundUp_le_of_dvd`: `roundUp` is least.
* `toNat_and_pred`, `toNat_and_not_pred`: the two masks.
* `forall_inPage_iff`: tiles that reach beyond the first page straddle no boundary exactly when the
  first boundary lies between two of them and so does every later one.
-/

namespace Align

/-! ## Rounding up -/

/-- The least multiple of `a` that is at least `n`. -/
def roundUp (n a : ℕ) : ℕ := (n + a - 1) / a * a

/-- The rounded number is aligned. -/
theorem dvd_roundUp (n a : ℕ) : a ∣ roundUp n a := Nat.dvd_mul_left ..

variable {n a m : ℕ}

/-- Rounding up never makes a number less. -/
theorem le_roundUp (ha : 0 < a) : n ≤ roundUp n a := by
  have h := Nat.lt_div_mul_add ha (a := n + a - 1)
  rw [roundUp]
  omega

/-- `roundUp` is the least multiple of `a` above `n`. -/
theorem roundUp_le_of_dvd (ha : 0 < a) (hm : a ∣ m) (hnm : n ≤ m) : roundUp n a ≤ m := by
  obtain ⟨k, rfl⟩ := hm
  rw [roundUp, Nat.mul_comm a k]
  refine Nat.mul_le_mul_right a ?_
  rw [← Nat.lt_succ_iff, Nat.div_lt_iff_lt_mul ha, Nat.succ_mul]
  rw [Nat.mul_comm] at hnm
  omega

/-- What `roundUp` is for: the least aligned number that is not below `n`. -/
theorem isLeast_roundUp (ha : 0 < a) : IsLeast {m | a ∣ m ∧ n ≤ m} (roundUp n a) :=
  ⟨⟨dvd_roundUp n a, le_roundUp ha⟩, fun _ hm => roundUp_le_of_dvd ha hm.1 hm.2⟩

/-- An aligned number stays as it is. -/
theorem roundUp_of_dvd (ha : 0 < a) (hn : a ∣ n) : roundUp n a = n :=
  Nat.le_antisymm (roundUp_le_of_dvd ha hn le_rfl) (le_roundUp ha)

/-- Rounding up adds what is missing to the next multiple. -/
theorem roundUp_of_not_dvd (ha : 0 < a) (hn : ¬ a ∣ n) : roundUp n a = (n + a) / a * a := by
  have hmod : n % a ≠ 0 := fun h => hn (Nat.dvd_of_mod_eq_zero h)
  have hdiv := Nat.div_add_mod n a
  have hlt := Nat.mod_lt n ha
  rw [roundUp]
  congr 1
  rw [Nat.add_div_right n ha]
  refine Nat.div_eq_of_lt_le ?_ ?_
  · rw [Nat.succ_mul, Nat.mul_comm]
    omega
  · rw [Nat.succ_mul, Nat.succ_mul, Nat.mul_comm]
    omega

/-! ## Masks of a power of two -/

section Masks

/-- Clearing the low `k` bits of a number below `2 ^ w`. -/
theorem and_two_pow_sub_two_pow {w k x : ℕ} (hk : k ≤ w) (hx : x < 2 ^ w) :
    x &&& (2 ^ w - 2 ^ k) = x / 2 ^ k * 2 ^ k := by
  have hpow : 2 ^ w - 2 ^ k = 2 ^ w - (2 ^ k - 1 + 1) := by
    rw [Nat.sub_add_cancel Nat.one_le_two_pow]
  have hlt : 2 ^ k - 1 < 2 ^ w :=
    Nat.lt_of_lt_of_le (Nat.sub_one_lt (Nat.two_pow_pos k).ne') (Nat.pow_le_pow_right (by simp) hk)
  refine Nat.eq_of_testBit_eq fun i => ?_
  rw [Nat.testBit_and, hpow, Nat.testBit_two_pow_sub_succ hlt, Nat.testBit_two_pow_sub_one,
    Nat.testBit_mul_two_pow, Nat.testBit_div_two_pow]
  by_cases hi : i < k
  · simp [hi]
  · by_cases hw : i < w
    · simp [hi, hw, Nat.sub_add_cancel (Nat.not_lt.mp hi), Nat.not_lt.mp hi]
    · have hbit : x.testBit i = false := Nat.testBit_lt_two_pow
        (Nat.lt_of_lt_of_le hx (Nat.pow_le_pow_right (by simp) (Nat.not_lt.mp hw)))
      simp [hbit, Nat.sub_add_cancel (Nat.not_lt.mp hi)]

variable {x a : UInt32} {k : ℕ}

/-- The mask of a power of two does not wrap. -/
theorem toNat_pred (ha : a.toNat = 2 ^ k) : (a - 1).toNat = 2 ^ k - 1 := by
  have hle : (1 : UInt32) ≤ a := by
    rw [UInt32.le_iff_toNat_le, ha]
    exact Nat.one_le_two_pow
  rw [UInt32.toNat_sub_of_le _ _ hle, ha]
  rfl

/-- `x & (a - 1)` is the remainder. -/
theorem toNat_and_pred (ha : a.toNat = 2 ^ k) : (x &&& (a - 1)).toNat = x.toNat % a.toNat := by
  rw [UInt32.toNat_and, toNat_pred ha, Nat.and_two_pow_sub_one_eq_mod, ha]

/-- `x & ~(a - 1)` drops it. -/
theorem toNat_and_not_pred (ha : a.toNat = 2 ^ k) :
    (x &&& ~~~(a - 1)).toNat = x.toNat / a.toNat * a.toNat := by
  have hk : k < 32 := by
    have h := a.toNat_lt
    rw [ha] at h
    exact (Nat.pow_lt_pow_iff_right (by simp)).mp h
  have hnot : (~~~(a - 1)).toNat = 2 ^ 32 - 2 ^ k := by
    rw [UInt32.toNat_not, toNat_pred ha]
    have := Nat.one_le_two_pow (n := k)
    have h := a.toNat_lt
    simp only [UInt32.size]
    omega
  rw [UInt32.toNat_and, hnot, ha, and_two_pow_sub_two_pow hk.le x.toNat_lt]

end Masks

/-! ## Tiles and pages -/

/-- The block of length `len` at `start` lies inside one page of size `P`. -/
def InPage (P start len : ℕ) : Prop := ∃ k, k * P ≤ start ∧ start + len ≤ (k + 1) * P

/-- A block lies inside a page exactly when what follows its offset in the page is enough. -/
theorem inPage_iff {P start len : ℕ} : InPage P start len ↔ start % P + len ≤ P := by
  have hdiv := Nat.div_add_mod' start P
  constructor
  · rintro ⟨k, hk, hend⟩
    rw [Nat.succ_mul] at hend
    rcases Nat.lt_or_ge start (k * P + P) with hlt | hge
    · have hquot : start / P = k := Nat.div_eq_of_lt_le hk (by rwa [Nat.succ_mul])
      rw [hquot] at hdiv
      omega
    · have hstart : start = (k + 1) * P := by
        rw [Nat.succ_mul]
        omega
      rw [hstart, Nat.mul_mod_left]
      omega
  · intro h
    refine ⟨start / P, Nat.div_mul_le_self .., ?_⟩
    rw [Nat.succ_mul]
    omega

/-- Whole pages in front do not matter. -/
theorem inPage_add_left {P b start len : ℕ} (hb : P ∣ b) :
    InPage P (b + start) len ↔ InPage P start len := by
  obtain ⟨k, rfl⟩ := hb
  rw [inPage_iff, inPage_iff, Nat.mul_add_mod]

section Tiles

variable {P s h n : ℕ}

/-- A tile inside a page does not straddle a page boundary: a boundary in it is its start. -/
theorem eq_of_inPage {start len b : ℕ} (hin : InPage P start len) (hle : start ≤ b * P)
    (hlt : b * P < start + len) : start = b * P := by
  obtain ⟨k, hk, hk'⟩ := hin
  have hP : 0 < P := Nat.pos_of_ne_zero fun h0 => by simp [h0] at hk' hlt; omega
  have h1 : k ≤ b := Nat.le_of_mul_le_mul_right (hk.trans hle) hP
  have h2 : b < k + 1 := Nat.lt_of_mul_lt_mul_right (hlt.trans_le hk')
  obtain rfl : k = b := by omega
  exact Nat.le_antisymm hle hk

/-- If no tile straddles the boundary `b * P` within the tiled area, it lies between two tiles. -/
theorem dvd_of_forall_inPage (hs : 0 < s) (hall : ∀ i < n, InPage P (h + i * s) s) {b : ℕ}
    (hle : h ≤ b * P) (hlt : b * P < h + n * s) : s ∣ b * P - h := by
  -- the tile that the boundary falls into
  have hdiv := Nat.div_mul_le_self (b * P - h) s
  have hdiv' := Nat.lt_div_mul_add hs (a := b * P - h)
  have hi : (b * P - h) / s < n := by
    rw [Nat.div_lt_iff_lt_mul hs]
    omega
  have heq := eq_of_inPage (hall _ hi) (b := b) (by omega) (by omega)
  exact Dvd.intro_left ((b * P - h) / s) (by omega)

/-- Multiples of `s` that begin before a common multiple end by it. -/
theorem inPage_of_dvd (hP : 0 < P) (hsP : s ∣ P) {start : ℕ} (hstart : s ∣ start) :
    InPage P start s := by
  refine ⟨start / P, Nat.div_mul_le_self .., ?_⟩
  have hlt : start < (start / P + 1) * P := by
    rw [Nat.succ_mul]
    exact Nat.lt_div_mul_add hP
  obtain ⟨x, rfl⟩ := hstart
  obtain ⟨y, hy⟩ : s ∣ (s * x / P + 1) * P := hsP.mul_left _
  rw [hy] at hlt ⊢
  have hxy : x < y := Nat.lt_of_mul_lt_mul_left hlt
  calc s * x + s = s * (x + 1) := (Nat.mul_succ ..).symm
    _ ≤ s * y := Nat.mul_le_mul_left s hxy

/-- **Tiles that reach beyond the first page.** They straddle no boundary exactly when the first
boundary lies between two tiles, and the pages are whole numbers of tiles or there is no second
boundary among them. -/
theorem forall_inPage_iff (hs : 0 < s) (hPpos : 0 < P) (hP : h ≤ P) (hlt : P < h + n * s) :
    (∀ i < n, InPage P (h + i * s) s) ↔ s ∣ P - h ∧ (s ∣ P ∨ h + n * s ≤ 2 * P) := by
  constructor
  · intro hall
    have hfirst : s ∣ P - h := by
      simpa using dvd_of_forall_inPage hs hall (b := 1) (by simpa using hP) (by simpa using hlt)
    refine ⟨hfirst, ?_⟩
    by_contra hno
    rw [not_or, Nat.not_le] at hno
    have hsecond := dvd_of_forall_inPage hs hall (b := 2) (by omega) hno.2
    refine hno.1 ?_
    rw [show P = 2 * P - h - (P - h) by omega]
    exact Nat.dvd_sub hsecond hfirst
  · rintro ⟨⟨m, hm⟩, hor⟩ i hi
    rcases hor with hsP | hle
    · refine inPage_of_dvd hPpos hsP ?_
      have hsh : s ∣ h := by
        rw [show h = P - (P - h) by omega]
        exact Nat.dvd_sub hsP ⟨m, hm⟩
      exact Nat.dvd_add hsh (Nat.dvd_mul_left ..)
    · -- before the boundary the first page, behind it the second
      rcases Nat.lt_or_ge i m with him | him
      · refine ⟨0, by simp, ?_⟩
        have : (i + 1) * s ≤ s * m := by
          rw [Nat.mul_comm]
          exact Nat.mul_le_mul_left s him
        rw [Nat.succ_mul] at this
        omega
      · refine ⟨1, ?_, ?_⟩
        · have : s * m ≤ i * s := by
            rw [Nat.mul_comm i]
            exact Nat.mul_le_mul_left s him
          omega
        · have : (i + 1) * s ≤ n * s := Nat.mul_le_mul_right s hi
          rw [Nat.succ_mul] at this
          omega

end Tiles

end Align
