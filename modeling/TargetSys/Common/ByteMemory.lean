import Mathlib.Data.Nat.ModEq
import Mathlib.Tactic.Common

/-!
# Byte-addressed memory with 64-bit words

A memory gives every 64-bit address a byte. Words are little-endian. A load depends on the bytes it
covers only (`load64_congr`), and returns what was stored (`load64_store64`).
-/

namespace ByteMemory

/-- A byte for every address. -/
abbrev Memory := UInt64 → UInt8

/-- The number that the `n` bytes from `a` on stand for. -/
def loadNat (m : Memory) (a : UInt64) : ℕ → ℕ
  | 0 => 0
  | n + 1 => loadNat m a n + 256 ^ n * (m (a + UInt64.ofNat n)).toNat

/-- The 64-bit word at `a`. -/
def load64 (m : Memory) (a : UInt64) : UInt64 := UInt64.ofNat (loadNat m a 8)

/-- The memory with the word `v` stored at `a`. -/
def store64 (m : Memory) (a v : UInt64) : Memory := fun b =>
  if b - a < 8 then UInt8.ofNat (v.toNat / 256 ^ (b - a).toNat) else m b

variable {m m' : Memory} {a v : UInt64}

/-- A number depends on its own bytes only. -/
theorem loadNat_congr (n : ℕ) (h : ∀ i < n, m (a + UInt64.ofNat i) = m' (a + UInt64.ofNat i)) :
    loadNat m a n = loadNat m' a n := by
  induction n with
  | zero => rfl
  | succ n ih =>
      rw [loadNat, loadNat, ih fun i hi => h i (Nat.lt_succ_of_lt hi), h n (Nat.lt_succ_self n)]

/-- A load depends on the eight bytes it covers only. -/
theorem load64_congr (h : ∀ i < 8, m (a + UInt64.ofNat i) = m' (a + UInt64.ofNat i)) :
    load64 m a = load64 m' a := by
  rw [load64, load64, loadNat_congr 8 h]

/-- A byte of a stored word. -/
theorem store64_apply {i : ℕ} (hi : i < 8) :
    (store64 m a v (a + UInt64.ofNat i)).toNat = v.toNat / 256 ^ i % 256 := by
  have hoff : a + UInt64.ofNat i - a = UInt64.ofNat i := by
    rw [UInt64.add_comm, UInt64.add_sub_cancel]
  have hi' : (UInt64.ofNat i).toNat = i :=
    UInt64.toNat_ofNat_of_lt' (by simp only [UInt64.size]; omega)
  have hlt : UInt64.ofNat i < 8 := by
    rw [UInt64.lt_iff_toNat_lt, hi']
    exact hi
  rw [store64, hoff, if_pos hlt, hi', UInt8.toNat_ofNat']

/-- The lower bytes of a stored word are those of the word. -/
theorem loadNat_store64 {n : ℕ} (hn : n ≤ 8) :
    loadNat (store64 m a v) a n = v.toNat % 256 ^ n := by
  induction n with
  | zero => simp [loadNat, Nat.mod_one]
  | succ n ih => rw [loadNat, ih (by omega), store64_apply (by omega), Nat.mod_pow_succ]

/-- A load returns what was stored. -/
theorem load64_store64 (m : Memory) (a v : UInt64) : load64 (store64 m a v) a = v := by
  have hlt : v.toNat < 256 ^ 8 := v.toNat_lt
  rw [load64, loadNat_store64 le_rfl, Nat.mod_eq_of_lt hlt, UInt64.ofNat_toNat]

end ByteMemory
