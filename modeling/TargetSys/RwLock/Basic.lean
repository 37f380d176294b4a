import Mathlib.Algebra.Group.Int.Defs
import Mathlib.Algebra.Group.Nat.Defs
import Mathlib.Data.Int.Basic
import Mathlib.Tactic.Common
import TargetSys.Common.CondVar

/-!
# `bf_sys_rw_mutex_lock_t` and its locked sections

Reference: `src/bf_sal/linux_usr/bf_sys_sem.c`, `include/target-sys/bf_sal/bf_sys_sem.h`.

Each of the four lock operations tests `valid`, takes the mutex, runs a *locked section* over the
counters and gives the mutex up again, either inside `pthread_cond_wait` or by the final unlock.
The sections are pure functions of the lock structure. How they interleave is the business of
`RwLock.Monitor` (sections atomic) and `RwLock.Deletion` (statement by statement, with `del`).

The counters are C `int`s. The parameter `int` says what an `int` variable holds after it has been
assigned a mathematical value: `int32` wraps at 32 bits, and `id` is an `int` that never overflows.
-/

namespace TargetSys.RwLock

open CondVar

/-! ## Counters -/

/-- A 32-bit `int`, in two's complement. -/
def int32 (n : ℤ) : ℤ := n.bmod (2 ^ 32)

/-- An `int` that holds every value from `0` to `n` exactly, so that it can count `n` threads. -/
def Counts (int : ℤ → ℤ) (n : ℕ) : Prop := ∀ k : ℕ, k ≤ n → int k = k

/-- A 32-bit `int` counts any number of threads below `2 ^ 31`. -/
theorem counts_int32 {n : ℕ} (h : n < 2 ^ 31) : Counts int32 n := by
  intro k hk
  rw [int32, Int.bmod_eq_of_le] <;> omega

/-- `v` is the counter `old` moved by `d`, as a number or as the `int` that is assigned. -/
def Moved (int : ℤ → ℤ) (v old d : ℤ) : Prop := v = old + d ∨ v = int (old + d)

/-- A moved counter that has to hold a count of at most `n` holds it. -/
theorem Moved.eq {int : ℤ → ℤ} {n k : ℕ} {v old d : ℤ} (hint : Counts int n)
    (h : Moved int v old d) (hk : (k : ℤ) = old + d) (hn : k ≤ n) : v = k := by
  rcases h with h | h
  · rw [h, hk]
  · rw [h, ← hk, hint k hn]

/-! ## The lock structure -/

/-- `bf_sys_rw_mutex_lock_t`. The three objects are named by the addresses of their blocks. -/
structure RwMutexLock where
  mutex : ℕ
  read : ℕ
  write : ℕ
  rActive : ℤ
  wActive : ℤ
  rWait : ℤ
  wWait : ℤ
  valid : ℤ
deriving DecidableEq, Repr

/-- The structure a successful `bf_sys_rw_mutex_lock_init` leaves. -/
def RwMutexLock.inited (mutex read write : ℕ) : RwMutexLock where
  mutex := mutex
  read := read
  write := write
  rActive := 0
  wActive := 0
  rWait := 0
  wWait := 0
  valid := 1

/-- `EINVAL`, returned when `valid` is not `1`. -/
def EINVAL : ℤ := 22

/-- `EBUSY`, returned by `del` while the lock is in use. -/
def EBUSY : ℤ := 16

/-- How a locked section of `rdlock` or `wrlock` gives the mutex up: by going to sleep in
`pthread_cond_wait`, or by the final unlock with the value of `status` at that point. -/
inductive Exit
  | wait
  | unlock (status : ℤ)
deriving DecidableEq, Repr

/-- The wake-up call of a locked section of `rdunlock` or `wrunlock`. -/
inductive Wake
  | none
  | signalWrite
  | broadcastRead
deriving DecidableEq, Repr

/-- The four positions of a thread inside the wait loops, as a program's positions spell them. -/
structure WaitPos (β : Type*) where
  rdAsleep : β
  rdWoken : β
  wrAsleep : β
  wrWoken : β

/-- The positions of all threads after a wake-up call. -/
def Wake.Wakes {ι β : Type*} [DecidableEq ι] [DecidableEq β] (W : WaitPos β) :
    Wake → (ι → β) → (ι → β) → Prop
  | .none, pos, pos' => pos' = pos
  | .signalWrite, pos, pos' => Signal W.wrAsleep W.wrWoken pos pos'
  | .broadcastRead, pos, pos' => pos' = broadcast W.rdAsleep W.rdWoken pos

/-- A wake-up call leaves each thread where it is or wakes it. -/
theorem Wake.Wakes.apply {ι β : Type*} [DecidableEq ι] [DecidableEq β] {W : WaitPos β} {w : Wake}
    {pos pos' : ι → β} (h : w.Wakes W pos pos') (u : ι) :
    pos' u = pos u ∨ (pos u = W.wrAsleep ∧ pos' u = W.wrWoken) ∨
      (pos u = W.rdAsleep ∧ pos' u = W.rdWoken) := by
  cases w with
  | none => exact .inl (congrFun h u)
  | signalWrite => exact (Signal.apply h u).imp_right .inl
  | broadcastRead =>
      obtain rfl : pos' = _ := h
      exact (broadcast_apply _ _ pos u).imp_right .inr

section Sections

variable (int : ℤ → ℤ) (l : RwMutexLock)

/-! ## `bf_sys_rw_mutex_lock_rdlock` -/

/-- Behind the wait: `if (status == 0) r_active++`, then the unlock. -/
def rdlockLeave (status : ℤ) : RwMutexLock × Exit :=
  (if status = 0 then { l with rActive := int (l.rActive + 1) } else l, .unlock status)

/-- The test of the `while` loop, with the `status` of the last wait. -/
def rdlockLoop (status : ℤ) : RwMutexLock × Exit :=
  if l.wActive ≠ 0 ∨ l.wWait ≠ 0 then (l, .wait)
  else rdlockLeave int { l with rWait := int (l.rWait - 1) } status

/-- The section a reader runs when its `pthread_cond_wait` has returned `status`. -/
def rdlockWoken (status : ℤ) : RwMutexLock × Exit :=
  if status ≠ 0 then rdlockLeave int { l with rWait := int (l.rWait - 1) } status
  else rdlockLoop int l status

/-- The section a reader runs when it has taken the mutex. -/
def rdlockEnter : RwMutexLock × Exit :=
  if l.wActive ≠ 0 ∨ l.wWait ≠ 0 then rdlockLoop int { l with rWait := int (l.rWait + 1) } 0
  else rdlockLeave int l 0

/-! ## `bf_sys_rw_mutex_lock_wrlock` -/

/-- Behind the wait: `if (status == 0) w_active++`, then the unlock. -/
def wrlockLeave (status : ℤ) : RwMutexLock × Exit :=
  (if status = 0 then { l with wActive := int (l.wActive + 1) } else l, .unlock status)

/-- The test of the `while` loop, with the `status` of the last wait. -/
def wrlockLoop (status : ℤ) : RwMutexLock × Exit :=
  if l.wActive ≠ 0 ∨ l.rActive ≠ 0 then (l, .wait)
  else wrlockLeave int { l with wWait := int (l.wWait - 1) } status

/-- The section a writer runs when its `pthread_cond_wait` has returned `status`. -/
def wrlockWoken (status : ℤ) : RwMutexLock × Exit :=
  if status ≠ 0 then wrlockLeave int { l with wWait := int (l.wWait - 1) } status
  else wrlockLoop int l status

/-- The section a writer runs when it has taken the mutex. -/
def wrlockEnter : RwMutexLock × Exit :=
  if l.wActive ≠ 0 ∨ l.rActive ≠ 0 then wrlockLoop int { l with wWait := int (l.wWait + 1) } 0
  else wrlockLeave int l 0

/-! ## `bf_sys_rw_mutex_lock_rdunlock` and `bf_sys_rw_mutex_lock_wrunlock` -/

/-- The locked section of `rdunlock`. -/
def rdunlockSection : RwMutexLock × Wake :=
  let l := { l with rActive := int (l.rActive - 1) }
  (l, if l.rActive = 0 then if l.wWait > 0 then .signalWrite else .none else .none)

/-- The locked section of `wrunlock`. -/
def wrunlockSection : RwMutexLock × Wake :=
  let l := { l with wActive := 0 }
  (l, if l.wWait > 0 then .signalWrite else if l.rWait > 0 then .broadcastRead else .none)

/-! ## What the sections can do

One equation for each way through a section; nothing below unfolds a section. -/

variable {int l} {status : ℤ}

/-- A reader that finds a writer, active or waiting, counts itself as waiting and sleeps. -/
theorem rdlockEnter_wait (h : l.wActive ≠ 0 ∨ l.wWait ≠ 0) :
    rdlockEnter int l = ({ l with rWait := int (l.rWait + 1) }, .wait) := by
  rw [rdlockEnter, if_pos h, rdlockLoop, if_pos h]

/-- A reader that finds none is granted the lock. -/
theorem rdlockEnter_grant (h : ¬ (l.wActive ≠ 0 ∨ l.wWait ≠ 0)) :
    rdlockEnter int l = ({ l with rActive := int (l.rActive + 1) }, .unlock 0) := by
  rw [rdlockEnter, if_neg h, rdlockLeave, if_pos rfl]

/-- A woken reader that still finds a writer sleeps again, counted as before. -/
theorem rdlockWoken_wait (h : l.wActive ≠ 0 ∨ l.wWait ≠ 0) :
    rdlockWoken int l 0 = (l, .wait) := by
  rw [rdlockWoken, if_neg (by simp), rdlockLoop, if_pos h]

/-- A woken reader that finds none is no longer waiting but active. -/
theorem rdlockWoken_grant (h : ¬ (l.wActive ≠ 0 ∨ l.wWait ≠ 0)) :
    rdlockWoken int l 0 =
      ({ l with rWait := int (l.rWait - 1), rActive := int (l.rActive + 1) }, .unlock 0) := by
  rw [rdlockWoken, if_neg (by simp), rdlockLoop, if_neg h, rdlockLeave, if_pos rfl]

/-- A reader whose wait fails is no longer waiting, and returns the error. -/
theorem rdlockWoken_error (h : status ≠ 0) :
    rdlockWoken int l status = ({ l with rWait := int (l.rWait - 1) }, .unlock status) := by
  rw [rdlockWoken, if_pos h, rdlockLeave, if_neg h]

/-- A writer that finds the lock held counts itself as waiting and sleeps. -/
theorem wrlockEnter_wait (h : l.wActive ≠ 0 ∨ l.rActive ≠ 0) :
    wrlockEnter int l = ({ l with wWait := int (l.wWait + 1) }, .wait) := by
  rw [wrlockEnter, if_pos h, wrlockLoop, if_pos h]

/-- A writer that finds it free is granted the lock. -/
theorem wrlockEnter_grant (h : ¬ (l.wActive ≠ 0 ∨ l.rActive ≠ 0)) :
    wrlockEnter int l = ({ l with wActive := int (l.wActive + 1) }, .unlock 0) := by
  rw [wrlockEnter, if_neg h, wrlockLeave, if_pos rfl]

/-- A woken writer that finds the lock held again sleeps again, counted as before. -/
theorem wrlockWoken_wait (h : l.wActive ≠ 0 ∨ l.rActive ≠ 0) :
    wrlockWoken int l 0 = (l, .wait) := by
  rw [wrlockWoken, if_neg (by simp), wrlockLoop, if_pos h]

/-- A woken writer that finds it free is no longer waiting but active. -/
theorem wrlockWoken_grant (h : ¬ (l.wActive ≠ 0 ∨ l.rActive ≠ 0)) :
    wrlockWoken int l 0 =
      ({ l with wWait := int (l.wWait - 1), wActive := int (l.wActive + 1) }, .unlock 0) := by
  rw [wrlockWoken, if_neg (by simp), wrlockLoop, if_neg h, wrlockLeave, if_pos rfl]

/-- A writer whose wait fails is no longer waiting, and returns the error. -/
theorem wrlockWoken_error (h : status ≠ 0) :
    wrlockWoken int l status = ({ l with wWait := int (l.wWait - 1) }, .unlock status) := by
  rw [wrlockWoken, if_pos h, wrlockLeave, if_neg h]

end Sections

end TargetSys.RwLock
