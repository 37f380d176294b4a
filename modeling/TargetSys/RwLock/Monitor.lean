import TargetSys.Common.Transition
import TargetSys.Common.Counting
import TargetSys.RwLock.Basic

/-!
# The reader/writer lock under every interleaving of its locked sections

The lock is initialised and never deleted, the mutex calls succeed, and a thread unlocks only in
the mode it holds. What lies between taking and leaving the mutex is then one atomic step, so a
state is the lock structure and the position of every thread: outside, holding the lock, asleep in
`pthread_cond_wait`, or woken and not yet back at its loop test. The mutex is free in every state.

A sleeper is woken by a signal, by a broadcast or spuriously, and its wait may return an error.
The code never looks at who calls: a thread that nests several calls is several threads here.

## Main results

* `rwMutexLock_exclusion`: the counters are exact, the holders exclude each other, and no read lock
  is granted while a writer is in its wait loop.
* `counted_step`, `counted_run`: the counters count the threads exactly, after every step and run.
-/

namespace TargetSys.RwLock

open Transition Counting

/-- Where a thread is with respect to the lock. -/
inductive Pos
  | idle
  | reading
  | writing
  | rdAsleep
  | rdWoken
  | wrAsleep
  | wrWoken
deriving DecidableEq, Repr

/-- Inside the wait loop of `rdlock`. -/
def InRdWait (p : Pos) : Prop := p = .rdAsleep ∨ p = .rdWoken

/-- Inside the wait loop of `wrlock`. -/
def InWrWait (p : Pos) : Prop := p = .wrAsleep ∨ p = .wrWoken

instance : DecidablePred InRdWait := fun _ => inferInstanceAs (Decidable (_ ∨ _))

instance : DecidablePred InWrWait := fun _ => inferInstanceAs (Decidable (_ ∨ _))

/-- What a thread at this position contributes to `r_active`. -/
@[simp] def Pos.rActive : Pos → ℤ
  | .reading => 1
  | _ => 0

/-- What a thread at this position contributes to `w_active`. -/
@[simp] def Pos.wActive : Pos → ℤ
  | .writing => 1
  | _ => 0

/-- What a thread at this position contributes to `r_wait`. -/
@[simp] def Pos.rWait : Pos → ℤ
  | .rdAsleep | .rdWoken => 1
  | _ => 0

/-- What a thread at this position contributes to `w_wait`. -/
@[simp] def Pos.wWait : Pos → ℤ
  | .wrAsleep | .wrWoken => 1
  | _ => 0

/-- The lock structure and the position of every thread. -/
structure State (ι : Type*) where
  lock : RwMutexLock
  pos : ι → Pos

/-- One atomic step: the calls, a spurious wake-up, and the return of a woken thread's
`pthread_cond_wait` with a status. -/
inductive Action (ι : Type*)
  | rdlock (t : ι)
  | wrlock (t : ι)
  | rdunlock (t : ι)
  | wrunlock (t : ι)
  | spurious (t : ι)
  | resume (t : ι) (status : ℤ)

/-- Where the exit of a section of `rdlock` leaves its thread. -/
@[simp] def rdPos : Exit → Pos
  | .wait => .rdAsleep
  | .unlock status => if status = 0 then .reading else .idle

/-- Where the exit of a section of `wrlock` leaves its thread. -/
@[simp] def wrPos : Exit → Pos
  | .wait => .wrAsleep
  | .unlock status => if status = 0 then .writing else .idle

/-- The wait loops of `rdlock` and `wrlock` among the positions. -/
def waitPos : WaitPos Pos := ⟨.rdAsleep, .rdWoken, .wrAsleep, .wrWoken⟩

variable {ι : Type*}

section Semantics

variable [DecidableEq ι]

/-- The interleavings of the locked sections of all threads. -/
inductive Step (int : ℤ → ℤ) : State ι → Action ι → State ι → Prop
  | rdlock {s : State ι} {t : ι} : s.pos t = .idle → s.lock.valid = 1 →
      Step int s (.rdlock t)
        ⟨(rdlockEnter int s.lock).1, Function.update s.pos t (rdPos (rdlockEnter int s.lock).2)⟩
  | wrlock {s : State ι} {t : ι} : s.pos t = .idle → s.lock.valid = 1 →
      Step int s (.wrlock t)
        ⟨(wrlockEnter int s.lock).1, Function.update s.pos t (wrPos (wrlockEnter int s.lock).2)⟩
  | rdunlock {s : State ι} {t : ι} {pos' : ι → Pos} : s.pos t = .reading → s.lock.valid = 1 →
      (rdunlockSection int s.lock).2.Wakes waitPos (Function.update s.pos t .idle) pos' →
      Step int s (.rdunlock t) ⟨(rdunlockSection int s.lock).1, pos'⟩
  | wrunlock {s : State ι} {t : ι} {pos' : ι → Pos} : s.pos t = .writing → s.lock.valid = 1 →
      (wrunlockSection s.lock).2.Wakes waitPos (Function.update s.pos t .idle) pos' →
      Step int s (.wrunlock t) ⟨(wrunlockSection s.lock).1, pos'⟩
  | rdSpurious {s : State ι} {t : ι} : s.pos t = .rdAsleep →
      Step int s (.spurious t) ⟨s.lock, Function.update s.pos t .rdWoken⟩
  | wrSpurious {s : State ι} {t : ι} : s.pos t = .wrAsleep →
      Step int s (.spurious t) ⟨s.lock, Function.update s.pos t .wrWoken⟩
  | rdResume {s : State ι} {t : ι} (status : ℤ) : s.pos t = .rdWoken →
      Step int s (.resume t status)
        ⟨(rdlockWoken int s.lock status).1,
          Function.update s.pos t (rdPos (rdlockWoken int s.lock status).2)⟩
  | wrResume {s : State ι} {t : ι} (status : ℤ) : s.pos t = .wrWoken →
      Step int s (.resume t status)
        ⟨(wrlockWoken int s.lock status).1,
          Function.update s.pos t (wrPos (wrlockWoken int s.lock status).2)⟩

end Semantics

/-- An initialised lock that nobody uses yet. -/
def initial (ι : Type*) (mutex read write : ℕ) : State ι :=
  ⟨RwMutexLock.inited mutex read write, fun _ => .idle⟩

/-- No wait fails: the guard under which `pthread_cond_wait` always returns 0. -/
def WaitOk (_ : State ι) : Action ι → Prop
  | .resume _ status => status = 0
  | _ => True

/-! ## Counting the threads -/

section Counts

variable [Fintype ι]

/-- The number of threads holding the read lock. -/
def readers (pos : ι → Pos) : ℕ := count (· = .reading) pos

/-- The number of threads holding the write lock. -/
def writers (pos : ι → Pos) : ℕ := count (· = .writing) pos

/-- The number of threads inside the wait loop of `rdlock`. -/
def rdWaiters (pos : ι → Pos) : ℕ := count InRdWait pos

/-- The number of threads inside the wait loop of `wrlock`. -/
def wrWaiters (pos : ι → Pos) : ℕ := count InWrWait pos

/-- The four tallies after one thread has moved from `a` to `b`. -/
theorem tally_update [DecidableEq ι] {pos : ι → Pos} {t : ι} {a : Pos} (ht : pos t = a) (b : Pos) :
    (readers (Function.update pos t b) : ℤ) = readers pos + (b.rActive - a.rActive) ∧
      (writers (Function.update pos t b) : ℤ) = writers pos + (b.wActive - a.wActive) ∧
      (rdWaiters (Function.update pos t b) : ℤ) = rdWaiters pos + (b.rWait - a.rWait) ∧
      (wrWaiters (Function.update pos t b) : ℤ) = wrWaiters pos + (b.wWait - a.wWait) := by
  have ur := count_update (· = .reading) pos t b
  have uw := count_update (· = .writing) pos t b
  have urw := count_update InRdWait pos t b
  have uww := count_update InWrWait pos t b
  rw [ht] at ur uw urw uww
  have share : ∀ p : Pos,
      ((if p = .reading then 1 else 0 : ℕ) : ℤ) = p.rActive ∧
        ((if p = .writing then 1 else 0 : ℕ) : ℤ) = p.wActive ∧
        ((if InRdWait p then 1 else 0 : ℕ) : ℤ) = p.rWait ∧
        ((if InWrWait p then 1 else 0 : ℕ) : ℤ) = p.wWait := by
    intro p
    cases p <;> simp [InRdWait, InWrWait]
  have ha := share a
  have hb := share b
  simp only [readers, writers, rdWaiters, wrWaiters]
  omega

/-- A wake-up call moves sleepers out of their sleep only, so it changes no tally. -/
theorem tally_woken [DecidableEq ι] {w : Wake} {pos pos' : ι → Pos}
    (h : w.Wakes waitPos pos pos') :
    readers pos' = readers pos ∧ writers pos' = writers pos ∧
      rdWaiters pos' = rdWaiters pos ∧ wrWaiters pos' = wrWaiters pos := by
  refine ⟨count_congr fun u => ?_, count_congr fun u => ?_, count_congr fun u => ?_,
    count_congr fun u => ?_⟩ <;>
  rcases h.apply u with hu | ⟨hu, hu'⟩ | ⟨hu, hu'⟩ <;> simp [*, waitPos, InRdWait, InWrWait]

/-- The tallies never exceed the number of threads. -/
theorem tally_le (pos : ι → Pos) :
    readers pos ≤ Fintype.card ι ∧ writers pos ≤ Fintype.card ι ∧
      rdWaiters pos ≤ Fintype.card ι ∧ wrWaiters pos ≤ Fintype.card ι :=
  ⟨count_le_card _ _, count_le_card _ _, count_le_card _ _, count_le_card _ _⟩

/-! ## Exact counters -/

/-- The counters count the threads, and the holders exclude each other. -/
structure Counted (s : State ι) : Prop where
  valid : s.lock.valid = 1
  rActive : s.lock.rActive = readers s.pos
  wActive : s.lock.wActive = writers s.pos
  rWait : s.lock.rWait = rdWaiters s.pos
  wWait : s.lock.wWait = wrWaiters s.pos
  writer_le : writers s.pos ≤ 1
  exclusive : writers s.pos = 0 ∨ readers s.pos = 0

/-- At the start nobody is counted. -/
theorem counted_initial (mutex read write : ℕ) : Counted (initial ι mutex read write) := by
  constructor <;>
    simp [initial, RwMutexLock.inited, readers, writers, rdWaiters, wrWaiters, count, InRdWait,
      InWrWait]

/-- The readers' test fails exactly when nobody writes and nobody waits to write. -/
theorem Counted.no_writer {s : State ι} (h : Counted s)
    (hc : ¬ (s.lock.wActive ≠ 0 ∨ s.lock.wWait ≠ 0)) :
    writers s.pos = 0 ∧ wrWaiters s.pos = 0 := by
  have hw := h.wActive
  have hww := h.wWait
  omega

/-- The writers' test fails exactly when nobody holds the lock. -/
theorem Counted.no_holder {s : State ι} (h : Counted s)
    (hc : ¬ (s.lock.wActive ≠ 0 ∨ s.lock.rActive ≠ 0)) :
    writers s.pos = 0 ∧ readers s.pos = 0 := by
  have hw := h.wActive
  have hr := h.rActive
  omega

variable [DecidableEq ι] {int : ℤ → ℤ} {s : State ι} {t : ι} {l : RwMutexLock} {a b : Pos}

/-- One thread moves and every counter moves by the thread's contribution: the counters stay exact.
A read lock is granted only without a writer, a write lock only without a holder. -/
theorem Counted.move (h : Counted s) (hint : Counts int (Fintype.card ι)) (ht : s.pos t = a)
    (hv : l.valid = 1) (hr : Moved int l.rActive s.lock.rActive (b.rActive - a.rActive))
    (hw : Moved int l.wActive s.lock.wActive (b.wActive - a.wActive))
    (hrw : Moved int l.rWait s.lock.rWait (b.rWait - a.rWait))
    (hww : Moved int l.wWait s.lock.wWait (b.wWait - a.wWait))
    (hread : b = .reading → writers s.pos = 0)
    (hwrite : b = .writing → writers s.pos = 0 ∧ readers s.pos = 0) :
    Counted ⟨l, Function.update s.pos t b⟩ := by
  obtain ⟨ur, uw, urw, uww⟩ := tally_update ht b
  obtain ⟨br, bw, brw, bww⟩ := tally_le (Function.update s.pos t b)
  have hra := h.rActive
  have hwa := h.wActive
  have h1 := h.writer_le
  have hx := h.exclusive
  refine ⟨hv, hr.eq hint (by rw [hra]; exact ur) br, hw.eq hint (by rw [hwa]; exact uw) bw,
    hrw.eq hint (by rw [h.rWait]; exact urw) brw, hww.eq hint (by rw [h.wWait]; exact uww) bww,
    ?_, ?_⟩
  · cases a <;> cases b <;> simp [Pos.wActive] at uw hwrite ⊢ <;> omega
  · cases a <;> cases b <;> simp [Pos.wActive, Pos.rActive] at uw ur hread hwrite ⊢ <;> omega

/-- A wake-up call keeps the counters exact. -/
theorem Counted.woken {pos pos' : ι → Pos} {w : Wake} (h : Counted ⟨l, pos⟩)
    (hw : w.Wakes waitPos pos pos') : Counted ⟨l, pos'⟩ := by
  obtain ⟨ur, uw, urw, uww⟩ := tally_woken hw
  obtain ⟨hv, hr, hwa, hrw, hww, h1, hx⟩ := h
  exact ⟨hv, hr.trans (by rw [ur]), hwa.trans (by rw [uw]), hrw.trans (by rw [urw]),
    hww.trans (by rw [uww]), by rwa [uw], by rwa [ur, uw]⟩

/-- A reader takes the mutex. -/
theorem counted_rdlock (hint : Counts int (Fintype.card ι)) (h : Counted s) (ht : s.pos t = .idle) :
    Counted ⟨(rdlockEnter int s.lock).1,
      Function.update s.pos t (rdPos (rdlockEnter int s.lock).2)⟩ := by
  by_cases hc : s.lock.wActive ≠ 0 ∨ s.lock.wWait ≠ 0
  · rw [rdlockEnter_wait hc]
    refine h.move hint ht ?_ ?_ ?_ ?_ ?_ ?_ ?_ <;>
      simp [Moved, h.valid]
  · rw [rdlockEnter_grant hc]
    obtain ⟨hw, -⟩ := h.no_writer hc
    refine h.move hint ht ?_ ?_ ?_ ?_ ?_ ?_ ?_ <;>
      simp [Moved, h.valid, hw]

/-- A writer takes the mutex. -/
theorem counted_wrlock (hint : Counts int (Fintype.card ι)) (h : Counted s) (ht : s.pos t = .idle) :
    Counted ⟨(wrlockEnter int s.lock).1,
      Function.update s.pos t (wrPos (wrlockEnter int s.lock).2)⟩ := by
  by_cases hc : s.lock.wActive ≠ 0 ∨ s.lock.rActive ≠ 0
  · rw [wrlockEnter_wait hc]
    refine h.move hint ht ?_ ?_ ?_ ?_ ?_ ?_ ?_ <;>
      simp [Moved, h.valid]
  · rw [wrlockEnter_grant hc]
    obtain ⟨hw, hr⟩ := h.no_holder hc
    refine h.move hint ht ?_ ?_ ?_ ?_ ?_ ?_ ?_ <;>
      simp [Moved, h.valid, hw, hr]

/-- The wait of a reader returns. -/
theorem counted_rdResume (hint : Counts int (Fintype.card ι)) (h : Counted s)
    (ht : s.pos t = .rdWoken) (status : ℤ) :
    Counted ⟨(rdlockWoken int s.lock status).1,
      Function.update s.pos t (rdPos (rdlockWoken int s.lock status).2)⟩ := by
  by_cases hs : status = 0
  · subst hs
    by_cases hc : s.lock.wActive ≠ 0 ∨ s.lock.wWait ≠ 0
    · rw [rdlockWoken_wait hc]
      refine h.move hint ht ?_ ?_ ?_ ?_ ?_ ?_ ?_ <;>
        simp [Moved, h.valid]
    · rw [rdlockWoken_grant hc]
      obtain ⟨hw, -⟩ := h.no_writer hc
      refine h.move hint ht ?_ ?_ ?_ ?_ ?_ ?_ ?_ <;>
        simp [Moved, h.valid, hw, sub_eq_add_neg]
  · rw [rdlockWoken_error hs]
    refine h.move hint ht ?_ ?_ ?_ ?_ ?_ ?_ ?_ <;>
      simp [Moved, hs, h.valid, sub_eq_add_neg]

/-- The wait of a writer returns. -/
theorem counted_wrResume (hint : Counts int (Fintype.card ι)) (h : Counted s)
    (ht : s.pos t = .wrWoken) (status : ℤ) :
    Counted ⟨(wrlockWoken int s.lock status).1,
      Function.update s.pos t (wrPos (wrlockWoken int s.lock status).2)⟩ := by
  by_cases hs : status = 0
  · subst hs
    by_cases hc : s.lock.wActive ≠ 0 ∨ s.lock.rActive ≠ 0
    · rw [wrlockWoken_wait hc]
      refine h.move hint ht ?_ ?_ ?_ ?_ ?_ ?_ ?_ <;>
        simp [Moved, h.valid]
    · rw [wrlockWoken_grant hc]
      obtain ⟨hw, hr⟩ := h.no_holder hc
      refine h.move hint ht ?_ ?_ ?_ ?_ ?_ ?_ ?_ <;>
        simp [Moved, h.valid, hw, hr, sub_eq_add_neg]
  · rw [wrlockWoken_error hs]
    refine h.move hint ht ?_ ?_ ?_ ?_ ?_ ?_ ?_ <;>
      simp [Moved, hs, h.valid, sub_eq_add_neg]

/-- A reader gives the lock back. -/
theorem counted_rdunlock (hint : Counts int (Fintype.card ι)) (h : Counted s)
    (ht : s.pos t = .reading) :
    Counted ⟨(rdunlockSection int s.lock).1, Function.update s.pos t .idle⟩ := by
  rw [rdunlockSection]
  refine h.move hint ht ?_ ?_ ?_ ?_ ?_ ?_ ?_ <;>
    simp [Moved, h.valid, sub_eq_add_neg]

/-- A writer gives the lock back. It is the only one, so `w_active = 0` counts right. -/
theorem counted_wrunlock (hint : Counts int (Fintype.card ι)) (h : Counted s)
    (ht : s.pos t = .writing) :
    Counted ⟨(wrunlockSection s.lock).1, Function.update s.pos t .idle⟩ := by
  -- `w_active = 0` is the decrement, because the caller is the only writer
  have hpos : 0 < writers s.pos := count_pos_iff.mpr ⟨t, ht⟩
  have hone : s.lock.wActive = 1 := by rw [h.wActive]; have := h.writer_le; omega
  rw [wrunlockSection]
  refine h.move hint ht ?_ ?_ ?_ ?_ ?_ ?_ ?_ <;> simp [Moved, h.valid, hone]

/-- Every step keeps the counters exact. -/
theorem counted_step (hint : Counts int (Fintype.card ι)) {e : Action ι} {s' : State ι}
    (h : Counted s) (hs : Step int s e s') : Counted s' := by
  cases hs with
  | rdlock ht _ => exact counted_rdlock hint h ht
  | wrlock ht _ => exact counted_wrlock hint h ht
  | rdunlock ht _ hw => exact (counted_rdunlock hint h ht).woken hw
  | wrunlock ht _ hw => exact (counted_wrunlock hint h ht).woken hw
  | rdSpurious ht => refine h.move hint ht ?_ ?_ ?_ ?_ ?_ ?_ ?_ <;> simp [Moved, h.valid]
  | wrSpurious ht => refine h.move hint ht ?_ ?_ ?_ ?_ ?_ ?_ ?_ <;> simp [Moved, h.valid]
  | rdResume status ht => exact counted_rdResume hint h ht status
  | wrResume status ht => exact counted_wrResume hint h ht status

/-- Every run from an initialised lock keeps the counters exact. -/
theorem counted_run (hint : Counts int (Fintype.card ι)) {mutex read write : ℕ}
    {es : List (Action ι)} (h : Run (Step int) (initial ι mutex read write) es s) : Counted s :=
  h.invariant (fun _ _ _ => counted_step hint) (counted_initial mutex read write)

/-! ## Exclusion -/

omit [Fintype ι] in
/-- A thread found at `b` after an update, and not before, is the one that was moved there. -/
theorem update_eq_new {pos : ι → Pos} {u : ι} {p : Pos} (h : Function.update pos u p t = b)
    (ht : pos t ≠ b) : p = b := by
  by_cases htu : t = u
  · rwa [htu, Function.update_self] at h
  · rw [Function.update_of_ne htu] at h
    exact absurd h ht

omit [Fintype ι] in
/-- A wake-up call makes nobody a holder. -/
theorem Wake.Wakes.reading {w : Wake} {pos pos' : ι → Pos} (h : w.Wakes waitPos pos pos')
    (ht : pos' t = .reading) : pos t = .reading := by
  rcases h.apply t with hu | ⟨-, hu⟩ | ⟨-, hu⟩
  · rwa [← hu]
  · simp [hu, waitPos] at ht
  · simp [hu, waitPos] at ht

/-- A reader is granted the lock at once only if there is no writer, active or waiting. -/
theorem rdlockEnter_reading (h : rdPos (rdlockEnter int l).2 = .reading) :
    ¬ (l.wActive ≠ 0 ∨ l.wWait ≠ 0) := by
  intro hc
  simp [rdlockEnter_wait hc] at h

/-- A reader is granted the lock behind its wait only if there is no writer, active or waiting. -/
theorem rdlockWoken_reading {status : ℤ} (h : rdPos (rdlockWoken int l status).2 = .reading) :
    ¬ (l.wActive ≠ 0 ∨ l.wWait ≠ 0) := by
  intro hc
  by_cases hs : status = 0
  · subst hs
    simp [rdlockWoken_wait hc] at h
  · simp [rdlockWoken_error hs, hs] at h

/-- A writer never ends as a reader. -/
theorem wrPos_ne_reading (x : Exit) : wrPos x ≠ .reading := by
  cases x with
  | wait => simp
  | unlock status => simp only [wrPos]; split <;> simp

/-- The read lock is granted only when no thread is in the writers' wait loop. -/
theorem no_writer_waits_of_grant (h : Counted s) {e : Action ι} {s' : State ι}
    (hs : Step int s e s') (ht : s.pos t ≠ .reading) (ht' : s'.pos t = .reading) :
    ∀ u, ¬ InWrWait (s.pos u) := by
  suffices hw : wrWaiters s.pos = 0 from count_eq_zero_iff.mp hw
  -- only a section of `rdlock` that finds no writer makes its thread a reader
  cases hs with
  | rdlock _ _ => exact (h.no_writer (rdlockEnter_reading (update_eq_new ht' ht))).2
  | rdResume status _ => exact (h.no_writer (rdlockWoken_reading (update_eq_new ht' ht))).2
  | wrlock _ _ => exact absurd (update_eq_new ht' ht) (wrPos_ne_reading _)
  | wrResume status _ => exact absurd (update_eq_new ht' ht) (wrPos_ne_reading _)
  | rdSpurious _ => exact absurd (update_eq_new ht' ht) (by simp)
  | wrSpurious _ => exact absurd (update_eq_new ht' ht) (by simp)
  | rdunlock _ _ hw => exact absurd (update_eq_new (hw.reading ht') ht) (by simp)
  | wrunlock _ _ hw => exact absurd (update_eq_new (hw.reading ht') ht) (by simp)

/-- **Exclusion with exact counters.** In every state reached by fewer than `2 ^ 31` threads the
counters of the lock count the threads exactly, at most one thread writes, nobody reads while
somebody writes, and no step grants a read lock while a thread is in the writers' wait loop. -/
theorem rwMutexLock_exclusion (hn : Fintype.card ι < 2 ^ 31) {mutex read write : ℕ}
    {es : List (Action ι)} (h : Run (Step int32) (initial ι mutex read write) es s) :
    (s.lock.wActive = writers s.pos ∧ writers s.pos ≤ 1) ∧
      s.lock.rActive = readers s.pos ∧
      ¬ (s.lock.wActive > 0 ∧ s.lock.rActive > 0) ∧
      s.lock.rWait = rdWaiters s.pos ∧
      s.lock.wWait = wrWaiters s.pos ∧
      ∀ (e : Action ι) (s' : State ι), Step int32 s e s' → ∀ t, s.pos t ≠ .reading →
        s'.pos t = .reading → ∀ u, ¬ InWrWait (s.pos u) := by
  have hc := counted_run (counts_int32 hn) h
  have hr := hc.rActive
  have hw := hc.wActive
  refine ⟨⟨hw, hc.writer_le⟩, hr, ?_, hc.rWait, hc.wWait, ?_⟩
  · have hx := hc.exclusive
    omega
  · intro e s' hs t ht ht'
    exact no_writer_waits_of_grant hc hs ht ht'

/-- Thread 1 waits to write behind thread 0, which reads. -/
theorem rwMutexLock_exclusion_two :
    ∃ s : State (Fin 2), s.pos 0 = .reading ∧ s.pos 1 = .wrAsleep ∧
      s.lock.rActive = readers s.pos ∧ s.lock.wWait = wrWaiters s.pos := by
  have hrun := (Run.single (@Step.rdlock (Fin 2) _ int32 (initial (Fin 2) 1 2 3) 0 rfl rfl)).snoc
    (@Step.wrlock (Fin 2) _ int32 _ 1 rfl rfl)
  have hx := rwMutexLock_exclusion (by decide) hrun
  exact ⟨_, by decide, by decide, hx.2.1, hx.2.2.2.2.1⟩

end Counts

end TargetSys.RwLock
