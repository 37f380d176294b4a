import TargetSys.RwLock.Monitor

/-!
# No lost wake-up in the reader/writer lock

While no wait fails, every unlock that leaves the lock free wakes somebody who can use it.
`Awake` is the invariant: it tells threads asleep on a condition from threads already woken, which
the counters `r_wait` and `w_wait` do not. A woken writer that is overtaken by a barging one goes
back to sleep only while the lock is held, so the next unlock signals again.

## Main results

* `awake_step`: every step whose wait does not fail keeps the invariant.
* `rwMutexLock_no_lost_wakeup`: in every reachable state nobody sleeps who should have been woken.
-/

namespace TargetSys.RwLock

open Transition Counting CondVar

variable {ι : Type*} [Fintype ι] [DecidableEq ι] {int : ℤ → ℤ} {s : State ι} {t : ι}
  {l : RwMutexLock} {a b : Pos}

/-- Nobody sleeps who should have been woken: a free lock with a sleeping writer has another writer
on its way to the loop test, and a reader sleeps only behind a writer. -/
structure Awake (s : State ι) : Prop where
  writer : s.lock.rActive = 0 → s.lock.wActive = 0 → (∃ u, s.pos u = .wrAsleep) →
    ∃ u, s.pos u = .wrWoken
  reader : (∃ u, s.pos u = .rdAsleep) → s.lock.wActive > 0 ∨ s.lock.wWait > 0

omit [Fintype ι] [DecidableEq ι] in
/-- At the start nobody is asleep. -/
theorem awake_initial (mutex read write : ℕ) : Awake (initial ι mutex read write) := by
  constructor <;> simp [initial]

omit [DecidableEq ι] in
/-- A thread that reads is counted. -/
theorem Counted.rActive_pos (h : Counted s) (ht : s.pos t = .reading) : s.lock.rActive > 0 := by
  have hpos : 0 < readers s.pos := count_pos_iff.mpr ⟨t, ht⟩
  rw [h.rActive]
  omega

omit [DecidableEq ι] in
/-- A thread that writes is counted. -/
theorem Counted.wActive_pos (h : Counted s) (ht : s.pos t = .writing) : s.lock.wActive > 0 := by
  have hpos : 0 < writers s.pos := count_pos_iff.mpr ⟨t, ht⟩
  rw [h.wActive]
  omega

omit [DecidableEq ι] in
/-- A reader that sleeps is counted. -/
theorem Counted.rWait_pos (h : Counted s) (ht : s.pos t = .rdAsleep) : s.lock.rWait > 0 := by
  have hpos : 0 < rdWaiters s.pos := count_pos_iff.mpr ⟨t, .inl ht⟩
  rw [h.rWait]
  omega

omit [DecidableEq ι] in
/-- A writer that sleeps is counted. -/
theorem Counted.wWait_pos (h : Counted s) (ht : s.pos t = .wrAsleep) : s.lock.wWait > 0 := by
  have hpos : 0 < wrWaiters s.pos := count_pos_iff.mpr ⟨t, .inl ht⟩
  rw [h.wWait]
  omega

omit [DecidableEq ι] in
/-- A failed test of the readers means a writer is there, as no counter is negative. -/
theorem Counted.writer_of_test (h : Counted s) (hc : s.lock.wActive ≠ 0 ∨ s.lock.wWait ≠ 0) :
    s.lock.wActive > 0 ∨ s.lock.wWait > 0 := by
  have hw := h.wActive
  have hww := h.wWait
  omega

omit [DecidableEq ι] in
/-- A failed test of the writers means somebody holds the lock. -/
theorem Counted.holder_of_test (h : Counted s) (hc : s.lock.wActive ≠ 0 ∨ s.lock.rActive ≠ 0) :
    s.lock.wActive > 0 ∨ s.lock.rActive > 0 := by
  have hw := h.wActive
  have hr := h.rActive
  omega

omit [Fintype ι] in
/-- If the thread does not move to `b`, whoever is at `b` was there before. -/
theorem exists_of_update {pos : ι → Pos} {p : Pos} (hp : p ≠ b)
    (h : ∃ u, Function.update pos t p u = b) : ∃ u, pos u = b := by
  obtain ⟨u, hu⟩ := h
  by_contra hne
  exact hp (update_eq_new hu fun hb => hne ⟨u, hb⟩)

omit [Fintype ι] in
/-- If the thread does not come from `b`, whoever was at `b` is still there. -/
theorem exists_update {pos : ι → Pos} (p : Pos) (ht : pos t ≠ b) (h : ∃ u, pos u = b) :
    ∃ u, Function.update pos t p u = b := by
  obtain ⟨u, hu⟩ := h
  refine ⟨u, ?_⟩
  rw [Function.update_of_ne, hu]
  rintro rfl
  exact ht hu

omit [Fintype ι] in
/-- One thread moves from `a` to `b`. The first condition lists why no sleeping writer is forgotten:
the lock is held, or the thread is itself a woken writer, or the move is none of the writers'
business; the second does the same for sleeping readers. -/
theorem Awake.move (h : Awake s) (ht : s.pos t = a)
    (hw : l.rActive > 0 ∨ l.wActive > 0 ∨ b = .wrWoken ∨
      (a ≠ .wrWoken ∧ b ≠ .wrAsleep ∧ l.rActive = s.lock.rActive ∧ l.wActive = s.lock.wActive))
    (hr : l.wActive > 0 ∨ l.wWait > 0 ∨
      (b ≠ .rdAsleep ∧ l.wActive = s.lock.wActive ∧ l.wWait = s.lock.wWait)) :
    Awake ⟨l, Function.update s.pos t b⟩ := by
  constructor
  · intro hra hwa hsleep
    simp only at hra hwa
    rcases hw with hw | hw | rfl | ⟨ha, hb, hra', hwa'⟩
    · omega
    · omega
    · exact ⟨t, Function.update_self ..⟩
    · refine exists_update b (ht ▸ ha) (h.writer (hra' ▸ hra) (hwa' ▸ hwa) ?_)
      exact exists_of_update hb hsleep
  · intro hsleep
    rcases hr with hr | hr | ⟨hb, hwa, hww⟩
    · exact .inl hr
    · exact .inr hr
    · simp only [hwa, hww]
      exact h.reader (exists_of_update hb hsleep)

omit [Fintype ι] in
/-- A wake-up call sends nobody to sleep. -/
theorem Wake.Wakes.rdAsleep {w : Wake} {pos pos' : ι → Pos} (hw : w.Wakes waitPos pos pos')
    (h : ∃ u, pos' u = .rdAsleep) : ∃ u, pos u = .rdAsleep := by
  obtain ⟨u, hu⟩ := h
  rcases hw.apply u with h | ⟨-, h⟩ | ⟨-, h⟩
  · exact ⟨u, h ▸ hu⟩
  · simp [h, waitPos] at hu
  · simp [h, waitPos] at hu

/-! ## One step -/

/-- The last reader signals a writer if one sleeps. -/
theorem awake_rdunlock (ha : Awake s) {pos' : ι → Pos}
    (hw : (rdunlockSection int s.lock).2.Wakes waitPos (Function.update s.pos t .idle) pos')
    (h' : Counted ⟨(rdunlockSection int s.lock).1, pos'⟩) :
    Awake ⟨(rdunlockSection int s.lock).1, pos'⟩ := by
  refine ⟨fun hr _ hsleep => ?_, fun hsleep => ?_⟩
  · -- the last reader signals, because the sleeper is counted in `w_wait`
    obtain ⟨u, hu⟩ := hsleep
    have hww := h'.wWait_pos hu
    have hsig : (rdunlockSection int s.lock).2 = .signalWrite := by
      simp only [rdunlockSection] at hr hww ⊢
      rw [if_pos hr, if_pos hww]
    rw [hsig] at hw
    exact Signal.exists_woken hw ⟨u, hu⟩
  · exact ha.reader (exists_of_update (by simp) (hw.rdAsleep hsleep))

/-- A writer signals a sleeping writer, and wakes the readers only if there is none. -/
theorem awake_wrunlock {pos' : ι → Pos}
    (hw : (wrunlockSection s.lock).2.Wakes waitPos (Function.update s.pos t .idle) pos')
    (h' : Counted ⟨(wrunlockSection s.lock).1, pos'⟩) :
    Awake ⟨(wrunlockSection s.lock).1, pos'⟩ := by
  refine ⟨fun _ _ hsleep => ?_, fun hsleep => ?_⟩
  · obtain ⟨u, hu⟩ := hsleep
    have hww := h'.wWait_pos hu
    have hsig : (wrunlockSection s.lock).2 = .signalWrite := by
      simp only [wrunlockSection] at hww ⊢
      rw [if_pos hww]
    rw [hsig] at hw
    exact Signal.exists_woken hw ⟨u, hu⟩
  · -- a reader still asleep was not broadcast to, so the signal went to a waiting writer
    obtain ⟨u, hu⟩ := hsleep
    have hrw := h'.rWait_pos hu
    refine .inr (by_contra fun hww => ?_)
    have hbc : (wrunlockSection s.lock).2 = .broadcastRead := by
      simp only [wrunlockSection] at hrw hww ⊢
      rw [if_neg hww, if_pos hrw]
    rw [hbc] at hw
    obtain rfl : pos' = _ := hw
    exact broadcast_ne (by simp [waitPos]) _ u hu

/-- Every step whose wait does not fail wakes whoever has to be woken. -/
theorem awake_step (hint : Counts int (Fintype.card ι)) {e : Action ι} {s' : State ι}
    (h : Counted s) (ha : Awake s) (hs : Step int s e s') (hok : WaitOk s e) : Awake s' := by
  have h' := counted_step hint h hs
  cases hs with
  | rdlock ht _ =>
      by_cases hc : s.lock.wActive ≠ 0 ∨ s.lock.wWait ≠ 0
      · rw [rdlockEnter_wait hc]
        have hwr := h.writer_of_test hc
        exact ha.move ht (by simp) (by tauto)
      · rw [rdlockEnter_grant hc] at h' ⊢
        exact ha.move ht (.inl (h'.rActive_pos (Function.update_self ..))) (by simp)
  | wrlock ht _ =>
      by_cases hc : s.lock.wActive ≠ 0 ∨ s.lock.rActive ≠ 0
      · rw [wrlockEnter_wait hc] at h' ⊢
        have hho := h.holder_of_test hc
        exact ha.move ht (by tauto) (.inr (.inl (h'.wWait_pos (Function.update_self ..))))
      · rw [wrlockEnter_grant hc] at h' ⊢
        have hwa := h'.wActive_pos (Function.update_self ..)
        exact ha.move ht (.inr (.inl hwa)) (.inl hwa)
  | rdunlock _ _ hw => exact awake_rdunlock ha hw h'
  | wrunlock _ _ hw => exact awake_wrunlock hw h'
  | rdSpurious ht => exact ha.move ht (by simp) (by simp)
  | wrSpurious ht => exact ha.move ht (by simp) (by simp)
  | rdResume status ht =>
      obtain rfl : status = 0 := hok
      by_cases hc : s.lock.wActive ≠ 0 ∨ s.lock.wWait ≠ 0
      · rw [rdlockWoken_wait hc]
        have hwr := h.writer_of_test hc
        exact ha.move ht (by simp) (by tauto)
      · rw [rdlockWoken_grant hc] at h' ⊢
        exact ha.move ht (.inl (h'.rActive_pos (Function.update_self ..))) (by simp)
  | wrResume status ht =>
      obtain rfl : status = 0 := hok
      by_cases hc : s.lock.wActive ≠ 0 ∨ s.lock.rActive ≠ 0
      · -- overtaken: back to sleep, but the lock is held and its unlock will signal again
        rw [wrlockWoken_wait hc] at h' ⊢
        have hho := h.holder_of_test hc
        exact ha.move ht (by tauto) (.inr (.inl (h'.wWait_pos (Function.update_self ..))))
      · rw [wrlockWoken_grant hc] at h' ⊢
        have hwa := h'.wActive_pos (Function.update_self ..)
        exact ha.move ht (.inr (.inl hwa)) (.inl hwa)

/-! ## Every run -/

/-- Both invariants hold after every run in which no wait fails. -/
theorem awake_run (hint : Counts int (Fintype.card ι)) {mutex read write : ℕ}
    {es : List (Action ι)}
    (h : Run (Guarded (Step int) WaitOk) (initial ι mutex read write) es s) :
    Counted s ∧ Awake s :=
  h.invariant (I := fun s => Counted s ∧ Awake s)
    (fun _ _ _ hi hs => ⟨counted_step hint hi.1 hs.1, awake_step hint hi.1 hi.2 hs.1 hs.2⟩)
    ⟨counted_initial mutex read write, awake_initial mutex read write⟩

omit [Fintype ι] [DecidableEq ι] in
/-- The woken writer behind a sleeping one is another thread. -/
theorem Awake.exists_woken (ha : Awake s) (hr : s.lock.rActive = 0) (hw : s.lock.wActive = 0)
    {u : ι} (hu : s.pos u = .wrAsleep) : ∃ v, v ≠ u ∧ s.pos v = .wrWoken := by
  obtain ⟨v, hv⟩ := ha.writer hr hw ⟨u, hu⟩
  refine ⟨v, ?_, hv⟩
  rintro rfl
  rw [hu] at hv
  cases hv

omit [DecidableEq ι] in
/-- Once nobody holds the lock and nobody is woken, nobody is asleep. -/
theorem Awake.nobody_asleep (ha : Awake s) (hc : Counted s) :
    ¬((∀ u, s.pos u ≠ .reading ∧ s.pos u ≠ .writing) ∧
      (∀ u, s.pos u ≠ .rdWoken ∧ s.pos u ≠ .wrWoken) ∧
      ∃ u, s.pos u = .rdAsleep ∨ s.pos u = .wrAsleep) := by
  rintro ⟨hhold, hwoken, u, hu⟩
  have hr : s.lock.rActive = 0 := by
    rw [hc.rActive]
    exact Int.natCast_eq_zero.mpr (count_eq_zero_iff.mpr fun v => (hhold v).1)
  have hw : s.lock.wActive = 0 := by
    rw [hc.wActive]
    exact Int.natCast_eq_zero.mpr (count_eq_zero_iff.mpr fun v => (hhold v).2)
  have nowriter : ∀ v, s.pos v ≠ .wrAsleep := fun v hv =>
    let ⟨x, _, hx⟩ := ha.exists_woken hr hw hv
    (hwoken x).2 hx
  rcases hu with hu | hu
  · -- a sleeping reader has a waiting writer, and that one is neither asleep nor woken
    rcases ha.reader ⟨u, hu⟩ with h | h
    · omega
    · rw [hc.wWait] at h
      obtain ⟨v, hv | hv⟩ := count_pos_iff.mp (by simpa [wrWaiters] using h)
      · exact nowriter v hv
      · exact (hwoken v).2 hv
  · exact nowriter u hu

/-- **No lost wake-up.** For any number of threads that an `int` can count, in every state reached
while no wait fails: a writer asleep on a free lock has another writer already woken behind it, a
reader sleeps only while a writer holds the lock or waits for it, and so nobody is asleep once
nobody holds the lock and nobody is woken. -/
theorem rwMutexLock_no_lost_wakeup (hint : Counts int (Fintype.card ι)) {mutex read write : ℕ}
    {es : List (Action ι)}
    (h : Run (Guarded (Step int) WaitOk) (initial ι mutex read write) es s) :
    (s.lock.rActive = 0 → s.lock.wActive = 0 → ∀ u, s.pos u = .wrAsleep →
        ∃ v, v ≠ u ∧ s.pos v = .wrWoken) ∧
      ((∃ u, s.pos u = .rdAsleep) → s.lock.wActive > 0 ∨ s.lock.wWait > 0) ∧
      ¬ ((∀ u, s.pos u ≠ .reading ∧ s.pos u ≠ .writing) ∧
        (∀ u, s.pos u ≠ .rdWoken ∧ s.pos u ≠ .wrWoken) ∧
        ∃ u, s.pos u = .rdAsleep ∨ s.pos u = .wrAsleep) := by
  obtain ⟨hc, ha⟩ := awake_run hint h
  exact ⟨fun hr hw u hu => ha.exists_woken hr hw hu, ha.reader, ha.nobody_asleep hc⟩

/-- Threads 1 and 2 wait to write behind thread 0; its unlock wakes thread 1 and leaves 2 asleep on
a free lock. -/
theorem rwMutexLock_no_lost_wakeup_three :
    ∃ s : State (Fin 3), s.pos 2 = .wrAsleep ∧ s.lock.wActive = 0 ∧
      ∃ v, v ≠ 2 ∧ s.pos v = .wrWoken := by
  have step : ∀ {s : State (Fin 3)} {e s'}, Step int32 s e s' → WaitOk s e →
      Guarded (Step int32) WaitOk s e s' := fun h hok => ⟨h, hok⟩
  have h₀ := Run.single (step (@Step.wrlock _ _ _ (initial (Fin 3) 1 2 3) 0 rfl rfl) trivial)
  have h₁ := h₀.snoc (step (@Step.wrlock _ _ _ _ 1 rfl rfl) trivial)
  have h₂ := h₁.snoc (step (@Step.wrlock _ _ _ _ 2 rfl rfl) trivial)
  have h₃ := h₂.snoc (step (@Step.wrunlock _ _ _ _ 0 _ rfl rfl (@Signal.one _ _ _ _ _ _ 1 rfl))
    trivial)
  have hx := rwMutexLock_no_lost_wakeup (counts_int32 (by decide)) h₃
  exact ⟨_, by decide, by decide, hx.1 (by decide) (by decide) 2 (by decide)⟩

end TargetSys.RwLock
