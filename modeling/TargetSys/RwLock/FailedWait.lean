import TargetSys.RwLock.Wakeup

/-!
# Failed waits of the reader/writer lock

Reference: `src/bf_sal/linux_usr/bf_sys_sem.c`.

A call whose `pthread_cond_wait` fails takes itself out of its counter and returns the error. A
reader's does no harm. A writer's lowers `w_wait`, which may be what readers are asleep for, or
loses the signal that woke it, and calls nobody in its place. `HarmlessFailure` is the condition
under which there is nobody to call.

## Main results

* `awake_step_iff`: a step strands somebody exactly when it is a harmful failure.
* `rwMutexLock_failed_wait`: nobody is stranded while all failures are harmless, and somebody is by
  the first that is not.
-/

namespace TargetSys.RwLock

open Transition Counting CondVar

variable {ι : Type*} [Fintype ι] [DecidableEq ι] {int : ℤ → ℤ} {s s' : State ι} {t : ι}

/-- A writer `t` that has woken may leave: readers asleep have another writer to wait for, and on a
free lock a sleeping writer has another one on its way. -/
structure HarmlessFailure (s : State ι) (t : ι) : Prop where
  reader : (∃ u, s.pos u = .rdAsleep) → s.lock.wActive > 0 ∨ s.lock.wWait > 1
  writer : s.lock.rActive = 0 → s.lock.wActive = 0 → (∃ u, s.pos u = .wrAsleep) →
    ∃ v, v ≠ t ∧ s.pos v = .wrWoken

/-- The guard under which the failed waits of writers are harmless. -/
def FailureOk (s : State ι) : Action ι → Prop
  | .resume t status => status ≠ 0 → s.pos t = .wrWoken → HarmlessFailure s t
  | _ => True

omit [Fintype ι] [DecidableEq ι] in
/-- A wait that does not fail meets the condition. -/
theorem WaitOk.failureOk {e : Action ι} (h : WaitOk s e) : FailureOk s e := by
  cases e with
  | resume t status => exact fun hne => absurd h hne
  | _ => trivial

/-! ## One step -/

omit [Fintype ι] in
/-- A reader that leaves with an error is missed by nobody. -/
theorem awake_rdError (ha : Awake s) {status : ℤ} (ht : s.pos t = .rdWoken) (hs : status ≠ 0) :
    Awake ⟨(rdlockWoken int s.lock status).1,
      Function.update s.pos t (rdPos (rdlockWoken int s.lock status).2)⟩ := by
  rw [rdlockWoken_error hs, rdPos, if_neg hs]
  exact ha.move ht (by simp) (by simp)

omit [Fintype ι] in
/-- Who is where after a woken writer has left. -/
theorem exists_update_idle {b : Pos} (ht : s.pos t = .wrWoken) (hb : b ≠ .idle) :
    (∃ u, Function.update s.pos t .idle u = b) ↔ ∃ v, v ≠ t ∧ s.pos v = b := by
  constructor
  · rintro ⟨u, hu⟩
    have hut : u ≠ t := by
      rintro rfl
      rw [Function.update_self] at hu
      exact hb hu.symm
    exact ⟨u, hut, by rwa [Function.update_of_ne hut] at hu⟩
  · rintro ⟨v, hvt, hv⟩
    exact ⟨v, by rwa [Function.update_of_ne hvt]⟩

omit [Fintype ι] [DecidableEq ι] in
/-- A woken thread makes no difference to who is elsewhere. -/
theorem exists_ne_iff {b : Pos} (ht : s.pos t = .wrWoken) (hb : b ≠ .wrWoken) :
    (∃ v, v ≠ t ∧ s.pos v = b) ↔ ∃ u, s.pos u = b := by
  refine ⟨fun ⟨v, _, hv⟩ => ⟨v, hv⟩, fun ⟨u, hu⟩ => ⟨u, ?_, hu⟩⟩
  rintro rfl
  exact hb (hu.symm.trans ht)

/-- A writer that leaves with an error strands nobody exactly when its failure is harmless. -/
theorem awake_wrError_iff (hint : Counts int (Fintype.card ι)) (h : Counted s) {status : ℤ}
    (ht : s.pos t = .wrWoken) (hs : status ≠ 0) :
    Awake ⟨(wrlockWoken int s.lock status).1,
      Function.update s.pos t (wrPos (wrlockWoken int s.lock status).2)⟩ ↔
      HarmlessFailure s t := by
  have h' := counted_wrResume hint h ht status
  rw [wrlockWoken_error hs, wrPos, if_neg hs] at h' ⊢
  -- `w_wait` has lost one
  have hww : int (s.lock.wWait - 1) = s.lock.wWait - 1 := by
    have htally := (tally_update ht .idle).2.2.2
    have hnew := h'.wWait
    rw [htally, ← h.wWait] at hnew
    simpa [sub_eq_add_neg] using hnew
  have hwriter := exists_update_idle ht (b := .wrAsleep) (by simp)
  have hreader := exists_update_idle ht (b := .rdAsleep) (by simp)
  rw [exists_ne_iff ht (by simp)] at hwriter hreader
  -- nobody signals on this way out, so the sleepers are the same before and after
  constructor
  · rintro ⟨hw, hr⟩
    constructor
    · intro hsleep
      have := hr (hreader.mpr hsleep)
      simp only [hww] at this
      omega
    · intro hra hwa hsleep
      exact (exists_update_idle ht (by simp)).mp (hw hra hwa (hwriter.mpr hsleep))
  · rintro ⟨hr, hw⟩
    constructor
    · intro hra hwa hsleep
      exact (exists_update_idle ht (by simp)).mpr (hw hra hwa (hwriter.mp hsleep))
    · intro hsleep
      have := hr (hreader.mp hsleep)
      simp only [hww]
      omega

/-- A step strands somebody exactly when it is a failure that is not harmless. -/
theorem awake_step_iff (hint : Counts int (Fintype.card ι)) {e : Action ι} (h : Counted s)
    (ha : Awake s) (hs : Step int s e s') : Awake s' ↔ FailureOk s e := by
  by_cases hok : WaitOk s e
  · exact iff_of_true (awake_step hint h ha hs hok) hok.failureOk
  cases hs with
  | rdResume status ht =>
      refine iff_of_true (awake_rdError ha ht hok) fun _ hwr => ?_
      rw [ht] at hwr
      cases hwr
  | wrResume status ht =>
      exact (awake_wrError_iff hint h ht hok).trans ⟨fun hf _ _ => hf, fun hf => hf hok ht⟩
  | rdlock | wrlock | rdunlock | wrunlock | rdSpurious | wrSpurious => exact absurd trivial hok

omit [Fintype ι] in
/-- A call whose wait has failed is over. -/
theorem pos_of_error {status : ℤ} (hs : Step int s (.resume t status) s') (hne : status ≠ 0) :
    s'.pos t = .idle := by
  cases hs with
  | rdResume _ ht =>
      refine (Function.update_self ..).trans ?_
      rw [rdlockWoken_error hne, rdPos, if_neg hne]
  | wrResume _ ht =>
      refine (Function.update_self ..).trans ?_
      rw [wrlockWoken_error hne, wrPos, if_neg hne]

/-! ## Every run -/

/-- Both invariants hold after every run in which the failures are of the harmless kind. -/
theorem awake_run_of_failureOk (hint : Counts int (Fintype.card ι)) {mutex read write : ℕ}
    {es : List (Action ι)}
    (h : Run (Guarded (Step int) FailureOk) (initial ι mutex read write) es s) :
    Counted s ∧ Awake s :=
  h.invariant (I := fun s => Counted s ∧ Awake s)
    (fun _ _ _ hi hs => ⟨counted_step hint hi.1 hs.1,
      (awake_step_iff hint hi.1 hi.2 hs.1).mpr hs.2⟩)
    ⟨counted_initial mutex read write, awake_initial mutex read write⟩

/-- **Failed waits.** For any number of threads that an `int` can count, in every state reached
while the failed waits of writers are harmless: a reader sleeps only while a writer holds the lock
or waits for it, a writer asleep on a free lock has another one already woken, and nobody is asleep
once nobody holds the lock and nobody is woken. A call whose wait fails is over, and the four
counters count the other threads. Of the next steps, exactly those that meet the condition strand
nobody. -/
theorem rwMutexLock_failed_wait (hint : Counts int (Fintype.card ι)) {mutex read write : ℕ}
    {es : List (Action ι)}
    (h : Run (Guarded (Step int) FailureOk) (initial ι mutex read write) es s) :
    ((∃ u, s.pos u = .rdAsleep) → s.lock.wActive > 0 ∨ s.lock.wWait > 0) ∧
      (s.lock.rActive = 0 → s.lock.wActive = 0 → ∀ u, s.pos u = .wrAsleep →
        ∃ v, v ≠ u ∧ s.pos v = .wrWoken) ∧
      ¬((∀ u, s.pos u ≠ .reading ∧ s.pos u ≠ .writing) ∧
        (∀ u, s.pos u ≠ .rdWoken ∧ s.pos u ≠ .wrWoken) ∧
        ∃ u, s.pos u = .rdAsleep ∨ s.pos u = .wrAsleep) ∧
      (∀ t status s', status ≠ 0 → Step int s (.resume t status) s' →
        s'.pos t = .idle ∧ Counted s') ∧
      ∀ e s', Step int s e s' → (Awake s' ↔ FailureOk s e) := by
  obtain ⟨hc, ha⟩ := awake_run_of_failureOk hint h
  exact ⟨ha.reader, fun hr hw u hu => ha.exists_woken hr hw hu, ha.nobody_asleep hc,
    fun t status s' hne hs => ⟨pos_of_error hs hne, counted_step hint hc hs⟩,
    fun e s' hs => awake_step_iff hint hc ha hs⟩

/-- The wait of thread 1, which wants to write, fails behind thread 0, which reads. -/
theorem rwMutexLock_failed_wait_two :
    ∃ s : State (Fin 2), s.pos 0 = .reading ∧ s.pos 1 = .wrWoken ∧
      ∃ s', Step int32 s (.resume 1 22) s' ∧ s'.pos 1 = .idle ∧ Counted s' := by
  have step : ∀ {s : State (Fin 2)} {e s'}, Step int32 s e s' → WaitOk s e →
      Guarded (Step int32) FailureOk s e s' := fun h hok => ⟨h, hok.failureOk⟩
  have h₀ := Run.single (step (@Step.rdlock _ _ _ (initial (Fin 2) 1 2 3) 0 rfl rfl) trivial)
  have h₁ := h₀.snoc (step (@Step.wrlock _ _ _ _ 1 rfl rfl) trivial)
  have h₂ := h₁.snoc (step (@Step.wrSpurious _ _ _ _ 1 rfl) trivial)
  have hx := rwMutexLock_failed_wait (counts_int32 (by decide)) h₂
  exact ⟨_, by decide, by decide, _, .wrResume 22 (by decide),
    hx.2.2.2.1 1 22 _ (by decide) (.wrResume 22 (by decide))⟩

/-- Thread 0 reads, thread 1 waits to write, thread 2 waits to read behind it, and the wait of
thread 1 fails. The unlock of thread 0 then wakes nobody. -/
theorem rwMutexLock_failed_wait_strands :
    ∃ es s, Run (Step int32) (initial (Fin 3) 1 2 3) es s ∧ s.pos 0 = .idle ∧ s.pos 1 = .idle ∧
      s.pos 2 = .rdAsleep ∧ ¬(s.lock.wActive > 0 ∨ s.lock.wWait > 0) := by
  have h₀ := Run.single (@Step.rdlock _ _ int32 (initial (Fin 3) 1 2 3) 0 rfl rfl)
  have h₁ := h₀.snoc (@Step.wrlock _ _ _ _ 1 rfl rfl)
  have h₂ := h₁.snoc (@Step.rdlock _ _ _ _ 2 rfl rfl)
  have h₃ := h₂.snoc (@Step.wrSpurious _ _ _ _ 1 rfl)
  have h₄ := h₃.snoc (@Step.wrResume _ _ _ _ 1 22 rfl)
  have h₅ := h₄.snoc (@Step.rdunlock _ _ _ _ 0 _ rfl rfl rfl)
  exact ⟨_, _, h₅, by decide, by decide, by decide, by decide⟩

end TargetSys.RwLock
