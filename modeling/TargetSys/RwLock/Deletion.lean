import TargetSys.Common.Transition
import TargetSys.Common.Counting
import TargetSys.RwLock.Basic

/-!
# Deleting a reader/writer lock while others call it

Here the operations interleave statement by statement: the test of `valid`, `pthread_mutex_lock`,
the locked section, `pthread_mutex_unlock`, the return, and in `bf_sys_rw_mutex_lock_del` also each
destroy and free behind the unlock. The heap says which of the three objects are live. Unlocks need
no discipline: any thread may call any operation. A later `bf_sys_rw_mutex_lock_init` starts anew,
so a run ends where one is called.

`valid` is tested before the mutex is taken and never again behind it. A caller between the two is
counted nowhere, so `del` does not see it, and it goes on to lock a mutex that is gone. `Quiet`
says that there is no such caller when `del` sets `valid` to 0.

## Main results

* `rwMutexLockDel_safe`: in runs whose deletions are quiet nobody touches a dead object, and after
  a successful deletion no lock is granted; every deletion that is not quiet can go wrong.
* `rwMutexLockDel_use_after_free`: the shortest way to go wrong.
-/

namespace TargetSys.RwLock.Deletion

open Transition Counting

/-- What the heap holds at the address of a block. -/
inductive Cell
  | free
  | raw
  | mutex
  | cond
deriving DecidableEq, Repr

/-- The operations on an initialised lock. -/
inductive Op
  | rdlock
  | wrlock
  | rdunlock
  | wrunlock
  | del
deriving DecidableEq, Repr

/-- The two operations that wait. -/
inductive Mode
  | rd
  | wr
deriving DecidableEq, Repr

def Mode.op : Mode → Op
  | .rd => .rdlock
  | .wr => .wrlock

/-- The condition variable the mode waits on. -/
def Mode.cond (l : RwMutexLock) : Mode → ℕ
  | .rd => l.read
  | .wr => l.write

/-- The locked section of the mode's operation. -/
def Mode.enter (int : ℤ → ℤ) (l : RwMutexLock) : Mode → RwMutexLock × Exit
  | .rd => rdlockEnter int l
  | .wr => wrlockEnter int l

/-- The locked section of the mode's operation behind a wait that returned `status`. -/
def Mode.resume (int : ℤ → ℤ) (l : RwMutexLock) (status : ℤ) : Mode → RwMutexLock × Exit
  | .rd => rdlockWoken int l status
  | .wr => wrlockWoken int l status

/-- The statements of `del` behind the one that sets `valid` to 0. -/
inductive DelPc
  | unlock
  | destroyMutex
  | freeMutex
  | destroyRead
  | freeRead
  | destroyWrite
  | freeWrite
deriving DecidableEq, Repr

/-- The statement a thread is about to execute. `deleting` carries the three statuses of `del`. -/
inductive Pc
  | idle
  | tested (op : Op)
  | locked (op : Op)
  | asleep (m : Mode)
  | woken (m : Mode)
  | resumed (m : Mode) (status : ℤ)
  | unlocking (op : Op) (status : ℤ)
  | deleting (k : DelPc) (status status1 status2 : ℤ)
  | returning (op : Op) (status : ℤ)
deriving DecidableEq, Repr

/-- The lock structure, the owner of its mutex, the heap, and the statement of every thread. -/
structure State (ι : Type*) where
  lock : RwMutexLock
  owner : Option ι
  heap : ℕ → Cell
  pc : ι → Pc

/-- What a step does to the outside: it enters a call, uses live objects, sets `valid` to 0, frees a
block or returns from a call. -/
inductive Event (ι : Type*)
  | call (t : ι) (op : Op)
  | uses (t : ι) (objs : List (ℕ × Cell))
  | commit (t : ι)
  | free (t : ι) (p : ℕ)
  | ret (t : ι) (op : Op) (status : ℤ)
deriving DecidableEq

/-- The objects that a step locks, unlocks, waits on, signals or destroys, with their kinds. -/
def Event.objs {ι : Type*} : Event ι → List (ℕ × Cell)
  | .uses _ objs => objs
  | _ => []

/-- Where the exit of a locked section leaves its thread. -/
def Mode.pc (m : Mode) : Exit → Pc
  | .wait => .asleep m
  | .unlock status => .unlocking m.op status

/-- A thread that goes to sleep gives the mutex up, one that leaves keeps it until its unlock. -/
def exitOwner {ι : Type*} (t : ι) : Exit → Option ι
  | .wait => none
  | .unlock _ => some t

/-- The objects that going to sleep uses. -/
def Mode.waitObjs (m : Mode) (l : RwMutexLock) : Exit → List (ℕ × Cell)
  | .wait => [(m.cond l, .cond), (l.mutex, .mutex)]
  | .unlock _ => []

/-- The object that a wake-up call uses. -/
def wakeObjs (l : RwMutexLock) : Wake → List (ℕ × Cell)
  | .none => []
  | .signalWrite => [(l.write, .cond)]
  | .broadcastRead => [(l.read, .cond)]

/-- The wait loops of `rdlock` and `wrlock` among the statements. -/
def waitPc : WaitPos Pc := ⟨.asleep .rd, .woken .rd, .asleep .wr, .woken .wr⟩

/-- The test under which `del` answers `EBUSY`. -/
def delBusy (l : RwMutexLock) : Prop :=
  (l.rActive > 0 ∨ l.wActive > 0) ∨ (l.rWait > 0 ∨ l.wWait > 0)

instance (l : RwMutexLock) : Decidable (delBusy l) := inferInstanceAs (Decidable (_ ∨ _))

/-- The value `del` returns. -/
def delStatus (status status1 status2 : ℤ) : ℤ :=
  if status ≠ 0 then status else if status1 ≠ 0 then status1 else status2

section Semantics

variable {ι : Type*} [DecidableEq ι]

/-- The state with thread `t` at statement `p`. -/
def State.goto (s : State ι) (t : ι) (p : Pc) : State ι := { s with pc := Function.update s.pc t p }

/-- The state with the cell at address `p` changed. -/
def State.setCell (s : State ι) (p : ℕ) (c : Cell) : State ι :=
  { s with heap := Function.update s.heap p c }

/-- One statement of one thread. The status a wait or a destroy returns is arbitrary; a destroy
ends the object's life whatever it returns, since `del` frees the block next. -/
inductive Step (int : ℤ → ℤ) : State ι → Event ι → State ι → Prop
  | call {s : State ι} {t : ι} (op : Op) : s.pc t = .idle →
      Step int s (.call t op)
        (s.goto t (if s.lock.valid ≠ 1 then .returning op EINVAL else .tested op))
  | lock {s : State ι} {t : ι} {op : Op} : s.pc t = .tested op → s.owner = none →
      Step int s (.uses t [(s.lock.mutex, .mutex)])
        { s.goto t (.locked op) with owner := some t }
  | enter {s : State ι} {t : ι} {m : Mode} : s.pc t = .locked m.op →
      Step int s (.uses t (m.waitObjs s.lock (m.enter int s.lock).2))
        { s.goto t (m.pc (m.enter int s.lock).2) with
          lock := (m.enter int s.lock).1
          owner := exitOwner t (m.enter int s.lock).2 }
  | spurious {s : State ι} {t : ι} {m : Mode} : s.pc t = .asleep m →
      Step int s (.uses t []) (s.goto t (.woken m))
  | relock {s : State ι} {t : ι} {m : Mode} (status : ℤ) : s.pc t = .woken m → s.owner = none →
      Step int s (.uses t [(s.lock.mutex, .mutex)])
        { s.goto t (.resumed m status) with owner := some t }
  | resume {s : State ι} {t : ι} {m : Mode} {status : ℤ} : s.pc t = .resumed m status →
      Step int s (.uses t (m.waitObjs s.lock (m.resume int s.lock status).2))
        { s.goto t (m.pc (m.resume int s.lock status).2) with
          lock := (m.resume int s.lock status).1
          owner := exitOwner t (m.resume int s.lock status).2 }
  | rdunlock {s : State ι} {t : ι} {pc' : ι → Pc} : s.pc t = .locked .rdunlock →
      (rdunlockSection int s.lock).2.Wakes waitPc
        (Function.update s.pc t (.unlocking .rdunlock 0)) pc' →
      Step int s (.uses t (wakeObjs s.lock (rdunlockSection int s.lock).2))
        { s with lock := (rdunlockSection int s.lock).1, pc := pc' }
  | wrunlock {s : State ι} {t : ι} {pc' : ι → Pc} : s.pc t = .locked .wrunlock →
      (wrunlockSection s.lock).2.Wakes waitPc
        (Function.update s.pc t (.unlocking .wrunlock 0)) pc' →
      Step int s (.uses t (wakeObjs s.lock (wrunlockSection s.lock).2))
        { s with lock := (wrunlockSection s.lock).1, pc := pc' }
  | unlock {s : State ι} {t : ι} {op : Op} {status : ℤ} : s.pc t = .unlocking op status →
      Step int s (.uses t [(s.lock.mutex, .mutex)])
        { s.goto t (.returning op status) with owner := none }
  | delBusy {s : State ι} {t : ι} : s.pc t = .locked .del → delBusy s.lock →
      Step int s (.uses t []) (s.goto t (.unlocking .del EBUSY))
  | delCommit {s : State ι} {t : ι} : s.pc t = .locked .del → ¬ Deletion.delBusy s.lock →
      Step int s (.commit t)
        { s.goto t (.deleting .unlock 0 0 0) with lock := { s.lock with valid := 0 } }
  | delUnlock {s : State ι} {t : ι} {a b c : ℤ} : s.pc t = .deleting .unlock a b c →
      Step int s (.uses t [(s.lock.mutex, .mutex)])
        { s.goto t (.deleting .destroyMutex a b c) with owner := none }
  | destroyMutex {s : State ι} {t : ι} {a b c : ℤ} (status : ℤ) :
      s.pc t = .deleting .destroyMutex a b c →
      Step int s (.uses t [(s.lock.mutex, .mutex)])
        ((s.goto t (.deleting .freeMutex status b c)).setCell s.lock.mutex .raw)
  | freeMutex {s : State ι} {t : ι} {a b c : ℤ} : s.pc t = .deleting .freeMutex a b c →
      Step int s (.free t s.lock.mutex)
        ((s.goto t (.deleting .destroyRead a b c)).setCell s.lock.mutex .free)
  | destroyRead {s : State ι} {t : ι} {a b c : ℤ} (status : ℤ) :
      s.pc t = .deleting .destroyRead a b c →
      Step int s (.uses t [(s.lock.read, .cond)])
        ((s.goto t (.deleting .freeRead a status c)).setCell s.lock.read .raw)
  | freeRead {s : State ι} {t : ι} {a b c : ℤ} : s.pc t = .deleting .freeRead a b c →
      Step int s (.free t s.lock.read)
        ((s.goto t (.deleting .destroyWrite a b c)).setCell s.lock.read .free)
  | destroyWrite {s : State ι} {t : ι} {a b c : ℤ} (status : ℤ) :
      s.pc t = .deleting .destroyWrite a b c →
      Step int s (.uses t [(s.lock.write, .cond)])
        ((s.goto t (.deleting .freeWrite a b status)).setCell s.lock.write .raw)
  | freeWrite {s : State ι} {t : ι} {a b c : ℤ} : s.pc t = .deleting .freeWrite a b c →
      Step int s (.free t s.lock.write)
        ((s.goto t (.returning .del (delStatus a b c))).setCell s.lock.write .free)
  | ret {s : State ι} {t : ι} {op : Op} {status : ℤ} : s.pc t = .returning op status →
      Step int s (.ret t op status) (s.goto t .idle)

end Semantics

/-- The heap of an initialised lock. -/
def initHeap (mutex read write : ℕ) (p : ℕ) : Cell :=
  if p = mutex then .mutex else if p = read ∨ p = write then .cond else .free

/-- An initialised lock that nobody uses yet. -/
def initial (ι : Type*) (mutex read write : ℕ) : State ι :=
  ⟨RwMutexLock.inited mutex read write, none, initHeap mutex read write, fun _ => .idle⟩

/-- When `del` sets `valid` to 0, nobody else is between the test of `valid` and the mutex, and
nobody is still on the way out of a granted lock. -/
def Quiet {ι : Type*} (s : State ι) : Event ι → Prop
  | .commit t => ∀ u, u ≠ t →
      (∀ op, s.pc u ≠ .tested op) ∧ ∀ m : Mode, s.pc u ≠ .returning m.op 0
  | _ => True

/-! ## The lock before its deletion -/

/-- What a thread at this statement contributes to the wait counter of a mode. -/
@[simp] def Pc.waitShare (m : Mode) : Pc → ℤ
  | .asleep m' | .woken m' | .resumed m' _ => if m' = m then 1 else 0
  | _ => 0

/-- The thread holds the mutex. -/
@[simp] def Pc.Holds : Pc → Prop
  | .locked _ | .resumed _ _ | .unlocking _ _ | .deleting .unlock _ _ _ => True
  | _ => False

/-- The thread has set `valid` to 0, or is on its way out of a `del` that returns 0. -/
@[simp] def Pc.Deleted : Pc → Prop
  | .deleting _ _ _ _ => True
  | .unlocking .del status | .returning .del status => status = 0
  | _ => False

/-- The wait counter of a mode. -/
@[simp] def Mode.waitCount (l : RwMutexLock) : Mode → ℤ
  | .rd => l.rWait
  | .wr => l.wWait

/-- Two lock structures name the same objects and agree on `valid`. -/
def SameObjs (l l' : RwMutexLock) : Prop :=
  l'.mutex = l.mutex ∧ l'.read = l.read ∧ l'.write = l.write ∧ l'.valid = l.valid

/-- A mode waits on the same condition variable as before. -/
theorem SameObjs.cond {l l' : RwMutexLock} (h : SameObjs l l') (m : Mode) :
    m.cond l' = m.cond l := by
  obtain ⟨-, hr, hw, -⟩ := h
  cases m <;> assumption

/-- Entering a locked section moves the wait counters by what its thread then contributes. -/
theorem Mode.enter_spec (int : ℤ → ℤ) (m : Mode) (l : RwMutexLock) :
    SameObjs l (m.enter int l).1 ∧
      ∀ m' : Mode, Moved int (m'.waitCount (m.enter int l).1) (m'.waitCount l)
        ((m.pc (m.enter int l).2).waitShare m') := by
  cases m with
  | rd =>
      by_cases hc : l.wActive ≠ 0 ∨ l.wWait ≠ 0
      · simp only [Mode.enter, rdlockEnter_wait hc]
        exact ⟨⟨rfl, rfl, rfl, rfl⟩, fun m' => by cases m' <;> simp [Moved, Mode.pc]⟩
      · simp only [Mode.enter, rdlockEnter_grant hc]
        exact ⟨⟨rfl, rfl, rfl, rfl⟩, fun m' => by cases m' <;> simp [Moved, Mode.pc]⟩
  | wr =>
      by_cases hc : l.wActive ≠ 0 ∨ l.rActive ≠ 0
      · simp only [Mode.enter, wrlockEnter_wait hc]
        exact ⟨⟨rfl, rfl, rfl, rfl⟩, fun m' => by cases m' <;> simp [Moved, Mode.pc]⟩
      · simp only [Mode.enter, wrlockEnter_grant hc]
        exact ⟨⟨rfl, rfl, rfl, rfl⟩, fun m' => by cases m' <;> simp [Moved, Mode.pc]⟩

/-- The same for a section behind a wait, whose thread was counted while it waited. -/
theorem Mode.resume_spec (int : ℤ → ℤ) (m : Mode) (l : RwMutexLock) (status : ℤ) :
    SameObjs l (m.resume int l status).1 ∧
      ∀ m' : Mode, Moved int (m'.waitCount (m.resume int l status).1) (m'.waitCount l)
        ((m.pc (m.resume int l status).2).waitShare m' - (Pc.resumed m status).waitShare m') := by
  -- the only return of a wait that may lead back to sleep is one without an error
  by_cases hs : status = 0
  · subst hs
    cases m with
    | rd =>
        by_cases hc : l.wActive ≠ 0 ∨ l.wWait ≠ 0
        · simp only [Mode.resume, rdlockWoken_wait hc]
          exact ⟨⟨rfl, rfl, rfl, rfl⟩, fun m' => by cases m' <;> simp [Moved, Mode.pc]⟩
        · simp only [Mode.resume, rdlockWoken_grant hc]
          refine ⟨⟨rfl, rfl, rfl, rfl⟩, fun m' => ?_⟩
          cases m' <;> simp [Moved, Mode.pc, sub_eq_add_neg]
    | wr =>
        by_cases hc : l.wActive ≠ 0 ∨ l.rActive ≠ 0
        · simp only [Mode.resume, wrlockWoken_wait hc]
          exact ⟨⟨rfl, rfl, rfl, rfl⟩, fun m' => by cases m' <;> simp [Moved, Mode.pc]⟩
        · simp only [Mode.resume, wrlockWoken_grant hc]
          refine ⟨⟨rfl, rfl, rfl, rfl⟩, fun m' => ?_⟩
          cases m' <;> simp [Moved, Mode.pc, sub_eq_add_neg]
  · cases m with
    | rd =>
        simp only [Mode.resume, rdlockWoken_error hs]
        refine ⟨⟨rfl, rfl, rfl, rfl⟩, fun m' => ?_⟩
        cases m' <;> simp [Moved, Mode.pc, sub_eq_add_neg]
    | wr =>
        simp only [Mode.resume, wrlockWoken_error hs]
        refine ⟨⟨rfl, rfl, rfl, rfl⟩, fun m' => ?_⟩
        cases m' <;> simp [Moved, Mode.pc, sub_eq_add_neg]

section Open

variable {ι : Type*} [Fintype ι]

/-- The number of threads inside the wait loop of a mode. -/
def waiters (m : Mode) (pc : ι → Pc) : ℕ := count (fun p => p.waitShare m = 1) pc

/-- An initialised lock whose deletion has not begun. The wait counters are exact, which is what
lets `del` see every waiter; nothing is said of `r_active` and `w_active`. -/
structure Open (s : State ι) : Prop where
  valid : s.lock.valid = 1
  mutex_live : s.heap s.lock.mutex = .mutex
  cond_live : ∀ m : Mode, s.heap (m.cond s.lock) = .cond
  distinct : [s.lock.mutex, s.lock.read, s.lock.write].Nodup
  owner : ∀ t, (s.pc t).Holds → s.owner = some t
  waits : ∀ m : Mode, m.waitCount s.lock = waiters m s.pc
  not_deleted : ∀ t, ¬ (s.pc t).Deleted

/-- A lock that was just made is open. -/
theorem open_initial {mutex read write : ℕ} (hd : [mutex, read, write].Nodup) :
    Open (initial ι mutex read write) := by
  have hw : ∀ m : Mode, waiters m (fun _ : ι => Pc.idle) = 0 := fun m =>
    count_eq_zero_iff.mpr fun _ => by simp
  simp only [List.nodup_cons, List.mem_cons, List.not_mem_nil, or_false, not_or] at hd
  refine ⟨rfl, ?_, ?_, ?_, ?_, ?_, ?_⟩
  · simp [initial, initHeap, RwMutexLock.inited]
  · intro m
    have h1 := hd.1.1
    have h2 := hd.1.2
    cases m <;> simp [initial, initHeap, RwMutexLock.inited, Mode.cond, Ne.symm h1, Ne.symm h2]
  · simpa [initial, RwMutexLock.inited] using hd
  · simp [initial]
  · intro m
    cases m <;> simp [initial, RwMutexLock.inited, hw]
  · simp [initial]

variable [DecidableEq ι] {int : ℤ → ℤ} {s s' : State ι} {t : ι} {a b : Pc}

/-- The waiters of a mode after one thread has moved from `a` to `b`. -/
theorem waiters_update (m : Mode) {pc : ι → Pc} (ht : pc t = a) (b : Pc) :
    (waiters m (Function.update pc t b) : ℤ) = waiters m pc + (b.waitShare m - a.waitShare m) := by
  have hu := count_update (fun p => Pc.waitShare m p = 1) pc t b
  rw [ht] at hu
  have share : ∀ p : Pc, ((if p.waitShare m = 1 then 1 else 0 : ℕ) : ℤ) = p.waitShare m := by
    intro p
    cases p <;> simp [apply_ite]
  have ha := share a
  have hb := share b
  simp only [waiters]
  omega

/-- One thread moves from `a` to `b`, and the lock changes only in its counters. -/
theorem Open.move (h : Open s) (hint : Counts int (Fintype.card ι)) (ht : s.pc t = a)
    {l : RwMutexLock} {o : Option ι} (hl : SameObjs s.lock l)
    (ho : (b.Holds → o = some t) ∧ (s.owner = none ∨ a.Holds ∨ o = s.owner))
    (hw : ∀ m : Mode, Moved int (m.waitCount l) (m.waitCount s.lock)
      (b.waitShare m - a.waitShare m))
    (hb : ¬ b.Deleted) :
    Open ⟨l, o, s.heap, Function.update s.pc t b⟩ := by
  refine ⟨?_, ?_, ?_, ?_, ?_, ?_, ?_⟩
  · exact hl.2.2.2.trans h.valid
  · simpa only [hl.1] using h.mutex_live
  · intro m
    simpa only [hl.cond m] using h.cond_live m
  · simpa only [hl.1, hl.2.1, hl.2.2.1] using h.distinct
  · -- whoever held the mutex before is `t` itself, or nobody
    intro u hu
    simp only at hu
    by_cases hut : u = t
    · subst hut
      rw [Function.update_self] at hu
      exact ho.1 hu
    · rw [Function.update_of_ne hut] at hu
      have hown := h.owner u hu
      rcases ho.2 with hn | ha | heq
      · rw [hn] at hown
        cases hown
      · have := h.owner t (ht ▸ ha)
        rw [hown] at this
        exact absurd (Option.some.inj this) hut
      · simp only [heq, hown]
  · -- the `int` counts as many waiters as there are now
    intro m
    have hu := waiters_update m ht b
    exact (hw m).eq hint (by rw [h.waits m]; exact hu) (count_le_card _ _)
  · intro u
    simp only
    by_cases hut : u = t
    · subst hut
      rwa [Function.update_self]
    · rw [Function.update_of_ne hut]
      exact h.not_deleted u

/-- One thread moves from `a` to `b` and leaves the lock alone. -/
theorem Open.goto (h : Open s) (hint : Counts int (Fintype.card ι)) (ht : s.pc t = a) (b : Pc)
    {o : Option ι} (ho : (b.Holds → o = some t) ∧ (s.owner = none ∨ a.Holds ∨ o = s.owner))
    (hw : ∀ m : Mode, b.waitShare m = a.waitShare m) (hb : ¬ b.Deleted) :
    Open { s.goto t b with owner := o } :=
  h.move hint ht ⟨rfl, rfl, rfl, rfl⟩ ho (fun m => .inl (by rw [hw m, sub_self, add_zero]; rfl)) hb

/-- A wake-up call moves sleepers out of their sleep only. -/
theorem Open.wakes {w : Wake} {pc' : ι → Pc} (h : Open s) (hw : w.Wakes waitPc s.pc pc') :
    Open { s with pc := pc' } := by
  have hcase : ∀ u, pc' u = s.pc u ∨ ∃ m, s.pc u = .asleep m ∧ pc' u = .woken m := by
    intro u
    rcases hw.apply u with hu | hu | hu
    · exact .inl hu
    · exact .inr ⟨.wr, hu⟩
    · exact .inr ⟨.rd, hu⟩
  refine ⟨h.valid, h.mutex_live, h.cond_live, h.distinct, ?_, ?_, ?_⟩
  · intro u hu
    rcases hcase u with hc | ⟨m, -, hc⟩
    · exact h.owner u (by simpa only [hc] using hu)
    · simp [hc] at hu
  · intro m
    have heq : waiters m pc' = waiters m s.pc := count_congr fun u => by
      rcases hcase u with hc | ⟨m', hc, hc'⟩
      · rw [hc]
      · rw [hc, hc']
        simp
    rw [h.waits m, heq]
  · intro u
    rcases hcase u with hc | ⟨m, -, hc⟩
    · simpa only [hc] using h.not_deleted u
    · simp [hc]

end Open

/-! ## The lock after its deletion -/

section Closed

variable {ι : Type*} [DecidableEq ι] {int : ℤ → ℤ} {s s' : State ι} {t : ι}

/-- The objects that are still live at a statement of `del`. -/
def DelPc.live (l : RwMutexLock) : DelPc → List (ℕ × Cell)
  | .unlock | .destroyMutex => [(l.mutex, .mutex), (l.read, .cond), (l.write, .cond)]
  | .freeMutex | .destroyRead => [(l.read, .cond), (l.write, .cond)]
  | .freeRead | .destroyWrite => [(l.write, .cond)]
  | .freeWrite => []

/-- A thread that uses the lock no more: outside, or on its way out of a call that grants nothing. -/
def Pc.Gone (p : Pc) : Prop :=
  p = .idle ∨ ∃ op status, p = .returning op status ∧ ∀ m : Mode, op = m.op → status ≠ 0

/-- A lock deleted by thread `d`: everybody else is gone, and while `d` is still at work the objects
it has yet to destroy are live. -/
structure Closed (d : ι) (s : State ι) : Prop where
  valid : s.lock.valid ≠ 1
  distinct : [s.lock.mutex, s.lock.read, s.lock.write].Nodup
  gone : ∀ t, t ≠ d → (s.pc t).Gone
  deleter : (s.pc d).Gone ∨ ∃ k a b c, s.pc d = .deleting k a b c ∧
    ∀ o ∈ k.live s.lock, s.heap o.1 = o.2

/-- The deleter moves on. -/
theorem Closed.move {d : ι} (h : Closed d s) {o : Option ι} {heap : ℕ → Cell} {p : Pc}
    (hp : p.Gone ∨ ∃ k a b c, p = .deleting k a b c ∧ ∀ o ∈ k.live s.lock, heap o.1 = o.2) :
    Closed d ⟨s.lock, o, heap, Function.update s.pc d p⟩ := by
  refine ⟨h.valid, h.distinct, fun u hu => ?_, ?_⟩
  · simpa only [Function.update_of_ne hu] using h.gone u hu
  · simpa only [Function.update_self] using hp

/-- Destroying or freeing one object of a deleted lock keeps the others alive. -/
theorem live_update {heap : ℕ → Cell} {p : ℕ} {c : Cell}
    {objs objs' : List (ℕ × Cell)} (h : ∀ o ∈ objs, heap o.1 = o.2)
    (hsub : ∀ o ∈ objs', o ∈ objs ∧ o.1 ≠ p) :
    ∀ o ∈ objs', Function.update heap p c o.1 = o.2 := by
  intro o ho
  obtain ⟨hmem, hne⟩ := hsub o ho
  rw [Function.update_of_ne hne]
  exact h o hmem

/-- Where a thread of a deleted lock can be. -/
theorem Closed.pc_cases {d : ι} (h : Closed d s) (t : ι) :
    s.pc t = .idle ∨
      (∃ op status, s.pc t = .returning op status ∧ ∀ m : Mode, op = m.op → status ≠ 0) ∨
      (t = d ∧ ∃ k a b c, s.pc t = .deleting k a b c ∧ ∀ o ∈ k.live s.lock, s.heap o.1 = o.2) := by
  by_cases htd : t = d
  · subst htd
    rcases h.deleter with (hg | hg) | hdel
    · exact .inl hg
    · exact .inr (.inl hg)
    · exact .inr (.inr ⟨rfl, hdel⟩)
  · rcases h.gone t htd with hg | hg
    · exact .inl hg
    · exact .inr (.inl hg)

/-- Only the deleter is among the last statements of `del`. -/
theorem Closed.of_deleting {d : ι} (h : Closed d s) {k : DelPc} {a b c : ℤ}
    (ht : s.pc t = .deleting k a b c) : t = d ∧ ∀ o ∈ k.live s.lock, s.heap o.1 = o.2 := by
  rcases h.pc_cases t with h0 | ⟨_, _, h0, -⟩ | ⟨htd, _, _, _, _, h0, hl⟩ <;>
    rw [ht] at h0 <;> cases h0
  exact ⟨htd, hl⟩

/-- A thread that leaves the lock alone keeps it deleted. -/
theorem Closed.goto_gone {d : ι} (h : Closed d s) {p : Pc} (hp : p.Gone) :
    Closed d (s.goto t p) := by
  refine ⟨h.valid, h.distinct, fun u hu => ?_, ?_⟩
  · by_cases hut : u = t
    · subst hut
      simpa only [State.goto, Function.update_self] using hp
    · simpa only [State.goto, Function.update_of_ne hut] using h.gone u hu
  · by_cases hdt : d = t
    · subst hdt
      simpa only [State.goto, Function.update_self] using .inl hp
    · simpa only [State.goto, Function.update_of_ne hdt] using h.deleter

/-- A deleted lock stays deleted, and whoever still uses an object finds it live. -/
theorem closed_step {d : ι} {e : Event ι} (h : Closed d s) (hs : Step int s e s') :
    Closed d s' ∧ (∀ o ∈ e.objs, s.heap o.1 = o.2) ∧
      ∀ (u : ι) (m : Mode), e ≠ .ret u m.op 0 := by
  have hd := h.distinct
  simp only [List.nodup_cons, List.mem_cons, List.not_mem_nil, or_false, not_or] at hd
  obtain ⟨⟨hmr, hmw⟩, hrw, -⟩ := hd
  cases hs with
  | @call t op ht =>
      refine ⟨h.goto_gone ?_, by simp [Event.objs], by simp⟩
      rw [if_pos h.valid]
      exact .inr ⟨op, EINVAL, rfl, fun _ _ => by simp [EINVAL]⟩
  | @ret t op status ht =>
      -- a lock call that is still to return has an error to return
      refine ⟨h.goto_gone (.inl rfl), by simp [Event.objs], ?_⟩
      rcases h.pc_cases t with h0 | ⟨op', status', h0, hg⟩ | ⟨-, k, a, b, c, h0, -⟩ <;>
        rw [ht] at h0 <;> cases h0
      intro u m he
      cases he
      exact hg m rfl rfl
  | @delUnlock t a b c ht =>
      -- from here on, `d` goes through the rest of `del`, and each object is live until it is freed
      obtain ⟨rfl, hl⟩ := h.of_deleting ht
      exact ⟨h.move (.inr ⟨_, _, _, _, rfl, hl⟩),
        by simpa [Event.objs, DelPc.live] using hl _ (.head _),
        by simp⟩
  | @destroyMutex t a b c status ht =>
      obtain ⟨rfl, hl⟩ := h.of_deleting ht
      refine ⟨h.move (.inr ⟨_, _, _, _, rfl, live_update hl ?_⟩),
        by simpa [Event.objs, DelPc.live] using hl _ (.head _), by simp⟩
      simp [DelPc.live, Ne.symm hmr, Ne.symm hmw]
  | @freeMutex t a b c ht =>
      obtain ⟨rfl, hl⟩ := h.of_deleting ht
      refine ⟨h.move (.inr ⟨_, _, _, _, rfl, live_update hl ?_⟩), by simp [Event.objs], by simp⟩
      simp [DelPc.live, Ne.symm hmr, Ne.symm hmw]
  | @destroyRead t a b c status ht =>
      obtain ⟨rfl, hl⟩ := h.of_deleting ht
      refine ⟨h.move (.inr ⟨_, _, _, _, rfl, live_update hl ?_⟩),
        by simpa [Event.objs, DelPc.live] using hl _ (.head _), by simp⟩
      simp [DelPc.live, Ne.symm hrw]
  | @freeRead t a b c ht =>
      obtain ⟨rfl, hl⟩ := h.of_deleting ht
      refine ⟨h.move (.inr ⟨_, _, _, _, rfl, live_update hl ?_⟩), by simp [Event.objs], by simp⟩
      simp [DelPc.live, Ne.symm hrw]
  | @destroyWrite t a b c status ht =>
      obtain ⟨rfl, hl⟩ := h.of_deleting ht
      refine ⟨h.move (.inr ⟨_, _, _, _, rfl, live_update hl ?_⟩),
        by simpa [Event.objs, DelPc.live] using hl _ (.head _), by simp⟩
      simp [DelPc.live]
  | @freeWrite t a b c ht =>
      obtain ⟨rfl, hl⟩ := h.of_deleting ht
      refine ⟨h.move (.inl (.inr ⟨_, _, rfl, fun m hm => ?_⟩)), by simp [Event.objs], by simp⟩
      cases m <;> cases hm
  | lock ht | enter ht | spurious ht | relock _ ht | resume ht | rdunlock ht | wrunlock ht
  | unlock ht | delBusy ht | delCommit ht =>
      -- nobody else is anywhere behind the test of `valid`
      rcases h.pc_cases _ with h0 | ⟨_, _, h0, -⟩ | ⟨-, k, a, b, c, h0, -⟩ <;>
        rw [ht] at h0 <;> cases h0

end Closed

/-! ## One step before the deletion -/

section Runs

variable {ι : Type*} [Fintype ι] [DecidableEq ι] {int : ℤ → ℤ} {s s' : State ι} {t : ι}

/-- The states a guarded run passes through. -/
def Good (s : State ι) : Prop := Open s ∨ ∃ d, Closed d s

omit [DecidableEq ι] in
/-- A `del` that finds the lock unused sees that no thread is in a wait loop. -/
theorem Open.no_waiter (h : Open s) (hb : ¬ delBusy s.lock) (m : Mode) (t : ι) :
    (s.pc t).waitShare m ≠ 1 := by
  have hz : waiters m s.pc = 0 := by
    have hw := h.waits m
    simp only [delBusy, not_or] at hb
    cases m <;> simp only [Mode.waitCount] at hw <;> omega
  exact count_eq_zero_iff.mp hz t

omit [DecidableEq ι] [Fintype ι] in
/-- Outside the mutex, the wait loops and the deletion there is only the way in and the way out. -/
theorem Pc.cases_of_not_busy {p : Pc} (hh : ¬ p.Holds) (hw : ∀ m, p.waitShare m ≠ 1)
    (hd : ¬ p.Deleted) : p = .idle ∨ (∃ op, p = .tested op) ∨
      ∃ op status, p = .returning op status := by
  cases p with
  | idle => exact .inl rfl
  | tested op => exact .inr (.inl ⟨op, rfl⟩)
  | returning op status => exact .inr (.inr ⟨op, status, rfl⟩)
  | asleep m | woken m => exact absurd (by simp) (hw m)
  | _ => simp at hh hd

/-- A quiet deletion closes the lock: the deleter holds the mutex, so nobody else does; the wait
counters are 0, so nobody waits; and quiet means that nobody is about to come in. -/
theorem closed_of_commit (h : Open s) (ht : s.pc t = .locked .del) (hb : ¬ delBusy s.lock)
    (hq : Quiet s (.commit t)) :
    Closed t { s.goto t (.deleting .unlock 0 0 0) with lock := { s.lock with valid := 0 } } := by
  refine ⟨by simp, h.distinct, fun u hu => ?_, .inr ⟨.unlock, 0, 0, 0, ?_, ?_⟩⟩
  · have hown := h.owner t (by simp [ht])
    have hfree : ¬ (s.pc u).Holds := fun hh =>
      hu (Option.some.inj ((h.owner u hh).symm.trans hown))
    simp only [State.goto, Function.update_of_ne hu]
    rcases Pc.cases_of_not_busy hfree (fun m => h.no_waiter hb m u) (h.not_deleted u) with
      hp | ⟨op, hp⟩ | ⟨op, status, hp⟩
    · exact .inl hp
    · exact absurd hp ((hq u hu).1 op)
    · refine .inr ⟨op, status, hp, ?_⟩
      rintro m rfl rfl
      exact (hq u hu).2 m hp
  · simp [State.goto]
  · have hm := h.mutex_live
    have hr := h.cond_live .rd
    have hw := h.cond_live .wr
    simp only [Mode.cond] at hr hw
    simp [DelPc.live, State.goto, hm, hr, hw]

omit [DecidableEq ι] in
/-- The objects used before the deletion are live. -/
theorem Open.live_wait (h : Open s) (m : Mode) (x : Exit) :
    ∀ o ∈ m.waitObjs s.lock x, s.heap o.1 = o.2 := by
  cases x <;> simp [Mode.waitObjs, h.mutex_live, h.cond_live m]

omit [DecidableEq ι] in
/-- While the lock is open, what a wake-up call uses is live. -/
theorem Open.live_wake (h : Open s) (w : Wake) : ∀ o ∈ wakeObjs s.lock w, s.heap o.1 = o.2 := by
  have hr := h.cond_live .rd
  have hw := h.cond_live .wr
  simp only [Mode.cond] at hr hw
  cases w <;> simp [wakeObjs, hr, hw]

omit [DecidableEq ι] in
/-- While the lock is open, nobody is deleting it. -/
theorem Open.not_deleting (h : Open s) (t : ι) : ¬ ∃ k a b c, s.pc t = .deleting k a b c := by
  rintro ⟨k, a, b, c, ht⟩
  have hd := h.not_deleted t
  simp [ht] at hd

/-- Before the deletion every step finds the objects it uses live. -/
theorem Open.live (h : Open s) {e : Event ι} (hs : Step int s e s') :
    ∀ o ∈ e.objs, s.heap o.1 = o.2 := by
  cases hs with
  | enter ht => exact h.live_wait _ _
  | resume ht => exact h.live_wait _ _
  | rdunlock ht _ => exact h.live_wake _
  | wrunlock ht _ => exact h.live_wake _
  | lock ht _ | relock _ ht _ | unlock ht => simpa [Event.objs] using h.mutex_live
  | call | spurious | delBusy | delCommit | freeMutex | freeRead | freeWrite | ret =>
      simp [Event.objs]
  | @delUnlock t _ _ _ ht | @destroyMutex t _ _ _ _ ht | @destroyRead t _ _ _ _ ht
  | @destroyWrite t _ _ _ _ ht => exact absurd ⟨_, _, _, _, ht⟩ (h.not_deleting t)

/-- A quiet step takes a lock that is not deleted to one that is not deleted or closed. -/
theorem good_of_open (hint : Counts int (Fintype.card ι)) {e : Event ι} (h : Open s)
    (hs : Step int s e s') (hq : Quiet s e) : Good s' := by
  cases hs with
  | call op ht =>
      rw [if_neg (by simp [h.valid])]
      exact .inl (h.goto hint ht (.tested op) (by simp) (by simp) (by simp))
  | lock ht ho => exact .inl (h.goto hint ht (.locked _) (by simp [ho]) (by simp) (by simp))
  | @enter t m ht =>
      obtain ⟨hl, hw⟩ := m.enter_spec int s.lock
      refine .inl (h.move hint ht hl ⟨?_, .inr (.inl (by simp))⟩ (by simpa using hw) ?_)
      · cases (m.enter int s.lock).2 <;> simp [Mode.pc, exitOwner]
      · cases m <;> cases (Mode.enter int s.lock _).2 <;> simp [Mode.pc, Mode.op]
  | spurious ht => exact .inl (h.goto hint ht (.woken _) (by simp) (by simp) (by simp))
  | relock status ht ho =>
      exact .inl (h.goto hint ht (.resumed _ status) (by simp [ho]) (by simp) (by simp))
  | @resume t m status ht =>
      obtain ⟨hl, hw⟩ := m.resume_spec int s.lock status
      refine .inl (h.move hint ht hl ⟨?_, .inr (.inl (by simp))⟩ hw ?_)
      · cases (m.resume int s.lock status).2 <;> simp [Mode.pc, exitOwner]
      · cases m <;> cases (Mode.resume int s.lock status _).2 <;> simp [Mode.pc, Mode.op]
  | @rdunlock t pc' ht hw =>
      have hown : s.owner = some t := h.owner t (by simp [ht])
      have hsame : SameObjs s.lock (rdunlockSection int s.lock).1 := ⟨rfl, rfl, rfl, rfl⟩
      have hmoved : ∀ m : Mode, Moved int (m.waitCount (rdunlockSection int s.lock).1)
          (m.waitCount s.lock) ((Pc.unlocking .rdunlock 0).waitShare m -
            (Pc.locked .rdunlock).waitShare m) := by
        rintro (_ | _) <;> simp [Moved, rdunlockSection]
      exact .inl ((h.move hint ht hsame ⟨fun _ => hown, .inr (.inr rfl)⟩ hmoved (by simp)).wakes hw)
  | @wrunlock t pc' ht hw =>
      have hown : s.owner = some t := h.owner t (by simp [ht])
      have hsame : SameObjs s.lock (wrunlockSection s.lock).1 := ⟨rfl, rfl, rfl, rfl⟩
      have hmoved : ∀ m : Mode, Moved int (m.waitCount (wrunlockSection s.lock).1)
          (m.waitCount s.lock) ((Pc.unlocking .wrunlock 0).waitShare m -
            (Pc.locked .wrunlock).waitShare m) := by
        rintro (_ | _) <;> simp [Moved, wrunlockSection]
      exact .inl ((h.move hint ht hsame ⟨fun _ => hown, .inr (.inr rfl)⟩ hmoved (by simp)).wakes hw)
  | @unlock t op status ht =>
      have hd : ¬ (Pc.unlocking op status).Deleted := ht ▸ h.not_deleted t
      refine .inl (h.goto hint ht (.returning op status) (by simp) (by simp) ?_)
      cases op with
      | del => exact hd
      | _ => exact not_false
  | @delBusy t ht hb =>
      have hown : s.owner = some t := h.owner t (by simp [ht])
      exact .inl (h.goto hint ht (.unlocking .del EBUSY) (by simp [hown]) (by simp) (by simp [EBUSY]))
  -- the only step that closes the lock, and the only use of the guard
  | delCommit ht hb => exact .inr ⟨_, closed_of_commit h ht hb hq⟩
  | ret ht => exact .inl (h.goto hint ht .idle (by simp) (by simp) (by simp))
  | @delUnlock t _ _ _ ht | @destroyMutex t _ _ _ _ ht | @freeMutex t _ _ _ ht
  | @destroyRead t _ _ _ _ ht | @freeRead t _ _ _ ht | @destroyWrite t _ _ _ _ ht
  | @freeWrite t _ _ _ ht => exact absurd ⟨_, _, _, _, ht⟩ (h.not_deleting t)

/-- One quiet step. -/
theorem good_step (hint : Counts int (Fintype.card ι)) {e : Event ι} (h : Good s)
    (hs : Guarded (Step int) Quiet s e s') : Good s' := by
  rcases h with h | ⟨d, h⟩
  · exact good_of_open hint h hs.1 hs.2
  · exact .inr ⟨d, (closed_step h hs.1).1⟩

/-! ## Runs -/

/-- Whatever step comes next, the objects it uses are live. -/
def UsesLive (int : ℤ → ℤ) (s : State ι) : Prop :=
  ∀ e s', Step int s e s' → ∀ o ∈ e.objs, s.heap o.1 = o.2

omit [Fintype ι] [DecidableEq ι] in
/-- Behind a `del` that returned 0, no `rdlock` or `wrlock` has returned 0. -/
def NoGrantAfterDel (es : List (Event ι)) : Prop :=
  ∀ d es₁ es₂, es = es₁ ++ .ret d .del 0 :: es₂ → ∀ u, ∀ m : Mode, .ret u m.op 0 ∉ es₂

/-- In a good state every thread is about to use live objects only. -/
theorem Good.usesLive (h : Good s) : UsesLive int s := by
  intro e s' hs
  rcases h with h | ⟨d, h⟩
  · exact h.live hs
  · exact (closed_step h hs).2.1

/-- A good state in which `del` returns 0 is closed. -/
theorem Good.closed_of_ret {d : ι} (h : Good s) (hs : Step int s (.ret d .del 0) s') :
    ∃ d, Closed d s' := by
  rcases h with h | ⟨d', h⟩
  · cases hs with
    | ret ht => exact absurd (by simp [ht]) (h.not_deleted d)
  · exact ⟨d', (closed_step h hs).1⟩

omit [Fintype ι] in
/-- No run of a deleted lock grants it. -/
theorem Closed.no_grant {d : ι} {es : List (Event ι)} (h : Closed d s)
    (hrun : Run (Step int) s es s') (u : ι) (m : Mode) : .ret u m.op 0 ∉ es := by
  intro hmem
  obtain ⟨es₁, es₂, rfl⟩ := List.append_of_mem hmem
  obtain ⟨t₁, t₂, hrun₁, hstep, -⟩ := hrun.split_at
  have hc : Closed d t₁ := hrun₁.invariant (fun _ _ _ hi hst => (closed_step hi hst).1) h
  exact (closed_step hc hstep).2.2 u m rfl

/-- What remains of `del` behind its commit. -/
def DelPc.left : DelPc → ℕ
  | .unlock => 6
  | .destroyMutex => 5
  | .freeMutex => 4
  | .destroyRead => 3
  | .freeRead => 2
  | .destroyWrite => 1
  | .freeWrite => 0

omit [Fintype ι] in
/-- `del` can take its next statement, with every destroy returning 0. -/
theorem del_advance (int : ℤ → ℤ) {d : ι} {k : DelPc} (ht : s.pc d = .deleting k 0 0 0) :
    ∃ e s', Step int s e s' ∧ (∀ u, u ≠ d → s'.pc u = s.pc u) ∧
      ((k.left = 0 ∧ s'.pc d = .returning .del 0) ∨
        ∃ k' : DelPc, k.left = k'.left + 1 ∧ s'.pc d = .deleting k' 0 0 0) := by
  cases k with
  | unlock =>
      exact ⟨_, _, .delUnlock ht, fun u hu => Function.update_of_ne hu .., .inr ⟨.destroyMutex, rfl,
        Function.update_self ..⟩⟩
  | destroyMutex =>
      exact ⟨_, _, .destroyMutex 0 ht, fun u hu => Function.update_of_ne hu .., .inr ⟨.freeMutex, rfl,
        Function.update_self ..⟩⟩
  | freeMutex =>
      exact ⟨_, _, .freeMutex ht, fun u hu => Function.update_of_ne hu .., .inr ⟨.destroyRead, rfl,
        Function.update_self ..⟩⟩
  | destroyRead =>
      exact ⟨_, _, .destroyRead 0 ht, fun u hu => Function.update_of_ne hu .., .inr ⟨.freeRead, rfl,
        Function.update_self ..⟩⟩
  | freeRead =>
      exact ⟨_, _, .freeRead ht, fun u hu => Function.update_of_ne hu .., .inr ⟨.destroyWrite, rfl,
        Function.update_self ..⟩⟩
  | destroyWrite =>
      exact ⟨_, _, .destroyWrite 0 ht, fun u hu => Function.update_of_ne hu .., .inr ⟨.freeWrite, rfl,
        Function.update_self ..⟩⟩
  | freeWrite =>
      exact ⟨_, _, .freeWrite ht, fun u hu => Function.update_of_ne hu .., .inl ⟨rfl,
        Function.update_self ..⟩⟩

omit [Fintype ι] in
/-- A `del` that has set `valid` to 0 can run to its return undisturbed. -/
theorem del_finishes (int : ℤ → ℤ) {d : ι} (n : ℕ) :
    ∀ {s : State ι} {k : DelPc}, k.left = n → s.pc d = .deleting k 0 0 0 →
      ∃ es s', Run (Step int) s es s' ∧ (∀ u, u ≠ d → s'.pc u = s.pc u) ∧
        s'.pc d = .returning .del 0 := by
  induction n with
  | zero =>
      intro s k hk ht
      obtain ⟨e, s', hs, hframe, ⟨-, hd⟩ | ⟨k', hk', -⟩⟩ := del_advance int ht
      · exact ⟨[e], s', .single hs, hframe, hd⟩
      · omega
  | succ n ih =>
      intro s k hk ht
      obtain ⟨e, s', hs, hframe, ⟨hk', -⟩ | ⟨k', hk', hd⟩⟩ := del_advance int ht
      · omega
      · obtain ⟨es, s'', hrun, hframe', hd'⟩ := ih (by omega) hd
        exact ⟨e :: es, s'', .cons hs hrun, fun u hu => (hframe' u hu).trans (hframe u hu), hd'⟩

omit [Fintype ι] in
/-- A caller that has passed the test of `valid` can lock the destroyed mutex. -/
theorem use_after_destroy (int : ℤ → ℤ) {d u : ι} {op : Op} (hu : u ≠ d)
    (ht : s.pc d = .deleting .unlock 0 0 0) (hop : s.pc u = .tested op) :
    ∃ es s', Run (Step int) s es s' ∧ ¬ UsesLive int s' := by
  let s₁ : State ι := { s.goto d (.deleting .destroyMutex 0 0 0) with owner := none }
  let s₂ := (s₁.goto d (.deleting .freeMutex 0 0 0)).setCell s₁.lock.mutex .raw
  have h₁ : Step int s (.uses d [(s.lock.mutex, .mutex)]) s₁ := .delUnlock ht
  have h₂ : Step int s₁ (.uses d [(s₁.lock.mutex, .mutex)]) s₂ :=
    .destroyMutex 0 (Function.update_self ..)
  refine ⟨_, s₂, .cons h₁ (.single h₂), fun hlive => ?_⟩
  have hop₂ : s₂.pc u = .tested op := by
    simp [s₂, s₁, State.goto, State.setCell, hu, hop]
  have hm := hlive _ _ (.lock hop₂ rfl) (s₂.lock.mutex, .mutex) (.head _)
  simp [s₂, s₁, State.setCell, State.goto] at hm

omit [Fintype ι] in
/-- A caller on its way out of a granted lock can return behind the return of `del`. -/
theorem grant_after_del (int : ℤ → ℤ) {d u : ι} {m : Mode} (hu : u ≠ d)
    (ht : s.pc d = .deleting .unlock 0 0 0) (hret : s.pc u = .returning m.op 0) :
    ∃ es s', Run (Step int) s es s' ∧ ∀ es₀, ¬ NoGrantAfterDel (es₀ ++ es) := by
  obtain ⟨es, s₁, hrun, hframe, hd⟩ := del_finishes int 6 rfl ht
  have hu₂ : (s₁.goto d .idle).pc u = .returning m.op 0 := by
    simp [State.goto, hu, hframe u hu, hret]
  refine ⟨_, _, (hrun.snoc (.ret hd)).snoc (.ret hu₂), fun es₀ hno => ?_⟩
  exact hno d (es₀ ++ es) [.ret u m.op 0] (by simp) u m (by simp)

omit [Fintype ι] in
/-- A commit moves its own thread only. -/
theorem pc_of_commit {d : ι} (hs : Step int s (.commit d) s') :
    s'.pc d = .deleting .unlock 0 0 0 ∧ ∀ u, u ≠ d → s'.pc u = s.pc u := by
  cases hs with
  | delCommit _ _ => exact ⟨Function.update_self .., fun u hu => Function.update_of_ne hu ..⟩

/-- **Deletion is safe exactly when it is quiet.** In runs whose deletions are quiet every object
used is live, and no lock is granted behind a successful deletion. A deletion that is not quiet, in
any state of such a run, can be continued so that one of the two fails. -/
theorem rwMutexLockDel_safe (int : ℤ → ℤ) (hint : Counts int (Fintype.card ι))
    (mutex read write : ℕ) (hd : [mutex, read, write].Nodup) (es : List (Event ι)) (s : State ι)
    (hrun : Run (Guarded (Step int) Quiet) (initial ι mutex read write) es s) :
    (UsesLive int s ∧ NoGrantAfterDel es) ∧
      ∀ d s', Step int s (.commit d) s' → ¬ Quiet s (.commit d) →
        ∃ es' s'', Run (Step int) s' es' s'' ∧
          ¬ (UsesLive int s'' ∧ NoGrantAfterDel (es ++ .commit d :: es')) := by
  have hgood : ∀ {es s}, Run (Guarded (Step int) Quiet) (initial ι mutex read write) es s →
      Good s := fun h =>
    h.invariant (fun _ _ _ hg hs => good_step hint hg hs) (.inl (open_initial hd))
  refine ⟨⟨(hgood hrun).usesLive, ?_⟩, ?_⟩
  · rintro d es₁ es₂ rfl u m
    obtain ⟨t₁, t₂, hrun₁, hstep, hrun₂⟩ := hrun.split_at
    obtain ⟨d', hc⟩ := (hgood hrun₁).closed_of_ret hstep.1
    exact hc.no_grant hrun₂.of_guarded u m
  · intro d s' hs hq
    simp only [Quiet, not_forall, not_and_or, not_not] at hq
    obtain ⟨hd', hframe⟩ := pc_of_commit hs
    obtain ⟨u, hu, hop | hret⟩ := hq
    · -- a thread behind the test of `valid` goes on to lock a mutex that has been destroyed
      obtain ⟨op, hop⟩ := hop
      obtain ⟨es', s'', hrun', hdead⟩ :=
        use_after_destroy int hu hd' ((hframe u hu).trans hop)
      exact ⟨es', s'', hrun', fun h => hdead h.1⟩
    · -- a thread that was granted the lock returns 0 behind the `del`
      obtain ⟨m, hret⟩ := hret
      obtain ⟨es', s'', hrun', hgrant⟩ :=
        grant_after_del int hu hd' ((hframe u hu).trans hret)
      exact ⟨es', s'', hrun', fun h => hgrant (es ++ [.commit d]) (by simpa using h.2)⟩

/-- A deletion beside a reader: it is busy while the reader has the lock, and quiet behind its
unlock. Then the mutex goes, and the reader that comes again is turned away. -/
theorem rwMutexLockDel_safe_two : ∃ es s,
    Run (Guarded (Step int32) Quiet) (initial (Fin 2) 1 2 3) es s ∧
      .ret 0 .rdlock 0 ∈ es ∧ .ret 1 .del EBUSY ∈ es ∧ .commit 1 ∈ es ∧
      .ret 0 .rdlock EINVAL ∈ es ∧ UsesLive int32 s ∧ NoGrantAfterDel es := by
  -- at the commit, the reader is on its way out of `rdunlock`
  have hcommit {s : State (Fin 2)} (hpc : s.pc 0 = .returning .rdunlock 0) : Quiet s (.commit 1) := by
    intro u hu
    obtain rfl : u = 0 := by omega
    rw [hpc]
    exact ⟨nofun, fun m => by cases m <;> nofun⟩
  have hrun : Run (Guarded (Step int32) Quiet) (initial (Fin 2) 1 2 3) _ _ :=
    .cons ⟨.call (t := 0) .rdlock rfl, trivial⟩ <|
    .cons ⟨.lock (t := 0) rfl rfl, trivial⟩ <|
    .cons ⟨.enter (t := 0) (m := .rd) rfl, trivial⟩ <|
    .cons ⟨.unlock (t := 0) rfl, trivial⟩ <|
    .cons ⟨.ret (t := 0) rfl, trivial⟩ <|
    .cons ⟨.call (t := 1) .del rfl, trivial⟩ <|
    .cons ⟨.lock (t := 1) rfl rfl, trivial⟩ <|
    .cons ⟨.delBusy (t := 1) rfl (by decide), trivial⟩ <|
    .cons ⟨.unlock (t := 1) rfl, trivial⟩ <|
    .cons ⟨.ret (t := 1) rfl, trivial⟩ <|
    .cons ⟨.call (t := 0) .rdunlock rfl, trivial⟩ <|
    .cons ⟨.call (t := 1) .del rfl, trivial⟩ <|
    .cons ⟨.lock (t := 0) rfl rfl, trivial⟩ <|
    .cons ⟨.rdunlock (t := 0) rfl rfl, trivial⟩ <|
    .cons ⟨.unlock (t := 0) rfl, trivial⟩ <|
    .cons ⟨.lock (t := 1) rfl rfl, trivial⟩ <|
    .cons ⟨.delCommit (t := 1) rfl (by decide), hcommit rfl⟩ <|
    .cons ⟨.ret (t := 0) rfl, trivial⟩ <|
    .cons ⟨.delUnlock (t := 1) rfl, trivial⟩ <|
    .cons ⟨.call (t := 0) .rdlock rfl, trivial⟩ <|
    .cons ⟨.destroyMutex (t := 1) 0 rfl, trivial⟩ <|
    .cons ⟨.freeMutex (t := 1) rfl, trivial⟩ <|
    .single ⟨.ret (t := 0) rfl, trivial⟩
  obtain ⟨hlive, hgrant⟩ := (rwMutexLockDel_safe int32 (counts_int32 (by decide)) 1 2 3 (by decide)
    _ _ hrun).1
  exact ⟨_, _, hrun, by decide, by decide, by decide, by decide, hlive, hgrant⟩

end Runs

/-- A reader tests `valid`; `del` runs to its return; the reader is about to lock the freed mutex.
It can do so, and then its `rdlock` returns 0. -/
theorem rwMutexLockDel_use_after_free :
    ∃ es es' s s', Run (Step int32) (initial (Fin 2) 1 2 3) es s ∧ Run (Step int32) s es' s' ∧
      ¬ UsesLive int32 s ∧ ¬ NoGrantAfterDel (es ++ es') := by
  have hdel : Run (Step int32) (initial (Fin 2) 1 2 3)
      ([.call 0 .rdlock, .call 1 .del, .uses 1 [(1, .mutex)], .commit 1, .uses 1 [(1, .mutex)],
        .uses 1 [(1, .mutex)], .free 1 1, .uses 1 [(2, .cond)], .free 1 2, .uses 1 [(3, .cond)],
        .free 1 3] ++ [.ret 1 .del 0]) _ :=
    .cons (.call .rdlock rfl) <| .cons (.call .del rfl) <| .cons (.lock rfl rfl) <|
    .cons (.delCommit rfl (by decide)) <| .cons (.delUnlock rfl) <| .cons (.destroyMutex 0 rfl) <|
    .cons (.freeMutex rfl) <| .cons (.destroyRead 0 rfl) <| .cons (.freeRead rfl) <|
    .cons (.destroyWrite 0 rfl) <| .cons (.freeWrite rfl) <| .single (.ret rfl)
  refine ⟨_, [.uses 0 [(1, .mutex)], .uses 0 [], .uses 0 [(1, .mutex)], .ret 0 .rdlock 0], _, _,
    hdel, .cons (.lock rfl rfl) <| .cons (.enter (m := .rd) rfl) <| .cons (.unlock rfl) <|
      .single (.ret rfl), fun hlive => ?_, fun hno => ?_⟩
  · exact absurd (hlive _ _ (.lock (t := 0) rfl rfl) (1, .mutex) (.head _)) (by decide)
  · exact hno 1 _ _ (List.append_assoc ..) 0 .rd (by decide)

end TargetSys.RwLock.Deletion
