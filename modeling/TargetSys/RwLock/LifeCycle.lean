import TargetSys.Common.Ownership
import TargetSys.RwLock.Deletion

/-!
# The life cycle of a reader/writer lock

Reference: `src/bf_sal/linux_usr/bf_sys_sem.c`.

Here the calls come one after another, in any order: `bf_sys_rw_mutex_lock_init` and
`bf_sys_rw_mutex_lock_del` may be called twice, and all calls before the first and after the last.
Each call is a program over the lock structure and the heap. What `malloc`, the pthread functions
and the waits answer is part of the call, so every pattern of failures is some history; locking and
unlocking a mutex succeed.

`bf_sys_rw_mutex_lock_init` has six ways out that each undo another set of blocks and objects, and
none of them clears the pointers in the structure. What keeps later calls off the dangling pointers
is `valid` alone: `Sound` says what the lock owns by the value of that field.

## Main results

* `rwMutexLock_lifeCycle`: no call touches an object or a block that is not live, the lock owns its
  three objects while `valid` is 1 and nothing otherwise, and refused calls change nothing.
-/

namespace TargetSys.RwLock.LifeCycle

open Transition Ownership
open Deletion (Cell Mode SameObjs delBusy delStatus wakeObjs)

/-- The lock structure and the heap. -/
abbrev State := Mem RwMutexLock Cell

/-- A call on the lock. -/
abbrev LockProg := Prog RwMutexLock Cell

/-! ## The functions the lock calls -/

/-- `bf_sys_malloc`, answering `p`. -/
def bfSysMalloc (p : ℕ) : LockProg ℕ := alloc .free .raw p

/-- `bf_sys_free`. -/
def bfSysFree (p : ℕ) : LockProg Unit := release .free p

/-- A pthread init function: it makes a block an object, unless it answers an error. -/
def pthreadInit (c : Cell) (p : ℕ) (status : ℤ) : LockProg ℤ := do
  if status = 0 then become .raw c p else use .raw p
  return status

/-- A pthread destroy function: it ends an object, unless it answers an error. -/
def pthreadDestroy (c : Cell) (p : ℕ) (status : ℤ) : LockProg ℤ := do
  if status = 0 then become c .raw p else use c p
  return status

def pthreadMutexInit : ℕ → ℤ → LockProg ℤ := pthreadInit .mutex

def pthreadCondInit : ℕ → ℤ → LockProg ℤ := pthreadInit .cond

def pthreadMutexDestroy : ℕ → ℤ → LockProg ℤ := pthreadDestroy .mutex

def pthreadCondDestroy : ℕ → ℤ → LockProg ℤ := pthreadDestroy .cond

def pthreadMutexLock : ℕ → LockProg Unit := use .mutex

def pthreadMutexUnlock : ℕ → LockProg Unit := use .mutex

/-- The objects that a wait or a wake-up call uses. -/
def useAll : List (ℕ × Cell) → LockProg Unit
  | [] => return ()
  | (p, c) :: objs => do
      use c p
      useAll objs

/-! ## `bf_sys_rw_mutex_lock_init` -/

/-- What `malloc` and the pthread functions answer during one `bf_sys_rw_mutex_lock_init`. -/
structure InitAnswers where
  mutexBlock : ℕ
  mutexInit : ℤ
  readBlock : ℕ
  readInit : ℤ
  writeBlock : ℕ
  writeInit : ℤ
  mutexDestroy : ℤ
  readDestroy : ℤ

def bfSysRwMutexLockInit (a : InitAnswers) : LockProg ℤ := do
  if (← get).data.valid = 1 then return EBUSY
  setData fun l => { l with rActive := 0, rWait := 0, wActive := 0, wWait := 0 }
  let mutex ← bfSysMalloc a.mutexBlock
  setData fun l => { l with mutex := mutex }
  if mutex = 0 then return -1
  let status ← pthreadMutexInit mutex a.mutexInit
  if status ≠ 0 then
    bfSysFree mutex
    return status
  let read ← bfSysMalloc a.readBlock
  setData fun l => { l with read := read }
  if read = 0 then
    let status ← pthreadMutexDestroy mutex a.mutexDestroy
    bfSysFree mutex
    return if status ≠ 0 then status else -1
  let status ← pthreadCondInit read a.readInit
  if status ≠ 0 then
    let status1 ← pthreadMutexDestroy mutex a.mutexDestroy
    bfSysFree mutex
    bfSysFree read
    return if status1 ≠ 0 then status1 else status
  let write ← bfSysMalloc a.writeBlock
  setData fun l => { l with write := write }
  if write = 0 then
    let status ← pthreadMutexDestroy mutex a.mutexDestroy
    bfSysFree mutex
    let status1 ← pthreadCondDestroy read a.readDestroy
    bfSysFree read
    return if status ≠ 0 then status else if status1 ≠ 0 then status1 else -1
  let status ← pthreadCondInit write a.writeInit
  if status ≠ 0 then
    let status1 ← pthreadMutexDestroy mutex a.mutexDestroy
    let status2 ← pthreadCondDestroy read a.readDestroy
    bfSysFree mutex
    bfSysFree read
    bfSysFree write
    return if status1 ≠ 0 then status1 else if status2 ≠ 0 then status2 else status
  setData fun l => { l with valid := 1 }
  return 0

/-! ## `bf_sys_rw_mutex_lock_del` -/

/-- What the destroy functions answer during one `bf_sys_rw_mutex_lock_del`. -/
structure DelAnswers where
  mutexDestroy : ℤ
  readDestroy : ℤ
  writeDestroy : ℤ

def bfSysRwMutexLockDel (a : DelAnswers) : LockProg ℤ := do
  let l := (← get).data
  if l.valid ≠ 1 then return EINVAL
  pthreadMutexLock l.mutex
  if delBusy l then
    pthreadMutexUnlock l.mutex
    return EBUSY
  setData fun l => { l with valid := 0 }
  pthreadMutexUnlock l.mutex
  let status ← pthreadMutexDestroy l.mutex a.mutexDestroy
  bfSysFree l.mutex
  let status1 ← pthreadCondDestroy l.read a.readDestroy
  bfSysFree l.read
  let status2 ← pthreadCondDestroy l.write a.writeDestroy
  bfSysFree l.write
  return delStatus status status1 status2

/-! ## The four lock operations -/

/-- A locked section changes the structure and says how it goes on. -/
def runSection {ρ : Type} (f : RwMutexLock → RwMutexLock × ρ) : LockProg ρ := do
  let r := f (← get).data
  setData fun _ => r.1
  return r.2

/-- The rest of `rdlock` or `wrlock` behind a locked section: the unlock, or a wait and the section
behind it. The waits return the statuses of the list, and the one after them does not return. -/
def leaveOrWait (int : ℤ → ℤ) (m : Mode) : List ℤ → Exit → LockProg ℤ
  | _, .unlock status => do
      pthreadMutexUnlock (← get).data.mutex
      return status
  | [], .wait => do
      useAll (m.waitObjs (← get).data .wait)
      throw .blocks
  | status :: waits, .wait => do
      useAll (m.waitObjs (← get).data .wait)
      let exit ← runSection fun l => m.resume int l status
      leaveOrWait int m waits exit

/-- `rdlock` and `wrlock`, whose waits return the statuses `waits`. -/
def acquire (int : ℤ → ℤ) (m : Mode) (waits : List ℤ) : LockProg ℤ := do
  let l := (← get).data
  if l.valid ≠ 1 then return EINVAL
  pthreadMutexLock l.mutex
  let exit ← runSection (m.enter int)
  leaveOrWait int m waits exit

def bfSysRwMutexLockRdlock (int : ℤ → ℤ) : List ℤ → LockProg ℤ := acquire int .rd

def bfSysRwMutexLockWrlock (int : ℤ → ℤ) : List ℤ → LockProg ℤ := acquire int .wr

/-- `rdunlock` and `wrunlock`, with their locked section and the status of its wake-up call. -/
def surrender (locked : RwMutexLock → RwMutexLock × Wake) (status2 : ℤ) : LockProg ℤ := do
  let l := (← get).data
  if l.valid ≠ 1 then return EINVAL
  pthreadMutexLock l.mutex
  let wake ← runSection locked
  useAll (wakeObjs l wake)
  pthreadMutexUnlock l.mutex
  return if wake = .none then 0 else status2

def bfSysRwMutexLockRdunlock (int : ℤ → ℤ) : ℤ → LockProg ℤ := surrender (rdunlockSection int)

def bfSysRwMutexLockWrunlock : ℤ → LockProg ℤ := surrender wrunlockSection

/-! ## Histories -/

/-- A call, with what its environment answers. -/
inductive Call
  | init (a : InitAnswers)
  | del (a : DelAnswers)
  | rdlock (waits : List ℤ)
  | wrlock (waits : List ℤ)
  | rdunlock (status2 : ℤ)
  | wrunlock (status2 : ℤ)

/-- The function that is called. -/
def Call.exec (int : ℤ → ℤ) : Call → LockProg ℤ
  | .init a => bfSysRwMutexLockInit a
  | .del a => bfSysRwMutexLockDel a
  | .rdlock waits => bfSysRwMutexLockRdlock int waits
  | .wrlock waits => bfSysRwMutexLockWrlock int waits
  | .rdunlock status2 => bfSysRwMutexLockRdunlock int status2
  | .wrunlock status2 => bfSysRwMutexLockWrunlock status2

/-- The error of a call that finds `valid` wrong, or the lock in use in `del`. -/
def Call.refusal (l : RwMutexLock) : Call → Option ℤ
  | .init _ => if l.valid = 1 then some EBUSY else none
  | .del _ => if l.valid ≠ 1 then some EINVAL else if delBusy l then some EBUSY else none
  | _ => if l.valid ≠ 1 then some EINVAL else none

/-- A call that returns, with the value it returns. -/
def Step (int : ℤ → ℤ) (s : State) (e : Call × ℤ) (s' : State) : Prop :=
  (e.1.exec int).run s = .ok (e.2, s')

/-- The calls of a history one after another, with the values they return. -/
def history (int : ℤ → ℤ) : List Call → State → Except Stop (List ℤ × State)
  | [], s => return ([], s)
  | c :: calls, s => do
      let (ret, s) ← (c.exec int).run s
      let (rets, s) ← history int calls s
      return (ret :: rets, s)

/-- A structure of zeros. -/
def zeroed : RwMutexLock := ⟨0, 0, 0, 0, 0, 0, 0, 0⟩

/-- The objects of an initialised lock. -/
def objects (l : RwMutexLock) : List (ℕ × Cell) :=
  [(l.mutex, .mutex), (l.read, .cond), (l.write, .cond)]

/-- While `valid` is 1 the lock owns its three objects, each in a block of its own, on top of the
heap `base` that others use, and otherwise it owns nothing. -/
def Sound (base : ℕ → Cell) (s : State) : Prop :=
  if s.data.valid = 1 then Owns .free base (objects s.data) s.heap else Owns .free base [] s.heap

/-! ## Rules for the functions the lock calls -/

section Rules

variable {base : ℕ → Cell} {ledger : List (ℕ × Cell)} {α : Type} {p : ℕ} {c : Cell}
  {status : ℤ} {Q : α → State → Prop} {s : State}

/-- A block becomes an object, or stays as it is with an error. -/
theorem ends_init {k : ℤ → LockProg α} (h : Owns .free base ((p, .raw) :: ledger) s.heap)
    (hc : c ≠ .free)
    (done : ∀ heap, Owns .free base ((p, c) :: ledger) heap → Ends Q (k 0) ⟨s.data, heap⟩)
    (failed : status ≠ 0 → Ends Q (k status) s) : Ends Q (pthreadInit c p status >>= k) s := by
  unfold pthreadInit
  by_cases hs : status = 0
  · subst hs
    rw [if_pos rfl, bind_assoc]
    exact Ends.become h hc done
  · rw [if_neg hs, bind_assoc]
    exact Ends.use (h.held (p, .raw) (by simp)) (failed hs)

/-- A destroy leaves some live cell in the block, whatever it answers. -/
theorem ends_destroy {k : ℤ → LockProg α} (h : Owns .free base ((p, c) :: ledger) s.heap)
    (next : ∀ c' heap, Owns .free base ((p, c') :: ledger) heap → Ends Q (k status) ⟨s.data, heap⟩) :
    Ends Q (pthreadDestroy c p status >>= k) s := by
  unfold pthreadDestroy
  by_cases hs : status = 0
  · rw [if_pos hs, bind_assoc]
    exact Ends.become h (by decide) (next .raw)
  · rw [if_neg hs, bind_assoc]
    exact Ends.use (h.held (p, c) (by simp)) (next c s.heap h)

/-- `malloc` fails, or gives a block that the call then owns. -/
theorem ends_malloc {k : ℕ → LockProg α} (h : Owns .free base ledger s.heap)
    (null : Ends Q (k 0) s)
    (next : p ≠ 0 → ∀ heap, Owns .free base ((p, .raw) :: ledger) heap →
      Ends Q (k p) ⟨s.data, heap⟩) : Ends Q (bfSysMalloc p >>= k) s :=
  Ends.alloc h (by decide) null next

/-- An owned block can be freed. -/
theorem ends_free {k : Unit → LockProg α} (h : Owns .free base ((p, c) :: ledger) s.heap)
    (next : ∀ heap, Owns .free base ledger heap → Ends Q (k ()) ⟨s.data, heap⟩) :
    Ends Q (bfSysFree p >>= k) s :=
  Ends.release h next

/-- Objects that are there can be used, one after the other. -/
theorem ends_useAll {objs : List (ℕ × Cell)} {k : Unit → LockProg α}
    (h : ∀ o ∈ objs, s.heap o.1 = o.2) (next : Ends Q (k ()) s) :
    Ends Q (useAll objs >>= k) s := by
  induction objs with
  | nil => exact next
  | cons o objs ih =>
      unfold useAll
      rw [bind_assoc]
      exact Ends.use (h o (by simp)) (ih fun o' ho => h o' (by simp [ho]))

/-- A locked section goes on with what it returns. -/
theorem ends_section {ρ : Type} {f : RwMutexLock → RwMutexLock × ρ} {k : ρ → LockProg α}
    (next : Ends Q (k (f s.data).2) ⟨(f s.data).1, s.heap⟩) : Ends Q (runSection f >>= k) s :=
  next

end Rules

/-! ## The functions keep the lock sound -/

section Sound

variable {int : ℤ → ℤ} {base : ℕ → Cell} {s : State}

/-- It is enough that a lock that is not valid owns nothing. -/
theorem sound_closed (hv : s.data.valid ≠ 1) (h : Owns .free base [] s.heap) : Sound base s := by
  rwa [Sound, if_neg hv]

/-- It is enough that a valid lock owns its objects. -/
theorem sound_open (hv : s.data.valid = 1) (h : Owns .free base (objects s.data) s.heap) :
    Sound base s := by
  rwa [Sound, if_pos hv]

/-- A lock that is not valid owns nothing. -/
theorem Sound.closed (h : Sound base s) (hv : s.data.valid ≠ 1) : Owns .free base [] s.heap := by
  rwa [Sound, if_neg hv] at h

/-- A valid lock owns its objects. -/
theorem Sound.opened (h : Sound base s) (hv : s.data.valid = 1) :
    Owns .free base (objects s.data) s.heap := by
  rwa [Sound, if_pos hv] at h

/-- `init` leaves a sound lock, whichever of its steps fails. -/
theorem sound_init (a : InitAnswers) (h : Sound base s) :
    Ends (fun _ => Sound base) (bfSysRwMutexLockInit a) s := by
  unfold bfSysRwMutexLockInit
  refine Ends.get ?_
  by_cases hv : s.data.valid = 1
  · rw [if_pos hv]
    exact Ends.pure h
  rw [if_neg hv]
  refine Ends.setData (ends_malloc (h.closed hv) ?_ ?_)
  · -- no block for the mutex
    exact Ends.setData (Ends.pure (sound_closed hv (h.closed hv)))
  intro hm _ hown
  refine Ends.setData ?_
  rw [if_neg hm]
  refine ends_init hown (by decide) (fun _ hown => ?_) (fun hs => ?_)
  rotate_left
  · -- `pthread_mutex_init` fails
    rw [if_pos hs]
    exact ends_free hown fun _ hown => Ends.pure (sound_closed hv hown)
  rw [if_neg (by decide)]
  refine ends_malloc hown ?_ ?_
  · -- no block for `read`
    refine Ends.setData (ends_destroy hown fun _ _ hown => ?_)
    exact ends_free hown fun _ hown => Ends.pure (sound_closed hv hown)
  intro hr _ hown
  refine Ends.setData ?_
  rw [if_neg hr]
  refine ends_init hown (by decide) (fun _ hown => ?_) (fun hs => ?_)
  rotate_left
  · -- `pthread_cond_init` fails for `read`
    rw [if_pos hs]
    refine ends_destroy hown.swap fun _ _ hown => ends_free hown fun _ hown => ?_
    exact ends_free hown fun _ hown => Ends.pure (sound_closed hv hown)
  rw [if_neg (by decide)]
  refine ends_malloc hown ?_ ?_
  · -- no block for `write`
    refine Ends.setData (ends_destroy hown.swap fun _ _ hown => ends_free hown fun _ hown => ?_)
    refine ends_destroy hown fun _ _ hown => ?_
    exact ends_free hown fun _ hown => Ends.pure (sound_closed hv hown)
  intro hw _ hown
  refine Ends.setData ?_
  rw [if_neg hw]
  refine ends_init hown (by decide) (fun _ hown => ?_) (fun hs => ?_)
  rotate_left
  · -- `pthread_cond_init` fails for `write`
    rw [if_pos hs]
    refine ends_destroy hown.reverse fun _ _ hown => ends_destroy hown.swap fun _ _ hown => ?_
    refine ends_free hown.swap fun _ hown => ends_free hown fun _ hown => ?_
    exact ends_free hown fun _ hown => Ends.pure (sound_closed hv hown)
  rw [if_neg (by decide)]
  exact Ends.setData (Ends.pure (sound_open rfl hown.reverse))

/-- The objects of a lock whose `valid` is 1 are there to be used. -/
theorem Sound.held (h : Sound base s) (hv : s.data.valid = 1) :
    ∀ o ∈ objects s.data, s.heap o.1 = o.2 :=
  (h.opened hv).held

/-- The mutex of a valid lock is there to be locked. -/
theorem Sound.mutex (h : Sound base s) (hv : s.data.valid = 1) : s.heap s.data.mutex = .mutex :=
  h.held hv (s.data.mutex, .mutex) (by simp [objects])

/-- A change of the counters keeps the lock sound. -/
theorem Sound.sameObjs {l : RwMutexLock} (h : Sound base s) (hl : SameObjs s.data l) :
    Sound base ⟨l, s.heap⟩ := by
  obtain ⟨hm, hr, hw, hv⟩ := hl
  simpa only [Sound, objects, hm, hr, hw, hv] using h

/-- `del` leaves a sound lock, whatever its destroy functions answer. -/
theorem sound_del (a : DelAnswers) (h : Sound base s) :
    Ends (fun _ => Sound base) (bfSysRwMutexLockDel a) s := by
  unfold bfSysRwMutexLockDel
  refine Ends.get ?_
  by_cases hv : s.data.valid = 1
  · have hmutex := h.mutex hv
    rw [if_neg (not_not.mpr hv)]
    refine Ends.use hmutex ?_
    by_cases hb : delBusy s.data
    · rw [if_pos hb]
      exact Ends.use hmutex (Ends.pure h)
    · rw [if_neg hb]
      refine Ends.setData (Ends.use hmutex ?_)
      refine ends_destroy (h.opened hv) fun _ _ hown => ends_free hown fun _ hown => ?_
      refine ends_destroy hown fun _ _ hown => ends_free hown fun _ hown => ?_
      refine ends_destroy hown fun _ _ hown => ends_free hown fun _ hown => ?_
      exact Ends.pure (sound_closed (show (0 : ℤ) ≠ 1 from zero_ne_one) hown)
  · rw [if_pos hv]
    exact Ends.pure h

/-- A wait uses objects of the lock. -/
theorem waitObjs_subset (m : Mode) (l : RwMutexLock) (x : Exit) :
    ∀ o ∈ m.waitObjs l x, o ∈ objects l := by
  cases x <;> cases m <;> simp [Mode.waitObjs, Mode.cond, objects]

/-- A wake-up call uses objects of the lock. -/
theorem wakeObjs_subset (l : RwMutexLock) (w : Wake) : ∀ o ∈ wakeObjs l w, o ∈ objects l := by
  cases w <;> simp [wakeObjs, objects]

/-- By induction on the waits: each section behind a wait only moves the counters. -/
theorem sound_leaveOrWait (m : Mode) (waits : List ℤ) (x : Exit) (h : Sound base s)
    (hv : s.data.valid = 1) : Ends (fun _ => Sound base) (leaveOrWait int m waits x) s := by
  have hwait : ∀ o ∈ m.waitObjs s.data .wait, s.heap o.1 = o.2 := fun o ho =>
    h.held hv o (waitObjs_subset m s.data .wait o ho)
  induction waits generalizing s x with
  | nil =>
      cases x with
      | unlock status => exact Ends.get (Ends.use (h.mutex hv) (Ends.pure h))
      | wait => exact Ends.get (ends_useAll hwait (Ends.throw (by decide)))
  | cons status waits ih =>
      cases x with
      | unlock status => exact Ends.get (Ends.use (h.mutex hv) (Ends.pure h))
      | wait =>
          refine Ends.get (ends_useAll hwait (ends_section ?_))
          have hl : SameObjs s.data _ := (m.resume_spec int s.data status).1
          have h' := h.sameObjs hl
          have hv' := hl.2.2.2.trans hv
          exact ih _ h' hv' fun o ho => h'.held hv' o (waitObjs_subset m _ .wait o ho)

/-- `rdlock` and `wrlock` leave a sound lock, whatever their waits answer. -/
theorem sound_acquire (m : Mode) (waits : List ℤ) (h : Sound base s) :
    Ends (fun _ => Sound base) (acquire int m waits) s := by
  unfold acquire
  refine Ends.get ?_
  by_cases hv : s.data.valid = 1
  · rw [if_neg (not_not.mpr hv)]
    refine Ends.use (h.mutex hv) (ends_section ?_)
    have hl : SameObjs s.data _ := (m.enter_spec int s.data).1
    exact sound_leaveOrWait m waits _ (h.sameObjs hl) (hl.2.2.2.trans hv)
  · rw [if_pos hv]
    exact Ends.pure h

/-- `rdunlock` and `wrunlock` leave a sound lock. -/
theorem sound_surrender {locked : RwMutexLock → RwMutexLock × Wake}
    (hl : ∀ l, SameObjs l (locked l).1) (status2 : ℤ) (h : Sound base s) :
    Ends (fun _ => Sound base) (surrender locked status2) s := by
  unfold surrender
  refine Ends.get ?_
  by_cases hv : s.data.valid = 1
  · rw [if_neg (not_not.mpr hv)]
    refine Ends.use (h.mutex hv) (ends_section (ends_useAll ?_ ?_))
    · exact fun o ho => h.held hv o (wakeObjs_subset _ _ o ho)
    · exact Ends.use (h.mutex hv) (Ends.pure (h.sameObjs (hl s.data)))
  · rw [if_pos hv]
    exact Ends.pure h

/-- Every call leaves a sound lock. -/
theorem sound_call (c : Call) (h : Sound base s) : Ends (fun _ => Sound base) (c.exec int) s := by
  cases c with
  | init a => exact sound_init a h
  | del a => exact sound_del a h
  | rdlock waits => exact sound_acquire .rd waits h
  | wrlock waits => exact sound_acquire .wr waits h
  | rdunlock status2 => exact sound_surrender (fun _ => ⟨rfl, rfl, rfl, rfl⟩) status2 h
  | wrunlock status2 => exact sound_surrender (fun _ => ⟨rfl, rfl, rfl, rfl⟩) status2 h

/-- A lock that is not valid is not taken. -/
theorem acquire_invalid {m : Mode} {waits : List ℤ} (hv : s.data.valid ≠ 1) :
    (acquire int m waits).run s = .ok (EINVAL, s) := by
  rw [acquire, run_get, if_pos hv]
  rfl

/-- A lock that is not valid is not given back. -/
theorem surrender_invalid {locked : RwMutexLock → RwMutexLock × Wake} {status2 : ℤ}
    (hv : s.data.valid ≠ 1) : (surrender locked status2).run s = .ok (EINVAL, s) := by
  rw [surrender, run_get, if_pos hv]
  rfl

/-- A call that is refused gives its error and changes nothing. -/
theorem exec_refused {c : Call} {e : ℤ} (h : Sound base s) (hc : c.refusal s.data = some e) :
    (c.exec int).run s = .ok (e, s) := by
  cases c with
  | init a =>
      obtain ⟨hv, rfl⟩ : s.data.valid = 1 ∧ EBUSY = e := by simpa [Call.refusal] using hc
      rw [Call.exec, bfSysRwMutexLockInit, run_get, if_pos hv]
      rfl
  | del a =>
      by_cases hv : s.data.valid = 1
      · obtain ⟨hb, rfl⟩ : delBusy s.data ∧ EBUSY = e := by simpa [Call.refusal, hv] using hc
        -- `EBUSY` is returned behind the lock and unlock of the mutex
        have hmutex := h.mutex hv
        rw [Call.exec, bfSysRwMutexLockDel, run_get, if_neg (not_not.mpr hv), pthreadMutexLock,
          run_use hmutex, if_pos hb, pthreadMutexUnlock, run_use hmutex]
        rfl
      · obtain rfl : EINVAL = e := by simpa [Call.refusal, hv] using hc
        rw [Call.exec, bfSysRwMutexLockDel, run_get, if_pos hv]
        rfl
  | rdlock waits =>
      obtain ⟨hv, rfl⟩ : s.data.valid ≠ 1 ∧ EINVAL = e := by simpa [Call.refusal] using hc
      exact acquire_invalid hv
  | wrlock waits =>
      obtain ⟨hv, rfl⟩ : s.data.valid ≠ 1 ∧ EINVAL = e := by simpa [Call.refusal] using hc
      exact acquire_invalid hv
  | rdunlock status2 =>
      obtain ⟨hv, rfl⟩ : s.data.valid ≠ 1 ∧ EINVAL = e := by simpa [Call.refusal] using hc
      exact surrender_invalid hv
  | wrunlock status2 =>
      obtain ⟨hv, rfl⟩ : s.data.valid ≠ 1 ∧ EINVAL = e := by simpa [Call.refusal] using hc
      exact surrender_invalid hv

end Sound

/-! ## Histories keep the lock sound -/

/-- The invariant of all histories. -/
theorem sound_reachable {int : ℤ → ℤ} {base : ℕ → Cell} {s : State}
    (h : Reachable (Step int) ⟨zeroed, base⟩ s) : Sound base s := by
  refine h.invariant (fun _ _ _ hs hstep => (sound_call _ hs).of_ok hstep) ?_
  exact sound_closed (show (0 : ℤ) ≠ 1 from zero_ne_one) Owns.nil

/-- The life cycle of a lock that starts as a structure of zeros, over every history of calls and
every pattern of failures. The heap `base` is what the rest of the program uses. -/
theorem rwMutexLock_lifeCycle (int : ℤ → ℤ) (base : ℕ → Cell) {calls : List (Call × ℤ)} {s : State}
    (h : Run (Step int) ⟨zeroed, base⟩ calls s) :
    (∀ c : Call, (c.exec int).run s ≠ .error .fault) ∧
    (if s.data.valid = 1 then Owns .free base (objects s.data) s.heap else s.heap = base) ∧
    ∀ (c : Call) (e : ℤ), c.refusal s.data = some e → (c.exec int).run s = .ok (e, s) := by
  have hs : Sound base s := sound_reachable ⟨calls, h⟩
  refine ⟨fun c => (sound_call c hs).no_fault, ?_, fun c e hc => exec_refused hs hc⟩
  split_ifs with hv
  · exact hs.opened hv
  · exact (hs.closed hv).eq_base

/-- The calls of a history that returns make a run. -/
theorem run_history {int : ℤ → ℤ} {calls : List Call} {rets : List ℤ} {s s' : State}
    (h : history int calls s = .ok (rets, s')) : Run (Step int) s (calls.zip rets) s' := by
  induction calls generalizing rets s with
  | nil =>
      obtain ⟨rfl, rfl⟩ : [] = rets ∧ s = s' := by simpa [history, pure, Except.pure] using h
      exact Run.nil s
  | cons c calls ih =>
      rw [history] at h
      cases hc : (c.exec int).run s with
      | error e => simp [hc, bind, Except.bind] at h
      | ok r =>
          cases hh : history int calls r.2 with
          | error e => simp [hc, hh, bind, Except.bind] at h
          | ok q =>
              obtain ⟨rfl, rfl⟩ : r.1 :: q.1 = rets ∧ q.2 = s' := by
                simpa [hc, hh, bind, Except.bind, pure, Except.pure] using h
              exact Run.cons hc (ih hh)

/-- A history through an `init` that fails at its last step, one that succeeds, a `del` of a lock in
use, a `del` whose destroys fail, and a call on what is left. -/
theorem rwMutexLock_lifeCycle_failures :
    ∃ s, Run (Step int32) ⟨zeroed, fun _ => .free⟩
        [(.init ⟨8, 0, 16, 0, 24, 12, 16, 0⟩, 16), (.init ⟨24, 0, 8, 0, 16, 0, 0, 0⟩, 0),
          (.rdlock [], 0), (.del ⟨0, 0, 0⟩, EBUSY), (.rdunlock 0, 0), (.del ⟨16, 0, 16⟩, 16),
          (.wrlock [], EINVAL)] s ∧
      ∀ c : Call, (c.exec int32).run s ≠ .error .fault := by
  obtain ⟨s, hs⟩ : ∃ s, history int32 [.init ⟨8, 0, 16, 0, 24, 12, 16, 0⟩,
      .init ⟨24, 0, 8, 0, 16, 0, 0, 0⟩, .rdlock [], .del ⟨0, 0, 0⟩, .rdunlock 0, .del ⟨16, 0, 16⟩,
      .wrlock []] ⟨zeroed, fun _ => .free⟩ = .ok ([16, 0, 0, 16, 0, 16, 22], s) := ⟨_, rfl⟩
  exact ⟨s, run_history hs, (rwMutexLock_lifeCycle int32 _ (run_history hs)).1⟩

end TargetSys.RwLock.LifeCycle
