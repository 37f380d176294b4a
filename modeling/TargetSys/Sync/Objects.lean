import TargetSys.Common.Ownership
import TargetSys.Common.Transition

/-!
# The objects of `bf_sys_sem.c`

Reference: `src/bf_sal/linux_usr/bf_sys_sem.c`, `include/target-sys/bf_sal/bf_sys_sem.h`.

A mutex, recursive mutex, condition, semaphore or rw lock of this library is a variable of the caller
that points to a block with the pthread object. Each function is a program over all such variables and
the heap; what `malloc` and the pthread functions answer is part of the call.

The five `init` functions treat a failure differently. `bf_sys_cond_init` and `bf_sys_sem_init` free
the block, and only `bf_sys_sem_init` clears the variable too. `bf_sys_mutex_init`,
`bf_sys_rmutex_init` and `bf_sys_rwlock_init` keep the block and return the error. Among the functions
that delete, `bf_sys_rwlock_del` alone leaves the pointer in the variable.

The attribute objects on the stack, and the times and the sharing that the calls pass on, decide
nothing here.
-/

namespace TargetSys.Sync

open Ownership

/-- The types `bf_sys_mutex_t`, `bf_sys_rmutex_t`, `bf_sys_cond_t`, `bf_sys_sem_t` and
`bf_sys_rwlock_t`. -/
inductive Kind
  | mutex
  | rmutex
  | cond
  | sem
  | rwlock
deriving DecidableEq, Repr

/-- What is at an address: no block, a block, or a block with an object in it. -/
inductive Cell
  | free
  | raw
  | obj (k : Kind)
deriving DecidableEq, Repr

/-- A variable of the caller. -/
structure Handle (ι : Type) where
  kind : Kind
  id : ι
deriving DecidableEq

variable {ι : Type}

/-- The pointers in the variables, and the heap. -/
abbrev State (ι : Type) := Mem (Handle ι → ℕ) Cell

/-- A call on some of the variables. -/
abbrev SyncProg (ι : Type) := Prog (Handle ι → ℕ) Cell

/-! ## The functions that are called -/

/-- `bf_sys_malloc`, answering `p`. -/
def bfSysMalloc (p : ℕ) : SyncProg ι ℕ := alloc .free .raw p

/-- `bf_sys_free`. -/
def bfSysFree (p : ℕ) : SyncProg ι Unit := release .free p

/-- An init function of pthread or `sem_init`: it makes a block an object, or answers an error. -/
def objectInit (k : Kind) (p : ℕ) (status : ℤ) : SyncProg ι ℤ := attempt .raw (.obj k) p status

/-- A destroy function of pthread or `sem_destroy`: it ends an object, or answers an error. -/
def objectDestroy (k : Kind) (p : ℕ) (status : ℤ) : SyncProg ι ℤ := attempt (.obj k) .raw p status

/-- The pointer in the variable. -/
def load (h : Handle ι) : SyncProg ι ℕ := return (← get).data h

/-- A call reads its variable. -/
theorem run_load {α : Type} {h : Handle ι} {k : ℕ → SyncProg ι α} {s : State ι} :
    (load h >>= k).run s = (k (s.data h)).run s := rfl

/-- The rule for reading a variable. -/
theorem ends_load {α : Type} {Q : α → State ι → Prop} {h : Handle ι} {k : ℕ → SyncProg ι α}
    {s : State ι} (next : Ends Q (k (s.data h)) s) : Ends Q (load h >>= k) s := next

variable [DecidableEq ι]

/-- A pointer is stored in the variable. -/
def store (h : Handle ι) (p : ℕ) : SyncProg ι Unit := setData fun v => Function.update v h p

/-! ## `init` -/

/-- What `malloc` and the init function of the object answer. -/
structure InitAnswers where
  block : ℕ
  init : ℤ

/-- The block goes into the variable before it is looked at. -/
def initStored (k : Kind) (v : ι) (a : InitAnswers) : SyncProg ι ℤ := do
  let p ← bfSysMalloc a.block
  store ⟨k, v⟩ p
  if p = 0 then return -1
  objectInit k p a.init

def bfSysMutexInit (v : ι) (a : InitAnswers) : SyncProg ι ℤ := initStored .mutex v a

def bfSysRwlockInit (v : ι) (a : InitAnswers) : SyncProg ι ℤ := initStored .rwlock v a

def bfSysRmutexInit (v : ι) (a : InitAnswers) : SyncProg ι ℤ := do
  let m ← bfSysMalloc a.block
  if m = 0 then return -1
  store ⟨.rmutex, v⟩ m
  objectInit .rmutex m a.init

def bfSysCondInit (v : ι) (a : InitAnswers) : SyncProg ι ℤ := do
  let cv ← bfSysMalloc a.block
  if cv = 0 then return -1
  let x ← objectInit .cond cv a.init
  if x ≠ 0 then
    bfSysFree cv
    return -1
  store ⟨.cond, v⟩ cv
  return 0

def bfSysSemInit (v : ι) (a : InitAnswers) : SyncProg ι ℤ := do
  let semaphore ← bfSysMalloc a.block
  if semaphore = 0 then return -1
  let x ← objectInit .sem semaphore a.init
  if x ≠ 0 then
    bfSysFree semaphore
    store ⟨.sem, v⟩ 0
    return -1
  store ⟨.sem, v⟩ semaphore
  return 0

/-! ## `del` -/

/-- An object that cannot be destroyed stays, with its error or `-1`; any other is freed, and the
variable cleared. -/
def delCleared (k : Kind) (error : ℤ → ℤ) (v : ι) (status : ℤ) : SyncProg ι ℤ := do
  let err ← objectDestroy k (← load ⟨k, v⟩) status
  if err ≠ 0 then return error err
  bfSysFree (← load ⟨k, v⟩)
  store ⟨k, v⟩ 0
  return 0

def bfSysMutexDel (v : ι) (status : ℤ) : SyncProg ι ℤ := delCleared .mutex id v status

def bfSysRmutexDel (v : ι) (status : ℤ) : SyncProg ι ℤ := delCleared .rmutex id v status

def bfSysCondDel (v : ι) (status : ℤ) : SyncProg ι ℤ := delCleared .cond (fun _ => -1) v status

def bfSysSemDestroy (v : ι) (status : ℤ) : SyncProg ι ℤ := delCleared .sem (fun _ => -1) v status

/-- The variable keeps its pointer. -/
def bfSysRwlockDel (v : ι) (status : ℤ) : SyncProg ι ℤ := do
  let err ← objectDestroy .rwlock (← load ⟨.rwlock, v⟩) status
  if err ≠ 0 then return err
  bfSysFree (← load ⟨.rwlock, v⟩)
  return 0

omit [DecidableEq ι] in
/-- A `bf_sys_rwlock_del` that succeeds frees the block and keeps the pointer to it. -/
theorem run_rwlockDel {v : ι} {status : ℤ} {s : State ι}
    (hobj : s.heap (s.data ⟨.rwlock, v⟩) = .obj .rwlock) :
    (bfSysRwlockDel v status).run s =
      if status = 0 then
        (do bfSysFree (s.data ⟨.rwlock, v⟩); return 0 : SyncProg ι ℤ).run
          ⟨s.data, Function.update s.heap (s.data ⟨.rwlock, v⟩) .raw⟩
      else .ok (status, s) := by
  refine run_load.trans ((run_attempt hobj).trans ?_)
  split
  case isTrue => exact run_load
  case isFalse => rfl

/-! ## The other functions

Each hands its object to one function and returns what that returns. -/

/-- A function on the object of a variable, answering `status`. -/
def useObject (k : Kind) (v : ι) (status : ℤ) : SyncProg ι ℤ := do
  use (.obj k) (← load ⟨k, v⟩)
  return status

def bfSysMutexLock : ι → ℤ → SyncProg ι ℤ := useObject .mutex

def bfSysMutexTrylock : ι → ℤ → SyncProg ι ℤ := useObject .mutex

def bfSysMutexTimedlock : ι → ℤ → SyncProg ι ℤ := useObject .mutex

def bfSysMutexUnlock : ι → ℤ → SyncProg ι ℤ := useObject .mutex

def bfSysRmutexLock : ι → ℤ → SyncProg ι ℤ := useObject .rmutex

def bfSysRmutexTrylock : ι → ℤ → SyncProg ι ℤ := useObject .rmutex

def bfSysRmutexUnlock : ι → ℤ → SyncProg ι ℤ := useObject .rmutex

def bfSysCondWake : ι → ℤ → SyncProg ι ℤ := useObject .cond

def bfSysCondBroadcast : ι → ℤ → SyncProg ι ℤ := useObject .cond

def bfSysSemWait : ι → ℤ → SyncProg ι ℤ := useObject .sem

def bfSysSemTrywait : ι → ℤ → SyncProg ι ℤ := useObject .sem

def bfSysSemPost : ι → ℤ → SyncProg ι ℤ := useObject .sem

def bfSysRwlockRdlock : ι → ℤ → SyncProg ι ℤ := useObject .rwlock

def bfSysRwlockTryrdlock : ι → ℤ → SyncProg ι ℤ := useObject .rwlock

def bfSysRwlockTimedrdlock : ι → ℤ → SyncProg ι ℤ := useObject .rwlock

def bfSysRwlockWrlock : ι → ℤ → SyncProg ι ℤ := useObject .rwlock

def bfSysRwlockTrywrlock : ι → ℤ → SyncProg ι ℤ := useObject .rwlock

def bfSysRwlockTimedwrlock : ι → ℤ → SyncProg ι ℤ := useObject .rwlock

def bfSysRwlockUnlock : ι → ℤ → SyncProg ι ℤ := useObject .rwlock

def bfSysCondWait (c m : ι) (status : ℤ) : SyncProg ι ℤ := do
  let cv ← load ⟨.cond, c⟩
  let mtx ← load ⟨.mutex, m⟩
  use (.obj .cond) cv
  use (.obj .mutex) mtx
  return status

/-! ## Calls -/

/-- A function that hands one object on. -/
inductive Op
  | mutexLock
  | mutexTrylock
  | mutexTimedlock
  | mutexUnlock
  | rmutexLock
  | rmutexTrylock
  | rmutexUnlock
  | condWake
  | condBroadcast
  | semWait
  | semTrywait
  | semPost
  | rwlockRdlock
  | rwlockTryrdlock
  | rwlockTimedrdlock
  | rwlockWrlock
  | rwlockTrywrlock
  | rwlockTimedwrlock
  | rwlockUnlock
deriving DecidableEq, Repr

def Op.exec : Op → ι → ℤ → SyncProg ι ℤ
  | .mutexLock => bfSysMutexLock
  | .mutexTrylock => bfSysMutexTrylock
  | .mutexTimedlock => bfSysMutexTimedlock
  | .mutexUnlock => bfSysMutexUnlock
  | .rmutexLock => bfSysRmutexLock
  | .rmutexTrylock => bfSysRmutexTrylock
  | .rmutexUnlock => bfSysRmutexUnlock
  | .condWake => bfSysCondWake
  | .condBroadcast => bfSysCondBroadcast
  | .semWait => bfSysSemWait
  | .semTrywait => bfSysSemTrywait
  | .semPost => bfSysSemPost
  | .rwlockRdlock => bfSysRwlockRdlock
  | .rwlockTryrdlock => bfSysRwlockTryrdlock
  | .rwlockTimedrdlock => bfSysRwlockTimedrdlock
  | .rwlockWrlock => bfSysRwlockWrlock
  | .rwlockTrywrlock => bfSysRwlockTrywrlock
  | .rwlockTimedwrlock => bfSysRwlockTimedwrlock
  | .rwlockUnlock => bfSysRwlockUnlock

/-- The type of the variable that a function takes. -/
def Op.kind : Op → Kind
  | .mutexLock | .mutexTrylock | .mutexTimedlock | .mutexUnlock => .mutex
  | .rmutexLock | .rmutexTrylock | .rmutexUnlock => .rmutex
  | .condWake | .condBroadcast => .cond
  | .semWait | .semTrywait | .semPost => .sem
  | .rwlockRdlock | .rwlockTryrdlock | .rwlockTimedrdlock | .rwlockWrlock | .rwlockTrywrlock
  | .rwlockTimedwrlock | .rwlockUnlock => .rwlock

omit [DecidableEq ι] in
/-- Each hands its object on. -/
theorem Op.exec_eq (f : Op) (v : ι) (status : ℤ) :
    f.exec v status = useObject f.kind v status := by
  cases f <;> rfl

/-- A call, with what its environment answers. -/
inductive Call (ι : Type)
  | init (h : Handle ι) (a : InitAnswers)
  | del (h : Handle ι) (status : ℤ)
  | op (f : Op) (v : ι) (status : ℤ)
  | condWait (c m : ι) (status : ℤ)

/-- The function that is called. -/
def Call.exec : Call ι → SyncProg ι ℤ
  | .init ⟨.mutex, v⟩ a => bfSysMutexInit v a
  | .init ⟨.rmutex, v⟩ a => bfSysRmutexInit v a
  | .init ⟨.cond, v⟩ a => bfSysCondInit v a
  | .init ⟨.sem, v⟩ a => bfSysSemInit v a
  | .init ⟨.rwlock, v⟩ a => bfSysRwlockInit v a
  | .del ⟨.mutex, v⟩ status => bfSysMutexDel v status
  | .del ⟨.rmutex, v⟩ status => bfSysRmutexDel v status
  | .del ⟨.cond, v⟩ status => bfSysCondDel v status
  | .del ⟨.sem, v⟩ status => bfSysSemDestroy v status
  | .del ⟨.rwlock, v⟩ status => bfSysRwlockDel v status
  | .op f v status => f.exec v status
  | .condWait c m status => bfSysCondWait c m status

/-- A call that returns, with the value it returns. -/
def Step (s : State ι) (e : Call ι × ℤ) (s' : State ι) : Prop := e.1.exec.run s = .ok (e.2, s')

end TargetSys.Sync
