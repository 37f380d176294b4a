import TargetSys.Sync.Objects

/-!
# The life cycle of mutexes, conditions, semaphores and rw locks

Reference: `src/bf_sal/linux_usr/bf_sys_sem.c`, `include/target-sys/bf_sal/bf_sys_sem.h`.

The calls come in any order on any number of variables, with any pattern of failures. An observer
sees what the calls return, and keeps account of two things: the variables whose object is *live*
because its `init` returned 0 and no `del` has since, and the blocks that are *leaked* by an `init`
that failed behind its `malloc`. The callers keep the discipline that the header takes for granted:
`init` on variables without a live object, all other calls on variables with one.

## Main results

* `bfSysSem_lifeCycle`: under the discipline no call touches what is not there, and the heap is, at
  every time, the heap of the others with the live objects and the leaked blocks on top.
* `bfSysSem_staleCall`: a call on a variable without a live object always faults, except that on an
  `rwlock` it is served if another `rwlock` has got the block since.
-/

namespace TargetSys.Sync

open Transition Ownership

variable {ι : Type}

/-! ## The account -/

/-- The variables with a live object, and the blocks that are leaked. -/
structure Observer (ι : Type) where
  live : List (Handle ι)
  leaked : List ℕ

/-- Nothing is live, nothing leaked. -/
def Observer.start : Observer ι := ⟨[], []⟩

/-- The `init` function keeps its block when the object cannot be made. -/
def Kind.keepsBlock : Kind → Bool
  | .mutex | .rmutex | .rwlock => true
  | .cond | .sem => false

/-- The object of a variable. -/
def object (data : Handle ι → ℕ) (h : Handle ι) : ℕ × Cell := (data h, .obj h.kind)

/-- All that the calls have taken from the heap. -/
def Observer.ledger (o : Observer ι) (data : Handle ι → ℕ) : List (ℕ × Cell) :=
  o.live.map (object data) ++ o.leaked.map fun p => (p, .raw)

/-- The variables that a call expects to have an object. -/
def Call.uses : Call ι → List (Handle ι)
  | .init _ _ => []
  | .del h _ => [h]
  | .op f v _ => [⟨f.kind, v⟩]
  | .condWait c m _ => [⟨.cond, c⟩, ⟨.mutex, m⟩]

/-- The same call on another variable. -/
def Call.onto (h' : Handle ι) : Call ι → Call ι
  | .del _ status => .del h' status
  | .op f _ status => .op f h'.id status
  | c => c

/-- The calls on an `rwlock`. -/
theorem Call.of_rwlock {c : Call ι} {h : Handle ι} (hc : h ∈ c.uses) (hk : h.kind = .rwlock) :
    (∃ status, c = .del h status) ∨ ∃ f status, f.kind = .rwlock ∧ c = .op f h.id status := by
  cases c with
  | init h a => cases hc
  | del h' status =>
      obtain rfl : h = h' := by simpa [Call.uses] using hc
      exact .inl ⟨status, rfl⟩
  | op f v status =>
      obtain rfl : h = ⟨f.kind, v⟩ := by simpa [Call.uses] using hc
      exact .inr ⟨f, status, hk, rfl⟩
  | condWait c m status =>
      obtain rfl | rfl : h = ⟨.cond, c⟩ ∨ h = ⟨.mutex, m⟩ := by simpa [Call.uses] using hc
      · cases hk
      · cases hk

/-- The discipline of the callers. -/
def Observer.Allows (o : Observer ι) : Call ι → Prop
  | .init h _ => h ∉ o.live
  | c => ∀ h ∈ c.uses, h ∈ o.live

namespace Observer

variable {o : Observer ι} {h : Handle ι} {data : Handle ι → ℕ} {p : ℕ}

/-- A leaked block stands in the ledger as raw memory. -/
theorem ledger_leak :
    ((p, Cell.raw) :: o.ledger data).Perm
      (({ o with leaked := p :: o.leaked } : Observer ι).ledger data) :=
  List.perm_middle.symm

/-- A call on another `rwlock` is allowed if that is live. -/
theorem allows_onto {c : Call ι} {h' : Handle ι} (hc : h ∈ c.uses) (hk : h.kind = .rwlock)
    (hk' : h'.kind = .rwlock) (hh' : h' ∈ o.live) : o.Allows (c.onto h') := by
  obtain ⟨status, rfl⟩ | ⟨f, status, hf, rfl⟩ := Call.of_rwlock hc hk
  · exact List.forall_mem_singleton.mpr hh'
  · refine List.forall_mem_singleton.mpr ?_
    rwa [hf, ← hk']

/-- A live object stands in the ledger. -/
theorem mem_ledger (hh : h ∈ o.live) : (data h, .obj h.kind) ∈ o.ledger data :=
  List.mem_append_left _ (List.mem_map_of_mem hh)

/-- An object of the ledger is that of a live variable. -/
theorem mem_ledger_obj {k : Kind} (h : (p, .obj k) ∈ o.ledger data) :
    ∃ h' ∈ o.live, h'.kind = k ∧ data h' = p := by
  rcases List.mem_append.mp h with hm | hm
  · obtain ⟨h', hh', heq⟩ := List.mem_map.mp hm
    obtain ⟨rfl, hk⟩ : data h' = p ∧ Cell.obj h'.kind = .obj k := Prod.ext_iff.mp heq
    exact ⟨h', hh', Cell.obj.inj hk, rfl⟩
  · obtain ⟨q, -, heq⟩ := List.mem_map.mp hm
    exact absurd (congrArg Prod.snd heq) (by simp)

end Observer

/-! ## The invariant -/

/-- What a variable without a live object may point to: to nothing, to a leaked block, or, in an
`rwlock`, to a block that was its own. -/
def Stale (base : ℕ → Cell) (o : Observer ι) (h : Handle ι) (p : ℕ) : Prop :=
  p = 0 ∨ p ∈ o.leaked ∨ h.kind = .rwlock ∧ base p = .free

/-- The account is right: on top of `base` the heap holds just what is in the ledger. A variable
without an object is as it was at the start, or stale. -/
structure Sound (start : Handle ι → ℕ) (base : ℕ → Cell) (o : Observer ι) (s : State ι) : Prop where
  nodup : o.live.Nodup
  owns : Owns .free base (o.ledger s.data) s.heap
  nonnull : ∀ e ∈ o.ledger s.data, e.1 ≠ 0
  stale : ∀ h ∉ o.live, s.data h = start h ∨ Stale base o h (s.data h)

/-- Both variables are `rwlock`s that point to the same block. -/
def Shares (s : State ι) (h h' : Handle ι) : Prop :=
  h.kind = .rwlock ∧ h'.kind = .rwlock ∧ s.data h' = s.data h

namespace Sound

variable {start : Handle ι → ℕ} {base heap : ℕ → Cell} {o : Observer ι} {s : State ι}
  {h : Handle ι} {p : ℕ}

/-- A live object is where its variable points. -/
theorem held (hs : Sound start base o s) (hh : h ∈ o.live) : s.heap (s.data h) = .obj h.kind :=
  hs.owns.held _ (Observer.mem_ledger hh)

/-- A block is leaked. -/
theorem leak (hs : Sound start base o s) (hp : p ≠ 0)
    (hown : Owns .free base ((p, .raw) :: o.ledger s.data) heap) :
    Sound start base { o with leaked := p :: o.leaked } ⟨s.data, heap⟩ where
  nodup := hs.nodup
  owns := hown.perm Observer.ledger_leak
  nonnull := by
    intro e he
    rcases List.mem_cons.mp (Observer.ledger_leak.mem_iff.mpr he) with rfl | he
    · exact hp
    · exact hs.nonnull e he
  stale := by
    intro h' hh'
    rcases hs.stale h' hh' with hst | hst | hst | hst
    · exact .inl hst
    · exact .inr (.inl hst)
    · exact .inr (.inr (.inl (List.mem_cons_of_mem _ hst)))
    · exact .inr (.inr (.inr hst))

/-- What a variable without an object points to is an object of its type only if it shares the block
of a live variable. -/
theorem heap_stale (hs : Sound (fun _ => 0) base o s) (hnull : base 0 = .free)
    (hd : h ∉ o.live) :
    s.heap (s.data h) = .obj h.kind ↔ ∃ h' ∈ o.live, Shares s h h' := by
  constructor
  · intro hobj
    have hzero : s.data h ≠ 0 := by
      intro h0
      have hheap : s.heap 0 = base 0 := hs.owns.other 0 fun hm => by
        obtain ⟨e, he, he0⟩ := List.mem_map.mp hm
        exact hs.nonnull e he he0
      rw [h0, hheap, hnull] at hobj
      cases hobj
    rcases hs.stale h hd with h0 | h0 | hl | ⟨hk, hfree⟩
    · exact absurd h0 hzero
    · exact absurd h0 hzero
    · have hraw := hs.owns.held (s.data h, .raw)
        (List.mem_append_right _ (List.mem_map_of_mem (f := fun p => (p, Cell.raw)) hl))
      rw [hobj] at hraw
      cases hraw
    · -- the block is in use again
      have hm : s.data h ∈ (o.ledger s.data).map Prod.fst := by
        by_contra hn
        rw [hs.owns.other _ hn, hfree] at hobj
        cases hobj
      obtain ⟨⟨p, c⟩, he, rfl⟩ := List.mem_map.mp hm
      obtain rfl : Cell.obj h.kind = c := hobj.symm.trans (hs.owns.held _ he)
      obtain ⟨h', hh', hk', hp⟩ := Observer.mem_ledger_obj he
      exact ⟨h', hh', hk, hk'.trans hk, hp⟩
  · rintro ⟨h', hh', hk, hk', hp⟩
    rw [← hp, hs.held hh', hk, hk']

end Sound

variable [DecidableEq ι]

/-! ## What the calls change -/

/-- What a call that returns `ret` adds to the account. -/
def Observer.next (o : Observer ι) : Call ι × ℤ → Observer ι
  | (.init h a, ret) =>
      if ret = 0 then { o with live := h :: o.live }
      else if h.kind.keepsBlock ∧ a.block ≠ 0 then { o with leaked := a.block :: o.leaked }
      else o
  | (.del h _, ret) => if ret = 0 then { o with live := o.live.erase h } else o
  | _ => o

/-- A call that returns, beside the observer. -/
def Observed (x : State ι × Observer ι) (e : Call ι × ℤ) (y : State ι × Observer ι) : Prop :=
  Step x.1 e y.1 ∧ y.2 = x.2.next e

/-- A call that the discipline allows. -/
def Disciplined : State ι × Observer ι → Call ι × ℤ → State ι × Observer ι → Prop :=
  Guarded Observed fun x e => x.2.Allows e.1

instance (o : Observer ι) (c : Call ι) : Decidable (o.Allows c) :=
  match c with
  | .init h _ => inferInstanceAs (Decidable (h ∉ o.live))
  | .del h _ => inferInstanceAs (Decidable (∀ h' ∈ [h], h' ∈ o.live))
  | .op f v _ => inferInstanceAs (Decidable (∀ h ∈ [⟨f.kind, v⟩], h ∈ o.live))
  | .condWait c m _ => inferInstanceAs (Decidable (∀ h ∈ [⟨.cond, c⟩, ⟨.mutex, m⟩], h ∈ o.live))

namespace Observer

variable {o : Observer ι} {h : Handle ι} {data : Handle ι → ℕ} {a : InitAnswers} {p : ℕ} {ret : ℤ}

/-- A failed `init` of the kind that keeps its block leaks it. -/
theorem next_init_kept (hret : ret ≠ 0) (hk : h.kind.keepsBlock) (hp : a.block ≠ 0) :
    o.next (.init h a, ret) = { o with leaked := a.block :: o.leaked } := by
  rw [next, if_neg hret, if_pos ⟨hk, hp⟩]

/-- An `init` without memory adds nothing. -/
theorem next_init_null (hret : ret ≠ 0) (hp : a.block = 0) : o.next (.init h a, ret) = o := by
  rw [next, if_neg hret, if_neg fun hk => hk.2 hp]

/-- A failed `init` of the kind that frees its block adds nothing. -/
theorem next_init_freed (hret : ret ≠ 0) (hk : h.kind.keepsBlock = false) :
    o.next (.init h a, ret) = o := by
  rw [next, if_neg hret, if_neg (by simp [hk])]

/-- A failed `del` takes nothing away. -/
theorem next_del_failed {status : ℤ} (hret : ret ≠ 0) : o.next (.del h status, ret) = o := by
  rw [next, if_neg hret]

/-- A variable without an object is not in the ledger. -/
theorem ledger_update (hd : h ∉ o.live) : o.ledger (Function.update data h p) = o.ledger data := by
  have hobj : ∀ h' ∈ o.live, object (Function.update data h p) h' = object data h' := by
    intro h' hh'
    rw [object, Function.update_of_ne (ne_of_mem_of_not_mem hh' hd)]
    rfl
  rw [ledger, ledger, List.map_congr_left hobj]

/-- The new object is added to the ledger. -/
theorem ledger_init (hd : h ∉ o.live) :
    ({ o with live := h :: o.live } : Observer ι).ledger (Function.update data h p) =
      (p, .obj h.kind) :: o.ledger data := by
  rw [← ledger_update hd (p := p), ledger, List.map_cons, List.cons_append, object,
    Function.update_self]
  rfl

/-- The object of the variable is taken from the ledger. -/
theorem ledger_del (hh : h ∈ o.live) :
    (o.ledger data).Perm
      ((data h, .obj h.kind) :: ({ o with live := o.live.erase h } : Observer ι).ledger data) :=
  ((List.perm_cons_erase hh).map (object data)).append_right _

end Observer

namespace Sound

variable {start : Handle ι → ℕ} {base heap : ℕ → Cell} {o : Observer ι} {s : State ι}
  {h : Handle ι} {p : ℕ}

/-- A variable that is given a stale pointer is stale, and the others are as before. -/
theorem stale_update (hs : Sound start base o s) (hp : Stale base o h p) (h' : Handle ι)
    (hd : h' ≠ h → h' ∉ o.live) :
    Function.update s.data h p h' = start h' ∨ Stale base o h' (Function.update s.data h p h') := by
  by_cases heq : h' = h
  · subst heq
    rw [Function.update_self]
    exact .inr hp
  · rw [Function.update_of_ne heq]
    exact hs.stale h' (hd heq)

/-- A variable without an object gets a stale pointer. -/
theorem store (hs : Sound start base o s) (hd : h ∉ o.live) (hp : Stale base o h p)
    (hown : Owns .free base (o.ledger s.data) heap) :
    Sound start base o ⟨Function.update s.data h p, heap⟩ where
  nodup := hs.nodup
  owns := by rwa [Observer.ledger_update hd]
  nonnull := by
    rw [Observer.ledger_update hd]
    exact hs.nonnull
  stale := fun h' hh' => hs.stale_update hp h' fun _ => hh'

/-- The object of a variable is made. -/
theorem init (hs : Sound start base o s) (hd : h ∉ o.live) (hp : p ≠ 0)
    (hown : Owns .free base ((p, .obj h.kind) :: o.ledger s.data) heap) :
    Sound start base { o with live := h :: o.live } ⟨Function.update s.data h p, heap⟩ where
  nodup := hs.nodup.cons hd
  owns := by rwa [Observer.ledger_init hd]
  nonnull := by
    rw [Observer.ledger_init hd, List.forall_mem_cons]
    exact ⟨hp, hs.nonnull⟩
  stale := by
    intro h' hh'
    obtain ⟨hne, hh'⟩ := not_or.mp (mt List.mem_cons.mpr hh')
    have hst := hs.stale h' hh'
    rwa [← Function.update_of_ne hne p s.data] at hst

/-- The object of a variable is gone, and its pointer is `p` from now on. -/
theorem del (hs : Sound start base o s) (hh : h ∈ o.live) (hp : Stale base o h p)
    (hown : Owns .free base
      (({ o with live := o.live.erase h } : Observer ι).ledger s.data) heap) :
    Sound start base { o with live := o.live.erase h } ⟨Function.update s.data h p, heap⟩ := by
  have hd : h ∉ o.live.erase h := hs.nodup.not_mem_erase
  refine ⟨hs.nodup.erase h, ?_, ?_, ?_⟩
  · rwa [Observer.ledger_update hd]
  · rw [Observer.ledger_update hd]
    intro e he
    exact hs.nonnull e ((Observer.ledger_del hh).mem_iff.mpr (List.mem_cons_of_mem _ he))
  · exact fun h' hh' =>
      hs.stale_update hp h' fun heq => mt (List.mem_erase_of_ne heq).mpr hh'

end Sound

/-! ## The functions keep the account -/

section Functions

variable {start : Handle ι → ℕ} {base heap : ℕ → Cell} {o : Observer ι} {s : State ι}
  {h : Handle ι} {v : ι} {a : InitAnswers} {status : ℤ}

/-- The account is right behind a call that returns. -/
def Keeps (start : Handle ι → ℕ) (base : ℕ → Cell) (o : Observer ι) (c : Call ι) (ret : ℤ)
    (s : State ι) : Prop :=
  Sound start base (o.next (c, ret)) s

/-- The rule for writing a variable. -/
theorem ends_store {α : Type} {Q : α → State ι → Prop} {p : ℕ} {k : Unit → SyncProg ι α}
    (next : Ends Q (k ()) ⟨Function.update s.data h p, s.heap⟩) : Ends Q (store h p >>= k) s := next

/-- There was no block. -/
theorem keeps_null (hs : Sound start base o s) (hp : a.block = 0) :
    Keeps start base o (.init h a) (-1) s := by
  rwa [Keeps, Observer.next_init_null (by decide) hp]

/-- The block has been freed again. -/
theorem keeps_freed (hs : Sound start base o s) (hk : h.kind.keepsBlock = false) :
    Keeps start base o (.init h a) (-1) s := by
  rwa [Keeps, Observer.next_init_freed (by decide) hk]

/-- The block is in the variable, and the object is made or the block leaked. -/
theorem ends_objectInit (hs : Sound start base o s) (hd : h ∉ o.live) (hk : h.kind.keepsBlock)
    (hp : a.block ≠ 0) (hown : Owns .free base ((a.block, .raw) :: o.ledger s.data) heap) :
    Ends (Keeps start base o (.init h a)) (objectInit h.kind a.block a.init)
      ⟨Function.update s.data h a.block, heap⟩ := by
  refine Ends.tail (Ends.attempt hown (by simp) (fun heap' hown' => ?_) (fun hinit => ?_))
  · exact Ends.pure (hs.init hd hp hown')
  · refine Ends.pure ?_
    rw [Keeps, Observer.next_init_kept hinit hk hp]
    have hl := hs.leak hp hown
    exact hl.store hd (.inr (.inl List.mem_cons_self)) hl.owns

/-- The `init` functions that store the block before they make the object. -/
theorem sound_initStored {k : Kind} (hk : k.keepsBlock) (hs : Sound start base o s)
    (hd : ⟨k, v⟩ ∉ o.live) :
    Ends (Keeps start base o (.init ⟨k, v⟩ a)) (initStored k v a) s := by
  unfold initStored
  by_cases hp : a.block = 0
  · rw [hp]
    refine Ends.alloc_null (ends_store ?_)
    rw [if_pos rfl]
    exact Ends.pure (keeps_null (hs.store hd (.inl rfl) hs.owns) hp)
  · refine Ends.alloc_some hs.owns (by decide) hp fun heap hown => ends_store ?_
    rw [if_neg hp]
    exact ends_objectInit (s := s) hs hd hk hp hown

/-- `bf_sys_rmutex_init`, which stores the block only if there is one. -/
theorem sound_rmutexInit (hs : Sound start base o s) (hd : ⟨.rmutex, v⟩ ∉ o.live) :
    Ends (Keeps start base o (.init ⟨.rmutex, v⟩ a)) (bfSysRmutexInit v a) s := by
  unfold bfSysRmutexInit
  by_cases hp : a.block = 0
  · rw [hp]
    refine Ends.alloc_null ?_
    rw [if_pos rfl]
    exact Ends.pure (keeps_null hs hp)
  · refine Ends.alloc_some hs.owns (by decide) hp fun heap hown => ?_
    rw [if_neg hp]
    exact ends_store (ends_objectInit (s := s) hs hd rfl hp hown)

/-- `bf_sys_cond_init`, which frees its block when the object cannot be made. -/
theorem sound_condInit (hs : Sound start base o s) (hd : ⟨.cond, v⟩ ∉ o.live) :
    Ends (Keeps start base o (.init ⟨.cond, v⟩ a)) (bfSysCondInit v a) s := by
  unfold bfSysCondInit
  by_cases hp : a.block = 0
  · rw [hp]
    refine Ends.alloc_null ?_
    rw [if_pos rfl]
    exact Ends.pure (keeps_null hs hp)
  · refine Ends.alloc_some hs.owns (by decide) hp fun heap hown => ?_
    rw [if_neg hp]
    refine Ends.attempt hown (by simp) (fun heap hown => ?_) (fun hinit => ?_)
    · rw [if_neg (not_not.mpr rfl)]
      exact ends_store (Ends.pure (hs.init hd hp hown))
    · rw [if_pos hinit]
      refine Ends.release hown fun heap hown => Ends.pure ?_
      exact keeps_freed ⟨hs.nodup, hown, hs.nonnull, hs.stale⟩ rfl

/-- `bf_sys_sem_init`, which frees its block and clears the variable when the object cannot be
made. -/
theorem sound_semInit (hs : Sound start base o s) (hd : ⟨.sem, v⟩ ∉ o.live) :
    Ends (Keeps start base o (.init ⟨.sem, v⟩ a)) (bfSysSemInit v a) s := by
  unfold bfSysSemInit
  by_cases hp : a.block = 0
  · rw [hp]
    refine Ends.alloc_null ?_
    rw [if_pos rfl]
    exact Ends.pure (keeps_null hs hp)
  · refine Ends.alloc_some hs.owns (by decide) hp fun heap hown => ?_
    rw [if_neg hp]
    refine Ends.attempt hown (by simp) (fun heap hown => ?_) (fun hinit => ?_)
    · rw [if_neg (not_not.mpr rfl)]
      exact ends_store (Ends.pure (hs.init hd hp hown))
    · rw [if_pos hinit]
      refine Ends.release hown fun heap hown => ends_store (Ends.pure ?_)
      exact keeps_freed (hs.store hd (.inl rfl) hown) rfl

/-- The `del` functions that free the block and clear the variable. -/
theorem sound_delCleared {k : Kind} {error : ℤ → ℤ} (herror : ∀ err, err ≠ 0 → error err ≠ 0)
    (hs : Sound start base o s) (hh : ⟨k, v⟩ ∈ o.live) :
    Ends (Keeps start base o (.del ⟨k, v⟩ status)) (delCleared k error v status) s := by
  unfold delCleared
  refine ends_load (Ends.attempt (hs.owns.perm (Observer.ledger_del hh)) (by simp) ?_ ?_)
  · intro heap hown
    rw [if_neg (not_not.mpr rfl)]
    refine ends_load (Ends.release hown fun heap hown => ends_store (Ends.pure ?_))
    exact hs.del hh (.inl rfl) hown
  · intro hst
    rw [if_pos hst]
    refine Ends.pure ?_
    rwa [Keeps, Observer.next_del_failed (herror status hst)]

/-- `bf_sys_rwlock_del`, which leaves the pointer in the variable. -/
theorem sound_rwlockDel (hs : Sound start base o s) (hh : ⟨.rwlock, v⟩ ∈ o.live) :
    Ends (Keeps start base o (.del ⟨.rwlock, v⟩ status)) (bfSysRwlockDel v status) s := by
  unfold bfSysRwlockDel
  refine ends_load (Ends.attempt (hs.owns.perm (Observer.ledger_del hh)) (by simp) ?_ ?_)
  · intro heap hown
    rw [if_neg (not_not.mpr rfl)]
    refine ends_load (Ends.release hown fun heap hown => Ends.pure ?_)
    have hfree := hs.owns.fresh _ (Observer.mem_ledger hh)
    have hdel := hs.del hh (.inr (.inr ⟨rfl, hfree⟩)) hown
    rwa [Function.update_eq_self] at hdel
  · intro hst
    rw [if_pos hst]
    refine Ends.pure ?_
    rwa [Keeps, Observer.next_del_failed hst]

/-- Every call that the discipline allows keeps the account. -/
theorem sound_call {c : Call ι} (hs : Sound start base o s) (hc : o.Allows c) :
    Ends (Keeps start base o c) c.exec s := by
  cases c with
  | init h a =>
      obtain ⟨k, v⟩ := h
      cases k with
      | mutex => exact sound_initStored rfl hs hc
      | rmutex => exact sound_rmutexInit hs hc
      | cond => exact sound_condInit hs hc
      | sem => exact sound_semInit hs hc
      | rwlock => exact sound_initStored rfl hs hc
  | del h status =>
      obtain ⟨k, v⟩ := h
      have hh := hc _ List.mem_cons_self
      cases k with
      | mutex => exact sound_delCleared (fun _ herr => herr) hs hh
      | rmutex => exact sound_delCleared (fun _ herr => herr) hs hh
      | cond => exact sound_delCleared (fun _ _ => by decide) hs hh
      | sem => exact sound_delCleared (fun _ _ => by decide) hs hh
      | rwlock => exact sound_rwlockDel hs hh
  | op f v status =>
      -- the other calls use live objects, and change nothing
      rw [Call.exec, Op.exec_eq]
      exact ends_load (Ends.use (hs.held (hc _ List.mem_cons_self)) (Ends.pure hs))
  | condWait c m status =>
      have hcond := hs.held (hc ⟨.cond, c⟩ (by simp [Call.uses]))
      have hmutex := hs.held (hc ⟨.mutex, m⟩ (by simp [Call.uses]))
      exact ends_load (ends_load (Ends.use hcond (Ends.use hmutex (Ends.pure hs))))

end Functions

/-! ## Histories -/

section Histories

variable {start : Handle ι → ℕ} {base : ℕ → Cell} {es : List (Call ι × ℤ)} {s : State ι}
  {o : Observer ι} {h : Handle ι}

/-- The invariant of all histories. -/
theorem sound_run (hrun : Run Disciplined (⟨start, base⟩, .start) es (s, o)) :
    Sound start base o s := by
  refine hrun.invariant (I := fun x => Sound start base x.2 x.1) ?_ ?_
  · rintro ⟨s, o⟩ ⟨c, ret⟩ ⟨s', o'⟩ hs ⟨⟨hstep, rfl⟩, hc⟩
    exact (sound_call hs hc).of_ok hstep
  · exact ⟨List.nodup_nil, Owns.nil, by simp [Observer.ledger, Observer.start], fun _ _ => .inl rfl⟩

/-- A call that is allowed, and returns, is a disciplined step. -/
theorem Disciplined.mk {c : Call ι} {ret : ℤ} {s' : State ι} (hc : o.Allows c)
    (h : c.exec.run s = .ok (ret, s')) : Disciplined (s, o) (c, ret) (s', o.next (c, ret)) :=
  ⟨⟨h, rfl⟩, hc⟩

/-- In every history that keeps the discipline no call touches what is not there, and the calls have
taken from the heap `base` of the others what the ledger says, each part in a block of its own. -/
theorem bfSysSem_lifeCycle (start : Handle ι → ℕ) (base : ℕ → Cell) {es : List (Call ι × ℤ)}
    {s : State ι} {o : Observer ι} (hrun : Run Disciplined (⟨start, base⟩, .start) es (s, o)) :
    (∀ c : Call ι, o.Allows c → c.exec.run s ≠ .error .fault) ∧
    Owns .free base (o.ledger s.data) s.heap ∧
    (s.heap = base ↔ o.live = [] ∧ o.leaked = []) := by
  have hs := sound_run hrun
  refine ⟨fun c hc => (sound_call hs hc).no_fault, hs.owns, ?_⟩
  rw [hs.owns.eq_base_iff, Observer.ledger, List.append_eq_nil_iff, List.map_eq_nil_iff,
    List.map_eq_nil_iff]

/-- A history through an `init` that leaks its block, one that frees it, a `del` of a locked mutex and
a `del` that is done. -/
theorem bfSysSem_lifeCycle_failures :
    ∃ s : State ℕ, Run Disciplined (⟨fun _ => 0, fun _ => .free⟩, .start)
        [(.init ⟨.mutex, 0⟩ ⟨8, 12⟩, 12), (.init ⟨.cond, 0⟩ ⟨16, 12⟩, -1),
          (.init ⟨.mutex, 0⟩ ⟨16, 0⟩, 0), (.op .mutexLock 0 0, 0), (.del ⟨.mutex, 0⟩ 16, 16),
          (.op .mutexUnlock 0 0, 0), (.del ⟨.mutex, 0⟩ 0, 0)] (s, ⟨[], [8]⟩) ∧
      s.heap ≠ fun _ => .free := by
  obtain ⟨s, hrun⟩ : ∃ s : State ℕ, Run Disciplined (⟨fun _ => 0, fun _ => .free⟩, .start)
      [(.init ⟨.mutex, 0⟩ ⟨8, 12⟩, 12), (.init ⟨.cond, 0⟩ ⟨16, 12⟩, -1),
        (.init ⟨.mutex, 0⟩ ⟨16, 0⟩, 0), (.op .mutexLock 0 0, 0), (.del ⟨.mutex, 0⟩ 16, 16),
        (.op .mutexUnlock 0 0, 0), (.del ⟨.mutex, 0⟩ 0, 0)] (s, ⟨[], [8]⟩) :=
    ⟨_, .cons (.mk (by decide) rfl) <| .cons (.mk (by decide) rfl) <|
      .cons (.mk (by decide) rfl) <| .cons (.mk (by decide) rfl) <|
      .cons (.mk (by decide) rfl) <| .cons (.mk (by decide) rfl) <| .single (.mk (by decide) rfl)⟩
  exact ⟨s, hrun, fun hbase => by simpa using ((bfSysSem_lifeCycle _ _ hrun).2.2.mp hbase).2⟩

/-- A call on a variable that does not point to an object of its type faults. -/
theorem exec_fault {c : Call ι} (hc : h ∈ c.uses) (hobj : s.heap (s.data h) ≠ .obj h.kind) :
    c.exec.run s = .error .fault := by
  cases c with
  | init h a => cases hc
  | del h' status =>
      obtain rfl : h = h' := by simpa [Call.uses] using hc
      obtain ⟨k, v⟩ := h
      cases k <;> exact run_load.trans (run_attempt_fault hobj)
  | op f v status =>
      obtain rfl : h = ⟨f.kind, v⟩ := by simpa [Call.uses] using hc
      rw [Call.exec, Op.exec_eq]
      exact run_load.trans (run_use_fault hobj)
  | condWait c m status =>
      refine run_load.trans (run_load.trans ?_)
      obtain rfl | rfl : h = ⟨.cond, c⟩ ∨ h = ⟨.mutex, m⟩ := by simpa [Call.uses] using hc
      · exact run_use_fault hobj
      · by_cases hcond : s.heap (s.data ⟨.cond, c⟩) = .obj .cond
        · rw [run_use hcond]
          exact run_use_fault hobj
        · exact run_use_fault hcond

/-- An `rwlock` is nothing but its pointer. -/
theorem exec_onto {c : Call ι} {h' : Handle ι} (hc : h ∈ c.uses) (hsh : Shares s h h') :
    c.exec.run s = (c.onto h').exec.run s := by
  obtain ⟨hk, hk', hp⟩ := hsh
  obtain ⟨status, rfl⟩ | ⟨f, status, hf, rfl⟩ := Call.of_rwlock hc hk
  · obtain ⟨k, v⟩ := h
    obtain ⟨k', v'⟩ := h'
    subst hk hk'
    by_cases hobj : s.heap (s.data ⟨.rwlock, v⟩) = .obj .rwlock
    · rw [Call.onto, Call.exec, Call.exec, run_rwlockDel hobj, run_rwlockDel (hp ▸ hobj), hp]
    · have hobj' : s.heap (s.data ⟨.rwlock, v'⟩) ≠ .obj .rwlock := by rwa [hp]
      rw [exec_fault hc hobj]
      exact (exec_fault (c := .del ⟨.rwlock, v'⟩ status) List.mem_cons_self hobj').symm
  · have hdata : s.data ⟨f.kind, h'.id⟩ = s.data ⟨f.kind, h.id⟩ := by
      rw [hf]
      nth_rewrite 1 [← hk']
      rwa [← hk]
    rw [Call.onto, Call.exec, Call.exec, Op.exec_eq, Op.exec_eq, useObject, useObject, run_load,
      run_load, hdata]

/-- With variables that are `NULL` at the start, a call on one without a live object faults unless
it is an `rwlock` that shares its block with a live one. Then the call is served, on the object of the
other. A live object of another kind in the block does not help. -/
theorem bfSysSem_staleCall (base : ℕ → Cell) (hnull : base 0 = .free) {es : List (Call ι × ℤ)}
    {s : State ι} {o : Observer ι} (hrun : Run Disciplined (⟨fun _ => 0, base⟩, .start) es (s, o))
    {h : Handle ι} (hd : h ∉ o.live) {c : Call ι} (hc : h ∈ c.uses) :
    (c.exec.run s = .error .fault ↔ ¬ ∃ h' ∈ o.live, Shares s h h') ∧
    ∀ h' ∈ o.live, Shares s h h' → c.exec.run s = (c.onto h').exec.run s := by
  have hs := sound_run hrun
  refine ⟨⟨?_, ?_⟩, fun h' _ hsh => exec_onto hc hsh⟩
  · rintro hfault ⟨h', hh', hsh⟩
    rw [exec_onto hc hsh] at hfault
    exact (sound_call hs (Observer.allows_onto hc hsh.1 hsh.2.1 hh')).no_fault hfault
  · intro hn
    exact exec_fault hc (mt (hs.heap_stale hnull hd).mp hn)

/-- An `rwlock` is deleted, another one gets the block, and a second `del` of the first ends it. -/
theorem bfSysSem_staleCall_rwlock :
    ∃ s : State ℕ, Run Disciplined (⟨fun _ => 0, fun _ => .free⟩, .start)
        [(.init ⟨.rwlock, 0⟩ ⟨8, 0⟩, 0), (.del ⟨.rwlock, 0⟩ 0, 0), (.init ⟨.rwlock, 1⟩ ⟨8, 0⟩, 0)]
        (s, ⟨[⟨.rwlock, 1⟩], []⟩) ∧
      (Call.del ⟨.rwlock, 0⟩ 0).exec.run s = (Call.del ⟨.rwlock, 1⟩ 0).exec.run s := by
  obtain ⟨s, hrun, hp⟩ : ∃ s : State ℕ, Run Disciplined (⟨fun _ => 0, fun _ => .free⟩, .start)
      [(.init ⟨.rwlock, 0⟩ ⟨8, 0⟩, 0), (.del ⟨.rwlock, 0⟩ 0, 0), (.init ⟨.rwlock, 1⟩ ⟨8, 0⟩, 0)]
      (s, ⟨[⟨.rwlock, 1⟩], []⟩) ∧ s.data ⟨.rwlock, 1⟩ = s.data ⟨.rwlock, 0⟩ :=
    ⟨_, .cons (.mk (by decide) rfl) <| .cons (.mk (by decide) rfl) <| .single (.mk (by decide) rfl),
      rfl⟩
  refine ⟨s, hrun, ?_⟩
  exact (bfSysSem_staleCall _ rfl hrun (h := ⟨.rwlock, 0⟩) (by decide) List.mem_cons_self).2
    ⟨.rwlock, 1⟩ List.mem_cons_self ⟨rfl, rfl, hp⟩

end Histories

end TargetSys.Sync
