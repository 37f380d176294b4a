import Mathlib.Data.Int.Notation
import Mathlib.Data.List.Nodup
import Mathlib.Logic.Function.Basic
import Mathlib.Tactic.Common

/-!
# Programs over a heap, and the cells they own

A heap maps addresses to cells. One cell, `free`, stands for an address without a block, so a program
that uses, ends or releases what is not there finds the wrong cell and *faults*. `Owns free base
ledger heap` says which cells a program owns: the heap is the one it started from, `base`, with the
cells of `ledger` on top, at distinct addresses that `base` does not use.

## Main results

* `Ends.bind`, and one rule for each heap operation, in the order a program runs them: what the
  program owns before the operation decides what it owns behind it, and the operation cannot fault.
* `Owns.eq_base`: a program that owns nothing has left the heap as it found it.
-/

namespace Ownership

/-! ## Programs -/

/-- Why a call does not return: it touched a cell that is not what it took it for, it waits for
ever, or its environment was asked for an answer that it cannot give. -/
inductive Stop
  | fault
  | blocks
  | impossible
deriving DecidableEq, Repr

/-- The data of a program and its heap. -/
structure Mem (δ κ : Type*) where
  data : δ
  heap : ℕ → κ

/-- A program over `δ` and a heap of `κ`. -/
abbrev Prog (δ κ α : Type) := StateT (Mem δ κ) (Except Stop) α

section Ops

variable {δ κ β : Type}

/-- `get` hands the memory on. -/
theorem run_get {k : Mem δ κ → Prog δ κ β} {m : Mem δ κ} : (get >>= k).run m = (k m).run m := rfl

variable [DecidableEq κ]

/-- The object at `p` is used as a `c`. -/
def use (c : κ) (p : ℕ) : Prog δ κ Unit := do
  if (← get).heap p ≠ c then throw .fault

/-- The object at `p` stops to be a `c` and becomes a `c'`. -/
def become (c c' : κ) (p : ℕ) : Prog δ κ Unit := do
  use c p
  modify fun m => { m with heap := Function.update m.heap p c' }

/-- The object at `p` stops to be a `c` and becomes a `c'`, unless the answer is an error. -/
def attempt (c c' : κ) (p : ℕ) (status : ℤ) : Prog δ κ ℤ := do
  if status = 0 then become c c' p else use c p
  return status

/-- `malloc`, answering `p`, where address `0` is `NULL`. A block is never given out twice. -/
def alloc (free raw : κ) (p : ℕ) : Prog δ κ ℕ := do
  if p = 0 then return 0
  if (← get).heap p ≠ free then throw .impossible
  modify fun m => { m with heap := Function.update m.heap p raw }
  return p

/-- `free`, of a block with whatever is left in it. -/
def release (free : κ) (p : ℕ) : Prog δ κ Unit := do
  if (← get).heap p = free then throw .fault
  modify fun m => { m with heap := Function.update m.heap p free }

/-- The program changes its data. -/
def setData (f : δ → δ) : Prog δ κ Unit := modify fun m => { m with data := f m.data }

/-- A use of the right object does nothing. -/
theorem run_use {c : κ} {p : ℕ} {k : Unit → Prog δ κ β} {m : Mem δ κ} (h : m.heap p = c) :
    (use c p >>= k).run m = (k ()).run m := by
  simp [use, h]

/-- A use of anything else faults. -/
theorem run_use_fault {c : κ} {p : ℕ} {k : Unit → Prog δ κ β} {m : Mem δ κ} (h : m.heap p ≠ c) :
    (use c p >>= k).run m = .error .fault := by
  rw [use, bind_assoc, run_get, if_pos h]
  rfl

/-- An attempt at an object in its state `c` moves it exactly if it returns 0. -/
theorem run_attempt {c c' : κ} {p : ℕ} {status : ℤ} {k : ℤ → Prog δ κ β} {m : Mem δ κ}
    (h : m.heap p = c) :
    (attempt c c' p status >>= k).run m =
      if status = 0 then (k 0).run ⟨m.data, Function.update m.heap p c'⟩ else (k status).run m := by
  unfold attempt
  split
  case isTrue hs =>
    rw [hs, bind_assoc, become, bind_assoc, run_use h]
    rfl
  case isFalse =>
    rw [bind_assoc, run_use h]
    rfl

/-- An attempt at any other object is a fault. -/
theorem run_attempt_fault {c c' : κ} {p : ℕ} {status : ℤ} {k : ℤ → Prog δ κ β} {m : Mem δ κ}
    (h : m.heap p ≠ c) : (attempt c c' p status >>= k).run m = .error .fault := by
  unfold attempt
  split
  · rw [bind_assoc, become, bind_assoc]
    exact run_use_fault h
  · rw [bind_assoc]
    exact run_use_fault h

end Ops

/-! ## What a program owns -/

/-- `heap` is `base` with the live cells of `ledger` at distinct addresses that `base` leaves
free. -/
structure Owns {κ : Type} (free : κ) (base : ℕ → κ) (ledger : List (ℕ × κ)) (heap : ℕ → κ) :
    Prop where
  nodup : (ledger.map Prod.fst).Nodup
  fresh : ∀ e ∈ ledger, base e.1 = free
  live : ∀ e ∈ ledger, e.2 ≠ free
  held : ∀ e ∈ ledger, heap e.1 = e.2
  other : ∀ p, p ∉ ledger.map Prod.fst → heap p = base p

namespace Owns

variable {κ : Type} {free : κ} {base heap : ℕ → κ} {ledger ledger' : List (ℕ × κ)} {p : ℕ}
  {c c' : κ}

/-- Nothing is owned where the heap is the base. -/
theorem nil : Owns free base [] base where
  nodup := List.nodup_nil
  fresh := by simp
  live := by simp
  held := by simp
  other := fun _ _ => rfl

/-- An empty ledger leaves nothing in the heap. -/
theorem eq_base (h : Owns free base [] heap) : heap = base :=
  funext fun p => h.other p (by simp)

/-- Only a program that owns nothing has the heap that it found. -/
theorem eq_base_iff (h : Owns free base ledger heap) : heap = base ↔ ledger = [] := by
  constructor
  · rintro rfl
    refine List.eq_nil_iff_forall_not_mem.mpr fun e he => h.live e he ?_
    exact (h.held e he).symm.trans (h.fresh e he)
  · rintro rfl
    exact h.eq_base

/-- The order of the ledger says nothing. -/
theorem perm (h : Owns free base ledger heap) (hp : ledger.Perm ledger') :
    Owns free base ledger' heap where
  nodup := (hp.map Prod.fst).nodup_iff.mp h.nodup
  fresh := fun e he => h.fresh e (hp.mem_iff.mpr he)
  live := fun e he => h.live e (hp.mem_iff.mpr he)
  held := fun e he => h.held e (hp.mem_iff.mpr he)
  other := fun q hq => h.other q fun hm => hq ((hp.map Prod.fst).mem_iff.mp hm)

/-- The second cell of the ledger, brought to its front. -/
theorem swap {e e' : ℕ × κ} (h : Owns free base (e :: e' :: ledger) heap) :
    Owns free base (e' :: e :: ledger) heap :=
  h.perm (List.Perm.swap e' e ledger)

/-- A ledger may be read from its end. -/
theorem reverse (h : Owns free base ledger heap) : Owns free base ledger.reverse heap :=
  h.perm ledger.reverse_perm.symm

/-- What is owned is not free. -/
theorem not_free (h : Owns free base ((p, c) :: ledger) heap) : heap p ≠ free := by
  rw [h.held (p, c) (by simp)]
  exact h.live (p, c) (by simp)

/-- An address that is free now is neither owned nor used by `base`. -/
theorem not_owned (h : Owns free base ledger heap) (hp : heap p = free) :
    p ∉ ledger.map Prod.fst ∧ base p = free := by
  have hn : p ∉ ledger.map Prod.fst := by
    intro hm
    obtain ⟨e, he, rfl⟩ := List.mem_map.mp hm
    exact h.live e he ((h.held e he).symm.trans hp)
  exact ⟨hn, (h.other p hn).symm.trans hp⟩

/-- A free cell can be taken into the ledger. -/
theorem add (h : Owns free base ledger heap) (hp : heap p = free) (hc : c ≠ free) :
    Owns free base ((p, c) :: ledger) (Function.update heap p c) := by
  obtain ⟨hn, hb⟩ := h.not_owned hp
  have hne : ∀ e ∈ ledger, e.1 ≠ p := fun e he h => hn (List.mem_map.mpr ⟨e, he, h⟩)
  refine ⟨?_, ?_, ?_, ?_, ?_⟩
  · rw [List.map_cons]
    exact h.nodup.cons hn
  · rw [List.forall_mem_cons]
    exact ⟨hb, h.fresh⟩
  · rw [List.forall_mem_cons]
    exact ⟨hc, h.live⟩
  · rw [List.forall_mem_cons]
    refine ⟨Function.update_self p c heap, fun e he => ?_⟩
    rw [Function.update_of_ne (hne e he)]
    exact h.held e he
  · intro q hq
    rw [List.map_cons, List.mem_cons, not_or] at hq
    rw [Function.update_of_ne hq.1]
    exact h.other q hq.2

/-- A cell that is freed leaves the ledger. -/
theorem drop (h : Owns free base ((p, c) :: ledger) heap) :
    Owns free base ledger (Function.update heap p free) := by
  have hn : p ∉ ledger.map Prod.fst := (List.nodup_cons.mp h.nodup).1
  have hne : ∀ e ∈ ledger, e.1 ≠ p := fun e he h => hn (List.mem_map.mpr ⟨e, he, h⟩)
  refine ⟨(List.nodup_cons.mp h.nodup).2, fun e he => h.fresh e (by simp [he]),
    fun e he => h.live e (by simp [he]), ?_, ?_⟩
  · intro e he
    rw [Function.update_of_ne (hne e he)]
    exact h.held e (by simp [he])
  · intro q hq
    by_cases hqp : q = p
    · subst hqp
      rw [Function.update_self]
      exact (h.fresh (q, c) (by simp)).symm
    · rw [Function.update_of_ne hqp]
      exact h.other q (by simpa [hqp] using hq)

/-- A cell that is dropped and added again has only changed. -/
theorem change (h : Owns free base ((p, c) :: ledger) heap) (hc : c' ≠ free) :
    Owns free base ((p, c') :: ledger) (Function.update heap p c') := by
  have hadd := h.drop.add (Function.update_self p free heap) hc
  rwa [Function.update_idem] at hadd

end Owns

/-! ## Rules -/

/-- Run from `m`, the program does not fault, and if it returns then with `Q`. -/
def Ends {δ κ α : Type} (Q : α → Mem δ κ → Prop) (x : Prog δ κ α) (m : Mem δ κ) : Prop :=
  match x.run m with
  | .ok (a, m') => Q a m'
  | .error e => e ≠ .fault

namespace Ends

variable {δ κ α β : Type} {Q Q' : β → Mem δ κ → Prop} {R : α → Mem δ κ → Prop} {m m' : Mem δ κ}

/-- A program that returns ends as its value says. -/
theorem pure {b : β} (h : Q b m) : Ends Q (pure b) m := h

/-- A program that stops without a fault ends well. -/
theorem throw {e : Stop} (h : e ≠ .fault) : Ends Q (throw e : Prog δ κ β) m := h

/-- The rule of composition. -/
theorem bind {x : Prog δ κ α} {k : α → Prog δ κ β} (h : Ends R x m)
    (next : ∀ a m', R a m' → Ends Q (k a) m') : Ends Q (x >>= k) m := by
  unfold Ends at h ⊢
  rw [StateT.run_bind]
  cases hx : x.run m with
  | error e =>
      rw [hx] at h
      exact h
  | ok r =>
      rw [hx] at h
      exact next _ _ h

/-- The rules for a bind serve for the last command too. -/
theorem tail {x : Prog δ κ β} (h : Ends Q (x >>= fun b => Pure.pure b) m) : Ends Q x m := by
  rwa [bind_pure] at h

/-- A program that ends well makes no fault. -/
theorem no_fault {x : Prog δ κ β} (h : Ends Q x m) : x.run m ≠ .error .fault := by
  intro hx
  unfold Ends at h
  rw [hx] at h
  exact h rfl

/-- The result of a program that ends well is as it says. -/
theorem of_ok {x : Prog δ κ β} {b : β} (h : Ends Q x m) (hx : x.run m = .ok (b, m')) : Q b m' := by
  unfold Ends at h
  rwa [hx] at h

/-- The rule for reading the memory. -/
theorem get {k : Mem δ κ → Prog δ κ β} (next : Ends Q (k m) m) :
    Ends Q (MonadState.get >>= k) m := next

/-- The rule for writing the data. -/
theorem setData {f : δ → δ} {k : Unit → Prog δ κ β} (next : Ends Q (k ()) ⟨f m.data, m.heap⟩) :
    Ends Q (setData f >>= k) m := next

variable [DecidableEq κ] {free raw c c' : κ} {base : ℕ → κ} {ledger : List (ℕ × κ)} {p : ℕ}

/-- The rule for using an object, which has to be in the state that the use is for. -/
theorem use {k : Unit → Prog δ κ β} (h : m.heap p = c) (next : Ends Q (k ()) m) :
    Ends Q (use c p >>= k) m := by
  unfold Ends at next ⊢
  rwa [run_use h]

/-- The rule for a change of an owned object. -/
theorem become {k : Unit → Prog δ κ β} (h : Owns free base ((p, c) :: ledger) m.heap)
    (hc : c' ≠ free)
    (next : ∀ heap, Owns free base ((p, c') :: ledger) heap → Ends Q (k ()) ⟨m.data, heap⟩) :
    Ends Q (become c c' p >>= k) m := by
  refine bind (R := fun _ m' => m' = ⟨m.data, Function.update m.heap p c'⟩) ?_ ?_
  · unfold Ownership.become
    exact use (h.held (p, c) (by simp)) rfl
  · rintro - m' rfl
    exact next _ (h.change hc)

/-- The object changes, or is left as it is with an error. -/
theorem attempt {k : ℤ → Prog δ κ β} {status : ℤ} (h : Owns free base ((p, c) :: ledger) m.heap)
    (hc : c' ≠ free)
    (done : ∀ heap, Owns free base ((p, c') :: ledger) heap → Ends Q (k 0) ⟨m.data, heap⟩)
    (failed : status ≠ 0 → Ends Q (k status) m) : Ends Q (attempt c c' p status >>= k) m := by
  unfold Ownership.attempt
  by_cases hs : status = 0
  · subst hs
    rw [if_pos rfl, bind_assoc]
    exact become h hc done
  · rw [if_neg hs, bind_assoc]
    exact use (h.held (p, c) (by simp)) (failed hs)

/-- A `malloc` that fails leaves all as it is. -/
theorem alloc_null {k : ℕ → Prog δ κ β} (null : Ends Q (k 0) m) :
    Ends Q (alloc free raw 0 >>= k) m := null

/-- A `malloc` that succeeds adds a block. -/
theorem alloc_some {k : ℕ → Prog δ κ β} (h : Owns free base ledger m.heap) (hraw : raw ≠ free)
    (hp : p ≠ 0)
    (next : ∀ heap, Owns free base ((p, raw) :: ledger) heap → Ends Q (k p) ⟨m.data, heap⟩) :
    Ends Q (alloc free raw p >>= k) m := by
  by_cases hf : m.heap p = free
  · refine bind (R := fun a m' => a = p ∧ m' = ⟨m.data, Function.update m.heap p raw⟩) ?_ ?_
    · unfold Ownership.alloc
      rw [if_neg hp]
      refine get ?_
      rw [if_neg (by simp [hf])]
      exact ⟨rfl, rfl⟩
    · rintro _ _ ⟨rfl, rfl⟩
      exact next _ (h.add hf hraw)
  · refine bind (R := fun _ _ => False) ?_ (fun _ _ => False.elim)
    unfold Ownership.alloc
    rw [if_neg hp]
    refine get ?_
    rw [if_pos hf]
    exact throw (by simp)

/-- The rule of `malloc`, which returns null or a new block that is then owned. -/
theorem alloc {k : ℕ → Prog δ κ β} (h : Owns free base ledger m.heap) (hraw : raw ≠ free)
    (null : Ends Q (k 0) m)
    (next : p ≠ 0 → ∀ heap, Owns free base ((p, raw) :: ledger) heap →
      Ends Q (k p) ⟨m.data, heap⟩) :
    Ends Q (alloc free raw p >>= k) m := by
  by_cases hp : p = 0
  · subst hp
    exact alloc_null null
  · exact alloc_some h hraw hp (next hp)

/-- The rule of `free`, which takes an owned block. -/
theorem release {k : Unit → Prog δ κ β} (h : Owns free base ((p, c) :: ledger) m.heap)
    (next : ∀ heap, Owns free base ledger heap → Ends Q (k ()) ⟨m.data, heap⟩) :
    Ends Q (release free p >>= k) m := by
  refine bind (R := fun _ m' => m' = ⟨m.data, Function.update m.heap p free⟩) ?_ ?_
  · unfold Ownership.release
    refine get ?_
    rw [if_neg h.not_free]
    exact rfl
  · rintro - m' rfl
    exact next _ h.drop

end Ends

end Ownership
