import Mathlib.Data.List.Perm.Basic
import Mathlib.Tactic.Common

/-!
# A bounded LIFO stack and its sequential histories

`Stack` is the abstract stack of a free list: the items it holds, top first, and the number of items
that are outstanding. `exec` is one operation: a `pop` fails exactly when nothing is left, and a
`push` is refused exactly when nothing is outstanding; a push may bring back any item.

`run` executes a list of operations one after another, each tagged with the client that asked for
it. A concurrent stack is linearizable when its clients see what `run` returns for some order of
their operations.

`Owned` relates a stack to the items that its clients hold. It is kept by every pop, and by every
push of an item that is held.

## Main results

* `Owned.pop_cases`, `Owned.push`: what the two operations return to clients who give back only what
  they hold.
-/

namespace Lifo

/-- The items on the stack, top first, and how many are outstanding. -/
structure Stack (α : Type*) where
  items : List α
  outstanding : ℕ

inductive Op (α : Type*)
  | pop
  | push (a : α)
deriving DecidableEq, Repr

inductive Result (α : Type*)
  | popped (a : α)
  | empty
  | pushed
  | refused
deriving DecidableEq, Repr

variable {α κ : Type*}

/-- One operation. -/
def Stack.exec : Stack α → Op α → Result α × Stack α
  | ⟨[], n⟩, .pop => (.empty, ⟨[], n⟩)
  | ⟨a :: as, n⟩, .pop => (.popped a, ⟨as, n + 1⟩)
  | ⟨as, 0⟩, .push _ => (.refused, ⟨as, 0⟩)
  | ⟨as, n + 1⟩, .push a => (.pushed, ⟨a :: as, n⟩)

/-- The operations of several clients one after another, each with its result. -/
def Stack.run (s : Stack α) : List (κ × Op α) → List (κ × Op α × Result α) × Stack α
  | [] => ([], s)
  | (k, op) :: ops =>
      let (r, s) := s.exec op
      let (rs, s) := s.run ops
      ((k, op, r) :: rs, s)

/-- The results of a longer run are those of its parts, one behind the other. -/
theorem Stack.run_append (s : Stack α) (ops ops' : List (κ × Op α)) :
    s.run (ops ++ ops') =
      ((s.run ops).1 ++ ((s.run ops).2.run ops').1, ((s.run ops).2.run ops').2) := by
  induction ops generalizing s with
  | nil => rfl
  | cons op ops ih => simp only [List.cons_append, run, ih]

/-- A history ends with the result of its last operation on the stack before it. -/
theorem Stack.run_snoc (s : Stack α) (ops : List (κ × Op α)) (k : κ) (op : Op α) :
    s.run (ops ++ [(k, op)]) =
      ((s.run ops).1 ++ [(k, op, ((s.run ops).2.exec op).1)], ((s.run ops).2.exec op).2) := by
  rw [run_append]
  rfl

/-- What client `k` sees of a history. -/
def seenBy [DecidableEq κ] (k : κ) (h : List (κ × Op α × Result α)) : List (Op α × Result α) :=
  h.filterMap fun e => if e.1 = k then some e.2 else none

/-- What a caller sees grows with the history. -/
@[simp] theorem seenBy_append [DecidableEq κ] (k : κ) (h h' : List (κ × Op α × Result α)) :
    seenBy k (h ++ h') = seenBy k h ++ seenBy k h' := List.filterMap_append ..

/-- A caller sees its own operation. -/
@[simp] theorem seenBy_singleton_self [DecidableEq κ] (k : κ) (x : Op α × Result α) :
    seenBy k [(k, x)] = [x] := by simp [seenBy]

/-- A caller does not see the operation of another. -/
theorem seenBy_singleton_ne [DecidableEq κ] {k k' : κ} (h : k' ≠ k) (x : Op α × Result α) :
    seenBy k [(k', x)] = [] := by simp [seenBy, h]

/-! ## Ownership -/

/-- Each item of `all` is either on the stack or held. -/
structure Stack.Owned (s : Stack α) (held all : List α) : Prop where
  perm : (s.items ++ held).Perm all
  outstanding : s.outstanding = held.length

namespace Stack.Owned

variable {s : Stack α} {held rest all : List α} {a : α}

/-- What is on the stack is what is not held. -/
theorem length_items (h : s.Owned held all) : s.items.length + held.length = all.length := by
  rw [← List.length_append, h.perm.length_eq]

/-- A pop finds nothing exactly when everything is held, and otherwise hands out the top. -/
theorem pop_cases (h : s.Owned held all) :
    s.exec .pop = (.empty, s) ∧ held.length = all.length ∨
      ∃ a s', s.exec .pop = (.popped a, s') ∧ s'.Owned (a :: held) all ∧
        held.length < all.length := by
  obtain ⟨items, n⟩ := s
  have hlen := h.length_items
  cases items with
  | nil => exact .inl ⟨rfl, by simpa using hlen⟩
  | cons a as =>
      refine .inr ⟨a, ⟨as, n + 1⟩, rfl, ⟨?_, ?_⟩, ?_⟩
      · exact List.perm_middle.trans h.perm
      · rw [List.length_cons, ← h.outstanding]
      · simp only [List.length_cons] at hlen
        omega

/-- A push of a held item is accepted. -/
theorem push (h : s.Owned held all) (hheld : held.Perm (a :: rest)) :
    ∃ s', s.exec (.push a) = (.pushed, s') ∧ s'.Owned rest all := by
  obtain ⟨items, n⟩ := s
  have hn : n = rest.length + 1 := by
    rw [← List.length_cons, ← hheld.length_eq]
    exact h.outstanding
  subst hn
  refine ⟨⟨a :: items, rest.length⟩, by cases items <;> rfl, ?_, rfl⟩
  calc a :: items ++ rest
    List.Perm _ (items ++ a :: rest) := List.perm_middle.symm
    List.Perm _ (items ++ held) := hheld.symm.append_left items
    List.Perm _ all := h.perm

/-- Nobody holds what another one holds. -/
theorem nodup_held (h : s.Owned held all) (hall : all.Nodup) : held.Nodup :=
  (List.nodup_append.mp (h.perm.nodup_iff.mpr hall)).2.1

/-- What is held is one of all the elements. -/
theorem mem_of_held (h : s.Owned held all) (ha : a ∈ held) : a ∈ all :=
  h.perm.mem_iff.mp (List.mem_append_right _ ha)

end Stack.Owned

end Lifo
