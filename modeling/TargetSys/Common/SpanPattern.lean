import Mathlib.Data.List.Infix
import Mathlib.Tactic.Common

/-!
# Editing a line with the pattern `a.*b`

`findSpan a b s` is the match of the regular expression `a.*b` in the line `s`: it starts at the
leftmost `a` and, the wildcard being greedy, ends with the last `b` behind it. `replaceSpan` is the
substitution of that match by a fixed text.

## Main results

* `findSpan_isSome_iff`: the pattern matches exactly the lines with an `a` and a `b` behind it.
* `findSpan_eq_some`, `le_of_findSpan`: the match is a part of the line, with no `a` before it.
* `replaceSpan_eq_self_iff`: an edit keeps a line exactly when the match reads as the new text.
* `not_infix_replaceSpan`: an edit makes no text that stays apart from what it puts in.
* `replaceSpan_idem`: an edit that puts in a match of its own pattern changes nothing when repeated.
-/

namespace SpanPattern

variable {α : Type*} [DecidableEq α]

/-- What stands before and behind the leftmost `a`. -/
def splitFirst (a : List α) : List α → Option (List α × List α)
  | [] => if a = [] then some ([], []) else none
  | c :: s =>
      if a <+: c :: s then some ([], (c :: s).drop a.length)
      else (splitFirst a s).map fun p => (c :: p.1, p.2)

/-- What stands before and behind the last `b`. -/
def splitLast (b : List α) : List α → Option (List α × List α)
  | [] => if b = [] then some ([], []) else none
  | c :: s =>
      match splitLast b s with
      | some p => some (c :: p.1, p.2)
      | none => if b <+: c :: s then some ([], (c :: s).drop b.length) else none

/-- What stands before the match of `a.*b`, the match, and what stands behind it. -/
def findSpan (a b s : List α) : Option (List α × List α × List α) :=
  match splitFirst a s with
  | none => none
  | some (pre, post) =>
      match splitLast b post with
      | none => none
      | some (mid, rest) => some (pre, a ++ mid ++ b, rest)

/-- The line with the match of `a.*b` replaced by `new`. -/
def replaceSpan (a b new s : List α) : List α :=
  match findSpan a b s with
  | none => s
  | some (pre, _, rest) => pre ++ new ++ rest

variable {a b new s pre mid post rest : List α}

/-! ## The two searches -/

/-- A split at `a` has `a` between its parts. -/
theorem splitFirst_eq_some (h : splitFirst a s = some (pre, post)) : s = pre ++ a ++ post := by
  induction s generalizing pre with
  | nil =>
      simp only [splitFirst, Option.ite_none_right_eq_some, Option.some.injEq, Prod.mk.injEq] at h
      obtain ⟨rfl, rfl, rfl⟩ := h
      rfl
  | cons c s ih =>
      unfold splitFirst at h
      split at h
      · next hp =>
        obtain ⟨t, ht⟩ := hp
        obtain ⟨rfl, rfl⟩ := Prod.mk.inj (Option.some.inj h)
        simp [← ht]
      · obtain ⟨⟨p, q⟩, hs, hpq⟩ := Option.map_eq_some_iff.mp h
        obtain ⟨rfl, rfl⟩ := Prod.mk.inj hpq
        simpa using ih hs

/-- `splitFirst` finds an occurrence if there is any, and none starts before it. -/
theorem exists_splitFirst (a pre post : List α) :
    ∃ p q, splitFirst a (pre ++ a ++ post) = some (p, q) ∧ p.length ≤ pre.length := by
  induction pre with
  | nil =>
      refine ⟨[], post, ?_, Nat.le_refl _⟩
      cases hs : [] ++ a ++ post with
      | nil =>
          obtain ⟨rfl, rfl⟩ := List.append_eq_nil_iff.mp hs
          rfl
      | cons c s =>
          have hs' : c :: s = a ++ post := hs.symm
          rw [splitFirst, if_pos ⟨post, hs'.symm⟩, hs', List.drop_left]
  | cons c pre ih =>
      obtain ⟨p, q, hs, hle⟩ := ih
      rw [List.cons_append, List.cons_append, splitFirst]
      split
      · exact ⟨[], _, rfl, Nat.zero_le _⟩
      · exact ⟨c :: p, q, by rw [hs]; rfl, Nat.succ_le_succ hle⟩

/-- A split at the last `b` has `b` between its parts. -/
theorem splitLast_eq_some (h : splitLast b s = some (mid, rest)) : s = mid ++ b ++ rest := by
  induction s generalizing mid with
  | nil =>
      simp only [splitLast, Option.ite_none_right_eq_some, Option.some.injEq, Prod.mk.injEq] at h
      obtain ⟨rfl, rfl, rfl⟩ := h
      rfl
  | cons c s ih =>
      unfold splitLast at h
      split at h
      · next p hs =>
        obtain ⟨rfl, rfl⟩ := Prod.mk.inj (Option.some.inj h)
        simpa using ih hs
      · obtain ⟨⟨t, ht⟩, hr⟩ := Option.ite_none_right_eq_some.mp h
        obtain ⟨rfl, rfl⟩ := Prod.mk.inj (Option.some.inj hr)
        simp [← ht]

/-- A list that has `b` in it is split at some `b`. -/
theorem exists_splitLast (b mid rest : List α) :
    ∃ p q, splitLast b (mid ++ b ++ rest) = some (p, q) := by
  induction mid with
  | nil =>
      cases hs : [] ++ b ++ rest with
      | nil =>
          obtain ⟨rfl, rfl⟩ := List.append_eq_nil_iff.mp hs
          exact ⟨[], [], rfl⟩
      | cons c s =>
          have hb : b <+: c :: s := ⟨rest, hs⟩
          unfold splitLast
          split
          · exact ⟨_, _, rfl⟩
          · exact ⟨[], _, by rw [if_pos hb]⟩
  | cons c mid ih =>
      obtain ⟨p, q, hs⟩ := ih
      exact ⟨c :: p, q, by rw [List.cons_append, List.cons_append, splitLast, hs]⟩

/-- Only a list without `b` is not split at it. -/
theorem splitLast_eq_none_iff : splitLast b s = none ↔ ¬ b <:+: s := by
  constructor
  · rintro hn ⟨mid, rest, rfl⟩
    obtain ⟨p, q, hs⟩ := exists_splitLast b mid rest
    rw [hs] at hn
    cases hn
  · intro hb
    cases hs : splitLast b s with
    | none => rfl
    | some p => exact absurd ⟨p.1, p.2, (splitLast_eq_some hs).symm⟩ hb

/-- A text in front leaves the last occurrence where it is. -/
theorem splitLast_append (h : splitLast b s = some (mid, rest)) (p : List α) :
    splitLast b (p ++ s) = some (p ++ mid, rest) := by
  induction p with
  | nil => exact h
  | cons c p ih => rw [List.cons_append, splitLast, ih, List.cons_append]

/-- The last `b` behind `p` is the last one of what stands behind `p`. -/
theorem splitLast_of_append {p : List α} (h : splitLast b (p ++ s) = some (p ++ mid, rest)) :
    splitLast b s = some (mid, rest) := by
  induction p with
  | nil => exact h
  | cons c p ih =>
      rw [List.cons_append, List.cons_append, splitLast] at h
      split at h
      · next q hs =>
        obtain ⟨hq, rfl⟩ := Prod.mk.inj (Option.some.inj h)
        obtain ⟨-, hq⟩ := List.cons.inj hq
        exact ih (by rw [hs, ← hq])
      · obtain ⟨-, hr⟩ := Option.ite_none_right_eq_some.mp h
        cases (Prod.mk.inj (Option.some.inj hr)).1

/-- A list that begins with `a` is split at its beginning. -/
theorem splitFirst_append (a post : List α) : splitFirst a (a ++ post) = some ([], post) := by
  obtain ⟨p, q, hs, hle⟩ := exists_splitFirst a [] post
  obtain rfl : p = [] := List.length_eq_zero_iff.mp (Nat.le_zero.mp hle)
  have hq : a ++ post = a ++ q := splitFirst_eq_some hs
  rw [List.append_cancel_left hq] at hs ⊢
  exact hs

/-- What stands behind the leftmost occurrence has no say in where it is. -/
theorem splitFirst_congr (h : splitFirst a (pre ++ a ++ post) = some (pre, post))
    (post' : List α) : splitFirst a (pre ++ a ++ post') = some (pre, post') := by
  induction pre with
  | nil => exact splitFirst_append a post'
  | cons c pre ih =>
      rw [List.cons_append, List.cons_append, splitFirst] at h ⊢
      split at h
      · cases (Prod.mk.inj (Option.some.inj h)).1
      · next hn =>
        obtain ⟨⟨p, q⟩, hs, hpq⟩ := Option.map_eq_some_iff.mp h
        obtain ⟨hp, hq⟩ := Prod.mk.inj hpq
        obtain ⟨-, hp⟩ := List.cons.inj hp
        simp only at hp hq
        subst hp hq
        rw [if_neg, ih hs]
        · rfl
        · -- an occurrence at the start would lie in front of `post'`
          intro ha
          refine hn ?_
          have hpre : a <+: c :: (p ++ a) := by
            refine List.prefix_of_prefix_length_le ha ⟨post', rfl⟩ ?_
            simp only [List.length_cons, List.length_append]
            omega
          exact hpre.trans ⟨_, rfl⟩

/-! ## The match -/

/-- A match is a part of the line that starts with `a`. -/
theorem findSpan_eq_some (h : findSpan a b s = some (pre, mid, rest)) :
    s = pre ++ mid ++ rest ∧ ∃ t, mid = a ++ t := by
  unfold findSpan at h
  split at h
  · cases h
  · next pre' post hf =>
    split at h
    · cases h
    · next m r hl =>
      obtain ⟨rfl, hmr⟩ := Prod.mk.inj (Option.some.inj h)
      obtain ⟨rfl, rfl⟩ := Prod.mk.inj hmr
      refine ⟨?_, m ++ b, by simp⟩
      rw [splitFirst_eq_some hf, splitLast_eq_some hl]
      simp

/-- No `a` starts before the match. -/
theorem le_of_findSpan (h : findSpan a b s = some (pre, mid, rest)) {p q : List α}
    (hs : s = p ++ a ++ q) : pre.length ≤ p.length := by
  obtain ⟨p', q', hf, hle⟩ := exists_splitFirst a p q
  rw [← hs] at hf
  simp only [findSpan, hf] at h
  split at h
  · cases h
  · obtain ⟨rfl, -⟩ := Prod.mk.inj (Option.some.inj h)
    exact hle

/-- The pattern matches exactly the lines with an `a` and a `b` behind it. -/
theorem findSpan_isSome_iff :
    (findSpan a b s).isSome ↔ ∃ pre mid rest, s = pre ++ a ++ mid ++ b ++ rest := by
  constructor
  · intro h
    unfold findSpan at h
    split at h
    · cases h
    · next pre post hf =>
      split at h
      · cases h
      · next mid rest hl =>
        refine ⟨pre, mid, rest, ?_⟩
        rw [splitFirst_eq_some hf, splitLast_eq_some hl]
        simp
  · rintro ⟨pre, mid, rest, rfl⟩
    obtain ⟨p, q, hf, hle⟩ := exists_splitFirst a pre (mid ++ b ++ rest)
    have hs : pre ++ a ++ mid ++ b ++ rest = pre ++ a ++ (mid ++ b ++ rest) := by simp
    -- behind the leftmost `a` comes at least what comes behind this one
    have hq : ∃ m, q = m ++ b ++ rest := by
      have heq : (p ++ a) ++ q = (pre ++ a) ++ (mid ++ b ++ rest) := (splitFirst_eq_some hf).symm
      rcases List.append_eq_append_iff.mp heq with ⟨t, -, hq⟩ | ⟨t, ht, hq⟩
      · exact ⟨t ++ mid, by rw [hq]; simp⟩
      · have hlen := congrArg List.length ht
        simp only [List.length_append] at hlen
        have ht : t = [] := List.length_eq_zero_iff.mp (by omega)
        exact ⟨mid, by rw [hq, ht]; rfl⟩
    obtain ⟨m, rfl⟩ := hq
    obtain ⟨m', r', hl⟩ := exists_splitLast b m rest
    rw [hs, findSpan, hf]
    simp only [hl, Option.isSome_some]

/-! ## The edit -/

/-- Nothing is replaced where the pattern does not match. -/
theorem replaceSpan_of_none (h : findSpan a b s = none) : replaceSpan a b new s = s := by
  rw [replaceSpan, h]

/-- The span that matches is replaced. -/
theorem replaceSpan_of_some (h : findSpan a b s = some (pre, mid, rest)) :
    replaceSpan a b new s = pre ++ new ++ rest := by
  rw [replaceSpan, h]

/-- An edit keeps a line exactly when the match reads as the new text. -/
theorem replaceSpan_eq_self_iff (h : findSpan a b s = some (pre, mid, rest)) :
    replaceSpan a b new s = s ↔ mid = new := by
  rw [replaceSpan_of_some h, (findSpan_eq_some h).1, List.append_assoc, List.append_assoc,
    List.append_cancel_left_eq, List.append_cancel_right_eq, eq_comm]

/-- In a line that begins with `a`, the edit keeps what stands behind the last `b`. -/
theorem replaceSpan_append_of_some (h : splitLast b post = some (mid, rest)) :
    replaceSpan a b new (a ++ post) = new ++ rest := by
  rw [replaceSpan, findSpan, splitFirst_append]
  simp only [h, List.nil_append]

/-- An `a` with no `b` behind it is no match. -/
theorem replaceSpan_append_of_none (h : splitLast b post = none) :
    replaceSpan a b new (a ++ post) = a ++ post := by
  rw [replaceSpan, findSpan, splitFirst_append]
  simp only [h]

/-- An edit that puts in a match of its own pattern changes nothing when it is repeated: the new
text is found where the old one was. -/
theorem replaceSpan_idem {t : List α} (hnew : new = a ++ t ++ b) :
    replaceSpan a b new (replaceSpan a b new s) = replaceSpan a b new s := by
  cases hf : findSpan a b s with
  | none => rw [replaceSpan_of_none hf, replaceSpan_of_none hf]
  | some p =>
      obtain ⟨pre, m, rest⟩ := p
      have hfind := hf
      unfold findSpan at hfind
      split at hfind
      · cases hfind
      · next pre' post hfirst =>
        split at hfind
        · cases hfind
        · next mid rest' hlast =>
          obtain ⟨rfl, hmr⟩ := Prod.mk.inj (Option.some.inj hfind)
          obtain ⟨-, rfl⟩ := Prod.mk.inj hmr
          have hpost := splitLast_eq_some hlast
          have hb : splitLast b (b ++ rest') = some ([], rest') := by
            refine splitLast_of_append (p := mid) ?_
            rw [← List.append_assoc, ← hpost, List.append_nil]
            exact hlast
          have hfirst' := hfirst
          rw [splitFirst_eq_some hfirst] at hfirst'
          have hline : pre' ++ new ++ rest' = pre' ++ a ++ (t ++ (b ++ rest')) := by
            rw [hnew]
            simp only [List.append_assoc]
          rw [replaceSpan_of_some hf, hline]
          -- the same `a` is found, and behind it the `b` that ends `new`
          have hagain : findSpan a b (pre' ++ a ++ (t ++ (b ++ rest'))) =
              some (pre', new, rest') := by
            rw [findSpan, splitFirst_congr hfirst' _]
            simp only [splitLast_append hb t, List.append_nil, hnew]
          exact (replaceSpan_of_some hagain).trans hline

/-! ## Texts that an edit cannot make -/

/-- `b` is not in `new`, and cannot reach into it from outside. -/
def Apart (b new : List α) : Prop :=
  new ≠ [] ∧ ¬ b <:+: new ∧ (∀ c ∈ new.head?, c ∉ b) ∧ ∀ c ∈ new.getLast?, c ∉ b

instance (b new : List α) : Decidable (Apart b new) := inferInstanceAs (Decidable (_ ∧ _))

omit [DecidableEq α] in
/-- A text without the element `c` lies before or behind a `c`. -/
theorem infix_of_append_cons {c : α} {s t : List α} (hc : c ∉ b) (h : b <:+: s ++ c :: t) :
    b <:+: s ∨ b <:+: t := by
  obtain ⟨u, v, huv⟩ := h
  rcases List.append_eq_append_iff.mp huv with ⟨w, rfl, -⟩ | ⟨w, hw, hrest⟩
  · exact .inl ⟨u, w, rfl⟩
  · cases w with
    | nil => exact .inl ⟨u, [], by simpa using hw⟩
    | cons c' w =>
        obtain ⟨rfl, rfl⟩ := List.cons.inj hrest
        -- `b` ends behind this `c`, so it must begin behind it too
        rcases List.append_eq_append_iff.mp hw with ⟨x, -, rfl⟩ | ⟨x, -, hx⟩
        · exact absurd (List.mem_append_right x List.mem_cons_self) hc
        · cases x with
          | nil =>
              obtain rfl : c :: w = b := hx
              exact absurd List.mem_cons_self hc
          | cons c' x =>
              obtain ⟨-, rfl⟩ := List.cons.inj hx
              exact .inr ⟨x, v, rfl⟩

omit [DecidableEq α] in
/-- If `new` has no part of `b` at either end, `b` lies on one side of it. -/
theorem Apart.infix (hnew : Apart b new) (h : b <:+: pre ++ new ++ rest) :
    b <:+: pre ∨ b <:+: rest := by
  obtain ⟨hne, hno, hhead, hlast⟩ := hnew
  obtain ⟨c, t, rfl⟩ := List.exists_cons_of_ne_nil hne
  rw [List.append_assoc, List.cons_append] at h
  refine (infix_of_append_cons (hhead c rfl) h).imp_right fun ht => ?_
  rcases List.eq_nil_or_concat t with rfl | ⟨mid, e, rfl⟩
  · exact ht
  · rw [List.concat_eq_append, List.append_assoc, List.singleton_append] at ht
    have he : e ∉ b := by
      refine hlast e ?_
      rw [List.concat_eq_append, ← List.cons_append]
      exact List.getLast?_concat
    refine (infix_of_append_cons he ht).resolve_left fun hmid => hno ?_
    exact hmid.trans ⟨[c], [e], by simp⟩

/-- An edit that puts in a text apart from `b` makes no `b`. -/
theorem not_infix_replaceSpan {d : List α} (hnew : Apart d new) (hs : ¬ d <:+: s) :
    ¬ d <:+: replaceSpan a b new s := by
  cases hf : findSpan a b s with
  | none => rwa [replaceSpan_of_none hf]
  | some p =>
      obtain ⟨pre, mid, rest⟩ := p
      obtain ⟨rfl, -⟩ := findSpan_eq_some hf
      rw [replaceSpan_of_some hf]
      intro hd
      rcases hnew.infix hd with hpre | hrest
      · exact hs (hpre.trans ⟨[], mid ++ rest, by simp⟩)
      · exact hs (hrest.trans ⟨pre ++ mid, [], by simp⟩)

/-- A line that is edited has the end of the match before and after. -/
theorem infix_replaceSpan (hnew : b <:+: new) (hs : b <:+: s) :
    b <:+: replaceSpan a b new s := by
  cases hf : findSpan a b s with
  | none => rwa [replaceSpan_of_none hf]
  | some p =>
      obtain ⟨pre, mid, rest⟩ := p
      rw [replaceSpan_of_some hf]
      exact hnew.trans ⟨pre, rest, rfl⟩

/-- A line without the end of the match is not edited. -/
theorem replaceSpan_of_not_infix (hs : ¬ b <:+: s) : replaceSpan a b new s = s := by
  refine replaceSpan_of_none (Option.not_isSome_iff_eq_none.mp fun hsome => hs ?_)
  obtain ⟨pre, mid, rest, rfl⟩ := findSpan_isSome_iff.mp hsome
  exact ⟨pre ++ a ++ mid, rest, rfl⟩

end SpanPattern
