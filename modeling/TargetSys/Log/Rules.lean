import Mathlib.Data.List.TakeWhile
import TargetSys.Log.Basic

/-!
# Rule lines and their edits

A rule line of the zlog configuration reads `category.level`, blanks, and an action. `zlogRule`
takes a line apart in this way. A rule belongs to a module when its category is the name of the
module, and it is a rule for the standard output when its action begins with `>stdout`.

No module name holds a blank or a dot, and none is the end of another one. This decides what the
edit of a module does to one line: either the module name stands at the start of the line, and the
line becomes a rule of the module for the standard output with the new level, or the line keeps its
category.

## Main results

* `startsWith_iff`: when the match stands at the start of a line.
* `zlogRule_stdoutSed`: an edited line that began with the module name is its rule at the level.
* `ruleOf_of_stdoutSed`: any other edited line keeps the module that it belongs to.
-/

namespace TargetSys.Log

open SpanPattern

/-! ## Rules -/

def isBlank (c : Char) : Bool := c.isWhitespace

def isWordChar (c : Char) : Bool := !isBlank c

def isNotDot (c : Char) : Bool := c != '.'

def dropBlanks (s : List Char) : List Char := s.dropWhile isBlank

/-- The parts of a rule line. -/
structure ZlogRule where
  category : List Char
  level : List Char
  action : List Char
deriving DecidableEq, Repr

/-- A line as a rule: the word up to the first blank is the selector, the part of the selector
before its first dot is the category. -/
def zlogRule (line : Line) : Option ZlogRule :=
  let text := dropBlanks line
  let selector := text.takeWhile isWordChar
  match selector.dropWhile isNotDot with
  | [] => none
  | _ :: level =>
      some ⟨selector.takeWhile isNotDot, level, dropBlanks (text.dropWhile isWordChar)⟩

/-- The line is a rule of module `m`. -/
def RuleOf (m : Module) (line : Line) : Prop :=
  ∃ r, zlogRule line = some r ∧ r.category = modName m

instance (m : Module) (line : Line) : Decidable (RuleOf m line) :=
  decidable_of_iff (∃ r ∈ zlogRule line, r.category = modName m) Iff.rfl

/-- The line is the rule `r` of module `m` for the standard output. -/
def StdoutRule (m : Module) (r : ZlogRule) (line : Line) : Prop :=
  zlogRule line = some r ∧ r.category = modName m ∧ ">stdout".toList <+: r.action

/-- A rule for the standard output is a rule of its module. -/
theorem StdoutRule.ruleOf {m : Module} {r : ZlogRule} {line : Line} (h : StdoutRule m r line) :
    RuleOf m line :=
  ⟨r, h.1, h.2.1⟩

/-! ## Names -/

/-- Module names are words without a dot. -/
theorem all_modName : ∀ m : Module, (modName m).all fun c => isWordChar c && isNotDot c := by
  decide +kernel

/-- Level names are words. -/
theorem all_levelName : ∀ l : Level, (levelName l).all isWordChar := by
  decide +kernel

/-- A character of a module name is one of a word. -/
theorem isWordChar_of_mem_modName (m : Module) : ∀ c ∈ modName m, isWordChar c := fun c hc =>
  (Bool.and_eq_true_iff.mp (List.all_eq_true.mp (all_modName m) c hc)).1

/-- A character of a module name is no dot. -/
theorem isNotDot_of_mem_modName (m : Module) : ∀ c ∈ modName m, isNotDot c := fun c hc =>
  (Bool.and_eq_true_iff.mp (List.all_eq_true.mp (all_modName m) c hc)).2

/-- A character of a level name is one of a word. -/
theorem isWordChar_of_mem_levelName (l : Level) : ∀ c ∈ levelName l, isWordChar c :=
  List.all_eq_true.mp (all_levelName l)

/-- Every module has a name. -/
theorem modName_ne_nil : ∀ m : Module, modName m ≠ [] := by
  decide +kernel

/-- No module name is the end of another one. -/
theorem eq_of_modName_suffix : ∀ m m' : Module, modName m <:+ modName m' → m = m' := by
  decide +kernel

/-- Different modules have different names. -/
theorem modName_injective {m m' : Module} (h : modName m = modName m') : m = m' :=
  eq_of_modName_suffix m m' (h ▸ List.suffix_refl _)

/-! ## Reading a rule -/

/-- A line that begins with a word has no blanks to drop. -/
theorem dropBlanks_of_isWordChar {c : Char} (h : isWordChar c) (s : List Char) :
    dropBlanks (c :: s) = c :: s := by
  refine List.dropWhile_cons_of_neg ?_
  simpa [isWordChar] using h

/-- A line that begins with the name of a module and a dot is a rule of this module. -/
theorem zlogRule_of_dropBlanks {m : Module} {line : Line} {t : List Char}
    (h : dropBlanks line = modName m ++ '.' :: t) :
    zlogRule line =
      some ⟨modName m, t.takeWhile isWordChar, dropBlanks (t.dropWhile isWordChar)⟩ := by
  have hword := isWordChar_of_mem_modName m
  have hdot := isNotDot_of_mem_modName m
  have hsel : (modName m ++ '.' :: t).takeWhile isWordChar =
      modName m ++ '.' :: t.takeWhile isWordChar := by
    rw [List.takeWhile_append_of_pos hword, List.takeWhile_cons_of_pos (by decide)]
  have hrest : (modName m ++ '.' :: t).dropWhile isWordChar = t.dropWhile isWordChar := by
    rw [List.dropWhile_append_of_pos hword, List.dropWhile_cons_of_pos (by decide)]
  have hlevel : (modName m ++ '.' :: t.takeWhile isWordChar).dropWhile isNotDot =
      '.' :: t.takeWhile isWordChar := by
    rw [List.dropWhile_append_of_pos hdot, List.dropWhile_cons_of_neg (by decide)]
  have hcat : (modName m ++ '.' :: t.takeWhile isWordChar).takeWhile isNotDot = modName m := by
    rw [List.takeWhile_append_of_pos hdot, List.takeWhile_cons_of_neg (by decide), List.append_nil]
  simp only [zlogRule, h, hsel, hrest, hlevel, hcat]

/-- The rules of a module are the lines that begin with its name and a dot. -/
theorem ruleOf_iff {m : Module} {line : Line} :
    RuleOf m line ↔ ∃ t, dropBlanks line = modName m ++ '.' :: t := by
  constructor
  · rintro ⟨r, hr, hcat⟩
    simp only [zlogRule] at hr
    split at hr
    · cases hr
    · next c level hsel =>
      -- the selector is the category, the dot, and the level
      have hc : c = '.' := by
        have hhead := List.head_dropWhile_not isNotDot (by rw [hsel]; exact List.cons_ne_nil _ _)
        simp only [hsel, List.head_cons] at hhead
        simpa [isNotDot] using hhead
      have hname : ((dropBlanks line).takeWhile isWordChar).takeWhile isNotDot = modName m := by
        rw [← hcat, ← Option.some.inj hr]
      have hword : (dropBlanks line).takeWhile isWordChar = modName m ++ '.' :: level := by
        rw [← hname, ← hc, ← hsel, List.takeWhile_append_dropWhile]
      refine ⟨level ++ (dropBlanks line).dropWhile isWordChar, ?_⟩
      calc dropBlanks line
          = (dropBlanks line).takeWhile isWordChar ++ (dropBlanks line).dropWhile isWordChar :=
            List.takeWhile_append_dropWhile.symm
        _ = _ := by rw [hword, List.append_assoc, List.cons_append]
  · rintro ⟨t, ht⟩
    exact ⟨_, zlogRule_of_dropBlanks ht, rfl⟩

/-- A line belongs to one module only. -/
theorem RuleOf.unique {m m' : Module} {line : Line} (h : RuleOf m line) (h' : RuleOf m' line) :
    m = m' := by
  obtain ⟨r, hr, hcat⟩ := h
  obtain ⟨r', hr', hcat'⟩ := h'
  rw [hr] at hr'
  rw [← Option.some.inj hr'] at hcat'
  exact modName_injective (hcat.symm.trans hcat')

/-- What `sed` and `echo` write reads as a rule for the standard output. -/
theorem zlogRule_newRule {m : Module} {l : Level} {line : Line} {rest : List Char}
    (h : dropBlanks line = newRule m l stdoutTail ++ rest) :
    zlogRule line = some ⟨modName m, levelName l, ">stdout".toList ++ rest⟩ := by
  have hword := isWordChar_of_mem_levelName l
  have ht : newRule m l stdoutTail ++ rest =
      modName m ++ '.' :: (levelName l ++ (' ' :: (">stdout".toList ++ rest))) := by
    have htail : stdoutTail = ' ' :: ">stdout".toList := rfl
    rw [newRule, htail]
    simp only [List.append_assoc, List.cons_append]
  rw [zlogRule_of_dropBlanks (h.trans ht), List.takeWhile_append_of_pos hword,
    List.dropWhile_append_of_pos hword, List.takeWhile_cons_of_neg (by decide),
    List.dropWhile_cons_of_neg (by decide), List.append_nil]
  rfl

/-! ## The edit of one line -/

/-- The module name stands at the start of the line. -/
def StartsWith (m : Module) (line : Line) : Prop := modName m <+: dropBlanks line

/-- A rule begins with the name of its module. -/
theorem RuleOf.startsWith {m : Module} {line : Line} (h : RuleOf m line) : StartsWith m line := by
  obtain ⟨t, ht⟩ := ruleOf_iff.mp h
  exact ⟨_, ht.symm⟩

/-- Blanks at the start are dropped. -/
theorem dropBlanks_append {pre : List Char} (h : ∀ c ∈ pre, isBlank c) (s : List Char) :
    dropBlanks (pre ++ s) = dropBlanks s :=
  List.dropWhile_append_of_pos h

/-- What stands behind the first other character is kept. -/
theorem dropBlanks_append_of_ne_nil {pre : List Char} (h : dropBlanks pre ≠ []) (s : List Char) :
    dropBlanks (pre ++ s) = dropBlanks pre ++ s := by
  unfold dropBlanks at h ⊢
  rw [List.dropWhile_append, if_neg (by simpa using h)]

/-- Nothing is dropped before a module name. -/
theorem dropBlanks_modName_append (m : Module) (s : List Char) :
    dropBlanks (modName m ++ s) = modName m ++ s := by
  cases hm : modName m with
  | nil => exact absurd hm (modName_ne_nil m)
  | cons c name =>
      have hc : isWordChar c := isWordChar_of_mem_modName m c (by rw [hm]; exact List.mem_cons_self)
      exact dropBlanks_of_isWordChar hc _

/-- A new rule behind blanks stands at the start of the line. -/
theorem dropBlanks_newRule {pre : List Char} (h : ∀ c ∈ pre, isBlank c) (m : Module) (l : Level)
    (tail rest : List Char) :
    dropBlanks (pre ++ newRule m l tail ++ rest) = newRule m l tail ++ rest := by
  simp only [newRule, List.append_assoc]
  rw [dropBlanks_append h, dropBlanks_modName_append]

/-- What `echo` writes reads as a rule for the standard output. -/
theorem zlogRule_appendedRule (m : Module) (l : Level) :
    zlogRule (appendedRule m l) =
      some ⟨modName m, levelName l, ">stdout".toList ++ ";console_format".toList⟩ := by
  refine zlogRule_newRule ?_
  exact dropBlanks_newRule (List.forall_mem_nil _) m l stdoutTail _

variable {m m' : Module} {l : Level} {line : Line} {pre mid rest : List Char}

/-- Only blanks stand before the match exactly if the line begins with the module name. -/
theorem startsWith_iff (h : stdoutMatch m line = some (pre, mid, rest)) :
    StartsWith m line ↔ ∀ c ∈ pre, isBlank c := by
  obtain ⟨hline, t, ht⟩ := findSpan_eq_some h
  constructor
  · rintro ⟨q, hq⟩ c hc
    -- the match is leftmost, so it starts no later than the first word of the line
    have hsplit : line = line.takeWhile isBlank ++ modName m ++ q := by
      rw [List.append_assoc, hq]
      exact List.takeWhile_append_dropWhile.symm
    have hle := le_of_findSpan h hsplit
    have hpre : pre <+: line.takeWhile isBlank := by
      refine List.prefix_of_prefix_length_le ⟨mid ++ rest, ?_⟩ (List.takeWhile_prefix _) hle
      rw [hline, List.append_assoc]
    exact List.mem_takeWhile_imp (hpre.subset hc)
  · intro hpre
    refine ⟨t ++ rest, ?_⟩
    rw [hline, ht, List.append_assoc, dropBlanks_append hpre, List.append_assoc,
      dropBlanks_modName_append]

/-- A line that matches gets the new rule in place of the match. -/
theorem stdoutSed_eq (h : stdoutMatch m line = some (pre, mid, rest)) :
    stdoutSed m l line = pre ++ newRule m l stdoutTail ++ rest :=
  replaceSpan_of_some h

/-- An edited line that began with the module name is its rule for the standard output. -/
theorem zlogRule_stdoutSed (h : stdoutMatch m line = some (pre, mid, rest))
    (hs : StartsWith m line) :
    zlogRule (stdoutSed m l line) =
      some ⟨modName m, levelName l, ">stdout".toList ++ rest⟩ := by
  refine zlogRule_newRule ?_
  rw [stdoutSed_eq h, dropBlanks_newRule ((startsWith_iff h).mp hs)]

/-- Any edited line that belongs to a module did so before, or began with the edited name. -/
theorem ruleOf_of_stdoutSed (h : stdoutMatch m line = some (pre, mid, rest))
    (hr : RuleOf m' (stdoutSed m l line)) : RuleOf m' line ∨ (m' = m ∧ StartsWith m line) := by
  by_cases hs : StartsWith m line
  · refine Or.inr ⟨hr.unique ⟨_, zlogRule_stdoutSed h hs, rfl⟩, hs⟩
  · left
    obtain ⟨hline, t, ht⟩ := findSpan_eq_some h
    have hne : dropBlanks pre ≠ [] := fun hnil => by
      exact hs ((startsWith_iff h).mpr (List.dropWhile_eq_nil_iff.mp hnil))
    have hname : modName m' ≠ dropBlanks pre ++ modName m := fun heq => by
      obtain rfl := eq_of_modName_suffix m m' ⟨_, heq.symm⟩
      exact hne (by simpa using heq)
    -- both lines go on with `pre` and the name of `m`
    have hold : dropBlanks line = (dropBlanks pre ++ modName m) ++ (t ++ rest) := by
      rw [hline, ht, List.append_assoc, dropBlanks_append_of_ne_nil hne]
      simp only [List.append_assoc]
    have hnew : dropBlanks (stdoutSed m l line) =
        (dropBlanks pre ++ modName m) ++ ('.' :: (levelName l ++ stdoutTail ++ rest)) := by
      rw [stdoutSed_eq h, List.append_assoc, dropBlanks_append_of_ne_nil hne]
      simp only [newRule, List.append_assoc, List.cons_append]
    obtain ⟨u, hu⟩ := ruleOf_iff.mp hr
    rw [hnew] at hu
    rcases List.append_eq_append_iff.mp hu with ⟨v, hv, hdot⟩ | ⟨v, hv, hdot⟩
    · cases v with
      | nil => exact absurd (hv.trans (List.append_nil _)) hname
      | cons c v =>
          obtain ⟨rfl, -⟩ := List.cons.inj hdot
          have hmem : '.' ∈ modName m' := by
            rw [hv]
            exact List.mem_append_right _ List.mem_cons_self
          exact absurd (isNotDot_of_mem_modName m' '.' hmem) (by decide)
    · cases v with
      | nil => exact absurd (hv.trans (List.append_nil _)).symm hname
      | cons c v =>
          obtain ⟨rfl, -⟩ := List.cons.inj hdot
          refine ruleOf_iff.mpr ⟨v ++ (t ++ rest), ?_⟩
          rw [hold, hv, List.append_assoc, List.cons_append]

/-- A line that does not match is kept. -/
theorem stdoutSed_of_none (h : stdoutMatch m line = none) : stdoutSed m l line = line :=
  replaceSpan_of_none h

/-- A rule of the module in an edited line is for the standard output, at the new level. -/
theorem level_of_stdoutSed {r : ZlogRule} (h : stdoutMatch m line = some (pre, mid, rest))
    (hr : zlogRule (stdoutSed m l line) = some r) (hcat : r.category = modName m) :
    r.level = levelName l := by
  have hs : StartsWith m line := by
    rcases ruleOf_of_stdoutSed h ⟨r, hr, hcat⟩ with hm | ⟨-, hs⟩
    · exact hm.startsWith
    · exact hs
  rw [zlogRule_stdoutSed h hs] at hr
  rw [← Option.some.inj hr]

end TargetSys.Log
