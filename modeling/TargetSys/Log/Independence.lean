import TargetSys.Log.Rules

/-!
# Independence of the log levels

A call for the standard output should give its module the new level and leave the rules of the other
modules alone. Over a run of calls this means: every module that was set has rules for the standard
output, all at the level of its last call, and the lines of modules that were never set are as they
were.

The pattern of a call is the bare module name, so it also matches behind the start of a line, and it
matches names that go on: `BF_PI` matches every rule of `BF_PIPE`. `Selective` says that the
pattern of a call selects the right lines of the file. A run of selective calls is independent, and
for one call on any file this condition is exact.

Reference: `src/bf_sal/linux_usr/bf_sys_log.c`.

## Main results

* `Independent.step`: a selective call keeps the levels independent.
* `Independent.selective`: a call that leaves the levels independent was selective.
* `not_selective_bfModPi`: no call for `BF_PI` is selective next to a rule of `BF_PIPE`.
* `levelSetRun_independent_iff_selective`: runs of selective calls, and the converse for one call.
* `levelSetRun_not_independent`: setting `BF_PI` turns the rule of `BF_PIPE` into its own.
-/

namespace TargetSys.Log

/-- The lines of the file after calls for the standard output with the given modules and levels. -/
def levelSetRun (env : Env) (file : List Char) (init : List Line) (calls : List (Module × Level)) :
    List Line :=
  calls.foldl (fun cfg c => (bfSysLogLevelSet env file c.1 bfLogDestStdout c.2 cfg).2) init

/-- The level that the last call for module `m` asked for. -/
def lastLevel (calls : List (Module × Level)) (m : Module) : Option Level :=
  (calls.reverse.find? (·.1 = m)).map Prod.snd

/-- The levels are independent and the last setting wins: `cfg` is a good file after `calls` on the
file `init`. -/
structure Independent (init : List Line) (calls : List (Module × Level)) (cfg : List Line) :
    Prop where
  hasRule : ∀ m l, lastLevel calls m = some l → ∃ line ∈ cfg, ∃ r, StdoutRule m r line
  lastWins : ∀ m l, lastLevel calls m = some l →
    ∀ line ∈ cfg, ∀ r, StdoutRule m r line → r.level = levelName l
  frame : ∀ (i : ℕ) line m, init[i]? = some line → RuleOf m line → lastLevel calls m = none →
    cfg[i]? = some line

/-- The pattern of module `m` selects the right lines for a call with level `l`. -/
structure Selective (m : Module) (l : Level) (cfg : List Line) : Prop where
  /-- In a line of another module it matches nothing, or a text that reads as the new rule. -/
  others : ∀ line ∈ cfg, ∀ m', RuleOf m' line → m' ≠ m →
    ∀ pre mid rest, stdoutMatch m line = some (pre, mid, rest) → mid = newRule m l stdoutTail
  /-- A rule of the module that it does not match has the new level. -/
  hidden : ∀ line ∈ cfg, ∀ r, StdoutRule m r line → stdoutMatch m line = none →
    r.level = levelName l
  /-- If it matches at all, a line it matches begins with the name, or the module has a rule. -/
  found : (∃ line ∈ cfg, (stdoutMatch m line).isSome) →
    ∃ line ∈ cfg, ((stdoutMatch m line).isSome ∧ StartsWith m line) ∨ ∃ r, StdoutRule m r line

/-! ## Runs -/

/-- The later calls go on with the file that the earlier ones have left. -/
theorem levelSetRun_append (env : Env) (file : List Char) (init : List Line)
    (calls calls' : List (Module × Level)) :
    levelSetRun env file init (calls ++ calls') =
      levelSetRun env file (levelSetRun env file init calls) calls' :=
  List.foldl_append

/-- One call is one edit. -/
theorem levelSetRun_singleton {env : Env} {file : List Char} (he : env.Succeeds file)
    (init : List Line) (c : Module × Level) :
    levelSetRun env file init [c] = stdoutEdit c.1 c.2 init := by
  unfold levelSetRun
  rw [List.foldl_cons, List.foldl_nil, bfSysLogLevelSet_stdout he]

/-- Before the first call no level is set. -/
@[simp] theorem lastLevel_nil (m : Module) : lastLevel [] m = none := rfl

/-- The level of the last call for a module counts. -/
theorem lastLevel_snoc (calls : List (Module × Level)) (c : Module × Level) (m : Module) :
    lastLevel (calls ++ [c]) m = if c.1 = m then some c.2 else lastLevel calls m := by
  unfold lastLevel
  rw [List.reverse_append, List.reverse_singleton, List.singleton_append, List.find?_cons]
  by_cases h : c.1 = m
  · simp [h]
  · simp [h]

/-! ## One call -/

variable {m : Module} {l : Level} {init cfg : List Line} {line : Line}
  {calls : List (Module × Level)}

/-- A call edits every line, and appends its rule when no line matches. -/
theorem stdoutEdit_eq (m : Module) (l : Level) (cfg : List Line) :
    stdoutEdit m l cfg = cfg.map (stdoutSed m l) ++
      if ∃ line ∈ cfg, (stdoutMatch m line).isSome then [] else [appendedRule m l] := by
  unfold stdoutEdit
  split
  · rw [List.append_nil]
  · next h =>
    have hid : ∀ line ∈ cfg, stdoutSed m l line = line := fun line hline => by
      refine stdoutSed_of_none (Option.not_isSome_iff_eq_none.mp fun hm => h ⟨line, hline, hm⟩)
    rw [List.map_congr_left hid, List.map_id']

/-- Every line is still there, as `sed` has left it. -/
theorem mem_stdoutEdit_of_mem (h : line ∈ cfg) : stdoutSed m l line ∈ stdoutEdit m l cfg := by
  rw [stdoutEdit_eq]
  exact List.mem_append_left _ (List.mem_map_of_mem h)

/-- Every line after a call is an edited line or the appended rule. -/
theorem of_mem_stdoutEdit (h : line ∈ stdoutEdit m l cfg) :
    (∃ old ∈ cfg, line = stdoutSed m l old) ∨ line = appendedRule m l := by
  rw [stdoutEdit_eq] at h
  rcases List.mem_append.mp h with h | h
  · obtain ⟨old, hold, rfl⟩ := List.mem_map.mp h
    exact Or.inl ⟨old, hold, rfl⟩
  · split at h
    · cases h
    · exact Or.inr (List.mem_singleton.mp h)

/-- It is at the same place, too. -/
theorem getElem?_stdoutEdit {i : ℕ} (h : cfg[i]? = some line) :
    (stdoutEdit m l cfg)[i]? = some (stdoutSed m l line) := by
  obtain ⟨hi, -⟩ := List.getElem?_eq_some_iff.mp h
  rw [stdoutEdit_eq, List.getElem?_append_left (by simpa using hi), List.getElem?_map, h]
  rfl

/-- A pattern that matches exactly the rules of its module is selective. -/
theorem selective_of_isSome_iff
    (h : ∀ line ∈ cfg, (stdoutMatch m line).isSome ↔ RuleOf m line) : Selective m l cfg where
  others line hline m' hr hne pre mid rest hm := by
    have hown : RuleOf m line := (h line hline).mp (by rw [hm]; rfl)
    exact absurd (hr.unique hown) hne
  hidden line hline r hr hm := by
    have hsome := (h line hline).mpr hr.ruleOf
    rw [hm] at hsome
    cases hsome
  found hany := by
    obtain ⟨line, hline, hm⟩ := hany
    exact ⟨line, hline, Or.inl ⟨hm, ((h line hline).mp hm).startsWith⟩⟩

/-- A selective call keeps the lines of the other modules. -/
theorem Selective.stdoutSed_eq_self (h : Selective m l cfg) (hline : line ∈ cfg) {m' : Module}
    (hr : RuleOf m' line) (hne : m' ≠ m) : stdoutSed m l line = line := by
  cases hm : stdoutMatch m line with
  | none => exact stdoutSed_of_none hm
  | some p =>
      obtain ⟨pre, mid, rest⟩ := p
      exact (SpanPattern.replaceSpan_eq_self_iff hm).mpr (h.others line hline m' hr hne _ _ _ hm)

/-- After a selective call, the rules of its module are at its level. -/
theorem Selective.level_eq (h : Selective m l cfg) (hline : line ∈ stdoutEdit m l cfg)
    {r : ZlogRule} (hr : StdoutRule m r line) : r.level = levelName l := by
  rcases of_mem_stdoutEdit hline with ⟨old, hold, rfl⟩ | rfl
  · cases hm : stdoutMatch m old with
    | none =>
        rw [stdoutSed_of_none hm] at hr
        exact h.hidden old hold r hr hm
    | some p => exact level_of_stdoutSed hm hr.1 hr.2.1
  · have heq := (zlogRule_appendedRule m l).symm.trans hr.1
    rw [← Option.some.inj heq]

/-- After a selective call, its module has a rule. -/
theorem Selective.exists_rule (h : Selective m l cfg) :
    ∃ line ∈ stdoutEdit m l cfg, ∃ r, StdoutRule m r line := by
  by_cases hany : ∃ line ∈ cfg, (stdoutMatch m line).isSome
  · obtain ⟨line, hline, ⟨hm, hs⟩ | ⟨r, hr⟩⟩ := h.found hany
    · obtain ⟨p, hp⟩ := Option.isSome_iff_exists.mp hm
      exact ⟨_, mem_stdoutEdit_of_mem hline, _, zlogRule_stdoutSed hp hs, rfl,
        List.prefix_append ..⟩
    · cases hm : stdoutMatch m line with
      | none =>
          have hmem := mem_stdoutEdit_of_mem (m := m) (l := l) hline
          rw [stdoutSed_of_none hm] at hmem
          exact ⟨line, hmem, r, hr⟩
      | some p =>
          exact ⟨_, mem_stdoutEdit_of_mem hline, _, zlogRule_stdoutSed hm hr.ruleOf.startsWith, rfl,
            List.prefix_append ..⟩
  · refine ⟨appendedRule m l, ?_, _, zlogRule_appendedRule m l, rfl, List.prefix_append ..⟩
    rw [stdoutEdit_eq, if_neg hany]
    exact List.mem_append_right _ List.mem_cons_self

/-- A rule of another module after a selective call was a rule before. -/
theorem Selective.mem_of_ruleOf (h : Selective m l cfg) (hline : line ∈ stdoutEdit m l cfg)
    {m' : Module} (hr : RuleOf m' line) (hne : m' ≠ m) : line ∈ cfg := by
  rcases of_mem_stdoutEdit hline with ⟨old, hold, rfl⟩ | rfl
  · cases hm : stdoutMatch m old with
    | none => rwa [stdoutSed_of_none hm]
    | some p =>
        rcases ruleOf_of_stdoutSed hm hr with hr | ⟨heq, -⟩
        · rwa [h.stdoutSed_eq_self hold hr hne]
        · exact absurd heq hne
  · exact absurd (hr.unique ⟨_, zlogRule_appendedRule m l, rfl⟩) hne

/-- A selective call keeps the levels independent. -/
theorem Independent.step (hi : Independent init calls cfg) (h : Selective m l cfg) :
    Independent init (calls ++ [(m, l)]) (stdoutEdit m l cfg) where
  hasRule m' l' hlast := by
    rw [lastLevel_snoc] at hlast
    split at hlast
    · next heq =>
      obtain rfl : m = m' := heq
      exact h.exists_rule
    · -- the rules of other modules go through the edit as they are
      next hne =>
      obtain ⟨line, hline, r, hr⟩ := hi.hasRule m' l' hlast
      have hmem := mem_stdoutEdit_of_mem (m := m) (l := l) hline
      rw [h.stdoutSed_eq_self hline hr.ruleOf (Ne.symm hne)] at hmem
      exact ⟨line, hmem, r, hr⟩
  lastWins m' l' hlast line hline r hr := by
    rw [lastLevel_snoc] at hlast
    split at hlast
    · next heq =>
      obtain rfl : m = m' := heq
      rw [← Option.some.inj hlast]
      exact h.level_eq hline hr
    · next hne =>
      exact hi.lastWins m' l' hlast line (h.mem_of_ruleOf hline hr.ruleOf (Ne.symm hne)) r hr
  frame i line m' hinit hr hlast := by
    rw [lastLevel_snoc] at hlast
    split at hlast
    · cases hlast
    · next hne =>
      have hcfg := hi.frame i line m' hinit hr hlast
      rw [getElem?_stdoutEdit hcfg,
        h.stdoutSed_eq_self (List.mem_of_getElem? hcfg) hr (Ne.symm hne)]

/-- No calls leave everything as it is. -/
theorem independent_nil (init : List Line) : Independent init [] init where
  hasRule _ _ hlast := by cases hlast
  lastWins _ _ hlast := by cases hlast
  frame _ _ _ hinit _ _ := hinit

/-- A call that leaves the levels independent was selective. -/
theorem Independent.selective (h : Independent init [(m, l)] (stdoutEdit m l init)) :
    Selective m l init where
  others line hline m' hr hne pre mid rest hm := by
    obtain ⟨i, hi⟩ := List.mem_iff_getElem?.mp hline
    have hlast : lastLevel [(m, l)] m' = none := by
      rw [← List.nil_append [(m, l)], lastLevel_snoc, if_neg (Ne.symm hne), lastLevel_nil]
    have hkeep := h.frame i line m' hi hr hlast
    rw [getElem?_stdoutEdit hi] at hkeep
    exact (SpanPattern.replaceSpan_eq_self_iff hm).mp (Option.some.inj hkeep)
  hidden line hline r hr hm := by
    have hmem := mem_stdoutEdit_of_mem (m := m) (l := l) hline
    rw [stdoutSed_of_none hm] at hmem
    exact h.lastWins m l (by simp [lastLevel]) line hmem r hr
  found hany := by
    obtain ⟨line, hline, r, hr⟩ := h.hasRule m l (by simp [lastLevel])
    rw [stdoutEdit, if_pos hany] at hline
    obtain ⟨old, hold, rfl⟩ := List.mem_map.mp hline
    refine ⟨old, hold, ?_⟩
    cases hm : stdoutMatch m old with
    | none =>
        rw [stdoutSed_of_none hm] at hr
        exact Or.inr ⟨r, hr⟩
    | some p =>
        refine Or.inl ⟨rfl, ?_⟩
        rcases ruleOf_of_stdoutSed hm hr.ruleOf with hm | ⟨-, hs⟩
        · exact hm.startsWith
        · exact hs

/-- The pattern of `BF_PI` matches wherever the pattern of `BF_PIPE` does. -/
theorem isSome_stdoutMatch_bfModPi (h : (stdoutMatch bfModPipe line).isSome) :
    (stdoutMatch bfModPi line).isSome := by
  obtain ⟨pre, mid, rest, rfl⟩ := SpanPattern.findSpan_isSome_iff.mp h
  have hname : modName bfModPipe = modName bfModPi ++ "PE".toList := by decide +kernel
  refine SpanPattern.findSpan_isSome_iff.mpr ⟨pre, "PE".toList ++ mid, rest, ?_⟩
  simp only [hname, List.append_assoc]

/-- A call for `BF_PI` is not selective next to a rule of `BF_PIPE` that `BF_PIPE` itself could
set. -/
theorem not_selective_bfModPi (hline : line ∈ cfg) (hr : RuleOf bfModPipe line)
    (hm : (stdoutMatch bfModPipe line).isSome) : ¬ Selective bfModPi l cfg := by
  intro h
  obtain ⟨⟨pre, mid, rest⟩, hm⟩ := Option.isSome_iff_exists.mp (isSome_stdoutMatch_bfModPi hm)
  have hname : modName bfModPi <+: modName bfModPipe := by decide +kernel
  have hs : StartsWith bfModPi line := hname.trans hr.startsWith
  have hpre := (startsWith_iff hm).mp hs
  have hmid := h.others line hline _ hr (by decide) pre mid rest hm
  -- with the new rule at its start, the line would be a rule of `BF_PI`
  have hnew : dropBlanks line = newRule bfModPi l stdoutTail ++ rest := by
    rw [(SpanPattern.findSpan_eq_some hm).1, hmid, dropBlanks_newRule hpre]
  have hpi : RuleOf bfModPi line := ⟨_, zlogRule_newRule hnew, rfl⟩
  exact absurd (hr.unique hpi) (by decide)

/-! ## Runs of calls -/

/-- In a run of selective calls the levels are independent in every file that is reached. For one
call, on any file, the levels are independent exactly if the call is selective. -/
theorem levelSetRun_independent_iff_selective {env : Env} {file : List Char}
    (he : env.Succeeds file) :
    (∀ init calls,
      (∀ pre c post, calls = pre ++ c :: post →
        Selective c.1 c.2 (levelSetRun env file init pre)) →
      ∀ pre post, calls = pre ++ post → Independent init pre (levelSetRun env file init pre)) ∧
    ∀ init c, Independent init [c] (levelSetRun env file init [c]) ↔ Selective c.1 c.2 init := by
  constructor
  · intro init calls hsel pre
    -- the induction is on the calls made so far, the last one split off
    induction pre using List.reverseRecOn with
    | nil => exact fun _ _ => independent_nil init
    | append_singleton pre c ih =>
        intro post hcalls
        rw [List.append_assoc, List.singleton_append] at hcalls
        rw [levelSetRun_append, levelSetRun_singleton he]
        exact (ih _ hcalls).step (hsel pre c post hcalls)
  · intro init c
    rw [levelSetRun_singleton he]
    exact ⟨Independent.selective, fun h => (independent_nil init).step h⟩

/-- A rule of `BF_SYS` is in the file and one of `BF_PIPE` is appended. Each of the two follows its own
calls. -/
theorem levelSetRun_sys_independent :
    Independent ["[rules]".toList, appendedRule bfModSys bfLogInfo]
      [(bfModPipe, bfLogInfo), (bfModSys, bfLogDbg), (bfModPipe, bfLogDbg)]
      (levelSetRun ⟨fun _ => true, fun _ => 0⟩ "zlog-cfg-cur".toList
        ["[rules]".toList, appendedRule bfModSys bfLogInfo]
        [(bfModPipe, bfLogInfo), (bfModSys, bfLogDbg), (bfModPipe, bfLogDbg)]) := by
  have he : Env.Succeeds ⟨fun _ => true, fun _ => 0⟩ "zlog-cfg-cur".toList :=
    ⟨fun _ => rfl, by decide +kernel, fun _ => rfl⟩
  refine (levelSetRun_independent_iff_selective he).1 _ _ ?_ _ [] rfl
  intro pre c post hcalls
  rw [List.append_nil] at hcalls
  -- each of the three patterns matches the rules of its module and no other line
  rcases pre with _ | ⟨c₁, _ | ⟨c₂, _ | ⟨c₃, pre⟩⟩⟩
  · obtain ⟨rfl, -⟩ := List.cons.inj hcalls
    exact selective_of_isSome_iff (by decide +kernel)
  · obtain ⟨hc₁, hcalls⟩ := List.cons.inj hcalls
    obtain ⟨rfl, -⟩ := List.cons.inj hcalls
    subst hc₁
    exact selective_of_isSome_iff (by decide +kernel)
  · obtain ⟨hc₁, hcalls⟩ := List.cons.inj hcalls
    obtain ⟨hc₂, hcalls⟩ := List.cons.inj hcalls
    obtain ⟨rfl, -⟩ := List.cons.inj hcalls
    subst hc₁ hc₂
    exact selective_of_isSome_iff (by decide +kernel)
  · simp at hcalls

/-- Setting `BF_PI` after `BF_PIPE` on an empty file leaves `BF_PIPE` without a rule. -/
theorem levelSetRun_not_independent :
    ¬ Independent [] [(bfModPipe, bfLogInfo), (bfModPi, bfLogDbg)]
      (levelSetRun ⟨fun _ => true, fun _ => 0⟩ "zlog-cfg-cur".toList []
        [(bfModPipe, bfLogInfo), (bfModPi, bfLogDbg)]) := by
  have hrun : levelSetRun ⟨fun _ => true, fun _ => 0⟩ "zlog-cfg-cur".toList []
      [(bfModPipe, bfLogInfo), (bfModPi, bfLogDbg)] = [appendedRule bfModPi bfLogDbg] := by
    decide +kernel
  intro h
  obtain ⟨line, hline, r, hr⟩ := h.hasRule bfModPipe bfLogInfo (by decide)
  rw [hrun] at hline
  obtain rfl := List.mem_singleton.mp hline
  have heq := hr.ruleOf.unique ⟨_, zlogRule_appendedRule bfModPi bfLogDbg, rfl⟩
  exact absurd heq (by decide)

end TargetSys.Log
