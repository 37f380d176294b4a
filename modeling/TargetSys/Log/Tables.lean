import TargetSys.Common.Transition
import TargetSys.Log.Commands

/-!
# The tables over modules and levels

Seven entry points take a module or a level from their caller and index the tables `zlog_cat`,
`bf_sys_trace_level`, `zlog_cat_name` and `zlog_cfg_level_name` with it, each behind a check of its
own. Here their arguments are any integers, and an index that no entry belongs to is a fault of the
call. `bf_sys_log_level_set` and `bf_sys_log_is_log_enabled` check both ends of their ranges. The
others check the upper end only, and `bf_sys_trace_level_set` does not check its level at all.

What zlog, the allocator, the shell and the configuration file answer may change from call to call.

Reference: `src/bf_sal/linux_usr/bf_sys_log.c`.

## Main results

* `exec_refused`, `exec_ne_outOfRange`: what a call with good arguments does not do.
* `tablesSafe_iff_checked`: sequences of calls after any initialisation are safe exactly if all
  their arguments pass the checks that the code leaves out.
-/

namespace TargetSys.Log

open Transition

/-! ## The code -/

/-- Why a call does not return: its index is outside the table, or there is no current file. -/
inductive Fault
  | outOfRange
  | nullFile
deriving DecidableEq, Repr

/-- An index into a table of `n` entries. -/
def index (n : ℕ) (i : ℤ) : Except Fault (Fin n) :=
  if h : 0 ≤ i ∧ i < n then .ok ⟨i.toNat, by omega⟩ else .error .outOfRange

/-- The levels of zlog. -/
inductive ZlogLevel
  | fatal
  | error
  | warn
  | info
  | debug
deriving DecidableEq, Repr

/-- The cases are `BF_LOG_CRIT` to `BF_LOG_DBG`; zlog has no level for no messages at all. -/
def bfGetZlogLevel (bfLevel : ℤ) : ZlogLevel :=
  if bfLevel = 1 then .fatal
  else if bfLevel = 2 then .error
  else if bfLevel = 3 then .warn
  else if bfLevel = 4 then .info
  else .debug

/-- The surroundings of one call, with `zlog_category_needless_level`, the lines of the current
configuration file, and the shell on the command of `bf_sys_syslog_level_set`. -/
structure CallEnv extends Env where
  zlogCategoryNeedlessLevel : ℕ → ZlogLevel → Bool
  cfg : List Line
  system : List Char → List Line → ℤ × List Line

/-- What a call gives: the value it returns, unless it is `void`, the category and the level of its
message for zlog, and the entry it writes. -/
structure Effect where
  ret : Option ℤ
  vzlog : Option (ℕ × ZlogLevel)
  wrote : Option (Module × ℤ)
deriving DecidableEq

/-- The call only returns a value. -/
def Effect.returns (ret : ℤ) : Effect := ⟨some ret, none, none⟩

def zlogWouldLogAtLevel (env : CallEnv) (category : Option ℕ) (level : ZlogLevel) : Bool :=
  match category with
  | none => false
  | some cat => !env.zlogCategoryNeedlessLevel cat level

/-- The message that goes to zlog. -/
def logged (env : CallEnv) (category : Option ℕ) (level : ZlogLevel) : Option (ℕ × ZlogLevel) :=
  if zlogWouldLogAtLevel env category level then category.map (·, level) else none

section Functions

variable (env : CallEnv) (s : LogState)

/-- The check that four of the functions make of their module, at its upper end only, with what they
do with the entry. -/
def checkModule (module : ℤ) (refusal : Effect) (k : Module → Effect × LogState) :
    Except Fault (Effect × LogState) := do
  if module ≥ bfModMax then return (refusal, s)
  let m ← index bfModMax module
  return k m

def bfSysLog (module level : ℤ) : Except Fault (Effect × LogState) :=
  checkModule s module (.returns (-1)) fun m =>
    (⟨some 0, logged env (s.zlogCat m) (bfGetZlogLevel level), none⟩, s)

/-- The tracing itself is not implemented: the test of the level has no effect. -/
def bfSysTrace (module level : ℤ) : Except Fault (Effect × LogState) :=
  checkModule s module (.returns (-1)) fun m =>
    let _needsTrace := decide (level ≤ s.bfSysTraceLevel m)
    (.returns 0, s)

def bfSysLogAndTrace (module level : ℤ) : Except Fault (Effect × LogState) :=
  checkModule s module (.returns (-1)) fun m =>
    let _needsTrace := decide (level ≤ s.bfSysTraceLevel m)
    (⟨some 0, logged env (s.zlogCat m) (bfGetZlogLevel level), none⟩, s)

def bfSysTraceLevelSet (module bfLevel : ℤ) : Except Fault (Effect × LogState) :=
  checkModule s module ⟨none, none, none⟩ fun m =>
    (⟨none, none, some (m, bfLevel)⟩,
      { s with bfSysTraceLevel := Function.update s.bfSysTraceLevel m bfLevel })

def bfSysLogIsLogEnabled (module level : ℤ) : Except Fault (Effect × LogState) := do
  if module ≥ bfModMax then return (.returns (-1), s)
  if module < 0 then return (.returns (-1), s)
  let m ← index bfModMax module
  let needsTrace := decide (level ≤ s.bfSysTraceLevel m)
  let needsLog := zlogWouldLogAtLevel env (s.zlogCat m) (bfGetZlogLevel level)
  return (.returns (if needsTrace || needsLog then 1 else 0), s)

/-- `bf_sys_log_level_set` on the variables: behind its checks it needs the name of a file. -/
def bfSysLogLevelSetCall (module output bfLevel : ℤ) : Except Fault (Effect × LogState) :=
  match levelSetArgs module output bfLevel, s.zlogCurLogFile with
  | none, _ => return (.returns (-1), s)
  | some _, none => throw .nullFile
  | some _, some file =>
      return (.returns (bfSysLogLevelSet env.toEnv file module output bfLevel env.cfg).1, s)

def bfSysSyslogLevelSet (bfLevel : ℤ) : Except Fault (Effect × LogState) := do
  if bfLevel > bfLogMax then return (.returns (-1), s)
  let l ← index (bfLogMax + 1) bfLevel
  match s.zlogCurLogFile with
  | none => throw .nullFile
  | some file =>
      let (status, cfg) := env.system (syslogCmd l file) env.cfg
      if status < 0 then return (.returns (-1), s)
      return (.returns (bfSysLogZlogReconfig env.toEnv cfg), s)

end Functions

/-! ## Sequences of calls -/

/-- A call, with the arguments that matter for the tables. -/
inductive LogCall
  | log (module level : ℤ)
  | trace (module level : ℤ)
  | logAndTrace (module level : ℤ)
  | isLogEnabled (module level : ℤ)
  | levelSet (module output bfLevel : ℤ)
  | traceLevelSet (module bfLevel : ℤ)
  | syslogLevelSet (bfLevel : ℤ)

/-- The function that is called. -/
def LogCall.exec (env : CallEnv) (s : LogState) : LogCall → Except Fault (Effect × LogState)
  | .log module level => bfSysLog env s module level
  | .trace module level => bfSysTrace s module level
  | .logAndTrace module level => bfSysLogAndTrace env s module level
  | .isLogEnabled module level => bfSysLogIsLogEnabled env s module level
  | .levelSet module output bfLevel => bfSysLogLevelSetCall env s module output bfLevel
  | .traceLevelSet module bfLevel => bfSysTraceLevelSet s module bfLevel
  | .syslogLevelSet bfLevel => bfSysSyslogLevelSet env s bfLevel

/-- A call that returns, in some surroundings. -/
def CallStep (s : LogState) (c : LogCall) (s' : LogState) : Prop :=
  ∃ env e, c.exec env s = .ok (e, s')

def ModuleInRange (module : ℤ) : Prop := 0 ≤ module ∧ module < bfModMax

def LevelInRange (bfLevel : ℤ) : Prop := 0 ≤ bfLevel ∧ bfLevel ≤ bfLogMax

instance (module : ℤ) : Decidable (ModuleInRange module) := inferInstanceAs (Decidable (_ ∧ _))

instance (bfLevel : ℤ) : Decidable (LevelInRange bfLevel) := inferInstanceAs (Decidable (_ ∧ _))

/-- The module of the call and the level that it configures are in their ranges. The level of a
message is not the level of a table. -/
def LogCall.InRange : LogCall → Prop
  | .log module _ | .trace module _ | .logAndTrace module _ | .isLogEnabled module _ =>
      ModuleInRange module
  | .levelSet module _ bfLevel | .traceLevelSet module bfLevel =>
      ModuleInRange module ∧ LevelInRange bfLevel
  | .syslogLevelSet bfLevel => LevelInRange bfLevel

/-- The arguments pass the checks that the code leaves out. -/
def LogCall.Checked : LogCall → Prop
  | .log module _ | .trace module _ | .logAndTrace module _ => 0 ≤ module
  | .isLogEnabled _ _ | .levelSet _ _ _ => True
  | .traceLevelSet module bfLevel => module < bfModMax → 0 ≤ module ∧ LevelInRange bfLevel
  | .syslogLevelSet bfLevel => 0 ≤ bfLevel

/-- The level that a call sets for module `m`, if it is to be accepted. -/
def LogCall.traceSetting (m : Module) : LogCall → Option ℤ
  | .traceLevelSet module bfLevel =>
      if module = m ∧ LevelInRange bfLevel then some bfLevel else none
  | _ => none

/-- The level of the last accepted `bf_sys_trace_level_set` for module `m`. -/
def lastTraceLevel (calls : List LogCall) (m : Module) : Option ℤ :=
  calls.reverse.findSome? (LogCall.traceSetting m)

/-- A refused call returns `-1` or is `void`, and does nothing else. -/
def Effect.Refused (e : Effect) : Prop :=
  (e.ret = some (-1) ∨ e.ret = none) ∧ e.vzlog = none ∧ e.wrote = none

/-- Whatever its surroundings, the call indexes no table out of its range, and if its arguments are
out of theirs then it is refused and changes nothing. -/
structure LogCall.Safe (c : LogCall) (s : LogState) : Prop where
  inside : ∀ env, c.exec env s ≠ .error .outOfRange
  refused : ¬ c.InRange → ∀ env, ∃ e, c.exec env s = .ok (e, s) ∧ e.Refused

/-- The calls are safe one after another, and in between the trace levels are those that were last
set, or the one of the initialisation. -/
structure TablesSafe (init : LogState) (defaultLevel : ℤ) (calls : List LogCall) : Prop where
  safe : ∀ pre c post s, calls = pre ++ c :: post → Run CallStep init pre s → c.Safe s
  levels : ∀ pre post s, calls = pre ++ post → Run CallStep init pre s →
    ∀ m, s.bfSysTraceLevel m = (lastTraceLevel pre m).getD defaultLevel

/-! ## The checks -/

section Checks

variable {n : ℕ} {i module : ℤ} {s : LogState} {refusal : Effect} {k : Module → Effect × LogState}
  {r : Effect × LogState}

/-- A lookup outside the table is a fault. -/
theorem index_outside (h : ¬ (0 ≤ i ∧ i < n)) : index n i = .error .outOfRange := by
  rw [index, dif_neg h]

/-- A lookup inside the table finds its entry. -/
theorem index_inside (h : 0 ≤ i ∧ i < n) : ∃ j : Fin n, (j : ℤ) = i ∧ index n i = .ok j := by
  rw [index, dif_pos h]
  exact ⟨⟨i.toNat, by omega⟩, Int.toNat_of_nonneg h.1, rfl⟩

/-- A module that is too large is refused. -/
theorem checkModule_of_ge (h : module ≥ bfModMax) :
    checkModule s module refusal k = .ok (refusal, s) := by
  rw [checkModule, if_pos h]
  rfl

/-- A negative module passes the check, and the lookup is a fault. -/
theorem checkModule_of_neg (h : module < 0) :
    checkModule s module refusal k = .error .outOfRange := by
  rw [checkModule, if_neg (by omega), index_outside (by omega)]
  rfl

/-- A module in range goes on. -/
theorem checkModule_inside (h : ModuleInRange module) :
    ∃ m : Module, (m : ℤ) = module ∧ checkModule s module refusal k = .ok (k m) := by
  have hlt := h.2
  obtain ⟨m, hm, hidx⟩ := index_inside h
  refine ⟨m, hm, ?_⟩
  rw [checkModule, if_neg (by omega), hidx]
  rfl

/-- Only a negative module makes a fault. -/
theorem checkModule_ne (h : 0 ≤ module) : checkModule s module refusal k ≠ .error .outOfRange := by
  intro hx
  by_cases hge : module ≥ bfModMax
  · rw [checkModule_of_ge hge] at hx
    cases hx
  · obtain ⟨m, -, hk⟩ := checkModule_inside (s := s) (k := k) ⟨h, by omega⟩
    rw [hk] at hx
    cases hx

/-- What a function with this check can return. -/
theorem checkModule_ok (h : checkModule s module refusal k = .ok r) :
    (module ≥ bfModMax ∧ r = (refusal, s)) ∨ ∃ m : Module, (m : ℤ) = module ∧ r = k m := by
  by_cases hge : module ≥ bfModMax
  · rw [checkModule_of_ge hge] at h
    exact Or.inl ⟨hge, (Except.ok.inj h).symm⟩
  · by_cases hneg : module < 0
    · rw [checkModule_of_neg hneg] at h
      cases h
    · have hin : ModuleInRange module := ⟨by omega, by omega⟩
      obtain ⟨m, hm, hk⟩ := checkModule_inside (s := s) (k := k) hin
      rw [hk] at h
      exact Or.inr ⟨m, hm, (Except.ok.inj h).symm⟩

/-- A module that is not negative is refused if it is out of range. -/
theorem checkModule_refused (h : 0 ≤ module) (hr : ¬ ModuleInRange module) :
    checkModule s module refusal k = .ok (refusal, s) :=
  checkModule_of_ge (Int.not_lt.mp fun hlt => hr ⟨h, hlt⟩)

/-- A function that only looks at the entry keeps the variables. -/
theorem checkModule_same {look : Module → Effect} {e : Effect} {s' : LogState}
    (h : checkModule s module refusal (fun m => (look m, s)) = .ok (e, s')) : s' = s := by
  rcases checkModule_ok h with ⟨-, heq⟩ | ⟨m, -, heq⟩
  · exact (Prod.mk.inj heq).2
  · exact (Prod.mk.inj heq).2

/-- `bf_sys_log_level_set` refuses arguments that are not in range. -/
theorem levelSetArgs_eq_none {output bfLevel : ℤ}
    (h : ¬ (ModuleInRange module ∧ LevelInRange bfLevel)) :
    levelSetArgs module output bfLevel = none := by
  unfold ModuleInRange LevelInRange at h
  unfold levelSetArgs
  rw [dif_pos (by omega)]

end Checks

/-! ## Single calls -/

section Calls

variable {env : CallEnv} {s s' : LogState} {c : LogCall} {e : Effect} {module level : ℤ}

/-- To return -1 and do nothing else is a refusal. -/
theorem refused_returns : (Effect.returns (-1)).Refused := ⟨.inl rfl, rfl, rfl⟩

/-- `bf_sys_log_is_log_enabled` checks both ends. -/
theorem bfSysLogIsLogEnabled_ok (env : CallEnv) (s : LogState) (module level : ℤ) :
    ∃ ret, bfSysLogIsLogEnabled env s module level = .ok (.returns ret, s) ∧
      (¬ ModuleInRange module → ret = -1) := by
  unfold bfSysLogIsLogEnabled
  by_cases hge : module ≥ bfModMax
  · rw [if_pos hge]
    exact ⟨_, rfl, fun _ => rfl⟩
  · by_cases hneg : module < 0
    · rw [if_neg hge, if_pos hneg]
      exact ⟨_, rfl, fun _ => rfl⟩
    · have hin : ModuleInRange module := ⟨by omega, by omega⟩
      obtain ⟨m, -, hidx⟩ := index_inside hin
      rw [if_neg hge, if_neg hneg, hidx]
      exact ⟨_, rfl, fun h => absurd hin h⟩

/-- `bf_sys_syslog_level_set` with a level that is not negative. -/
theorem bfSysSyslogLevelSet_cases (env : CallEnv) (s : LogState) (h : 0 ≤ level) :
    (∃ ret, bfSysSyslogLevelSet env s level = .ok (.returns ret, s) ∧
      (¬ LevelInRange level → ret = -1)) ∨
    (LevelInRange level ∧ bfSysSyslogLevelSet env s level = .error .nullFile) := by
  unfold bfSysSyslogLevelSet
  by_cases hgt : level > bfLogMax
  · rw [if_pos hgt]
    exact Or.inl ⟨_, rfl, fun _ => rfl⟩
  · have hin : LevelInRange level := ⟨h, by omega⟩
    obtain ⟨l, -, hidx⟩ := index_inside (n := bfLogMax + 1) (i := level) ⟨h, by omega⟩
    rw [if_neg hgt, hidx]
    cases hfile : s.zlogCurLogFile with
    | none => exact Or.inr ⟨hin, rfl⟩
    | some file =>
        left
        by_cases hst : (env.system (syslogCmd l file) env.cfg).1 < 0
        · exact ⟨-1, by simp [bind, Except.bind, pure, Except.pure, hst], fun _ => rfl⟩
        · refine ⟨bfSysLogZlogReconfig env.toEnv (env.system (syslogCmd l file) env.cfg).2, ?_,
            fun h => absurd hin h⟩
          simp [bind, Except.bind, pure, Except.pure, hst]

/-- `bf_sys_log_level_set` checks both ends of both ranges. -/
theorem bfSysLogLevelSetCall_cases (env : CallEnv) (s : LogState) (module output level : ℤ) :
    (∃ ret, bfSysLogLevelSetCall env s module output level = .ok (.returns ret, s) ∧
      (¬ (ModuleInRange module ∧ LevelInRange level) → ret = -1)) ∨
    (ModuleInRange module ∧ LevelInRange level) ∧
      bfSysLogLevelSetCall env s module output level = .error .nullFile := by
  unfold bfSysLogLevelSetCall
  by_cases hin : ModuleInRange module ∧ LevelInRange level
  · cases hargs : levelSetArgs module output level with
    | none => exact Or.inl ⟨-1, rfl, fun _ => rfl⟩
    | some a =>
        cases hfile : s.zlogCurLogFile with
        | none => exact Or.inr ⟨hin, rfl⟩
        | some file => exact Or.inl ⟨_, rfl, fun h => absurd hin h⟩
  · rw [levelSetArgs_eq_none hin]
    exact Or.inl ⟨-1, rfl, fun _ => rfl⟩

/-- A call that passes the missing checks indexes its tables inside. -/
theorem exec_ne_outOfRange (hc : c.Checked) : c.exec env s ≠ .error .outOfRange := by
  cases c with
  | log module level => exact checkModule_ne hc
  | trace module level => exact checkModule_ne hc
  | logAndTrace module level => exact checkModule_ne hc
  | isLogEnabled module level =>
      obtain ⟨ret, hok, -⟩ := bfSysLogIsLogEnabled_ok env s module level
      rw [LogCall.exec, hok]
      exact fun h => by cases h
  | levelSet module output bfLevel =>
      rw [LogCall.exec]
      rcases bfSysLogLevelSetCall_cases env s module output bfLevel with ⟨ret, hok, -⟩ | ⟨-, hnull⟩
      · rw [hok]
        exact fun h => by cases h
      · rw [hnull]
        exact fun h => by cases h
  | traceLevelSet module bfLevel =>
      -- with a module that is too large the function returns before its lookup
      refine checkModule_ne ?_
      by_cases hm : module < bfModMax
      · exact (hc hm).1
      · omega
  | syslogLevelSet bfLevel =>
      rw [LogCall.exec]
      rcases bfSysSyslogLevelSet_cases env s hc with ⟨ret, hok, -⟩ | ⟨-, hnull⟩
      · rw [hok]
        exact fun h => by cases h
      · rw [hnull]
        exact fun h => by cases h

/-- A call that passes the missing checks but not those of the code is refused. -/
theorem exec_refused (hc : c.Checked) (hr : ¬ c.InRange) :
    ∃ e, c.exec env s = .ok (e, s) ∧ e.Refused := by
  cases c with
  | log module level => exact ⟨_, checkModule_refused hc hr, refused_returns⟩
  | trace module level => exact ⟨_, checkModule_refused hc hr, refused_returns⟩
  | logAndTrace module level => exact ⟨_, checkModule_refused hc hr, refused_returns⟩
  | isLogEnabled module level =>
      obtain ⟨ret, hok, hret⟩ := bfSysLogIsLogEnabled_ok env s module level
      exact ⟨_, hok, by rw [hret hr]; exact refused_returns⟩
  | levelSet module output bfLevel =>
      rcases bfSysLogLevelSetCall_cases env s module output bfLevel with ⟨ret, hok, hret⟩ | ⟨hin, -⟩
      · exact ⟨_, hok, by rw [hret hr]; exact refused_returns⟩
      · exact absurd hin hr
  | traceLevelSet module bfLevel =>
      have hge : ¬ module < bfModMax := fun hlt => hr ⟨⟨(hc hlt).1, hlt⟩, (hc hlt).2⟩
      exact ⟨_, checkModule_of_ge (by omega), .inr rfl, rfl, rfl⟩
  | syslogLevelSet bfLevel =>
      rcases bfSysSyslogLevelSet_cases env s hc with ⟨ret, hok, hret⟩ | ⟨hin, -⟩
      · exact ⟨_, hok, by rw [hret hr]; exact refused_returns⟩
      · exact absurd hin hr

/-- A call whose checks are left out and would fail is not safe. -/
theorem LogCall.Safe.checked (h : c.Safe s) : c.Checked := by
  let env : CallEnv := ⟨⟨fun _ => true, fun _ => 0⟩, fun _ _ => false, [], fun _ cfg => (0, cfg)⟩
  cases c with
  | log module level => exact Int.not_lt.mp fun hneg => h.inside env (checkModule_of_neg hneg)
  | trace module level => exact Int.not_lt.mp fun hneg => h.inside env (checkModule_of_neg hneg)
  | logAndTrace module level => exact Int.not_lt.mp fun hneg => h.inside env (checkModule_of_neg hneg)
  | isLogEnabled module level => exact trivial
  | levelSet module output bfLevel => exact trivial
  | traceLevelSet module bfLevel =>
      intro hlt
      have hpos : 0 ≤ module := Int.not_lt.mp fun hneg => h.inside env (checkModule_of_neg hneg)
      refine ⟨hpos, ?_⟩
      by_contra hlevel
      -- the entry is written all the same
      obtain ⟨e, hok, -, -, hwrote⟩ := h.refused (fun hin => hlevel hin.2) env
      obtain ⟨m, -, hset⟩ := checkModule_inside (s := s) (k := fun m =>
        ((⟨none, none, some (m, bfLevel)⟩ : Effect),
          { s with bfSysTraceLevel := Function.update s.bfSysTraceLevel m bfLevel })) ⟨hpos, hlt⟩
      have heq := Except.ok.inj (hok.symm.trans hset)
      rw [(Prod.mk.inj heq).1] at hwrote
      cases hwrote
  | syslogLevelSet bfLevel =>
      by_contra hneg
      have hlt : bfLevel < 0 := Int.not_le.mp hneg
      refine h.inside env ?_
      rw [LogCall.exec, bfSysSyslogLevelSet, if_neg (by omega), index_outside (by omega)]
      rfl

/-- What a call that returns leaves in `bf_sys_trace_level`. -/
theorem traceLevel_of_exec (hc : c.Checked) (h : c.exec env s = .ok (e, s')) (m : Module) :
    s'.bfSysTraceLevel m = (c.traceSetting m).getD (s.bfSysTraceLevel m) := by
  -- all functions but one keep the levels
  have hsame : s' = s → c.traceSetting m = none →
      s'.bfSysTraceLevel m = (c.traceSetting m).getD (s.bfSysTraceLevel m) := by
    rintro rfl hnone
    rw [hnone, Option.getD_none]
  cases c with
  | log module level => exact hsame (checkModule_same h) rfl
  | trace module level => exact hsame (checkModule_same h) rfl
  | logAndTrace module level => exact hsame (checkModule_same h) rfl
  | isLogEnabled module level =>
      obtain ⟨ret, hok, -⟩ := bfSysLogIsLogEnabled_ok env s module level
      exact hsame (Prod.mk.inj (Except.ok.inj (hok.symm.trans h))).2.symm rfl
  | levelSet module output bfLevel =>
      rcases bfSysLogLevelSetCall_cases env s module output bfLevel with ⟨ret, hok, -⟩ | ⟨-, hnull⟩
      · exact hsame (Prod.mk.inj (Except.ok.inj (hok.symm.trans h))).2.symm rfl
      · cases hnull.symm.trans h
  | traceLevelSet module bfLevel =>
      have hm := m.isLt
      rcases checkModule_ok h with ⟨hge, heq⟩ | ⟨m', rfl, heq⟩
      · exact hsame (Prod.mk.inj heq).2 (if_neg fun hset => by omega)
      · have hlevel : LevelInRange bfLevel := (hc (by omega)).2
        rw [(Prod.mk.inj heq).2, LogCall.traceSetting]
        by_cases hmm : m = m'
        · subst hmm
          rw [if_pos ⟨rfl, hlevel⟩]
          simp only [Function.update_self, Option.getD_some]
        · have hne : ¬ ((m' : ℤ) = m ∧ LevelInRange bfLevel) := fun hset =>
            hmm (Fin.ext (by omega))
          rw [if_neg hne]
          simp only [Function.update_of_ne hmm, Option.getD_none]
  | syslogLevelSet bfLevel =>
      rcases bfSysSyslogLevelSet_cases env s hc with ⟨ret, hok, -⟩ | ⟨-, hnull⟩
      · exact hsame (Prod.mk.inj (Except.ok.inj (hok.symm.trans h))).2.symm rfl
      · cases hnull.symm.trans h

end Calls

/-! ## Sequences of calls -/

section Sequences

variable {init s : LogState} {defaultLevel : ℤ} {calls : List LogCall}

/-- The trace level that was set last counts. -/
theorem lastTraceLevel_snoc (calls : List LogCall) (c : LogCall) (m : Module) :
    lastTraceLevel (calls ++ [c]) m = (c.traceSetting m).or (lastTraceLevel calls m) := by
  unfold lastTraceLevel
  rw [List.reverse_append, List.reverse_singleton, List.singleton_append, List.findSome?_cons]
  cases c.traceSetting m <;> rfl

/-- The induction is on the calls made so far: each sets what it is accepted for. -/
theorem levels_of_run (h0 : ∀ m, init.bfSysTraceLevel m = defaultLevel)
    (hrun : Run CallStep init calls s)
    (hc : ∀ pre c post t, calls = pre ++ c :: post → Run CallStep init pre t → c.Checked)
    (m : Module) : s.bfSysTraceLevel m = (lastTraceLevel calls m).getD defaultLevel := by
  induction hrun with
  | nil => exact h0 m
  | @snoc t s' calls c hrun hstep ih =>
      obtain ⟨env, e, hexec⟩ := hstep
      have hlast : c.Checked := hc calls c [] _ rfl hrun
      have ht := ih fun pre d post u hpre hu =>
        hc pre d (post ++ [c]) u (by rw [hpre, List.append_assoc, List.cons_append]) hu
      rw [traceLevel_of_exec hlast hexec m, ht, lastTraceLevel_snoc]
      cases c.traceSetting m <;> rfl

/-- A sequence of calls after an initialisation is safe exactly if every call that is made passes
the checks that the code leaves out. -/
theorem tablesSafe_iff_checked (env : InitEnv) (arg1 : Option (List Char)) (defaultLevel : ℤ)
    (s₀ : LogState) (calls : List LogCall) :
    TablesSafe (bfSysLogInit env arg1 defaultLevel s₀).2 defaultLevel calls ↔
      ∀ pre c post s, calls = pre ++ c :: post →
        Run CallStep (bfSysLogInit env arg1 defaultLevel s₀).2 pre s → c.Checked := by
  constructor
  · intro h pre c post s hcalls hrun
    exact (h.safe pre c post s hcalls hrun).checked
  · intro h
    refine ⟨fun pre c post s hcalls hrun => ?_, fun pre post s hcalls hrun => ?_⟩
    · have hc : c.Checked := h pre c post s hcalls hrun
      exact ⟨fun env => exec_ne_outOfRange hc, fun hr env => exec_refused hc hr⟩
    · refine levels_of_run (fun _ => rfl) hrun fun pre' c post' t hpre ht => ?_
      exact h pre' c (post' ++ post) t
        (by rw [hcalls, hpre, List.append_assoc, List.cons_append]) ht

/-- Setting the trace level of module `-1` writes in front of the table. -/
theorem tablesSafe_negative_module :
    ¬ TablesSafe (bfSysLogInit (.copying 0) none 0 .zeroed).2 0 [.traceLevelSet (-1) 5] := by
  intro h
  have hsafe := h.safe [] (.traceLevelSet (-1) 5) [] _ rfl (Run.nil _)
  exact absurd (hsafe.checked (by decide)).1 (by decide)

end Sequences

end TargetSys.Log
