import TargetSys.Log.Basic

/-!
# Starting zlog on a copy of the configuration

`bf_sys_zlog_init` works on the file `zlog-cfg-cur`. Where this does not exist, it is made with a
`cp` command from the file that the user names, and if the copy fails the code falls back to the
user's file. The one variable `err` holds first what `snprintf` returns and then what `system`
returns, and the same test with the size of the buffer judges both. A wait status is a positive
number, so a failed copy is noticed only if its status is as large as that buffer.

Reference: `src/bf_sal/linux_usr/bf_sys_log.c`, `src/bf_sal/linux_usr/bf_sys_str.c`.

## Main results

* `zlogCurLogFile_bfSysZlogInit`: the two names that can be left for later calls.
* `zlogInit_fallback_iff`: the statuses for which the fallback is right.
-/

namespace TargetSys.Log

/-- The variables of the code: the name of the configuration file, and the tables over the modules.
-/
structure LogState where
  zlogCurLogFile : Option (List Char)
  zlogCat : Module → Option ℕ
  bfSysTraceLevel : Module → ℤ

/-- What `bf_sys_zlog_init` finds: the allocator at each of its calls, the file system, the shell,
and zlog, whose categories are addresses. -/
structure InitEnv where
  /-- `DEFAULT_ZLOG_CFG_FILE`, chosen by the build. -/
  defaultZlogCfgFile : List Char
  mallocCur : ℕ → Bool
  mallocTemp : ℕ → Bool
  mallocCfg : ℕ → Bool
  stat : ℤ
  system : List Char → ℤ
  zlogInit : List Char → ℤ
  zlogGetCategory : List Char → Option ℕ

/-- The allocator answers every call. -/
structure InitEnv.Allocates (env : InitEnv) : Prop where
  cur : ∀ n, env.mallocCur n = true
  temp : ∀ n, env.mallocTemp n = true
  cfg : ∀ n, env.mallocCfg n = true

/-- `ZLOG_CFG_FILE`. -/
def zlogCfgFile : List Char := "zlog-cfg-cur".toList

/-- `cfg_file_name`: the name the user gives, or the default. -/
def cfgFileName (env : InitEnv) (arg1 : Option (List Char)) : List Char :=
  arg1.getD env.defaultZlogCfgFile

def bfSysStrdup (malloc : ℕ → Bool) : Option (List Char) → Option (List Char)
  | none => none
  | some c => if malloc (c.length + 1) = false then none else some c

/-- The size of the buffer for the copy command. -/
def copyLen (cfg : List Char) : ℕ := 10 + cfg.length + zlogCfgFile.length

def copyCmd (cfg : List Char) : List Char := snprintf "cp %s %s".toList [cfg, zlogCfgFile]

/-- What `bf_sys_zlog_init` leaves: the status of the copy command if it was run, and the name
passed to `zlog_init` if this was called. -/
structure InitResult where
  ret : ℤ
  state : LogState
  status : Option ℤ
  passed : Option (List Char)

/-- The part behind the copy: start zlog with the current name and create the categories. -/
def startZlog (env : InitEnv) (s : LogState) (status : Option ℤ) : InitResult :=
  match s.zlogCurLogFile with
  | none => ⟨-1, s, status, none⟩
  | some name =>
      if env.zlogInit name ≠ 0 then ⟨-1, s, status, some name⟩
      else ⟨0, { s with zlogCat := fun m => env.zlogGetCategory (zlogCatName.get m).toList }, status,
        some name⟩

def bfSysZlogInit (env : InitEnv) (arg1 : Option (List Char)) (s : LogState) : InitResult :=
  let cfg := cfgFileName env arg1
  let s := { s with zlogCurLogFile := bfSysStrdup env.mallocCur (some zlogCfgFile) }
  -- the fallback to the file of the user
  let fallback := { s with zlogCurLogFile := bfSysStrdup env.mallocCfg (some cfg) }
  if env.stat ≠ 0 then
    match formatCmd env.mallocTemp (copyLen cfg) (copyCmd cfg) with
    | .noMemory => ⟨-1, s, none, none⟩
    | .truncated => startZlog env fallback none
    | .ready cmd =>
        let err := env.system cmd
        if err < 0 ∨ err ≥ toInt (copyLen cfg) then startZlog env fallback (some err)
        else startZlog env s (some err)
  else startZlog env s none

/-- `bf_sys_trace_init`. -/
def bfSysTraceInit (defaultLevel : ℤ) (s : LogState) : LogState :=
  { s with bfSysTraceLevel := fun _ => defaultLevel }

/-- `bf_sys_log_init`, with the value it returns. -/
def bfSysLogInit (env : InitEnv) (arg1 : Option (List Char)) (arg2 : ℤ) (s : LogState) :
    ℤ × LogState :=
  let r := bfSysZlogInit env arg1 s
  (r.ret, bfSysTraceInit arg2 r.state)

/-! ## The copy command -/

/-- The name of the copy has twelve characters. -/
theorem length_zlogCfgFile : zlogCfgFile.length = 12 := by decide

/-- The buffer of the copy command has six bytes to spare. -/
theorem copyCmd_length (cfg : List Char) : (copyCmd cfg).length + 6 = copyLen cfg := by
  have hdir : directives "cp %s %s".toList = 2 := by decide
  have hlen := length_snprintf "cp %s %s".toList [cfg, zlogCfgFile] hdir
  have hfmt : "cp %s %s".toList.length = 8 := by decide
  simp only [List.flatten_cons, List.flatten_nil, List.length_append, List.length_nil,
    List.length_cons, length_zlogCfgFile] at hlen
  unfold copyCmd copyLen
  rw [length_zlogCfgFile]
  omega

/-! ## The name that is left -/

section Name

variable {env : InitEnv} {arg1 : Option (List Char)} {s : LogState} {status : Option ℤ}
  {file : List Char}

/-- A copied name is the name. -/
theorem eq_of_bfSysStrdup {malloc : ℕ → Bool} {c : List Char}
    (h : bfSysStrdup malloc (some c) = some file) : file = c := by
  simp only [bfSysStrdup] at h
  split_ifs at h
  exact (Option.some.inj h).symm

/-- With memory, a name is copied. -/
theorem bfSysStrdup_of_malloc {malloc : ℕ → Bool} (h : ∀ n, malloc n = true) (c : List Char) :
    bfSysStrdup malloc (some c) = some c := by
  simp [bfSysStrdup, h]

/-- The start of zlog keeps the name. -/
@[simp] theorem startZlog_zlogCurLogFile :
    (startZlog env s status).state.zlogCurLogFile = s.zlogCurLogFile := by
  unfold startZlog
  split
  · rfl
  · split_ifs <;> rfl

/-- zlog is started with the current name. -/
@[simp] theorem startZlog_passed : (startZlog env s status).passed = s.zlogCurLogFile := by
  unfold startZlog
  split
  · next h => exact h.symm
  · next h => split_ifs <;> exact h.symm

/-- The start of zlog keeps the status of the copy. -/
@[simp] theorem startZlog_status : (startZlog env s status).status = status := by
  unfold startZlog
  split
  · rfl
  · split_ifs <;> rfl

/-- Later calls find the fixed name or the name of the user, if any. -/
theorem zlogCurLogFile_bfSysZlogInit
    (h : (bfSysZlogInit env arg1 s).state.zlogCurLogFile = some file) :
    file = zlogCfgFile ∨ file = cfgFileName env arg1 := by
  simp only [bfSysZlogInit] at h
  split_ifs at h
  · split at h
    · exact Or.inl (eq_of_bfSysStrdup h)
    · rw [startZlog_zlogCurLogFile] at h
      exact Or.inr (eq_of_bfSysStrdup h)
    · split_ifs at h
      · rw [startZlog_zlogCurLogFile] at h
        exact Or.inr (eq_of_bfSysStrdup h)
      · rw [startZlog_zlogCurLogFile] at h
        exact Or.inl (eq_of_bfSysStrdup h)
  · rw [startZlog_zlogCurLogFile] at h
    exact Or.inl (eq_of_bfSysStrdup h)

end Name

/-! ## The fallback -/

section Fallback

variable {env : InitEnv} {arg1 : Option (List Char)} {s : LogState}

/-- The copy command is run, and its status is compared with the size of its buffer. -/
theorem passed_of_copy (hstat : env.stat ≠ 0) (hm : env.Allocates)
    (hlen : copyLen (cfgFileName env arg1) < 2 ^ 31) {err : ℤ}
    (herr : env.system (copyCmd (cfgFileName env arg1)) = err) :
    (bfSysZlogInit env arg1 s).status = some err ∧
    (bfSysZlogInit env arg1 s).passed =
      some (if err < 0 ∨ err ≥ copyLen (cfgFileName env arg1) then cfgFileName env arg1
        else zlogCfgFile) := by
  have hcmd : formatCmd env.mallocTemp (copyLen (cfgFileName env arg1))
      (copyCmd (cfgFileName env arg1)) = .ready (copyCmd (cfgFileName env arg1)) := by
    have hc := copyCmd_length (cfgFileName env arg1)
    exact (formatCmd_of_lt (by omega) hlen).trans (if_neg (by simp [hm.temp]))
  simp only [bfSysZlogInit, if_pos hstat, hcmd, herr, toInt_of_lt hlen]
  split_ifs with h
  · exact ⟨startZlog_status, startZlog_passed.trans (bfSysStrdup_of_malloc hm.cfg _)⟩
  · exact ⟨startZlog_status, startZlog_passed.trans (bfSysStrdup_of_malloc hm.cur _)⟩

/-- A name whose command has no `int` for its size is not copied. -/
theorem passed_of_no_copy (hstat : env.stat ≠ 0) (hm : env.Allocates)
    (hlen : 2 ^ 31 ≤ copyLen (cfgFileName env arg1)) :
    (bfSysZlogInit env arg1 s).status = none ∧
    (bfSysZlogInit env arg1 s).passed = some (cfgFileName env arg1) := by
  have hcmd : formatCmd env.mallocTemp (copyLen (cfgFileName env arg1))
      (copyCmd (cfgFileName env arg1)) = .truncated := by
    have hc := copyCmd_length (cfgFileName env arg1)
    exact formatCmd_of_ge hm.temp hlen (by omega)
  simp only [bfSysZlogInit, if_pos hstat, hcmd]
  exact ⟨startZlog_status, startZlog_passed.trans (bfSysStrdup_of_malloc hm.cfg _)⟩

/-- With the copy made by `cp`, zlog gets the copy if the command succeeded and the user's file
otherwise, exactly if no positive status is below the size of the command's buffer. -/
theorem zlogInit_fallback_iff (hstat : env.stat ≠ 0) (hm : env.Allocates) :
    (bfSysZlogInit env arg1 s).passed =
        some (if (bfSysZlogInit env arg1 s).status = some 0 then zlogCfgFile
          else cfgFileName env arg1) ↔
      2 ^ 31 ≤ copyLen (cfgFileName env arg1) ∨
      env.system (copyCmd (cfgFileName env arg1)) ≤ 0 ∨
      copyLen (cfgFileName env arg1) ≤ env.system (copyCmd (cfgFileName env arg1)) ∨
      cfgFileName env arg1 = zlogCfgFile := by
  by_cases hlen : copyLen (cfgFileName env arg1) < 2 ^ 31
  · have hpos : 0 < copyLen (cfgFileName env arg1) := by
      unfold copyLen
      omega
    generalize herr : env.system (copyCmd (cfgFileName env arg1)) = err
    obtain ⟨hstatus, hpassed⟩ := passed_of_copy (s := s) hstat hm hlen herr
    rw [hstatus, hpassed]
    simp only [Option.some.injEq]
    by_cases h0 : err = 0
    · -- a copy that succeeded
      rw [if_neg (by omega), if_pos h0]
      exact ⟨fun _ => by omega, fun _ => rfl⟩
    · by_cases hbig : err < 0 ∨ err ≥ copyLen (cfgFileName env arg1)
      · -- a failure that is noticed
        rw [if_pos hbig, if_neg h0]
        exact ⟨fun _ => by omega, fun _ => rfl⟩
      · -- a failure that is not
        rw [if_neg hbig, if_neg h0, eq_comm]
        refine ⟨fun heq => .inr (.inr (.inr heq)), fun h => ?_⟩
        rcases h with h | h | h | h
        · omega
        · omega
        · omega
        · exact h
  · obtain ⟨hstatus, hpassed⟩ := passed_of_no_copy (s := s) hstat hm (not_lt.mp hlen)
    rw [hstatus, hpassed, if_neg (by simp)]
    exact ⟨fun _ => .inl (not_lt.mp hlen), fun _ => rfl⟩

end Fallback

/-- The static variables before the first call. -/
def LogState.zeroed : LogState := ⟨none, fun _ => none, fun _ => 0⟩

/-- Surroundings without a current file, in which only the copy command may fail. -/
def InitEnv.copying (status : ℤ) : InitEnv where
  defaultZlogCfgFile := "/usr/share/target_sys/zlog-cfg".toList
  mallocCur _ := true
  mallocTemp _ := true
  mallocCfg _ := true
  stat := -1
  system _ := status
  zlogInit _ := 0
  zlogGetCategory _ := none

/-- It has memory. -/
theorem InitEnv.allocates_copying (status : ℤ) : (InitEnv.copying status).Allocates :=
  ⟨fun _ => rfl, fun _ => rfl, fun _ => rfl⟩

/-- A copy that succeeds is used, and a failed one of a file with a short name is noticed. -/
theorem zlogInit_fallback_copied :
    (bfSysZlogInit (.copying 0) none .zeroed).passed = some zlogCfgFile ∧
      (bfSysZlogInit (.copying 256) (some "/etc/zlog.conf".toList) .zeroed).passed =
        some "/etc/zlog.conf".toList := by
  have hcopied := (@zlogInit_fallback_iff (.copying 0) none .zeroed (by decide)
    (InitEnv.allocates_copying 0)).mpr (.inr (.inl (Int.le_refl 0)))
  have hfailed := (@zlogInit_fallback_iff (.copying 256) (some "/etc/zlog.conf".toList) .zeroed
    (by decide) (InitEnv.allocates_copying 256)).mpr (.inr (.inr (.inl (by decide))))
  rw [if_pos (by decide +kernel)] at hcopied
  rw [if_neg (by decide +kernel)] at hfailed
  exact ⟨hcopied, hfailed⟩

/-- A failed copy of a file with a name of 240 characters goes unnoticed: zlog is started with a copy
that does not exist. -/
theorem zlogInit_fallback_unnoticed :
    (bfSysZlogInit (.copying 256) (some (List.replicate 240 'c')) .zeroed).status = some 256 ∧
      (bfSysZlogInit (.copying 256) (some (List.replicate 240 'c')) .zeroed).passed =
        some zlogCfgFile ∧
      zlogCfgFile ≠ List.replicate 240 'c' := by
  have hlen : copyLen (cfgFileName (.copying 256) (some (List.replicate 240 'c'))) = 262 := by
    rw [copyLen, cfgFileName, Option.getD_some, List.length_replicate, length_zlogCfgFile]
  obtain ⟨hstatus, hpassed⟩ := @passed_of_copy (.copying 256) (some (List.replicate 240 'c'))
    .zeroed (by decide) (InitEnv.allocates_copying 256) (by omega) 256 rfl
  refine ⟨hstatus, ?_, fun heq => ?_⟩
  · rw [hpassed, hlen, if_neg (by decide)]
  · have := congrArg List.length heq
    rw [length_zlogCfgFile, List.length_replicate] at this
    cases this

end TargetSys.Log
