import TargetSys.Log.Init

/-!
# The commands that are handed to the shell

Four functions format a command and run it. The copy command of `bf_sys_zlog_init` and the two
commands of `bf_sys_log_level_set` are formatted into buffers of a computed size and run only if
they were not cut off. `bf_sys_syslog_level_set` formats into an array of 100 bytes and looks at
nothing, although its command names the configuration file twice.

Reference: `src/bf_sal/linux_usr/bf_sys_log.c`.

## Main results

* `syslogCmd_eq_iff`: the file names for which the command of `bf_sys_syslog_level_set` is complete.
* `commandsComplete_iff`: when no command is cut off and no size is too small, for every name that
  `bf_sys_zlog_init` leaves.
-/

namespace TargetSys.Log

def syslogFormat : List Char :=
  "sed -i /syslog/d %s && echo '*.%s >syslog , LOG_USER' >> %s".toList

/-- The whole command of `bf_sys_syslog_level_set`. -/
def syslogText (l : Level) (file : List Char) : List Char :=
  snprintf syslogFormat [file, levelName l, file]

/-- The string in `sed_cmd`, an array of 100 bytes, when `bf_sys_syslog_level_set` runs it. -/
def syslogCmd (l : Level) (file : List Char) : List Char := buffered 100 (syslogText l file)

/-- The whole command of `bf_sys_log_level_set`. -/
def levelSetText (m : Module) (l : Level) (file : List Char) (output : ℤ) : List Char :=
  if output = bfLogDestStdout then stdoutCmd m l file else fileCmd m l file

/-- Every command that is run is complete, and the tests for a command that was cut off never
succeed: for the copy of the file named `cfg`, and for all later calls on the file named `file`. -/
structure CommandsComplete (cfg file : List Char) : Prop where
  copy : ∀ malloc cmd, formatCmd malloc (copyLen cfg) (copyCmd cfg) = .ready cmd → cmd = copyCmd cfg
  copyFits : ∀ malloc, formatCmd malloc (copyLen cfg) (copyCmd cfg) ≠ .truncated
  levelSet : ∀ env module output bfLevel m l cmd,
    levelSetArgs module output bfLevel = some (m, l) →
    levelSetCmd env file m l output = .ready cmd → cmd = levelSetText m l file output
  levelSetFits : ∀ env module output bfLevel m l,
    levelSetArgs module output bfLevel = some (m, l) → levelSetCmd env file m l output ≠ .truncated
  syslog : ∀ l, syslogCmd l file = syslogText l file

variable {cfg file : List Char}

/-! ## The single commands -/

/-- The format of the command for syslog has 59 characters and three directives. -/
theorem syslogFormat_counts : syslogFormat.length = 59 ∧ directives syslogFormat = 3 := by
  decide +kernel

/-- The length of the text for syslog, which names the file twice. -/
theorem syslogText_length (l : Level) (file : List Char) :
    (syslogText l file).length = 53 + 2 * file.length + (levelName l).length := by
  obtain ⟨hfmt, hdir⟩ := syslogFormat_counts
  have hlen := length_snprintf syslogFormat [file, levelName l, file] hdir
  simp only [List.flatten_cons, List.flatten_nil, List.length_append, List.length_nil,
    List.length_cons] at hlen
  unfold syslogText
  omega

/-- No level has a longer name than five characters. -/
theorem length_levelName_le_five : ∀ l : Level, (levelName l).length ≤ 5 := by
  decide +kernel

/-- Five characters are reached. -/
theorem length_levelName_bfLogDbg : (levelName bfLogDbg).length = 5 := by
  decide +kernel

/-- The buffer holds the whole text exactly if there is a byte left for the end. -/
theorem buffered_eq_iff {size : ℕ} {text : List Char} :
    buffered size text = text ↔ text.length ≤ size - 1 :=
  List.take_eq_self_iff text

/-- The command names the file twice, and the array leaves twenty characters for each. -/
theorem syslogCmd_eq_iff : (∀ l, syslogCmd l file = syslogText l file) ↔ file.length ≤ 20 := by
  constructor
  · intro h
    have hdbg := buffered_eq_iff.mp (h bfLogDbg)
    rw [syslogText_length, length_levelName_bfLogDbg] at hdbg
    omega
  · intro h l
    refine buffered_eq_iff.mpr ?_
    have hl := length_levelName_le_five l
    rw [syslogText_length]
    omega

/-- A command that is run is the text of its template. -/
theorem eq_of_levelSetCmd_ready {env : Env} {m : Module} {l : Level} {output : ℤ} {cmd : List Char}
    (h : levelSetCmd env file m l output = .ready cmd) : cmd = levelSetText m l file output := by
  unfold levelSetCmd at h
  unfold levelSetText
  split_ifs at h ⊢
  · exact eq_of_formatCmd_ready h
  · exact eq_of_formatCmd_ready h

/-- With a name below 512 MiB, a command for the standard output or a file is never cut off. -/
theorem levelSetCmd_ne_truncated (hfile : file.length < 2 ^ 29) (env : Env) (m : Module) (l : Level)
    (output : ℤ) : levelSetCmd env file m l output ≠ .truncated := by
  have hmod := length_modName_le m
  have hlev := length_levelName_le l
  unfold levelSetCmd
  split
  · have hlen := stdoutCmd_length m l file
    refine (formatCmd_ne_truncated_iff (by omega) (by omega)).mpr ?_ _
    unfold stdoutLen
    omega
  · have hlen := fileCmd_length m l file
    refine (formatCmd_ne_truncated_iff (by omega) (by omega)).mpr ?_ _
    unfold fileLen
    omega

/-! ## All commands -/

/-- For any two names, the size of the copy command and the name of the current file decide. -/
theorem commandsComplete_iff_length :
    CommandsComplete cfg file ↔ copyLen cfg < 2 ^ 31 ∧ file.length ≤ 20 := by
  have hc := copyCmd_length cfg
  have hcopy : (∀ malloc, formatCmd malloc (copyLen cfg) (copyCmd cfg) ≠ .truncated) ↔
      copyLen cfg < 2 ^ 31 := formatCmd_ne_truncated_iff (by omega) (by omega)
  constructor
  · intro h
    exact ⟨hcopy.mp h.copyFits, syslogCmd_eq_iff.mp h.syslog⟩
  · rintro ⟨hcfg, hfile⟩
    exact {
      copy := fun _ _ h => eq_of_formatCmd_ready h
      copyFits := hcopy.mpr hcfg
      levelSet := fun _ _ _ _ _ _ _ _ h => eq_of_levelSetCmd_ready h
      levelSetFits := fun env _ output _ m l _ =>
        levelSetCmd_ne_truncated (by omega) env m l output
      syslog := syslogCmd_eq_iff.mpr hfile }

/-- After `bf_sys_zlog_init`, all commands are complete exactly if the copy is in use or the user's
name is short, and the size of the copy command was an `int`. -/
theorem commandsComplete_iff {env : InitEnv} {arg1 : Option (List Char)} {s : LogState}
    (h : (bfSysZlogInit env arg1 s).state.zlogCurLogFile = some file) :
    CommandsComplete (cfgFileName env arg1) file ↔
      copyLen (cfgFileName env arg1) < 2 ^ 31 ∧
        (file = zlogCfgFile ∨ (cfgFileName env arg1).length ≤ 20) := by
  rw [commandsComplete_iff_length]
  refine and_congr_right fun _ => ?_
  have hcur := length_zlogCfgFile
  rcases zlogCurLogFile_bfSysZlogInit h with rfl | rfl
  · exact ⟨fun _ => Or.inl rfl, fun _ => by omega⟩
  · refine ⟨Or.inr, ?_⟩
    rintro (heq | hlen)
    · rw [heq]
      omega
    · exact hlen

/-- The copy of the default configuration leaves the fixed name, and all commands are complete. -/
theorem commandsComplete_copied :
    CommandsComplete (cfgFileName (.copying 0) none) zlogCfgFile :=
  (commandsComplete_iff (s := .zeroed) (by decide +kernel)).mpr ⟨by decide +kernel, Or.inl rfl⟩

/-- When the copy of the default configuration fails, the command of `bf_sys_syslog_level_set` ends
in the middle of the file name: it deletes the syslog rules and puts none in. -/
theorem commandsComplete_default :
    (bfSysZlogInit (.copying 256) none .zeroed).state.zlogCurLogFile =
        some "/usr/share/target_sys/zlog-cfg".toList ∧
      syslogCmd bfLogDbg "/usr/share/target_sys/zlog-cfg".toList =
        ("sed -i /syslog/d /usr/share/target_sys/zlog-cfg && echo '*.DEBUG >syslog , LOG_USER' " ++
          ">> /usr/share/").toList ∧
      ¬ CommandsComplete (cfgFileName (.copying 256) none)
        "/usr/share/target_sys/zlog-cfg".toList := by
  refine ⟨by decide +kernel, by decide +kernel, fun h => ?_⟩
  exact absurd (syslogCmd_eq_iff.mp h.syslog) (by decide +kernel)

end TargetSys.Log
