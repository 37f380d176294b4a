import Mathlib.Algebra.Group.Int.Defs
import Mathlib.Algebra.Group.Nat.Defs
import Mathlib.Data.Int.Basic
import TargetSys.Common.SpanPattern

/-!
# Setting the log level of a module

`bf_sys_log_level_set` formats a shell command that edits the current zlog configuration file, runs
it, and makes zlog load the file again. The model keeps the command text, since its length decides
whether it is run, and gives the effect of the command on the lines of the file: a `grep` for a
line that the pattern matches, and then either a `sed` over all lines or an `echo` of a new rule.

The size of the command's buffer is computed in `size_t` and kept in an `int`, and `snprintf`
returns an `int`, so both go wrong for a file name of 2 GiB.

Modules and levels index the two name tables, so the model has them as `Fin`; the entry point takes
any integers and checks them first.

Reference: `src/bf_sal/linux_usr/bf_sys_log.c`.

## Main results

* `stdoutCmd_length`, `fileCmd_length`: the lengths of the commands, which their buffers exceed.
* `eq_of_formatCmd_ready`: a command that is run is complete.
* `bfSysLogLevelSet_stdout`, `bfSysLogLevelSet_file`: what an accepted call does to the file.
-/

namespace TargetSys.Log

open SpanPattern

/-- A line of the configuration file. -/
abbrev Line := List Char

def bfModMax : ℕ := 25

def bfLogMax : ℕ := 5

def bfLogDestStdout : ℤ := 1

def bfLogDestFile : ℤ := 4

/-- A module that the code accepts. -/
abbrev Module := Fin bfModMax

/-- A level from `BF_LOG_NONE` to `BF_LOG_MAX`. -/
abbrev Level := Fin (bfLogMax + 1)

def bfLogInfo : Level := ⟨4, by decide⟩

def bfLogDbg : Level := ⟨5, by decide⟩

def bfModSys : Module := ⟨0, by decide⟩

def bfModPipe : Module := ⟨3, by decide⟩

def bfModPi : Module := ⟨14, by decide⟩

/-- The zlog category name for an individual module. -/
def zlogCatName : List String :=
  ["BF_SYS", "BF_UTIL", "BF_LLD", "BF_PIPE", "BF_TM", "BF_MC",
   "BF_PKT", "BF_DVM", "BF_PORT", "BF_AVAGO", "BF_DRU", "BF_MAP",
   "BF_API", "BF_SAI", "BF_PI", "BF_PLTFM", "BF_PAL", "BF_PM",
   "BF_KNET", "BF_BFRT", "BF_P4RT", "BF_SWITCHD", "KRNLMON", "OVSP4RT",
   "INFRAP4D"]

/-- The log level names of the zlog configuration file. -/
def zlogCfgLevelName : List String := ["NONE", "FATAL", "ERROR", "WARN", "INFO", "DEBUG"]

/-- The characters that `strncpy` copies, with the terminator stored behind them. -/
def strncpy (s : List Char) (n : ℕ) : List Char := s.take n

/-- The text that `snprintf` formats, when `%s` is the only directive of the format. -/
def snprintf : List Char → List (List Char) → List Char
  | c :: d :: fmt, arg :: args =>
      if c = '%' ∧ d = 's' then arg ++ snprintf fmt args else c :: snprintf (d :: fmt) (arg :: args)
  | fmt, _ => fmt

/-- The number of directives of a format. -/
def directives : List Char → ℕ
  | c :: d :: fmt => if c = '%' ∧ d = 's' then directives fmt + 1 else directives (d :: fmt)
  | _ => 0

/-- A number that is stored in an `int`. -/
def toInt (n : ℤ) : ℤ := n.bmod (2 ^ 32)

/-- An `int` that is passed as a `size_t`. -/
def toSize (n : ℤ) : ℕ := (n % ((2 ^ 64 : ℕ) : ℤ)).toNat

/-- What `snprintf` returns for a text: its length, or an error if that is more than an `int`. -/
def snprintfStatus (text : List Char) : ℤ := if text.length < 2 ^ 31 then text.length else -1

/-- The string that `snprintf` leaves in a buffer of `size` bytes. -/
def buffered (size : ℕ) (text : List Char) : List Char := text.take (size - 1)

/-- A command before it is run. -/
inductive Formatted
  | noMemory
  | truncated
  | ready (cmd : List Char)
deriving DecidableEq, Repr

/-- Allocate a buffer of a computed size, format the command into it, and test whether it was cut
off. -/
def formatCmd (malloc : ℕ → Bool) (size : ℕ) (text : List Char) : Formatted :=
  let len := toInt size
  if malloc (toSize len) = false then .noMemory
  else if snprintfStatus text < 0 ∨ snprintfStatus text ≥ len then .truncated
  else .ready (buffered (toSize len) text)

/-- `mod_name` of the code. -/
def modName (m : Module) : List Char := strncpy (zlogCatName.get m).toList 255

/-- `level_name` of the code. -/
def levelName (l : Level) : List Char := strncpy (zlogCfgLevelName.get l).toList 7

/-! ## The commands -/

def stdoutFormat : List Char :=
  ("grep -q \"%s.* >stdout\" %s && sed -i 's/%s.* >stdout/%s.%s " ++
    ">stdout/' %s || echo '%s.%s >stdout;console_format' >> %s").toList

def fileFormat : List Char :=
  "grep -q \"%s.* \"\"\" %s && sed -i 's/%s.* \"/%s.%s \"/' %s".toList

/-- The command for the standard output, on the configuration file `file`. -/
def stdoutCmd (m : Module) (l : Level) (file : List Char) : List Char :=
  snprintf stdoutFormat
    [modName m, file, modName m, modName m, levelName l, file, modName m, levelName l, file]

/-- The command for file logging. -/
def fileCmd (m : Module) (l : Level) (file : List Char) : List Char :=
  snprintf fileFormat [modName m, file, modName m, modName m, levelName l, file]

/-- The size of the buffer for `stdoutCmd`. -/
def stdoutLen (m : Module) (l : Level) (file : List Char) : ℕ :=
  128 + 4 * (modName m).length + 3 * file.length + 2 * (levelName l).length

/-- The size of the buffer for `fileCmd`. -/
def fileLen (m : Module) (l : Level) (file : List Char) : ℕ :=
  64 + 3 * (modName m).length + 2 * file.length + (levelName l).length

/-! ## What the commands do -/

/-- The text behind the module name in the pattern for the standard output. -/
def stdoutTail : List Char := " >stdout".toList

/-- The text behind the module name in the `sed` pattern for file logging. -/
def fileTail : List Char := " \"".toList

/-- The text that `sed` puts in: the module, the level and the text that ended the match. -/
def newRule (m : Module) (l : Level) (tail : List Char) : List Char :=
  modName m ++ '.' :: levelName l ++ tail

/-- The rule that `echo` appends. -/
def appendedRule (m : Module) (l : Level) : Line :=
  newRule m l stdoutTail ++ ";console_format".toList

/-- The match of the pattern of module `m` for the standard output in a line. -/
def stdoutMatch (m : Module) (line : Line) : Option (List Char × List Char × List Char) :=
  findSpan (modName m) stdoutTail line

/-- One line under `sed` with the pattern for the standard output. -/
def stdoutSed (m : Module) (l : Level) (line : Line) : Line :=
  replaceSpan (modName m) stdoutTail (newRule m l stdoutTail) line

/-- One line under `sed` with the pattern for file logging. -/
def fileSed (m : Module) (l : Level) (line : Line) : Line :=
  replaceSpan (modName m) fileTail (newRule m l fileTail) line

/-- What `stdoutCmd` does to the file. -/
def stdoutEdit (m : Module) (l : Level) (cfg : List Line) : List Line :=
  if ∃ line ∈ cfg, (stdoutMatch m line).isSome then cfg.map (stdoutSed m l)
  else cfg ++ [appendedRule m l]

/-- What `fileCmd` does to the file. The first of the three quotes of its `grep` ends the quoted
text for the shell, so this pattern ends with the blank. -/
def fileEdit (m : Module) (l : Level) (cfg : List Line) : List Line :=
  if ∃ line ∈ cfg, (findSpan (modName m) " ".toList line).isSome then cfg.map (fileSed m l)
  else cfg

/-! ## The entry point -/

/-- The surroundings of the code: its allocator, and what zlog answers when it loads a file. -/
structure Env where
  bfSysMalloc : ℕ → Bool
  zlogReload : List Line → ℤ

/-- The commands for the configuration file named `file` run, so its name fits into a command, and
zlog loads the file again. -/
structure Env.Succeeds (env : Env) (file : List Char) : Prop where
  malloc : ∀ n, env.bfSysMalloc n = true
  path : file.length < 2 ^ 29
  reload : ∀ cfg, env.zlogReload cfg = 0

def bfSysLogZlogReconfig (env : Env) (cfg : List Line) : ℤ :=
  if env.zlogReload cfg ≠ 0 then -1 else 0

/-- What `bf_sys_log_level_set` formats for an accepted call. -/
def levelSetCmd (env : Env) (file : List Char) (m : Module) (l : Level) (output : ℤ) : Formatted :=
  if output = bfLogDestStdout then
    formatCmd env.bfSysMalloc (stdoutLen m l file) (stdoutCmd m l file)
  else formatCmd env.bfSysMalloc (fileLen m l file) (fileCmd m l file)

/-- What its command does to the file. -/
def levelSetEdit (m : Module) (l : Level) (output : ℤ) : List Line → List Line :=
  if output = bfLogDestStdout then stdoutEdit m l else fileEdit m l

/-- Run a command unless it was cut off, and load the file again. -/
def runSedCmd (env : Env) (cmd : Formatted) (edit : List Line → List Line) (cfg : List Line) :
    ℤ × List Line :=
  match cmd with
  | .noMemory | .truncated => (-1, cfg)
  | .ready _ => (bfSysLogZlogReconfig env (edit cfg), edit cfg)

/-- The checks of `bf_sys_log_level_set`, with the module and the level of a call they accept. -/
def levelSetArgs (module output bfLevel : ℤ) : Option (Module × Level) :=
  if hr : module ≥ bfModMax ∨ module < 0 ∨ bfLevel > bfLogMax ∨ bfLevel < 0 then none
  else if output ≠ bfLogDestStdout ∧ output ≠ bfLogDestFile then none
  else some (⟨module.toNat, by omega⟩, ⟨bfLevel.toNat, by omega⟩)

/-- `bf_sys_log_level_set`, with the file named `file` and its lines before and after the call. -/
def bfSysLogLevelSet (env : Env) (file : List Char) (module output bfLevel : ℤ)
    (cfg : List Line) : ℤ × List Line :=
  match levelSetArgs module output bfLevel with
  | none => (-1, cfg)
  | some (m, l) => runSedCmd env (levelSetCmd env file m l output) (levelSetEdit m l output) cfg

/-! ## Formatting a command -/

/-- With an argument for every directive, each directive gives its two characters for one. -/
theorem length_snprintf (fmt : List Char) (args : List (List Char))
    (h : directives fmt = args.length) :
    (snprintf fmt args).length + 2 * args.length = fmt.length + args.flatten.length := by
  fun_induction snprintf fmt args with
  | case1 c d fmt arg args hcd ih =>
      rw [directives, if_pos hcd, List.length_cons, Nat.add_right_cancel_iff] at h
      have hlen := ih h
      simp only [List.length_append, List.length_cons, List.flatten_cons]
      omega
  | case2 c d fmt arg args hcd ih =>
      rw [directives, if_neg hcd] at h
      have hlen := ih h
      simp only [List.length_cons] at hlen ⊢
      omega
  | case3 fmt args hcase =>
      have hargs : args = [] := by
        rcases fmt with _ | ⟨c, _ | ⟨d, fmt⟩⟩
        · exact List.length_eq_zero_iff.mp h.symm
        · exact List.length_eq_zero_iff.mp h.symm
        · cases args with
          | nil => rfl
          | cons arg args => exact absurd rfl (hcase c d fmt arg args rfl)
      simp [hargs]

/-- The format of the command for the standard output has 115 characters and nine directives. -/
theorem stdoutFormat_counts : stdoutFormat.length = 115 ∧ directives stdoutFormat = 9 := by
  decide +kernel

/-- The format of the command for a file has 53 characters and six directives. -/
theorem fileFormat_counts : fileFormat.length = 53 ∧ directives fileFormat = 6 := by
  decide +kernel

/-- The buffer of the command for the standard output has 31 bytes to spare. -/
theorem stdoutCmd_length (m : Module) (l : Level) (file : List Char) :
    (stdoutCmd m l file).length + 31 = stdoutLen m l file := by
  obtain ⟨hfmt, hdir⟩ := stdoutFormat_counts
  have hlen := length_snprintf stdoutFormat
    [modName m, file, modName m, modName m, levelName l, file, modName m, levelName l, file] hdir
  simp only [List.flatten_cons, List.flatten_nil, List.length_append, List.length_nil,
    List.length_cons] at hlen
  unfold stdoutCmd stdoutLen
  omega

/-- The buffer of the command for a file has 23 bytes to spare. -/
theorem fileCmd_length (m : Module) (l : Level) (file : List Char) :
    (fileCmd m l file).length + 23 = fileLen m l file := by
  obtain ⟨hfmt, hdir⟩ := fileFormat_counts
  have hlen := length_snprintf fileFormat
    [modName m, file, modName m, modName m, levelName l, file] hdir
  simp only [List.flatten_cons, List.flatten_nil, List.length_append, List.length_nil,
    List.length_cons] at hlen
  unfold fileCmd fileLen
  omega

/-- A length below 2 GiB is kept as an `int`. -/
theorem toInt_of_lt {n : ℕ} (h : n < 2 ^ 31) : toInt n = n := by
  rw [toInt, Int.bmod_eq_of_le] <;> omega

/-- Such a length is kept as the size that `snprintf` takes. -/
theorem toSize_natCast {n : ℕ} (h : n < 2 ^ 31) : toSize n = n := by
  rw [toSize]
  omega

/-- An `int` is below `2 ^ 31`. -/
theorem toInt_lt (n : ℤ) : toInt n < 2 ^ 31 := by
  have h := Int.bmod_lt (x := n) (m := 2 ^ 32) (by decide)
  rw [toInt]
  omega

variable {malloc : ℕ → Bool} {size : ℕ} {text cmd : List Char}

/-- A command that is run is complete, whatever the size of its buffer. -/
theorem eq_of_formatCmd_ready (h : formatCmd malloc size text = .ready cmd) : cmd = text := by
  simp only [formatCmd] at h
  split_ifs at h with hm ht
  rw [not_or] at ht
  obtain ⟨hpos, hlt⟩ := ht
  -- the test has compared the length of the text with the size of the buffer
  have hstatus : snprintfStatus text = text.length := by
    unfold snprintfStatus at hpos ⊢
    split_ifs at hpos ⊢ with hs
    · rfl
    · exact absurd (by decide) hpos
  obtain ⟨n, hn⟩ := Int.eq_ofNat_of_zero_le (show 0 ≤ toInt size by omega)
  have hn31 : n < 2 ^ 31 := by
    have := toInt_lt size
    omega
  rw [← Formatted.ready.inj h, hn, toSize_natCast hn31, buffered, List.take_of_length_le]
  omega

/-- A buffer whose size is an `int` larger than the text takes all of it. -/
theorem formatCmd_of_lt (ht : text.length < size) (hs : size < 2 ^ 31) :
    formatCmd malloc size text = if malloc size = false then .noMemory else .ready text := by
  have hstatus : snprintfStatus text = text.length := if_pos (by omega)
  unfold formatCmd
  simp only [toInt_of_lt hs, toSize_natCast hs, hstatus]
  rw [if_neg (show ¬ ((text.length : ℤ) < 0 ∨ (text.length : ℤ) ≥ size) by omega), buffered,
    List.take_of_length_le (by omega)]

/-- A buffer whose size is no `int`, and hardly larger than the text, is taken for too small. -/
theorem formatCmd_of_ge (hm : ∀ n, malloc n = true) (hs : 2 ^ 31 ≤ size)
    (ht : size < text.length + 2 ^ 31) : formatCmd malloc size text = .truncated := by
  unfold formatCmd
  rw [if_neg (by simp [hm]), if_pos]
  by_cases hl : text.length < 2 ^ 31
  · -- the size wraps to a negative `int`
    have hlen : toInt size = size - 2 ^ 32 := by
      rw [toInt, ← Int.sub_bmod_right, Int.bmod_eq_of_le] <;> omega
    rw [snprintfStatus, if_pos hl, hlen]
    omega
  · rw [snprintfStatus, if_neg hl]
    exact Or.inl (by decide)

/-- The test for a command that was cut off can succeed exactly if the size is no `int`. -/
theorem formatCmd_ne_truncated_iff (ht : text.length < size) (hs : size < text.length + 2 ^ 31) :
    (∀ malloc, formatCmd malloc size text ≠ .truncated) ↔ size < 2 ^ 31 := by
  constructor
  · intro h
    by_contra hsize
    exact h (fun _ => true) (formatCmd_of_ge (fun _ => rfl) (by omega) hs)
  · intro hsize malloc
    rw [formatCmd_of_lt ht hsize]
    split <;> simp

/-! ## Accepted calls -/

/-- A module name fits into its array. -/
theorem length_modName_le (m : Module) : (modName m).length ≤ 255 := List.length_take_le ..

/-- A level name fits into its array. -/
theorem length_levelName_le (l : Level) : (levelName l).length ≤ 7 := List.length_take_le ..

/-- Arguments in range go through the checks as they are. -/
theorem levelSetArgs_of_accepted (m : Module) (l : Level) {output : ℤ}
    (ho : output = bfLogDestStdout ∨ output = bfLogDestFile) :
    levelSetArgs m output l = some (m, l) := by
  have hm := m.isLt
  have hl := l.isLt
  unfold levelSetArgs
  rw [dif_neg (by omega), if_neg (by tauto)]
  simp only [Int.toNat_natCast, Fin.eta]

/-- The effect of a call that is accepted, when its command runs. -/
theorem bfSysLogLevelSet_eq {env : Env} {file : List Char} (he : env.Succeeds file) (m : Module)
    (l : Level) {output : ℤ} (ho : output = bfLogDestStdout ∨ output = bfLogDestFile)
    (cfg : List Line) :
    bfSysLogLevelSet env file m output l cfg = (0, levelSetEdit m l output cfg) := by
  have hcmd : ∃ cmd, levelSetCmd env file m l output = .ready cmd := by
    have hmod := length_modName_le m
    have hlev := length_levelName_le l
    have hfile := he.path
    unfold levelSetCmd
    split
    · have hlen := stdoutCmd_length m l file
      refine ⟨_, (formatCmd_of_lt (by omega) ?_).trans (if_neg (by simp [he.malloc]))⟩
      unfold stdoutLen
      omega
    · have hlen := fileCmd_length m l file
      refine ⟨_, (formatCmd_of_lt (by omega) ?_).trans (if_neg (by simp [he.malloc]))⟩
      unfold fileLen
      omega
  obtain ⟨cmd, hcmd⟩ := hcmd
  simp [bfSysLogLevelSet, levelSetArgs_of_accepted m l ho, hcmd, runSedCmd, bfSysLogZlogReconfig,
    he.reload]

/-- An accepted call for the standard output edits the file with `stdoutEdit`. -/
theorem bfSysLogLevelSet_stdout {env : Env} {file : List Char} (he : env.Succeeds file) (m : Module)
    (l : Level) (cfg : List Line) :
    bfSysLogLevelSet env file m bfLogDestStdout l cfg = (0, stdoutEdit m l cfg) :=
  bfSysLogLevelSet_eq he m l (.inl rfl) cfg

/-- An accepted call for file logging edits the file with `fileEdit`. -/
theorem bfSysLogLevelSet_file {env : Env} {file : List Char} (he : env.Succeeds file) (m : Module)
    (l : Level) (cfg : List Line) :
    bfSysLogLevelSet env file m bfLogDestFile l cfg = (0, fileEdit m l cfg) :=
  bfSysLogLevelSet_eq he m l (.inr rfl) cfg

end TargetSys.Log
