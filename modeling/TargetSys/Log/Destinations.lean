import TargetSys.Log.FileLevels
import TargetSys.Log.Independence
import TargetSys.Log.Tables

/-!
# The three destinations of the log

`bf_sys_log_level_set` sets the levels for the standard output and for log files, and
`bf_sys_syslog_level_set` the level for syslog. All three edit the same file, in any order. Their
patterns look at a text that marks the destination of a line: ` >stdout`, a quote behind a blank, or
`syslog`.

A file in which no line has two marks stays so, and is then three files in one: what calls for one
destination make of its lines does not depend on any call for another. The lines without a mark,
which are formats, comments and sections, stay as they are.

Reference: `src/bf_sal/linux_usr/bf_sys_log.c`.

## Main results

* `Setting.confined`: what one call does to the lines of each destination.
* `settingRun_destinations`: what any run of calls does to them.
-/

namespace TargetSys.Log

open SpanPattern

/-! ## The command for syslog -/

/-- The pattern for the lines that `sed` deletes. -/
def syslogPattern : List Char := "syslog".toList

/-- The rule that `echo` appends. -/
def syslogRule (l : Level) : Line := "*.".toList ++ levelName l ++ " >syslog , LOG_USER".toList

/-- What `syslogText` does to the file. -/
def syslogEdit (l : Level) (cfg : List Line) : List Line :=
  (cfg.filter fun line => ¬ syslogPattern <:+: line) ++ [syslogRule l]

/-- The commands for the configuration file named `file` run, that for syslog too, which has room for
a short name only. -/
structure CallEnv.Settles (env : CallEnv) (file : List Char) : Prop where
  succeeds : env.toEnv.Succeeds file
  short : file.length ≤ 20
  sed : ∀ l cfg, (env.system (syslogText l file) cfg).2 = syslogEdit l cfg

/-! ## Calls and destinations -/

inductive Destination
  | stdout
  | file
  | syslog
deriving DecidableEq, Repr

instance {p : Destination → Prop} [DecidablePred p] : Decidable (∀ d, p d) :=
  decidable_of_iff (p .stdout ∧ p .file ∧ p .syslog)
    ⟨fun h d => match d with
      | .stdout => h.1
      | .file => h.2.1
      | .syslog => h.2.2,
    fun h => ⟨h .stdout, h .file, h .syslog⟩⟩

/-- The text that marks a line of the destination. -/
def Destination.mark : Destination → List Char
  | .stdout => stdoutTail
  | .file => fileTail
  | .syslog => syslogPattern

/-- The line has the mark of the destination. -/
def Mentions (d : Destination) (line : Line) : Prop := d.mark <:+: line

instance (d : Destination) (line : Line) : Decidable (Mentions d line) :=
  inferInstanceAs (Decidable (_ <:+: _))

/-- The line has no mark. -/
def Unmarked (line : Line) : Prop := ∀ d, ¬ Mentions d line

instance (line : Line) : Decidable (Unmarked line) := inferInstanceAs (Decidable (∀ _, _))

/-- No line has two marks. -/
def Separate (cfg : List Line) : Prop :=
  ∀ line ∈ cfg, ∀ d d', Mentions d line → Mentions d' line → d = d'

instance (cfg : List Line) : Decidable (Separate cfg) :=
  inferInstanceAs (Decidable (∀ line ∈ cfg, ∀ d d', Mentions d line → Mentions d' line → d = d'))

/-- A call that sets a level, with arguments that the code accepts. -/
inductive Setting
  | stdout (m : Module) (l : Level)
  | file (m : Module) (l : Level)
  | syslog (l : Level)

def Setting.destination : Setting → Destination
  | .stdout _ _ => .stdout
  | .file _ _ => .file
  | .syslog _ => .syslog

/-- What the command of a call does to the file. -/
def Setting.edit : Setting → List Line → List Line
  | .stdout m l => stdoutEdit m l
  | .file m l => fileEdit m l
  | .syslog l => syslogEdit l

/-- The lines of the file after a call. -/
def Setting.exec (env : CallEnv) (file : List Char) : Setting → List Line → List Line
  | .stdout m l, cfg => (bfSysLogLevelSet env.toEnv file m bfLogDestStdout l cfg).2
  | .file m l, cfg => (bfSysLogLevelSet env.toEnv file m bfLogDestFile l cfg).2
  | .syslog l, cfg => (env.system (syslogCmd l file) cfg).2

/-- The lines of the file after calls. -/
def settingRun (env : CallEnv) (file : List Char) (init : List Line) (settings : List Setting) :
    List Line :=
  settings.foldl (fun cfg c => c.exec env file cfg) init

/-- Where the commands run, a call does to the file what its command says. -/
theorem Setting.exec_eq {env : CallEnv} {file : List Char} (he : env.Settles file) (c : Setting)
    (cfg : List Line) : c.exec env file cfg = c.edit cfg := by
  cases c with
  | stdout m l => rw [exec, bfSysLogLevelSet_stdout he.succeeds, edit]
  | file m l => rw [exec, bfSysLogLevelSet_file he.succeeds, edit]
  | syslog l => rw [exec, syslogCmd_eq_iff.mpr he.short, he.sed, edit]

/-! ## The texts that are put in -/

/-- A new rule for the standard output has no part of the other marks. -/
theorem apart_newRule_stdout : ∀ (m : Module) (l : Level),
    Apart fileTail (newRule m l stdoutTail) ∧ Apart syslogPattern (newRule m l stdoutTail) := by
  decide +kernel

/-- A new rule for a file has no part of the other marks. -/
theorem apart_newRule_file : ∀ (m : Module) (l : Level),
    Apart stdoutTail (newRule m l fileTail) ∧ Apart syslogPattern (newRule m l fileTail) := by
  decide +kernel

/-- The rule that `echo` appends is for the standard output only. -/
theorem mentions_appendedRule : ∀ (m : Module) (l : Level),
    Mentions .stdout (appendedRule m l) ∧ ¬ Mentions .file (appendedRule m l) ∧
      ¬ Mentions .syslog (appendedRule m l) := by
  decide +kernel

/-- The rule that is appended for syslog is for syslog only. -/
theorem mentions_syslogRule : ∀ l : Level,
    ¬ Mentions .stdout (syslogRule l) ∧ ¬ Mentions .file (syslogRule l) ∧
      Mentions .syslog (syslogRule l) := by
  decide +kernel

/-! ## Edits that are confined to a destination -/

/-- The edit looks only at the lines of destination `d`, and leaves all others as they are. -/
structure Confined (d : Destination) (edit : List Line → List Line) (cfg : List Line) : Prop where
  separate : Separate (edit cfg)
  own : (edit cfg).filter (Mentions d ·) = edit (cfg.filter (Mentions d ·))
  others : ∀ d', d' ≠ d → (edit cfg).filter (Mentions d' ·) = cfg.filter (Mentions d' ·)
  unmarked : (edit cfg).filter (Unmarked ·) = cfg.filter (Unmarked ·)

/-- What a `sed` for destination `d` does to one line. -/
structure SedFor (d : Destination) (f : Line → Line) : Prop where
  idle : ∀ line, ¬ Mentions d line → f line = line
  keeps : ∀ line, Mentions d line → Mentions d (f line)
  apart : ∀ d', d' ≠ d → ∀ line, ¬ Mentions d' line → ¬ Mentions d' (f line)

variable {d d' : Destination} {f : Line → Line} {cfg : List Line} {line : Line}

/-- The `sed` of a call for the standard output. -/
theorem sedFor_stdoutSed (m : Module) (l : Level) : SedFor .stdout (stdoutSed m l) where
  idle _ h := replaceSpan_of_not_infix h
  keeps _ h := infix_replaceSpan ⟨modName m ++ '.' :: levelName l, [], List.append_nil _⟩ h
  apart d' hd _ h := by
    cases d' with
    | stdout => exact absurd rfl hd
    | file => exact not_infix_replaceSpan (apart_newRule_stdout m l).1 h
    | syslog => exact not_infix_replaceSpan (apart_newRule_stdout m l).2 h

/-- The `sed` of a call for a file. -/
theorem sedFor_fileSed (m : Module) (l : Level) : SedFor .file (fileSed m l) where
  idle _ h := replaceSpan_of_not_infix h
  keeps _ h := infix_replaceSpan ⟨modName m ++ '.' :: levelName l, [], List.append_nil _⟩ h
  apart d' hd _ h := by
    cases d' with
    | stdout => exact not_infix_replaceSpan (apart_newRule_file m l).1 h
    | file => exact absurd rfl hd
    | syslog => exact not_infix_replaceSpan (apart_newRule_file m l).2 h

/-- A line that has one mark has no other. -/
theorem Separate.not_mentions (hsep : Separate cfg) (hline : line ∈ cfg) (h : Mentions d' line)
    (hd : d' ≠ d) : ¬ Mentions d line :=
  fun hm => hd (hsep line hline d' d h hm)

/-- Fewer lines have one mark at most, too. -/
theorem Separate.subset {cfg' : List Line} (hsep : Separate cfg) (h : cfg' ⊆ cfg) : Separate cfg' :=
  fun line hline => hsep line (h hline)

/-- In a file whose lines have one mark at most, `sed` keeps the mark of every line. -/
theorem SedFor.mentions_iff (hf : SedFor d f) (hsep : Separate cfg) (hline : line ∈ cfg)
    (d' : Destination) : Mentions d' (f line) ↔ Mentions d' line := by
  by_cases hd : d' = d
  · subst hd
    refine ⟨fun h => ?_, hf.keeps line⟩
    by_contra hn
    rw [hf.idle line hn] at h
    exact hn h
  · refine ⟨fun h => ?_, fun h => ?_⟩
    · by_contra hn
      exact hf.apart d' hd line hn h
    · rwa [hf.idle line (hsep.not_mentions hline h hd)]

/-- An edit that keeps what is filtered for can be made behind the filter. -/
theorem filter_map_of_iff {p : Line → Prop} [DecidablePred p] (h : ∀ line ∈ cfg, p (f line) ↔ p line) :
    (cfg.map f).filter (p ·) = (cfg.filter (p ·)).map f := by
  rw [List.filter_map]
  exact congrArg (List.map f)
    (List.filter_congr fun line hline => decide_eq_decide.mpr (h line hline))

/-- Lines that no edit changes. -/
theorem map_eq_self (h : ∀ line ∈ cfg, f line = line) : cfg.map f = cfg :=
  (List.map_congr_left h).trans (List.map_id cfg)

/-- A `sed` over all lines is confined to its destination. -/
theorem SedFor.confined (hf : SedFor d f) (hsep : Separate cfg) : Confined d (List.map f) cfg where
  separate := by
    intro line hline d₁ d₂ h₁ h₂
    obtain ⟨old, hold, rfl⟩ := List.mem_map.mp hline
    rw [hf.mentions_iff hsep hold] at h₁ h₂
    exact hsep old hold d₁ d₂ h₁ h₂
  own := filter_map_of_iff fun _ hline => hf.mentions_iff hsep hline d
  others d' hd := by
    rw [filter_map_of_iff fun _ hline => hf.mentions_iff hsep hline d']
    refine map_eq_self fun line hline => ?_
    obtain ⟨hline, hm⟩ := List.mem_filter.mp hline
    exact hf.idle line (hsep.not_mentions hline (of_decide_eq_true hm) hd)
  unmarked := by
    have hiff : ∀ line ∈ cfg, Unmarked (f line) ↔ Unmarked line := fun line hline => by
      simp only [Unmarked, hf.mentions_iff hsep hline]
    rw [filter_map_of_iff hiff]
    refine map_eq_self fun line hline => ?_
    obtain ⟨-, hm⟩ := List.mem_filter.mp hline
    exact hf.idle line (of_decide_eq_true hm d)

/-- A line of one destination is appended. -/
theorem confined_append (hsep : Separate cfg) (hd : Mentions d line)
    (hother : ∀ d', Mentions d' line → d' = d) : Confined d (· ++ [line]) cfg where
  separate := by
    intro x hx d₁ d₂ h₁ h₂
    rcases List.mem_append.mp hx with hx | hx
    · exact hsep x hx d₁ d₂ h₁ h₂
    · obtain rfl := List.mem_singleton.mp hx
      exact (hother d₁ h₁).trans (hother d₂ h₂).symm
  own := by
    rw [List.filter_append, List.filter_cons_of_pos (by simpa using hd), List.filter_nil]
  others d' hne := by
    have hn : ¬ Mentions d' line := fun h => hne (hother d' h)
    rw [List.filter_append, List.filter_cons_of_neg (by simpa using hn), List.filter_nil,
      List.append_nil]
  unmarked := by
    have hn : ¬ Unmarked line := fun h => h d hd
    rw [List.filter_append, List.filter_cons_of_neg (by simpa using hn), List.filter_nil,
      List.append_nil]

/-- A weaker filter before a stronger one does nothing. -/
theorem filter_filter_of_imp {p q : Line → Prop} [DecidablePred p] [DecidablePred q]
    (h : ∀ line ∈ cfg, p line → q line) : (cfg.filter (q ·)).filter (p ·) = cfg.filter (p ·) := by
  rw [List.filter_filter]
  refine List.filter_congr fun line hline => ?_
  by_cases hp : p line
  · simp [hp, h line hline hp]
  · simp [hp]

/-- The lines of one destination are deleted. -/
theorem confined_delete (hsep : Separate cfg) (d : Destination) :
    Confined d (List.filter (¬ Mentions d ·)) cfg where
  separate := hsep.subset List.filter_sublist.subset
  own := by
    rw [List.filter_filter, List.filter_filter]
    exact List.filter_congr fun _ _ => Bool.and_comm _ _
  others _ hne := filter_filter_of_imp fun _ hline hm => hsep.not_mentions hline hm hne
  unmarked := filter_filter_of_imp fun _ _ hm => hm d

/-- Two edits for one destination, one behind the other. -/
theorem Confined.comp {edit edit' : List Line → List Line} (h : Confined d edit cfg)
    (h' : Confined d edit' (edit cfg)) : Confined d (fun cfg => edit' (edit cfg)) cfg where
  separate := h'.separate
  own := by rw [h'.own, h.own]
  others d' hne := by rw [h'.others d' hne, h.others d' hne]
  unmarked := by rw [h'.unmarked, h.unmarked]

/-- It is enough to know the edit on the file and on the lines of its destination. -/
theorem Confined.congr {edit edit' : List Line → List Line} (h : Confined d edit cfg)
    (hcfg : edit' cfg = edit cfg)
    (hown : edit' (cfg.filter (Mentions d ·)) = edit (cfg.filter (Mentions d ·))) :
    Confined d edit' cfg where
  separate := by
    rw [hcfg]
    exact h.separate
  own := by rw [hcfg, hown, h.own]
  others d' hne := by rw [hcfg, h.others d' hne]
  unmarked := by rw [hcfg, h.unmarked]

/-! ## The calls -/

/-- Without a match of `grep`, no line would be changed by `sed` either. -/
theorem fileEdit_eq (m : Module) (l : Level) : fileEdit m l cfg = cfg.map (fileSed m l) := by
  unfold fileEdit
  split
  · rfl
  · next hno =>
    refine (map_eq_self fun line hline => ?_).symm
    by_contra hne
    exact hno ⟨line, hline, grep_of_fileSed_ne hne⟩

/-- The `grep` of a call for the standard output finds lines for the standard output only. -/
theorem exists_stdoutMatch_filter (m : Module) :
    (∃ line ∈ cfg.filter (Mentions .stdout ·), (stdoutMatch m line).isSome) ↔
      ∃ line ∈ cfg, (stdoutMatch m line).isSome := by
  constructor
  · rintro ⟨line, hline, hm⟩
    exact ⟨line, (List.mem_filter.mp hline).1, hm⟩
  · rintro ⟨line, hline, hm⟩
    obtain ⟨pre, mid, rest, heq⟩ := findSpan_isSome_iff.mp hm
    have hmark : Mentions .stdout line := ⟨pre ++ modName m ++ mid, rest, heq.symm⟩
    exact ⟨line, List.mem_filter.mpr ⟨hline, decide_eq_true hmark⟩, hm⟩

/-- **A call is confined to its destination.** -/
theorem Setting.confined (hsep : Separate cfg) (c : Setting) :
    Confined c.destination c.edit cfg := by
  cases c with
  | stdout m l =>
      by_cases hany : ∃ line ∈ cfg, (stdoutMatch m line).isSome
      · refine ((sedFor_stdoutSed m l).confined hsep).congr (if_pos hany) (if_pos ?_)
        exact (exists_stdoutMatch_filter m).mpr hany
      · obtain ⟨hout, hfile, hsys⟩ := mentions_appendedRule m l
        refine (confined_append hsep hout fun d' hd' => ?_).congr (if_neg hany) (if_neg ?_)
        · cases d' with
          | stdout => rfl
          | file => exact absurd hd' hfile
          | syslog => exact absurd hd' hsys
        · exact mt (exists_stdoutMatch_filter m).mp hany
  | file m l => exact ((sedFor_fileSed m l).confined hsep).congr (fileEdit_eq m l) (fileEdit_eq m l)
  | syslog l =>
      obtain ⟨hout, hfile, hsys⟩ := mentions_syslogRule l
      have hdel := confined_delete hsep .syslog
      refine hdel.comp (confined_append hdel.separate hsys fun d' hd' => ?_)
      cases d' with
      | stdout => exact absurd hd' hout
      | file => exact absurd hd' hfile
      | syslog => rfl

/-! ## Runs -/

variable {env : CallEnv} {file : List Char}

/-- The last call edits what the calls before it have left. -/
theorem settingRun_snoc (he : env.Settles file) (init : List Line) (settings : List Setting)
    (c : Setting) :
    settingRun env file init (settings ++ [c]) = c.edit (settingRun env file init settings) := by
  rw [settingRun, List.foldl_append, List.foldl_cons, List.foldl_nil, c.exec_eq he]
  rfl

/-- No call gives a line a second mark. -/
theorem separate_settingRun (he : env.Settles file) {init : List Line} (hsep : Separate init)
    (settings : List Setting) : Separate (settingRun env file init settings) := by
  induction settings using List.reverseRecOn with
  | nil => exact hsep
  | append_singleton settings c ih =>
      rw [settingRun_snoc he]
      exact (c.confined ih).separate

/-- What is left for one destination is what the calls for it have done to its lines. -/
theorem mentions_settingRun (he : env.Settles file) {init : List Line} (hsep : Separate init)
    (settings : List Setting) (d : Destination) :
    (settingRun env file init settings).filter (Mentions d ·) =
      settingRun env file (init.filter (Mentions d ·)) (settings.filter (·.destination = d)) := by
  induction settings using List.reverseRecOn with
  | nil => rfl
  | append_singleton settings c ih =>
      have hc := c.confined (separate_settingRun he hsep settings)
      rw [settingRun_snoc he, List.filter_append]
      by_cases hd : c.destination = d
      · subst hd
        rw [hc.own, ih, List.filter_cons_of_pos (by simp), List.filter_nil, settingRun_snoc he]
      · rw [hc.others d (Ne.symm hd), ih, List.filter_cons_of_neg (by simpa using hd),
          List.filter_nil, List.append_nil]

/-- No call touches a line without a mark. -/
theorem unmarked_settingRun (he : env.Settles file) {init : List Line} (hsep : Separate init)
    (settings : List Setting) :
    (settingRun env file init settings).filter (Unmarked ·) = init.filter (Unmarked ·) := by
  induction settings using List.reverseRecOn with
  | nil => rfl
  | append_singleton settings c ih =>
      rw [settingRun_snoc he, (c.confined (separate_settingRun he hsep settings)).unmarked, ih]

/-- The level that a call sets for syslog. -/
def Setting.syslogLevel : Setting → Option Level
  | .syslog l => some l
  | _ => none

/-- The level of the last call for syslog. -/
def lastSyslog (settings : List Setting) : Option Level :=
  settings.reverse.findSome? Setting.syslogLevel

/-- Behind a call for syslog there is one line for it, with the level of the last such call. -/
theorem syslog_settingRun (he : env.Settles file) {init : List Line} (hsep : Separate init)
    {settings : List Setting} {l : Level} (hlast : lastSyslog settings = some l) :
    (settingRun env file init settings).filter (Mentions .syslog ·) = [syslogRule l] := by
  induction settings using List.reverseRecOn with
  | nil => cases hlast
  | append_singleton settings c ih =>
      have hc := c.confined (separate_settingRun he hsep settings)
      rw [lastSyslog, List.reverse_append, List.reverse_singleton, List.singleton_append] at hlast
      rw [settingRun_snoc he]
      cases c with
      | stdout m l' =>
          exact (hc.others .syslog (show Destination.syslog ≠ .stdout by decide)).trans (ih hlast)
      | file m l' =>
          exact (hc.others .syslog (show Destination.syslog ≠ .file by decide)).trans (ih hlast)
      | syslog l' =>
          obtain rfl : l' = l := Option.some.inj hlast
          refine hc.own.trans ?_
          rw [Setting.edit, syslogEdit, List.filter_eq_nil_iff.mpr, List.nil_append]
          intro line hline
          have hm : syslogPattern <:+: line := of_decide_eq_true (List.mem_filter.mp hline).2
          simp [hm]

/-- **The destinations do not depend on one another.** Over any run of calls, on a file in which no
line has two marks, the lines of each destination become what its own calls alone would have made of
them. The lines without a mark stay as they are. Behind a call for syslog the only line for syslog is
the rule of the last one. -/
theorem settingRun_destinations (he : env.Settles file) {init : List Line} (hsep : Separate init)
    (settings : List Setting) :
    Separate (settingRun env file init settings) ∧
      (∀ d, (settingRun env file init settings).filter (Mentions d ·) =
        settingRun env file (init.filter (Mentions d ·)) (settings.filter (·.destination = d))) ∧
      (settingRun env file init settings).filter (Unmarked ·) = init.filter (Unmarked ·) ∧
      ∀ l, lastSyslog settings = some l →
        (settingRun env file init settings).filter (Mentions .syslog ·) = [syslogRule l] :=
  ⟨separate_settingRun he hsep settings, mentions_settingRun he hsep settings,
    unmarked_settingRun he hsep settings, fun _ hlast => syslog_settingRun he hsep hlast⟩

/-- A shell that runs the commands for syslog. -/
def settlingEnv : CallEnv where
  bfSysMalloc _ := true
  zlogReload _ := 0
  zlogCategoryNeedlessLevel _ _ := false
  cfg := []
  system cmd cfg :=
    match (List.finRange (bfLogMax + 1)).find? fun l => cmd = syslogText l zlogCfgFile with
    | some l => (0, syslogEdit l cfg)
    | none => (0, cfg)

/-- The surroundings of the example run every command. -/
theorem settlingEnv_settles : settlingEnv.Settles zlogCfgFile where
  succeeds := ⟨fun _ => rfl, by decide, fun _ => rfl⟩
  short := by decide
  sed l cfg := by
    have hfind : ∀ l : Level, ((List.finRange (bfLogMax + 1)).find? fun l' =>
        syslogText l zlogCfgFile = syslogText l' zlogCfgFile) = some l := by decide +kernel
    simp only [settlingEnv, hfind l]

/-- A file with a rule for each destination, and a call for each. -/
theorem settingRun_destinations_three :
    (settingRun settlingEnv zlogCfgFile
        ["[rules]".toList, "BF_SYS.INFO >stdout".toList, "BF_SYS.INFO \"bf.log\"".toList,
          "*.INFO >syslog , LOG_USER".toList]
        [.syslog bfLogDbg, .file bfModSys bfLogDbg, .stdout bfModPipe bfLogInfo]).filter
          (Mentions .syslog ·) = [syslogRule bfLogDbg] :=
  (settingRun_destinations settlingEnv_settles (by decide +kernel) _).2.2.2 _ rfl

end TargetSys.Log
