import TargetSys.Log.Rules

/-!
# Setting the level of a file log

A rule for a log file names its path in double quotes, and may go on with an archive part that names
another path in the same way. A call of `bf_sys_log_level_set` for file logging should give the rules
of its module the new level and keep everything from the opening quote on.

The `sed` pattern of the call ends with a blank and a double quote. Its wildcard is greedy, so the
match runs to the last such pair of the line: up to the opening quote of the archive path, when the
rule has one. And where a tab stands before the opening quote of the only path, nothing matches.

Reference: `src/bf_sal/linux_usr/bf_sys_log.c`.

## Main results

* `FileRule.fileSed_line`: what the edit makes of a rule line, in its three cases.
* `fileEdit_fileEdit`: a second edit changes nothing.
* `fileLevelSet_keeps_destination_iff`: the rules that keep their destination, for every file.
-/

namespace TargetSys.Log

open SpanPattern

/-! ## Rule lines -/

/-- A rule of module `m` whose destination begins with a double quote. -/
structure FileRule (m : Module) where
  level : List Char
  blanks : List Char
  /-- The destination behind its opening quote, with all the rule goes on with. -/
  text : List Char
  level_word : ∀ c ∈ level, isWordChar c
  blanks_blank : ∀ c ∈ blanks, isBlank c
  blanks_ne_nil : blanks ≠ []

/-- The line of the rule. -/
def FileRule.line {m : Module} (r : FileRule m) : Line :=
  modName m ++ '.' :: (r.level ++ (r.blanks ++ '"' :: r.text))

/-- A line that has the rule's destination, at level `l`. -/
def FileRule.KeptAt {m : Module} (r : FileRule m) (l : Level) (line : Line) : Prop :=
  ∃ blanks, blanks ≠ [] ∧ (∀ c ∈ blanks, isBlank c) ∧
    line = modName m ++ '.' :: (levelName l ++ (blanks ++ '"' :: r.text))

/-- No quote behind a blank follows the destination's opening quote, and that quote stands behind a
space or the rule has the level already. -/
def FileRule.Plain {m : Module} (r : FileRule m) (l : Level) : Prop :=
  ¬ fileTail <:+: r.text ∧ (r.blanks.getLast? = some ' ' ∨ r.level = levelName l)

/-! ## The last quote behind a blank -/

/-- The tail of the pattern is a blank and a quotation mark. -/
theorem fileTail_eq : fileTail = [' ', '"'] := rfl

/-- A tail that is found behind a word does not begin in it. -/
theorem infix_of_isWordChar {w s : List Char} (hw : ∀ c ∈ w, isWordChar c)
    (h : fileTail <:+: w ++ s) : fileTail <:+: s := by
  rw [fileTail_eq] at h ⊢
  induction w with
  | nil => exact h
  | cons c w ih =>
      rw [List.forall_mem_cons] at hw
      rcases List.infix_cons_iff.mp h with h | h
      · obtain ⟨rfl, -⟩ := List.cons_prefix_cons.mp h
        exact absurd hw.1 (by decide)
      · exact ih hw.2 h

/-- Across blanks, the pair is the last blank with the quote behind it, or lies further on. -/
theorem infix_of_isBlank {blanks s : List Char} (hb : ∀ c ∈ blanks, isBlank c)
    (h : fileTail <:+: blanks ++ '"' :: s) : blanks.getLast? = some ' ' ∨ fileTail <:+: s := by
  rw [fileTail_eq] at h ⊢
  induction blanks with
  | nil =>
      rcases List.infix_cons_iff.mp h with h | h
      · cases (List.cons_prefix_cons.mp h).1
      · exact Or.inr h
  | cons c blanks ih =>
      rw [List.forall_mem_cons] at hb
      rcases List.infix_cons_iff.mp h with h | h
      · obtain ⟨rfl, hquote⟩ := List.cons_prefix_cons.mp h
        cases blanks with
        | nil => exact Or.inl rfl
        | cons d blanks =>
            obtain ⟨rfl, -⟩ := List.cons_prefix_cons.mp hquote
            exact absurd (hb.2 _ List.mem_cons_self) (by decide)
      · refine (ih hb.2 h).imp_left fun hlast => ?_
        rw [List.getLast?_cons, hlast]
        rfl

/-- A level ends at the first blank. -/
theorem takeWhile_level {level blanks s : List Char} (hl : ∀ c ∈ level, isWordChar c)
    (hne : blanks ≠ []) (hb : ∀ c ∈ blanks, isBlank c) :
    (level ++ (blanks ++ s)).takeWhile isWordChar = level := by
  cases blanks with
  | nil => exact absurd rfl hne
  | cons c blanks =>
      have hc : ¬ isWordChar c := by simp [isWordChar, hb c List.mem_cons_self]
      rw [List.takeWhile_append_of_pos hl, List.cons_append, List.takeWhile_cons_of_neg hc,
        List.append_nil]

namespace FileRule

variable {m : Module} (r : FileRule m) (l : Level)

/-- The part of the line behind the module name. -/
def post : List Char := '.' :: (r.level ++ (r.blanks ++ '"' :: r.text))

/-- A quote behind a blank in the destination is the one that `sed` finds. -/
theorem splitLast_post {u rest : List Char} (h : splitLast fileTail r.text = some (u, rest)) :
    ∃ mid, splitLast fileTail r.post = some (mid, rest) := by
  have hpost : r.post = ('.' :: (r.level ++ (r.blanks ++ ['"']))) ++ r.text := by
    simp only [post, List.cons_append, List.append_assoc, List.nil_append]
  rw [hpost]
  exact ⟨_, splitLast_append h _⟩

/-- Without one, it is the opening quote, when this stands behind a space. -/
theorem splitLast_post_of_space (h : ¬ fileTail <:+: r.text)
    (hs : r.blanks.getLast? = some ' ') : ∃ mid, splitLast fileTail r.post = some (mid, r.text) := by
  obtain ⟨bl, hbl⟩ := List.getLast?_eq_some_iff.mp hs
  have hpost : r.post = ('.' :: (r.level ++ bl)) ++ (' ' :: '"' :: r.text) := by
    simp only [post, hbl, List.cons_append, List.append_assoc, List.nil_append]
  have hquote : splitLast fileTail ('"' :: r.text) = none := by
    refine splitLast_eq_none_iff.mpr fun hi => ?_
    exact h ((infix_of_isBlank (List.forall_mem_nil _) hi).resolve_left (by simp))
  have hsplit : splitLast fileTail (' ' :: '"' :: r.text) = some ([], r.text) := by
    rw [splitLast, hquote]
    exact if_pos ⟨r.text, rfl⟩
  rw [hpost]
  exact ⟨_, splitLast_append hsplit _⟩

/-- Otherwise there is none. -/
theorem splitLast_post_eq_none (h : ¬ fileTail <:+: r.text)
    (hs : r.blanks.getLast? ≠ some ' ') : splitLast fileTail r.post = none := by
  refine splitLast_eq_none_iff.mpr fun hi => ?_
  have hdot : ∀ c ∈ '.' :: r.level, isWordChar c :=
    List.forall_mem_cons.mpr ⟨by decide, r.level_word⟩
  have hi : fileTail <:+: r.blanks ++ '"' :: r.text := infix_of_isWordChar hdot hi
  rcases infix_of_isBlank r.blanks_blank hi with hlast | htext
  · exact hs hlast
  · exact h htext

/-! ## The edit of a rule -/

/-- The edit of a rule line: the text of a destination with a further quote behind a blank is cut
short, and otherwise the level is changed if a space stands before the opening quote. -/
theorem fileSed_line :
    (∃ u rest, r.text = u ++ fileTail ++ rest ∧
      fileSed m l r.line = newRule m l fileTail ++ rest) ∨
    (¬ fileTail <:+: r.text ∧ r.blanks.getLast? = some ' ' ∧
      fileSed m l r.line = newRule m l fileTail ++ r.text) ∨
    (¬ fileTail <:+: r.text ∧ r.blanks.getLast? ≠ some ' ' ∧ fileSed m l r.line = r.line) := by
  cases ht : splitLast fileTail r.text with
  | some p =>
      obtain ⟨mid, hmid⟩ := r.splitLast_post ht
      exact Or.inl ⟨p.1, p.2, splitLast_eq_some ht, replaceSpan_append_of_some hmid⟩
  | none =>
      have htext := splitLast_eq_none_iff.mp ht
      by_cases hs : r.blanks.getLast? = some ' '
      · obtain ⟨mid, hmid⟩ := r.splitLast_post_of_space htext hs
        exact Or.inr (Or.inl ⟨htext, hs, replaceSpan_append_of_some hmid⟩)
      · have hnone := r.splitLast_post_eq_none htext hs
        exact Or.inr (Or.inr ⟨htext, hs, replaceSpan_append_of_none hnone⟩)

/-- The new rule keeps the text behind its tail. -/
theorem keptAt_newRule : r.KeptAt l (newRule m l fileTail ++ r.text) := by
  refine ⟨[' '], List.cons_ne_nil _ _, List.all_eq_true.mp (by decide), ?_⟩
  simp only [newRule, fileTail_eq, List.append_assoc, List.cons_append, List.nil_append]

/-- The edit keeps the destination exactly for the plain rules. -/
theorem keptAt_fileSed_iff : r.KeptAt l (fileSed m l r.line) ↔ r.Plain l := by
  rcases r.fileSed_line l with ⟨u, rest, htext, hsed⟩ | ⟨htext, hs, hsed⟩ | ⟨htext, hs, hsed⟩
  · -- the edited line is too short for the destination
    constructor
    · rintro ⟨blanks, -, -, hline⟩
      have hlen := congrArg List.length (hsed.symm.trans hline)
      simp only [newRule, fileTail_eq, htext, List.length_append, List.length_cons,
        List.length_nil] at hlen
      omega
    · rintro ⟨hno, -⟩
      exact absurd ⟨u, rest, htext.symm⟩ hno
  · rw [hsed]
    exact ⟨fun _ => ⟨htext, Or.inl hs⟩, fun _ => r.keptAt_newRule l⟩
  · rw [hsed]
    constructor
    · rintro ⟨blanks, hne, hb, hline⟩
      obtain ⟨-, hrest⟩ := List.cons.inj (List.append_cancel_left hline)
      refine ⟨htext, Or.inr ?_⟩
      rw [← takeWhile_level r.level_word r.blanks_ne_nil r.blanks_blank, hrest,
        takeWhile_level (isWordChar_of_mem_levelName l) hne hb]
    · rintro ⟨-, hlast | hlevel⟩
      · exact absurd hlast hs
      · exact ⟨r.blanks, r.blanks_ne_nil, r.blanks_blank, by rw [line, hlevel]⟩

end FileRule

/-! ## The edit of a file -/

variable {m : Module} {l : Level} {cfg : List Line}

/-- The `sed` a second time changes nothing. -/
theorem fileSed_fileSed (line : Line) : fileSed m l (fileSed m l line) = fileSed m l line :=
  replaceSpan_idem (t := '.' :: levelName l) rfl

/-- The `grep` of the call finds every line that its `sed` changes. -/
theorem grep_of_fileSed_ne {line : Line} (h : fileSed m l line ≠ line) :
    (findSpan (modName m) " ".toList line).isSome := by
  have hsome : (findSpan (modName m) fileTail line).isSome := by
    rw [Option.isSome_iff_ne_none]
    exact fun hnone => h (replaceSpan_of_none hnone)
  obtain ⟨pre, mid, rest, rfl⟩ := findSpan_isSome_iff.mp hsome
  refine findSpan_isSome_iff.mpr ⟨pre, mid, '"' :: rest, ?_⟩
  simp only [fileTail_eq, List.append_assoc, List.cons_append, List.nil_append]
  rfl

/-- A second edit changes nothing, whether or not its `grep` finds the pattern again. -/
theorem fileEdit_fileEdit : fileEdit m l (fileEdit m l cfg) = fileEdit m l cfg := by
  by_cases h : ∃ line ∈ cfg, (findSpan (modName m) " ".toList line).isSome
  · have hsed : fileEdit m l cfg = cfg.map (fileSed m l) := if_pos h
    rw [hsed]
    unfold fileEdit
    split
    · rw [List.map_map]
      exact List.map_congr_left fun line _ => fileSed_fileSed line
    · rfl
  · have hsame : fileEdit m l cfg = cfg := if_neg h
    rw [hsame, hsame]

/-- Line by line, the edit is `sed`. -/
theorem getElem?_fileEdit {i : ℕ} {line : Line} (h : cfg[i]? = some line) :
    (fileEdit m l cfg)[i]? = some (fileSed m l line) := by
  unfold fileEdit
  split
  · rw [List.getElem?_map, h]
    rfl
  · next hno =>
    rw [h]
    by_contra hne
    refine hno ⟨line, List.mem_of_getElem? h, grep_of_fileSed_ne (l := l) fun heq => hne ?_⟩
    rw [heq]

/-- What a call for file logging does to a file: a rule of the module keeps its destination exactly
if it is plain, and the same call once more changes nothing. -/
theorem fileLevelSet_keeps_destination_iff {env : Env} {file : List Char} (he : env.Succeeds file)
    (m : Module) (l : Level) (cfg : List Line) :
    (∀ (i : ℕ) (r : FileRule m), cfg[i]? = some r.line →
      ((∃ line, (bfSysLogLevelSet env file m bfLogDestFile l cfg).2[i]? = some line ∧
        r.KeptAt l line) ↔ r.Plain l)) ∧
    (bfSysLogLevelSet env file m bfLogDestFile l
      (bfSysLogLevelSet env file m bfLogDestFile l cfg).2).2 =
      (bfSysLogLevelSet env file m bfLogDestFile l cfg).2 := by
  simp only [bfSysLogLevelSet_file he]
  refine ⟨fun i r h => ?_, fileEdit_fileEdit⟩
  rw [getElem?_fileEdit h, ← r.keptAt_fileSed_iff]
  simp

/-- `BF_SYS.INFO "/var/log/bf.log"`. -/
def pathRule : FileRule bfModSys where
  level := "INFO".toList
  blanks := [' ']
  text := "/var/log/bf.log\"".toList
  level_word := List.all_eq_true.mp (by decide)
  blanks_blank := List.all_eq_true.mp (by decide)
  blanks_ne_nil := by decide

/-- `BF_SYS.INFO "/var/log/bf.log", 10MB*5 ~ "/var/log/bf.%t.log"`. -/
def archiveRule : FileRule bfModSys where
  level := "INFO".toList
  blanks := [' ']
  text := "/var/log/bf.log\", 10MB*5 ~ \"/var/log/bf.%t.log\"".toList
  level_word := List.all_eq_true.mp (by decide)
  blanks_blank := List.all_eq_true.mp (by decide)
  blanks_ne_nil := by decide

/-- A rule with nothing behind its path keeps the path. -/
theorem fileLevelSet_keeps_path :
    ∃ line, (bfSysLogLevelSet ⟨fun _ => true, fun _ => 0⟩ "zlog-cfg-cur".toList bfModSys
        bfLogDestFile bfLogDbg [pathRule.line]).2[0]? = some line ∧
      pathRule.KeptAt bfLogDbg line := by
  have he : Env.Succeeds ⟨fun _ => true, fun _ => 0⟩ "zlog-cfg-cur".toList :=
    ⟨fun _ => rfl, by decide +kernel, fun _ => rfl⟩
  have hplain : pathRule.Plain bfLogDbg := ⟨by decide +kernel, Or.inl rfl⟩
  exact ((fileLevelSet_keeps_destination_iff he bfModSys bfLogDbg [pathRule.line]).1 0 pathRule
    rfl).mpr hplain

/-- A rule with an archive part loses its path to the path of the archive. -/
theorem fileLevelSet_loses_path :
    (bfSysLogLevelSet ⟨fun _ => true, fun _ => 0⟩ "zlog-cfg-cur".toList bfModSys bfLogDestFile
        bfLogDbg [archiveRule.line]).2 = ["BF_SYS.DEBUG \"/var/log/bf.%t.log\"".toList] ∧
      ¬ archiveRule.KeptAt bfLogDbg "BF_SYS.DEBUG \"/var/log/bf.%t.log\"".toList := by
  have hedit : fileEdit bfModSys bfLogDbg [archiveRule.line] =
      ["BF_SYS.DEBUG \"/var/log/bf.%t.log\"".toList] := by decide +kernel
  have he : Env.Succeeds ⟨fun _ => true, fun _ => 0⟩ "zlog-cfg-cur".toList :=
    ⟨fun _ => rfl, by decide +kernel, fun _ => rfl⟩
  rw [bfSysLogLevelSet_file he]
  refine ⟨hedit, fun hkept => ?_⟩
  have hsed : fileSed bfModSys bfLogDbg archiveRule.line =
      "BF_SYS.DEBUG \"/var/log/bf.%t.log\"".toList := by decide +kernel
  rw [← hsed, FileRule.keptAt_fileSed_iff] at hkept
  exact absurd hkept.1 (by decide +kernel)

end TargetSys.Log
