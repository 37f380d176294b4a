import TargetSys.Common.Ownership
import TargetSys.Log.Tables

/-!
# The life cycle of the file name

`zlog_cur_log_file` points to a copy of a file name. `bf_sys_zlog_init` frees the copy of an earlier
call, makes up to two new ones, and can fail in five places; `bf_sys_log_close` frees the copy that is
left; and the calls that set a level read it, with buffers of their own around. Here these functions
are programs over the heap. What `malloc`, the shell and zlog answer is part of the call.

The other modules give the name as a value. `Refines` connects the two: the value is the text that
the pointer leads to, and nothing else is taken from the heap.

Reference: `src/bf_sal/linux_usr/bf_sys_log.c`, `src/bf_sal/linux_usr/bf_sys_str.c`.

## Main results

* `Call.refines`: a call over the heap does what it does over values, and faults where that does.
* `bfSysLog_lifeCycle`: the same for every history, with nothing leaked and nothing freed twice.
-/

namespace TargetSys.Log.LifeCycle

open Transition Ownership

/-- What is at an address: no block, a block, or a block with a string in it. -/
inductive Cell
  | free
  | raw
  | text (s : List Char)
deriving DecidableEq, Repr

/-- The variables of the code, with the name as a pointer. -/
structure LogData where
  zlogCurLogFile : ℕ
  zlogCat : Module → Option ℕ
  bfSysTraceLevel : Module → ℤ

/-- The variables and the heap. -/
abbrev State := Mem LogData Cell

/-- A call on them. -/
abbrev LogProg := Prog LogData Cell

/-! ## The functions that are called -/

/-- `bf_sys_malloc`, answering `p`. -/
def bfSysMalloc (p : ℕ) : LogProg ℕ := alloc .free .raw p

/-- `bf_sys_free`. -/
def bfSysFree (p : ℕ) : LogProg Unit := release .free p

/-- The string at an address. -/
def readText (p : ℕ) : LogProg (List Char) := do
  match (← get).heap p with
  | .text s => return s
  | _ => throw .fault

/-- `bf_sys_strdup` of a string, with the block that `malloc` gives. -/
def bfSysStrdup (c : List Char) (p : ℕ) : LogProg ℕ := do
  let p ← bfSysMalloc p
  if p = 0 then return 0
  become .raw (.text c) p
  return p

/-- `zlog_cur_log_file` is set. -/
def setFile (p : ℕ) : LogProg Unit := setData fun d => { d with zlogCurLogFile := p }

/-- `zlog_cur_log_file` is freed if it is there. -/
def freeFile : LogProg Unit := do
  let p := (← get).data.zlogCurLogFile
  if p ≠ 0 then bfSysFree p

/-- The name is freed if it is there, and a copy of another one takes its place. -/
def replaceFile (c : List Char) (block : ℕ) : LogProg Unit := do
  freeFile
  setFile (← bfSysStrdup c block)

/-! ## `bf_sys_log_init` and `bf_sys_log_close` -/

/-- The blocks that `malloc` gives during one `bf_sys_zlog_init`, for the fixed name, for the copy
command and for the name of the user. -/
structure Blocks where
  cur : ℕ
  temp : ℕ
  cfg : ℕ

/-- The part behind the copy. -/
def startZlog (env : InitEnv) : LogProg ℤ := do
  let cur := (← get).data.zlogCurLogFile
  if cur = 0 then return -1
  let name ← readText cur
  if env.zlogInit name ≠ 0 then return -1
  setData fun d => { d with zlogCat := fun m => env.zlogGetCategory (zlogCatName.get m).toList }
  return 0

/-- `err` behind the copy command: what `snprintf` returned, or what `system` did. -/
def copyErr (env : InitEnv) (cfg : List Char) : ℤ :=
  let len := toInt (copyLen cfg)
  let err := snprintfStatus (copyCmd cfg)
  if err < 0 ∨ err ≥ len then err else env.system (buffered (toSize len) (copyCmd cfg))

/-- The message, and the fallback to the name of the user. -/
def fallBack (cfg : List Char) (tempBuff block : ℕ) : LogProg Unit := do
  use .raw tempBuff
  replaceFile cfg block

/-- The copy of the user's file. -/
def copyCfg (env : InitEnv) (cfg : List Char) (b : Blocks) : LogProg ℤ := do
  let tempBuff ← bfSysMalloc b.temp
  if tempBuff = 0 then return -1
  let err := copyErr env cfg
  if err < 0 ∨ err ≥ toInt (copyLen cfg) then fallBack cfg tempBuff b.cfg
  bfSysFree tempBuff
  startZlog env

def bfSysZlogInit (env : InitEnv) (arg1 : Option (List Char)) (b : Blocks) : LogProg ℤ := do
  let cfg := cfgFileName env arg1
  replaceFile zlogCfgFile b.cur
  if env.stat ≠ 0 then copyCfg env cfg b else startZlog env

def bfSysLogInit (env : InitEnv) (arg1 : Option (List Char)) (arg2 : ℤ) (b : Blocks) :
    LogProg ℤ := do
  let err ← bfSysZlogInit env arg1 b
  setData fun d => { d with bfSysTraceLevel := fun _ => arg2 }
  return err

/-- `bf_sys_log_close`. -/
def bfSysLogClose : LogProg ℤ := do
  freeFile
  setFile 0
  return 0

/-! ## The calls that set a level -/

/-- The size of the buffer of `bf_sys_log_level_set`. -/
def levelSetLen (m : Module) (l : Level) (file : List Char) (output : ℤ) : ℕ :=
  if output = bfLogDestStdout then stdoutLen m l file else fileLen m l file

/-- The part behind the checks. -/
def runLevelSet (env : CallEnv) (block : ℕ) (m : Module) (l : Level) (output : ℤ) : LogProg ℤ := do
  let file ← readText (← get).data.zlogCurLogFile
  let sedCmd ← bfSysMalloc block
  if sedCmd = 0 then return -1
  let rc := snprintfStatus (levelSetText m l file output)
  if rc < 0 ∨ rc ≥ toInt (levelSetLen m l file output) then
    bfSysFree sedCmd
    return -1
  use .raw sedCmd
  bfSysFree sedCmd
  let _ ← readText (← get).data.zlogCurLogFile
  return bfSysLogZlogReconfig env.toEnv (levelSetEdit m l output env.cfg)

def bfSysLogLevelSet (env : CallEnv) (block : ℕ) (module output bfLevel : ℤ) : LogProg ℤ :=
  match levelSetArgs module output bfLevel with
  | none => return -1
  | some (m, l) => runLevelSet env block m l output

/-- The part behind the table of the level names. -/
def runSyslog (env : CallEnv) (l : Level) : LogProg ℤ := do
  let file ← readText (← get).data.zlogCurLogFile
  let r := env.system (syslogCmd l file) env.cfg
  if r.1 < 0 then return -1
  let _ ← readText (← get).data.zlogCurLogFile
  return bfSysLogZlogReconfig env.toEnv r.2

def bfSysSyslogLevelSet (env : CallEnv) (bfLevel : ℤ) : LogProg ℤ :=
  if bfLevel > bfLogMax then return -1
  else
    match index (bfLogMax + 1) bfLevel with
    | .error _ => throw .fault
    | .ok l => runSyslog env l

/-! ## Calls -/

/-- A call, with what its environment answers. -/
inductive Call
  | init (env : InitEnv) (arg1 : Option (List Char)) (arg2 : ℤ) (b : Blocks)
  | close
  | levelSet (env : CallEnv) (block : ℕ) (module output bfLevel : ℤ)
  | syslogLevelSet (env : CallEnv) (bfLevel : ℤ)

/-- The function that is called, over the heap. -/
def Call.exec : Call → LogProg ℤ
  | .init env arg1 arg2 b => bfSysLogInit env arg1 arg2 b
  | .close => bfSysLogClose
  | .levelSet env block module output bfLevel => bfSysLogLevelSet env block module output bfLevel
  | .syslogLevelSet env bfLevel => bfSysSyslogLevelSet env bfLevel

/-- The allocator that gives these blocks. -/
def Blocks.env (b : Blocks) (env : InitEnv) : InitEnv :=
  { env with
    mallocCur := fun _ => b.cur ≠ 0
    mallocTemp := fun _ => b.temp ≠ 0
    mallocCfg := fun _ => b.cfg ≠ 0 }

/-- The value that a call over values returns. -/
def returned (r : Effect × LogState) : ℤ × LogState := (r.1.ret.getD 0, r.2)

/-- The function that is called, over values. -/
def Call.value (l : LogState) : Call → Except Fault (ℤ × LogState)
  | .init env arg1 arg2 b => .ok (Log.bfSysLogInit (b.env env) arg1 arg2 l)
  | .close => .ok (0, { l with zlogCurLogFile := none })
  | .levelSet env block module output bfLevel =>
      returned <$> bfSysLogLevelSetCall { env with bfSysMalloc := fun _ => block ≠ 0 } l module
        output bfLevel
  | .syslogLevelSet env bfLevel => returned <$> Log.bfSysSyslogLevelSet env l bfLevel

/-- A call over the heap that returns, with the value it returns. -/
def Step (s : State) (e : Call × ℤ) (s' : State) : Prop := e.1.exec.run s = .ok (e.2, s')

/-- A call over values that returns. -/
def ValueStep (l : LogState) (e : Call × ℤ) (l' : LogState) : Prop := e.1.value l = .ok (e.2, l')

/-! ## The refinement -/

/-- What the calls have taken from the heap. -/
def ledger (p : ℕ) : Option (List Char) → List (ℕ × Cell)
  | none => []
  | some name => [(p, .text name)]

/-- The name is what the pointer leads to. Besides it, the running call has taken `extra` from the
heap `base`, and nothing else. -/
structure Refines (base : ℕ → Cell) (extra : List (ℕ × Cell)) (s : State) (l : LogState) : Prop where
  cat : s.data.zlogCat = l.zlogCat
  trace : s.data.bfSysTraceLevel = l.bfSysTraceLevel
  null : s.data.zlogCurLogFile = 0 ↔ l.zlogCurLogFile = none
  owns : Owns .free base (extra ++ ledger s.data.zlogCurLogFile l.zlogCurLogFile) s.heap

section Rules

variable {α : Type} {base : ℕ → Cell} {extra : List (ℕ × Cell)} {s : State} {l : LogState} {p : ℕ}
  {c : Cell} {name : List Char} {Q : α → State → Prop}

/-- The rules for the heap are about the ledger only. -/
theorem Refines.heap (hs : Refines base extra s l) {extra' : List (ℕ × Cell)} {heap : ℕ → Cell}
    (hown : Owns .free base (extra' ++ ledger s.data.zlogCurLogFile l.zlogCurLogFile) heap) :
    Refines base extra' ⟨s.data, heap⟩ l :=
  ⟨hs.cat, hs.trace, hs.null, hown⟩

/-- The rule of `bf_sys_malloc` with memory. -/
theorem Refines.malloc {k : ℕ → LogProg α} (hs : Refines base extra s l) (hp : p ≠ 0)
    (next : ∀ s', Refines base ((p, .raw) :: extra) s' l → Ends Q (k p) s') :
    Ends Q (bfSysMalloc p >>= k) s :=
  Ends.alloc_some hs.owns (by decide) hp fun _ hown => next _ (hs.heap hown)

/-- The rule of `bf_sys_free` for a block that the running call has. -/
theorem Refines.free {k : Unit → LogProg α} (hs : Refines base ((p, c) :: extra) s l)
    (next : ∀ s', Refines base extra s' l → Ends Q (k ()) s') : Ends Q (bfSysFree p >>= k) s :=
  Ends.release hs.owns fun _ hown => next _ (hs.heap hown)

/-- The rule for reading a string. -/
theorem ends_readText {k : List Char → LogProg α} (h : s.heap p = .text name)
    (next : Ends Q (k name) s) : Ends Q (readText p >>= k) s := by
  unfold readText
  rw [bind_assoc]
  refine Ends.get ?_
  rw [h]
  exact next

/-- The name is there to be read. -/
theorem Refines.text (hs : Refines base extra s l) (hname : l.zlogCurLogFile = some name) :
    s.heap s.data.zlogCurLogFile = .text name := by
  refine hs.owns.held (s.data.zlogCurLogFile, .text name) (List.mem_append_right _ ?_)
  rw [hname]
  exact List.mem_singleton_self _

/-- The rule for reading the name, which needs one to be set. -/
theorem Refines.readFile {k : List Char → LogProg α} (hs : Refines base extra s l)
    (hname : l.zlogCurLogFile = some name) (next : Ends Q (k name) s) :
    Ends Q (readText s.data.zlogCurLogFile >>= k) s :=
  ends_readText (hs.text hname) next

/-- The rule for freeing the name. The pointer stays where it is. -/
theorem Refines.freeFile {k : Unit → LogProg α} (hs : Refines base extra s l)
    (next : ∀ heap, Owns .free base extra heap → Ends Q (k ()) ⟨s.data, heap⟩) :
    Ends Q (freeFile >>= k) s := by
  have hown := hs.owns.perm List.perm_append_comm
  unfold LifeCycle.freeFile
  rw [bind_assoc]
  refine Ends.get ?_
  cases hname : l.zlogCurLogFile with
  | none =>
      rw [hname] at hown
      rw [if_neg (not_not.mpr (hs.null.mpr hname))]
      exact next s.heap hown
  | some name =>
      rw [hname] at hown
      have hp : s.data.zlogCurLogFile ≠ 0 := fun h0 => by
        rw [hs.null.mp h0] at hname
        cases hname
      rw [if_pos hp]
      exact Ends.release hown next

/-- The name that a block of `bf_sys_strdup` holds. -/
def strdupName (c : List Char) (p : ℕ) : Option (List Char) := if p = 0 then none else some c

/-- The rule of `bf_sys_strdup`. -/
theorem ends_strdup {k : ℕ → LogProg α} {text : List Char} (h : Owns .free base extra s.heap)
    (next : ∀ heap, Owns .free base (extra ++ ledger p (strdupName text p)) heap →
      Ends Q (k p) ⟨s.data, heap⟩) : Ends Q (bfSysStrdup text p >>= k) s := by
  unfold bfSysStrdup
  rw [bind_assoc]
  by_cases hp : p = 0
  · subst hp
    refine Ends.alloc_null ?_
    rw [if_pos rfl]
    exact next s.heap (h.perm (by rw [strdupName, if_pos rfl, ledger, List.append_nil]))
  · refine Ends.alloc_some h (by decide) hp fun heap hown => ?_
    rw [if_neg hp, bind_assoc]
    refine Ends.become hown (by simp) fun heap hown => next heap (hown.perm ?_)
    rw [strdupName, if_neg hp, ledger]
    exact (List.perm_append_singleton _ _).symm

/-- The rule for a new name. -/
theorem Refines.replaceFile {k : Unit → LogProg α} {text : List Char} (hs : Refines base extra s l)
    (next : ∀ s', Refines base extra s' { l with zlogCurLogFile := strdupName text p } →
      Ends Q (k ()) s') : Ends Q (replaceFile text p >>= k) s := by
  unfold LifeCycle.replaceFile
  rw [bind_assoc]
  refine hs.freeFile fun heap hown => ?_
  rw [bind_assoc]
  refine ends_strdup hown fun heap hown => Ends.setData (next _ ⟨hs.cat, hs.trace, ?_, hown⟩)
  simp [strdupName]

/-- The rule for the fallback. -/
theorem Refines.fallBack {k : Unit → LogProg α} {cfg : List Char} {block : ℕ}
    (hs : Refines base ((p, .raw) :: extra) s l)
    (next : ∀ s', Refines base ((p, .raw) :: extra) s'
      { l with zlogCurLogFile := strdupName cfg block } → Ends Q (k ()) s') :
    Ends Q (fallBack cfg p block >>= k) s := by
  unfold LifeCycle.fallBack
  rw [bind_assoc]
  exact Ends.use (hs.owns.held (p, .raw) List.mem_cons_self) (hs.replaceFile next)

end Rules

/-! ## The calls -/

section Calls

variable {base : ℕ → Cell} {s : State} {l : LogState}

/-- What a call that returns `ret` should leave. -/
def Gives (base : ℕ → Cell) (r : ℤ × LogState) (ret : ℤ) (s : State) : Prop :=
  ret = r.1 ∧ Refines base [] s r.2

/-- Over values, a block of 0 is an allocation that fails. -/
theorem strdup_value (b : ℕ) (c : List Char) :
    Log.bfSysStrdup (fun _ => b ≠ 0) (some c) = strdupName c b := by
  by_cases hb : b = 0
  · simp [Log.bfSysStrdup, strdupName, hb]
  · simp [Log.bfSysStrdup, strdupName, hb]

/-- The part behind the copy does what it does over values. -/
theorem ends_startZlog (env : InitEnv) (status : Option ℤ) (hs : Refines base [] s l) :
    Ends (Gives base ((Log.startZlog env l status).ret, (Log.startZlog env l status).state))
      (startZlog env) s := by
  unfold startZlog Log.startZlog
  refine Ends.get ?_
  cases hname : l.zlogCurLogFile with
  | none =>
      rw [if_pos (hs.null.mpr hname)]
      exact Ends.pure ⟨rfl, hs⟩
  | some name =>
      have hp : s.data.zlogCurLogFile ≠ 0 := fun h0 => by
        rw [hs.null.mp h0] at hname
        cases hname
      rw [if_neg hp]
      refine hs.readFile hname ?_
      by_cases hz : env.zlogInit name ≠ 0
      · simp only [if_pos hz]
        exact Ends.pure ⟨rfl, hs⟩
      · simp only [if_neg hz]
        have hown := hs.owns
        rw [hname] at hown
        exact Ends.setData (Ends.pure ⟨rfl, rfl, hs.trace, by simpa [hname] using hs.null, hown⟩)

/-- `formatCmd` with one block, case by case. -/
theorem formatCmd_block (block size : ℕ) (text : List Char) :
    formatCmd (fun _ => block ≠ 0) size text =
      if block = 0 then .noMemory
      else if snprintfStatus text < 0 ∨ snprintfStatus text ≥ toInt size then .truncated
      else .ready (buffered (toSize (toInt size)) text) := by
  simp [formatCmd]

/-- The copy over values. -/
def copyValue (env : InitEnv) (cfg : List Char) (b : Blocks) (l : LogState) : InitResult :=
  let fallback := { l with zlogCurLogFile := strdupName cfg b.cfg }
  if b.temp = 0 then ⟨-1, l, none, none⟩
  else if snprintfStatus (copyCmd cfg) < 0 ∨ snprintfStatus (copyCmd cfg) ≥ toInt (copyLen cfg) then
    Log.startZlog env fallback none
  else if copyErr env cfg < 0 ∨ copyErr env cfg ≥ toInt (copyLen cfg) then
    Log.startZlog env fallback (some (copyErr env cfg))
  else Log.startZlog env l (some (copyErr env cfg))

/-- `bf_sys_zlog_init` over values, cut where the one over the heap is. -/
theorem bfSysZlogInit_value (env : InitEnv) (arg1 : Option (List Char)) (b : Blocks)
    (l : LogState) :
    Log.bfSysZlogInit (b.env env) arg1 l =
      let l := { l with zlogCurLogFile := strdupName zlogCfgFile b.cur }
      if env.stat ≠ 0 then copyValue env (cfgFileName env arg1) b l
      else Log.startZlog env l none := by
  have hcur : Log.bfSysStrdup (b.env env).mallocCur (some zlogCfgFile) =
      strdupName zlogCfgFile b.cur := strdup_value ..
  have hcfg : Log.bfSysStrdup (b.env env).mallocCfg (some (cfgFileName env arg1)) =
      strdupName (cfgFileName env arg1) b.cfg := strdup_value ..
  have hformat : ∀ size text, formatCmd (b.env env).mallocTemp size text = _ :=
    formatCmd_block b.temp
  have hname : cfgFileName (b.env env) arg1 = cfgFileName env arg1 := rfl
  simp only [Log.bfSysZlogInit, hcur, hcfg, hname, hformat]
  refine if_congr Iff.rfl ?_ rfl
  -- the two definitions test the same things in the same order
  unfold copyValue
  by_cases htemp : b.temp = 0
  · simp only [if_pos htemp]
  · simp only [if_neg htemp]
    by_cases hsn : snprintfStatus (copyCmd (cfgFileName env arg1)) < 0 ∨
        snprintfStatus (copyCmd (cfgFileName env arg1)) ≥ toInt (copyLen (cfgFileName env arg1))
    · simp only [if_pos hsn]
      rfl
    · have herr : copyErr env (cfgFileName env arg1) =
          env.system (buffered (toSize (toInt (copyLen (cfgFileName env arg1))))
            (copyCmd (cfgFileName env arg1))) := if_neg hsn
      simp only [if_neg hsn, herr]
      rfl

/-- The copy does what it does over values, and frees the block of its command on every path. -/
theorem ends_copyCfg (env : InitEnv) (cfg : List Char) (b : Blocks) (hs : Refines base [] s l) :
    Ends (Gives base ((copyValue env cfg b l).ret, (copyValue env cfg b l).state))
      (copyCfg env cfg b) s := by
  unfold copyCfg copyValue
  by_cases hp : b.temp = 0
  · rw [hp]
    refine Ends.alloc_null ?_
    rw [if_pos rfl, if_pos rfl]
    exact Ends.pure ⟨rfl, hs⟩
  rw [if_neg hp]
  refine hs.malloc hp fun s hs => ?_
  rw [if_neg hp]
  by_cases hsn : snprintfStatus (copyCmd cfg) < 0 ∨ snprintfStatus (copyCmd cfg) ≥ toInt (copyLen cfg)
  · have herr : copyErr env cfg = snprintfStatus (copyCmd cfg) := if_pos hsn
    rw [if_pos hsn]
    simp only [herr, if_pos hsn]
    exact hs.fallBack fun s hs => hs.free fun s hs => ends_startZlog env _ hs
  · rw [if_neg hsn]
    by_cases herr : copyErr env cfg < 0 ∨ copyErr env cfg ≥ toInt (copyLen cfg)
    · simp only [if_pos herr]
      exact hs.fallBack fun s hs => hs.free fun s hs => ends_startZlog env _ hs
    · simp only [if_neg herr]
      exact hs.free fun s hs => ends_startZlog env _ hs

/-- `bf_sys_zlog_init` does what it does over values. -/
theorem ends_zlogInit (env : InitEnv) (arg1 : Option (List Char)) (b : Blocks)
    (hs : Refines base [] s l) :
    Ends (Gives base ((Log.bfSysZlogInit (b.env env) arg1 l).ret,
        (Log.bfSysZlogInit (b.env env) arg1 l).state)) (bfSysZlogInit env arg1 b) s := by
  rw [bfSysZlogInit_value]
  unfold bfSysZlogInit
  refine hs.replaceFile fun s hs => ?_
  by_cases hstat : env.stat ≠ 0
  · simp only [if_pos hstat]
    exact ends_copyCfg env _ b hs
  · simp only [if_neg hstat]
    exact ends_startZlog env none hs

/-- `bf_sys_log_close` leaves no name. -/
theorem ends_logClose (hs : Refines base [] s l) :
    Ends (Gives base (0, { l with zlogCurLogFile := none })) bfSysLogClose s := by
  unfold bfSysLogClose
  refine hs.freeFile fun heap hown => Ends.setData (Ends.pure ?_)
  exact ⟨rfl, hs.cat, hs.trace, by simp, hown⟩

/-- `bf_sys_log_init` does what it does over values. -/
theorem ends_logInit (env : InitEnv) (arg1 : Option (List Char)) (arg2 : ℤ) (b : Blocks)
    (hs : Refines base [] s l) :
    Ends (Gives base (Log.bfSysLogInit (b.env env) arg1 arg2 l)) (bfSysLogInit env arg1 arg2 b)
      s := by
  refine Ends.bind (ends_zlogInit env arg1 b hs) fun ret s' hgives => ?_
  obtain ⟨rfl, hs'⟩ := hgives
  exact Ends.setData (Ends.pure ⟨rfl, hs'.cat, rfl, hs'.null, hs'.owns⟩)

/-- Without a name, the pointer is `NULL` and cannot be read. -/
theorem run_readFile_null {k : List Char → LogProg ℤ} (hs : Refines base [] s l)
    (hnull : base 0 = .free) (hname : l.zlogCurLogFile = none) :
    (get >>= fun m : State => readText m.data.zlogCurLogFile >>= k).run s = .error .fault := by
  have hown := hs.owns
  rw [hname] at hown
  have hfree : s.heap s.data.zlogCurLogFile = .free := by
    rw [hs.null.mpr hname, hown.eq_base, hnull]
  rw [run_get, readText, bind_assoc, run_get, hfree]
  rfl

/-- A call over the heap does what it does over values: it faults if that does, and gives the same
if that returns. -/
def Follows (base : ℕ → Cell) (v : Except Fault (ℤ × LogState)) (x : LogProg ℤ) (s : State) :
    Prop :=
  match v with
  | .ok r => Ends (Gives base r) x s
  | .error _ => x.run s = .error .fault

/-- The value of `bf_sys_log_level_set` behind its checks. -/
def levelSetRet (env : CallEnv) (block : ℕ) (m : Module) (lv : Level) (output : ℤ)
    (file : List Char) : ℤ :=
  if block = 0 then -1
  else if snprintfStatus (levelSetText m lv file output) < 0 ∨
      snprintfStatus (levelSetText m lv file output) ≥ toInt (levelSetLen m lv file output) then -1
  else bfSysLogZlogReconfig env.toEnv (levelSetEdit m lv output env.cfg)

variable {env : CallEnv} {block : ℕ} {m : Module} {lv : Level} {module output bfLevel : ℤ}
  {file : List Char}

/-- The value of `bf_sys_log_level_set` when its arguments are accepted and there is a name. -/
theorem levelSet_value (hargs : levelSetArgs module output bfLevel = some (m, lv))
    (hname : l.zlogCurLogFile = some file) :
    (Call.levelSet env block module output bfLevel).value l =
      .ok (levelSetRet env block m lv output file, l) := by
  have hcmd : ∀ env' : Env, env'.bfSysMalloc = (fun _ => decide (block ≠ 0)) →
      levelSetCmd env' file m lv output =
        formatCmd (fun _ => block ≠ 0) (levelSetLen m lv file output)
          (levelSetText m lv file output) := by
    intro env' hmalloc
    unfold levelSetCmd levelSetLen levelSetText
    rw [hmalloc]
    split <;> rfl
  have hret : (Log.bfSysLogLevelSet { env with bfSysMalloc := fun _ => block ≠ 0 } file module output
      bfLevel env.cfg).1 = levelSetRet env block m lv output file := by
    unfold Log.bfSysLogLevelSet levelSetRet
    rw [hargs]
    simp only [hcmd ⟨fun _ => block ≠ 0, env.zlogReload⟩ rfl, formatCmd_block]
    split_ifs <;> rfl
  rw [← hret, Call.value, bfSysLogLevelSetCall, hargs, hname]
  rfl

/-- The part behind the checks does what it does over values. -/
theorem ends_runLevelSet (hs : Refines base [] s l) (hname : l.zlogCurLogFile = some file) :
    Ends (Gives base (levelSetRet env block m lv output file, l)) (runLevelSet env block m lv output)
      s := by
  unfold runLevelSet levelSetRet
  refine Ends.get (hs.readFile hname ?_)
  by_cases hp : block = 0
  · rw [hp]
    refine Ends.alloc_null ?_
    rw [if_pos rfl, if_pos rfl]
    exact Ends.pure ⟨rfl, hs⟩
  rw [if_neg hp]
  refine hs.malloc hp fun s hs => ?_
  rw [if_neg hp]
  by_cases hrc : snprintfStatus (levelSetText m lv file output) < 0 ∨
      snprintfStatus (levelSetText m lv file output) ≥ toInt (levelSetLen m lv file output)
  · simp only [if_pos hrc]
    exact hs.free fun s hs => Ends.pure ⟨rfl, hs⟩
  · simp only [if_neg hrc]
    refine Ends.use (hs.owns.held (block, .raw) List.mem_cons_self) (hs.free fun s hs => ?_)
    exact Ends.get (hs.readFile hname (Ends.pure ⟨rfl, hs⟩))

/-- `bf_sys_log_level_set` follows its value. -/
theorem follows_levelSet (hnull : base 0 = .free) (hs : Refines base [] s l) :
    Follows base ((Call.levelSet env block module output bfLevel).value l)
      (bfSysLogLevelSet env block module output bfLevel) s := by
  unfold bfSysLogLevelSet
  cases hargs : levelSetArgs module output bfLevel with
  | none =>
      rw [Call.value, bfSysLogLevelSetCall, hargs]
      exact Ends.pure ⟨rfl, hs⟩
  | some a =>
      obtain ⟨m, lv⟩ := a
      cases hname : l.zlogCurLogFile with
      | none =>
          rw [Call.value, bfSysLogLevelSetCall, hargs, hname]
          exact run_readFile_null hs hnull hname
      | some file =>
          rw [levelSet_value hargs hname]
          exact ends_runLevelSet hs hname

/-- The part behind the table of the level names does what it does over values. -/
theorem ends_runSyslog (hs : Refines base [] s l) (hname : l.zlogCurLogFile = some file) :
    Ends (Gives base (if (env.system (syslogCmd lv file) env.cfg).1 < 0 then -1
      else bfSysLogZlogReconfig env.toEnv (env.system (syslogCmd lv file) env.cfg).2, l))
      (runSyslog env lv) s := by
  unfold runSyslog
  refine Ends.get (hs.readFile hname ?_)
  by_cases hst : (env.system (syslogCmd lv file) env.cfg).1 < 0
  · simp only [if_pos hst]
    exact Ends.pure ⟨rfl, hs⟩
  · simp only [if_neg hst]
    exact Ends.get (hs.readFile hname (Ends.pure ⟨rfl, hs⟩))

/-- `bf_sys_syslog_level_set` follows its value. -/
theorem follows_syslogLevelSet (hnull : base 0 = .free) (hs : Refines base [] s l) :
    Follows base ((Call.syslogLevelSet env bfLevel).value l) (bfSysSyslogLevelSet env bfLevel)
      s := by
  unfold bfSysSyslogLevelSet
  rw [Call.value, Log.bfSysSyslogLevelSet]
  by_cases hgt : bfLevel > bfLogMax
  · rw [if_pos hgt, if_pos hgt]
    exact Ends.pure ⟨rfl, hs⟩
  rw [if_neg hgt, if_neg hgt]
  cases hidx : index (bfLogMax + 1) bfLevel with
  | error f => exact rfl
  | ok lv =>
      cases hname : l.zlogCurLogFile with
      | none => exact run_readFile_null hs hnull hname
      | some file =>
          have hends : Ends _ (runSyslog env lv) s := ends_runSyslog hs hname
          by_cases hst : (env.system (syslogCmd lv file) env.cfg).1 < 0
          · simpa [Follows, returned, Effect.returns, bind, Except.bind, pure, Except.pure, hst]
              using hends
          · simpa [Follows, returned, Effect.returns, bind, Except.bind, pure, Except.pure, hst]
              using hends

/-- **A call over the heap follows the call over values.** -/
theorem Call.refines (hnull : base 0 = .free) (hs : Refines base [] s l) (c : Call) :
    Follows base (c.value l) c.exec s := by
  cases c with
  | init env arg1 arg2 b => exact ends_logInit env arg1 arg2 b hs
  | close => exact ends_logClose hs
  | levelSet env block module output bfLevel => exact follows_levelSet hnull hs
  | syslogLevelSet env bfLevel => exact follows_syslogLevelSet hnull hs

end Calls

/-! ## Histories -/

/-- The variables before the first call. -/
def zeroed : LogData := ⟨0, fun _ => none, fun _ => 0⟩

section Histories

variable {base : ℕ → Cell} {s : State} {es : List (Call × ℤ)}

/-- Before the first call there is no name, and nothing is taken. -/
theorem refines_zeroed : Refines base [] ⟨zeroed, base⟩ .zeroed where
  cat := rfl
  trace := rfl
  null := ⟨fun _ => rfl, fun _ => rfl⟩
  owns := Owns.nil

/-- The refinement of all histories. -/
theorem refines_run (hnull : base 0 = .free) (h : Run Step ⟨zeroed, base⟩ es s) :
    ∃ l, Run ValueStep .zeroed es l ∧ Refines base [] s l := by
  refine h.simulate ?_ refines_zeroed
  rintro s l ⟨c, ret⟩ s' hs hstep
  have hc := c.refines hnull hs
  cases hv : c.value l with
  | error f =>
      rw [hv] at hc
      cases hc.symm.trans hstep
  | ok r =>
      rw [hv] at hc
      obtain ⟨rfl, hs'⟩ := Ends.of_ok hc hstep
      exact ⟨r.2, hv, hs'⟩

/-- **The file name over its life.** In every history of calls and failures, the calls return what
they return over values, and leave in the heap just the name that is left over values. They fault
where that has no value: `bf_sys_log_level_set` and `bf_sys_syslog_level_set` while there is no name,
and the latter with a negative level. Behind `bf_sys_log_close` the heap is as it was. -/
theorem bfSysLog_lifeCycle (base : ℕ → Cell) (hnull : base 0 = .free) {es : List (Call × ℤ)}
    {s : State} (h : Run Step ⟨zeroed, base⟩ es s) :
    ∃ l, Run ValueStep .zeroed es l ∧ Refines base [] s l ∧
      (∀ c : Call, c.exec.run s = .error .fault ↔ ∃ f, c.value l = .error f) ∧
      ∀ ret s', Step s (.close, ret) s' → s'.heap = base := by
  obtain ⟨l, hrun, hs⟩ := refines_run hnull h
  refine ⟨l, hrun, hs, fun c => ?_, fun ret s' hstep => ?_⟩
  · have hc := c.refines hnull hs
    cases hv : c.value l with
    | error f =>
        rw [hv] at hc
        exact ⟨fun _ => ⟨f, rfl⟩, fun _ => hc⟩
    | ok r =>
        rw [hv] at hc
        refine ⟨fun hfault => absurd hfault (Ends.no_fault hc), ?_⟩
        rintro ⟨f, hf⟩
        cases hf
  · obtain ⟨-, hs'⟩ := (ends_logClose hs).of_ok hstep
    exact hs'.owns.eq_base

/-- A copy that fails, a second initialisation without memory for its command, and the end. -/
theorem bfSysLog_lifeCycle_failures :
    ∃ s, Run Step ⟨zeroed, fun _ => .free⟩
        [(.init (.copying 256) none 0 ⟨8, 16, 24⟩, 0), (.init (.copying 0) none 0 ⟨16, 0, 0⟩, -1)] s ∧
      ∀ ret s', Step s (.close, ret) s' → s'.heap = fun _ => .free := by
  obtain ⟨s, hrun⟩ : ∃ s, Run Step ⟨zeroed, fun _ => .free⟩
      [(.init (.copying 256) none 0 ⟨8, 16, 24⟩, 0), (.init (.copying 0) none 0 ⟨16, 0, 0⟩, -1)] s :=
    ⟨_, .cons rfl (.single rfl)⟩
  obtain ⟨l, -, -, -, hclose⟩ := bfSysLog_lifeCycle _ rfl hrun
  exact ⟨s, hrun, hclose⟩

end Histories

end TargetSys.Log.LifeCycle
