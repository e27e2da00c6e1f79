import Mathlib
import Nod.Lib.Lines
import Nod.Lib.Machine

/-
  The audit log (`audit.rs`): one JSON line an entry, appended to the file at the log's path until
  it would grow over the limit; then that file is renamed to an archive and a new one is opened.
  Memory keeps the open handle and the bytes it has counted; any step on the disk may fail.
  Proved: while every append is ready, reported entries keep a whole line each, in append order
  (`kept_run`); an entry is recorded exactly when its append is ready (`recorded_iff`). An append is
  not ready after a write that stopped inside a line of the open file, and after a rename whose
  reopening failed (`stuck_run`).
-/

namespace Nod.Server.Audit

open Lib

abbrev Bytes := List UInt8

def newline : UInt8 := 10

/-! ## The disk -/

/-- Every file with its content, the one at the log's path, and the archives in rotation order. -/
structure Disk where
  files : List Bytes
  path : Option Nat
  archives : List Nat
  deriving DecidableEq

def Disk.content (disk : Disk) (file : Nat) : Bytes := disk.files.getD file []

/-- What the operating system answers when there is no file to rename. -/
def notFound : String := "No such file or directory (os error 2)"

/-- `rename(path, archive)`; the archive's name has a new UUID, so no file is replaced. -/
def Disk.rename (disk : Disk) : Except String Disk :=
  match disk.path with
  | none => .error notFound
  | some file => .ok { disk with path := none, archives := disk.archives ++ [file] }

/-- `open_private_append`: the file at the path, created if there is none. -/
def Disk.openAppend (disk : Disk) : Nat × Disk :=
  match disk.path with
  | some file => (file, disk)
  | none =>
    (disk.files.length, { disk with files := disk.files ++ [[]], path := some disk.files.length })

def Disk.write (disk : Disk) (file : Nat) (raw : Bytes) : Disk :=
  { disk with files := disk.files.modify file (· ++ raw) }

/-- What goes wrong on the disk during one append: a failed write may have got some bytes out. -/
structure Faults where
  flush : Option String
  rename : Option String
  reopen : Option String
  write : Option (Nat × String)

def Faults.none : Faults := ⟨.none, .none, .none, .none⟩

/-! ## The logger -/

structure AuditFile where
  file : Nat
  bytes : Nat
  rotateAfter : Nat
  lastError : Option String
  deriving DecidableEq

/-- `u64::saturating_add`. -/
def saturatingAdd (a b : Nat) : Nat := min (a + b) (2 ^ 64 - 1)

/-- The logger and the disk it writes to. -/
structure Log where
  logger : AuditFile
  disk : Disk
  deriving DecidableEq

/-- A logger on a data directory that has this log file, or an empty new one. -/
def withRotationLimit (content : Bytes) (rotateAfter : Nat) : Log :=
  { logger := { file := 0, bytes := content.length, rotateAfter, lastError := none }
    disk := { files := [content], path := some 0, archives := [] } }

def AuditFile.rotates (logger : AuditFile) (raw : Bytes) : Prop :=
  0 < logger.bytes ∧ logger.rotateAfter < saturatingAdd logger.bytes raw.length

instance (logger : AuditFile) (raw : Bytes) : Decidable (logger.rotates raw) :=
  inferInstanceAs (Decidable (_ ∧ _))

/-- The rotation at the head of `append`. -/
def rotate (faults : Faults) (log : Log) : Except String Unit × Log :=
  match faults.flush with
  | some error => (.error error, log)
  | none =>
    match faults.rename with
    | some error => (.error error, log)
    | none =>
      match log.disk.rename with
      | .error error => (.error error, log)
      | .ok disk =>
        match faults.reopen with
        | some error => (.error error, { log with disk })
        | none =>
          let (file, disk) := disk.openAppend
          (.ok (), { logger := { log.logger with file, bytes := 0 }, disk })

/-- The write and the flush behind it. -/
def writeAll (raw : Bytes) (faults : Faults) (log : Log) : Except String Unit × Log :=
  match faults.write with
  | some (written, error) =>
    (.error error, { log with disk := log.disk.write log.logger.file (raw.take written) })
  | none =>
    (.ok (), { logger := { log.logger with bytes := saturatingAdd log.logger.bytes raw.length }
               disk := log.disk.write log.logger.file raw })

def append (raw : Bytes) (faults : Faults) (log : Log) : Except String Unit × Log :=
  if log.logger.rotates raw then
    match rotate faults log with
    | (.error error, log) => (.error error, log)
    | (.ok (), log) => writeAll raw faults log
  else writeAll raw faults log

/-- An encoded entry: JSON text has no line break. -/
structure Entry where
  encoded : Bytes
  lineFree : newline ∉ encoded

def Entry.raw (entry : Entry) : Bytes := entry.encoded ++ [newline]

/-- `record`, at the time `now`; what it did not persist shows in the logger's health. -/
def record (now : String) (entry : Entry) (faults : Faults) (log : Log) :
    Except String Unit × Log :=
  match append entry.raw faults log with
  | (.ok (), log) => (.ok (), log)
  | (.error error, log) =>
    (.error error, { log with
      logger := { log.logger with lastError := some (now ++ ": " ++ error) } })

/-! ## Lines -/

/-- The files in the order they were written: archives, then the one at the path. -/
def Disk.order (disk : Disk) : List Nat := disk.archives ++ disk.path.toList

/-- The whole lines of the log. -/
def Disk.lines (disk : Disk) : List Bytes :=
  disk.order.flatMap fun file => Lines.whole newline (disk.content file)

/-! ## What a write adds -/

/-- Files are told apart and exist, and the open one is the last in the order. -/
structure Log.Sound (log : Log) : Prop where
  last : ∃ earlier, log.disk.order = earlier ++ [log.logger.file]
  distinct : log.disk.order.Nodup
  exist : ∀ file ∈ log.disk.order, file < log.disk.files.length

theorem content_write {disk : Disk} {file : Nat} (h : file < disk.files.length) (raw : Bytes)
    (other : Nat) : (disk.write file raw).content other =
      if other = file then disk.content file ++ raw else disk.content other := by
  show (disk.files.modify file (· ++ raw)).getD other [] = _
  rw [List.getD_eq_getElem?_getD]
  by_cases hother : other = file
  · subst hother
    rw [if_pos rfl, List.getElem?_modify_eq, List.getElem?_eq_getElem h]
    show disk.files[other] ++ raw = disk.files.getD other [] ++ raw
    rw [List.getD_eq_getElem?_getD, List.getElem?_eq_getElem h]
    rfl
  · rw [if_neg hother, List.getElem?_modify_ne _ _ (Ne.symm hother)]
    exact (List.getD_eq_getElem?_getD ..).symm

/-- The whole lines of some files. -/
def Disk.linesOf (disk : Disk) (files : List Nat) : List Bytes :=
  files.flatMap fun file => Lines.whole newline (disk.content file)

theorem linesOf_write {disk : Disk} {file : Nat} (h : file < disk.files.length) (raw : Bytes)
    {files : List Nat} (hfile : file ∉ files) :
    (disk.write file raw).linesOf files = disk.linesOf files := by
  refine List.flatMap_congr fun other hother => ?_
  have hne : other ≠ file := fun heq => hfile (heq ▸ hother)
  rw [content_write h, if_neg hne]

theorem Log.Sound.open_lt {log : Log} (h : log.Sound) :
    log.logger.file < log.disk.files.length := by
  obtain ⟨earlier, horder⟩ := h.last
  refine h.exist _ ?_
  rw [horder]
  exact List.mem_append_right _ (List.mem_singleton_self _)

/-- A write to the open file adds behind every line there is. -/
theorem Log.Sound.lines_write {log : Log} (h : log.Sound) (raw : Bytes) : ∃ before,
    log.disk.lines = before ++ Lines.whole newline (log.disk.content log.logger.file) ∧
      (log.disk.write log.logger.file raw).lines =
        before ++ Lines.whole newline (log.disk.content log.logger.file ++ raw) := by
  obtain ⟨earlier, horder⟩ := h.last
  have hlt := h.open_lt
  have hfresh : log.logger.file ∉ earlier := by
    have hdistinct := h.distinct
    rw [horder] at hdistinct
    exact fun hmem => (List.nodup_append.mp hdistinct).2.2 _ hmem _ (List.mem_singleton_self _) rfl
  refine ⟨log.disk.linesOf earlier, ?_, ?_⟩
  · show log.disk.linesOf log.disk.order = _
    rw [horder]
    show log.disk.linesOf (earlier ++ [log.logger.file]) = _
    unfold Disk.linesOf
    rw [List.flatMap_append, List.flatMap_singleton]
  · show (log.disk.write log.logger.file raw).linesOf log.disk.order = _
    rw [horder]
    have hearlier := linesOf_write hlt raw hfresh
    unfold Disk.linesOf at hearlier ⊢
    rw [List.flatMap_append, hearlier, List.flatMap_singleton, content_write hlt, if_pos rfl]

theorem Log.Sound.write {log : Log} (h : log.Sound) (raw : Bytes) (logger : AuditFile)
    (hfile : logger.file = log.logger.file) :
    Log.Sound { logger, disk := log.disk.write log.logger.file raw } := by
  refine ⟨?_, h.distinct, fun file hmem => ?_⟩
  · rw [hfile]
    exact h.last
  · show file < (log.disk.files.modify _ _).length
    rw [List.length_modify]
    exact h.exist file hmem

/-! ## What a rotation does -/

/-- After a rotation the open file is a new empty one behind the same lines. -/
structure Rotated (log log' : Log) : Prop where
  sound : log'.Sound
  lines : log'.disk.lines = log.disk.lines
  empty : log'.disk.content log'.logger.file = []
  path : log'.disk.path = some log'.logger.file

theorem content_of_lt {disk : Disk} {file : Nat} (h : file < disk.files.length) (path : Option Nat)
    (archives : List Nat) (new : Bytes) :
    Disk.content ⟨disk.files ++ [new], path, archives⟩ file = disk.content file := by
  show (disk.files ++ [new]).getD file [] = disk.files.getD file []
  rw [List.getD_eq_getElem?_getD, List.getElem?_append_left h, List.getD_eq_getElem?_getD]

/-- The log after the rename, and after the new file has been opened. -/
def renamed (log : Log) (file : Nat) : Log :=
  { log with disk := { log.disk with path := none, archives := log.disk.archives ++ [file] } }

def reopened (log : Log) (file : Nat) : Log :=
  { logger := { log.logger with file := log.disk.files.length, bytes := 0 }
    disk :=
      { files := log.disk.files ++ [[]], path := some log.disk.files.length
        archives := log.disk.archives ++ [file] } }

theorem order_renamed {log : Log} {file : Nat} (hpath : log.disk.path = some file) :
    (renamed log file).disk.order = log.disk.order := by
  unfold Disk.order renamed
  rw [hpath]
  exact List.append_nil _

theorem sound_renamed {log : Log} (h : log.Sound) {file : Nat}
    (hpath : log.disk.path = some file) : (renamed log file).Sound := by
  have horder := order_renamed hpath
  refine ⟨?_, ?_, ?_⟩
  · rw [horder]
    exact h.last
  · rw [horder]
    exact h.distinct
  · rw [horder]
    exact h.exist

theorem lines_renamed {log : Log} {file : Nat} (hpath : log.disk.path = some file) :
    (renamed log file).disk.lines = log.disk.lines := by
  show (renamed log file).disk.order.flatMap _ = _
  rw [order_renamed hpath]
  rfl

theorem rotated_reopened {log : Log} (h : log.Sound) {file : Nat}
    (hpath : log.disk.path = some file) : Rotated log (reopened log file) := by
  have horder : log.disk.order = log.disk.archives ++ [file] := by
    unfold Disk.order
    rw [hpath]
    rfl
  have horder' : (reopened log file).disk.order = log.disk.order ++ [log.disk.files.length] := by
    rw [horder]
    rfl
  have hfresh : log.disk.files.length ∉ log.disk.order :=
    fun hmem => Nat.lt_irrefl _ (h.exist _ hmem)
  have hlength : (reopened log file).disk.files.length = log.disk.files.length + 1 :=
    List.length_append
  have hempty : (reopened log file).disk.content log.disk.files.length = [] := by
    show (log.disk.files ++ [[]]).getD log.disk.files.length [] = []
    rw [List.getD_eq_getElem?_getD, List.getElem?_concat_length]
    rfl
  refine ⟨⟨⟨_, horder'⟩, ?_, fun other hmem => ?_⟩, ?_, hempty, rfl⟩
  · rw [horder']
    refine List.nodup_append.mpr ⟨h.distinct, List.nodup_singleton _, ?_⟩
    intro other hother last hlast heq
    rw [heq, List.mem_singleton.mp hlast] at hother
    exact hfresh hother
  · rw [horder'] at hmem
    rw [hlength]
    rcases List.mem_append.mp hmem with hold | hnew
    · have hlt := h.exist other hold
      omega
    · rw [List.mem_singleton.mp hnew]
      omega
  · show (reopened log file).disk.order.flatMap _ = log.disk.order.flatMap _
    rw [horder', List.flatMap_append, List.flatMap_singleton, hempty]
    show _ ++ [] = _
    rw [List.append_nil]
    refine List.flatMap_congr fun other hother => ?_
    show Lines.whole newline ((reopened log file).disk.content other) = _
    have hsame : (reopened log file).disk.content other = log.disk.content other :=
      content_of_lt (h.exist other hother) _ _ _
    rw [hsame]

/-- A rotation stops before the rename, between rename and reopening, or is done. -/
theorem rotate_cases (faults : Faults) (log : Log) :
    (∃ error, rotate faults log = (.error error, log)) ∨
    (∃ error file, log.disk.path = some file ∧ faults.reopen = some error ∧
      rotate faults log = (.error error, renamed log file)) ∨
    ∃ file, log.disk.path = some file ∧ rotate faults log = (.ok (), reopened log file) := by
  unfold rotate
  cases faults.flush with
  | some error => exact Or.inl ⟨error, rfl⟩
  | none =>
    cases faults.rename with
    | some error => exact Or.inl ⟨error, rfl⟩
    | none =>
      unfold Disk.rename
      cases hpath : log.disk.path with
      | none => exact Or.inl ⟨notFound, rfl⟩
      | some file =>
        cases hreopen : faults.reopen with
        | some error => exact Or.inr (Or.inl ⟨error, file, rfl, rfl, rfl⟩)
        | none => exact Or.inr (Or.inr ⟨file, rfl, rfl⟩)

/-! ## What an append does -/

/-- The unfinished line at the end of the open file. -/
def Log.torn (log : Log) : Bytes := Lines.rest newline (log.disk.content log.logger.file)

/-- The append will write behind a whole line, or rotate a file that is there. -/
def Log.Ready (log : Log) (entry : Entry) : Prop :=
  if log.logger.rotates entry.raw then log.disk.path ≠ none else log.torn = []

/-- The entry is one more line of the log, the last one. -/
structure Recorded (entry : Entry) (log log' : Log) : Prop where
  lines : log'.disk.lines = log.disk.lines ++ [entry.encoded]
  whole : log'.torn = []

/-- What an append leaves: the entry recorded if it says so, and otherwise at most that. -/
structure Appended (entry : Entry) (log : Log) (result : Except String Unit) (log' : Log) :
    Prop where
  sound : log'.Sound
  recorded : result = .ok () → Recorded entry log log'
  refused : result ≠ .ok () → log'.disk.lines = log.disk.lines ∨
    log'.disk.lines = log.disk.lines ++ [entry.encoded]

theorem lines_writeAll {log : Log} (h : log.Sound) {line : Bytes} (hfree : newline ∉ line) :
    (log.disk.write log.logger.file (line ++ [newline])).lines =
        log.disk.lines ++ [log.torn ++ line] ∧
      Lines.rest newline ((log.disk.write log.logger.file (line ++ [newline])).content
        log.logger.file) = [] := by
  obtain ⟨before, hlines, hlines'⟩ := h.lines_write (line ++ [newline])
  obtain ⟨hwhole, hrest⟩ := Lines.whole_append_line (log.disk.content log.logger.file) hfree
  refine ⟨?_, ?_⟩
  · rw [hlines', hlines, hwhole, List.append_assoc]
    rfl
  · rw [content_write h.open_lt, if_pos rfl]
    exact hrest

/-- The write of an entry behind a whole line. -/
theorem appended_writeAll {log : Log} (h : log.Sound) (htorn : log.torn = []) (entry : Entry)
    (faults : Faults) : Appended entry log (writeAll entry.raw faults log).1
      (writeAll entry.raw faults log).2 := by
  obtain ⟨hline, hrest⟩ := lines_writeAll h entry.lineFree
  rw [htorn, List.nil_append] at hline
  unfold writeAll
  cases faults.write with
  | none => exact ⟨h.write _ _ rfl, fun _ => ⟨hline, hrest⟩, fun hne => absurd rfl hne⟩
  | some fault =>
    obtain ⟨written, error⟩ := fault
    refine ⟨h.write _ _ rfl, fun heq => (nomatch heq), fun _ => ?_⟩
    by_cases hless : written < entry.raw.length
    · -- less than the line has no line break, so it is no line yet
      refine Or.inl ?_
      obtain ⟨before, hlines, hlines'⟩ := h.lines_write (entry.raw.take written)
      have hfree : newline ∉ entry.raw.take written := Lines.free_take entry.lineFree hless
      show (log.disk.write log.logger.file (entry.raw.take written)).lines = _
      rw [hlines', hlines, (Lines.whole_append_free _ hfree).1]
    · refine Or.inr ?_
      show (log.disk.write log.logger.file (entry.raw.take written)).lines = _
      rw [List.take_of_length_le (Nat.le_of_not_lt hless)]
      exact hline

theorem Appended.after {entry : Entry} {log log₁ log' : Log} {result : Except String Unit}
    (hlines : log₁.disk.lines = log.disk.lines) (h : Appended entry log₁ result log') :
    Appended entry log result log' where
  sound := h.sound
  recorded hok := ⟨hlines ▸ (h.recorded hok).lines, (h.recorded hok).whole⟩
  refused hne := hlines ▸ h.refused hne

theorem torn_of_empty {log : Log} (h : log.disk.content log.logger.file = []) : log.torn = [] := by
  unfold Log.torn
  rw [h]
  exact (Lines.of_free List.not_mem_nil).2

theorem appended_append {log : Log} (h : log.Sound) {entry : Entry} (hready : log.Ready entry)
    (faults : Faults) : Appended entry log (append entry.raw faults log).1
      (append entry.raw faults log).2 := by
  unfold append
  unfold Log.Ready at hready
  split
  · rcases rotate_cases faults log with
      ⟨error, he⟩ | ⟨error, file, hpath, -, he⟩ | ⟨file, hpath, he⟩
    · rw [he]
      exact ⟨h, fun heq => (nomatch heq), fun _ => Or.inl rfl⟩
    · rw [he]
      exact ⟨sound_renamed h hpath, fun heq => (nomatch heq), fun _ => Or.inl (lines_renamed hpath)⟩
    · rw [he]
      have hrotated := rotated_reopened h hpath
      exact (appended_writeAll hrotated.sound (torn_of_empty hrotated.empty) entry faults).after
        hrotated.lines
  · rename_i hsmall
    rw [if_neg hsmall] at hready
    exact appended_writeAll h hready entry faults

/-- Whatever fails, the files stay told apart and the open one stays the last. -/
theorem sound_writeAll {log : Log} (h : log.Sound) (raw : Bytes) (faults : Faults) :
    (writeAll raw faults log).2.Sound := by
  unfold writeAll
  cases faults.write with
  | none => exact h.write raw _ rfl
  | some fault => exact h.write _ _ rfl

theorem sound_append {log : Log} (h : log.Sound) (raw : Bytes) (faults : Faults) :
    (append raw faults log).2.Sound := by
  unfold append
  split
  · rcases rotate_cases faults log with
      ⟨error, he⟩ | ⟨error, file, hpath, -, he⟩ | ⟨file, hpath, he⟩
    · rw [he]
      exact h
    · rw [he]
      exact sound_renamed h hpath
    · rw [he]
      exact sound_writeAll (rotated_reopened h hpath).sound raw faults
  · exact sound_writeAll h raw faults

/-- The health is written beside the files. -/
theorem record_eq (now : String) (entry : Entry) (faults : Faults) (log : Log) :
    (record now entry faults log).1 = (append entry.raw faults log).1 ∧
      ∃ lastError, (record now entry faults log).2 =
        { (append entry.raw faults log).2 with
          logger := { (append entry.raw faults log).2.logger with lastError } } := by
  unfold record
  split
  next h =>
    rw [h]
    exact ⟨rfl, _, rfl⟩
  next error h =>
    rw [h]
    exact ⟨rfl, _, rfl⟩

theorem sound_record {log : Log} (h : log.Sound) (now : String) (entry : Entry) (faults : Faults) :
    (record now entry faults log).2.Sound := by
  obtain ⟨-, lastError, he⟩ := record_eq now entry faults log
  have hsound := sound_append h entry.raw faults
  rw [he]
  exact ⟨hsound.last, hsound.distinct, hsound.exist⟩

theorem appended_record {log : Log} (h : log.Sound) {entry : Entry} (hready : log.Ready entry)
    (now : String) (faults : Faults) : Appended entry log (record now entry faults log).1
      (record now entry faults log).2 := by
  obtain ⟨hresult, lastError, he⟩ := record_eq now entry faults log
  have happended := appended_append h hready faults
  rw [hresult, he]
  refine ⟨⟨happended.sound.last, happended.sound.distinct, happended.sound.exist⟩, fun hok => ?_,
    happended.refused⟩
  exact ⟨(happended.recorded hok).lines, (happended.recorded hok).whole⟩

/-! ## When an entry is recorded -/

/-- With nothing going wrong, a ready append succeeds. -/
theorem append_ok {log : Log} {entry : Entry} (hready : log.Ready entry) :
    (append entry.raw .none log).1 = .ok () := by
  unfold append
  unfold Log.Ready at hready
  split
  next hrotates =>
    rw [if_pos hrotates] at hready
    cases hpath : log.disk.path with
    | none => exact absurd hpath hready
    | some file =>
      have he : rotate .none log = (.ok (), reopened log file) := by
        unfold rotate Disk.rename
        rw [hpath]
        rfl
      rw [he]
      rfl
  next => rfl

/-- With nothing going wrong, an entry is recorded exactly when the append was ready for it. -/
theorem recorded_iff {log : Log} (h : log.Sound) (now : String) (entry : Entry) :
    ((record now entry .none log).1 = .ok () ∧
      (record now entry .none log).2.disk.lines = log.disk.lines ++ [entry.encoded]) ↔
        log.Ready entry := by
  obtain ⟨hresult, lastError, he⟩ := record_eq now entry .none log
  constructor
  · rintro ⟨hok, hlines⟩
    rw [hresult] at hok
    rw [he] at hlines
    unfold append at hok hlines
    unfold Log.Ready
    by_cases hrotates : log.logger.rotates entry.raw
    · rw [if_pos hrotates]
      intro hpath
      rw [if_pos hrotates] at hok
      have hnone : rotate .none log = (.error notFound, log) := by
        unfold rotate Disk.rename
        rw [hpath]
        rfl
      rw [hnone] at hok
      exact nomatch hok
    · rw [if_neg hrotates]
      rw [if_neg hrotates] at hlines
      have hline := (lines_writeAll h entry.lineFree).1
      have hsame := List.append_cancel_left (hline.symm.trans hlines)
      have hlength := congrArg List.length (List.cons.inj hsame).1
      rw [List.length_append] at hlength
      exact List.eq_nil_of_length_eq_zero (by omega)
  · intro hready
    rw [hresult]
    have hok := append_ok hready
    have hrecorded := (appended_record h hready now .none).recorded (hresult.trans hok)
    exact ⟨hok, hrecorded.lines⟩

/-! ## Runs -/

/-- One entry to record, and what goes wrong on the disk meanwhile. -/
structure Job where
  now : String
  entry : Entry
  faults : Faults

/-- The log with the lines that were asked for and those that were reported persisted. -/
structure AuditRun where
  log : Log
  asked : List Bytes
  reported : List Bytes

def AuditRun.step (job : Job) (run : AuditRun) : AuditRun :=
  let (result, log) := record job.now job.entry job.faults run.log
  { log
    asked := run.asked ++ [job.entry.encoded]
    reported := match result with
      | .ok () => run.reported ++ [job.entry.encoded]
      | .error _ => run.reported }

/-- Runs of the log whose appends are all ready. -/
def audits : Machine AuditRun Job := ⟨AuditRun.step, fun job run => run.log.Ready job.entry⟩

def opened (content : Bytes) (rotateAfter : Nat) : AuditRun :=
  ⟨withRotationLimit content rotateAfter, [], []⟩

theorem sound_opened (content : Bytes) (rotateAfter : Nat) :
    (opened content rotateAfter).log.Sound := by
  refine ⟨⟨[], rfl⟩, List.nodup_singleton 0, fun file hmem => ?_⟩
  have hfile : file = 0 := List.mem_singleton.mp hmem
  show file < 1
  omega

theorem sound_step (job : Job) {run : AuditRun} (h : run.log.Sound) :
    (run.step job).log.Sound :=
  sound_record h job.now job.entry job.faults

/-- Every reported entry has a line of its own, in append order, and every new line is an entry. -/
structure Kept (content : Bytes) (run : AuditRun) : Prop where
  sound : run.log.Sound
  lines : ∃ kept, run.log.disk.lines = Lines.whole newline content ++ kept ∧
    run.reported.Sublist kept ∧ kept.Sublist run.asked

theorem kept_opened (content : Bytes) (rotateAfter : Nat) :
    Kept content (opened content rotateAfter) := by
  refine ⟨sound_opened content rotateAfter, [], ?_, List.Sublist.refl _, List.Sublist.refl _⟩
  show [0].flatMap (fun file => Lines.whole newline ([content].getD file [])) = _
  rw [List.flatMap_singleton, List.append_nil]
  rfl

theorem Kept.step {content : Bytes} {run : AuditRun} (h : Kept content run) {job : Job}
    (hready : run.log.Ready job.entry) : Kept content (run.step job) := by
  obtain ⟨kept, hlines, hreported, hasked⟩ := h.lines
  have happended := appended_record h.sound hready job.now job.faults
  refine ⟨sound_step job h.sound, ?_⟩
  have hkeep : kept.Sublist (run.asked ++ [job.entry.encoded]) :=
    hasked.trans (List.sublist_append_left _ _)
  unfold AuditRun.step
  cases hresult : (record job.now job.entry job.faults run.log).1 with
  | ok u =>
    refine ⟨kept ++ [job.entry.encoded], ?_, ?_, hasked.append (List.Sublist.refl _)⟩
    · show (record job.now job.entry job.faults run.log).2.disk.lines = _
      rw [(happended.recorded hresult).lines, hlines, List.append_assoc]
    · dsimp only
      rw [hresult]
      exact hreported.append (List.Sublist.refl _)
  | error error =>
    have hsame : (match (record job.now job.entry job.faults run.log).1 with
        | .ok () => run.reported ++ [job.entry.encoded]
        | .error _ => run.reported) = run.reported := by
      rw [hresult]
    rcases happended.refused (hresult ▸ fun heq => (nomatch heq)) with hnone | hone
    · refine ⟨kept, hnone.trans hlines, ?_, hkeep⟩
      dsimp only
      rw [hsame]
      exact hreported
    · refine ⟨kept ++ [job.entry.encoded], ?_, ?_, hasked.append (List.Sublist.refl _)⟩
      · show (record job.now job.entry job.faults run.log).2.disk.lines = _
        rw [hone, hlines, List.append_assoc]
      · dsimp only
        rw [hsame]
        exact hreported.trans (List.sublist_append_left _ _)

theorem kept_run {content : Bytes} {rotateAfter : Nat} {jobs : List Job}
    (hlegal : audits.Legal jobs (opened content rotateAfter)) :
    Kept content (audits.run jobs (opened content rotateAfter)) :=
  Machine.invariant (M := audits) (I := Kept content) (fun _ _ h hready => h.step hready)
    (kept_opened content rotateAfter) hlegal

theorem sound_run (jobs : List Job) {run : AuditRun} (h : run.log.Sound) :
    (audits.run jobs run).log.Sound := by
  induction jobs generalizing run with
  | nil => exact h
  | cons job jobs ih => exact ih (sound_step job h)

/-! ## Failures that do no harm -/

/-- A file is at the path, the open one, and it ends in a whole line. -/
structure Tidy (log : Log) : Prop where
  path : log.disk.path = some log.logger.file
  whole : log.torn = []

theorem Tidy.ready {log : Log} (h : Tidy log) (entry : Entry) : log.Ready entry := by
  unfold Log.Ready
  split
  · rw [h.path]
    exact fun hnone => (nomatch hnone)
  · exact h.whole

/-- A new file can be opened after a rename, and a write gets out all of its line or nothing. -/
structure Harmless (job : Job) : Prop where
  reopen : job.faults.reopen = none
  write : ∀ written error, job.faults.write = some (written, error) →
    written = 0 ∨ job.entry.raw.length ≤ written

theorem tidy_writeAll {log : Log} (hsound : log.Sound) (h : Tidy log) {job : Job}
    (hjob : Harmless job) : Tidy (writeAll job.entry.raw job.faults log).2 := by
  have hline := (lines_writeAll hsound job.entry.lineFree).2
  unfold writeAll
  cases hwrite : job.faults.write with
  | none => exact ⟨h.path, hline⟩
  | some fault =>
    obtain ⟨written, error⟩ := fault
    refine ⟨h.path, ?_⟩
    rcases hjob.write written error hwrite with hzero | hall
    · show Lines.rest newline ((log.disk.write log.logger.file
        (job.entry.raw.take written)).content log.logger.file) = []
      rw [hzero, content_write hsound.open_lt, if_pos rfl, List.take_zero, List.append_nil]
      exact h.whole
    · show Lines.rest newline ((log.disk.write log.logger.file
        (job.entry.raw.take written)).content log.logger.file) = []
      rw [List.take_of_length_le hall]
      exact hline

theorem tidy_append {log : Log} (hsound : log.Sound) (h : Tidy log) {job : Job}
    (hjob : Harmless job) : Tidy (append job.entry.raw job.faults log).2 := by
  unfold append
  split
  · rcases rotate_cases job.faults log with
      ⟨error, he⟩ | ⟨error, file, hpath, hreopen, he⟩ | ⟨file, hpath, he⟩
    · rw [he]
      exact h
    · exact nomatch hreopen.symm.trans hjob.reopen
    · rw [he]
      have hrotated := rotated_reopened hsound hpath
      exact tidy_writeAll hrotated.sound ⟨hrotated.path, torn_of_empty hrotated.empty⟩ hjob
  · exact tidy_writeAll hsound h hjob

theorem tidy_step {run : AuditRun} (hsound : run.log.Sound) (h : Tidy run.log) {job : Job}
    (hjob : Harmless job) : Tidy (run.step job).log := by
  obtain ⟨-, lastError, he⟩ := record_eq job.now job.entry job.faults run.log
  have htidy := tidy_append hsound h hjob
  show Tidy (record job.now job.entry job.faults run.log).2
  rw [he]
  exact ⟨htidy.path, htidy.whole⟩

theorem legal_of_harmless {jobs : List Job} {run : AuditRun} (hsound : run.log.Sound)
    (h : Tidy run.log) (hjobs : ∀ job ∈ jobs, Harmless job) : audits.Legal jobs run := by
  induction jobs generalizing run with
  | nil => exact trivial
  | cons job jobs ih =>
    have hjob := hjobs job List.mem_cons_self
    exact ⟨h.ready job.entry, ih (sound_step job hsound) (tidy_step hsound h hjob)
      fun other hother => hjobs other (List.mem_cons_of_mem job hother)⟩

/-! ## Failures that do harm -/

/-- With no file at the path, an entry that is due for rotation is refused and changes no file. -/
theorem record_stuck {log : Log} (hpath : log.disk.path = none) {entry : Entry}
    (hrotates : log.logger.rotates entry.raw) (now : String) (faults : Faults) :
    (record now entry faults log).1 ≠ .ok () ∧ (record now entry faults log).2.disk = log.disk ∧
      (record now entry faults log).2.logger.bytes = log.logger.bytes ∧
      (record now entry faults log).2.logger.rotateAfter = log.logger.rotateAfter := by
  have happend : ∃ error, append entry.raw faults log = (.error error, log) := by
    unfold append
    rw [if_pos hrotates]
    rcases rotate_cases faults log with
      ⟨error, he⟩ | ⟨error, file, hfile, -, -⟩ | ⟨file, hfile, -⟩
    · rw [he]
      exact ⟨error, rfl⟩
    · exact nomatch hfile.symm.trans hpath
    · exact nomatch hfile.symm.trans hpath
  obtain ⟨error, he⟩ := happend
  unfold record
  rw [he]
  exact ⟨fun heq => (nomatch heq), rfl, rfl, rfl⟩

/-- And so for every later entry that is due, whether or not the disk works again. -/
theorem stuck_run {jobs : List Job} {run : AuditRun} (hpath : run.log.disk.path = none)
    (hjobs : ∀ job ∈ jobs, run.log.logger.rotates job.entry.raw) :
    (audits.run jobs run).reported = run.reported ∧
      (audits.run jobs run).log.disk = run.log.disk := by
  induction jobs generalizing run with
  | nil => exact ⟨rfl, rfl⟩
  | cons job jobs ih =>
    obtain ⟨hrefused, hdisk, hbytes, hlimit⟩ :=
      record_stuck hpath (hjobs job List.mem_cons_self) job.now job.faults
    have hreported : (run.step job).reported = run.reported := by
      unfold AuditRun.step
      dsimp only
      split
      next hok => exact absurd hok hrefused
      next => rfl
    have hrest := @ih (run.step job) ((congrArg Disk.path hdisk).trans hpath)
      fun other hother => by
        have hdue := hjobs other (List.mem_cons_of_mem job hother)
        unfold AuditFile.rotates at hdue ⊢
        show 0 < (record job.now job.entry job.faults run.log).2.logger.bytes ∧ _ <
          saturatingAdd (record job.now job.entry job.faults run.log).2.logger.bytes _
        rw [hbytes]
        show _ ∧ (record job.now job.entry job.faults run.log).2.logger.rotateAfter < _
        rw [hlimit]
        exact hdue
    exact ⟨hrest.1.trans hreported, hrest.2.trans hdisk⟩

def entryAb : Entry := ⟨[97, 98], by decide⟩

def entryCd : Entry := ⟨[99, 100], by decide⟩

def tornJob : Job := ⟨"now", entryAb, { Faults.none with write := some (1, "no space left") }⟩

def unopenedJob : Job := ⟨"now", entryCd, { Faults.none with reopen := some "too many open files" }⟩

def plainJob : Job := ⟨"now", entryCd, .none⟩

/-- An entry reported behind a torn one has no line of its own; and after a rotation that could not
    open its new file, no entry of the same size ever gets in again. -/
theorem audit_entries_lost :
    ((audits.run [tornJob, plainJob] (opened [] 100)).reported = [[99, 100]] ∧
      (audits.run [tornJob, plainJob] (opened [] 100)).log.disk.lines = [[97, 99, 100]]) ∧
    ∀ n, (audits.run (unopenedJob :: List.replicate n plainJob) (opened [97, 98, 10] 4)).reported =
      [] := by
  refine ⟨⟨by decide, by decide⟩, fun n => ?_⟩
  have hstuck := @stuck_run (List.replicate n plainJob)
    ((opened [97, 98, 10] 4).step unopenedJob) (by decide) fun job hjob => by
      rw [List.eq_of_mem_replicate hjob]
      decide
  exact hstuck.1

/-! ## What the log keeps -/

/-- What a run on a log of some content leaves, and what a further append on a working disk does. -/
structure AuditLog (content : List UInt8) (rotateAfter : ℕ) (jobs : List Job) : Prop where
  runs : audits.Legal jobs (opened content rotateAfter) →
    (audits.run jobs (opened content rotateAfter)).log.disk.order.Nodup ∧
      ∃ kept, (audits.run jobs (opened content rotateAfter)).log.disk.lines =
          Lines.whole newline content ++ kept ∧
        (audits.run jobs (opened content rotateAfter)).reported.Sublist kept ∧
        kept.Sublist (audits.run jobs (opened content rotateAfter)).asked
  recorded : ∀ now entry,
    let log := (audits.run jobs (opened content rotateAfter)).log
    ((record now entry .none log).1 = .ok () ∧
      (record now entry .none log).2.disk.lines = log.disk.lines ++ [entry.encoded]) ↔
        log.Ready entry
  harmless : Lines.rest newline content = [] → (∀ job ∈ jobs, Harmless job) →
    audits.Legal jobs (opened content rotateAfter)

theorem audit_log (content : List UInt8) (rotateAfter : ℕ) (jobs : List Job) :
    AuditLog content rotateAfter jobs where
  runs hlegal := by
    have hkept := kept_run hlegal
    exact ⟨hkept.sound.distinct, hkept.lines⟩
  recorded now entry := recorded_iff (sound_run jobs (sound_opened content rotateAfter)) now entry
  harmless hcontent hjobs := legal_of_harmless (sound_opened content rotateAfter) ⟨rfl, hcontent⟩ hjobs

end Nod.Server.Audit
