import Mathlib.Data.List.TakeDrop
import Nod.Lib.OrdMap

/-
  Replacing a file through a temporary one: the new contents are written beside the file, the old
  ones copied to a backup where asked for, and the temporary file is renamed over the file. A fault
  stops the work between two operations or in the middle of one, where a write and a copy leave any
  part of what they were to write.
  Proved: whatever the fault, the file holds its old or the whole new contents (`file_replace`), and
  the backup is touched only where a copy was asked for (`backup_replace`).
-/

namespace Lib.Replace

open Std

inductive File
  | missing
  /-- A file that is there and that no read gets the contents of. -/
  | unreadable
  | bytes (raw : List UInt8)

structure Directory where
  file : File
  backup : File
  temporaries : ExtTreeMap String (List UInt8)

inductive Op
  | create (name : String)
  /-- Writes the whole contents and makes them durable. -/
  | write (name : String) (raw : List UInt8)
  | copyBackup
  | restrict
  | rename (name : String)
  | syncDirectory

/-- A copy of the file to the backup that gets so far. -/
def copyTo (kept : List UInt8 → List UInt8) (d : Directory) : Directory :=
  match d.file with
  | .bytes raw => { d with backup := .bytes (kept raw) }
  | _ => d

def renameOver (name : String) (d : Directory) : Directory :=
  match d.temporaries[name]? with
  | some raw => { d with file := .bytes raw, temporaries := d.temporaries.erase name }
  | none => d

@[simp] theorem file_copyTo (kept : List UInt8 → List UInt8) (d : Directory) :
    (copyTo kept d).file = d.file := by
  unfold copyTo
  split <;> rfl

@[simp] theorem temporaries_copyTo (kept : List UInt8 → List UInt8) (d : Directory) :
    (copyTo kept d).temporaries = d.temporaries := by
  unfold copyTo
  split <;> rfl

@[simp] theorem backup_renameOver (name : String) (d : Directory) :
    (renameOver name d).backup = d.backup := by
  unfold renameOver
  split <;> rfl

theorem file_renameOver {name : String} {raw : List UInt8} {d : Directory}
    (h : d.temporaries[name]? = some raw) : (renameOver name d).file = .bytes raw := by
  unfold renameOver
  rw [h]

namespace Op

def apply : Op → Directory → Directory
  | .create name, d => { d with temporaries := d.temporaries.insert name [] }
  | .write name raw, d => { d with temporaries := d.temporaries.insert name raw }
  | .copyBackup, d => copyTo id d
  | .restrict, d => d
  | .rename name, d => renameOver name d
  | .syncDirectory, d => d

/-- What an operation leaves that is interrupted after so many bytes; a rename is all or nothing. -/
def torn (kept : Nat) : Op → Directory → Directory
  | .write name raw, d => { d with temporaries := d.temporaries.insert name (raw.take kept) }
  | .copyBackup, d => copyTo (List.take kept) d
  | _, d => d

def Renames : Op → Prop
  | .rename _ => True
  | _ => False

def Copies : Op → Prop
  | .copyBackup => True
  | _ => False

theorem file_apply {op : Op} (h : ¬ op.Renames) (d : Directory) : (op.apply d).file = d.file := by
  cases op with
  | rename name => exact absurd trivial h
  | copyBackup => exact file_copyTo id d
  | create | write | restrict | syncDirectory => rfl

theorem file_torn (kept : Nat) (op : Op) (d : Directory) : (op.torn kept d).file = d.file := by
  cases op with
  | copyBackup => exact file_copyTo _ d
  | create | write | restrict | rename | syncDirectory => rfl

theorem backup_apply {op : Op} (h : ¬ op.Copies) (d : Directory) :
    (op.apply d).backup = d.backup := by
  cases op with
  | copyBackup => exact absurd trivial h
  | rename name => exact backup_renameOver name d
  | create | write | restrict | syncDirectory => rfl

theorem backup_torn {op : Op} (h : ¬ op.Copies) (kept : Nat) (d : Directory) :
    (op.torn kept d).backup = d.backup := by
  cases op with
  | copyBackup => exact absurd trivial h
  | create | write | restrict | rename | syncDirectory => rfl

end Op

/-! ## Operations up to a fault -/

/-- Where the work stops: after so many operations, within the next one where bytes of it are kept,
    and whether the process lives on and removes its temporary file. -/
structure Fault where
  completed : Nat
  kept : Option Nat
  cleans : Bool

def applyAll (ops : List Op) (d : Directory) : Directory := ops.foldl (fun d op => op.apply d) d

def interrupt (next : Option Op) (kept : Option Nat) (d : Directory) : Directory :=
  match next, kept with
  | some op, some kept => op.torn kept d
  | _, _ => d

def clean (name : String) (cleans : Bool) (d : Directory) : Directory :=
  if cleans then { d with temporaries := d.temporaries.erase name } else d

def attempt (ops : List Op) (name : String) (fault : Option Fault) (d : Directory) : Directory :=
  match fault with
  | none => applyAll ops d
  | some f => clean name f.cleans
      (interrupt ops[f.completed]? f.kept (applyAll (ops.take f.completed) d))

theorem applyAll_append (front back : List Op) (d : Directory) :
    applyAll (front ++ back) d = applyAll back (applyAll front d) := List.foldl_append

theorem file_applyAll {ops : List Op} (h : ∀ op ∈ ops, ¬ op.Renames) (d : Directory) :
    (applyAll ops d).file = d.file := by
  induction ops generalizing d with
  | nil => rfl
  | cons op ops ih =>
    exact (ih (fun o ho => h o (List.mem_cons_of_mem _ ho)) _).trans
      (Op.file_apply (h op List.mem_cons_self) d)

theorem backup_applyAll {ops : List Op} (h : ∀ op ∈ ops, ¬ op.Copies) (d : Directory) :
    (applyAll ops d).backup = d.backup := by
  induction ops generalizing d with
  | nil => rfl
  | cons op ops ih =>
    exact (ih (fun o ho => h o (List.mem_cons_of_mem _ ho)) _).trans
      (Op.backup_apply (h op List.mem_cons_self) d)

theorem file_interrupt (next : Option Op) (kept : Option Nat) (d : Directory) :
    (interrupt next kept d).file = d.file := by
  unfold interrupt
  split
  · exact Op.file_torn _ _ d
  · rfl

theorem file_clean (name : String) (cleans : Bool) (d : Directory) :
    (clean name cleans d).file = d.file := by
  unfold clean
  split <;> rfl

theorem backup_clean (name : String) (cleans : Bool) (d : Directory) :
    (clean name cleans d).backup = d.backup := by
  unfold clean
  split <;> rfl

theorem backup_attempt {ops : List Op} (h : ∀ op ∈ ops, ¬ op.Copies) (name : String)
    (fault : Option Fault) (d : Directory) : (attempt ops name fault d).backup = d.backup := by
  cases fault with
  | none => exact backup_applyAll h d
  | some f =>
    have htake : (applyAll (ops.take f.completed) d).backup = d.backup :=
      backup_applyAll (fun op hop => h op (List.mem_of_mem_take hop)) d
    refine (backup_clean _ _ _).trans (Eq.trans ?_ htake)
    unfold interrupt
    split
    · next hnext _ => exact Op.backup_torn (h _ (List.mem_of_getElem? hnext)) _ _
    · rfl

/-! ## The replacement -/

/-- Everything before the rename. -/
def prepareOps (name : String) (raw : List UInt8) (copies : Bool) : List Op :=
  [.create name, .write name raw] ++ if copies then [.copyBackup, .restrict] else []

def replaceOps (name : String) (raw : List UInt8) (copies : Bool) : List Op :=
  prepareOps name raw copies ++ [.rename name, .syncDirectory]

variable {name : String} {raw : List UInt8} {copies : Bool}

theorem not_renames_prepareOps : ∀ op ∈ prepareOps name raw copies, ¬ op.Renames := by
  intro op hop hrenames
  cases op with
  | rename other => cases copies <;> simp [prepareOps] at hop
  | create | write | copyBackup | restrict | syncDirectory => exact hrenames

theorem temporaries_prepareOps (d : Directory) :
    (applyAll (prepareOps name raw copies) d).temporaries[name]? = some raw := by
  cases copies with
  | false => exact ExtTreeMap.getElem?_insert_self
  | true =>
    simp only [prepareOps, applyAll, if_true, List.cons_append, List.nil_append, List.foldl_cons,
      List.foldl_nil, Op.apply, temporaries_copyTo]
    exact ExtTreeMap.getElem?_insert_self

/-- From the rename on the file has the new contents. -/
theorem file_renamed (d : Directory) {back : List Op} (h : ∀ op ∈ back, ¬ op.Renames) :
    (applyAll (prepareOps name raw copies ++ .rename name :: back) d).file = .bytes raw := by
  rw [applyAll_append]
  exact (file_applyAll h _).trans (file_renameOver (temporaries_prepareOps d))

theorem file_replace_done (d : Directory) :
    (attempt (replaceOps name raw copies) name none d).file = .bytes raw := by
  refine file_renamed d fun op hop => ?_
  rw [List.mem_singleton.mp hop]
  exact not_false

theorem take_replaceOps (n : Nat) :
    (∀ op ∈ (replaceOps name raw copies).take n, ¬ op.Renames) ∨
      ∃ back, (∀ op ∈ back, ¬ op.Renames) ∧
        (replaceOps name raw copies).take n = prepareOps name raw copies ++ .rename name :: back := by
  unfold replaceOps
  by_cases hn : n ≤ (prepareOps name raw copies).length
  · left
    rw [List.take_append_of_le_length hn]
    exact fun op hop => not_renames_prepareOps op (List.mem_of_mem_take hop)
  · right
    obtain ⟨more, rfl⟩ : ∃ more, n = (prepareOps name raw copies).length + (more + 1) :=
      ⟨n - (prepareOps name raw copies).length - 1, by omega⟩
    refine ⟨[Op.syncDirectory].take more, fun op hop => ?_, ?_⟩
    · rw [List.mem_singleton.mp (List.mem_of_mem_take hop)]
      exact not_false
    · rw [List.take_length_add_append, List.take_succ_cons]

theorem file_replace (fault : Option Fault) (d : Directory) :
    (attempt (replaceOps name raw copies) name fault d).file = d.file ∨
      (attempt (replaceOps name raw copies) name fault d).file = .bytes raw := by
  cases fault with
  | none => exact .inr (file_replace_done d)
  | some f =>
    unfold attempt
    dsimp only
    rw [file_clean, file_interrupt]
    obtain hkept | ⟨back, hback, htake⟩ :=
      @take_replaceOps name raw copies f.completed
    · exact .inl (file_applyAll hkept d)
    · rw [htake]
      exact .inr (file_renamed d hback)

theorem backup_replace (fault : Option Fault) (d : Directory) :
    (attempt (replaceOps name raw false) name fault d).backup = d.backup := by
  refine backup_attempt (fun op hop hcopies => ?_) name fault d
  cases op with
  | copyBackup => simp [replaceOps, prepareOps] at hop
  | create | write | rename | restrict | syncDirectory => exact hcopies

end Lib.Replace
