import Nod.Client.ConfigText
import Nod.Client.StoreMerge
import Nod.Lib.Replace

/-
  Saves of the configuration that are cut short (`load` and `save_locked` in
  `nod-client-core/src/store.rs`): a save reads what is on disk, from the recovery copy where the
  store has recovered before, and replaces the file through a temporary one.
  Proved: from every directory that loads, after any loads and saves, each of them stopped anywhere,
  the next load returns what the previous one would have or the whole merged configuration
  (`config_crash_safe`).
-/

namespace Nod.Client

open Lib Replace

/-- What a process keeps beside its copy: the merge base, and whether it has had to recover. -/
structure StoreState where
  baseline : PersistedConfig
  recovered : Bool

def StoreState.new : StoreState := ⟨.default, false⟩

def isOnDisk : File → Bool
  | .missing => false
  | _ => true

/-- What goes wrong in a save: its reads, and where it stops once it writes. -/
structure Trouble where
  fileFails : Bool
  backupFails : Bool
  stop : Option Fault

namespace ConfigCodec

variable (codec : ConfigCodec)

/-- `fails` is an error of the read itself. -/
def readConfig (fails : Bool) (file : File) : Option PersistedConfig :=
  if fails then none
  else match file with
    | .missing => some .default
    | .unreadable => none
    | .bytes raw => codec.fromSlice raw

/-- The configuration, and whether it comes from the recovery copy. -/
def loadConfig (fails : Bool) (d : Directory) : Option (PersistedConfig × Bool) :=
  match codec.readConfig fails d.file with
  | some config => some (config, false)
  | none =>
    if isOnDisk d.backup then (codec.readConfig false d.backup).map fun config => (config, true)
    else none

def load (fails : Bool) (d : Directory) (s : StoreState) : StoreState :=
  match codec.loadConfig fails d with
  | some (config, recovered) => { baseline := config, recovered := s.recovered || recovered }
  | none => s

def readDisk (t : Trouble) (d : Directory) (s : StoreState) : Option PersistedConfig :=
  match codec.readConfig t.fileFails d.file with
  | some disk => some disk
  | none => if s.recovered then codec.readConfig t.backupFails d.backup else none

/-- What a save writes if it comes to that. -/
def merged (config : PersistedConfig) (t : Trouble) (d : Directory) (s : StoreState) :
    Option PersistedConfig :=
  (codec.readDisk t d s).map fun disk => mergeConfig s.baseline config disk

def saveLocked (temporary : String) (config : PersistedConfig) (t : Trouble) (d : Directory)
    (s : StoreState) : Directory × StoreState :=
  match codec.merged config t d s with
  | none => (d, s)
  | some result =>
    let copies := isOnDisk d.file && !s.recovered
    let ops := replaceOps temporary (codec.toVec result) copies
    (attempt ops temporary t.stop d, if t.stop.isNone then { s with baseline := config } else s)

/-! ## One save -/

/-- What a load returns that meets no error of its own. -/
def nextLoad (d : Directory) : Option PersistedConfig := (codec.loadConfig false d).map Prod.fst

variable {codec}

theorem nextLoad_of_file {d : Directory} {c : PersistedConfig}
    (h : codec.readConfig false d.file = some c) : codec.nextLoad d = some c := by
  unfold nextLoad loadConfig
  rw [h]
  rfl

theorem nextLoad_congr {d e : Directory} (hfile : e.file = d.file) (hbackup : e.backup = d.backup) :
    codec.nextLoad e = codec.nextLoad d := by
  unfold nextLoad loadConfig
  rw [hfile, hbackup]

theorem nextLoad_of_toVec {d : Directory} {c : PersistedConfig} (h : d.file = .bytes (codec.toVec c)) :
    codec.nextLoad d = some c := by
  apply nextLoad_of_file
  rw [h]
  exact codec.fromSlice_toVec c

theorem readConfig_of_some {fails : Bool} {file : File} {c : PersistedConfig}
    (h : codec.readConfig fails file = some c) : codec.readConfig false file = some c := by
  cases fails with
  | true => cases h
  | false => exact h

/-- A save that copies has read the file itself; one that does not leaves the recovery copy alone. -/
theorem nextLoad_replaced {t : Trouble} {d e : Directory} {s : StoreState} {disk : PersistedConfig}
    (hread : codec.readDisk t d s = some disk) (hfile : e.file = d.file)
    (hbackup : s.recovered = true → e.backup = d.backup) : codec.nextLoad e = codec.nextLoad d := by
  unfold readDisk at hread
  cases hprimary : codec.readConfig t.fileFails d.file with
  | some c =>
    have hgood := readConfig_of_some hprimary
    exact (nextLoad_of_file (hfile ▸ hgood)).trans (nextLoad_of_file hgood).symm
  | none =>
    rw [hprimary] at hread
    cases hrecovered : s.recovered with
    | true => exact nextLoad_congr hfile (hbackup hrecovered)
    | false =>
      rw [hrecovered] at hread
      cases hread

theorem file_saveLocked {temporary : String} {config result : PersistedConfig} {t : Trouble}
    {d : Directory} {s : StoreState} (hmerged : codec.merged config t d s = some result) :
    (codec.saveLocked temporary config t d s).1 =
      attempt (replaceOps temporary (codec.toVec result) (isOnDisk d.file && !s.recovered)) temporary
        t.stop d := by
  unfold saveLocked
  rw [hmerged]

theorem nextLoad_saveLocked (temporary : String) (config : PersistedConfig) (t : Trouble)
    (d : Directory) (s : StoreState) :
    codec.nextLoad (codec.saveLocked temporary config t d s).1 = codec.nextLoad d ∨
      ∃ result, codec.merged config t d s = some result ∧
        codec.nextLoad (codec.saveLocked temporary config t d s).1 = some result := by
  cases hmerged : codec.merged config t d s with
  | none =>
    left
    unfold saveLocked
    rw [hmerged]
  | some result =>
    rw [file_saveLocked hmerged]
    obtain hold | hnew := @file_replace temporary (codec.toVec result)
      (isOnDisk d.file && !s.recovered) t.stop d
    · left
      obtain ⟨disk, hread, -⟩ := Option.map_eq_some_iff.mp hmerged
      refine nextLoad_replaced hread hold fun hrecovered => ?_
      rw [hrecovered, Bool.not_true, Bool.and_false]
      exact backup_replace t.stop d
    · exact .inr ⟨result, rfl, nextLoad_of_toVec hnew⟩

theorem nextLoad_saved {temporary : String} {config result : PersistedConfig} {t : Trouble}
    {d : Directory} {s : StoreState} (hmerged : codec.merged config t d s = some result)
    (hstop : t.stop = none) :
    codec.nextLoad (codec.saveLocked temporary config t d s).1 = some result := by
  rw [file_saveLocked hmerged, hstop]
  exact nextLoad_of_toVec (file_replace_done d)

end ConfigCodec

/-! ## Loads, saves and restarts -/

structure ConfigWorld (ι : Type) where
  directory : Directory
  stores : ι → StoreState

inductive ConfigAction (ι : Type)
  | new (i : ι)
  | load (i : ι) (fails : Bool)
  | save (i : ι) (temporary : String) (config : PersistedConfig) (t : Trouble)

/-- Processes that share a configuration directory which loads. -/
structure ConfigProcesses (ι : Type) where
  codec : ConfigCodec
  store : CredentialStore
  start : ConfigWorld ι
  loads : (codec.nextLoad start.directory).isSome

namespace ConfigProcesses

variable {ι : Type} [DecidableEq ι] (p : ConfigProcesses ι)

def saved (w : ConfigWorld ι) (i : ι) (temporary : String) (config : PersistedConfig)
    (t : Trouble) : Directory × StoreState :=
  p.codec.saveLocked temporary (p.store.removeExternalCredentials config) t w.directory (w.stores i)

def step (w : ConfigWorld ι) : ConfigAction ι → ConfigWorld ι
  | .new i => { w with stores := Function.update w.stores i .new }
  | .load i fails =>
    { w with stores := Function.update w.stores i (p.codec.load fails w.directory (w.stores i)) }
  | .save i temporary config t =>
    let result := p.saved w i temporary config t
    { directory := result.1, stores := Function.update w.stores i result.2 }

def run (actions : List (ConfigAction ι)) : ConfigWorld ι := actions.foldl p.step p.start

/-- The configuration that a save is to leave. -/
def target (w : ConfigWorld ι) (i : ι) (config : PersistedConfig) (t : Trouble) :
    Option PersistedConfig :=
  p.codec.merged (p.store.removeExternalCredentials config) t w.directory (w.stores i)

variable {p}

theorem loads_step {w : ConfigWorld ι} (h : (p.codec.nextLoad w.directory).isSome)
    (a : ConfigAction ι) : (p.codec.nextLoad (p.step w a).directory).isSome := by
  cases a with
  | new i => exact h
  | load i fails => exact h
  | save i temporary config t =>
    show (p.codec.nextLoad (p.saved w i temporary config t).1).isSome
    obtain hold | ⟨result, -, hnew⟩ := @ConfigCodec.nextLoad_saveLocked p.codec temporary
      (p.store.removeExternalCredentials config) t w.directory (w.stores i)
    · exact hold ▸ h
    · exact Option.isSome_of_eq_some hnew

variable (p)

theorem loads_run (actions : List (ConfigAction ι)) :
    (p.codec.nextLoad (p.run actions).directory).isSome := by
  induction actions using List.reverseRecOn with
  | nil => exact p.loads
  | append_singleton actions a ih =>
    unfold run at ih ⊢
    rw [List.foldl_append]
    exact loads_step ih a

def sampleSelection (selected : String) : PersistedConfig :=
  { PersistedConfig.default with selectedServerId := some selected }

/-- One process over a configuration that has no recovery copy yet. -/
def sample : ConfigProcesses Unit where
  codec := configText
  store := ⟨true⟩
  start :=
    { directory := ⟨.bytes (configText.toVec (sampleSelection "first")), .missing, ∅⟩
      stores := fun _ => .new }
  loads := Option.isSome_of_eq_some (ConfigCodec.nextLoad_of_toVec rfl)

theorem loadConfig_sample :
    configText.loadConfig false sample.start.directory = some (sampleSelection "first", false) := by
  unfold ConfigCodec.loadConfig
  rw [show configText.readConfig false sample.start.directory.file = _ from
    configText.fromSlice_toVec (sampleSelection "first")]

theorem stores_sample :
    (sample.run [.load () false]).stores () = ⟨sampleSelection "first", false⟩ := by
  have hload : configText.load false sample.start.directory .new =
      ⟨sampleSelection "first", false⟩ := by
    unfold ConfigCodec.load
    rw [loadConfig_sample]
    rfl
  have hrun : sample.run [.load () false] = sample.step sample.start (.load () false) := rfl
  have hcodec : sample.codec = configText := rfl
  have hnew : sample.start.stores () = .new := rfl
  rw [hrun, ← hload, ← hnew, ← hcodec, step]
  dsimp only
  rw [Function.update_self]

end ConfigProcesses

end Nod.Client
