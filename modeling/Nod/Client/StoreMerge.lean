import Nod.Client.Store
import Nod.Lib.Merge

/-
  How the configurations of several shells meet on disk (`merge_config` in
  `nod-client-core/src/store.rs`): a save puts on disk what the shell changed since it last loaded or
  saved, and remembers what it asked for, not what it wrote.
  Proved: as long as no configuration lists a server id twice or has credentials in it that the
  keyring keeps, every save is the three-way merge of each entry, and no shell loses or undoes what
  another one changed (`config_merges`).
-/

namespace Nod.Client

open Std Lib Merge

def mergeConfig (base ours disk : PersistedConfig) : PersistedConfig where
  servers := mergeList ServerProfile.id base.servers ours.servers disk.servers
  selectedServerId :=
    if ours.selectedServerId ≠ base.selectedServerId then ours.selectedServerId
    else disk.selectedServerId
  notificationSound :=
    if ours.notificationSound ≠ base.notificationSound then ours.notificationSound
    else disk.notificationSound
  insecureTokens := mergeMap base.insecureTokens ours.insecureTokens disk.insecureTokens
  insecureSigningKeys :=
    mergeMap base.insecureSigningKeys ours.insecureSigningKeys disk.insecureSigningKeys

/-! ## Entries -/

inductive ConfigKey
  | server (id : String)
  | token (name : String)
  | signingKey (name : String)
  | selectedServer
  | notificationSound

/-- Two configurations have the same entry, or both none. -/
def SameAt : ConfigKey → PersistedConfig → PersistedConfig → Prop
  | .server id, c, d => atKey ServerProfile.id id c.servers = atKey ServerProfile.id id d.servers
  | .token name, c, d => c.insecureTokens[name]? = d.insecureTokens[name]?
  | .signingKey name, c, d => c.insecureSigningKeys[name]? = d.insecureSigningKeys[name]?
  | .selectedServer, c, d => c.selectedServerId = d.selectedServerId
  | .notificationSound, c, d => c.notificationSound = d.notificationSound

theorem SameAt.refl (k : ConfigKey) (c : PersistedConfig) : SameAt k c c := by
  cases k <;> exact rfl

theorem SameAt.trans {k : ConfigKey} {c d e : PersistedConfig} (h : SameAt k c d)
    (h' : SameAt k d e) : SameAt k c e := by
  cases k <;> exact Eq.trans h h'

/-- The same entries, the servers up to their order. -/
structure SameConfig (c d : PersistedConfig) : Prop where
  servers : c.servers.Perm d.servers
  selectedServerId : c.selectedServerId = d.selectedServerId
  notificationSound : c.notificationSound = d.notificationSound
  insecureTokens : c.insecureTokens = d.insecureTokens
  insecureSigningKeys : c.insecureSigningKeys = d.insecureSigningKeys

theorem sameConfig_of_sameAt {c d : PersistedConfig} (h : ∀ k, SameAt k c d) : SameConfig c d where
  servers := perm_of_atKey fun id => h (.server id)
  selectedServerId := h .selectedServer
  notificationSound := h .notificationSound
  insecureTokens := ExtTreeMap.ext_getElem? fun name => h (.token name)
  insecureSigningKeys := ExtTreeMap.ext_getElem? fun name => h (.signingKey name)

/-! ## One save -/

def DistinctServers (c : PersistedConfig) : Prop := (c.servers.map ServerProfile.id).Nodup

theorem threeWay_mergeConfig {base ours : PersistedConfig} (hbase : DistinctServers base)
    (hours : DistinctServers ours) (disk : PersistedConfig) :
    ThreeWay SameAt base ours disk (mergeConfig base ours disk) := by
  intro k
  cases k with
  | server id =>
    have hmerged : atKey ServerProfile.id id
        (mergeList ServerProfile.id base.servers ours.servers disk.servers) = _ :=
      atKey_mergeList hbase hours id
    exact ⟨fun h => hmerged.trans (if_pos h), fun h => hmerged.trans (if_neg h)⟩
  | token name =>
    have hmerged := getElem?_mergeMap base.insecureTokens ours.insecureTokens disk.insecureTokens name
    exact ⟨fun h => hmerged.trans (if_pos h), fun h => hmerged.trans (if_neg h)⟩
  | signingKey name =>
    have hmerged := getElem?_mergeMap base.insecureSigningKeys ours.insecureSigningKeys
      disk.insecureSigningKeys name
    exact ⟨fun h => hmerged.trans (if_pos h), fun h => hmerged.trans (if_neg h)⟩
  | selectedServer => exact ⟨fun h => if_neg (not_not.mpr (Eq.symm h)), fun h => if_pos (Ne.symm h)⟩
  | notificationSound =>
    exact ⟨fun h => if_neg (not_not.mpr (Eq.symm h)), fun h => if_pos (Ne.symm h)⟩

theorem distinctServers_mergeConfig (base ours disk : PersistedConfig) (hbase : DistinctServers base)
    (hours : DistinctServers ours) (hdisk : DistinctServers disk) :
    DistinctServers (mergeConfig base ours disk) :=
  nodup_mergeList hbase hours hdisk

namespace CredentialStore

variable (store : CredentialStore)

theorem distinctServers_removeExternalCredentials (c : PersistedConfig) (h : DistinctServers c) :
    DistinctServers (store.removeExternalCredentials c) := by
  unfold removeExternalCredentials
  split
  · exact h
  · exact h

/-- A configuration as the store writes it: the keyring keeps what the store leaves out. -/
def Owns (c : PersistedConfig) : Prop := store.removeExternalCredentials c = c

theorem owns_iff (c : PersistedConfig) : store.Owns c ↔
    (store.useConfigFile = false → c.insecureTokens = ∅ ∧ c.insecureSigningKeys = ∅) := by
  unfold Owns removeExternalCredentials
  cases hfile : store.useConfigFile with
  | true => simp only [if_true, Bool.true_eq_false, false_implies]
  | false =>
    simp only [Bool.false_eq_true, if_false, forall_const]
    constructor
    · intro h
      rw [← h]
      exact ⟨rfl, rfl⟩
    · intro h
      cases c
      rw [PersistedConfig.mk.injEq]
      exact ⟨rfl, rfl, rfl, h.1.symm, h.2.symm⟩

theorem owns_removeExternalCredentials (c : PersistedConfig) :
    store.Owns (store.removeExternalCredentials c) := by
  rw [owns_iff]
  intro hfile
  unfold removeExternalCredentials
  rw [hfile]
  exact ⟨rfl, rfl⟩

theorem owns_default : store.Owns PersistedConfig.default := by
  rw [owns_iff]
  exact fun _ => ⟨rfl, rfl⟩

theorem owns_mergeConfig {base ours disk : PersistedConfig} (hbase : store.Owns base)
    (hours : store.Owns ours) (hdisk : store.Owns disk) :
    store.Owns (mergeConfig base ours disk) := by
  rw [owns_iff] at hbase hours hdisk ⊢
  intro hfile
  constructor
  · refine ExtTreeMap.ext_getElem? fun name => ?_
    rw [mergeConfig, getElem?_mergeMap, (hbase hfile).1, (hours hfile).1, (hdisk hfile).1, if_pos rfl]
  · refine ExtTreeMap.ext_getElem? fun name => ?_
    rw [mergeConfig, getElem?_mergeMap, (hbase hfile).2, (hours hfile).2, (hdisk hfile).2, if_pos rfl]

/-- What stays true of a configuration that lists no id twice and owns what is in it. -/
theorem fits_mergeConfig (base ours disk : PersistedConfig)
    (hbase : DistinctServers base ∧ store.Owns base) (hours : DistinctServers ours ∧ store.Owns ours)
    (hdisk : DistinctServers disk ∧ store.Owns disk) :
    DistinctServers (mergeConfig base ours disk) ∧ store.Owns (mergeConfig base ours disk) :=
  ⟨distinctServers_mergeConfig base ours disk hbase.1 hours.1 hdisk.1,
    store.owns_mergeConfig hbase.2 hours.2 hdisk.2⟩

theorem fits_removeExternalCredentials (c : PersistedConfig)
    (h : DistinctServers c ∧ store.Owns c) :
    DistinctServers (store.removeExternalCredentials c) ∧
      store.Owns (store.removeExternalCredentials c) :=
  ⟨store.distinctServers_removeExternalCredentials c h.1, store.owns_removeExternalCredentials c⟩

end CredentialStore

/-! ## Runs of several shells -/

/-- Shells with one credential store and one configuration on disk, and all they do to it. -/
structure SharedConfig (ι : Type) where
  store : CredentialStore
  disk : PersistedConfig
  actions : List (Merge.Action ι PersistedConfig)

namespace SharedConfig

variable {ι : Type} [DecidableEq ι] (s : SharedConfig ι)

/-- No shell has loaded the configuration yet. -/
def start : Merge.World ι PersistedConfig where
  stored := s.disk
  shells := fun _ => ⟨.default, .default⟩

def after (actions : List (Merge.Action ι PersistedConfig)) : Merge.World ι PersistedConfig :=
  run mergeConfig s.store.removeExternalCredentials s.start actions

/-- What a shell last loaded or saved. -/
def baseline (before : List (Merge.Action ι PersistedConfig)) (i : ι) : PersistedConfig :=
  ((s.after before).shells i).baseline

/-- What a shell has in hand and saves. -/
def ours (before : List (Merge.Action ι PersistedConfig)) (i : ι) : PersistedConfig :=
  ((s.after before).shells i).copy

/-- No save among the actions that follow changes the entry. -/
def Unchanged (k : ConfigKey) (before actions : List (Merge.Action ι PersistedConfig)) : Prop :=
  LeavesAll mergeConfig s.store.removeExternalCredentials SameAt k (s.after before) actions

/-- What the shells rely on when they save to one configuration. -/
structure Merges : Prop where
  threeWay : ∀ before i later, s.actions = before ++ .save i :: later →
    ThreeWay SameAt (s.baseline before i) (s.ours before i) (s.after before).stored
      (s.after (before ++ [.save i])).stored
  kept : ∀ before later k, s.actions = before ++ later → s.Unchanged k before later →
    SameAt k (s.after s.actions).stored (s.after before).stored
  taken : ∀ before i later k, s.actions = before ++ .save i :: later →
    ¬ SameAt k (s.baseline before i) (s.ours before i) →
    s.Unchanged k (before ++ [.save i]) later →
    SameAt k (s.after s.actions).stored (s.ours before i)
  unedited : ∀ before i later, s.actions = before ++ .save i :: later → Rested i before →
    SameConfig (s.after (before ++ [.save i])).stored (s.after before).stored

/-- No configuration that is there or that an edit makes lists a server id twice, or has credentials
    in it that the keyring keeps. -/
structure Distinct : Prop where
  disk : DistinctServers s.disk ∧ s.store.Owns s.disk
  edits : ∀ a ∈ s.actions, Edits (fun c => DistinctServers c ∧ s.store.Owns c) a

variable {s}

theorem Distinct.all (h : s.Distinct) {before later : List (Merge.Action ι PersistedConfig)}
    (hactions : s.actions = before ++ later) :
    All (fun c => DistinctServers c ∧ s.store.Owns c) (s.after before) := by
  have hdefault : DistinctServers .default ∧ s.store.Owns .default :=
    ⟨List.nodup_nil, s.store.owns_default⟩
  have hstart : All (fun c => DistinctServers c ∧ s.store.Owns c) s.start :=
    ⟨h.disk, fun _ => hdefault, fun _ => hdefault⟩
  refine all_run (fun base ours stored => s.store.fits_mergeConfig base ours stored)
    s.store.fits_removeExternalCredentials hstart fun a ha => h.edits a ?_
  rw [hactions]
  exact List.mem_append_left _ ha

theorem after_append (before later : List (Merge.Action ι PersistedConfig)) :
    s.after (before ++ later) =
      run mergeConfig s.store.removeExternalCredentials (s.after before) later :=
  run_append ..

theorem Distinct.threeWay (h : s.Distinct) {before later : List (Merge.Action ι PersistedConfig)} {i : ι}
    (hactions : s.actions = before ++ .save i :: later) :
    ThreeWay SameAt (s.baseline before i) (s.ours before i) (s.after before).stored
      (s.after (before ++ [.save i])).stored := by
  have hall := h.all hactions
  have hkept : s.store.removeExternalCredentials (s.ours before i) = s.ours before i :=
    (hall.copy i).2
  have hsaved : (s.after (before ++ [.save i])).stored =
      mergeConfig (s.baseline before i) (s.ours before i) (s.after before).stored := by
    rw [after_append, ← hkept]
    rfl
  rw [hsaved]
  exact threeWay_mergeConfig (hall.baseline i).1 (hall.copy i).1 _

theorem Distinct.kept (h : s.Distinct) {before later : List (Merge.Action ι PersistedConfig)}
    {k : ConfigKey} (hactions : s.actions = before ++ later) (hunchanged : s.Unchanged k before later) :
    SameAt k (s.after s.actions).stored (s.after before).stored := by
  have hedits : ∀ a ∈ later, Edits (fun c => DistinctServers c ∧ s.store.Owns c) a := by
    intro a ha
    apply h.edits
    rw [hactions]
    exact List.mem_append_right _ ha
  rw [hactions, after_append]
  exact kept_run SameAt.refl (fun _ _ _ _ => SameAt.trans)
    (fun _ _ stored hbase hours => threeWay_mergeConfig hbase.1 hours.1 stored)
    (fun base ours stored => s.store.fits_mergeConfig base ours stored)
    s.store.fits_removeExternalCredentials (h.all hactions) hedits hunchanged

/-- A shell that has edited nothing saves what it last loaded or saved. -/
theorem Distinct.ours_of_rested (h : s.Distinct)
    {before later : List (Merge.Action ι PersistedConfig)} {i : ι}
    (hactions : s.actions = before ++ later) (hrested : Rested i before) :
    s.ours before i = s.baseline before i := by
  have hstart : Holds s.store.Owns s.start := ⟨h.disk.2, fun _ => s.store.owns_default⟩
  have hdefault : s.store.removeExternalCredentials (s.start.shells i).copy =
      (s.start.shells i).baseline := s.store.owns_default
  have hkept : s.store.removeExternalCredentials (s.ours before i) = s.ours before i :=
    ((h.all hactions).copy i).2
  rw [← hkept]
  exact out_copy_of_rested s.store.owns_removeExternalCredentials
    (fun _ _ _ => s.store.owns_mergeConfig) (fun _ h => h) hstart hdefault hrested

/-! ## Configurations that list an id twice -/

/-- While no server id is listed twice and the keyring keeps its own, no save loses or undoes an
    entry. -/
theorem config_merges (h : s.Distinct) : s.Merges where
  threeWay before i later hactions := h.threeWay hactions
  kept before later k hactions hunchanged := h.kept hactions hunchanged
  taken before i later k hactions hchanged hunchanged := by
    have hsplit : s.actions = (before ++ [.save i]) ++ later := by
      rw [hactions, List.append_assoc]
      rfl
    exact (h.kept hsplit hunchanged).trans ((h.threeWay hactions k).2 hchanged)
  unedited before i later hactions hrested := by
    refine sameConfig_of_sameAt fun k => (h.threeWay hactions k).1 ?_
    rw [h.ours_of_rested hactions hrested]
    exact .refl k _

def sampleProfile (id name : String) : ServerProfile where
  id := id
  credentialId := none
  name := name
  baseUrlString := "https://nod.example"
  deviceName := "phone"
  deviceId := none
  userId := none
  userName := none

/-- Two shells that keep their credentials in the configuration, over the given servers. -/
def sampleShells (servers : List ServerProfile)
    (actions : List (Merge.Action Bool PersistedConfig)) : SharedConfig Bool where
  store := ⟨true⟩
  disk := { PersistedConfig.default with servers }
  actions := actions

/-- One shell adds a server while the other one silences notifications. -/
def sampleEdits : List (Merge.Action Bool PersistedConfig) :=
  let home := sampleProfile "home" "Home"
  [.load true, .load false,
    .edit true { PersistedConfig.default with servers := [home, sampleProfile "work" "Work"] },
    .save true,
    .edit false { PersistedConfig.default with servers := [home], notificationSound := "silent" },
    .save false]

theorem config_merges_sample :
    (sampleShells [sampleProfile "home" "Home"] sampleEdits).Distinct ∧
      (sampleShells [sampleProfile "home" "Home"] sampleEdits).Merges := by
  have hdistinct : (sampleShells [sampleProfile "home" "Home"] sampleEdits).Distinct := by
    have howns : ∀ c, (⟨true⟩ : CredentialStore).Owns c := fun _ => rfl
    refine ⟨⟨?_, howns _⟩, ?_⟩
    · unfold DistinctServers
      decide
    · simp only [sampleShells, sampleEdits, List.forall_mem_cons, List.not_mem_nil, false_implies,
        implies_true, and_true, true_and, Edits, DistinctServers, howns]
      decide
  exact ⟨hdistinct, config_merges hdistinct⟩

/-- Of two servers with one id the first is gone once the loaded configuration is saved. -/
theorem saved_duplicate_lost : ¬ (sampleShells
    [sampleProfile "home" "Home", sampleProfile "home" "Away"] [.load true, .save true]).Merges := by
  intro h
  have hsame := h.unedited [.load true] true [] rfl (by
    intro pre copy mid heq
    cases pre with
    | nil => cases heq
    | cons a pre => cases pre <;> cases heq)
  have hlength := hsame.servers.length_eq
  revert hlength
  decide

end SharedConfig

end Nod.Client
