import Mathlib
import Nod.Client.Store
import Nod.Lib.Sha256
import Mathlib.Data.List.Pairwise

/-
  The enrolled servers of a shell: the id of a profile is derived from its address
  (`nod-client-core/src/api.rs`), older configurations are migrated to such ids
  (`nod-client-core/src/runtime.rs`), and a server is looked up and forgotten by id
  (`runtime/session.rs`, `runtime/workflows.rs`).
  Proved: migration always derives every id, keeps credential names and is done after one round
  (`migrate_servers`, `credentialName_migrated`, `migrate_migrate`); profiles stay apart under it,
  and each can be forgotten alone, exactly when their addresses, old ids and credential names do
  not meet (`profiles_kept_apart`).
-/

namespace Nod.Client

open Std Lib

/-! ## Ids of profiles -/

def trimSlashes (s : String) : String := String.ofList (s.toList.rdropWhile (· = '/'))

def normalizeBaseUrl (value : String) : String :=
  let trimmed := trimSlashes (Text.trim value)
  if "://".toList <:+: trimmed.toList then trimmed
  else if trimmed = "localhost" ∨ "localhost:".toList <+: trimmed.toList ∨
      "127.".toList <+: trimmed.toList ∨ "192.168.".toList <+: trimmed.toList then
    "http://" ++ trimmed
  else "https://" ++ trimmed

/-- An address as the URL library writes it once it parsed it, without its fragment. -/
abbrev UrlText := String → Option String

def profileIdFor (parse : UrlText) (baseUrl : String) : String :=
  let normalized := normalizeBaseUrl baseUrl
  let canonical := match parse normalized with
    | some text => trimSlashes text
    | none => normalized
  "server-" ++ Sha256.hex canonical

/-- The id derived from a profile's own address. -/
def ServerProfile.derivedId (parse : UrlText) (p : ServerProfile) : String :=
  profileIdFor parse p.baseUrlString

/-! ## Migration -/

/-- The loop over the servers: the selection follows an id where it changes. -/
def migrateLoop (parse : UrlText) :
    Option String → List ServerProfile → Option String × List ServerProfile × Bool
  | selected, [] => (selected, [], false)
  | selected, server :: servers =>
    let id := profileIdFor parse server.baseUrlString
    if server.id = id then
      let rest := migrateLoop parse selected servers
      (rest.1, server :: rest.2.1, rest.2.2)
    else
      let selected := if selected = some server.id then some id else selected
      let server := { server with credentialId := some (server.credentialId.getD server.id), id := id }
      let rest := migrateLoop parse selected servers
      (rest.1, server :: rest.2.1, true)

def migrateProfileIds (parse : UrlText) (config : PersistedConfig) : PersistedConfig × Bool :=
  let done := migrateLoop parse config.selectedServerId config.servers
  ({ config with servers := done.2.1, selectedServerId := done.1 }, done.2.2)

def selectedServerIdFor (config : PersistedConfig) : Option String :=
  (config.selectedServerId.filter fun id => config.servers.any (·.id == id)).or
    (config.servers.head?.map (·.id))

def selectedProfile (config : PersistedConfig) : Option ServerProfile :=
  (selectedServerIdFor config).bind fun id => config.servers.find? (·.id == id)

/-! ## Looking up and forgetting -/

def serverProfile (config : PersistedConfig) (serverId : String) : Option ServerProfile :=
  config.servers.find? fun p => p.id == serverId || p.credentialId == some serverId

inductive ForgetError
  | notEnrolled
  | host
  deriving DecidableEq

/-- `hostRemoves`: the host dropped its hardware key. -/
def forgetServer (store : CredentialStore) (backend : SignerBackend) (hostRemoves : Bool)
    (m : Machine) (serverId : String) : Except ForgetError Machine :=
  match serverProfile m.persisted serverId with
  | none => .error .notEnrolled
  | some profile =>
    if backend = .foreign ∧ hostRemoves = false then .error .host
    else
      let m := match backend with
        | .software => m
        | .foreign => { m with hostKeys := m.hostKeys.erase profile.credentialName }
      let servers := m.persisted.servers.filter (·.id != profile.id)
      let m := { m with persisted := { m.persisted with servers := servers } }
      let m := store.deleteToken m profile.credentialName
      let m := store.deleteSigningKey m profile.credentialName
      .ok (if m.persisted.selectedServerId = some profile.id then
        { m with persisted :=
          { m.persisted with selectedServerId := m.persisted.servers.head?.map (·.id) } }
        else m)

/-- The key that signs for a profile: a stored one, or a handle of the host. -/
def signingKeyOf (store : CredentialStore) (readKey : String → Option StoredSigningKey)
    (backend : SignerBackend) (m : Machine) (p : ServerProfile) : Option (StoredSigningKey ⊕ String) :=
  match backend with
  | .software => (store.loadSigningKey readKey m p.credentialName).map Sum.inl
  | .foreign => m.hostKeys[p.credentialName]?.map Sum.inr

/-! ## What migration does to a profile -/

variable {parse : UrlText}

/-- A profile under its derived id; its credentials keep their name. -/
def ServerProfile.migrated (parse : UrlText) (p : ServerProfile) : ServerProfile :=
  if p.id = p.derivedId parse then p
  else { p with credentialId := some p.credentialName, id := p.derivedId parse }

@[simp] theorem id_migrated (p : ServerProfile) : (p.migrated parse).id = p.derivedId parse := by
  unfold ServerProfile.migrated
  split
  · assumption
  · rfl

@[simp] theorem credentialName_migrated (p : ServerProfile) :
    (p.migrated parse).credentialName = p.credentialName := by
  unfold ServerProfile.migrated
  split
  · rfl
  · rfl

/-- All but the id and the name of the credentials. -/
def ServerProfile.details (p : ServerProfile) : ServerProfile := { p with id := "", credentialId := none }

@[simp] theorem details_migrated (p : ServerProfile) : (p.migrated parse).details = p.details := by
  unfold ServerProfile.migrated
  split
  · rfl
  · rfl

@[simp] theorem derivedId_migrated (p : ServerProfile) :
    (p.migrated parse).derivedId parse = p.derivedId parse := by
  have haddress : (p.migrated parse).baseUrlString = p.baseUrlString := by
    have hdetails := congrArg ServerProfile.baseUrlString (@details_migrated parse p)
    exact hdetails
  unfold ServerProfile.derivedId
  rw [haddress]

theorem migrateLoop_cons_same {server : ServerProfile} (h : server.id = server.derivedId parse)
    (selected : Option String) (servers : List ServerProfile) :
    migrateLoop parse selected (server :: servers) =
      ((migrateLoop parse selected servers).1, server :: (migrateLoop parse selected servers).2.1,
        (migrateLoop parse selected servers).2.2) := by
  rw [migrateLoop]
  exact if_pos h

theorem migrateLoop_cons_other {server : ServerProfile} (h : server.id ≠ server.derivedId parse)
    (selected : Option String) (servers : List ServerProfile) :
    migrateLoop parse selected (server :: servers) =
      ((migrateLoop parse (if selected = some server.id then some (server.derivedId parse)
          else selected) servers).1,
        server.migrated parse :: (migrateLoop parse (if selected = some server.id then
          some (server.derivedId parse) else selected) servers).2.1, true) := by
  rw [migrateLoop, ServerProfile.migrated, if_neg h]
  exact if_neg h

theorem migrateLoop_servers (selected : Option String) (servers : List ServerProfile) :
    (migrateLoop parse selected servers).2 =
      (servers.map (·.migrated parse), servers.any fun p => p.id != p.derivedId parse) := by
  induction servers generalizing selected with
  | nil => rfl
  | cons server servers ih =>
    rw [List.map_cons, List.any_cons]
    by_cases h : server.id = server.derivedId parse
    · rw [migrateLoop_cons_same h, ih, ServerProfile.migrated, if_pos h, bne_eq_false_iff_eq.mpr h,
        Bool.false_or]
    · rw [migrateLoop_cons_other h, ih, bne_iff_ne.mpr h, Bool.true_or]

theorem migrate_servers (config : PersistedConfig) :
    (migrateProfileIds parse config).1.servers = config.servers.map (·.migrated parse) :=
  congrArg Prod.fst (migrateLoop_servers config.selectedServerId config.servers)

/-- Migrated profiles are left alone, and so is the selection. -/
theorem migrateLoop_of_derived {servers : List ServerProfile}
    (h : ∀ p ∈ servers, p.id = p.derivedId parse) (selected : Option String) :
    migrateLoop parse selected servers = (selected, servers, false) := by
  induction servers with
  | nil => rfl
  | cons server servers ih =>
    rw [migrateLoop_cons_same (h server List.mem_cons_self),
      ih fun p hp => h p (List.mem_cons_of_mem _ hp)]

/-- A second migration changes nothing. -/
theorem migrate_migrate (config : PersistedConfig) :
    migrateProfileIds parse (migrateProfileIds parse config).1 =
      ((migrateProfileIds parse config).1, false) := by
  have hderived : ∀ p ∈ (migrateProfileIds parse config).1.servers, p.id = p.derivedId parse := by
    intro p hp
    rw [migrate_servers] at hp
    obtain ⟨q, -, rfl⟩ := List.mem_map.mp hp
    rw [id_migrated, derivedId_migrated]
  unfold migrateProfileIds at hderived ⊢
  simp only [migrateLoop_of_derived hderived]

/-! ## What migration does to the selection -/

/-- The selection after the loop. -/
def movedSelection (parse : UrlText) (selected : Option String) (servers : List ServerProfile) :
    Option String :=
  (migrateLoop parse selected servers).1

theorem movedSelection_cons (selected : Option String) (server : ServerProfile)
    (servers : List ServerProfile) :
    movedSelection parse selected (server :: servers) =
      movedSelection parse (if selected = some server.id then some (server.derivedId parse)
        else selected) servers := by
  unfold movedSelection
  by_cases h : server.id = server.derivedId parse
  · rw [migrateLoop_cons_same h, ← h]
    split
    · rename_i hselected
      rw [hselected]
    · rfl
  · rw [migrateLoop_cons_other h]

theorem movedSelection_of_absent {selected : Option String} {servers : List ServerProfile}
    (h : ∀ p ∈ servers, selected ≠ some p.id) : movedSelection parse selected servers = selected := by
  induction servers with
  | nil => rfl
  | cons server servers ih =>
    rw [movedSelection_cons, if_neg (h server List.mem_cons_self)]
    exact ih fun p hp => h p (List.mem_cons_of_mem _ hp)

/-- A selection that names a profile ends at the derived id of one of them. -/
theorem movedSelection_of_mem {servers : List ServerProfile} {p : ServerProfile} (hp : p ∈ servers) :
    ∃ q ∈ servers, movedSelection parse (some p.id) servers = some (q.derivedId parse) := by
  suffices h : ∀ id, (∃ p ∈ servers, p.id = id) →
      ∃ q ∈ servers, movedSelection parse (some id) servers = some (q.derivedId parse) from
    h p.id ⟨p, hp, rfl⟩
  clear hp
  induction servers with
  | nil => exact fun _ ⟨_, hp, _⟩ => (nomatch hp)
  | cons server servers ih =>
    intro id hid
    rw [movedSelection_cons]
    have hrest : ∀ id, (∃ p ∈ servers, p.id = id) → ∃ q ∈ server :: servers,
        movedSelection parse (some id) servers = some (q.derivedId parse) := by
      intro id hid
      obtain ⟨q, hq, hmoved⟩ := ih id hid
      exact ⟨q, List.mem_cons_of_mem _ hq, hmoved⟩
    by_cases hserver : id = server.id
    · rw [if_pos (congrArg some hserver)]
      by_cases hnext : ∃ p ∈ servers, p.id = server.derivedId parse
      · exact hrest _ hnext
      · refine ⟨server, List.mem_cons_self, movedSelection_of_absent fun p hp heq => ?_⟩
        exact hnext ⟨p, hp, (Option.some.inj heq).symm⟩
    · rw [if_neg fun heq => hserver (Option.some.inj heq)]
      obtain ⟨p, hp, hpid⟩ := hid
      rcases List.mem_cons.mp hp with rfl | hp
      · exact absurd hpid.symm hserver
      · exact hrest id ⟨p, hp, hpid⟩

theorem selectedProfile_eq (config : PersistedConfig) :
    selectedProfile config =
      (config.selectedServerId.bind fun id => config.servers.find? (·.id == id)).or
        config.servers.head? := by
  have hhead : (config.servers.head?.map (·.id)).bind (fun id => config.servers.find? (·.id == id)) =
      config.servers.head? := by
    cases config.servers with
    | nil => rfl
    | cons server servers =>
      exact List.find?_cons_of_pos (p := fun q : ServerProfile => q.id == server.id)
        (beq_self_eq_true server.id)
  unfold selectedProfile selectedServerIdFor
  cases config.selectedServerId with
  | none => exact hhead
  | some id =>
    rw [Option.bind_some]
    cases hany : config.servers.any (·.id == id) with
    | true =>
      rw [Option.filter_some, if_pos hany, Option.some_or, Option.bind_some]
      obtain ⟨p, hp, hid⟩ := List.any_eq_true.mp hany
      have hfound : (config.servers.find? (·.id == id)).isSome = true :=
        List.find?_isSome.mpr ⟨p, hp, hid⟩
      obtain ⟨found, hfound⟩ := Option.isSome_iff_exists.mp hfound
      rw [hfound, Option.some_or]
    | false =>
      have hnone : config.servers.find? (·.id == id) = none := by
        rw [List.find?_eq_none]
        intro p hp hid
        rw [List.any_eq_true.mpr ⟨p, hp, hid⟩] at hany
        cases hany
      rw [Option.filter_some, if_neg (by rw [hany]; exact Bool.false_ne_true), Option.none_or, hhead,
        hnone, Option.none_or]

/-- Under distinct keys, a profile is the first one with its key. -/
theorem find?_of_nodup {servers : List ServerProfile} {key : ServerProfile → String}
    (h : (servers.map key).Nodup) {p : ServerProfile} (hp : p ∈ servers) :
    servers.find? (key · == key p) = some p := by
  obtain ⟨before, after, rfl⟩ := List.append_of_mem hp
  rw [List.find?_eq_some_iff_append]
  refine ⟨beq_self_eq_true _, before, after, rfl, fun q hq => ?_⟩
  rw [List.map_append, List.nodup_append] at h
  rw [Bool.not_eq_true', beq_eq_false_iff_ne]
  exact h.2.2 _ (List.mem_map_of_mem hq) _ (List.mem_map_of_mem List.mem_cons_self)

/-- Among migrated profiles, a derived id finds the profile it was derived for. -/
theorem find?_migrated (servers : List ServerProfile) (id : String) :
    (servers.map (·.migrated parse)).find? (·.id == id) =
      (servers.find? (·.derivedId parse == id)).map (·.migrated parse) := by
  have hkey : ((fun p : ServerProfile => p.id == id) ∘ fun p : ServerProfile => p.migrated parse) =
      fun p : ServerProfile => p.derivedId parse == id := by
    funext p
    rw [Function.comp_apply, id_migrated]
  rw [List.find?_map, hkey]

/-- The selection names a profile: it stays with it unless a later one has the new id as its old. -/
theorem selectedProfile_migrate_of_named {config : PersistedConfig}
    (hids : (config.servers.map (·.id)).Nodup)
    (haddresses : (config.servers.map (·.derivedId parse)).Nodup)
    {before after : List ServerProfile} {p : ServerProfile}
    (hservers : config.servers = before ++ p :: after) (hselected : config.selectedServerId = some p.id) :
    selectedProfile (migrateProfileIds parse config).1 =
        (selectedProfile config).map (·.migrated parse) ↔
      ∀ q ∈ after, q.id ≠ p.derivedId parse := by
  have hp : p ∈ config.servers := by
    rw [hservers]
    exact List.mem_append_right _ List.mem_cons_self
  have hold : selectedProfile config = some p := by
    rw [selectedProfile_eq, hselected, Option.bind_some, find?_of_nodup hids hp, Option.some_or]
  -- The loop reaches the profile with the selection unmoved, and goes on from its new id.
  have hmoved : movedSelection parse config.selectedServerId config.servers =
      movedSelection parse (some (p.derivedId parse)) after := by
    rw [hselected]
    rw [hservers] at hids ⊢
    clear hservers hselected hold hp haddresses
    induction before with
    | nil => rw [List.nil_append, movedSelection_cons, if_pos rfl]
    | cons first before ih =>
      rw [List.cons_append, List.map_cons, List.nodup_cons] at hids
      rw [List.cons_append, movedSelection_cons, if_neg, ih hids.2]
      intro heq
      refine hids.1 ?_
      rw [← Option.some.inj heq]
      exact List.mem_map_of_mem (List.mem_append_right _ List.mem_cons_self)
  have hnew : ∀ q ∈ config.servers,
      movedSelection parse config.selectedServerId config.servers = some (q.derivedId parse) →
      selectedProfile (migrateProfileIds parse config).1 = some (q.migrated parse) := by
    intro q hq hsel
    have hselection : (migrateProfileIds parse config).1.selectedServerId = some (q.derivedId parse) :=
      hsel
    rw [selectedProfile_eq, hselection, Option.bind_some, migrate_servers, find?_migrated,
      find?_of_nodup haddresses hq, Option.map_some, Option.some_or]
  rw [hold, Option.map_some]
  constructor
  · intro hsame q hq hqid
    rw [hmoved, ← hqid] at hnew
    obtain ⟨m, hm, hselm⟩ := @movedSelection_of_mem parse _ _ hq
    have hmem : m ∈ config.servers := by
      rw [hservers]
      exact List.mem_append_right _ (List.mem_cons_of_mem _ hm)
    have hboth : m.migrated parse = p.migrated parse :=
      Option.some.inj ((hnew m hmem hselm).symm.trans hsame)
    have hderived : p.derivedId parse = m.derivedId parse := by
      rw [← id_migrated, ← id_migrated, hboth]
    rw [hservers, List.map_append, List.nodup_append, List.map_cons, List.nodup_cons] at haddresses
    refine haddresses.2.1.1 ?_
    rw [hderived]
    exact List.mem_map_of_mem hm
  · intro hafter
    refine hnew p hp ?_
    rw [hmoved]
    exact movedSelection_of_absent fun q hq heq => hafter q hq (Option.some.inj heq).symm

/-- The selection names no profile, so the first one is selected: it stays so unless another one
    takes that id. -/
theorem selectedProfile_migrate_of_dangling {config : PersistedConfig} {id : String}
    (haddresses : (config.servers.map (·.derivedId parse)).Nodup)
    (hselected : config.selectedServerId = some id) (hdangling : ∀ p ∈ config.servers, p.id ≠ id) :
    selectedProfile (migrateProfileIds parse config).1 =
        (selectedProfile config).map (·.migrated parse) ↔
      ∀ q ∈ config.servers.tail, q.derivedId parse ≠ id := by
  have hmoved : (migrateProfileIds parse config).1.selectedServerId = some id := by
    have habsent : movedSelection parse (some id) config.servers = some id :=
      movedSelection_of_absent fun p hp heq => hdangling p hp (Option.some.inj heq).symm
    rw [← hselected] at habsent
    exact habsent.trans hselected
  have hnone : config.servers.find? (·.id == id) = none := by
    rw [List.find?_eq_none]
    intro p hp hid
    exact hdangling p hp (beq_iff_eq.mp hid)
  rw [selectedProfile_eq, selectedProfile_eq, hmoved, hselected, Option.bind_some, Option.bind_some,
    hnone, Option.none_or, migrate_servers, find?_migrated, List.head?_map]
  cases hservers : config.servers with
  | nil => exact ⟨fun _ _ h => (nomatch h), fun _ => rfl⟩
  | cons first rest =>
    rw [hservers, List.map_cons, List.nodup_cons] at haddresses
    rw [List.head?_cons, Option.map_some, List.tail_cons, List.find?_cons]
    cases hfirst : first.derivedId parse == id with
    | true =>
      refine ⟨fun _ q hq hid => ?_, fun _ => rfl⟩
      rw [beq_iff_eq] at hfirst
      refine haddresses.1 ?_
      rw [hfirst, ← hid]
      exact List.mem_map_of_mem hq
    | false =>
      rw [beq_eq_false_iff_ne] at hfirst
      constructor
      · intro hsame q hq hid
        have hsome : (rest.find? (·.derivedId parse == id)).isSome = true :=
          List.find?_isSome.mpr ⟨q, hq, beq_iff_eq.mpr hid⟩
        obtain ⟨found, hfound⟩ := Option.isSome_iff_exists.mp hsome
        have hderived := List.find?_some hfound
        simp only [beq_iff_eq] at hderived
        simp only [hfound, Option.map_some, Option.some_or, Option.some.injEq] at hsame
        refine hfirst ?_
        rw [← hderived, ← id_migrated, ← id_migrated, hsame]
      · intro hrest
        have hnone : rest.find? (·.derivedId parse == id) = none := by
          rw [List.find?_eq_none]
          intro q hq hid
          exact hrest q hq (beq_iff_eq.mp hid)
        simp only [hnone, Option.map_none, Option.none_or]

/-- The selection is kept: no profile takes an old id that is selected, or missing. -/
def SelectionApart (parse : UrlText) (config : PersistedConfig) : Prop :=
  ∀ id, config.selectedServerId = some id →
    (∀ before p after, config.servers = before ++ p :: after → p.id = id →
      ∀ q ∈ after, q.id ≠ p.derivedId parse) ∧
    ((∀ p ∈ config.servers, p.id ≠ id) → ∀ q ∈ config.servers.tail, q.derivedId parse ≠ id)

theorem selectedProfile_migrate {config : PersistedConfig}
    (hids : (config.servers.map (·.id)).Nodup)
    (haddresses : (config.servers.map (·.derivedId parse)).Nodup) :
    selectedProfile (migrateProfileIds parse config).1 =
        (selectedProfile config).map (·.migrated parse) ↔ SelectionApart parse config := by
  constructor
  · intro hsame id hid
    refine ⟨fun before p after hservers hp => ?_, fun hdangling => ?_⟩
    · rw [← hp] at hid
      exact (selectedProfile_migrate_of_named hids haddresses hservers hid).mp hsame
    · exact (selectedProfile_migrate_of_dangling haddresses hid hdangling).mp hsame
  · intro hapart
    cases hselected : config.selectedServerId with
    | none =>
      have hmoved : (migrateProfileIds parse config).1.selectedServerId = none := by
        have habsent : movedSelection parse none config.servers = none :=
          movedSelection_of_absent fun _ _ h => (nomatch h)
        rw [← hselected] at habsent
        exact habsent.trans hselected
      rw [selectedProfile_eq, selectedProfile_eq, hmoved, hselected, Option.bind_none,
        Option.bind_none, Option.none_or, Option.none_or, migrate_servers, List.head?_map]
    | some id =>
      by_cases hdangling : ∀ p ∈ config.servers, p.id ≠ id
      · exact (selectedProfile_migrate_of_dangling haddresses hselected hdangling).mpr
          ((hapart id hselected).2 hdangling)
      · simp only [not_forall, not_not] at hdangling
        obtain ⟨p, hp, hid⟩ := hdangling
        obtain ⟨before, after, hservers⟩ := List.append_of_mem hp
        rw [← hid] at hselected
        exact (selectedProfile_migrate_of_named hids haddresses hservers hselected).mpr
          ((hapart p.id hselected).1 before p after hservers rfl)

/-! ## Forgetting a server -/

/-- A profile is looked up alone: no earlier one answers to its id. -/
theorem serverProfile_of_mem {config : PersistedConfig} (hids : (config.servers.map (·.id)).Nodup)
    (hlookups : config.servers.Pairwise fun q p => q.credentialId ≠ some p.id) {p : ServerProfile}
    (hp : p ∈ config.servers) : serverProfile config p.id = some p := by
  obtain ⟨before, after, hservers⟩ := List.append_of_mem hp
  rw [hservers] at hids hlookups
  unfold serverProfile
  rw [hservers, List.find?_eq_some_iff_append]
  refine ⟨by rw [beq_self_eq_true, Bool.true_or], before, after, rfl, fun q hq => ?_⟩
  rw [List.map_append, List.nodup_append] at hids
  have hid : q.id ≠ p.id :=
    hids.2.2 _ (List.mem_map_of_mem hq) _ (List.mem_map_of_mem List.mem_cons_self)
  have hname : q.credentialId ≠ some p.id :=
    (List.pairwise_append.mp hlookups).2.2 q hq p List.mem_cons_self
  simp only [beq_eq_false_iff_ne.mpr hid, beq_eq_false_iff_ne.mpr hname, Bool.or_false, Bool.not_false]

/-- What a server that is looked up leaves behind when it is forgotten. -/
structure Removed (store : CredentialStore) (readKey : String → Option StoredSigningKey)
    (backend : SignerBackend) (m m' : Machine) (p : ServerProfile) : Prop where
  servers : m'.persisted.servers = m.persisted.servers.filter (·.id != p.id)
  selected : m'.persisted.selectedServerId =
    if m.persisted.selectedServerId = some p.id then m'.persisted.servers.head?.map (·.id)
    else m.persisted.selectedServerId
  token : ∀ name, store.loadToken m' name =
    if name = p.credentialName then none else store.loadToken m name
  key : ∀ q : ServerProfile, signingKeyOf store readKey backend m' q =
    if q.credentialName = p.credentialName then none else signingKeyOf store readKey backend m q

variable {store : CredentialStore} {readKey : String → Option StoredSigningKey}
  {backend : SignerBackend}

/-- The machine once the host dropped its key and the profile left the list. -/
def unlisted (backend : SignerBackend) (m : Machine) (p : ServerProfile) : Machine :=
  let m := match backend with
    | .software => m
    | .foreign => { m with hostKeys := m.hostKeys.erase p.credentialName }
  { m with persisted := { m.persisted with servers := m.persisted.servers.filter (·.id != p.id) } }

theorem loadToken_unlisted (m : Machine) (p : ServerProfile) (name : String) :
    store.loadToken (unlisted backend m p) name = store.loadToken m name := by
  unfold CredentialStore.loadToken unlisted
  cases backend with
  | software => rfl
  | foreign => rfl

theorem loadSigningKey_unlisted (m : Machine) (p : ServerProfile) (name : String) :
    store.loadSigningKey readKey (unlisted backend m p) name = store.loadSigningKey readKey m name := by
  unfold CredentialStore.loadSigningKey unlisted
  cases backend with
  | software => rfl
  | foreign => rfl

/-- The machine once the credentials are deleted too. -/
def stripped (store : CredentialStore) (backend : SignerBackend) (m : Machine) (p : ServerProfile) :
    Machine :=
  store.deleteSigningKey (store.deleteToken (unlisted backend m p) p.credentialName) p.credentialName

theorem persisted_stripped (m : Machine) (p : ServerProfile) :
    (stripped store backend m p).persisted.servers = m.persisted.servers.filter (·.id != p.id) ∧
      (stripped store backend m p).persisted.selectedServerId = m.persisted.selectedServerId := by
  unfold stripped CredentialStore.deleteSigningKey CredentialStore.deleteToken unlisted
  cases store.useConfigFile <;> cases backend <;> exact ⟨rfl, rfl⟩

theorem hostKeys_stripped (m : Machine) (p : ServerProfile) :
    (stripped store backend m p).hostKeys = (unlisted backend m p).hostKeys := by
  unfold stripped CredentialStore.deleteSigningKey CredentialStore.deleteToken
  cases store.useConfigFile <;> rfl

theorem signingKeyOf_stripped (m : Machine) (p q : ServerProfile) :
    signingKeyOf store readKey backend (stripped store backend m p) q =
      if q.credentialName = p.credentialName then none else signingKeyOf store readKey backend m q := by
  cases backend with
  | software =>
    unfold signingKeyOf stripped
    simp only [CredentialStore.loadSigningKey_deleteSigningKey,
      CredentialStore.loadSigningKey_deleteToken, loadSigningKey_unlisted]
    split
    · rfl
    · rfl
  | foreign =>
    unfold signingKeyOf
    simp only [hostKeys_stripped, unlisted]
    split
    · rename_i heq
      rw [heq, ExtTreeMap.getElem?_erase_self]
      rfl
    · rename_i hne
      rw [OrdMap.getElem?_erase_of_ne fun heq => hne heq.symm]

theorem loadToken_stripped (m : Machine) (p : ServerProfile) (name : String) :
    store.loadToken (stripped store backend m p) name =
      if name = p.credentialName then none else store.loadToken m name := by
  unfold stripped
  rw [CredentialStore.loadToken_deleteSigningKey, CredentialStore.loadToken_deleteToken,
    loadToken_unlisted]

theorem forgetServer_eq {m : Machine} {serverId : String} {p : ServerProfile}
    (h : serverProfile m.persisted serverId = some p) :
    ∃ m', forgetServer store backend true m serverId = .ok m' ∧
      Removed store readKey backend m m' p := by
  have hforget : forgetServer store backend true m serverId =
      .ok (if (stripped store backend m p).persisted.selectedServerId = some p.id then
        { stripped store backend m p with persisted :=
          { (stripped store backend m p).persisted with
            selectedServerId := (stripped store backend m p).persisted.servers.head?.map (·.id) } }
        else stripped store backend m p) := by
    unfold forgetServer
    rw [h]
    exact if_neg fun hrefused => Bool.noConfusion hrefused.2
  obtain ⟨hservers, hselected⟩ := @persisted_stripped store backend m p
  refine ⟨_, hforget, ?_⟩
  by_cases hnamed : m.persisted.selectedServerId = some p.id
  · rw [if_pos (hselected.trans hnamed)]
    exact ⟨hservers, by rw [if_pos hnamed], loadToken_stripped m p, signingKeyOf_stripped m p⟩
  · rw [if_neg (by rw [hselected]; exact hnamed)]
    exact ⟨hservers, by rw [if_neg hnamed, hselected], loadToken_stripped m p,
      signingKeyOf_stripped m p⟩

theorem filter_id_eq {servers : List ServerProfile} (hids : (servers.map (·.id)).Nodup)
    {p : ServerProfile} (hp : p ∈ servers) :
    servers.filter (·.id != p.id) = servers.filter (· ≠ p) := by
  refine List.filter_congr fun q hq => ?_
  have hiff : q.id ≠ p.id ↔ q ≠ p := by
    refine ⟨fun hne heq => hne (congrArg _ heq), fun hne heq => hne ?_⟩
    exact List.inj_on_of_nodup_map hids hq hp heq
  rw [Bool.eq_iff_iff, bne_iff_ne, decide_eq_true_iff]
  exact hiff

/-- Forgetting a profile moves the selection to the first one left, or leaves it alone. -/
theorem selectedProfile_removed {m m' : Machine} {p : ServerProfile}
    (hids : (m.persisted.servers.map (·.id)).Nodup) (hp : p ∈ m.persisted.servers)
    (h : Removed store readKey backend m m' p) :
    selectedProfile m'.persisted =
      if selectedProfile m.persisted = some p then m'.persisted.servers.head?
      else selectedProfile m.persisted := by
  -- Without a selection the first profile is selected, before and after.
  have hfirst : m'.persisted.servers.head? =
      if m.persisted.servers.head? = some p then m'.persisted.servers.head?
      else m.persisted.servers.head? := by
    split
    · rfl
    · rename_i hhead
      rw [h.servers]
      cases hservers : m.persisted.servers with
      | nil => rfl
      | cons first rest =>
        rw [hservers, List.head?_cons] at hhead
        have hkept : (first.id != p.id) = true := by
          rw [bne_iff_ne]
          intro heq
          refine hhead (congrArg some (List.inj_on_of_nodup_map hids ?_ hp heq))
          rw [hservers]
          exact List.mem_cons_self
        rw [List.filter_cons_of_pos (p := fun q : ServerProfile => q.id != p.id) hkept]
        rfl
  rw [selectedProfile_eq, selectedProfile_eq, h.selected]
  cases hselected : m.persisted.selectedServerId with
  | none =>
    rw [if_neg (by exact fun heq => (nomatch heq)), Option.bind_none, Option.bind_none,
      Option.none_or, Option.none_or]
    exact hfirst
  | some id =>
    by_cases hnamed : id = p.id
    · rw [hnamed, if_pos rfl, Option.bind_some, find?_of_nodup hids hp, Option.some_or, if_pos rfl]
      cases m'.persisted.servers with
      | nil => rfl
      | cons first rest =>
        rw [List.head?_cons, Option.map_some, Option.bind_some,
          List.find?_cons_of_pos (p := fun q : ServerProfile => q.id == first.id)
            (beq_self_eq_true first.id), Option.some_or]
    · rw [if_neg fun heq => hnamed (Option.some.inj heq), Option.bind_some, Option.bind_some]
      have hsame : m'.persisted.servers.find? (·.id == id) =
          m.persisted.servers.find? (·.id == id) := by
        rw [h.servers, List.find?_filter]
        congr 1
        funext q
        by_cases hid : q.id = id
        · rw [hid, beq_self_eq_true, bne_iff_ne.mpr hnamed]
          rfl
        · rw [beq_eq_false_iff_ne.mpr hid]
          exact decide_eq_false fun hboth => Bool.noConfusion hboth.2
      rw [hsame]
      cases hfound : m.persisted.servers.find? (·.id == id) with
      | none =>
        rw [Option.none_or, Option.none_or]
        exact hfirst
      | some q =>
        rw [Option.some_or, Option.some_or, if_neg]
        intro heq
        have hid := List.find?_some hfound
        simp only [beq_iff_eq] at hid
        exact hnamed (by rw [← hid, Option.some.inj heq])

/-! ## Profiles apart -/

/-- A profile is forgotten alone: it leaves the list with its credentials, and every other one is
    looked up and finds its credentials as before. -/
structure Forgot (store : CredentialStore) (readKey : String → Option StoredSigningKey)
    (backend : SignerBackend) (m m' : Machine) (p : ServerProfile) : Prop where
  servers : m'.persisted.servers = m.persisted.servers.filter (· ≠ p)
  selected : selectedProfile m'.persisted =
    if selectedProfile m.persisted = some p then m'.persisted.servers.head?
    else selectedProfile m.persisted
  token : store.loadToken m' p.credentialName = none
  key : signingKeyOf store readKey backend m' p = none
  others : ∀ q ∈ m.persisted.servers, q ≠ p → serverProfile m'.persisted q.id = some q ∧
    store.loadToken m' q.credentialName = store.loadToken m q.credentialName ∧
    signingKeyOf store readKey backend m' q = signingKeyOf store readKey backend m q

/-- A machine whose configuration lists profiles under distinct ids. -/
structure Enrolled where
  machine : Machine
  distinct : (machine.persisted.servers.map (·.id)).Nodup

def Enrolled.migrated (parse : UrlText) (e : Enrolled) : Machine :=
  { e.machine with persisted := (migrateProfileIds parse e.machine.persisted).1 }

/-- Migration keeps profiles apart. -/
structure KeptApart (parse : UrlText) (store : CredentialStore)
    (readKey : String → Option StoredSigningKey) (backend : SignerBackend) (e : Enrolled) : Prop where
  ids : ((e.migrated parse).persisted.servers.map (·.id)).Nodup
  derived : ∀ p ∈ (e.migrated parse).persisted.servers, p.id = p.derivedId parse
  selected : selectedProfile (e.migrated parse).persisted =
    (selectedProfile e.machine.persisted).map (·.migrated parse)
  credentials : (e.migrated parse).persisted.servers.map (·.credentialName) =
    e.machine.persisted.servers.map (·.credentialName)
  details : (e.migrated parse).persisted.servers.map (·.details) =
    e.machine.persisted.servers.map (·.details)
  rest : (e.migrated parse).persisted =
    { e.machine.persisted with
      servers := (e.migrated parse).persisted.servers
      selectedServerId := (e.migrated parse).persisted.selectedServerId }
  again : migrateProfileIds parse (e.migrated parse).persisted = ((e.migrated parse).persisted, false)
  forgets : ∀ p ∈ (e.migrated parse).persisted.servers,
    ∃ m', forgetServer store backend true (e.migrated parse) p.id = .ok m' ∧
      Forgot store readKey backend (e.migrated parse) m' p

/-- The name a profile answers to besides its derived id: the one of its credentials, where it was
    given one or its id changes. -/
def ServerProfile.heldName (parse : UrlText) (p : ServerProfile) : Option String :=
  if p.id = p.derivedId parse then p.credentialId else some p.credentialName

/-- Addresses, old ids and credential names do not meet. -/
structure Apart (parse : UrlText) (store : CredentialStore)
    (readKey : String → Option StoredSigningKey) (backend : SignerBackend) (m : Machine) : Prop where
  addresses : (m.persisted.servers.map (·.derivedId parse)).Nodup
  selection : SelectionApart parse m.persisted
  lookups : m.persisted.servers.Pairwise fun q p => q.heldName parse ≠ some (p.derivedId parse)
  credentials : m.persisted.servers.Pairwise fun p q => p.credentialName = q.credentialName →
    store.loadToken m p.credentialName = none ∧ signingKeyOf store readKey backend m p = none

theorem credentialId_migrated (p : ServerProfile) :
    (p.migrated parse).credentialId = p.heldName parse := by
  unfold ServerProfile.migrated ServerProfile.heldName
  split
  · rfl
  · rfl

theorem map_id_migrated (servers : List ServerProfile) :
    (servers.map (·.migrated parse)).map (·.id) = servers.map (·.derivedId parse) := by
  rw [List.map_map]
  exact List.map_congr_left fun p _ => id_migrated p

theorem servers_migrated (e : Enrolled) :
    (e.migrated parse).persisted.servers = e.machine.persisted.servers.map (·.migrated parse) :=
  migrate_servers e.machine.persisted

/-- No credential moves. -/
theorem loadToken_migrated (e : Enrolled) (name : String) :
    store.loadToken (e.migrated parse) name = store.loadToken e.machine name := rfl

theorem signingKeyOf_migrated (e : Enrolled) (p : ServerProfile) :
    signingKeyOf store readKey backend (e.migrated parse) (p.migrated parse) =
      signingKeyOf store readKey backend e.machine p := by
  unfold signingKeyOf
  rw [credentialName_migrated]
  rfl

theorem pairwise_of_append {α : Type} {r : α → α → Prop} {l : List α}
    (h : ∀ before a after, l = before ++ a :: after → ∀ b ∈ before, r b a) : l.Pairwise r := by
  induction l with
  | nil => exact List.Pairwise.nil
  | cons first rest ih =>
    refine List.pairwise_cons.mpr ⟨fun a ha => ?_, ih fun before a after hrest b hb => ?_⟩
    · obtain ⟨before, after, hrest⟩ := List.append_of_mem ha
      exact h (first :: before) a after (by rw [hrest]; rfl) first List.mem_cons_self
    · exact h (first :: before) a after (by rw [hrest]; rfl) b (List.mem_cons_of_mem _ hb)

/-- Where each profile is forgotten alone, no earlier one answers to the id of a later one. -/
theorem lookups_of_forgets {m : Machine} (hids : (m.persisted.servers.map (·.id)).Nodup)
    (hforgets : ∀ p ∈ m.persisted.servers, ∃ m', forgetServer store backend true m p.id = .ok m' ∧
      Forgot store readKey backend m m' p) :
    m.persisted.servers.Pairwise fun q p => q.credentialId ≠ some p.id := by
  refine pairwise_of_append fun before p after hservers q hq hname => ?_
  have hp : p ∈ m.persisted.servers := by
    rw [hservers]
    exact List.mem_append_right _ List.mem_cons_self
  -- The lookup stops at `q` at the latest, so it finds another profile than `p`.
  have hfound : ∃ r ∈ before, serverProfile m.persisted p.id = some r := by
    have hsome : (before.find? fun r => r.id == p.id || r.credentialId == some p.id).isSome = true :=
      List.find?_isSome.mpr ⟨q, hq, by rw [hname, beq_self_eq_true, Bool.or_true]⟩
    obtain ⟨r, hr⟩ := Option.isSome_iff_exists.mp hsome
    refine ⟨r, List.mem_of_find?_eq_some hr, ?_⟩
    unfold serverProfile
    rw [hservers, List.find?_append, hr, Option.some_or]
  obtain ⟨r, hr, hfound⟩ := hfound
  have hne : r.id ≠ p.id := by
    rw [hservers, List.map_append, List.nodup_append] at hids
    exact hids.2.2 _ (List.mem_map_of_mem hr) _ (List.mem_map_of_mem List.mem_cons_self)
  obtain ⟨m', hforget, hforgot⟩ := hforgets p hp
  obtain ⟨other, hother, hremoved⟩ := @forgetServer_eq store readKey backend _ _ _ hfound
  rw [hforget, Except.ok.injEq] at hother
  have hkept : p ∈ m'.persisted.servers := by
    rw [hother, hremoved.servers]
    exact List.mem_filter.mpr ⟨hp, bne_iff_ne.mpr hne.symm⟩
  rw [hforgot.servers, List.mem_filter, decide_eq_true_iff] at hkept
  exact hkept.2 rfl

theorem signingKeyOf_congr (m : Machine) {p q : ServerProfile}
    (h : p.credentialName = q.credentialName) :
    signingKeyOf store readKey backend m p = signingKeyOf store readKey backend m q := by
  unfold signingKeyOf
  rw [h]

theorem credentials_of_forgets {m : Machine} (hids : (m.persisted.servers.map (·.id)).Nodup)
    (hforgets : ∀ p ∈ m.persisted.servers, ∃ m', forgetServer store backend true m p.id = .ok m' ∧
      Forgot store readKey backend m m' p) :
    m.persisted.servers.Pairwise fun p q => p.credentialName = q.credentialName →
      store.loadToken m p.credentialName = none ∧ signingKeyOf store readKey backend m p = none := by
  refine pairwise_of_append fun before q after hservers p hp hsame => ?_
  have hq : q ∈ m.persisted.servers := by
    rw [hservers]
    exact List.mem_append_right _ List.mem_cons_self
  have hmem : p ∈ m.persisted.servers := by
    rw [hservers]
    exact List.mem_append_left _ hp
  have hne : p ≠ q := by
    rw [hservers, List.map_append, List.nodup_append] at hids
    intro heq
    exact hids.2.2 _ (List.mem_map_of_mem hp) _ (List.mem_map_of_mem List.mem_cons_self)
      (congrArg (·.id) heq)
  obtain ⟨m', -, hforgot⟩ := hforgets q hq
  obtain ⟨-, htoken, hkey⟩ := hforgot.others p hmem hne
  refine ⟨?_, by rw [← hkey, signingKeyOf_congr m' hsame, hforgot.key]⟩
  rw [← htoken, hsame]
  exact hforgot.token

theorem forgot_of_apart {m : Machine} (hids : (m.persisted.servers.map (·.id)).Nodup)
    (hlookups : m.persisted.servers.Pairwise fun q p => q.credentialId ≠ some p.id)
    (hcredentials : m.persisted.servers.Pairwise fun p q => p.credentialName = q.credentialName →
      store.loadToken m p.credentialName = none ∧ signingKeyOf store readKey backend m p = none)
    {p : ServerProfile} (hp : p ∈ m.persisted.servers) :
    ∃ m', forgetServer store backend true m p.id = .ok m' ∧ Forgot store readKey backend m m' p := by
  obtain ⟨m', hforget, hremoved⟩ := @forgetServer_eq store readKey backend _ _ _
    (serverProfile_of_mem hids hlookups hp)
  have hleft : m'.persisted.servers.Sublist m.persisted.servers := by
    rw [hremoved.servers]
    exact List.filter_sublist
  have hshared : ∀ q ∈ m.persisted.servers, q ≠ p → q.credentialName = p.credentialName →
      store.loadToken m q.credentialName = none ∧ signingKeyOf store readKey backend m q = none := by
    have hsymm : Std.Symm fun p q : ServerProfile => p.credentialName = q.credentialName →
        store.loadToken m p.credentialName = none ∧ signingKeyOf store readKey backend m p = none := by
      refine ⟨fun a b hab hsame => ?_⟩
      rw [hsame, signingKeyOf_congr m hsame]
      exact hab hsame.symm
    exact fun q hq hne => hcredentials.forall hq hp hne
  refine ⟨m', hforget, ?_, selectedProfile_removed hids hp hremoved, ?_, ?_, fun q hq hne => ⟨?_, ?_, ?_⟩⟩
  · rw [hremoved.servers, filter_id_eq hids hp]
  · rw [hremoved.token, if_pos rfl]
  · rw [hremoved.key, if_pos rfl]
  · refine serverProfile_of_mem (hids.sublist (hleft.map _)) (hlookups.sublist hleft) ?_
    rw [hremoved.servers, filter_id_eq hids hp]
    exact List.mem_filter.mpr ⟨hq, decide_eq_true hne⟩
  · rw [hremoved.token]
    split
    · rename_i hsame
      exact (hshared q hq hne hsame).1.symm
    · rfl
  · rw [hremoved.key]
    split
    · rename_i hsame
      exact (hshared q hq hne hsame).2.symm
    · rfl

/-- Migration keeps profiles apart exactly when addresses, old ids and credential names do not
    meet. -/
theorem profiles_kept_apart (parse : UrlText) (store : CredentialStore)
    (readKey : String → Option StoredSigningKey) (backend : SignerBackend) (e : Enrolled) :
    KeptApart parse store readKey backend e ↔ Apart parse store readKey backend e.machine := by
  have hservers := @servers_migrated parse e
  have hlookups : ((e.migrated parse).persisted.servers.Pairwise fun q p =>
        q.credentialId ≠ some p.id) ↔
      e.machine.persisted.servers.Pairwise fun q p => q.heldName parse ≠ some (p.derivedId parse) := by
    rw [hservers, List.pairwise_map]
    simp only [credentialId_migrated, id_migrated]
  have hcredentials : ((e.migrated parse).persisted.servers.Pairwise fun p q =>
        p.credentialName = q.credentialName →
          store.loadToken (e.migrated parse) p.credentialName = none ∧
            signingKeyOf store readKey backend (e.migrated parse) p = none) ↔
      e.machine.persisted.servers.Pairwise fun p q => p.credentialName = q.credentialName →
        store.loadToken e.machine p.credentialName = none ∧
          signingKeyOf store readKey backend e.machine p = none := by
    rw [hservers, List.pairwise_map]
    simp only [credentialName_migrated, signingKeyOf_migrated, loadToken_migrated]
  have hids : ((e.migrated parse).persisted.servers.map (·.id)).Nodup ↔
      (e.machine.persisted.servers.map (·.derivedId parse)).Nodup := by
    rw [hservers, map_id_migrated]
  constructor
  · intro h
    have haddresses := hids.mp h.ids
    exact ⟨haddresses, (selectedProfile_migrate e.distinct haddresses).mp h.selected,
      hlookups.mp (lookups_of_forgets h.ids h.forgets),
      hcredentials.mp (credentials_of_forgets h.ids h.forgets)⟩
  · intro h
    have hnodup := hids.mpr h.addresses
    refine ⟨hnodup, fun p hp => ?_, (selectedProfile_migrate e.distinct h.addresses).mpr h.selection,
      ?_, ?_, rfl, migrate_migrate e.machine.persisted,
      fun p hp => forgot_of_apart hnodup (hlookups.mpr h.lookups) (hcredentials.mpr h.credentials) hp⟩
    · rw [hservers] at hp
      obtain ⟨q, -, rfl⟩ := List.mem_map.mp hp
      rw [id_migrated, derivedId_migrated]
    · rw [hservers, List.map_map]
      exact List.map_congr_left fun p _ => credentialName_migrated p
    · rw [hservers, List.map_map]
      exact List.map_congr_left fun p _ => details_migrated p

/-! ## Two spellings of one address -/

def legacyProfile (id address : String) : ServerProfile where
  id := id
  credentialId := none
  name := "Nod"
  baseUrlString := address
  deviceName := "Laptop"
  deviceId := none
  userId := none
  userName := none

def twoSpellings : Enrolled where
  machine :=
    { persisted :=
        { PersistedConfig.default with
          servers := [legacyProfile "home" "https://nod.example.com",
            legacyProfile "work" "https://nod.example.com/"]
          selectedServerId := some "work" }
      keyring := ∅
      hostKeys := ∅ }
  distinct := by decide

/-- An address with no path is written with the path `/`. -/
def rooted : UrlText := fun address => some (address ++ "/")

theorem derivedId_congr {p q : ServerProfile}
    (h : normalizeBaseUrl p.baseUrlString = normalizeBaseUrl q.baseUrlString) :
    p.derivedId parse = q.derivedId parse := by
  unfold ServerProfile.derivedId profileIdFor
  rw [h]

/-- Distinct profiles whose addresses differ by a trailing slash get one id. -/
theorem two_spellings_collide :
    ¬ ((twoSpellings.migrated rooted).persisted.servers.map (·.id)).Nodup ∧
      ¬ KeptApart rooted ⟨true⟩ (fun _ => none) .software twoSpellings := by
  have hcollide : ¬ ((twoSpellings.migrated rooted).persisted.servers.map (·.id)).Nodup := by
    rw [servers_migrated, map_id_migrated]
    have hlisted : twoSpellings.machine.persisted.servers =
        [legacyProfile "home" "https://nod.example.com",
          legacyProfile "work" "https://nod.example.com/"] := rfl
    have htrimmed : trimSlashes (Text.trim "https://nod.example.com") = "https://nod.example.com" := by
      unfold trimSlashes Text.trim
      rw [String.toList_ofList, String.toList_ofList]
      decide
    have hslash : trimSlashes (Text.trim "https://nod.example.com/") = "https://nod.example.com" := by
      unfold trimSlashes Text.trim
      rw [String.toList_ofList, String.toList_ofList]
      decide
    have hnormalized : normalizeBaseUrl "https://nod.example.com" =
        normalizeBaseUrl "https://nod.example.com/" := by
      unfold normalizeBaseUrl
      rw [htrimmed, hslash]
    have hsame : (legacyProfile "home" "https://nod.example.com").derivedId rooted =
        (legacyProfile "work" "https://nod.example.com/").derivedId rooted :=
      derivedId_congr hnormalized
    rw [hlisted, List.map_cons, List.map_cons, hsame]
    intro hnodup
    exact (List.nodup_cons.mp hnodup).1 List.mem_cons_self
  exact ⟨hcollide, fun h => hcollide h.ids⟩

end Nod.Client
