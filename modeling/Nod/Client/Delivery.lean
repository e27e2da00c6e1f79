import Nod.Client.Runtime
import Mathlib.Data.List.Pairwise

/-
  One user's requests on their way from the server to the client: live events in a queue,
  snapshot fetches and single-request fetches, in any interleaving. The server's versions of a
  request have non-decreasing `updated_at` and a handled status is final.

  A version is never replaced by an older one, without conditions. A request once held handled
  stays so (`client_never_goes_back`) unless a snapshot drops it, or the end of the registration
  clears it, while a pending version of it is still on its way: the reducer knows a version to be
  stale only from the held copy, so the dropped request comes back as pending
  (`dropped_request_comes_back`).
-/

namespace Nod.Client

open Std Lib Nod.Proto StateReducer

/-! ## The world -/

/-- A refresh between its first read and the reducer lock. -/
structure SnapshotFetch where
  revision : Nat
  reply : Option SnapshotReply

structure World where
  /-- every version of the user's requests the server has had, oldest first -/
  served : List Request
  events : List SyncEnvelope
  /-- the registration was refused: the sync task is about to clear the loaded data -/
  refused : Bool
  snapshot : Option SnapshotFetch
  /-- versions fetched one by one, or returned by a submission, and not applied yet -/
  targeted : List Request
  client : StateReducer

/-- The server's present version of a request. -/
def latest (served : List Request) (id : String) : Option Request :=
  served.reverse.find? (·.id == id)

def IsLatest (w : World) (r : Request) : Prop := latest w.served r.id = some r

instance (w : World) (r : Request) : Decidable (IsLatest w r) :=
  inferInstanceAs (Decidable (_ = _))

/-- What the server promises of a new version of a request. -/
def Succeeds (v r : Request) : Prop :=
  v.id = r.id → v.updatedAt ≤ r.updatedAt ∧ (isPending v = false → r.status = v.status)

instance (v r : Request) : Decidable (Succeeds v r) := inferInstanceAs (Decidable (_ → _))

inductive Action where
  /-- the server commits a version -/
  | serve (r : Request)
  /-- the server sends a live event with a present version -/
  | send (envelope : SyncEnvelope)
  | receive
  /-- the connection ends or its task is stopped, and what it has buffered is gone -/
  | disconnect
  /-- the server refuses the connection or a refresh of the sync task as unauthorized -/
  | refuse
  | clearRefused
  | startSnapshot
  /-- the server answers the fetch from its present state -/
  | answerSnapshot (reply : SnapshotReply)
  | applySnapshot (now : String)
  | dropSnapshot
  /-- the server answers a targeted read or a submission -/
  | fetch (r : Request)
  | openFetched (r : Request)
  | submitted (serverId : String) (r : Request)
  | dropFetched (r : Request)

/-- One action, with the notification candidates it produces. An action that cannot happen
    changes nothing. -/
def World.step (w : World) : Action → World × List Request
  | .serve r =>
    if ∀ v ∈ w.served, Succeeds v r then ({ w with served := w.served ++ [r] }, []) else (w, [])
  | .send envelope =>
    if w.refused = false ∧ ∀ r ∈ envelope.payload.request, IsLatest w r then
      ({ w with events := w.events ++ [envelope] }, [])
    else (w, [])
  | .receive =>
    match w.events with
    | [] => (w, [])
    | envelope :: rest =>
      -- a revocation of this device is applied like any other event, and ends the connection
      let revoked := isCurrentDeviceRevoked w.client envelope
      ({ w with
          events := if revoked then [] else rest
          refused := revoked
          client := (envelopeLocked w.client envelope).1 },
        (envelopeLocked w.client envelope).2)
  | .disconnect => ({ w with events := [], refused := false }, [])
  | .refuse => ({ w with events := [], refused := true }, [])
  | .clearRefused =>
    if w.refused then
      ({ w with refused := false, client := (revokedLocked w.client).1 }, [])
    else (w, [])
  | .startSnapshot =>
    -- refreshes are serialised by the snapshot lock
    match w.snapshot with
    | none => ({ w with snapshot := some ⟨w.client.revision, none⟩ }, [])
    | some _ => (w, [])
  | .answerSnapshot reply =>
    match w.snapshot with
    | some ⟨revision, none⟩ =>
      if ∀ r ∈ reply.requests, IsLatest w r then
        ({ w with snapshot := some ⟨revision, some reply⟩ }, [])
      else (w, [])
    | _ => (w, [])
  | .applySnapshot now =>
    match w.snapshot with
    | some ⟨revision, some reply⟩ =>
      ({ w with snapshot := none, client := (refreshLocked w.client reply revision now).1 },
        (refreshLocked w.client reply revision now).2.1)
    | _ => (w, [])
  | .dropSnapshot => ({ w with snapshot := none }, [])
  | .fetch r =>
    if IsLatest w r then ({ w with targeted := r :: w.targeted }, []) else (w, [])
  | .openFetched r =>
    if r ∈ w.targeted then
      ({ w with targeted := w.targeted.erase r, client := openLocked w.client r }, [])
    else (w, [])
  | .submitted serverId r =>
    if r ∈ w.targeted then
      ({ w with targeted := w.targeted.erase r, client := targetedLocked w.client serverId r },
        [])
    else (w, [])
  | .dropFetched r => ({ w with targeted := w.targeted.erase r }, [])

def World.run (w : World) (actions : List Action) : World :=
  actions.foldl (fun w a => (w.step a).1) w

/-- The candidates of a run, in order. -/
def World.candidates (w : World) : List Action → List Request
  | [] => []
  | a :: rest => (w.step a).2 ++ World.candidates (w.step a).1 rest

def World.start (servers : List ServerProfile) (selectedServerId : Option String)
    (notificationSound : String) : World where
  served := []
  events := []
  refused := false
  snapshot := none
  targeted := []
  client := StateReducer.new servers selectedServerId notificationSound

/-- The versions that are still to reach the reducer one by one. -/
def World.inFlight (w : World) : List Request :=
  w.events.filterMap (·.payload.request) ++ w.targeted

theorem World.mem_inFlight {w : World} {r : Request} :
    r ∈ w.inFlight ↔ (∃ e ∈ w.events, e.payload.request = some r) ∨ r ∈ w.targeted := by
  unfold World.inFlight
  rw [List.mem_append, List.mem_filterMap]

/-! ## Order of versions -/

/-- `r` is not older than `v`, and not pending when `v` is handled. -/
def Precedes (v r : Request) : Prop :=
  v.updatedAt ≤ r.updatedAt ∧ (isPending v = false → isPending r = false)

theorem Precedes.refl (v : Request) : Precedes v v := ⟨Int.le_refl _, id⟩

def Ordered (served : List Request) : Prop :=
  served.Pairwise fun v r => v.id = r.id → Precedes v r

theorem Succeeds.precedes {v r : Request} (h : Succeeds v r) (hid : v.id = r.id) :
    Precedes v r := by
  obtain ⟨hle, hstatus⟩ := h hid
  refine ⟨hle, fun hp => ?_⟩
  unfold isPending at *
  rw [hstatus hp]
  exact hp

theorem ordered_append {served : List Request} {r : Request} (h : Ordered served)
    (hr : ∀ v ∈ served, Succeeds v r) : Ordered (served ++ [r]) := by
  refine List.pairwise_append.mpr ⟨h, List.pairwise_singleton _ _, fun v hv r' hr' hid => ?_⟩
  rw [List.mem_singleton.mp hr'] at hid ⊢
  exact (hr v hv).precedes hid

theorem mem_of_latest {served : List Request} {id : String} {r : Request}
    (h : latest served id = some r) : r ∈ served ∧ r.id = id := by
  have hmem := List.mem_of_find?_eq_some h
  have hid := List.find?_some h
  exact ⟨List.mem_reverse.mp hmem, eq_of_beq hid⟩

theorem precedes_latest {served : List Request} (h : Ordered served) {v r : Request}
    (hv : v ∈ served) (hr : latest served v.id = some r) : Precedes v r := by
  obtain ⟨as, bs, hsplit, hnone⟩ := List.find?_eq_some_iff_append.mp hr |>.2
  have hserved : served = bs.reverse ++ r :: as.reverse := by
    rw [← List.reverse_reverse served, hsplit]
    simp
  have hid : v.id = r.id := (mem_of_latest hr).2.symm
  rw [hserved] at h hv
  obtain ⟨-, hcons, hcross⟩ := List.pairwise_append.mp h
  rcases List.mem_append.mp hv with hbefore | hafter
  · exact hcross v hbefore r List.mem_cons_self hid
  · rcases List.mem_cons.mp hafter with rfl | hlater
    · exact Precedes.refl v
    · have hne := hnone v (List.mem_reverse.mp hlater)
      simp at hne

/-- A pending version is not newer than a handled one of the same request. -/
theorem updatedAt_le_of_pending {served : List Request} (h : Ordered served) {p r : Request}
    (hp : p ∈ served) (hr : r ∈ served) (hid : p.id = r.id) (hpend : isPending p = true)
    (hhandled : isPending r = false) : p.updatedAt ≤ r.updatedAt := by
  have hlater : ∀ ⦃p⦄, p ∈ served → ∀ ⦃r⦄, r ∈ served → p.id = r.id → isPending p = true →
      isPending r = false → p.updatedAt ≤ r.updatedAt := by
    refine List.Pairwise.forall_of_forall_of_flip ?_ ?_ ?_
    · intro a _ _ hpend hhandled
      rw [hpend] at hhandled
      cases hhandled
    · exact h.imp fun hab hid _ _ => (hab hid).1
    · refine h.imp fun hab hid hpend hhandled => ?_
      -- a handled version is never followed by a pending one
      have := (hab hid.symm).2 hhandled
      rw [hpend] at this
      cases this
  exact hlater hp hr hid hpend hhandled

/-! ## What one action can do -/

/-- One action as seen by the map of held requests. -/
inductive Moves (w : World) (a : Action) (w' : World) : Prop where
  | idle (hserved : w'.served = w.served) (hflight : w'.inFlight ⊆ w.inFlight)
      (hsnap : w'.snapshot = w.snapshot ∨ w'.snapshot = none)
      (hmap : SameMap w.client w'.client)
  | commit (r : Request) (hserved : w'.served = w.served ++ [r])
      (hsucceeds : ∀ v ∈ w.served, Succeeds v r) (hflight : w'.inFlight = w.inFlight)
      (hsnap : w'.snapshot = w.snapshot) (hmap : SameMap w.client w'.client)
  | depart (r : Request) (hlatest : IsLatest w r) (hserved : w'.served = w.served)
      (hflight : ∀ x ∈ w'.inFlight, x = r ∨ x ∈ w.inFlight) (hsnap : w'.snapshot = w.snapshot)
      (hmap : SameMap w.client w'.client)
  | arrive (r : Request) (hr : r ∈ w.inFlight) (hserved : w'.served = w.served)
      (hflight : w'.inFlight ⊆ w.inFlight) (hsnap : w'.snapshot = w.snapshot)
      (htook : Took w.client w'.client r)
  | begins (hserved : w'.served = w.served) (hflight : w'.inFlight = w.inFlight)
      (hsnap : w'.snapshot = some ⟨w.client.revision, none⟩)
      (hmap : SameMap w.client w'.client)
  | answer (revision : Nat) (reply : SnapshotReply)
      (hbefore : w.snapshot = some ⟨revision, none⟩)
      (hlatest : ∀ r ∈ reply.requests, IsLatest w r) (hserved : w'.served = w.served)
      (hflight : w'.inFlight = w.inFlight)
      (hsnap : w'.snapshot = some ⟨revision, some reply⟩) (hmap : SameMap w.client w'.client)
  | clears (ha : a = .clearRefused) (hrefused : w.refused = true) (hserved : w'.served = w.served)
      (hflight : w'.inFlight = w.inFlight) (hsnap : w'.snapshot = w.snapshot)
      (hmap : w'.client.requestsById = ∅) (hrevision : w'.client.revision = w.client.revision)
  | merge (revision : Nat) (reply : SnapshotReply) (now : String) (ha : a = .applySnapshot now)
      (hbefore : w.snapshot = some ⟨revision, some reply⟩) (hserved : w'.served = w.served)
      (hflight : w'.inFlight = w.inFlight) (hsnap : w'.snapshot = none)
      (hmap : w'.client.requestsById = w.client.mergeSnapshot reply.requests revision)

theorem moves_stay (w : World) (a : Action) : Moves w a w :=
  .idle rfl (fun _ h => h) (.inl rfl) (SameMap.refl _)

theorem inFlight_erase_subset (w : World) (r : Request) (client : StateReducer) :
    ({ w with targeted := w.targeted.erase r, client := client } : World).inFlight ⊆
      w.inFlight := by
  intro x hx
  rw [World.mem_inFlight] at hx ⊢
  exact hx.imp_right List.mem_of_mem_erase

theorem inFlight_disconnected (w : World) (refused : Bool) :
    ({ w with events := [], refused := refused } : World).inFlight ⊆ w.inFlight := by
  intro x hx
  rw [World.mem_inFlight] at hx ⊢
  exact hx.imp_left fun ⟨_, he, _⟩ => absurd he List.not_mem_nil

theorem moves_step (w : World) (a : Action) : Moves w a (w.step a).1 := by
  cases a with
  | serve r =>
    unfold World.step
    dsimp only
    split
    · exact .commit r rfl ‹_› rfl rfl (SameMap.refl _)
    · exact moves_stay w _
  | send envelope =>
    unfold World.step
    dsimp only
    split
    · cases hreq : envelope.payload.request with
      | none =>
        refine .idle rfl (fun x hx => ?_) (.inl rfl) (SameMap.refl _)
        rw [World.mem_inFlight] at hx ⊢
        refine hx.imp_left fun ⟨e, he, hxe⟩ => ⟨e, ?_, hxe⟩
        rcases List.mem_append.mp he with he | he
        · exact he
        · rw [List.mem_singleton.mp he, hreq] at hxe
          cases hxe
      | some r =>
        have hopen : w.refused = false ∧ ∀ r ∈ envelope.payload.request, IsLatest w r := ‹_ ∧ _›
        have hlatest : IsLatest w r := hopen.2 r hreq
        refine .depart r hlatest rfl (fun x hx => ?_) rfl (SameMap.refl _)
        rw [World.mem_inFlight] at hx ⊢
        rcases hx with ⟨e, he, hxe⟩ | ht
        · rcases List.mem_append.mp he with he | he
          · exact .inr (.inl ⟨e, he, hxe⟩)
          · rw [List.mem_singleton.mp he, hreq] at hxe
            exact .inl (Option.some.inj hxe).symm
        · exact .inr (.inr ht)
    · exact moves_stay w _
  | receive =>
    unfold World.step
    dsimp only
    cases hevents : w.events with
    | nil => exact moves_stay w _
    | cons envelope rest =>
      dsimp only
      have hsub : ({ w with
          events := if isCurrentDeviceRevoked w.client envelope then [] else rest
          refused := isCurrentDeviceRevoked w.client envelope
          client := (envelopeLocked w.client envelope).1 } : World).inFlight ⊆ w.inFlight := by
        intro x hx
        rw [World.mem_inFlight] at hx ⊢
        rw [hevents]
        refine hx.imp_left fun ⟨e, he, hxe⟩ => ⟨e, List.mem_cons_of_mem _ ?_, hxe⟩
        dsimp only at he
        split at he
        · exact absurd he List.not_mem_nil
        · exact he
      cases hreq : envelope.payload.request with
      | none =>
        refine .idle rfl hsub (.inl rfl) ?_
        rw [envelopeLocked_of_none hreq]
        exact sameMap_beforeRequest w.client envelope
      | some r =>
        refine .arrive r ?_ rfl hsub rfl (took_envelopeLocked hreq)
        rw [World.mem_inFlight, hevents]
        exact .inl ⟨envelope, List.mem_cons_self, hreq⟩
  | disconnect => exact .idle rfl (inFlight_disconnected w false) (.inl rfl) (SameMap.refl _)
  | refuse => exact .idle rfl (inFlight_disconnected w true) (.inl rfl) (SameMap.refl _)
  | clearRefused =>
    unfold World.step
    dsimp only
    split
    · exact .clears rfl ‹_› rfl rfl rfl rfl rfl
    · exact moves_stay w _
  | startSnapshot =>
    unfold World.step
    dsimp only
    split
    · exact .begins rfl rfl rfl (SameMap.refl _)
    · exact moves_stay w _
  | answerSnapshot reply =>
    unfold World.step
    dsimp only
    split
    · split
      · exact .answer _ reply ‹_› ‹_› rfl rfl rfl (SameMap.refl _)
      · exact moves_stay w _
    · exact moves_stay w _
  | applySnapshot now =>
    unfold World.step
    dsimp only
    split
    · exact .merge _ _ now rfl ‹_› rfl rfl rfl (refreshLocked_map _ _ _ _).1
    · exact moves_stay w _
  | dropSnapshot => exact .idle rfl (fun _ h => h) (.inr rfl) (SameMap.refl _)
  | fetch r =>
    unfold World.step
    dsimp only
    split
    · refine .depart r ‹_› rfl (fun x hx => ?_) rfl (SameMap.refl _)
      rw [World.mem_inFlight] at hx ⊢
      rcases hx with he | ht
      · exact .inr (.inl he)
      · exact (List.mem_cons.mp ht).imp_right .inr
    · exact moves_stay w _
  | openFetched r =>
    unfold World.step
    dsimp only
    split
    · exact .arrive r (World.mem_inFlight.mpr (.inr ‹_›)) rfl (inFlight_erase_subset w r _) rfl
        (took_openLocked w.client r)
    · exact moves_stay w _
  | submitted serverId r =>
    unfold World.step
    dsimp only
    split
    · by_cases hserver : w.client.state.selectedServerId = some serverId
      · refine .arrive r (World.mem_inFlight.mpr (.inr ‹_›)) rfl (inFlight_erase_subset w r _) rfl ?_
        unfold targetedLocked
        rw [if_pos hserver]
        exact took_applyRequestUpdate w.client r
      · refine .idle rfl (inFlight_erase_subset w r _) (.inl rfl) ?_
        unfold targetedLocked
        rw [if_neg hserver]
        exact SameMap.refl _
    · exact moves_stay w _
  | dropFetched r =>
    exact .idle rfl (inFlight_erase_subset w r w.client) (.inl rfl) (SameMap.refl _)

theorem cached_step {w : World} (h : Cached w.client) (a : Action) :
    Cached (w.step a).1.client := by
  unfold World.step
  cases a with
  | receive =>
    dsimp only
    split
    · exact h
    · exact cached_envelopeLocked h _
  | applySnapshot now =>
    dsimp only
    split
    · exact cached_refreshLocked h _ _ _
    · exact h
  | openFetched r =>
    dsimp only
    split
    · exact cached_openLocked h r
    · exact h
  | submitted serverId r =>
    dsimp only
    split
    · exact cached_targetedLocked h serverId r
    · exact h
  | serve r => dsimp only; split <;> exact h
  | send envelope => dsimp only; split <;> exact h
  | clearRefused =>
    dsimp only
    split
    · exact cached_revokedLocked w.client
    · exact h
  | startSnapshot => dsimp only; split <;> exact h
  | answerSnapshot reply =>
    dsimp only
    split
    · split <;> exact h
    · exact h
  | disconnect | refuse | dropSnapshot => exact h
  | fetch r => dsimp only; split <;> exact h
  | dropFetched r => exact h

/-- A candidate is a request that the action left pending in the map. -/
theorem of_mem_candidates {w : World} (h : Cached w.client) {a : Action} {c : Request}
    (hc : c ∈ (w.step a).2) :
    (w.step a).1.client.requestsById[c.id]? = some c ∧ isPending c = true := by
  unfold World.step at hc ⊢
  cases a with
  | receive =>
    dsimp only at hc ⊢
    split at hc
    · exact absurd hc List.not_mem_nil
    · obtain ⟨hreq, hfresh, hp, -⟩ := mem_candidates_envelopeLocked h hc
      exact ⟨(took_envelopeLocked hreq).get?_self hfresh, hp⟩
  | applySnapshot now =>
    dsimp only at hc ⊢
    split at hc
    · obtain ⟨-, hget, hp, -⟩ := (mem_candidates_refreshLocked h).mp hc
      exact ⟨hget, hp⟩
    · exact absurd hc List.not_mem_nil
  | serve r => dsimp only at hc; split at hc <;> exact absurd hc List.not_mem_nil
  | send envelope => dsimp only at hc; split at hc <;> exact absurd hc List.not_mem_nil
  | clearRefused => dsimp only at hc; split at hc <;> exact absurd hc List.not_mem_nil
  | startSnapshot => dsimp only at hc; split at hc <;> exact absurd hc List.not_mem_nil
  | answerSnapshot reply =>
    dsimp only at hc
    split at hc
    · split at hc <;> exact absurd hc List.not_mem_nil
    · exact absurd hc List.not_mem_nil
  | disconnect | refuse | dropSnapshot => exact absurd hc List.not_mem_nil
  | fetch r => dsimp only at hc; split at hc <;> exact absurd hc List.not_mem_nil
  | openFetched r => dsimp only at hc; split at hc <;> exact absurd hc List.not_mem_nil
  | submitted serverId r => dsimp only at hc; split at hc <;> exact absurd hc List.not_mem_nil
  | dropFetched r => exact absurd hc List.not_mem_nil

/-! ## Everything comes from the server -/

def HeldAs (w : World) (id : String) (r : Request) : Prop := w.client.requestsById[id]? = some r

/-- What holds in every reachable world: all versions are the server's, and a snapshot's answer
    is not older than what was held when its fetch started. -/
structure Served (w : World) : Prop where
  ordered : Ordered w.served
  cached : Cached w.client
  held : ∀ id r, HeldAs w id r → r ∈ w.served
  flight : ∀ r ∈ w.inFlight, r ∈ w.served
  revision : ∀ f, w.snapshot = some f → f.revision ≤ w.client.revision
  listing : ∀ revision reply, w.snapshot = some ⟨revision, some reply⟩ → ∀ r ∈ reply.requests,
    r ∈ w.served ∧
      ∀ held, HeldAs w r.id held → w.client.changedDuringFetch revision r.id = false →
        Precedes held r

theorem changedDuringFetch_congr {s s' : StateReducer} (h : SameMap s s') (revision : Nat)
    (id : String) : s'.changedDuringFetch revision id = s.changedDuringFetch revision id := by
  unfold changedDuringFetch
  rw [h.2.1]

theorem changedDuringFetch_took {s s' : StateReducer} {r : Request} {revision : Nat}
    (h : Took s s' r) (hfresh : staleFor s r = false) (hrev : revision ≤ s.revision) :
    s'.changedDuringFetch revision r.id = true := by
  unfold Took at h
  rw [hfresh, if_neg Bool.false_ne_true] at h
  unfold changedDuringFetch
  rw [h.2.1, ExtTreeMap.getElem?_insert_self]
  exact decide_eq_true (Nat.lt_succ_of_le hrev)

theorem changedDuringFetch_took_of_ne {s s' : StateReducer} {r : Request} {revision : Nat}
    {id : String} (h : Took s s' r) (hid : r.id ≠ id) :
    s'.changedDuringFetch revision id = s.changedDuringFetch revision id := by
  unfold Took at h
  split at h
  · exact changedDuringFetch_congr h revision id
  · unfold changedDuringFetch
    rw [h.2.1, OrdMap.getElem?_insert_of_ne hid]

theorem get?_took_of_ne {s s' : StateReducer} {r : Request} {id : String} (h : Took s s' r)
    (hid : r.id ≠ id) : s'.requestsById[id]? = s.requestsById[id]? := by
  unfold Took at h
  split at h
  · rw [h.1]
  · rw [h.1, OrdMap.getElem?_insert_of_ne hid]

theorem Took.revision_le {s s' : StateReducer} {r : Request} (h : Took s s' r) :
    s.revision ≤ s'.revision := by
  unfold Took at h
  split at h
  · exact Nat.le_of_eq h.2.2.symm
  · rw [h.2.2]
    exact Nat.le_succ _

/-- A merged entry is the held version where it was kept, else the listed one. -/
theorem of_get?_mergeSnapshot {s : StateReducer} {requests : List Request} {revision : Nat}
    {id : String} {r : Request} (h : (s.mergeSnapshot requests revision)[id]? = some r) :
    s.requestsById[id]? = some r ∨
      (r ∈ requests ∧ r.id = id ∧
        ∀ held, s.requestsById[id]? = some held →
          s.changedDuringFetch revision id = false ∨ requestIsStale held r = true) := by
  rw [getElem?_mergeSnapshot] at h
  cases hheld : s.requestsById[id]? with
  | none =>
    rw [hheld] at h
    obtain ⟨hmem, hid⟩ := of_getElem?_listedById h
    exact .inr ⟨hmem, hid, fun held hh => by cases hh⟩
  | some held =>
    rw [hheld] at h
    dsimp only at h
    split at h
    · exact .inl h
    · rename_i hkept
      obtain ⟨hmem, hid⟩ := of_getElem?_listedById h
      refine .inr ⟨hmem, hid, fun held' hh => ?_⟩
      rw [← Option.some.inj hh]
      unfold keptInSnapshot at hkept
      rw [h] at hkept
      simp only [Option.any_some, Bool.and_eq_true, Bool.not_eq_true', not_and,
        Bool.not_eq_false] at hkept
      cases hchanged : s.changedDuringFetch revision id with
      | false => exact .inl rfl
      | true => exact .inr (hkept hchanged)

theorem served_start (servers : List ServerProfile) (selectedServerId : Option String)
    (notificationSound : String) :
    Served (World.start servers selectedServerId notificationSound) where
  ordered := List.Pairwise.nil
  cached := (coherent_new servers selectedServerId notificationSound).toCached
  held id r h := by
    unfold HeldAs World.start StateReducer.new at h
    simp at h
  flight r h := absurd h List.not_mem_nil
  revision f h := by cases h
  listing revision reply h := by cases h

theorem not_heldAs_of_empty {w : World} (h : w.client.requestsById = ∅) {id : String}
    {r : Request} : ¬ HeldAs w id r := by
  unfold HeldAs
  rw [h, ExtTreeMap.getElem?_empty]
  exact nofun

theorem served_same {w w' : World} (h : Served w) (hcached : Cached w'.client)
    (hserved : ∀ r ∈ w.served, r ∈ w'.served) (hordered : Ordered w'.served)
    (hflight : ∀ r ∈ w'.inFlight, r ∈ w'.served)
    (hsnap : w'.snapshot = w.snapshot ∨ w'.snapshot = none)
    (hmap : SameMap w.client w'.client) : Served w' := by
  have hback : ∀ f, w'.snapshot = some f → w.snapshot = some f := by
    intro f hf
    rcases hsnap with heq | heq
    · rw [← heq]
      exact hf
    · rw [heq] at hf
      cases hf
  refine ⟨hordered, hcached, fun id r hr => ?_, hflight, fun f hf => ?_, ?_⟩
  · unfold HeldAs at hr
    rw [hmap.1] at hr
    exact hserved r (h.held id r hr)
  · rw [hmap.2.2]
    exact h.revision f (hback f hf)
  · intro revision reply hf r hr
    obtain ⟨hmem, hprec⟩ := h.listing revision reply (hback _ hf) r hr
    refine ⟨hserved r hmem, fun held hheld hchanged => ?_⟩
    unfold HeldAs at hheld
    rw [hmap.1] at hheld
    rw [changedDuringFetch_congr hmap] at hchanged
    exact hprec held hheld hchanged

theorem served_of_moves {w w' : World} {a : Action} (h : Served w) (hcached : Cached w'.client)
    (hmoves : Moves w a w') : Served w' := by
  cases hmoves with
  | idle hserved hflight hsnap hmap =>
    refine served_same h hcached (fun r hr => hserved ▸ hr) (hserved ▸ h.ordered)
      (fun r hr => ?_) hsnap hmap
    rw [hserved]
    exact h.flight r (hflight hr)
  | commit r hserved hsucceeds hflight hsnap hmap =>
    have hgrow : ∀ x ∈ w.served, x ∈ w'.served := fun x hx => by
      rw [hserved]
      exact List.mem_append_left _ hx
    refine served_same h hcached hgrow (hserved ▸ ordered_append h.ordered hsucceeds)
      (fun x hx => ?_) (.inl hsnap) hmap
    rw [hflight] at hx
    exact hgrow x (h.flight x hx)
  | depart r hlatest hserved hflight hsnap hmap =>
    refine served_same h hcached (fun x hx => hserved ▸ hx) (hserved ▸ h.ordered)
      (fun x hx => ?_) (.inl hsnap) hmap
    rw [hserved]
    rcases hflight x hx with rfl | hold
    · exact (mem_of_latest hlatest).1
    · exact h.flight x hold
  | arrive r hr hserved hflight hsnap htook =>
    refine ⟨hserved ▸ h.ordered, hcached, fun id x hx => ?_, fun x hx => ?_, fun f hf => ?_,
      fun revision reply hf x hx => ?_⟩
    · unfold HeldAs at hx
      rw [hserved]
      by_cases hid : r.id = id
      · unfold Took at htook
        split at htook
        · rw [htook.1] at hx
          exact h.held id x hx
        · rw [htook.1, hid, ExtTreeMap.getElem?_insert_self] at hx
          rw [← Option.some.inj hx]
          exact h.flight r hr
      · rw [get?_took_of_ne htook hid] at hx
        exact h.held id x hx
    · rw [hserved]
      exact h.flight x (hflight hx)
    · rw [hsnap] at hf
      exact (h.revision f hf).trans htook.revision_le
    · rw [hsnap] at hf
      obtain ⟨hmem, hprec⟩ := h.listing revision reply hf x hx
      refine ⟨hserved ▸ hmem, fun held hheld hchanged => ?_⟩
      by_cases hid : r.id = x.id
      · cases hstale : staleFor w.client r with
        | true =>
          unfold Took at htook
          rw [if_pos hstale] at htook
          unfold HeldAs at hheld
          rw [htook.1] at hheld
          rw [changedDuringFetch_congr htook] at hchanged
          exact hprec held hheld hchanged
        | false =>
          -- a version taken during the fetch counts as changed
          rw [← hid, changedDuringFetch_took htook hstale (h.revision _ hf)] at hchanged
          cases hchanged
      · unfold HeldAs at hheld
        rw [get?_took_of_ne htook hid] at hheld
        rw [changedDuringFetch_took_of_ne htook hid] at hchanged
        exact hprec held hheld hchanged
  | begins hserved hflight hsnap hmap =>
    refine ⟨hserved ▸ h.ordered, hcached, fun id x hx => ?_, fun x hx => ?_, fun f hf => ?_,
      fun revision reply hf => ?_⟩
    · unfold HeldAs at hx
      rw [hmap.1] at hx
      rw [hserved]
      exact h.held id x hx
    · rw [hflight] at hx
      rw [hserved]
      exact h.flight x hx
    · rw [hsnap] at hf
      rw [← Option.some.inj hf, hmap.2.2]
    · rw [hsnap] at hf
      cases hf
  | answer revision reply hbefore hlatest hserved hflight hsnap hmap =>
    refine ⟨hserved ▸ h.ordered, hcached, fun id x hx => ?_, fun x hx => ?_, fun f hf => ?_,
      fun revision' reply' hf x hx => ?_⟩
    · unfold HeldAs at hx
      rw [hmap.1] at hx
      rw [hserved]
      exact h.held id x hx
    · rw [hflight] at hx
      rw [hserved]
      exact h.flight x hx
    · rw [hsnap] at hf
      rw [← Option.some.inj hf, hmap.2.2]
      exact h.revision ⟨revision, none⟩ hbefore
    · rw [hsnap] at hf
      obtain ⟨rfl, hreply⟩ := SnapshotFetch.mk.inj (Option.some.inj hf)
      rw [← Option.some.inj hreply] at hx
      refine ⟨hserved ▸ (mem_of_latest (hlatest x hx)).1, fun held hheld _ => ?_⟩
      unfold HeldAs at hheld
      rw [hmap.1] at hheld
      have hid : held.id = x.id := h.cached.keyed x.id held hheld
      exact precedes_latest h.ordered (h.held x.id held hheld) (hid ▸ hlatest x hx)
  | clears ha hrefused hserved hflight hsnap hmap hrevision =>
    refine ⟨hserved ▸ h.ordered, hcached, fun id x hx => absurd hx (not_heldAs_of_empty hmap),
      fun x hx => ?_, fun f hf => ?_, fun revision reply hf x hx => ?_⟩
    · rw [hflight] at hx
      rw [hserved]
      exact h.flight x hx
    · rw [hsnap] at hf
      rw [hrevision]
      exact h.revision f hf
    · rw [hsnap] at hf
      exact ⟨hserved ▸ (h.listing revision reply hf x hx).1,
        fun held hheld => absurd hheld (not_heldAs_of_empty hmap)⟩
  | merge revision reply now ha hbefore hserved hflight hsnap hmap =>
    refine ⟨hserved ▸ h.ordered, hcached, fun id x hx => ?_, fun x hx => ?_, fun f hf => ?_,
      fun revision' reply' hf => ?_⟩
    · unfold HeldAs at hx
      rw [hmap] at hx
      rw [hserved]
      rcases of_get?_mergeSnapshot hx with hheld | ⟨hlisted, -, -⟩
      · exact h.held id x hheld
      · exact (h.listing revision reply hbefore x hlisted).1
    · rw [hflight] at hx
      rw [hserved]
      exact h.flight x hx
    · rw [hsnap] at hf
      cases hf
    · rw [hsnap] at hf
      cases hf

theorem served_step {w : World} (h : Served w) (a : Action) : Served (w.step a).1 :=
  served_of_moves h (cached_step h.cached a) (moves_step w a)

theorem served_run {w : World} (h : Served w) (actions : List Action) :
    Served (w.run actions) := by
  induction actions generalizing w with
  | nil => exact h
  | cons a rest ih => exact ih (served_step h a)

/-! ## No version is replaced by an older one -/

theorem not_updatedAt_lt_of_fresh {candidate current : Request}
    (h : requestIsStale candidate current = false) : current.updatedAt ≤ candidate.updatedAt := by
  unfold requestIsStale at h
  rw [Bool.or_eq_false_iff, decide_eq_false_iff_not, DateTime.lt_def] at h
  rw [DateTime.le_def]
  omega

theorem updatedAt_le_of_stale {candidate current : Request}
    (h : requestIsStale candidate current = true) : candidate.updatedAt ≤ current.updatedAt := by
  unfold requestIsStale at h
  rw [Bool.or_eq_true, decide_eq_true_eq, Bool.and_eq_true, Bool.and_eq_true] at h
  rcases h with hlt | ⟨⟨heq, -⟩, -⟩
  · rw [DateTime.lt_def] at hlt
    rw [DateTime.le_def]
    omega
  · rw [eq_of_beq heq]
    exact Int.le_refl _

theorem updatedAt_le_of_moves {w w' : World} {a : Action} (h : Served w) (hmoves : Moves w a w')
    {id : String}
    {held held' : Request} (hheld : HeldAs w id held) (hheld' : HeldAs w' id held') :
    held.updatedAt ≤ held'.updatedAt := by
  have hsame : w'.client.requestsById[id]? = w.client.requestsById[id]? →
      held.updatedAt ≤ held'.updatedAt := by
    intro heq
    unfold HeldAs at hheld hheld'
    rw [heq, hheld] at hheld'
    rw [Option.some.inj hheld']
    exact Int.le_refl _
  cases hmoves with
  | idle _ _ _ hmap => exact hsame (by rw [hmap.1])
  | commit _ _ _ _ _ hmap => exact hsame (by rw [hmap.1])
  | depart _ _ _ _ _ hmap => exact hsame (by rw [hmap.1])
  | begins _ _ _ hmap => exact hsame (by rw [hmap.1])
  | answer _ _ _ _ _ _ _ hmap => exact hsame (by rw [hmap.1])
  | clears _ _ _ _ _ hmap => exact absurd hheld' (not_heldAs_of_empty hmap)
  | arrive r hr _ _ _ htook =>
    by_cases hid : r.id = id
    · unfold Took at htook
      split at htook
      · exact hsame (by rw [htook.1])
      · rename_i hfresh
        unfold HeldAs at hheld hheld'
        rw [htook.1, hid, ExtTreeMap.getElem?_insert_self] at hheld'
        rw [← Option.some.inj hheld']
        unfold staleFor at hfresh
        rw [hid, hheld] at hfresh
        exact not_updatedAt_lt_of_fresh (by simpa using hfresh)
    · exact hsame (get?_took_of_ne htook hid)
  | merge revision reply now ha hbefore _ _ _ hmap =>
    unfold HeldAs at hheld'
    rw [hmap] at hheld'
    rcases of_get?_mergeSnapshot hheld' with hkept | ⟨hlisted, hid, hwhy⟩
    · exact hsame (by rw [hmap, hheld', ← hkept])
    · rcases hwhy held hheld with hchanged | hnewer
      · subst hid
        exact ((h.listing revision reply hbefore held' hlisted).2 held hheld hchanged).1
      · exact updatedAt_le_of_stale hnewer

/-! ## A handled request stays handled -/

/-- The snapshot to be applied drops no handled request of which a pending version is still in
    flight, and the end of the registration clears none of which one is in flight or in the reply
    to be applied. -/
def Spares (w : World) : Action → Prop
  | .clearRefused =>
    w.refused = true → ∀ id held, HeldAs w id held → isPending held = false →
      (∀ r ∈ w.inFlight, r.id = id → isPending r = false) ∧
        ∀ revision reply, w.snapshot = some ⟨revision, some reply⟩ →
          ∀ r ∈ reply.requests, r.id = id → isPending r = false
  | .applySnapshot _ =>
    ∀ revision reply, w.snapshot = some ⟨revision, some reply⟩ → ∀ id held, HeldAs w id held →
      isPending held = false → w.client.changedDuringFetch revision id = false →
        (∀ r ∈ reply.requests, r.id ≠ id) →
          ∀ r ∈ w.inFlight, r.id = id → isPending r = false
  | _ => True

/-- Every step of the run meets the condition. -/
def Steady (w : World) : List Action → Prop
  | [] => True
  | a :: rest => Spares w a ∧ Steady (w.step a).1 rest

/-- What keeps a request handled once it was held so. -/
structure Settled (id : String) (w : World) : Prop where
  handled : ∃ r ∈ w.served, r.id = id ∧ isPending r = false
  shown : ∀ r, HeldAs w id r → isPending r = false
  flight : (∃ held, HeldAs w id held) ∨ ∀ r ∈ w.inFlight, r.id = id → isPending r = false
  listing : ∀ revision reply, w.snapshot = some ⟨revision, some reply⟩ →
    (∀ r ∈ reply.requests, r.id = id → isPending r = false) ∨
      ∃ held, HeldAs w id held ∧ w.client.changedDuringFetch revision id = true

theorem Settled.latest {id : String} {w : World} (h : Settled id w) (hs : Served w) {r : Request}
    (hr : IsLatest w r) (hid : r.id = id) : isPending r = false := by
  obtain ⟨v, hv, hvid, hhandled⟩ := h.handled
  unfold IsLatest at hr
  rw [hid, ← hvid] at hr
  exact (precedes_latest hs.ordered hv hr).2 hhandled

theorem settled_of_held {w : World} (hs : Served w) {id : String} {held : Request}
    (hheld : HeldAs w id held) (hhandled : isPending held = false) : Settled id w where
  handled := ⟨held, hs.held id held hheld, hs.cached.keyed id held hheld, hhandled⟩
  shown r hr := by
    unfold HeldAs at hr hheld
    rw [hheld] at hr
    rw [← Option.some.inj hr]
    exact hhandled
  flight := .inl ⟨held, hheld⟩
  listing revision reply hf := by
    cases hchanged : w.client.changedDuringFetch revision id with
    | true => exact .inr ⟨held, hheld, rfl⟩
    | false =>
      refine .inl fun r hr hid => ?_
      subst hid
      exact ((hs.listing revision reply hf r hr).2 held hheld hchanged).2 hhandled

/-- A pending version does not replace a handled one that is held. -/
theorem stale_of_handled {w : World} (hs : Served w) {r held : Request} (hr : r ∈ w.served)
    (hheld : HeldAs w r.id held) (hhandled : isPending held = false)
    (hpend : isPending r = true) : requestIsStale r held = true := by
  have hid : r.id = held.id := (hs.cached.keyed r.id held hheld).symm
  have hle := updatedAt_le_of_pending hs.ordered hr (hs.held r.id held hheld) hid hpend hhandled
  unfold requestIsStale
  rw [hhandled, hpend]
  by_cases hlt : r.updatedAt < held.updatedAt
  · rw [decide_eq_true hlt]
    rfl
  · have heq : held.updatedAt = r.updatedAt := by
      apply DateTime.key_inj
      rw [DateTime.le_def] at hle
      rw [DateTime.lt_def] at hlt
      omega
    rw [heq, beq_self_eq_true]
    simp

theorem settled_of_same {id : String} {w w' : World} (h : Settled id w)
    (hserved : ∀ r ∈ w.served, r ∈ w'.served)
    (hflight : ∀ r ∈ w'.inFlight, r.id = id → isPending r = false ∨ r ∈ w.inFlight)
    (hsnap : ∀ revision reply, w'.snapshot = some ⟨revision, some reply⟩ →
      w.snapshot = some ⟨revision, some reply⟩ ∨
        ∀ r ∈ reply.requests, r.id = id → isPending r = false)
    (hmap : SameMap w.client w'.client) : Settled id w' := by
  obtain ⟨r, hr, hid, hhandled⟩ := h.handled
  have hheld : ∀ v, HeldAs w' id v ↔ HeldAs w id v := fun v => by
    unfold HeldAs
    rw [hmap.1]
  refine ⟨⟨r, hserved r hr, hid, hhandled⟩, fun v hv => h.shown v ((hheld v).mp hv), ?_, ?_⟩
  · rcases h.flight with ⟨held, hh⟩ | hall
    · exact .inl ⟨held, (hheld held).mpr hh⟩
    · refine .inr fun v hv hvid => ?_
      rcases hflight v hv hvid with hp | hold
      · exact hp
      · exact hall v hold hvid
  · intro revision reply hf
    rcases hsnap revision reply hf with heq | hnew
    · rcases h.listing revision reply heq with hall | ⟨held, hh, hchanged⟩
      · exact .inl hall
      · exact .inr ⟨held, (hheld held).mpr hh, changedDuringFetch_congr hmap _ _ ▸ hchanged⟩
    · exact .inl hnew

theorem settled_arrive {id : String} {w w' : World} (h : Settled id w) (hs : Served w)
    {r : Request} (hr : r ∈ w.inFlight) (hserved : w'.served = w.served)
    (hflight : w'.inFlight ⊆ w.inFlight) (hsnap : w'.snapshot = w.snapshot)
    (htook : Took w.client w'.client r) : Settled id w' := by
  by_cases hid : r.id = id
  · subst hid
    cases hstale : staleFor w.client r with
    | true =>
      unfold Took at htook
      rw [if_pos hstale] at htook
      exact settled_of_same h (fun v hv => hserved ▸ hv) (fun v hv _ => .inr (hflight hv))
        (fun _ _ hf => .inl (hsnap ▸ hf)) htook
    | false =>
      have hhandled : isPending r = false := by
        rcases h.flight with ⟨held, hheld⟩ | hall
        · by_contra hpend
          have hstale' := stale_of_handled hs (hs.flight r hr) hheld (h.shown held hheld)
            (by simpa using hpend)
          unfold staleFor at hstale
          rw [hheld, Option.any_some, hstale'] at hstale
          cases hstale
        · exact hall r hr rfl
      have hheld' : HeldAs w' r.id r := htook.get?_self hstale
      refine ⟨⟨r, hserved ▸ hs.flight r hr, rfl, hhandled⟩, fun v hv => ?_, .inl ⟨r, hheld'⟩,
        fun revision reply hf => ?_⟩
      · unfold HeldAs at hv hheld'
        rw [hheld'] at hv
        rw [← Option.some.inj hv]
        exact hhandled
      · rw [hsnap] at hf
        exact .inr ⟨r, hheld', changedDuringFetch_took htook hstale (hs.revision _ hf)⟩
  · obtain ⟨v, hv, hvid, hhandled⟩ := h.handled
    have hheld : ∀ v, HeldAs w' id v ↔ HeldAs w id v := fun v => by
      unfold HeldAs
      rw [get?_took_of_ne htook hid]
    refine ⟨⟨v, hserved ▸ hv, hvid, hhandled⟩, fun x hx => h.shown x ((hheld x).mp hx), ?_, ?_⟩
    · rcases h.flight with ⟨held, hh⟩ | hall
      · exact .inl ⟨held, (hheld held).mpr hh⟩
      · exact .inr fun x hx hxid => hall x (hflight hx) hxid
    · intro revision reply hf
      rw [hsnap] at hf
      rcases h.listing revision reply hf with hall | ⟨held, hh, hchanged⟩
      · exact .inl hall
      · refine .inr ⟨held, (hheld held).mpr hh, ?_⟩
        rw [changedDuringFetch_took_of_ne htook hid]
        exact hchanged

theorem settled_merge {id : String} {w w' : World} (h : Settled id w) (hs : Served w)
    {revision : Nat} {reply : SnapshotReply}
    (hbefore : w.snapshot = some ⟨revision, some reply⟩) (hserved : w'.served = w.served)
    (hflight : w'.inFlight = w.inFlight) (hsnap : w'.snapshot = none)
    (hmap : w'.client.requestsById = w.client.mergeSnapshot reply.requests revision)
    (hspares : ∀ held, HeldAs w id held → isPending held = false →
      w.client.changedDuringFetch revision id = false → (∀ r ∈ reply.requests, r.id ≠ id) →
        ∀ r ∈ w.inFlight, r.id = id → isPending r = false) : Settled id w' := by
  obtain ⟨v, hv, hvid, hhandled⟩ := h.handled
  refine ⟨⟨v, hserved ▸ hv, hvid, hhandled⟩, fun r hr => ?_, ?_, fun revision' reply' hf => ?_⟩
  · unfold HeldAs at hr
    rw [hmap] at hr
    rcases of_get?_mergeSnapshot hr with hkept | ⟨hlisted, hid, hwhy⟩
    · exact h.shown r hkept
    · rcases h.listing revision reply hbefore with hall | ⟨held, hheld, hchanged⟩
      · exact hall r hlisted hid
      · -- the held version changed during the fetch, so only a newer listed one replaces it
        rcases hwhy held hheld with hunchanged | hnewer
        · rw [hchanged] at hunchanged
          cases hunchanged
        · by_contra hpend
          have hpend : isPending r = true := by simpa using hpend
          have hheldHandled := h.shown held hheld
          subst hid
          have hstale := stale_of_handled hs (hs.listing revision reply hbefore r hlisted).1
            hheld hheldHandled hpend
          unfold requestIsStale at hstale hnewer
          rw [hheldHandled, hpend] at hstale hnewer
          simp only [Bool.not_false, Bool.and_true, Bool.or_eq_true, decide_eq_true_eq,
            Bool.and_false, Bool.not_true, Bool.or_false] at hstale hnewer
          rw [DateTime.lt_def] at hnewer
          rcases hstale with hlt | heq
          · rw [DateTime.lt_def] at hlt
            omega
          · rw [eq_of_beq heq] at hnewer
            omega
  · rw [hflight]
    by_cases hkept : ∃ held, HeldAs w' id held
    · exact .inl hkept
    · refine .inr ?_
      rcases h.flight with ⟨held, hheld⟩ | hall
      · have hgone : (w.client.mergeSnapshot reply.requests revision)[id]? = none := by
          rw [← hmap, Option.eq_none_iff_forall_ne_some]
          exact fun x hx => hkept ⟨x, hx⟩
        rw [getElem?_mergeSnapshot, hheld] at hgone
        dsimp only at hgone
        split at hgone
        · cases hgone
        · rename_i hdrop
          have hlisted := ne_of_listedById_eq_none hgone
          have hunchanged : w.client.changedDuringFetch revision id = false := by
            unfold keptInSnapshot at hdrop
            rw [hgone] at hdrop
            simpa using hdrop
          exact hspares held hheld (h.shown held hheld) hunchanged hlisted
      · exact hall
  · rw [hsnap] at hf
    cases hf

theorem settled_clear {id : String} {w w' : World} (h : Settled id w)
    (hserved : w'.served = w.served) (hflight : w'.inFlight = w.inFlight)
    (hsnap : w'.snapshot = w.snapshot) (hmap : w'.client.requestsById = ∅)
    (hspares : ∀ held, HeldAs w id held → isPending held = false →
      (∀ r ∈ w.inFlight, r.id = id → isPending r = false) ∧
        ∀ revision reply, w.snapshot = some ⟨revision, some reply⟩ →
          ∀ r ∈ reply.requests, r.id = id → isPending r = false) : Settled id w' := by
  refine ⟨hserved ▸ h.handled, fun r hr => absurd hr (not_heldAs_of_empty hmap), .inr ?_,
    fun revision reply hf => .inl ?_⟩
  · rw [hflight]
    obtain ⟨held, hheld⟩ | hall := h.flight
    · exact (hspares held hheld (h.shown held hheld)).1
    · exact hall
  · rw [hsnap] at hf
    obtain hall | ⟨held, hheld, -⟩ := h.listing revision reply hf
    · exact hall
    · exact (hspares held hheld (h.shown held hheld)).2 revision reply hf

theorem settled_step {id : String} {w : World} (h : Settled id w) (hs : Served w) {a : Action}
    (hspares : Spares w a) : Settled id (w.step a).1 := by
  cases moves_step w a with
  | idle hserved hflight hsnap hmap =>
    refine settled_of_same h (fun r hr => hserved ▸ hr) (fun r hr _ => .inr (hflight hr))
      (fun revision reply hf => ?_) hmap
    rcases hsnap with heq | heq
    · exact .inl (heq ▸ hf)
    · rw [heq] at hf
      cases hf
  | commit r hserved hsucceeds hflight hsnap hmap =>
    refine settled_of_same h (fun x hx => ?_) (fun x hx _ => .inr (hflight ▸ hx))
      (fun _ _ hf => .inl (hsnap ▸ hf)) hmap
    rw [hserved]
    exact List.mem_append_left _ hx
  | depart r hlatest hserved hflight hsnap hmap =>
    refine settled_of_same h (fun x hx => hserved ▸ hx) (fun x hx hid => ?_)
      (fun _ _ hf => .inl (hsnap ▸ hf)) hmap
    rcases hflight x hx with rfl | hold
    · exact .inl (h.latest hs hlatest hid)
    · exact .inr hold
  | arrive r hr hserved hflight hsnap htook =>
    exact settled_arrive h hs hr hserved hflight hsnap htook
  | begins hserved hflight hsnap hmap =>
    refine settled_of_same h (fun x hx => hserved ▸ hx) (fun x hx _ => .inr (hflight ▸ hx))
      (fun revision reply hf => ?_) hmap
    rw [hsnap] at hf
    cases hf
  | answer revision reply hbefore hlatest hserved hflight hsnap hmap =>
    refine settled_of_same h (fun x hx => hserved ▸ hx) (fun x hx _ => .inr (hflight ▸ hx))
      (fun revision' reply' hf => .inr fun x hx hid => ?_) hmap
    rw [hsnap] at hf
    obtain ⟨-, hreply⟩ := SnapshotFetch.mk.inj (Option.some.inj hf)
    rw [← Option.some.inj hreply] at hx
    exact h.latest hs (hlatest x hx) hid
  | clears ha hrefused hserved hflight hsnap hmap _ =>
    rw [ha] at hspares
    exact settled_clear h hserved hflight hsnap hmap (hspares hrefused id)
  | merge revision reply now ha hbefore hserved hflight hsnap hmap =>
    rw [ha] at hspares
    exact settled_merge h hs hbefore hserved hflight hsnap hmap
      fun held => hspares revision reply hbefore id held

theorem settled_run {id : String} {w : World} (h : Settled id w) (hs : Served w)
    {actions : List Action} (hsteady : Steady w actions) : Settled id (w.run actions) := by
  induction actions generalizing w with
  | nil => exact h
  | cons a rest ih => exact ih (settled_step h hs hsteady.1) (served_step hs a) hsteady.2

theorem candidates_of_settled {id : String} {w : World} (h : Settled id w) (hs : Served w)
    {actions : List Action} (hsteady : Steady w actions) :
    ∀ c ∈ w.candidates actions, c.id ≠ id := by
  induction actions generalizing w with
  | nil => exact fun c hc => absurd hc List.not_mem_nil
  | cons a rest ih =>
    intro c hc hid
    have hnext := settled_step h hs hsteady.1
    rcases List.mem_append.mp hc with hnow | hlater
    · obtain ⟨hget, hpend⟩ := of_mem_candidates hs.cached hnow
      subst hid
      rw [hnext.shown c hget] at hpend
      cases hpend
    · exact ih hnext (served_step hs a) hsteady.2 c hlater hid

/-- The client's copies along every run from `start`. -/
structure NeverGoesBack (start : World) : Prop where
  noOlderVersion : ∀ before a id held held', HeldAs (start.run before) id held →
    HeldAs ((start.run before).step a).1 id held' → held.updatedAt ≤ held'.updatedAt
  handledStays : ∀ before id held, HeldAs (start.run before) id held → isPending held = false →
    ∀ after, Steady (start.run before) after →
      (∀ r, HeldAs ((start.run before).run after) id r → isPending r = false) ∧
      (∀ r ∈ ((start.run before).run after).client.state.requests, r.id = id →
        isPending r = false) ∧
      ∀ c ∈ (start.run before).candidates after, c.id ≠ id

/-- Once a handled version of a request is held, it is neither shown as pending nor notified
    again, as long as it is not dropped while a pending version of it is on its way; and no version
    ever replaces a newer one. -/
theorem client_never_goes_back (servers : List ServerProfile) (selectedServerId : Option String)
    (notificationSound : String) :
    NeverGoesBack (World.start servers selectedServerId notificationSound) := by
  have hserved : ∀ before,
      Served ((World.start servers selectedServerId notificationSound).run before) :=
    served_run (served_start servers selectedServerId notificationSound)
  constructor
  · intro before a id held held' hheld hheld'
    exact updatedAt_le_of_moves (hserved before) (moves_step _ a) hheld hheld'
  · intro before id held hheld hhandled after hsteady
    have hstart := settled_of_held (hserved before) hheld hhandled
    have hend := settled_run hstart (hserved before) hsteady
    have hcached := (served_run (hserved before) after).cached
    refine ⟨hend.shown, fun r hr hid => ?_, candidates_of_settled hstart (hserved before) hsteady⟩
    have hget := hcached.held_of_shown r hr
    subst hid
    exact hend.shown r hget

/-! ## A dropped request comes back

  A card is created while the event is still queued; a refresh shows it resolved, the user clears
  the channel, the next refresh drops it, and then the queued event is applied. -/

section DroppedRequest

/-- Zero is a second of the minute. -/
theorem zero_lt_sixty : 0 < 60 := by decide

def noon (second : Nat) (h : second < 60 := by decide) : DateTime where
  year := 2026
  month := 5
  day := 28
  hour := 12
  minute := 0
  second := second
  nano := 0
  valid := ⟨by decide, by decide, by decide, by decide, h, by decide, .inl (by decide)⟩

def sampleCard (status : RequestStatus) (updatedAt : DateTime) : Request where
  answerField := none
  id := "req-1"
  requestId := "req-1"
  channelId := "deploys"
  recipients := ["alice"]
  decisionResolution := .shared
  title := "Deploy"
  summary := ""
  bodyMarkdown := ""
  fields := []
  links := []
  imageUrl := none
  notification := ⟨false, none, none⟩
  dedupeKey := none
  expiresAt := none
  status := status
  createdAt := noon 0
  updatedAt := updatedAt
  resolvedAt := none
  decision := none
  decisions := []
  callbackUrl := none
  options := []
  requestDigest := none
  signing := none

def pendingCard : Request := sampleCard .pending (noon 0)

def handledCard : Request := sampleCard .resolved (noon 1)

def sampleReply (requests : List Request) : SnapshotReply where
  user := ⟨"alice", "Alice", noon 0, noon 0⟩
  currentDevice := ⟨"device-1", "alice", "Laptop", "default", ⟨false, [], none⟩, true⟩
  notificationDelivery := ⟨.websocket⟩
  devices := []
  channels := []
  requests := requests

def createdEvent (r : Request) : SyncEnvelope where
  kind := syncKindCreated
  notificationDelivery := none
  payload := ⟨some r, none, none, ∅⟩

def sampleStart : World := World.start [] none "default"

def untilCleared : List Action :=
  [.serve pendingCard, .send (createdEvent pendingCard), .serve handledCard, .startSnapshot,
    .answerSnapshot (sampleReply [handledCard]), .applySnapshot "12:00:02"]

def afterCleared : List Action :=
  [.startSnapshot, .answerSnapshot (sampleReply []), .applySnapshot "12:00:03", .receive]

def clientHandled : StateReducer :=
  (refreshLocked sampleStart.client (sampleReply [handledCard]) 0 "12:00:02").1

def clientCleared : StateReducer :=
  (refreshLocked clientHandled (sampleReply []) 0 "12:00:03").1

def worldHandled : World where
  served := [pendingCard, handledCard]
  events := [createdEvent pendingCard]
  refused := false
  snapshot := none
  targeted := []
  client := clientHandled

theorem run_untilCleared : sampleStart.run untilCleared = worldHandled := rfl

theorem clientHandled_revision : clientHandled.revision = 0 := (refreshLocked_map _ _ _ _).2.2

theorem held_clientHandled : clientHandled.requestsById["req-1"]? = some handledCard := by
  unfold clientHandled
  rw [(refreshLocked_map _ _ _ _).1, getElem?_mergeSnapshot]
  rfl

theorem clientCleared_empty (id : String) : clientCleared.requestsById[id]? = none := by
  have hlisted : (listedById (sampleReply []).requests)[id]? = none := by
    unfold listedById sampleReply
    simp
  have hunchanged : clientHandled.changedDuringFetch 0 id = false := by
    have hstart : sampleStart.client.requestRevisions = ∅ := rfl
    unfold changedDuringFetch clientHandled
    rw [(refreshLocked_map _ _ _ _).2.1, hstart]
    simp
  unfold clientCleared
  rw [(refreshLocked_map _ _ _ _).1, getElem?_mergeSnapshot, hlisted]
  cases clientHandled.requestsById[id]? with
  | none => rfl
  | some held => simp [keptInSnapshot, hunchanged]

theorem run_afterCleared :
    (worldHandled.run afterCleared).client =
      (envelopeLocked clientCleared (createdEvent pendingCard)).1 := by
  show (envelopeLocked (refreshLocked clientHandled (sampleReply []) clientHandled.revision
    "12:00:03").1 (createdEvent pendingCard)).1 = _
  rw [clientHandled_revision]
  rfl

theorem candidates_afterCleared :
    worldHandled.candidates afterCleared =
      (refreshLocked clientHandled (sampleReply []) 0 "12:00:03").2.1 ++
        (envelopeLocked clientCleared (createdEvent pendingCard)).2 := by
  show [] ++ ([] ++ ((refreshLocked clientHandled (sampleReply []) clientHandled.revision
    "12:00:03").2.1 ++ ((envelopeLocked (refreshLocked clientHandled (sampleReply [])
      clientHandled.revision "12:00:03").1 (createdEvent pendingCard)).2 ++ []))) = _
  rw [clientHandled_revision, List.nil_append, List.nil_append, List.append_nil]
  rfl

/-- The held version was handled; then the request is shown as pending again, with a candidate. -/
theorem dropped_request_comes_back :
    HeldAs (sampleStart.run untilCleared) "req-1" handledCard ∧ isPending handledCard = false ∧
      HeldAs ((sampleStart.run untilCleared).run afterCleared) "req-1" pendingCard ∧
      isPending pendingCard = true ∧
      pendingCard ∈ (sampleStart.run untilCleared).candidates afterCleared := by
  have hfresh : staleFor clientCleared pendingCard = false := by
    unfold staleFor
    rw [clientCleared_empty]
    rfl
  have hcached : Cached clientCleared :=
    cached_refreshLocked (cached_refreshLocked (coherent_new [] none "default").toCached _ _ _)
      _ _ _
  have hnew : ((beforeRequest clientCleared (createdEvent pendingCard)).applyRequestUpdate
      pendingCard).2 = true := by
    refine (newPending_iff (cached_beforeRequest hcached _) pendingCard).mpr ⟨hfresh, rfl, ?_⟩
    unfold pendingChannel
    rw [(sameMap_beforeRequest _ _).1, clientCleared_empty]
    rfl
  rw [run_untilCleared]
  refine ⟨held_clientHandled, rfl, ?_, rfl, ?_⟩
  · unfold HeldAs
    rw [run_afterCleared]
    exact (took_envelopeLocked rfl).get?_self hfresh
  · rw [candidates_afterCleared, envelopeLocked_of_some (r := pendingCard) rfl, hnew]
    refine List.mem_append_right _ ?_
    rw [if_pos ⟨rfl, rfl⟩]
    exact List.mem_singleton.mpr rfl

end DroppedRequest

end Nod.Client
