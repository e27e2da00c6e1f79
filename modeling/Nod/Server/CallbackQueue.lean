import Nod.Server.Workers

/-
  The callback outbox over a run of the server and its workers. Each row is a lease (`Lib.Lease`) on
  one delivery: its tokens are those of the claims handed out for it, and it is done when it is
  delivered.
  Proved: `callback_queue`, in every world a request's callbacks have been delivered in the order of
  their revisions, a delivered row stays as it is, only the latest claim on a row can settle it, and
  every row that is owed waits behind an owed row of its request or is picked up in its turn.
-/

namespace Nod.Server

open Lib Nod.Proto
open CallbackDeliveries (CallbackClaim claimedRow completedRow retriedRow claimOf heldBy Rewritten)

variable {P : Packages}

/-! ## Deliveries and their events -/

/-- Every delivery is that of an event. -/
def Backed (db : Db) : Prop :=
  ∀ c ∈ db.callbacks.rows, ∃ e ∈ db.events.rows,
    e.eventId = c.eventId ∧ e.requestId = c.requestId ∧ e.revision = c.requestRevision

theorem backed_step (a : Act) {w : World} (hw : WellFormed P w.db) (hbacked : Backed w.db) :
    Backed (World.step P a w).db := by
  by_cases hcall : ∃ c, a = .call c
  · obtain ⟨call, rfl⟩ := hcall
    obtain ⟨added, owed, hlogs⟩ := (fed_call call hw).logs
    intro c hc
    change c ∈ (call.after P w.db).callbacks.rows at hc
    change ∃ e ∈ (call.after P w.db).events.rows, _
    rw [hlogs.callbacks] at hc
    rw [hlogs.events]
    rcases List.mem_append.mp hc with hc | hc
    · obtain ⟨e, he, hof⟩ := hbacked c hc
      exact ⟨e, List.mem_append_left _ he, hof⟩
    · obtain ⟨e, he, hnew⟩ := hlogs.paired c hc
      exact ⟨e, List.mem_append_right _ he, hnew.eventId.symm, hnew.requestId.symm,
        hnew.revision.symm⟩
  · have hrequeued := requeued_step (P := P) (fun c hc => hcall ⟨c, hc⟩) w
    intro c' hc'
    obtain ⟨c, hc, hsame⟩ := hrequeued.callbacks c' hc'
    obtain ⟨e, he, heventId, hrequestId, hrevision⟩ := hbacked c hc
    obtain ⟨f, hrows, hf⟩ := hrequeued.events
    obtain ⟨-, hid, hrequest, hentry⟩ := hf e he
    rw [hrows, hsame.eventId, hsame.requestId, hsame.requestRevision]
    exact ⟨f e, List.mem_map.mpr ⟨e, he, rfl⟩, hid.trans heventId, hrequest.trans hrequestId,
      (congrArg Prod.fst hentry).trans hrevision⟩

/-- A request has one delivery of a revision. -/
theorem eq_of_revision {s : Db} (hs : WellFormed P s) (hbacked : Backed s) {c d : CallbackRow}
    (hc : c ∈ s.callbacks.rows) (hd : d ∈ s.callbacks.rows) (hrequest : c.requestId = d.requestId)
    (hrevision : c.requestRevision = d.requestRevision) : c = d := by
  obtain ⟨e, he, heventId, hrequestId, herevision⟩ := hbacked c hc
  obtain ⟨e', he', heventId', hrequestId', herevision'⟩ := hbacked d hd
  have hrevisions := (hs.polls c.requestId).revisions
  have hentries : (s.track c.requestId).entries.map Prod.fst =
      (s.eventsOf c.requestId).map EventRow.revision := by
    change ((s.eventsOf c.requestId).map EventRow.entry).map Prod.fst = _
    rw [List.map_map]
    rfl
  rw [hentries] at hrevisions
  have hsame : e = e' := List.inj_on_of_nodup_map (hrevisions.imp fun h => ne_of_lt h)
    (List.mem_filter.mpr ⟨he, decide_eq_true hrequestId⟩)
    (List.mem_filter.mpr ⟨he', decide_eq_true (hrequestId'.trans hrequest.symm)⟩)
    (herevision.trans (hrevision.trans herevision'.symm))
  have hdelivery : c.deliveryId = d.deliveryId := by
    rw [(hs.callbacks c hc).2, (hs.callbacks d hd).2, ← heventId, ← heventId', hsame]
  exact List.inj_on_of_nodup_map s.callbacks.nodup hc hd hdelivery

/-! ## What one action does to the outbox -/

/-- A delivery nobody has tried yet. -/
structure Untried (c : CallbackRow) : Prop where
  state : c.state = "queued"
  attempts : c.attempts = 0
  leaseToken : c.leaseToken = none
  leaseUntil : c.leaseUntil = none
  nextAttemptAt : ∃ t : DateTime, c.nextAttemptAt = t.toRfc3339Millis

/-- The outbox after an action: rows added behind those of their request, or one row claimed,
    delivered or put off. -/
inductive CallbackStep (P : Packages) (w w' : World) : Prop
  | added (owed : List CallbackRow) (hrows : w'.db.callbacks.rows = w.db.callbacks.rows ++ owed)
      (huntried : ∀ c ∈ owed, Untried c)
      (hbehind : ∀ c ∈ owed, ∀ d ∈ w.db.callbacks.rows, d.requestId = c.requestId →
        d.requestRevision < c.requestRevision)
      (hclaims : w'.callbackClaims = w.callbackClaims) (hdelivered : w'.delivered = w.delivered)
      (htokens : w.tokens ⊆ w'.tokens)
  | claimed (env : Env) (c : CallbackRow) (until_ : DateTime)
      (hnext : CallbackDeliveries.nextDue w.db (env.nowString 0) = some c)
      (hfresh : env.newId 0 ∉ w.tokens)
      (hrow : Rewritten w.db w'.db c
        (claimedRow (env.newId 0) until_.toRfc3339Millis (env.nowString 0) c))
      (hclaims : w'.callbackClaims = claimOf (env.newId 0)
        (claimedRow (env.newId 0) until_.toRfc3339Millis (env.nowString 0) c) :: w.callbackClaims)
      (hdelivered : w'.delivered = w.delivered) (htokens : w'.tokens = env.newId 0 :: w.tokens)
  | completed (env : Env) (claim : CallbackClaim) (status : Nat) (c : CallbackRow)
      (hclaim : claim ∈ w.callbackClaims) (hheld : heldBy (env.nowString 0) claim c = true)
      (hrow : Rewritten w.db w'.db c (completedRow (env.nowString 0) status c))
      (hclaims : w'.callbackClaims = w.callbackClaims)
      (hdelivered : w'.delivered = (c.requestId, c.requestRevision) :: w.delivered)
      (htokens : w'.tokens = w.tokens)
  | retried (env : Env) (claim : CallbackClaim) (next : DateTime) (status : Option Nat)
      (blockedPolicy : Bool) (c : CallbackRow) (hclaim : claim ∈ w.callbackClaims)
      (hheld : heldBy (env.nowString 0) claim c = true)
      (hrow : Rewritten w.db w'.db c
        (retriedRow (env.nowString 0) next.toRfc3339Millis status blockedPolicy c))
      (hclaims : w'.callbackClaims = w.callbackClaims) (hdelivered : w'.delivered = w.delivered)
      (htokens : w'.tokens = w.tokens)

theorem callbackStep_same {w w' : World} (hcallbacks : w'.db.callbacks = w.db.callbacks)
    (hclaims : w'.callbackClaims = w.callbackClaims) (hdelivered : w'.delivered = w.delivered)
    (htokens : w.tokens ⊆ w'.tokens) : CallbackStep P w w' := by
  refine .added [] ?_ (fun c hc => absurd hc List.not_mem_nil)
    (fun c hc => absurd hc List.not_mem_nil) hclaims hdelivered htokens
  rw [hcallbacks, List.append_nil]

/-- New events of a request come after those it has. -/
theorem revision_lt_of_new {s s' : Db} (hs : WellFormed P s') {added : List EventRow}
    (hrows : s'.events.rows = s.events.rows ++ added) {e e' : EventRow} (he : e ∈ s.events.rows)
    (he' : e' ∈ added) (hsame : e.requestId = e'.requestId) : e.revision < e'.revision := by
  have hrevisions := (hs.polls e'.requestId).revisions
  have hentries : (s'.track e'.requestId).entries = (s'.eventsOf e'.requestId).map EventRow.entry := rfl
  rw [hentries, List.map_map, Db.eventsOf, hrows, List.filter_append, List.map_append,
    List.pairwise_append] at hrevisions
  exact hrevisions.2.2 _
    (List.mem_map.mpr ⟨e, List.mem_filter.mpr ⟨he, decide_eq_true hsame⟩, rfl⟩) _
    (List.mem_map.mpr ⟨e', List.mem_filter.mpr ⟨he', decide_eq_true rfl⟩, rfl⟩)

theorem callbackStep_call (c : Call) {w : World} (hw : WellFormed P w.db) (hbacked : Backed w.db) :
    CallbackStep P w (World.step P (.call c) w) := by
  obtain ⟨added, owed, hlogs⟩ := (fed_call c hw).logs
  have hw' : WellFormed P (c.after P w.db) := (moves_call c hw).wellFormed hw
  refine .added owed hlogs.callbacks (fun d hd => ?_) (fun d hd older holder hsame => ?_) rfl rfl
    (fun _ h => h)
  · obtain ⟨e, -, hnew⟩ := hlogs.paired d hd
    obtain ⟨env, -, k, hnow⟩ := hnew.nextAttemptAt
    exact ⟨hnew.state, hnew.attempts, hnew.leaseToken, hnew.leaseUntil, env.now k, hnow⟩
  · obtain ⟨e', he', hnew⟩ := hlogs.paired d hd
    obtain ⟨e, he, -, hrequest, hrevision⟩ := hbacked older holder
    rw [← hrevision, hnew.revision]
    refine revision_lt_of_new hw' hlogs.events he he' ?_
    rw [hrequest, hsame, hnew.requestId]

theorem callbackStep_claim (env : Env) (faults : List Bool) {w : World}
    (hfresh : env.newId 0 ∉ w.tokens) : CallbackStep P w (World.step P (.claimCallback env faults) w) := by
  unfold World.step
  dsimp only
  rcases CallbackDeliveries.exec_claimDue env faults w.db with
    (he | ⟨he, -⟩) | ⟨c, db', until_, hnext, rfl, hrewritten, he⟩
  · rw [he]
    exact callbackStep_same rfl rfl rfl (List.subset_cons_self _ _)
  · rw [he]
    exact callbackStep_same rfl rfl rfl (List.subset_cons_self _ _)
  · rw [he]
    exact .claimed env c _ hnext hfresh hrewritten rfl rfl rfl

theorem callbackStep_complete (env : Env) (claim : CallbackClaim) (status : Nat)
    (faults : List Bool) {w : World} (hclaim : claim ∈ w.callbackClaims) :
    CallbackStep P w (World.step P (.completeCallback env claim status faults) w) := by
  unfold World.step
  dsimp only
  unfold CallbackDeliveries.complete
  split
  · exact callbackStep_same rfl rfl rfl (fun _ h => h)
  · rcases CallbackDeliveries.exec_settle (env.nowString 0) claim
        (completedRow (env.nowString 0) status) (fun _ => rfl) faults w.db with
      ⟨r, he, hr⟩ | ⟨c, db', hheld, hrewritten, he⟩
    · rw [he]
      refine callbackStep_same rfl rfl (if_neg ?_) (fun _ h => h)
      intro hok
      cases r with
      | error e => cases hok
      | ok b => exact hr (congrArg Except.ok (Option.some.inj hok))
    · rw [he]
      refine .completed env claim status c hclaim hheld hrewritten rfl ?_ rfl
      have hkey := (CallbackDeliveries.heldBy_eq_true.mp hheld).1
      have hok : (Except.ok true : Except ApiError Bool).toOption = some true := rfl
      dsimp only
      rw [if_pos hok, ← hkey, hrewritten.stored]
      rfl

theorem callbackStep_retry (env : Env) (claim : CallbackClaim) (status : Option Nat)
    (blockedPolicy : Bool) (faults : List Bool) {w : World} (hclaim : claim ∈ w.callbackClaims) :
    CallbackStep P w (World.step P (.retryCallback env claim status blockedPolicy faults) w) := by
  unfold World.step
  dsimp only
  unfold CallbackDeliveries.retry
  dsimp only
  rcases CallbackDeliveries.exec_settle (env.nowString 0) claim
      (retriedRow (env.nowString 0) _ status blockedPolicy) (fun _ => rfl) faults w.db with
    ⟨r, he, -⟩ | ⟨c, db', hheld, hrewritten, he⟩
  · rw [he]
    exact callbackStep_same rfl rfl rfl (fun _ h => h)
  · rw [he]
    exact .retried env claim _ status blockedPolicy c hclaim hheld hrewritten rfl rfl rfl

theorem callbacks_settleEvent {now : String} {claim : LifecyclePublish.PublishClaim}
    {f : EventRow → EventRow} {hf : ∀ e, (f e).eventId = e.eventId} {faults : List Bool} {s : Db} :
    (Prog.exec databaseError (LifecyclePublish.settle now claim f hf) faults s).2.callbacks =
      s.callbacks := by
  rcases LifecyclePublish.exec_settle now claim f hf faults s with
    ⟨r, he, -⟩ | ⟨e, db', -, hrewritten, he⟩
  · rw [he]
  · rw [he, hrewritten.rest]

/-- What one action does to the outbox. -/
theorem callbackStep_of_act (a : Act) {w : World} (hw : WellFormed P w.db) (hbacked : Backed w.db)
    (hallowed : World.allows a w) : CallbackStep P w (World.step P a w) := by
  cases a with
  | call c => exact callbackStep_call c hw hbacked
  | claimCallback env faults => exact callbackStep_claim env faults hallowed
  | completeCallback env claim status faults =>
    exact callbackStep_complete env claim status faults hallowed
  | retryCallback env claim status blockedPolicy faults =>
    exact callbackStep_retry env claim status blockedPolicy faults hallowed
  | claimEvent env faults =>
    refine callbackStep_same ?_ rfl rfl (List.subset_cons_self _ _)
    change (Prog.exec databaseError (LifecyclePublish.claimDue env) faults w.db).2.callbacks = _
    rcases LifecyclePublish.exec_claimDue env faults w.db with
      (he | ⟨he, -⟩) | ⟨e, db', until_, -, -, hrewritten, he⟩
    · rw [he]
    · rw [he]
    · rw [he, hrewritten.rest]
  | publishEvent env claim streamSeq faults =>
    exact callbackStep_same callbacks_settleEvent rfl rfl (fun _ h => h)
  | retryEvent env claim faults =>
    exact callbackStep_same callbacks_settleEvent rfl rfl (fun _ h => h)
  | recoverPushes env epoch faults =>
    refine callbackStep_same ?_ rfl rfl (fun _ h => h)
    change (Prog.exec databaseError (PushDeliveries.recoverPushes _ epoch) faults
      w.db).2.callbacks = _
    rcases PushDeliveries.exec_recoverPushes (env.nowString 0) epoch faults w.db with
      he | ⟨db', hupdated, he⟩
    · rw [he]
    · rw [he, hupdated.rest]
  | claimPushes env epoch limit faults =>
    refine callbackStep_same ?_ rfl rfl (fun _ h => h)
    change (Prog.exec databaseError (PushDeliveries.claimPushes _ epoch limit) faults
      w.db).2.callbacks = _
    rcases PushDeliveries.exec_claimPushes (env.nowString 0) epoch limit faults w.db with
      he | ⟨db', jobs, hupdated, -, he⟩
    · rw [he]
    · rw [he, hupdated.rest]
  | task i move =>
    unfold World.step
    dsimp only
    cases w.tasks[i]? with
    | none => exact callbackStep_same rfl rfl rfl (fun _ h => h)
    | some task => exact callbackStep_same (task_aside move task w.db).1 rfl rfl (fun _ h => h)

/-! ## The invariant -/

/-- What a row says about its lease and its times. -/
structure RowSound (c : CallbackRow) : Prop where
  leased : c.state = "sending" → c.leaseToken ≠ none
  free : c.state ≠ "sending" → c.leaseToken = none
  next : ∃ t : DateTime, c.nextAttemptAt = t.toRfc3339Millis
  lease : ∀ u, c.leaseUntil = some u → ∃ t : DateTime, u = t.toRfc3339Millis

/-- A claim carries the row's delivery. -/
structure ClaimOn (claim : CallbackClaim) (c : CallbackRow) : Prop where
  deliveryId : claim.deliveryId = c.deliveryId
  eventId : claim.eventId = c.eventId
  requestRevision : claim.requestRevision = c.requestRevision
  url : claim.url = c.url
  payload : claim.payload = c.payload

/-- Deliveries of a request are marked in the order of their revisions; the list has the latest
    mark first. -/
def InOrder (marks : List (String × Nat)) : Prop :=
  marks.Pairwise fun later earlier => later.1 = earlier.1 → earlier.2 < later.2

/-- The claims handed out for a delivery, the latest first. -/
def World.claimsOn (w : World) (deliveryId : String) : List CallbackClaim :=
  w.callbackClaims.filter fun claim => claim.deliveryId = deliveryId

/-- The lease on a delivery. -/
def World.leaseOn (w : World) (deliveryId : String) : Lease String where
  done := (w.db.callbacks.get? deliveryId).any fun c => c.state = "delivered"
  holder := (w.db.callbacks.get? deliveryId).bind CallbackRow.leaseToken
  issued := (w.claimsOn deliveryId).map CallbackClaim.leaseToken

structure Outbox (w : World) : Prop where
  rows : ∀ c ∈ w.db.callbacks.rows, RowSound c
  behind : ∀ c ∈ w.db.callbacks.rows, c.state = "sending" ∨ c.state = "delivered" →
    ∀ d ∈ w.db.callbacks.rows, d.requestId = c.requestId → d.requestRevision < c.requestRevision →
      d.state = "delivered"
  tokens : ∀ claim ∈ w.callbackClaims, claim.leaseToken ∈ w.tokens
  claims : ∀ claim ∈ w.callbackClaims, ∃ c ∈ w.db.callbacks.rows, ClaimOn claim c
  marks : ∀ mark ∈ w.delivered, ∃ c ∈ w.db.callbacks.rows,
    c.state = "delivered" ∧ mark = (c.requestId, c.requestRevision)
  marked : ∀ c ∈ w.db.callbacks.rows, c.state = "delivered" →
    (c.requestId, c.requestRevision) ∈ w.delivered
  ordered : InOrder w.delivered

theorem mem_rewritten {s s' : Db} {c c' d : CallbackRow} (h : Rewritten s s' c c')
    (hd : d ∈ s'.callbacks.rows) : d = c' ∨ d ∈ s.callbacks.rows ∧ d.deliveryId ≠ c.deliveryId := by
  have hget := Table.get?_of_mem hd
  rw [h.get?] at hget
  split at hget
  · exact Or.inl (Option.some.inj hget).symm
  · rename_i hne
    exact Or.inr ⟨Table.mem_of_get? hget, hne⟩

/-- A row that is rewritten is there before and after; the others stand. -/
theorem mem_of_rewritten {s s' : Db} {c c' d : CallbackRow} (h : Rewritten s s' c c')
    (hsame : SameDelivery c c') (hd : d ∈ s.callbacks.rows) :
    ∃ d' ∈ s'.callbacks.rows, SameDelivery d d' ∧ (d = c ∧ d' = c' ∨ d' = d) := by
  by_cases hid : d.deliveryId = c.deliveryId
  · have hdc : d = c := by
      have hget := Table.get?_of_mem hd
      rw [hid, h.stored] at hget
      exact (Option.some.inj hget).symm
    subst hdc
    refine ⟨c', ?_, hsame, Or.inl ⟨rfl, rfl⟩⟩
    have hget := h.get? d.deliveryId
    rw [if_pos rfl] at hget
    exact Table.mem_of_get? hget
  · refine ⟨d, ?_, sameDelivery_refl d, Or.inr rfl⟩
    have hget := h.get? d.deliveryId
    rw [if_neg hid, Table.get?_of_mem hd] at hget
    exact Table.mem_of_get? hget

theorem ClaimOn.same {claim : CallbackClaim} {c c' : CallbackRow} (h : ClaimOn claim c)
    (hsame : SameDelivery c c') : ClaimOn claim c' :=
  ⟨h.deliveryId.trans hsame.deliveryId.symm, h.eventId.trans hsame.eventId.symm,
    h.requestRevision.trans hsame.requestRevision.symm, h.url.trans hsame.url.symm,
    h.payload.trans hsame.payload.symm⟩

/-- Rewriting a row that is owed keeps up what hangs on the rows; the claims and marks of the new
    world are those of its rows. -/
theorem Outbox.rewrite {w w' : World} (h : Outbox w) {c c' : CallbackRow}
    (hrow : Rewritten w.db w'.db c c') (hsame : SameDelivery c c') (howed : c.state ≠ "delivered")
    (hsound : RowSound c')
    (hbehind : c'.state = "sending" ∨ c'.state = "delivered" → ∀ d ∈ w.db.callbacks.rows,
      d.requestId = c.requestId → d.requestRevision < c.requestRevision → d.state = "delivered")
    (htokens : ∀ claim ∈ w'.callbackClaims, claim.leaseToken ∈ w'.tokens)
    (hclaims : ∀ claim ∈ w'.callbackClaims, claim ∈ w.callbackClaims ∨ ClaimOn claim c')
    (hmarks : ∀ mark ∈ w'.delivered, mark ∈ w.delivered ∨
      c'.state = "delivered" ∧ mark = (c'.requestId, c'.requestRevision))
    (hold : w.delivered ⊆ w'.delivered)
    (hmarked : c'.state = "delivered" → (c'.requestId, c'.requestRevision) ∈ w'.delivered)
    (hordered : InOrder w'.delivered) : Outbox w' := by
  have hnew : c' ∈ w'.db.callbacks.rows := by
    have hget := hrow.get? c.deliveryId
    rw [if_pos rfl] at hget
    exact Table.mem_of_get? hget
  refine ⟨fun d hd => ?_, fun d hd hstate e he hrequest hrevision => ?_, htokens,
    fun claim hclaim => ?_, fun mark hmark => ?_, fun d hd hstate => ?_, hordered⟩
  · rcases mem_rewritten hrow hd with rfl | ⟨hd, -⟩
    · exact hsound
    · exact h.rows d hd
  · rcases mem_rewritten hrow hd with rfl | ⟨hd, -⟩
    · rcases mem_rewritten hrow he with rfl | ⟨heold, -⟩
      · exact absurd hrevision (lt_irrefl _)
      · rw [hsame.requestId] at hrequest
        rw [hsame.requestRevision] at hrevision
        exact hbehind hstate e heold hrequest hrevision
    · rcases mem_rewritten hrow he with rfl | ⟨heold, -⟩
      · rw [hsame.requestId] at hrequest
        rw [hsame.requestRevision] at hrevision
        exact absurd (h.behind d hd hstate c (Table.mem_of_get? hrow.stored) hrequest hrevision)
          howed
      · exact h.behind d hd hstate e heold hrequest hrevision
  · rcases hclaims claim hclaim with hclaim | hon
    · obtain ⟨d, hd, hon⟩ := h.claims claim hclaim
      obtain ⟨d', hd', hsame', -⟩ := mem_of_rewritten hrow hsame hd
      exact ⟨d', hd', hon.same hsame'⟩
    · exact ⟨c', hnew, hon⟩
  · rcases hmarks mark hmark with hmark | ⟨hstate, rfl⟩
    · obtain ⟨d, hd, hstate, rfl⟩ := h.marks mark hmark
      obtain ⟨d', hd', hsame', ⟨rfl, -⟩ | rfl⟩ := mem_of_rewritten hrow hsame hd
      · exact absurd hstate howed
      · exact ⟨d', hd', hstate, rfl⟩
    · exact ⟨c', hnew, hstate, rfl⟩
  · rcases mem_rewritten hrow hd with rfl | ⟨hd, -⟩
    · exact hmarked hstate
    · exact hold (h.marked d hd hstate)

theorem not_fenced {s : Db} {c : CallbackRow} (h : CallbackDeliveries.fenced s c = false) :
    ∀ d ∈ s.callbacks.rows, d.requestId = c.requestId → d.requestRevision < c.requestRevision →
      d.state = "delivered" := by
  intro d hd hrequest hrevision
  by_contra hstate
  unfold CallbackDeliveries.fenced at h
  rw [List.any_eq_false] at h
  exact h d hd (by simp [hrequest, hrevision, hstate])

theorem outbox_step {w w' : World} (hs : WellFormed P w.db) (hbacked : Backed w.db)
    (hw : Outbox w) (h : CallbackStep P w w') : Outbox w' := by
  cases h with
  | added owed hrows huntried hbehind hclaims hdelivered htokens =>
    have hold : ∀ d, d ∈ w.db.callbacks.rows → d ∈ w'.db.callbacks.rows := fun d hd => by
      rw [hrows]
      exact List.mem_append_left _ hd
    have hidle : ∀ d ∈ owed, ¬ (d.state = "sending" ∨ d.state = "delivered") := fun d hd => by
      rw [(huntried d hd).state]
      decide
    refine ⟨fun d hd => ?_, fun d hd hstate e he hrequest hrevision => ?_, fun claim hclaim => ?_,
      fun claim hclaim => ?_, fun mark hmark => ?_, fun d hd hstate => ?_, ?_⟩
    · rw [hrows] at hd
      rcases List.mem_append.mp hd with hd | hd
      · exact hw.rows d hd
      · have hnew := huntried d hd
        refine ⟨fun hsending => absurd (Or.inl hsending) (hidle d hd), fun _ => hnew.leaseToken,
          hnew.nextAttemptAt, fun u hu => ?_⟩
        rw [hnew.leaseUntil] at hu
        cases hu
    · rw [hrows] at hd he
      rcases List.mem_append.mp hd with hd | hd
      · rcases List.mem_append.mp he with he | he
        · exact hw.behind d hd hstate e he hrequest hrevision
        · exact absurd hrevision (lt_asymm (hbehind e he d hd hrequest.symm))
      · exact absurd hstate (hidle d hd)
    · rw [hclaims] at hclaim
      exact htokens (hw.tokens claim hclaim)
    · rw [hclaims] at hclaim
      obtain ⟨d, hd, hon⟩ := hw.claims claim hclaim
      exact ⟨d, hold d hd, hon⟩
    · rw [hdelivered] at hmark
      obtain ⟨d, hd, hof⟩ := hw.marks mark hmark
      exact ⟨d, hold d hd, hof⟩
    · rw [hdelivered]
      rw [hrows] at hd
      rcases List.mem_append.mp hd with hd | hd
      · exact hw.marked d hd hstate
      · exact absurd (Or.inr hstate) (hidle d hd)
    · rw [hdelivered]
      exact hw.ordered
  | claimed env c until_ hnext hfresh hrow hclaims hdelivered htokens =>
    obtain ⟨hmem, hdue, -⟩ := CallbackDeliveries.nextDue_eq_some hnext
    obtain ⟨hready, hfenced⟩ := Bool.and_eq_true_iff.mp hdue
    have howed : c.state ≠ "delivered" := by
      unfold CallbackDeliveries.ready at hready
      simp only [Bool.and_eq_true, decide_eq_true_eq] at hready
      exact hready.1.1
    refine hw.rewrite hrow ⟨rfl, rfl, rfl, rfl, rfl, rfl⟩ howed
      ⟨fun _ => Option.some_ne_none _, fun h => absurd rfl h, (hw.rows c hmem).next, ?_⟩
      (fun _ => not_fenced (Bool.not_eq_true' _ ▸ hfenced)) (fun claim hclaim => ?_)
      (fun claim hclaim => ?_) (fun mark hmark => ?_) (fun mark hmark => ?_)
      (fun h => absurd h (by decide : ("sending" : String) ≠ "delivered")) ?_
    · intro u hu
      cases hu
      exact ⟨until_, rfl⟩
    · rw [htokens]
      rw [hclaims] at hclaim
      rcases List.mem_cons.mp hclaim with rfl | hclaim
      · exact List.mem_cons_self
      · exact List.mem_cons_of_mem _ (hw.tokens claim hclaim)
    · rw [hclaims] at hclaim
      rcases List.mem_cons.mp hclaim with rfl | hclaim
      · exact Or.inr ⟨rfl, rfl, rfl, rfl, rfl⟩
      · exact Or.inl hclaim
    · rw [hdelivered] at hmark
      exact Or.inl hmark
    · rw [hdelivered]
      exact hmark
    · rw [hdelivered]
      exact hw.ordered
  | completed env claim status c hclaim hheld hrow hclaims hdelivered htokens =>
    obtain ⟨-, hsending, -, -⟩ := CallbackDeliveries.heldBy_eq_true.mp hheld
    have hmem := Table.mem_of_get? hrow.stored
    have howed : c.state ≠ "delivered" := by
      rw [hsending]
      decide
    refine hw.rewrite hrow ⟨rfl, rfl, rfl, rfl, rfl, rfl⟩ howed
      ⟨fun h => absurd h (by decide : ("delivered" : String) ≠ "sending"), fun _ => rfl,
        (hw.rows c hmem).next, fun _ hu => by cases hu⟩
      (fun _ => hw.behind c hmem (Or.inl hsending)) (fun claim' hclaim' => ?_)
      (fun claim' hclaim' => ?_) (fun mark hmark => ?_) (fun mark hmark => ?_) (fun _ => ?_) ?_
    · rw [htokens]
      rw [hclaims] at hclaim'
      exact hw.tokens claim' hclaim'
    · rw [hclaims] at hclaim'
      exact Or.inl hclaim'
    · rw [hdelivered] at hmark
      rcases List.mem_cons.mp hmark with rfl | hmark
      · exact Or.inr ⟨rfl, rfl⟩
      · exact Or.inl hmark
    · rw [hdelivered]
      exact List.mem_cons_of_mem _ hmark
    · rw [hdelivered]
      exact List.mem_cons_self
    · rw [hdelivered]
      refine List.pairwise_cons.mpr ⟨fun mark hmark hrequest => ?_, hw.ordered⟩
      -- a delivered row of the request is neither this one nor one behind it
      obtain ⟨d, hd, hdelivered, rfl⟩ := hw.marks mark hmark
      rcases lt_trichotomy d.requestRevision c.requestRevision with hlt | heq | hgt
      · exact hlt
      · rw [eq_of_revision hs hbacked hd hmem hrequest.symm heq, hsending] at hdelivered
        exact absurd hdelivered (by decide)
      · exact absurd (hw.behind d hd (Or.inr hdelivered) c hmem hrequest hgt) howed
  | retried env claim next status blockedPolicy c hclaim hheld hrow hclaims hdelivered htokens =>
    obtain ⟨-, hsending, -, -⟩ := CallbackDeliveries.heldBy_eq_true.mp hheld
    have howed : c.state ≠ "delivered" := by
      rw [hsending]
      decide
    have hidle : ¬ ((if blockedPolicy then "blocked_policy" else "retrying") = "sending" ∨
        (if blockedPolicy then "blocked_policy" else "retrying") = "delivered") := by
      cases blockedPolicy <;> decide
    refine hw.rewrite hrow ⟨rfl, rfl, rfl, rfl, rfl, rfl⟩ howed
      ⟨fun h => absurd (Or.inl h) hidle, fun _ => rfl, ⟨next, rfl⟩, fun _ hu => by cases hu⟩
      (fun h => absurd h hidle) (fun claim' hclaim' => ?_) (fun claim' hclaim' => ?_)
      (fun mark hmark => ?_) (fun mark hmark => ?_) (fun h => absurd (Or.inr h) hidle) ?_
    · rw [htokens]
      rw [hclaims] at hclaim'
      exact hw.tokens claim' hclaim'
    · rw [hclaims] at hclaim'
      exact Or.inl hclaim'
    · rw [hdelivered] at hmark
      exact Or.inl hmark
    · rw [hdelivered]
      exact hmark
    · rw [hdelivered]
      exact hw.ordered

/-! ## Leases -/

theorem claimsOn_eq {w w' : World} (h : w'.callbackClaims = w.callbackClaims) (id : String) :
    w'.claimsOn id = w.claimsOn id := by
  unfold World.claimsOn
  rw [h]

/-- Rewriting a row leaves the leases on the others. -/
theorem leaseOn_of_ne {w w' : World} {c c' : CallbackRow} (hrow : Rewritten w.db w'.db c c')
    {id : String} (hne : id ≠ c.deliveryId) (hclaims : w'.claimsOn id = w.claimsOn id) :
    w'.leaseOn id = w.leaseOn id := by
  unfold World.leaseOn
  rw [hrow.get?, if_neg hne, hclaims]

theorem leaseOn_rewritten {w w' : World} {c c' : CallbackRow} (hrow : Rewritten w.db w'.db c c') :
    w'.leaseOn c.deliveryId = ⟨decide (c'.state = "delivered"), c'.leaseToken,
      (w'.claimsOn c.deliveryId).map CallbackClaim.leaseToken⟩ := by
  unfold World.leaseOn
  rw [hrow.get?, if_pos rfl]
  rfl

theorem leaseOn_open {w : World} {c : CallbackRow}
    (hc : w.db.callbacks.get? c.deliveryId = some c) (howed : c.state ≠ "delivered") :
    (w.leaseOn c.deliveryId).done = false := by
  unfold World.leaseOn
  rw [hc]
  exact decide_eq_false howed

/-- Every action moves each lease by at most one step. -/
theorem leaseOn_move {w w' : World} (hw : Outbox w) (h : CallbackStep P w w') (id : String) :
    Lease.Move (w.leaseOn id) (w'.leaseOn id) := by
  cases h with
  | added owed hrows huntried hbehind hclaims hdelivered htokens =>
    have hsame : w'.leaseOn id = w.leaseOn id := by
      have hget : w'.db.callbacks.get? id =
          (w.db.callbacks.get? id).or (owed.find? fun c => decide (c.deliveryId = id)) := by
        rw [Table.get?, hrows, List.find?_append]
        rfl
      unfold World.leaseOn
      rw [claimsOn_eq hclaims, hget]
      cases hold : w.db.callbacks.get? id with
      | some c => rfl
      | none =>
        rw [Option.none_or]
        cases hnew : owed.find? fun c => decide (c.deliveryId = id) with
        | none => rfl
        | some c =>
          have huntried := huntried c (List.mem_of_find?_eq_some hnew)
          rw [Option.any_some, Option.bind_some, huntried.leaseToken, huntried.state]
          rfl
    rw [hsame]
    exact .stay _
  | claimed env c until_ hnext hfresh hrow hclaims hdelivered htokens =>
    obtain ⟨-, hdue, -⟩ := CallbackDeliveries.nextDue_eq_some hnext
    have howed : c.state ≠ "delivered" := by
      unfold CallbackDeliveries.due CallbackDeliveries.ready at hdue
      simp only [Bool.and_eq_true, decide_eq_true_eq] at hdue
      exact hdue.1.1.1
    by_cases hid : id = c.deliveryId
    · subst hid
      have hon : w'.claimsOn c.deliveryId = claimOf (env.newId 0)
          (claimedRow (env.newId 0) until_.toRfc3339Millis (env.nowString 0) c) ::
            w.claimsOn c.deliveryId := by
        unfold World.claimsOn
        rw [hclaims, List.filter_cons]
        exact if_pos (decide_eq_true rfl)
      rw [leaseOn_rewritten hrow, hon]
      refine .claim _ (env.newId 0) (leaseOn_open hrow.stored howed) fun hissued => ?_
      obtain ⟨claim, hclaim, htoken⟩ := List.mem_map.mp hissued
      exact hfresh (htoken ▸ hw.tokens claim (List.mem_filter.mp hclaim).1)
    · have hon : w'.claimsOn id = w.claimsOn id := by
        unfold World.claimsOn
        rw [hclaims, List.filter_cons, if_neg]
        exact fun h => hid (of_decide_eq_true h).symm
      rw [leaseOn_of_ne hrow hid hon]
      exact .stay _
  | completed env claim status c hclaim hheld hrow hclaims hdelivered htokens =>
    obtain ⟨-, hsending, -, -⟩ := CallbackDeliveries.heldBy_eq_true.mp hheld
    by_cases hid : id = c.deliveryId
    · subst hid
      rw [leaseOn_rewritten hrow, claimsOn_eq hclaims]
      refine .finish _ (leaseOn_open hrow.stored ?_)
      rw [hsending]
      decide
    · rw [leaseOn_of_ne hrow hid (claimsOn_eq hclaims id)]
      exact .stay _
  | retried env claim next status blockedPolicy c hclaim hheld hrow hclaims hdelivered htokens =>
    obtain ⟨-, hsending, -, -⟩ := CallbackDeliveries.heldBy_eq_true.mp hheld
    by_cases hid : id = c.deliveryId
    · subst hid
      have hopen : decide ((if blockedPolicy then "blocked_policy" else "retrying") = "delivered") =
          false := by cases blockedPolicy <;> decide
      rw [leaseOn_rewritten hrow, claimsOn_eq hclaims]
      change Lease.Move _ ⟨decide ((if blockedPolicy then "blocked_policy" else "retrying") = "delivered"),
        none, _⟩
      rw [hopen]
      refine .release _ (leaseOn_open hrow.stored ?_)
      rw [hsending]
      decide
    · rw [leaseOn_of_ne hrow hid (claimsOn_eq hclaims id)]
      exact .stay _

/-! ## Runs -/

/-- The invariant of a world, its outbox and the leases on it. -/
structure OutboxSafe (P : Packages) (w : World) : Prop where
  wellFormed : WellFormed P w.db
  backed : Backed w.db
  outbox : Outbox w
  leases : ∀ id, (w.leaseOn id).Sound

theorem outboxSafe_step (a : Act) {w : World} (hw : OutboxSafe P w) (hallowed : World.allows a w) :
    OutboxSafe P (World.step P a w) := by
  have hstep := callbackStep_of_act a hw.wellFormed hw.backed hallowed
  exact ⟨wellFormed_step a hw.wellFormed, backed_step a hw.wellFormed hw.backed,
    outbox_step hw.wellFormed hw.backed hw.outbox hstep,
    fun id => (hw.leases id).move (leaseOn_move hw.outbox hstep id)⟩

theorem outboxSafe_empty : OutboxSafe P World.empty where
  wellFormed := wellFormed_empty P
  backed _ h := absurd h List.not_mem_nil
  outbox := ⟨fun _ h => absurd h List.not_mem_nil, fun _ h => absurd h List.not_mem_nil,
    fun _ h => absurd h List.not_mem_nil, fun _ h => absurd h List.not_mem_nil,
    fun _ h => absurd h List.not_mem_nil, fun _ h => absurd h List.not_mem_nil,
    List.Pairwise.nil⟩
  leases _ := Lease.sound_new

theorem outboxSafe_run {acts : List Act} {w : World} (hw : OutboxSafe P w)
    (hlegal : (worlds P).Legal acts w) : OutboxSafe P ((worlds P).run acts w) :=
  Machine.invariant (M := worlds P) (fun a _ h hallowed => outboxSafe_step a h hallowed) hw hlegal

theorem leaseOn_run {acts : List Act} {w : World} (hw : OutboxSafe P w)
    (hlegal : (worlds P).Legal acts w) (id : String) :
    Lease.Moves (w.leaseOn id) (((worlds P).run acts w).leaseOn id) :=
  Machine.relates (M := worlds P) (I := OutboxSafe P)
    (R := fun a b => Lease.Moves (a.leaseOn id) (b.leaseOn id)) (fun _ => .refl)
    (fun h k => h.trans k) (fun a _ h hallowed => outboxSafe_step a h hallowed)
    (fun a _ h hallowed => .single (leaseOn_move h.outbox
      (callbackStep_of_act a h.wellFormed h.backed hallowed) id)) hw hlegal

/-- Rows stay, each with its delivery, and a delivered row stays as it is. -/
structure RowsKept (w w' : World) : Prop where
  kept : ∀ c ∈ w.db.callbacks.rows, ∃ c' ∈ w'.db.callbacks.rows, SameDelivery c c'
  delivered : ∀ c ∈ w.db.callbacks.rows, c.state = "delivered" → c ∈ w'.db.callbacks.rows

theorem rowsKept_rewritten {w w' : World} {c c' : CallbackRow} (hrow : Rewritten w.db w'.db c c')
    (hsame : SameDelivery c c') (howed : c.state ≠ "delivered") : RowsKept w w' := by
  refine ⟨fun d hd => ?_, fun d hd hstate => ?_⟩
  · obtain ⟨d', hd', hsame', -⟩ := mem_of_rewritten hrow hsame hd
    exact ⟨d', hd', hsame'⟩
  · obtain ⟨d', hd', -, ⟨rfl, -⟩ | rfl⟩ := mem_of_rewritten hrow hsame hd
    · exact absurd hstate howed
    · exact hd'

theorem rowsKept_step {w w' : World} (h : CallbackStep P w w') : RowsKept w w' := by
  cases h with
  | added owed hrows huntried hbehind hclaims hdelivered htokens =>
    have hold : ∀ d, d ∈ w.db.callbacks.rows → d ∈ w'.db.callbacks.rows := fun d hd => by
      rw [hrows]
      exact List.mem_append_left _ hd
    exact ⟨fun d hd => ⟨d, hold d hd, sameDelivery_refl d⟩, fun d hd _ => hold d hd⟩
  | claimed env c until_ hnext hfresh hrow hclaims hdelivered htokens =>
    refine rowsKept_rewritten hrow ⟨rfl, rfl, rfl, rfl, rfl, rfl⟩ ?_
    obtain ⟨-, hdue, -⟩ := CallbackDeliveries.nextDue_eq_some hnext
    unfold CallbackDeliveries.due CallbackDeliveries.ready at hdue
    simp only [Bool.and_eq_true, decide_eq_true_eq] at hdue
    exact hdue.1.1.1
  | completed env claim status c hclaim hheld hrow hclaims hdelivered htokens =>
    refine rowsKept_rewritten hrow ⟨rfl, rfl, rfl, rfl, rfl, rfl⟩ ?_
    rw [(CallbackDeliveries.heldBy_eq_true.mp hheld).2.1]
    decide
  | retried env claim next status blockedPolicy c hclaim hheld hrow hclaims hdelivered htokens =>
    refine rowsKept_rewritten hrow ⟨rfl, rfl, rfl, rfl, rfl, rfl⟩ ?_
    rw [(CallbackDeliveries.heldBy_eq_true.mp hheld).2.1]
    decide

theorem rowsKept_trans {a b c : World} (h : RowsKept a b) (k : RowsKept b c) : RowsKept a c := by
  refine ⟨fun d hd => ?_, fun d hd hstate => k.delivered d (h.delivered d hd hstate) hstate⟩
  obtain ⟨d', hd', hsame⟩ := h.kept d hd
  obtain ⟨d'', hd'', hsame'⟩ := k.kept d' hd'
  exact ⟨d'', hd'', hsame.trans hsame'⟩

theorem rowsKept_run {acts : List Act} {w : World} (hw : OutboxSafe P w)
    (hlegal : (worlds P).Legal acts w) : RowsKept w ((worlds P).run acts w) :=
  Machine.relates (M := worlds P) (I := OutboxSafe P) (R := RowsKept)
    (fun _ => ⟨fun c hc => ⟨c, hc, sameDelivery_refl c⟩, fun _ hc _ => hc⟩) rowsKept_trans
    (fun a _ h hallowed => outboxSafe_step a h hallowed)
    (fun a _ h hallowed => rowsKept_step (callbackStep_of_act a h.wellFormed h.backed hallowed))
    hw hlegal

/-! ## Settling -/

/-- At some clock reading this claim completes its row or puts it off. -/
def CanSettle (w : World) (claim : CallbackClaim) : Prop :=
  (∃ env status faults,
    (Prog.exec databaseError (CallbackDeliveries.complete env claim status) faults w.db).1 = .ok true) ∨
  ∃ env status blockedPolicy faults,
    (Prog.exec databaseError (CallbackDeliveries.retry env claim status blockedPolicy) faults
      w.db).1 = .ok true

/-- Whatever is done with this claim, the database stays as it is. -/
def Powerless (w : World) (claim : CallbackClaim) : Prop :=
  (∀ env status faults,
    (Prog.exec databaseError (CallbackDeliveries.complete env claim status) faults w.db).2 = w.db) ∧
  ∀ env status blockedPolicy faults,
    (Prog.exec databaseError (CallbackDeliveries.retry env claim status blockedPolicy) faults
      w.db).2 = w.db

theorem holder_of_held {w : World} {now : String} {claim : CallbackClaim} {c c' : CallbackRow}
    {s' : Db} (hheld : heldBy now claim c = true) (hrow : Rewritten w.db s' c c') :
    (w.leaseOn claim.deliveryId).holder = some claim.leaseToken := by
  obtain ⟨hkey, -, htoken, -⟩ := CallbackDeliveries.heldBy_eq_true.mp hheld
  unfold World.leaseOn
  rw [← hkey, hrow.stored]
  exact htoken

theorem settle_cases {w : World} (now : String) (claim : CallbackClaim)
    (f : CallbackRow → CallbackRow) (hf : ∀ c, (f c).deliveryId = c.deliveryId)
    (faults : List Bool) :
    let r := Prog.exec databaseError (CallbackDeliveries.settle now claim f hf) faults w.db
    (r.1 ≠ .ok true ∧ r.2 = w.db) ∨
      (w.leaseOn claim.deliveryId).holder = some claim.leaseToken := by
  rcases CallbackDeliveries.exec_settle now claim f hf faults w.db with
    ⟨r, he, hr⟩ | ⟨c, db', hheld, hrow, -⟩
  · rw [he]
    exact Or.inl ⟨hr, rfl⟩
  · exact Or.inr (holder_of_held hheld hrow)

theorem complete_cases {w : World} (env : Env) (claim : CallbackClaim) (status : Nat)
    (faults : List Bool) :
    let r := Prog.exec databaseError (CallbackDeliveries.complete env claim status) faults w.db
    (r.1 ≠ .ok true ∧ r.2 = w.db) ∨
      (w.leaseOn claim.deliveryId).holder = some claim.leaseToken := by
  unfold CallbackDeliveries.complete
  split
  · exact Or.inl ⟨(fun h => by cases h), rfl⟩
  · exact settle_cases _ claim _ _ faults

theorem holder_of_canSettle {w : World} {claim : CallbackClaim} (h : CanSettle w claim) :
    (w.leaseOn claim.deliveryId).holder = some claim.leaseToken := by
  rcases h with ⟨env, status, faults, hok⟩ | ⟨env, status, blockedPolicy, faults, hok⟩
  · rcases complete_cases env claim status faults with ⟨hne, -⟩ | hholder
    · exact absurd hok hne
    · exact hholder
  · rcases settle_cases _ claim _ _ faults with ⟨hne, -⟩ | hholder
    · exact absurd hok hne
    · exact hholder

theorem powerless_of_not_holder {w : World} {claim : CallbackClaim}
    (h : (w.leaseOn claim.deliveryId).holder ≠ some claim.leaseToken) : Powerless w claim := by
  refine ⟨fun env status faults => ?_, fun env status blockedPolicy faults => ?_⟩
  · rcases complete_cases env claim status faults with ⟨-, hsame⟩ | hholder
    · exact hsame
    · exact absurd hholder h
  · rcases settle_cases _ claim _ _ faults with ⟨-, hsame⟩ | hholder
    · exact hsame
    · exact absurd hholder h

/-- A claim whose row was claimed again has lost it. -/
theorem lost_of_later {w : World} (hw : OutboxSafe P w) {claim newer : CallbackClaim}
    {later earlier : List CallbackClaim} (hclaims : w.callbackClaims = later ++ claim :: earlier)
    (hnewer : newer ∈ later) (hsame : newer.deliveryId = claim.deliveryId) :
    claim.leaseToken ∈ (w.leaseOn claim.deliveryId).issued ∧
      (w.leaseOn claim.deliveryId).holder ≠ some claim.leaseToken := by
  have hissued : (w.leaseOn claim.deliveryId).issued =
      (later.filter fun c => c.deliveryId = claim.deliveryId).map CallbackClaim.leaseToken ++
        claim.leaseToken ::
          (earlier.filter fun c => c.deliveryId = claim.deliveryId).map CallbackClaim.leaseToken := by
    change (w.callbackClaims.filter fun c => c.deliveryId = claim.deliveryId).map
      CallbackClaim.leaseToken = _
    rw [hclaims, List.filter_append, List.filter_cons, if_pos (decide_eq_true rfl), List.map_append,
      List.map_cons]
  refine ⟨?_, (hw.leases claim.deliveryId).not_holder hissued fun hnil => ?_⟩
  · rw [hissued]
    exact List.mem_append_right _ List.mem_cons_self
  · have hmem : newer ∈ later.filter fun c => c.deliveryId = claim.deliveryId :=
      List.mem_filter.mpr ⟨hnewer, decide_eq_true hsame⟩
    rw [List.map_eq_nil_iff.mp hnil] at hmem
    exact List.not_mem_nil hmem

/-! ## Rows that are owed -/

/-- Among the owed rows of a request one waits for no other. -/
theorem exists_unfenced {s : Db} {c : CallbackRow} (hc : c ∈ s.callbacks.rows)
    (howed : c.state ≠ "delivered") :
    ∃ d ∈ s.callbacks.rows, d.requestId = c.requestId ∧ d.requestRevision ≤ c.requestRevision ∧
      d.state ≠ "delivered" ∧ CallbackDeliveries.fenced s d = false := by
  induction hrevision : c.requestRevision using Nat.strong_induction_on generalizing c with
  | _ n ih =>
    cases hfenced : CallbackDeliveries.fenced s c with
    | false => exact ⟨c, hc, rfl, hrevision.le, howed, hfenced⟩
    | true =>
      obtain ⟨older, holder, hbefore⟩ := List.any_eq_true.mp hfenced
      simp only [Bool.and_eq_true, decide_eq_true_eq] at hbefore
      obtain ⟨⟨hrequest, hless⟩, hstate⟩ := hbefore
      obtain ⟨d, hd, hdrequest, hdrevision, hdstate, hdfenced⟩ :=
        ih older.requestRevision (hrevision ▸ hless) holder hstate rfl
      exact ⟨d, hd, hdrequest.trans hrequest, hdrevision.trans (hrevision ▸ hless.le), hdstate,
        hdfenced⟩

/-- From some reading on the row is ready to be claimed. -/
theorem exists_ready {c : CallbackRow} (hc : RowSound c) (howed : c.state ≠ "delivered") :
    ∃ t : DateTime, ∀ now, t.toRfc3339Millis ≤ now → CallbackDeliveries.ready now c = true := by
  obtain ⟨next, hnext⟩ := hc.next
  have hready : ∀ now, c.nextAttemptAt ≤ now → leaseLapsed c.leaseUntil now = true →
      CallbackDeliveries.ready now c = true := by
    intro now hdue hlapsed
    unfold CallbackDeliveries.ready
    simp only [Bool.and_eq_true, decide_eq_true_eq]
    exact ⟨⟨howed, hdue⟩, hlapsed⟩
  cases hlease : c.leaseUntil with
  | none =>
    refine ⟨next, fun now hnow => hready now (hnext ▸ hnow) ?_⟩
    rw [hlease]
    rfl
  | some u =>
    obtain ⟨last, rfl⟩ := hc.lease u hlease
    rcases le_total next.toRfc3339Millis last.toRfc3339Millis with hle | hle
    · refine ⟨last, fun now hnow => hready now (hnext ▸ hle.trans hnow) ?_⟩
      rw [hlease]
      exact decide_eq_true hnow
    · refine ⟨next, fun now hnow => hready now (hnext ▸ hnow) ?_⟩
      rw [hlease]
      exact decide_eq_true (hle.trans hnow)

/-- A claim made while a row is due is handed that row or one before it. -/
theorem claimDue_of_due {s : Db} {env : Env} {c : CallbackRow} (hc : c ∈ s.callbacks.rows)
    (hdue : CallbackDeliveries.due s (env.nowString 0) c = true) :
    ∃ d ∈ s.callbacks.rows,
      CallbackDeliveries.queueOrder d ≤ CallbackDeliveries.queueOrder c ∧
        ∃ claim db', Prog.exec databaseError (CallbackDeliveries.claimDue env) [] s =
          (.ok (some claim), db') ∧ ClaimOn claim d := by
  cases hnext : CallbackDeliveries.nextDue s (env.nowString 0) with
  | none =>
    have hnone := CallbackDeliveries.nextDue_eq_none hnext c hc
    rw [hdue] at hnone
    cases hnone
  | some d =>
    obtain ⟨hd, -, hfirst⟩ := CallbackDeliveries.nextDue_eq_some hnext
    refine ⟨d, hd, hfirst c hc hdue, ?_⟩
    rcases CallbackDeliveries.exec_claimDue env [] s with
      (he | ⟨-, hnone⟩) | ⟨d', db', until_, hnext', -, -, he⟩
    · have hstmt : (Prog.exec databaseError (CallbackDeliveries.claimDue env) [] s).1 ≠
          .error databaseError := by
        unfold CallbackDeliveries.claimDue
        simp only [Prog.onPool, Prog.exec, Prog.run, Prog.Conn.statement, hnext]
        exact fun h => by cases h
      exact absurd (congrArg Prod.fst he) hstmt
    · rw [hnext] at hnone
      cases hnone
    · rw [hnext] at hnext'
      cases hnext'
      exact ⟨_, db', he, rfl, rfl, rfl, rfl, rfl⟩

/-! ## The queue is safe -/

variable (P) in
/-- What holds of the outbox of a world, now and after anything that follows. -/
structure CallbackQueue (w : World) : Prop where
  ordered : InOrder w.delivered
  marks : ∀ c ∈ w.db.callbacks.rows,
    c.state = "delivered" ↔ (c.requestId, c.requestRevision) ∈ w.delivered
  final : ∀ c ∈ w.db.callbacks.rows, c.state = "delivered" → ∀ more, (worlds P).Legal more w →
    c ∈ ((worlds P).run more w).db.callbacks.rows ∧
      (((worlds P).run more w).claimsOn c.deliveryId).length = (w.claimsOn c.deliveryId).length
  exclusive : ∀ claim ∈ w.callbackClaims, ∀ other ∈ w.callbackClaims,
    claim.deliveryId = other.deliveryId → CanSettle w claim → CanSettle w other → claim = other
  takenOver : ∀ later claim earlier, w.callbackClaims = later ++ claim :: earlier →
    (∃ newer ∈ later, newer.deliveryId = claim.deliveryId) → ∀ more, (worlds P).Legal more w →
      ¬ CanSettle ((worlds P).run more w) claim ∧ Powerless ((worlds P).run more w) claim
  kept : ∀ c ∈ w.db.callbacks.rows, ∀ more, (worlds P).Legal more w →
    ∃ c' ∈ ((worlds P).run more w).db.callbacks.rows, SameDelivery c c'
  handedOut : ∀ claim ∈ w.callbackClaims, ∃ c ∈ w.db.callbacks.rows, ClaimOn claim c
  fenced : ∀ c ∈ w.db.callbacks.rows, c.state ≠ "delivered" →
    ∃ d ∈ w.db.callbacks.rows, d.requestId = c.requestId ∧
      d.requestRevision ≤ c.requestRevision ∧ d.state ≠ "delivered" ∧
        CallbackDeliveries.fenced w.db d = false
  pickedUp : ∀ c ∈ w.db.callbacks.rows, c.state ≠ "delivered" →
    CallbackDeliveries.fenced w.db c = false → ∃ t : DateTime, ∀ env : Env,
      t.toRfc3339Millis ≤ env.nowString 0 → ∃ d ∈ w.db.callbacks.rows,
        CallbackDeliveries.queueOrder d ≤ CallbackDeliveries.queueOrder c ∧
          ∃ claim db', Prog.exec databaseError (CallbackDeliveries.claimDue env) [] w.db =
            (.ok (some claim), db') ∧ ClaimOn claim d

theorem eq_of_leaseToken {w : World} (hw : OutboxSafe P w) {claim other : CallbackClaim}
    (hclaim : claim ∈ w.callbackClaims) (hother : other ∈ w.callbackClaims)
    (hdelivery : claim.deliveryId = other.deliveryId) (htoken : claim.leaseToken = other.leaseToken) :
    claim = other :=
  List.inj_on_of_nodup_map (hw.leases other.deliveryId).distinct
    (List.mem_filter.mpr ⟨hclaim, decide_eq_true hdelivery⟩)
    (List.mem_filter.mpr ⟨hother, decide_eq_true rfl⟩) htoken

theorem callbackQueue_of_safe {w : World} (hw : OutboxSafe P w) : CallbackQueue P w where
  ordered := hw.outbox.ordered
  marks c hc := by
    refine ⟨hw.outbox.marked c hc, fun hmark => ?_⟩
    obtain ⟨d, hd, hstate, heq⟩ := hw.outbox.marks _ hmark
    rw [eq_of_revision hw.wellFormed hw.backed hc hd (congrArg Prod.fst heq) (congrArg Prod.snd heq)]
    exact hstate
  final c hc hstate more hlegal := by
    refine ⟨(rowsKept_run hw hlegal).delivered c hc hstate, ?_⟩
    have hdone : (w.leaseOn c.deliveryId).done = true := by
      unfold World.leaseOn
      rw [Table.get?_of_mem hc]
      exact decide_eq_true hstate
    have hsame := congrArg (fun l => l.issued.length)
      (Lease.eq_of_done (leaseOn_run hw hlegal c.deliveryId) hdone)
    simp only [World.leaseOn, List.length_map] at hsame
    exact hsame
  exclusive claim hclaim other hother hdelivery hsettle hsettle' := by
    have hholder := holder_of_canSettle hsettle
    rw [hdelivery, holder_of_canSettle hsettle'] at hholder
    exact eq_of_leaseToken hw hclaim hother hdelivery (Option.some.inj hholder).symm
  takenOver later claim earlier hclaims hnewer more hlegal := by
    obtain ⟨newer, hmem, hsame⟩ := hnewer
    obtain ⟨hissued, hlost⟩ := lost_of_later hw hclaims hmem hsame
    have hnever := Lease.not_holder_moves (leaseOn_run hw hlegal claim.deliveryId) hissued hlost
    exact ⟨fun hsettle => hnever (holder_of_canSettle hsettle), powerless_of_not_holder hnever⟩
  kept c hc more hlegal := (rowsKept_run hw hlegal).kept c hc
  handedOut := hw.outbox.claims
  fenced c hc howed := exists_unfenced hc howed
  pickedUp c hc howed hfenced := by
    obtain ⟨t, hready⟩ := exists_ready (hw.outbox.rows c hc) howed
    refine ⟨t, fun env hnow => claimDue_of_due hc ?_⟩
    unfold CallbackDeliveries.due
    rw [hready _ hnow, hfenced]
    rfl

variable (P) in
/-- The queue is safe in every world the server and its workers reach. -/
def CallbackQueueSafe : Prop :=
  ∀ acts, (worlds P).Legal acts World.empty → CallbackQueue P ((worlds P).run acts World.empty)

theorem callback_queue (P : Packages) : CallbackQueueSafe P :=
  fun _ hlegal => callbackQueue_of_safe (outboxSafe_run outboxSafe_empty hlegal)

end Nod.Server
