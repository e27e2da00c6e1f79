import Nod.Lib.Rfc3339Order
import Nod.Server.Acceptance
import Nod.Server.Workers

/-
  The journal's publish queue over a run of the server and its workers. Each event is a lease
  (`Lib.Lease`): its tokens are those of the claims handed out for it, and it is done when it is
  published.
  Proved: `publish_queue`, in every world an event is marked published at most once and only under
  its latest claim, a claim that was taken over changes nothing, no event is lost, its attempts are
  its claims, and an unpublished one is due 300 seconds after every clock reading so far, on a clock
  whose year has four digits. On a later clock nothing is due (`nothing_due_from_year_10000`).
-/

namespace Nod.Server

open Lib Nod.Proto
open LifecyclePublish (PublishClaim publishedRow)

variable {P : Packages}

/-! ## What one action does to the journal -/

/-- The journal after an action: events added, or one event claimed, published or put off. -/
inductive EventStep (P : Packages) (w w' : World) : Prop
  | added (new : List EventRow) (hrows : w'.db.events.rows = w.db.events.rows ++ new)
      (hnew : ∀ e ∈ new, NewEvent w'.envs e) (hclaims : w'.publishClaims = w.publishClaims)
      (hpublished : w'.published = w.published) (htokens : w.tokens ⊆ w'.tokens)
      (henvs : w.envs ⊆ w'.envs)
  | claimed (env : Env) (e e' : EventRow) (until_ : String)
      (hnext : LifecyclePublish.nextDue w.db (env.nowString 0) = some e)
      (huntil : until_ = ((env.now 1).plusSeconds 60).toRfc3339Millis)
      (hfresh : env.newId 0 ∉ w.tokens)
      (he' : e' = LifecyclePublish.claimedRow (env.newId 0) until_ e)
      (hrow : LifecyclePublish.Rewritten w.db w'.db e e')
      (hclaims : w'.publishClaims =
        LifecyclePublish.claimOf (env.newId 0) e' :: w.publishClaims)
      (hpublished : w'.published = w.published) (htokens : w'.tokens = env.newId 0 :: w.tokens)
      (henvs : w'.envs = env :: w.envs)
  | published (env : Env) (claim : PublishClaim) (streamSeq : Int) (e : EventRow)
      (hheld : LifecyclePublish.heldBy (env.nowString 0) claim e = true)
      (hrow : LifecyclePublish.Rewritten w.db w'.db e
        (publishedRow (env.nowString 0) streamSeq e))
      (hclaims : w'.publishClaims = w.publishClaims)
      (hpublished : w'.published = e.eventId :: w.published) (htokens : w'.tokens = w.tokens)
      (henvs : w'.envs = env :: w.envs)
  | retried (env : Env) (claim : PublishClaim) (next : String) (e : EventRow)
      (hnext : next = ((env.now 1).plusSeconds
        (LifecyclePublish.retryDelay claim.attempts)).toRfc3339Millis)
      (hheld : LifecyclePublish.heldBy (env.nowString 0) claim e = true)
      (hrow : LifecyclePublish.Rewritten w.db w'.db e (LifecyclePublish.retriedRow next e))
      (hclaims : w'.publishClaims = w.publishClaims) (hpublished : w'.published = w.published)
      (htokens : w'.tokens = w.tokens) (henvs : w'.envs = env :: w.envs)

theorem eventStep_same {w w' : World} (hevents : w'.db.events = w.db.events)
    (hclaims : w'.publishClaims = w.publishClaims) (hpublished : w'.published = w.published)
    (htokens : w.tokens ⊆ w'.tokens) (henvs : w.envs ⊆ w'.envs) : EventStep P w w' := by
  refine .added [] ?_ (fun e he => absurd he List.not_mem_nil) hclaims hpublished htokens henvs
  rw [hevents, List.append_nil]

theorem NewEvent.mono {envs envs' : List Env} {e : EventRow} (h : NewEvent envs e)
    (hsub : envs ⊆ envs') : NewEvent envs' e := by
  obtain ⟨env, henv, k, hnow⟩ := h.nextAttemptAt
  exact ⟨h.unpublished, h.attempts, h.leaseToken, h.leaseUntil, env, hsub henv, k, hnow⟩

theorem eventStep_call (c : Call) {w : World} (hw : WellFormed P w.db) :
    EventStep P w (World.step P (.call c) w) := by
  obtain ⟨new, owed, hlogs⟩ := (fed_call c hw).logs
  exact .added new hlogs.events
    (fun e he => (hlogs.new e he).mono fun _ h => List.mem_append_left _ h) rfl rfl (fun _ h => h)
    fun _ h => List.mem_append_right _ h

theorem eventStep_claim (env : Env) (faults : List Bool) {w : World}
    (hfresh : env.newId 0 ∉ w.tokens) : EventStep P w (World.step P (.claimEvent env faults) w) := by
  unfold World.step
  dsimp only
  rcases LifecyclePublish.exec_claimDue env faults w.db with
    (he | ⟨he, -⟩) | ⟨e, db', until_, hnext, huntil, hrewritten, he⟩
  · rw [he]
    exact eventStep_same rfl rfl rfl (List.subset_cons_self _ _) (List.subset_cons_self _ _)
  · rw [he]
    exact eventStep_same rfl rfl rfl (List.subset_cons_self _ _) (List.subset_cons_self _ _)
  · rw [he]
    exact .claimed env e _ until_ hnext huntil hfresh rfl hrewritten rfl rfl rfl rfl

theorem eventStep_publish (env : Env) (claim : PublishClaim) (streamSeq : Int)
    (faults : List Bool) (w : World) :
    EventStep P w (World.step P (.publishEvent env claim streamSeq faults) w) := by
  unfold World.step
  dsimp only
  unfold LifecyclePublish.published
  rcases LifecyclePublish.exec_settle (env.nowString 0) claim
      (publishedRow (env.nowString 0) streamSeq) (fun _ => rfl) faults w.db with
    ⟨r, he, hr⟩ | ⟨e, db', hheld, hrewritten, he⟩
  · rw [he]
    refine eventStep_same rfl rfl (if_neg ?_) (fun _ h => h) (List.subset_cons_self _ _)
    intro hok
    cases r with
    | error e => cases hok
    | ok b => exact hr (congrArg Except.ok (Option.some.inj hok))
  · rw [he]
    refine .published env claim streamSeq e hheld hrewritten rfl ?_ rfl rfl
    have hok : (Except.ok true : Except ApiError Bool).toOption = some true := rfl
    dsimp only
    rw [if_pos hok, (LifecyclePublish.heldBy_eq_true.mp hheld).1]

theorem eventStep_retry (env : Env) (claim : PublishClaim) (faults : List Bool) (w : World) :
    EventStep P w (World.step P (.retryEvent env claim faults) w) := by
  unfold World.step
  dsimp only
  unfold LifecyclePublish.retry
  dsimp only
  rcases LifecyclePublish.exec_settle (env.nowString 0) claim
      (LifecyclePublish.retriedRow _) (fun _ => rfl) faults w.db with
    ⟨r, he, -⟩ | ⟨e, db', hheld, hrewritten, he⟩
  · rw [he]
    exact eventStep_same rfl rfl rfl (fun _ h => h) (List.subset_cons_self _ _)
  · rw [he]
    exact .retried env claim _ e rfl hheld hrewritten rfl rfl rfl rfl

theorem events_settleCallback {now : String} {claim : CallbackDeliveries.CallbackClaim}
    {f : CallbackRow → CallbackRow} {hf : ∀ c, (f c).deliveryId = c.deliveryId}
    {faults : List Bool} {s : Db} :
    (Prog.exec databaseError (CallbackDeliveries.settle now claim f hf) faults s).2.events =
      s.events := by
  rcases CallbackDeliveries.exec_settle now claim f hf faults s with
    ⟨r, he, -⟩ | ⟨c, db', -, hrewritten, he⟩
  · rw [he]
  · rw [he, hrewritten.rest]

/-- What one action does to the journal. -/
theorem eventStep_of_act (a : Act) {w : World} (hw : WellFormed P w.db)
    (hallowed : World.allows a w) : EventStep P w (World.step P a w) := by
  cases a with
  | call c => exact eventStep_call c hw
  | claimEvent env faults => exact eventStep_claim env faults hallowed
  | publishEvent env claim streamSeq faults => exact eventStep_publish env claim streamSeq faults w
  | retryEvent env claim faults => exact eventStep_retry env claim faults w
  | claimCallback env faults =>
    refine eventStep_same ?_ rfl rfl (List.subset_cons_self _ _) (List.subset_cons_self _ _)
    change (Prog.exec databaseError (CallbackDeliveries.claimDue env) faults w.db).2.events = _
    rcases CallbackDeliveries.exec_claimDue env faults w.db with
      (he | ⟨he, -⟩) | ⟨c, db', until_, -, -, hrewritten, he⟩
    · rw [he]
    · rw [he]
    · rw [he, hrewritten.rest]
  | completeCallback env claim status faults =>
    refine eventStep_same ?_ rfl rfl (fun _ h => h) (List.subset_cons_self _ _)
    change (Prog.exec databaseError (CallbackDeliveries.complete env claim status) faults
      w.db).2.events = _
    unfold CallbackDeliveries.complete
    split
    · rfl
    · exact events_settleCallback
  | retryCallback env claim status blockedPolicy faults =>
    exact eventStep_same events_settleCallback rfl rfl (fun _ h => h) (List.subset_cons_self _ _)
  | recoverPushes env epoch faults =>
    refine eventStep_same ?_ rfl rfl (fun _ h => h) (fun _ h => h)
    change (Prog.exec databaseError (PushDeliveries.recoverPushes _ epoch) faults w.db).2.events = _
    rcases PushDeliveries.exec_recoverPushes (env.nowString 0) epoch faults w.db with
      he | ⟨db', hupdated, he⟩
    · rw [he]
    · rw [he, hupdated.rest]
  | claimPushes env epoch limit faults =>
    refine eventStep_same ?_ rfl rfl (fun _ h => h) (fun _ h => h)
    change (Prog.exec databaseError (PushDeliveries.claimPushes _ epoch limit) faults
      w.db).2.events = _
    rcases PushDeliveries.exec_claimPushes (env.nowString 0) epoch limit faults w.db with
      he | ⟨db', jobs, hupdated, -, he⟩
    · rw [he]
    · rw [he, hupdated.rest]
  | task i move =>
    unfold World.step
    dsimp only
    cases w.tasks[i]? with
    | none => exact eventStep_same rfl rfl rfl (fun _ h => h) (fun _ h => h)
    | some task =>
      exact eventStep_same (task_aside move task w.db).2 rfl rfl (fun _ h => h) (fun _ h => h)

/-! ## The invariant -/

/-- What an append fixes of an event. -/
structure SameEvent (e e' : EventRow) : Prop where
  seq : e'.seq = e.seq
  eventId : e'.eventId = e.eventId
  requestId : e'.requestId = e.requestId
  subject : e'.subject = e.subject
  envelope : e'.envelope = e.envelope
  detail : e'.detail = e.detail

theorem sameEvent_refl (e : EventRow) : SameEvent e e := ⟨rfl, rfl, rfl, rfl, rfl, rfl⟩

theorem SameEvent.trans {a b c : EventRow} (h : SameEvent a b) (k : SameEvent b c) : SameEvent a c :=
  ⟨k.seq.trans h.seq, k.eventId.trans h.eventId, k.requestId.trans h.requestId,
    k.subject.trans h.subject, k.envelope.trans h.envelope, k.detail.trans h.detail⟩

/-- The text of a clock reading of the run, or of a time at most `limit` seconds after one. -/
def DueWithin (envs : List Env) (limit : Nat) (text : String) : Prop :=
  ∃ env ∈ envs, ∃ k, ∃ delay : Nat, delay ≤ limit ∧
    text = ((env.now k).plusSeconds delay).toRfc3339Millis

theorem DueWithin.mono {envs envs' : List Env} {limit : Nat} {text : String}
    (h : DueWithin envs limit text) (hsub : envs ⊆ envs') : DueWithin envs' limit text := by
  obtain ⟨env, henv, hrest⟩ := h
  exact ⟨env, hsub henv, hrest⟩

/-- When an event falls due, and until when it may be held. -/
structure EventTimes (envs : List Env) (e : EventRow) : Prop where
  next : DueWithin envs 300 e.nextAttemptAt
  lease : ∀ u, e.leaseUntil = some u → DueWithin envs 60 u

/-- A claim carries the event's subject and envelope. -/
structure PublishClaimOn (claim : PublishClaim) (e : EventRow) : Prop where
  eventId : claim.eventId = e.eventId
  subject : claim.subject = e.subject
  envelope : claim.envelope = e.envelope

/-- The claims handed out for an event, the latest first. -/
def World.publishClaimsOn (w : World) (eventId : String) : List PublishClaim :=
  w.publishClaims.filter fun claim => claim.eventId = eventId

/-- The lease on an event. -/
def World.eventLease (w : World) (eventId : String) : Lease String where
  done := (w.db.events.get? eventId).any fun e => e.publishedAt ≠ none
  holder := (w.db.events.get? eventId).bind EventRow.leaseToken
  issued := (w.publishClaimsOn eventId).map PublishClaim.leaseToken

structure Publishing (w : World) : Prop where
  times : ∀ e ∈ w.db.events.rows, EventTimes w.envs e
  tokens : ∀ claim ∈ w.publishClaims, claim.leaseToken ∈ w.tokens
  claims : ∀ claim ∈ w.publishClaims, ∃ e ∈ w.db.events.rows, PublishClaimOn claim e
  attempts : ∀ e ∈ w.db.events.rows, e.attempts = (w.publishClaimsOn e.eventId).length
  marks : ∀ id ∈ w.published, ∃ e ∈ w.db.events.rows, e.eventId = id ∧ e.publishedAt ≠ none
  marked : ∀ e ∈ w.db.events.rows, e.publishedAt ≠ none → e.eventId ∈ w.published
  once : w.published.Nodup

theorem mem_rewrittenEvent {s s' : Db} {e e' d : EventRow} (h : LifecyclePublish.Rewritten s s' e e')
    (hd : d ∈ s'.events.rows) : d = e' ∨ d ∈ s.events.rows ∧ d.eventId ≠ e.eventId := by
  rw [h.rows] at hd
  obtain ⟨r, hr, rfl⟩ := List.mem_map.mp hd
  split
  · exact Or.inl rfl
  · rename_i hne
    exact Or.inr ⟨hr, hne⟩

/-- An event that is rewritten is there before and after; the others stand. -/
theorem mem_of_rewrittenEvent {s s' : Db} {e e' d : EventRow}
    (h : LifecyclePublish.Rewritten s s' e e') (hsame : SameEvent e e') (hd : d ∈ s.events.rows) :
    ∃ d' ∈ s'.events.rows, SameEvent d d' ∧ (d = e ∧ d' = e' ∨ d' = d) := by
  by_cases hid : d.eventId = e.eventId
  · have hde : d = e := by
      have hget := Table.get?_of_mem hd
      rw [hid, h.stored] at hget
      exact (Option.some.inj hget).symm
    subst hde
    refine ⟨e', ?_, hsame, Or.inl ⟨rfl, rfl⟩⟩
    rw [h.rows]
    exact List.mem_map.mpr ⟨d, hd, if_pos rfl⟩
  · refine ⟨d, ?_, sameEvent_refl d, Or.inr rfl⟩
    rw [h.rows]
    exact List.mem_map.mpr ⟨d, hd, if_neg hid⟩

theorem PublishClaimOn.same {claim : PublishClaim} {e e' : EventRow} (h : PublishClaimOn claim e)
    (hsame : SameEvent e e') : PublishClaimOn claim e' :=
  ⟨h.eventId.trans hsame.eventId.symm, h.subject.trans hsame.subject.symm,
    h.envelope.trans hsame.envelope.symm⟩

/-- Rewriting an unpublished event keeps up what hangs on the events. -/
theorem Publishing.rewrite {w w' : World} (h : Publishing w) {e e' : EventRow}
    (hrow : LifecyclePublish.Rewritten w.db w'.db e e') (hsame : SameEvent e e')
    (hunpublished : e.publishedAt = none) (henvs : w.envs ⊆ w'.envs)
    (htimes : EventTimes w'.envs e')
    (htokens : ∀ claim ∈ w'.publishClaims, claim.leaseToken ∈ w'.tokens)
    (hclaims : ∀ claim ∈ w'.publishClaims, claim ∈ w.publishClaims ∨ PublishClaimOn claim e')
    (hothers : ∀ id, id ≠ e.eventId → w'.publishClaimsOn id = w.publishClaimsOn id)
    (hattempts : e'.attempts = (w'.publishClaimsOn e.eventId).length)
    (hmarks : ∀ id ∈ w'.published, id ∈ w.published ∨ id = e.eventId ∧ e'.publishedAt ≠ none)
    (hold : w.published ⊆ w'.published)
    (hmarked : e'.publishedAt ≠ none → e.eventId ∈ w'.published) (honce : w'.published.Nodup) :
    Publishing w' := by
  have hnew : e' ∈ w'.db.events.rows := by
    rw [hrow.rows]
    exact List.mem_map.mpr ⟨e, Table.mem_of_get? hrow.stored, if_pos rfl⟩
  refine ⟨fun d hd => ?_, htokens, fun claim hclaim => ?_, fun d hd => ?_, fun id hid => ?_,
    fun d hd hdone => ?_, honce⟩
  · rcases mem_rewrittenEvent hrow hd with rfl | ⟨hd, -⟩
    · exact htimes
    · obtain ⟨hnext, hlease⟩ := h.times d hd
      exact ⟨hnext.mono henvs, fun u hu => (hlease u hu).mono henvs⟩
  · rcases hclaims claim hclaim with hclaim | hon
    · obtain ⟨d, hd, hon⟩ := h.claims claim hclaim
      obtain ⟨d', hd', hsame', -⟩ := mem_of_rewrittenEvent hrow hsame hd
      exact ⟨d', hd', hon.same hsame'⟩
    · exact ⟨e', hnew, hon⟩
  · rcases mem_rewrittenEvent hrow hd with rfl | ⟨hd, hne⟩
    · rw [hsame.eventId]
      exact hattempts
    · rw [hothers d.eventId hne]
      exact h.attempts d hd
  · rcases hmarks id hid with hid | ⟨rfl, hdone⟩
    · obtain ⟨d, hd, rfl, hdone⟩ := h.marks id hid
      obtain ⟨d', hd', hsame', ⟨rfl, -⟩ | rfl⟩ := mem_of_rewrittenEvent hrow hsame hd
      · exact absurd hunpublished hdone
      · exact ⟨d', hd', rfl, hdone⟩
    · exact ⟨e', hnew, hsame.eventId, hdone⟩
  · rcases mem_rewrittenEvent hrow hd with rfl | ⟨hd, -⟩
    · rw [hsame.eventId]
      exact hmarked hdone
    · exact hold (h.marked d hd hdone)

theorem publishClaimsOn_eq {w w' : World} (h : w'.publishClaims = w.publishClaims) (id : String) :
    w'.publishClaimsOn id = w.publishClaimsOn id := by
  unfold World.publishClaimsOn
  rw [h]

theorem publishClaimsOn_cons {w w' : World} {claim : PublishClaim}
    (h : w'.publishClaims = claim :: w.publishClaims) (id : String) :
    w'.publishClaimsOn id =
      if claim.eventId = id then claim :: w.publishClaimsOn id else w.publishClaimsOn id := by
  unfold World.publishClaimsOn
  rw [h, List.filter_cons]
  by_cases hid : claim.eventId = id
  · rw [if_pos hid]
    exact if_pos (decide_eq_true hid)
  · rw [if_neg hid]
    exact if_neg fun hd => hid (of_decide_eq_true hd)

/-- New events have no claims: those that were claimed are stored. -/
theorem publishClaimsOn_new {w : World} (h : Publishing w) {id : String}
    (hfree : w.db.events.get? id = none) : w.publishClaimsOn id = [] := by
  refine List.filter_eq_nil_iff.mpr fun claim hclaim hid => ?_
  obtain ⟨e, he, hon⟩ := h.claims claim hclaim
  have hkey : e.eventId = id := hon.eventId.symm.trans (of_decide_eq_true hid)
  exact Table.get?_eq_none.mp hfree (List.mem_map.mpr ⟨e, he, hkey⟩)

theorem unpublished_of_due {s : Db} {now : String} {e : EventRow}
    (h : LifecyclePublish.nextDue s now = some e) : e.publishedAt = none := by
  obtain ⟨-, hdue, -⟩ := LifecyclePublish.nextDue_eq_some h
  unfold LifecyclePublish.due at hdue
  simp only [Bool.and_eq_true, decide_eq_true_eq] at hdue
  exact hdue.1.1

theorem publishing_step {w w' : World} (hw : Publishing w) (h : EventStep P w w') :
    Publishing w' := by
  cases h with
  | added new hrows hnew hclaims hpublished htokens henvs =>
    have hold : ∀ e, e ∈ w.db.events.rows → e ∈ w'.db.events.rows := fun e he => by
      rw [hrows]
      exact List.mem_append_left _ he
    refine ⟨fun e he => ?_, fun claim hclaim => ?_, fun claim hclaim => ?_, fun e he => ?_,
      fun id hid => ?_, fun e he hdone => ?_, ?_⟩
    · rw [hrows] at he
      rcases List.mem_append.mp he with he | he
      · obtain ⟨hnext, hlease⟩ := hw.times e he
        exact ⟨hnext.mono henvs, fun u hu => (hlease u hu).mono henvs⟩
      · obtain ⟨env, henv, k, hnow⟩ := (hnew e he).nextAttemptAt
        refine ⟨⟨env, henv, k, 0, Nat.zero_le 300, hnow⟩, fun u hu => ?_⟩
        rw [(hnew e he).leaseUntil] at hu
        cases hu
    · rw [hclaims] at hclaim
      exact htokens (hw.tokens claim hclaim)
    · rw [hclaims] at hclaim
      obtain ⟨e, he, hon⟩ := hw.claims claim hclaim
      exact ⟨e, hold e he, hon⟩
    · rw [publishClaimsOn_eq hclaims]
      have hmem := he
      rw [hrows] at hmem
      rcases List.mem_append.mp hmem with hmem | hmem
      · exact hw.attempts e hmem
      · have hfree : w.db.events.get? e.eventId = none := by
          rw [Table.get?_eq_none]
          intro htaken
          have hnodup := w'.db.events.nodup
          rw [hrows, List.map_append] at hnodup
          exact (List.nodup_append.mp hnodup).2.2 _ htaken _
            (List.mem_map.mpr ⟨e, hmem, rfl⟩) rfl
        rw [publishClaimsOn_new hw hfree, (hnew e hmem).attempts]
        rfl
    · rw [hpublished] at hid
      obtain ⟨e, he, hof⟩ := hw.marks id hid
      exact ⟨e, hold e he, hof⟩
    · rw [hpublished]
      rw [hrows] at he
      rcases List.mem_append.mp he with he | he
      · exact hw.marked e he hdone
      · exact absurd (hnew e he).unpublished hdone
    · rw [hpublished]
      exact hw.once
  | claimed env e e' until_ hnext huntil hfresh he' hrow hclaims hpublished htokens henvs =>
    have hunpublished := unpublished_of_due hnext
    have hmem := Table.mem_of_get? hrow.stored
    have henv : env ∈ w'.envs := by
      rw [henvs]
      exact List.mem_cons_self
    have hsub : w.envs ⊆ w'.envs := by
      rw [henvs]
      exact List.subset_cons_self _ _
    have hid : e'.eventId = e.eventId := by
      rw [he']
      rfl
    have hclaimId : (LifecyclePublish.claimOf (env.newId 0) e').eventId = e.eventId := hid
    refine hw.rewrite hrow (by rw [he']; exact ⟨rfl, rfl, rfl, rfl, rfl, rfl⟩) hunpublished hsub
      ⟨?_, fun u hu => ?_⟩ (fun claim hclaim => ?_) (fun claim hclaim => ?_) (fun id hne => ?_) ?_
      (fun id hid => ?_) (fun id hid => ?_) (fun hdone => ?_) ?_
    · rw [he']
      exact (hw.times e hmem).next.mono hsub
    · rw [he'] at hu
      cases hu
      exact ⟨env, henv, 1, 60, le_refl _, huntil⟩
    · rw [htokens]
      rw [hclaims] at hclaim
      rcases List.mem_cons.mp hclaim with rfl | hclaim
      · exact List.mem_cons_self
      · exact List.mem_cons_of_mem _ (hw.tokens claim hclaim)
    · rw [hclaims] at hclaim
      rcases List.mem_cons.mp hclaim with rfl | hclaim
      · exact Or.inr ⟨rfl, rfl, rfl⟩
      · exact Or.inl hclaim
    · rw [publishClaimsOn_cons hclaims]
      exact if_neg fun heq => hne (heq.symm.trans hid)
    · rw [publishClaimsOn_cons hclaims, if_pos hclaimId, List.length_cons,
        ← hw.attempts e hmem, he']
      rfl
    · rw [hpublished] at hid
      exact Or.inl hid
    · rw [hpublished]
      exact hid
    · rw [he'] at hdone
      exact absurd hunpublished hdone
    · rw [hpublished]
      exact hw.once
  | published env claim streamSeq e hheld hrow hclaims hpublished htokens henvs =>
    obtain ⟨-, -, -, hunpublished⟩ := LifecyclePublish.heldBy_eq_true.mp hheld
    have hmem := Table.mem_of_get? hrow.stored
    have hsub : w.envs ⊆ w'.envs := by
      rw [henvs]
      exact List.subset_cons_self _ _
    refine hw.rewrite hrow ⟨rfl, rfl, rfl, rfl, rfl, rfl⟩ hunpublished hsub
      ⟨(hw.times e hmem).next.mono hsub, fun u hu => by cases hu⟩ (fun claim' hclaim' => ?_)
      (fun claim' hclaim' => ?_) (fun id _ => publishClaimsOn_eq hclaims id) ?_ (fun id hid => ?_)
      (fun id hid => ?_) (fun _ => ?_) ?_
    · rw [htokens]
      rw [hclaims] at hclaim'
      exact hw.tokens claim' hclaim'
    · rw [hclaims] at hclaim'
      exact Or.inl hclaim'
    · rw [publishClaimsOn_eq hclaims]
      exact hw.attempts e hmem
    · rw [hpublished] at hid
      rcases List.mem_cons.mp hid with rfl | hid
      · exact Or.inr ⟨rfl, Option.some_ne_none _⟩
      · exact Or.inl hid
    · rw [hpublished]
      exact List.mem_cons_of_mem _ hid
    · rw [hpublished]
      exact List.mem_cons_self
    · rw [hpublished]
      refine List.nodup_cons.mpr ⟨fun hid => ?_, hw.once⟩
      obtain ⟨d, hd, hkey, hdone⟩ := hw.marks e.eventId hid
      have hde : d = e := List.inj_on_of_nodup_map w.db.events.nodup hd hmem hkey
      rw [hde] at hdone
      exact hdone hunpublished
  | retried env claim next e hnext hheld hrow hclaims hpublished htokens henvs =>
    obtain ⟨-, -, -, hunpublished⟩ := LifecyclePublish.heldBy_eq_true.mp hheld
    have hmem := Table.mem_of_get? hrow.stored
    have henv : env ∈ w'.envs := by
      rw [henvs]
      exact List.mem_cons_self
    have hsub : w.envs ⊆ w'.envs := by
      rw [henvs]
      exact List.subset_cons_self _ _
    refine hw.rewrite hrow ⟨rfl, rfl, rfl, rfl, rfl, rfl⟩ hunpublished hsub
      ⟨⟨env, henv, 1, _, LifecyclePublish.retryDelay_le claim.attempts, hnext⟩,
        fun u hu => by cases hu⟩
      (fun claim' hclaim' => ?_) (fun claim' hclaim' => ?_)
      (fun id _ => publishClaimsOn_eq hclaims id) ?_ (fun id hid => ?_) (fun id hid => ?_)
      (fun hdone => absurd hunpublished hdone) ?_
    · rw [htokens]
      rw [hclaims] at hclaim'
      exact hw.tokens claim' hclaim'
    · rw [hclaims] at hclaim'
      exact Or.inl hclaim'
    · rw [publishClaimsOn_eq hclaims]
      exact hw.attempts e hmem
    · rw [hpublished] at hid
      exact Or.inl hid
    · rw [hpublished]
      exact hid
    · rw [hpublished]
      exact hw.once

/-! ## Leases -/

theorem eventLease_of_ne {w w' : World} {e e' : EventRow}
    (hrow : LifecyclePublish.Rewritten w.db w'.db e e') (hid : e'.eventId = e.eventId) {id : String}
    (hne : id ≠ e.eventId) (hclaims : w'.publishClaimsOn id = w.publishClaimsOn id) :
    w'.eventLease id = w.eventLease id := by
  unfold World.eventLease
  rw [hrow.get? hid, if_neg hne, hclaims]

theorem eventLease_rewritten {w w' : World} {e e' : EventRow}
    (hrow : LifecyclePublish.Rewritten w.db w'.db e e') (hid : e'.eventId = e.eventId) :
    w'.eventLease e.eventId = ⟨decide (e'.publishedAt ≠ none), e'.leaseToken,
      (w'.publishClaimsOn e.eventId).map PublishClaim.leaseToken⟩ := by
  unfold World.eventLease
  rw [hrow.get? hid, if_pos rfl]
  rfl

theorem eventLease_open {w : World} {e : EventRow} (he : w.db.events.get? e.eventId = some e)
    (hunpublished : e.publishedAt = none) : (w.eventLease e.eventId).done = false := by
  unfold World.eventLease
  rw [he]
  exact decide_eq_false (not_not_intro hunpublished)

/-- Every action moves each event's lease by at most one step. -/
theorem eventLease_move {w w' : World} (hw : Publishing w) (h : EventStep P w w') (id : String) :
    Lease.Move (w.eventLease id) (w'.eventLease id) := by
  cases h with
  | added new hrows hnew hclaims hpublished htokens henvs =>
    have hsame : w'.eventLease id = w.eventLease id := by
      have hget : w'.db.events.get? id =
          (w.db.events.get? id).or (new.find? fun e => decide (e.eventId = id)) := by
        rw [Table.get?, hrows, List.find?_append]
        rfl
      unfold World.eventLease
      rw [publishClaimsOn_eq hclaims, hget]
      cases hold : w.db.events.get? id with
      | some e => rfl
      | none =>
        rw [Option.none_or]
        cases hfound : new.find? fun e => decide (e.eventId = id) with
        | none => rfl
        | some e =>
          have hfresh := hnew e (List.mem_of_find?_eq_some hfound)
          rw [Option.any_some, Option.bind_some, hfresh.leaseToken, hfresh.unpublished]
          rfl
    rw [hsame]
    exact .stay _
  | claimed env e e' until_ hnext huntil hfresh he' hrow hclaims hpublished htokens henvs =>
    have hunpublished := unpublished_of_due hnext
    have hid : e'.eventId = e.eventId := by
      rw [he']
      rfl
    by_cases hkey : id = e.eventId
    · subst hkey
      have hclaimId : (LifecyclePublish.claimOf (env.newId 0) e').eventId = e.eventId := hid
      have hstill : decide (e'.publishedAt ≠ none) = false := by
        rw [he']
        exact decide_eq_false (not_not_intro hunpublished)
      have htoken : e'.leaseToken = some (env.newId 0) := by rw [he']; rfl
      rw [eventLease_rewritten hrow hid, publishClaimsOn_cons hclaims, if_pos hclaimId, hstill, htoken]
      refine .claim _ (env.newId 0) (eventLease_open hrow.stored hunpublished) fun hissued => ?_
      obtain ⟨claim, hclaim, htoken⟩ := List.mem_map.mp hissued
      exact hfresh (htoken ▸ hw.tokens claim (List.mem_filter.mp hclaim).1)
    · have hclaimId : (LifecyclePublish.claimOf (env.newId 0) e').eventId ≠ id :=
        fun heq => hkey (heq.symm.trans hid)
      have hon : w'.publishClaimsOn id = w.publishClaimsOn id := by
        rw [publishClaimsOn_cons hclaims, if_neg hclaimId]
      rw [eventLease_of_ne hrow hid hkey hon]
      exact .stay _
  | published env claim streamSeq e hheld hrow hclaims hpublished htokens henvs =>
    obtain ⟨-, -, -, hunpublished⟩ := LifecyclePublish.heldBy_eq_true.mp hheld
    by_cases hkey : id = e.eventId
    · subst hkey
      rw [eventLease_rewritten hrow rfl, publishClaimsOn_eq hclaims]
      exact .finish _ (eventLease_open hrow.stored hunpublished)
    · rw [eventLease_of_ne hrow rfl hkey (publishClaimsOn_eq hclaims id)]
      exact .stay _
  | retried env claim next e hnext hheld hrow hclaims hpublished htokens henvs =>
    obtain ⟨-, -, -, hunpublished⟩ := LifecyclePublish.heldBy_eq_true.mp hheld
    by_cases hkey : id = e.eventId
    · subst hkey
      have hstill : decide ((LifecyclePublish.retriedRow next e).publishedAt ≠ none) = false :=
        decide_eq_false (not_not_intro hunpublished)
      rw [eventLease_rewritten hrow rfl, publishClaimsOn_eq hclaims, hstill]
      exact .release _ (eventLease_open hrow.stored hunpublished)
    · rw [eventLease_of_ne hrow rfl hkey (publishClaimsOn_eq hclaims id)]
      exact .stay _

/-! ## Runs -/

/-- The invariant of a world, its publish queue and the leases on it. -/
structure PublishSafe (P : Packages) (w : World) : Prop where
  wellFormed : WellFormed P w.db
  publishing : Publishing w
  leases : ∀ id, (w.eventLease id).Sound

theorem publishSafe_step (a : Act) {w : World} (hw : PublishSafe P w)
    (hallowed : World.allows a w) : PublishSafe P (World.step P a w) := by
  have hstep := eventStep_of_act a hw.wellFormed hallowed
  exact ⟨wellFormed_step a hw.wellFormed, publishing_step hw.publishing hstep,
    fun id => (hw.leases id).move (eventLease_move hw.publishing hstep id)⟩

theorem publishSafe_empty : PublishSafe P World.empty where
  wellFormed := wellFormed_empty P
  publishing := ⟨fun _ h => absurd h List.not_mem_nil, fun _ h => absurd h List.not_mem_nil,
    fun _ h => absurd h List.not_mem_nil, fun _ h => absurd h List.not_mem_nil,
    fun _ h => absurd h List.not_mem_nil, fun _ h => absurd h List.not_mem_nil, List.nodup_nil⟩
  leases _ := Lease.sound_new

theorem publishSafe_run {acts : List Act} {w : World} (hw : PublishSafe P w)
    (hlegal : (worlds P).Legal acts w) : PublishSafe P ((worlds P).run acts w) :=
  Machine.invariant (M := worlds P) (fun a _ h hallowed => publishSafe_step a h hallowed) hw hlegal

theorem eventLease_run {acts : List Act} {w : World} (hw : PublishSafe P w)
    (hlegal : (worlds P).Legal acts w) (id : String) :
    Lease.Moves (w.eventLease id) (((worlds P).run acts w).eventLease id) :=
  Machine.relates (M := worlds P) (I := PublishSafe P)
    (R := fun a b => Lease.Moves (a.eventLease id) (b.eventLease id)) (fun _ => .refl)
    (fun h k => h.trans k) (fun a _ h hallowed => publishSafe_step a h hallowed)
    (fun a _ h hallowed => .single (eventLease_move h.publishing
      (eventStep_of_act a h.wellFormed hallowed) id)) hw hlegal

/-- Events stay, and a published one stays as it is. -/
structure EventsKept (w w' : World) : Prop where
  kept : ∀ e ∈ w.db.events.rows, ∃ e' ∈ w'.db.events.rows, SameEvent e e'
  published : ∀ e ∈ w.db.events.rows, e.publishedAt ≠ none → e ∈ w'.db.events.rows

theorem eventsKept_rewritten {w w' : World} {e e' : EventRow}
    (hrow : LifecyclePublish.Rewritten w.db w'.db e e') (hsame : SameEvent e e')
    (hunpublished : e.publishedAt = none) : EventsKept w w' := by
  refine ⟨fun d hd => ?_, fun d hd hdone => ?_⟩
  · obtain ⟨d', hd', hsame', -⟩ := mem_of_rewrittenEvent hrow hsame hd
    exact ⟨d', hd', hsame'⟩
  · obtain ⟨d', hd', -, ⟨rfl, -⟩ | rfl⟩ := mem_of_rewrittenEvent hrow hsame hd
    · exact absurd hunpublished hdone
    · exact hd'

theorem eventsKept_step {w w' : World} (h : EventStep P w w') : EventsKept w w' := by
  cases h with
  | added new hrows hnew hclaims hpublished htokens henvs =>
    have hold : ∀ e, e ∈ w.db.events.rows → e ∈ w'.db.events.rows := fun e he => by
      rw [hrows]
      exact List.mem_append_left _ he
    exact ⟨fun e he => ⟨e, hold e he, sameEvent_refl e⟩, fun e he _ => hold e he⟩
  | claimed env e e' until_ hnext huntil hfresh he' hrow hclaims hpublished htokens henvs =>
    subst he'
    exact eventsKept_rewritten hrow ⟨rfl, rfl, rfl, rfl, rfl, rfl⟩ (unpublished_of_due hnext)
  | published env claim streamSeq e hheld hrow hclaims hpublished htokens henvs =>
    exact eventsKept_rewritten hrow ⟨rfl, rfl, rfl, rfl, rfl, rfl⟩
      (LifecyclePublish.heldBy_eq_true.mp hheld).2.2.2
  | retried env claim next e hnext hheld hrow hclaims hpublished htokens henvs =>
    exact eventsKept_rewritten hrow ⟨rfl, rfl, rfl, rfl, rfl, rfl⟩
      (LifecyclePublish.heldBy_eq_true.mp hheld).2.2.2

theorem eventsKept_trans {a b c : World} (h : EventsKept a b) (k : EventsKept b c) :
    EventsKept a c := by
  refine ⟨fun d hd => ?_, fun d hd hdone => k.published d (h.published d hd hdone) hdone⟩
  obtain ⟨d', hd', hsame⟩ := h.kept d hd
  obtain ⟨d'', hd'', hsame'⟩ := k.kept d' hd'
  exact ⟨d'', hd'', hsame.trans hsame'⟩

theorem eventsKept_run {acts : List Act} {w : World} (hw : PublishSafe P w)
    (hlegal : (worlds P).Legal acts w) : EventsKept w ((worlds P).run acts w) :=
  Machine.relates (M := worlds P) (I := PublishSafe P) (R := EventsKept)
    (fun _ => ⟨fun e he => ⟨e, he, sameEvent_refl e⟩, fun _ he _ => he⟩) eventsKept_trans
    (fun a _ h hallowed => publishSafe_step a h hallowed)
    (fun a _ h hallowed => eventsKept_step (eventStep_of_act a h.wellFormed hallowed)) hw hlegal

/-! ## Settling -/

/-- A settlement that changes anything is of the claim that holds the event. -/
theorem settleEvent_cases {w : World} (now : String) (claim : PublishClaim)
    (f : EventRow → EventRow) (hf : ∀ e, (f e).eventId = e.eventId) (faults : List Bool) :
    let r := Prog.exec databaseError (LifecyclePublish.settle now claim f hf) faults w.db
    (r.1 ≠ .ok true ∧ r.2 = w.db) ∨
      (w.eventLease claim.eventId).holder = some claim.leaseToken := by
  rcases LifecyclePublish.exec_settle now claim f hf faults w.db with
    ⟨r, he, hr⟩ | ⟨e, db', hheld, hrow, -⟩
  · rw [he]
    exact Or.inl ⟨hr, rfl⟩
  · obtain ⟨hkey, htoken, -, -⟩ := LifecyclePublish.heldBy_eq_true.mp hheld
    refine Or.inr ?_
    unfold World.eventLease
    rw [← hkey, hrow.stored]
    exact htoken

/-- The claim that holds an event is the last one handed out for it. -/
theorem newest_of_holder {w : World} (hw : PublishSafe P w) {claim : PublishClaim}
    (hclaim : claim ∈ w.publishClaims)
    (hholder : (w.eventLease claim.eventId).holder = some claim.leaseToken) :
    (w.publishClaimsOn claim.eventId).head? = some claim := by
  have hhead := (hw.leases claim.eventId).newest _ hholder
  change ((w.publishClaimsOn claim.eventId).map PublishClaim.leaseToken).head? = _ at hhead
  rw [List.head?_map, Option.map_eq_some_iff] at hhead
  obtain ⟨newest, hnewest, htoken⟩ := hhead
  have hsame : newest = claim := List.inj_on_of_nodup_map (hw.leases claim.eventId).distinct
    (List.mem_of_head? hnewest) (List.mem_filter.mpr ⟨hclaim, decide_eq_true rfl⟩) htoken
  rw [hnewest, hsame]

/-- A claim whose event was claimed again has lost it. -/
theorem lostEvent_of_later {w : World} (hw : PublishSafe P w) {claim newer : PublishClaim}
    {later earlier : List PublishClaim} (hclaims : w.publishClaims = later ++ claim :: earlier)
    (hnewer : newer ∈ later) (hsame : newer.eventId = claim.eventId) :
    claim.leaseToken ∈ (w.eventLease claim.eventId).issued ∧
      (w.eventLease claim.eventId).holder ≠ some claim.leaseToken := by
  have hissued : (w.eventLease claim.eventId).issued =
      (later.filter fun c => c.eventId = claim.eventId).map PublishClaim.leaseToken ++
        claim.leaseToken ::
          (earlier.filter fun c => c.eventId = claim.eventId).map PublishClaim.leaseToken := by
    change (w.publishClaims.filter fun c => c.eventId = claim.eventId).map
      PublishClaim.leaseToken = _
    rw [hclaims, List.filter_append, List.filter_cons, if_pos (decide_eq_true rfl), List.map_append,
      List.map_cons]
  refine ⟨?_, (hw.leases claim.eventId).not_holder hissued fun hnil => ?_⟩
  · rw [hissued]
    exact List.mem_append_right _ List.mem_cons_self
  · have hmem : newer ∈ later.filter fun c => c.eventId = claim.eventId :=
      List.mem_filter.mpr ⟨hnewer, decide_eq_true hsame⟩
    rw [List.map_eq_nil_iff.mp hnil] at hmem
    exact List.not_mem_nil hmem

/-- A claim made while an event is due is handed that event or one before it. -/
theorem claimEvent_of_due {s : Db} {env : Env} {e : EventRow} (he : e ∈ s.events.rows)
    (hdue : LifecyclePublish.due (env.nowString 0) e = true) :
    ∃ d ∈ s.events.rows, d.seq ≤ e.seq ∧
      ∃ claim db', Prog.exec databaseError (LifecyclePublish.claimDue env) [] s =
        (.ok (some claim), db') ∧ PublishClaimOn claim d := by
  cases hnext : LifecyclePublish.nextDue s (env.nowString 0) with
  | none =>
    have hnone := LifecyclePublish.nextDue_eq_none hnext e he
    rw [hdue] at hnone
    cases hnone
  | some d =>
    obtain ⟨hd, -, hfirst⟩ := LifecyclePublish.nextDue_eq_some hnext
    refine ⟨d, hd, hfirst e he hdue, ?_⟩
    rcases LifecyclePublish.exec_claimDue env [] s with
      (hexec | ⟨-, hnone⟩) | ⟨d', db', until_, hnext', -, -, hexec⟩
    · have hstmt : (Prog.exec databaseError (LifecyclePublish.claimDue env) [] s).1 ≠
          .error databaseError := by
        unfold LifecyclePublish.claimDue
        simp only [Prog.onPool, Prog.exec, Prog.run, Prog.Conn.statement, hnext]
        exact fun h => by cases h
      exact absurd (congrArg Prod.fst hexec) hstmt
    · rw [hnext] at hnone
      cases hnone
    · rw [hnext] at hnext'
      cases hnext'
      exact ⟨_, db', hexec, rfl, rfl, rfl⟩

/-! ## Falling due -/

/-- So many seconds have passed since every clock reading of the run. -/
def Elapsed (envs : List Env) (seconds : Nat) (t : DateTime) : Prop :=
  ∀ env ∈ envs, ∀ k, (env.now k).plusSeconds seconds ≤ t

theorem DueWithin.text_le {envs : List Env} {limit seconds : Nat} {text : String} {t : DateTime}
    (h : DueWithin envs limit text) (hlimit : limit ≤ seconds) (helapsed : Elapsed envs seconds t)
    (hyear : t.FourDigitYear) : text ≤ t.toRfc3339Millis := by
  obtain ⟨env, henv, k, delay, hdelay, rfl⟩ := h
  refine DateTime.toRfc3339Millis_mono ?_ hyear
  have hmono := (env.now k).plusSeconds_mono (m := delay) (n := seconds) (by omega) (by omega)
  exact le_trans ((DateTime.le_def _ _).mp hmono) ((DateTime.le_def _ _).mp (helapsed env henv k))

theorem due_of_elapsed {w : World} (hw : Publishing w) {e : EventRow} (he : e ∈ w.db.events.rows)
    (hunpublished : e.publishedAt = none) {t : DateTime} (helapsed : Elapsed w.envs 300 t)
    (hyear : t.FourDigitYear) : LifecyclePublish.due t.toRfc3339Millis e = true := by
  obtain ⟨hnext, hlease⟩ := hw.times e he
  have hlapsed : leaseLapsed e.leaseUntil t.toRfc3339Millis = true := by
    cases hu : e.leaseUntil with
    | none => rfl
    | some u => exact decide_eq_true ((hlease u hu).text_le (by decide) helapsed hyear)
  unfold LifecyclePublish.due
  simp only [Bool.and_eq_true, decide_eq_true_eq]
  exact ⟨⟨hunpublished, hnext.text_le le_rfl helapsed hyear⟩, hlapsed⟩

/-- A text of a four-digit year is never reached by a clock of another year. -/
theorem fourDigitYear_of_due {e : EventRow} {s t : DateTime}
    (hnext : e.nextAttemptAt = s.toRfc3339Millis) (hs : s.FourDigitYear)
    (hdue : LifecyclePublish.due t.toRfc3339Millis e = true) : t.FourDigitYear := by
  unfold LifecyclePublish.due at hdue
  simp only [Bool.and_eq_true, decide_eq_true_eq] at hdue
  by_contra hyear
  have hlt := DateTime.lt_of_not_fourDigitYear hs hyear
  rw [← hnext] at hlt
  exact not_le_of_gt hlt hdue.1.2

/-! ## The queue is safe -/

variable (P) in
/-- What holds of the publish queue of a world, now and after anything that follows. -/
structure PublishQueue (w : World) : Prop where
  once : w.published.Nodup
  marks : ∀ e ∈ w.db.events.rows, e.publishedAt ≠ none ↔ e.eventId ∈ w.published
  final : ∀ e ∈ w.db.events.rows, e.publishedAt ≠ none → ∀ more, (worlds P).Legal more w →
    e ∈ ((worlds P).run more w).db.events.rows
  byHolder : ∀ claim ∈ w.publishClaims, ∀ env streamSeq faults,
    (Prog.exec databaseError (LifecyclePublish.published env claim streamSeq) faults w.db).1 =
      .ok true → (w.publishClaimsOn claim.eventId).head? = some claim
  takenOver : ∀ later claim earlier, w.publishClaims = later ++ claim :: earlier →
    (∃ newer ∈ later, newer.eventId = claim.eventId) → ∀ more, (worlds P).Legal more w →
      ∀ env streamSeq faults,
        (Prog.exec databaseError (LifecyclePublish.published env claim streamSeq) faults
          ((worlds P).run more w).db).2 = ((worlds P).run more w).db ∧
        (Prog.exec databaseError (LifecyclePublish.retry env claim) faults
          ((worlds P).run more w).db).2 = ((worlds P).run more w).db
  kept : ∀ e ∈ w.db.events.rows, ∀ more, (worlds P).Legal more w →
    ∃ e' ∈ ((worlds P).run more w).db.events.rows, SameEvent e e'
  handedOut : ∀ claim ∈ w.publishClaims, ∃ e ∈ w.db.events.rows, PublishClaimOn claim e
  claimable : ∀ e ∈ w.db.events.rows, e.publishedAt = none → ∀ env : Env,
    Elapsed w.envs 300 (env.now 0) → (env.now 0).FourDigitYear →
      LifecyclePublish.due (env.nowString 0) e = true ∧
      ∃ d ∈ w.db.events.rows, d.seq ≤ e.seq ∧
        ∃ claim db', Prog.exec databaseError (LifecyclePublish.claimDue env) [] w.db =
          (.ok (some claim), db') ∧ PublishClaimOn claim d
  onlyThen : ∀ e ∈ w.db.events.rows, ∀ s : DateTime, e.nextAttemptAt = s.toRfc3339Millis →
    s.FourDigitYear → ∀ env : Env, LifecyclePublish.due (env.nowString 0) e = true →
      (env.now 0).FourDigitYear
  attempts : ∀ e ∈ w.db.events.rows, e.attempts = (w.publishClaimsOn e.eventId).length

theorem publishQueue_of_safe {w : World} (hw : PublishSafe P w) : PublishQueue P w where
  once := hw.publishing.once
  marks e he := by
    refine ⟨hw.publishing.marked e he, fun hmark => ?_⟩
    obtain ⟨d, hd, hkey, hdone⟩ := hw.publishing.marks _ hmark
    have hde : d = e := List.inj_on_of_nodup_map w.db.events.nodup hd he hkey
    exact hde ▸ hdone
  final e he hdone more hlegal := (eventsKept_run hw hlegal).published e he hdone
  byHolder claim hclaim env streamSeq faults hok := by
    rcases settleEvent_cases _ claim _ _ faults with ⟨hne, -⟩ | hholder
    · exact absurd hok hne
    · exact newest_of_holder hw hclaim hholder
  takenOver later claim earlier hclaims hnewer more hlegal env streamSeq faults := by
    obtain ⟨newer, hmem, hsame⟩ := hnewer
    obtain ⟨hissued, hlost⟩ := lostEvent_of_later hw hclaims hmem hsame
    have hnever := Lease.not_holder_moves (eventLease_run hw hlegal claim.eventId) hissued hlost
    refine ⟨?_, ?_⟩
    · rcases settleEvent_cases _ claim _ _ faults with ⟨-, hsame⟩ | hholder
      · exact hsame
      · exact absurd hholder hnever
    · rcases settleEvent_cases _ claim _ _ faults with ⟨-, hsame⟩ | hholder
      · exact hsame
      · exact absurd hholder hnever
  kept e he more hlegal := (eventsKept_run hw hlegal).kept e he
  handedOut := hw.publishing.claims
  claimable e he hunpublished env helapsed hyear := by
    have hdue := due_of_elapsed hw.publishing he hunpublished helapsed hyear
    exact ⟨hdue, claimEvent_of_due he hdue⟩
  onlyThen e _ s hnext hs env hdue := fourDigitYear_of_due hnext hs hdue
  attempts := hw.publishing.attempts

variable (P) in
/-- The queue is safe in every world the server and its workers reach. An event is claimable, at the
    latest 300 seconds after every clock reading so far, on a clock whose year has four digits. -/
def PublishQueueSafe : Prop :=
  ∀ acts, (worlds P).Legal acts World.empty → PublishQueue P ((worlds P).run acts World.empty)

theorem publish_queue (P : Packages) : PublishQueueSafe P :=
  fun _ hlegal => publishQueue_of_safe (publishSafe_run publishSafe_empty hlegal)

/-! ## A clock past the year 9999 -/

/-- An event is appended in 2026. In the year 10000 no claim is handed it or any other. -/
theorem nothing_due_from_year_10000 :
    let acts := [Act.call (open_ sampleEnv), .call sampleCreate.toCall]
    let w := (worlds samplePackages).run acts World.empty
    (worlds samplePackages).Legal acts World.empty ∧
      (∃ e ∈ w.db.events.rows, e.publishedAt = none) ∧ Elapsed w.envs 300 (lateEnv.now 0) ∧
      Prog.exec databaseError (LifecyclePublish.claimDue lateEnv) [] w.db = (.ok none, w.db) := by
  intro acts w
  obtain ⟨created, s', node, hexec, -, hcreated⟩ := sampleCreate_made
  have hdb : w.db = s' := congrArg Prod.snd hexec
  obtain ⟨origin, hrows⟩ := hcreated.event
  have hevents : w.db.events.rows = [createdEvent sampleEnv created.request node none origin 1] := by
    rw [hdb, hrows]
    rfl
  refine ⟨⟨trivial, trivial, trivial⟩, ?_, ?_, ?_⟩
  · rw [hevents]
    exact ⟨_, List.mem_singleton.mpr rfl, rfl⟩
  · intro env henv k
    have henvs : w.envs = [sampleEnv] := rfl
    rw [henvs, List.mem_singleton] at henv
    rw [henv]
    exact (by decide : sampleTime.plusSeconds 300 ≤ yearTenThousand)
  · refine LifecyclePublish.exec_claimDue_none ?_
    cases hnext : LifecyclePublish.nextDue w.db (lateEnv.nowString 0) with
    | none => rfl
    | some e =>
      obtain ⟨he, hdue, -⟩ := LifecyclePublish.nextDue_eq_some hnext
      rw [hevents, List.mem_singleton] at he
      have hnextAt : e.nextAttemptAt = sampleTime.toRfc3339Millis := congrArg EventRow.nextAttemptAt he
      exact absurd (fourDigitYear_of_due (t := yearTenThousand) hnextAt (by decide) hdue) (by decide)

end Nod.Server
