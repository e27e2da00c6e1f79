import Nod.Proto.Concrete
import Nod.Server.CreateCall

/-
  When a create makes a request: its checks pass, its recipients exist, and the database has room
  for the new rows.
  Proved: `exists_created`, such a create is accepted by a store that works.
-/

namespace Nod.Server

open Lib Nod.Proto

variable {P : Packages}

/-! ## What a new request reads back as -/

/-- A row whose times are texts of four-digit years reads back. -/
theorem exists_readsAs {row : RequestRow} (related : RelatedRows)
    {expiresAt resolvedAt : Option DateTime} {createdAt updatedAt : DateTime}
    (hfield : ∀ field ∈ row.answerField, field.validate = .ok ())
    (hexpires : row.expiresAt.map DateTime.parseFromRfc3339 = expiresAt.map some)
    (hcreated : DateTime.parseFromRfc3339 row.createdAt = some createdAt)
    (hupdated : DateTime.parseFromRfc3339 row.updatedAt = some updatedAt)
    (hresolved : row.resolvedAt.map DateTime.parseFromRfc3339 = resolvedAt.map some) :
    ∃ r version digest, ReadsAs P row related r version digest := by
  have hissued : ∃ version digest, issuedDigest P
      ((unsignedRequest row related expiresAt createdAt updatedAt resolvedAt).toWire P.toExternals)
      (recipientsCommitment P.toExternals related.recipients row.recipientSalt) =
        .ok (version, digest) := by
    have hcommitment := validCommitment_sha256Hex P.toExternals ("nod-recipients-v2\n" ++
      (Json.arr [.str row.recipientSalt, .arr (related.recipients.map .str)]).text)
    have hwire : ((unsignedRequest row related expiresAt createdAt updatedAt resolvedAt).toWire
        P.toExternals).answerField = row.answerField := by
      unfold DecisionRequest.toWire
      split <;> rfl
    generalize (unsignedRequest row related expiresAt createdAt updatedAt resolvedAt).toWire
      P.toExternals = wire at hwire ⊢
    unfold issuedDigest
    rw [hwire]
    cases hf : row.answerField with
    | none =>
      obtain ⟨digest, hdigest⟩ : ∃ digest, requestDigestV1 P.toExternals wire
          (recipientsCommitment P.toExternals related.recipients row.recipientSalt) = .ok digest :=
        ⟨_, structuredRequestDigest_eq_ok.mpr ⟨hcommitment, rfl⟩⟩
      refine ⟨requestDigestVersion, digest, ?_⟩
      dsimp only
      rw [hdigest]
      rfl
    | some field =>
      obtain ⟨digest, hdigest⟩ : ∃ digest, valueRequestDigest P.toExternals wire
          (recipientsCommitment P.toExternals related.recipients row.recipientSalt) field =
            .ok digest :=
        ⟨_, valueRequestDigestWithVersion_eq_ok.mpr ⟨hcommitment, hfield field hf, rfl⟩⟩
      refine ⟨valueRequestDigestVersion, digest, ?_⟩
      dsimp only
      rw [hdigest]
      rfl
  obtain ⟨version, digest, hissued⟩ := hissued
  exact ⟨{ unsignedRequest row related expiresAt createdAt updatedAt resolvedAt with
    signing := some ⟨version,
      recipientsCommitment P.toExternals related.recipients row.recipientSalt, digest⟩ },
    version, digest, hexpires, hcreated, hupdated, hresolved, hissued, rfl⟩

/-- The answer field of a request that passed its checks. -/
theorem validate_of_validateRequest {req : CreateDecisionRequest}
    (h : validateRequest P req = .ok ()) : ∀ field ∈ req.answerField, field.validate = .ok () := by
  intro field hfield
  simp only [validateRequest, bind_eq_ok] at h
  obtain ⟨_, hanswer, -⟩ := h
  unfold validateAnswerField at hanswer
  rw [hfield] at hanswer
  simp only [bind_eq_ok, mapError_eq_ok] at hanswer
  obtain ⟨_, hvalid, -⟩ := hanswer
  exact hvalid

/-- Well-formed options have distinct ids. -/
theorem nodup_of_validateOptions {seen : List String} {options : List RequestOption}
    (h : validateOptions seen options = .ok ()) :
    (options.map RequestOption.id).Nodup ∧ ∀ option ∈ options, option.id ∉ seen := by
  induction options generalizing seen with
  | nil => exact ⟨List.nodup_nil, fun _ hm => absurd hm List.not_mem_nil⟩
  | cons option options ih =>
    simp only [validateOptions, bind_eq_ok, refuseIf_eq_ok] at h
    obtain ⟨_, -, _, -, _, hnew, h⟩ := h
    obtain ⟨hnodup, hseen⟩ := ih h
    refine ⟨?_, ?_⟩
    · rw [List.map_cons, List.nodup_cons, List.mem_map]
      refine ⟨?_, hnodup⟩
      rintro ⟨other, hother, hid⟩
      exact hseen other hother (hid ▸ List.mem_cons_self)
    · intro other hother
      rcases List.mem_cons.mp hother with rfl | hother
      · exact hnew
      · exact fun hm => hseen other hother (List.mem_cons_of_mem _ hm)

/-! ## Room for a new request -/

/-- The ids a create asks for are new to the database. -/
structure Room (env : Env) (db : Db) : Prop where
  request : db.requests.get? (env.newId 0) = none
  origin : db.origins.get? (env.newId 0) = none
  pushes : ∀ p ∈ db.pushDeliveries.rows, p.requestId ≠ env.newId 0
  journal : ∀ e ∈ db.events.rows, e.requestId ≠ env.newId 0
  event : db.events.get? (env.newId 1) = none

theorem exists_insertRecipients (id : String) {recipients : List String} (db : Db)
    (hstored : db.requests.get? id ≠ none) (hnodup : recipients.Nodup)
    (hfree : ∀ userId ∈ recipients, db.recipients.get? (id, userId) = none)
    (hknown : ∀ userId ∈ recipients, db.users.get? userId ≠ none) :
    ∃ table, Prog.eval databaseError (insertRecipients id recipients) db =
      .ok ((), { db with recipients := table }) := by
  induction recipients generalizing db with
  | nil => exact ⟨db.recipients, rfl⟩
  | cons userId recipients ih =>
    obtain ⟨hnot, hnodup⟩ := List.nodup_cons.mp hnodup
    obtain ⟨inserted, hinserted⟩ := Table.exists_insert? (t := db.recipients)
      (r := ⟨id, userId⟩) (hfree userId List.mem_cons_self)
    have hone : insertRecipient ⟨id, userId⟩ db = some ((), { db with recipients := inserted }) := by
      unfold insertRecipient
      rw [if_neg (not_or.mpr ⟨hstored, hknown userId List.mem_cons_self⟩), hinserted]
      rfl
    have hrest : ∀ other ∈ recipients, inserted.get? (id, other) = none := by
      intro other hother
      rw [Table.get?_insert? hinserted, if_neg]
      · exact hfree other (List.mem_cons_of_mem _ hother)
      · intro heq
        have hsame : userId = other := (Prod.mk.inj heq).2
        exact hnot (hsame ▸ hother)
    obtain ⟨table, htable⟩ := ih { db with recipients := inserted } hstored hnodup hrest
      fun other hother => hknown other (List.mem_cons_of_mem _ hother)
    exact ⟨table, Prog.eval_bind_eq_ok.mpr ⟨(), _, Prog.eval_onTx_eq_ok.mpr hone, htable⟩⟩

theorem exists_insertOptions (id : String) {options : List RequestOption} (db : Db)
    (hstored : db.requests.get? id ≠ none) (hnodup : (options.map RequestOption.id).Nodup)
    (hfree : ∀ option ∈ options, db.options.get? (id, option.id) = none) :
    ∃ table, Prog.eval databaseError (insertOptions id options) db =
      .ok ((), { db with options := table }) := by
  induction options generalizing db with
  | nil => exact ⟨db.options, rfl⟩
  | cons option options ih =>
    rw [List.map_cons] at hnodup
    obtain ⟨hnot, hnodup⟩ := List.nodup_cons.mp hnodup
    obtain ⟨inserted, hinserted⟩ := Table.exists_insert? (t := db.options) (r := ⟨id, option⟩)
      (hfree option List.mem_cons_self)
    have hone : insertOption ⟨id, option⟩ db = some ((), { db with options := inserted }) := by
      unfold insertOption
      rw [if_neg hstored, hinserted]
      rfl
    have hrest : ∀ other ∈ options, inserted.get? (id, other.id) = none := by
      intro other hother
      rw [Table.get?_insert? hinserted, if_neg]
      · exact hfree other (List.mem_cons_of_mem _ hother)
      · intro heq
        have hsame : option.id = other.id := (Prod.mk.inj heq).2
        exact hnot (hsame ▸ List.mem_map_of_mem hother)
    obtain ⟨table, htable⟩ := ih { db with options := inserted } hstored hnodup hrest
    exact ⟨table, Prog.eval_bind_eq_ok.mpr ⟨(), _, Prog.eval_onTx_eq_ok.mpr hone, htable⟩⟩

theorem exists_queuePushes (id now : String) (db : Db)
    (hfree : ∀ p ∈ db.pushDeliveries.rows, p.requestId ≠ id) :
    ∃ table, queuePushes id now db = some ((), { db with pushDeliveries := table }) := by
  let devices := db.devices.rows.filter fun d =>
    pushable d && db.recipients.rows.any fun r => r.requestId = id && r.userId = d.userId
  let job : DeviceRow → PushDeliveryRow := fun d =>
    { requestId := id, deviceId := d.id, status := "queued", attempts := 0, leaseUntil := none
      claimGeneration := 0, updatedAt := now, error := none }
  have hids : (devices.map DeviceRow.id).Nodup :=
    db.devices.nodup.sublist (List.filter_sublist.map _)
  have hkeys : ((devices.map job).map PushDeliveryRow.key).Nodup := by
    have hpairs : (devices.map job).map PushDeliveryRow.key =
        (devices.map DeviceRow.id).map (Prod.mk id) := by
      rw [List.map_map, List.map_map]
      rfl
    rw [hpairs]
    exact hids.map fun _ _ h => (Prod.mk.inj h).2
  have hnodup : ((db.pushDeliveries.rows ++ devices.map job).map PushDeliveryRow.key).Nodup := by
    rw [List.map_append, List.nodup_append]
    refine ⟨db.pushDeliveries.nodup, hkeys, ?_⟩
    rintro k hk _ hjob rfl
    obtain ⟨p, hp, rfl⟩ := List.mem_map.mp hk
    obtain ⟨q, hq, hkey⟩ := List.mem_map.mp hjob
    obtain ⟨d, -, rfl⟩ := List.mem_map.mp hq
    exact hfree p hp (Prod.mk.inj hkey).1.symm
  have hall : db.pushDeliveries.insertAll? (devices.map job) = some ⟨_, hnodup⟩ :=
    Table.insertAll?_eq_some.mpr ⟨hnodup, rfl⟩
  exact ⟨⟨_, hnodup⟩, congrArg (Option.map _) hall⟩

theorem exists_insertOrigin (id : String) (origin : Option Origin) (db : Db)
    (hstored : db.requests.get? id ≠ none) (hfree : db.origins.get? id = none) :
    ∃ table, Prog.eval databaseError (insertOrigin id origin) db =
      .ok ((), { db with origins := table }) := by
  cases origin with
  | none => exact ⟨db.origins, rfl⟩
  | some origin =>
    obtain ⟨table, htable⟩ := Table.exists_insert? (t := db.origins) (r := ⟨id, origin⟩) hfree
    refine ⟨table, ?_⟩
    rw [insertOrigin, Prog.eval_onTx_eq_ok, if_neg hstored, htable]
    rfl

theorem exists_bindIdempotency (binding : IdempotencyBinding) (id : String) (db : Db)
    (hstored : db.requests.get? id ≠ none)
    (hfree : ∀ key ∈ binding.key,
      db.idempotency.get? (binding.scope, binding.channelId, key) = none) :
    ∃ table, Prog.eval databaseError (bindIdempotency binding id) db =
      .ok ((), { db with idempotency := table }) := by
  unfold bindIdempotency
  cases hkey : binding.key with
  | none => exact ⟨db.idempotency, rfl⟩
  | some key =>
    obtain ⟨table, htable⟩ := Table.exists_insert? (t := db.idempotency)
      (r := ⟨binding.scope, binding.channelId, key, binding.fingerprint, id⟩) (hfree key hkey)
    refine ⟨table, ?_⟩
    dsimp only
    rw [Prog.eval_onTx_eq_ok, insertIdempotency, if_neg hstored, htable]
    rfl

/-- What a create needs of the database. -/
structure Accepting (env : Env) (req : CreateDecisionRequest) (metadata : CreateRequestMetadata)
    (db : Db) : Prop where
  room : Room env db
  channel : db.channels.get? req.channelId ≠ none
  creator : ∀ token ∈ metadata.createdByIssuerTokenId, db.issuerTokens.get? token ≠ none
  noPending : pendingFor req db = none
  unbound : boundTo req metadata db = none
  resolvable : Resolvable req db
  node : ∃ node, db.integrationMeta.get? "node_id" = some ("node_id", node)
  created : (env.now 0).FourDigitYear
  expires : ∀ t ∈ req.expiresAt, t.FourDigitYear

section

variable {env : Env} {req : CreateDecisionRequest} {metadata : CreateRequestMetadata}
  {fingerprint : String} {db : Db}

theorem mem_addRecipient {recipients : List String} {userId v : String} :
    v ∈ addRecipient recipients userId ↔ v ∈ recipients ∨ v = Text.trim userId := by
  unfold addRecipient
  split
  · rename_i hmem
    constructor
    · exact Or.inl
    · rintro (hv | rfl)
      · exact hv
      · exact hmem
  · rw [List.mem_append, List.mem_singleton]

theorem nodup_addRecipient {recipients : List String} (h : recipients.Nodup) (userId : String) :
    (addRecipient recipients userId).Nodup := by
  unfold addRecipient
  split
  · exact h
  · rename_i hnot
    exact List.nodup_append.mpr ⟨h, List.nodup_singleton _, fun a ha b hb => by
      rw [List.mem_singleton.mp hb]
      rintro rfl
      exact hnot ha⟩

theorem foldl_addRecipient {recipients requested : List String} (h : recipients.Nodup) :
    (requested.foldl addRecipient recipients).Nodup ∧
      ∀ v, v ∈ requested.foldl addRecipient recipients ↔
        v ∈ recipients ∨ ∃ userId ∈ requested, v = Text.trim userId := by
  induction requested generalizing recipients with
  | nil => simp [h]
  | cons userId requested ih =>
    obtain ⟨hnodup, hmem⟩ := ih (nodup_addRecipient h userId)
    refine ⟨hnodup, fun v => ?_⟩
    rw [List.foldl_cons, hmem, mem_addRecipient, List.exists_mem_cons_iff, or_assoc]

theorem userExists_get? {userId : String} (h : userExists userId db = true) :
    db.users.get? userId ≠ none := by
  intro hnone
  unfold userExists at h
  rw [hnone] at h
  cases h

theorem mem_subscribers {channelId userId : String} (h : userId ∈ subscribers channelId db) :
    userExists userId db = true := by
  unfold subscribers at h
  rw [List.mem_mergeSort] at h
  obtain ⟨row, hrow, rfl⟩ := List.mem_map.mp h
  have hkept := (List.mem_filter.mp hrow).2
  simp only [Bool.and_eq_true] at hkept
  exact hkept.2

theorem nodup_subscribers (channelId : String) (db : Db) : (subscribers channelId db).Nodup := by
  unfold subscribers
  rw [(List.mergeSort_perm _ _).nodup_iff]
  have hkeys : ((db.subscriptions.rows.filter fun s =>
      s.channelId = channelId && s.subscribed && userExists s.userId db).map
        SubscriptionRow.key).Nodup :=
    db.subscriptions.nodup.sublist (List.filter_sublist.map _)
  refine List.Nodup.map_on ?_ hkeys.of_map
  intro r hr r' hr' huser
  refine List.inj_on_of_nodup_map hkeys hr hr' ?_
  have hchannel := (List.mem_filter.mp hr).2
  have hchannel' := (List.mem_filter.mp hr').2
  simp only [Bool.and_eq_true, decide_eq_true_eq] at hchannel hchannel'
  rw [SubscriptionRow.key, SubscriptionRow.key, huser, hchannel.1.1, hchannel'.1.1]

/-- The recipients of a create are distinct. -/
theorem nodup_recipientsFor (req : CreateDecisionRequest) (db : Db) :
    (recipientsFor req db).Nodup := by
  unfold recipientsFor
  cases req.recipients with
  | none => exact nodup_subscribers req.channelId db
  | some requested => exact (foldl_addRecipient List.nodup_nil).1

theorem known_recipientsFor (h : Resolvable req db) :
    ∀ userId ∈ recipientsFor req db, db.users.get? userId ≠ none := by
  intro userId hmem
  unfold recipientsFor at hmem
  cases hrequested : req.recipients with
  | none =>
    rw [hrequested] at hmem
    exact userExists_get? (mem_subscribers hmem)
  | some requested =>
    rw [hrequested] at hmem
    rcases ((foldl_addRecipient List.nodup_nil).2 userId).mp hmem with hnil | ⟨v, hv, rfl⟩
    · exact absurd hnil List.not_mem_nil
    · exact userExists_get? ((h requested hrequested).2 v hv).2

/-- No child row of a request that is not stored. -/
theorem get?_of_unknown {α : Type} {f : α → String} {κ : Type} [DecidableEq κ] {key : α → κ}
    {id : String} {t : Table key} {k : κ} (hf : ∀ r, key r = k → f r = id)
    (hrefs : ∀ r ∈ t.rows, db.requests.get? (f r) ≠ none) (hid : db.requests.get? id = none) :
    t.get? k = none := by
  rw [Table.get?_eq_none, List.mem_map]
  rintro ⟨r, hr, hk⟩
  exact hrefs r hr (hf r hk ▸ hid)

/-- The row of a new request before its first event. -/
def bareRow (env : Env) (req : CreateDecisionRequest) (creator : Option String) : RequestRow :=
  { newRow env req creator with answerField := req.answerField }

theorem exists_insertRequest (h : Accepting env req metadata db) :
    ∃ requests, insertRequest (newRow env req metadata.createdByIssuerTokenId) db =
        some ((), { db with requests := requests }) ∧
      (requests.update (fun r => r.id = env.newId 0)
        (fun r => { r with answerField := req.answerField }) fun _ => rfl).get? (env.newId 0) =
          some (bareRow env req metadata.createdByIssuerTokenId) := by
  obtain ⟨requests, hinsert⟩ := Table.exists_insert? (t := db.requests)
    (r := newRow env req metadata.createdByIssuerTokenId) h.room.request
  refine ⟨requests, ?_, ?_⟩
  · unfold insertRequest
    rw [if_neg, hinsert]
    · rfl
    · rintro (hchannel | ⟨token, htoken, hnone⟩ | ⟨key, hkey, -, hpending⟩)
      · exact h.channel hchannel
      · exact h.creator token htoken hnone
      · refine hpending ?_
        have hnone := h.noPending
        have hdedupe : req.dedupeKey = some key := hkey
        rw [pendingFor, hdedupe] at hnone
        exact hnone
  · have hget : requests.get? (env.newId 0) =
        some (newRow env req metadata.createdByIssuerTokenId) := by
      rw [Table.get?_insert? hinsert]
      exact if_pos rfl
    exact Table.get?_update_of_pos hget (decide_eq_true rfl)

/-- A new row reads back. -/
theorem exists_readRequest (h : Accepting env req metadata db)
    (hpasses : Passes P req metadata fingerprint) (s : Db)
    (hrow : s.requests.get? (env.newId 0) =
      some (bareRow env req metadata.createdByIssuerTokenId)) :
    ∃ r, readRequest P s (env.newId 0) = .ok r := by
  have hnow := DateTime.parse_toRfc3339Millis (env.now 0) h.created
  have hexpires : (bareRow env req metadata.createdByIssuerTokenId).expiresAt.map
      DateTime.parseFromRfc3339 = (req.expiresAt.map DateTime.truncMillis).map some := by
    change (req.expiresAt.map DateTime.toRfc3339Millis).map DateTime.parseFromRfc3339 = _
    cases hexpires : req.expiresAt with
    | none => rfl
    | some t =>
      simp only [Option.map_some]
      rw [DateTime.parse_toRfc3339Millis t (h.expires t hexpires)]
  have hresolved : (bareRow env req metadata.createdByIssuerTokenId).resolvedAt.map
      DateTime.parseFromRfc3339 = (none : Option DateTime).map some := rfl
  obtain ⟨r, version, digest, hreads⟩ := exists_readsAs (P := P) (s.relatedOf (env.newId 0))
    (validate_of_validateRequest hpasses.valid) hexpires hnow hnow hresolved
  exact ⟨r, (readRequest_eq_ok P).mpr ⟨_, version, digest, hrow, hreads⟩⟩

theorem exists_eval_insertNew (hdb : Tables P db) (h : Accepting env req metadata db)
    (hpasses : Passes P req metadata fingerprint) :
    ∃ r, Prog.eval databaseError (insertNew P env req metadata
      (bindingOf req metadata fingerprint) (recipientsFor req db)) db = .ok r := by
  obtain ⟨node, hnode⟩ := h.node
  obtain ⟨requests, hinsert, hrow⟩ := exists_insertRequest h
  generalize hupdated : (requests.update (fun r => r.id = env.newId 0)
    (fun r => { r with answerField := req.answerField }) fun _ => rfl) = updated at hrow
  have hstored : updated.get? (env.newId 0) ≠ none := by
    rw [hrow]
    exact Option.some_ne_none _
  have hfield : setAnswerField (env.newId 0) req.answerField { db with requests := requests } =
      some ((), { db with requests := updated }) := by
    rw [← hupdated]
    rfl
  obtain ⟨recipients, hrecipients⟩ := exists_insertRecipients (env.newId 0)
    { db with requests := updated } hstored (nodup_recipientsFor req db)
    (fun userId _ => get?_of_unknown (fun _ hk => (Prod.mk.inj hk).1) hdb.recipients h.room.request)
    (known_recipientsFor h.resolvable)
  have hids : ((normalizeOptions req.options).map RequestOption.id).Nodup := by
    rw [map_id_normalizeOptions]
    exact (nodup_of_validateOptions hpasses.options).1
  obtain ⟨options, hoptions⟩ := exists_insertOptions (env.newId 0)
    { db with requests := updated, recipients := recipients } hstored hids
    fun option _ => get?_of_unknown (fun _ hk => (Prod.mk.inj hk).1) hdb.options h.room.request
  obtain ⟨pushes, hpushes⟩ := exists_queuePushes (env.newId 0) (env.nowString 0)
    { db with requests := updated, recipients := recipients, options := options } h.room.pushes
  have hfree : ∀ key ∈ metadata.key,
      db.idempotency.get? (metadata.scope, req.channelId, key) = none := by
    intro key hkey
    have hunbound := h.unbound
    rw [boundTo, hkey] at hunbound
    exact hunbound
  obtain ⟨keys, hkeys⟩ := exists_bindIdempotency (bindingOf req metadata fingerprint)
    (env.newId 0) { db with
      requests := updated, recipients := recipients, options := options, pushDeliveries := pushes }
    hstored hfree
  obtain ⟨request, hread⟩ := exists_readRequest h hpasses
    { db with
      requests := updated, recipients := recipients, options := options, pushDeliveries := pushes
      idempotency := keys } hrow
  have hid : request.id = env.newId 0 := id_of_readRequest P hread
  obtain ⟨origins, horigins⟩ := exists_insertOrigin (env.newId 0) metadata.origin
    { db with
      requests := updated, recipients := recipients, options := options, pushDeliveries := pushes
      idempotency := keys } hstored h.room.origin
  have hcallbacks : ∀ c ∈ db.callbacks.rows,
      c.eventId ≠ env.newId 1 ∧ c.deliveryId ≠ env.newId 1 ++ ":callback" := by
    intro c hc
    obtain ⟨hevent, hdelivery⟩ := hdb.callbacks c hc
    have hne : c.eventId ≠ env.newId 1 := fun heq => hevent (heq ▸ h.room.event)
    refine ⟨hne, fun heq => hne ?_⟩
    rw [hdelivery] at heq
    exact (String.append_left_inj _).mp heq
  have happend : ∃ last, Prog.eval databaseError
      (appendLifecycleOn (env.newId 1) (env.nowString 1) request requestCreated none)
      { db with
        requests := updated, recipients := recipients, options := options, pushDeliveries := pushes
        idempotency := keys, origins := origins } = .ok ((), last) :=
    exists_eval_appendLifecycleOn (hid ▸ hrow) hnode
      (fun e he hreq => absurd (hreq.trans hid) (h.room.journal e he)) h.room.event hcallbacks
  obtain ⟨last, hlast⟩ := happend
  refine ⟨(⟨env.newId 0, false, request⟩, last), ?_⟩
  simp only [insertNew, Prog.eval_bind_eq_ok, Prog.eval_onTx_eq_ok, eval_getRequestOn_eq_ok,
    Prog.eval_commitTx, Prog.eval_pure]
  exact ⟨(), _, hinsert, (), _, hfield, (), _, hrecipients, (), _, hoptions, (), _, hpushes, (), _,
    hkeys, request, _, ⟨hread, rfl⟩, (), _, horigins, (), last, hlast, (), last, rfl, rfl⟩

/-- A create that passes its checks makes a request where there is room for it. -/
theorem exists_created (hdb : Tables P db) (h : Accepting env req metadata db)
    (hpasses : Passes P req metadata fingerprint) :
    ∃ created s' node, Prog.exec databaseError (createRequest P env req metadata) [] db =
      (.ok created, s') ∧ created.requestId = env.newId 0 ∧
        Created P env req metadata db s' created.request (recipientsFor req db) node := by
  obtain ⟨⟨created, s'⟩, hmade⟩ := exists_eval_insertNew hdb h hpasses
  obtain ⟨-, hid, node, hcreated⟩ := created_of_insertNew P hpasses.valid hpasses.options hmade
  refine ⟨created, s', node,
    Prog.exec_nil_of_eval (transactional_createRequest P env req metadata) ?_, hid, hcreated⟩
  rw [eval_createRequest hpasses, h.unbound]
  exact eval_createInChannel_eq_ok.mpr
    ⟨h.channel, h.resolvable, Or.inr ⟨h.noPending, hmade⟩⟩

end

/-! ## A database that has just been opened -/

/-- Concrete packages; no text is a URL. -/
def samplePackages : Packages :=
  { Concrete.packages [] with
    parseUrl := fun _ => none
    timeError := fun _ => "premature end of input" }

/-- Opening an empty database seeds a node id, the default channel and its owner. -/
def opened (env : Env) : Db :=
  { Db.empty with
    integrationMeta := ⟨[("node_id", env.newId 0)], List.nodup_singleton _⟩
    channels := ⟨[⟨"default", "Default", env.nowString 0⟩], List.nodup_singleton _⟩
    users := ⟨[⟨"owner", "Owner", env.nowString 1, env.nowString 1, none⟩], List.nodup_singleton _⟩
    subscriptions := ⟨[⟨"owner", "default", true⟩], List.nodup_singleton _⟩ }

def open_ (env : Env) : Call := ⟨.admin (.connect env), []⟩

/-- Before anything else is made, any well-formed create for the owner is accepted. -/
theorem accepting_quiet (env env' : Env) {s : Db} {req : CreateDecisionRequest}
    {metadata : CreateRequestMetadata} (hquiet : Quiet P (opened env) s)
    (hchannel : req.channelId = "default") (hrecipients : req.recipients = none)
    (hcreator : metadata.createdByIssuerTokenId = none) (hnow : (env'.now 0).FourDigitYear)
    (hexpires : ∀ t ∈ req.expiresAt, t.FourDigitYear) : Accepting env' req metadata s := by
  have hrequests : s.requests = (opened env).requests :=
    hquiet.requests fun _ h => absurd h List.not_mem_nil
  refine
    { room := ⟨?_, ?_, ?_, ?_, ?_⟩, channel := ?_, creator := ?_, noPending := ?_, unbound := ?_,
      resolvable := ?_, node := ⟨env.newId 0, hquiet.node _ rfl⟩, created := hnow, expires := hexpires }
  · rw [hrequests]
    rfl
  · rw [hquiet.origins]
    rfl
  · rw [hquiet.pushDeliveries]
    exact fun _ h => absurd h List.not_mem_nil
  · rw [hquiet.events]
    exact fun _ h => absurd h List.not_mem_nil
  · rw [hquiet.events]
    rfl
  · rw [hchannel]
    exact hquiet.channels _ (Option.some_ne_none _)
  · intro token htoken
    rw [hcreator] at htoken
    exact absurd htoken (Option.not_mem_none token)
  · unfold pendingFor pendingByDedupeKey
    rw [hrequests]
    cases req.dedupeKey <;> rfl
  · unfold boundTo
    rw [hquiet.idempotency]
    cases metadata.key <;> rfl
  · intro requested hrequested
    rw [hrecipients] at hrequested
    exact absurd hrequested (Option.not_mem_none requested)

theorem accepting_opened (env env' : Env) {req : CreateDecisionRequest}
    {metadata : CreateRequestMetadata} (hchannel : req.channelId = "default")
    (hrecipients : req.recipients = none) (hcreator : metadata.createdByIssuerTokenId = none)
    (hnow : (env'.now 0).FourDigitYear) (hexpires : ∀ t ∈ req.expiresAt, t.FourDigitYear) :
    Accepting env' req metadata (opened env) :=
  accepting_quiet env env' (quiet_refl samplePackages (opened env)) hchannel hrecipients hcreator hnow hexpires

theorem tables_opened (env : Env) : Tables P (opened env) :=
  (wellFormed_run_empty (P := P) [open_ env]).toTables

/-! ## A concrete opening -/

/-- The same, where every payload can be signed. -/
def signerPackages : Packages := { samplePackages with toExternals := Concrete.hashPackages }

def sampleTime : DateTime := ⟨2026, 10, 1, 12, 0, 0, 0, by decide⟩

/-- The first instant of a year with five digits. -/
def yearTenThousand : DateTime := ⟨10000, 1, 1, 0, 0, 0, 0, by decide⟩

def sampleEnv : Env where
  now _ := sampleTime
  newId k :=
    if k = 0 then "0b4f7c1e-5d0a-4b6e-9a51-2f6f3f0a9c01" else "7d1f3a52-8c3e-4f0b-b0c9-66f2a1d7e4aa"
  newId_uuid k := by split <;> decide
  token := ""
  salt _ := "5f1d"
  salt_ne _ := by decide
  arrange ids := ids
  arrange_perm _ := List.Perm.refl _

def codeEnv : Env := { sampleEnv with token := "Q7RM-4T9K" }

def lateEnv : Env := { sampleEnv with now := fun _ => yearTenThousand }

def phoneRequest : EnrollDeviceRequest :=
  { code := "Q7RM-4T9K", deviceName := "Phone", nativeAppId := none, pushProvider := none
    pushToken := none
    signingKey := some ⟨"phone-key", decisionSigningAlgorithm, Concrete.publicKey⟩ }

/-- A card for the owner of the default channel. -/
def sampleRequest : CreateDecisionRequest :=
  { answerField := none, channelId := "default", recipients := none, decisionResolution := none
    title := "Deploy", summary := "", bodyMarkdown := "", fields := [], links := [], imageUrl := none
    notification := ⟨false, none, none⟩, dedupeKey := none, expiresAt := none, options := []
    callbackUrl := none }

def sampleCreate : CreateCall := ⟨sampleEnv, sampleRequest, ⟨none, none, none⟩, []⟩

theorem sampleCreate_made : ∃ created s' node,
    sampleCreate.exec samplePackages (opened sampleEnv) = (.ok created, s') ∧
      created.requestId = sampleEnv.newId 0 ∧
      Created samplePackages sampleEnv sampleRequest sampleCreate.metadata (opened sampleEnv) s'
        created.request (recipientsFor sampleRequest (opened sampleEnv)) node := by
  have hpasses : ∃ fingerprint,
      Passes samplePackages sampleCreate.req sampleCreate.metadata fingerprint :=
    ⟨_, by rfl, by rfl, by rfl, requestFingerprint_none.mpr rfl⟩
  obtain ⟨fingerprint, hpasses⟩ := hpasses
  have hexpires : ∀ t ∈ sampleCreate.req.expiresAt, t.FourDigitYear :=
    fun t ht => absurd ht (Option.not_mem_none t)
  exact exists_created (tables_opened sampleEnv)
    (accepting_opened sampleEnv sampleEnv rfl rfl rfl (by decide) hexpires) hpasses

end Nod.Server
