import Nod.Server.Idempotency

/-
  Dedupe keys. At most one request of a channel and dedupe key is pending.
  Proved: `deduplication`, over every run: an accepted create that is sent again while its request
  is pending returns that request and changes nothing, exactly when it names an idempotency key or
  what storage and subscriptions have made of the card is what the create asks for again.
-/

namespace Nod.Server

open Lib Nod.Proto

variable {P : Packages}

/-! ## One pending request for each key -/

def OnePending (s : Db) : Prop :=
  ∀ r₁ ∈ s.requests.rows, ∀ r₂ ∈ s.requests.rows, r₁.status = .pending → r₂.status = .pending →
    r₁.channelId = r₂.channelId → r₁.dedupeKey = r₂.dedupeKey → r₁.dedupeKey ≠ none → r₁ = r₂

/-- A pending request of the key is found. -/
theorem pendingFor_ne_none {req : CreateDecisionRequest} {s : Db} {row : RequestRow}
    (hrow : row ∈ s.requests.rows) (hpending : row.status = .pending)
    (hchannel : row.channelId = req.channelId) (hkey : row.dedupeKey = req.dedupeKey)
    (hne : req.dedupeKey ≠ none) : pendingFor req s ≠ none := by
  obtain ⟨key, hsome⟩ := Option.ne_none_iff_exists'.mp hne
  rw [hsome] at hkey
  unfold pendingFor pendingByDedupeKey
  rw [hsome, Option.bind_some, ne_eq, Option.map_eq_none_iff, List.find?_eq_none]
  intro hall
  exact hall row hrow (by simp [hpending, hchannel, hkey])

theorem pendingFor_of_row {req : CreateDecisionRequest} {s : Db} {row : RequestRow}
    (hone : OnePending s) (hrow : row ∈ s.requests.rows) (hpending : row.status = .pending)
    (hchannel : row.channelId = req.channelId) (hkey : row.dedupeKey = req.dedupeKey)
    (hne : req.dedupeKey ≠ none) : pendingFor req s = some row.id := by
  obtain ⟨id, hfound⟩ :=
    Option.ne_none_iff_exists'.mp (pendingFor_ne_none hrow hpending hchannel hkey hne)
  obtain ⟨other, hother, hpending', hchannel', hkey', -⟩ := row_of_pendingFor hfound
  have hsame : row = other := by
    refine hone row hrow other (Table.mem_of_get? hother) hpending hpending'
      (hchannel.trans hchannel'.symm) (hkey.trans hkey'.symm) ?_
    rw [hkey]
    exact hne
  have hid : other.id = id := Table.key_of_get? hother
  rw [hfound, hsame, hid]

/-- A request that is pending after a call was pending before it, unless the call made it. -/
theorem pending_before (c : Call) {s : Db} (hs : WellFormed P s) {row' : RequestRow}
    (hrow' : row' ∈ (c.after P s).requests.rows) (hpending : row'.status = .pending)
    (hstored : s.requests.get? row'.id ≠ none) :
    ∃ row ∈ s.requests.rows, row.id = row'.id ∧ row.status = .pending ∧
      row.frozen = row'.frozen := by
  obtain ⟨row, hrow⟩ := Option.ne_none_iff_exists'.mp hstored
  have hget' := Table.get?_of_mem hrow'
  have hid : row.id = row'.id := Table.key_of_get? hrow
  refine ⟨row, Table.mem_of_get? hrow, hid, ?_, (frozen_run [c] hs hrow hget').symm⟩
  by_contra hclosed
  have hsame := (lifecycle_of_wellFormed hs).closed row (Table.mem_of_get? hrow) hclosed [c] row'
    (hid.symm ▸ hget')
  exact hclosed (hsame.symm.trans hpending)

theorem onePending_created {env : Env} {req : CreateDecisionRequest}
    {metadata : CreateRequestMetadata} {s s' : Db} {request : DecisionRequest}
    {recipients : List String} {node : String} (hone : OnePending s)
    (hnone : pendingFor req s = none)
    (h : Created P env req metadata s s' request recipients node) : OnePending s' := by
  intro r₁ hr₁ r₂ hr₂ hpending₁ hpending₂ hchannel hkey hne
  rw [h.requestRows, List.mem_append, List.mem_singleton] at hr₁ hr₂
  rcases hr₁ with hr₁ | rfl
  · rcases hr₂ with hr₂ | rfl
    · exact hone r₁ hr₁ r₂ hr₂ hpending₁ hpending₂ hchannel hkey hne
    · refine absurd hnone (pendingFor_ne_none hr₁ hpending₁ hchannel hkey ?_)
      rw [hkey] at hne
      exact hne
  · rcases hr₂ with hr₂ | rfl
    · exact absurd hnone (pendingFor_ne_none hr₂ hpending₂ hchannel.symm hkey.symm hne)
    · rfl

theorem onePending_call (c : Call) {s : Db} (hs : WellFormed P s) (hone : OnePending s) :
    OnePending (c.after P s) := by
  by_cases hc : ∃ create : CreateCall, c = create.toCall
  · obtain ⟨create, rfl⟩ := hc
    rw [create.after_toCall]
    rcases create.exec_cases (P := P) s with ⟨e, he⟩ | ⟨created, s', fingerprint, hexec, -, -, hends⟩
    · rw [he]
      exact hone
    · rw [hexec]
      cases hends with
      | replayed _ _ _ _ _ hstore => exact hstore ▸ hone
      | joined _ _ _ _ _ _ hstore =>
        rw [hstore]
        exact hone
      | made _ hpending _ _ hcreated _ =>
        obtain ⟨node, hcreated⟩ := hcreated
        exact onePending_created hone hpending hcreated
  · obtain ⟨gone, hdrops⟩ := drops_call c (fun create heq => hc ⟨create, heq⟩) hs
    have hbefore : ∀ row' ∈ (c.after P s).requests.rows, s.requests.get? row'.id ≠ none := by
      intro row' hrow'
      refine ((hdrops.stored row'.id).mp ?_).1
      rw [Table.get?_of_mem hrow']
      exact Option.some_ne_none row'
    intro r₁ hr₁ r₂ hr₂ hpending₁ hpending₂ hchannel hkey hne
    obtain ⟨o₁, ho₁, hid₁, hopen₁, hfrozen₁⟩ := pending_before c hs hr₁ hpending₁ (hbefore r₁ hr₁)
    obtain ⟨o₂, ho₂, hid₂, hopen₂, hfrozen₂⟩ := pending_before c hs hr₂ hpending₂ (hbefore r₂ hr₂)
    have hchannelOf : ∀ {a b : RequestRow}, a.frozen = b.frozen → a.channelId = b.channelId := by
      intro a b h
      have hsame := congrArg RequestRow.channelId h
      exact hsame
    have hkeyOf : ∀ {a b : RequestRow}, a.frozen = b.frozen → a.dedupeKey = b.dedupeKey := by
      intro a b h
      have hsame := congrArg RequestRow.dedupeKey h
      exact hsame
    have hsame : o₁ = o₂ := by
      refine hone o₁ ho₁ o₂ ho₂ hopen₁ hopen₂ ?_ ?_ ?_
      · rw [hchannelOf hfrozen₁, hchannelOf hfrozen₂, hchannel]
      · rw [hkeyOf hfrozen₁, hkeyOf hfrozen₂, hkey]
      · rw [hkeyOf hfrozen₁]
        exact hne
    have hget₁ := Table.get?_of_mem hr₁
    have hget₂ := Table.get?_of_mem hr₂
    rw [← hid₁, hsame, hid₂, hget₂] at hget₁
    exact (Option.some.inj hget₁).symm

theorem onePending_run (calls : List Call) {s : Db} (hs : WellFormed P s) (hone : OnePending s) :
    OnePending (run P calls s) := by
  induction calls generalizing s with
  | nil => exact hone
  | cons c calls ih => exact ih ((moves_call c hs).wellFormed hs) (onePending_call c hs hone)

theorem onePending_run_empty (calls : List Call) : OnePending (run P calls Db.empty) :=
  onePending_run calls (wellFormed_empty P) fun _ h => absurd h List.not_mem_nil

/-! ## What a create and its request have in common -/

/-- The parts of a card that are stored and read back as the create gave them, normalized. -/
structure Restates (req : CreateDecisionRequest) (request : DecisionRequest) : Prop where
  answerField : req.answerField = request.answerField
  title : Text.trim req.title = request.title
  summary : Text.trim (cardSummary req) = request.summary
  bodyMarkdown : Text.trim req.bodyMarkdown = request.bodyMarkdown
  fields : req.fields = request.fields
  links : req.links = request.links
  imageUrl : req.imageUrl = request.imageUrl
  notification : normalizedNotification req.notification = request.notification
  callbackUrl : req.callbackUrl = request.callbackUrl
  options : normalizeOptions req.options = request.options
  decisionResolution : req.decisionResolution.getD .shared = request.decisionResolution

theorem not_differs {req : CreateDecisionRequest} {recipients : List String}
    {request : DecisionRequest} : ¬ differs req recipients request ↔
      Restates req request ∧ req.expiresAt = request.expiresAt ∧ recipients = request.recipients := by
  simp only [differs, not_or, not_not]
  constructor
  · rintro ⟨h1, h2, h3, h4, h5, h6, h7, h8, hexpires, h9, h10, hrecipients, h11⟩
    exact ⟨⟨h1, h2, h3, h4, h5, h6, h7, h8, h9, h10, h11⟩, hexpires, hrecipients⟩
  · rintro ⟨h, hexpires, hrecipients⟩
    exact ⟨h.answerField, h.title, h.summary, h.bodyMarkdown, h.fields, h.links, h.imageUrl,
      h.notification, hexpires, h.callbackUrl, h.options, hrecipients, h.decisionResolution⟩

theorem restates_of_reads {env : Env} {req : CreateDecisionRequest} {creator : Option String}
    {recipients : List String} {r : DecisionRequest} {version digest : String}
    (h : ReadsAs P (createdRow env req creator) ⟨recipients, [], normalizeOptions req.options⟩ r
      version digest) : Restates req r := by
  rw [h.request]
  exact ⟨rfl, rfl, rfl, rfl, rfl, rfl, rfl, rfl, rfl, rfl, rfl⟩

/-- What a card restates does not change while the request is stored. -/
theorem Restates.issued {req : CreateDecisionRequest} {r r' : DecisionRequest}
    (h : Restates req r) (hissued : r'.issued = r.issued) : Restates req r' := by
  have hfixed : Restates req r.issued :=
    ⟨h.answerField, h.title, h.summary, h.bodyMarkdown, h.fields, h.links, h.imageUrl,
      h.notification, h.callbackUrl, h.options, h.decisionResolution⟩
  rw [← hissued] at hfixed
  exact ⟨hfixed.answerField, hfixed.title, hfixed.summary, hfixed.bodyMarkdown, hfixed.fields,
    hfixed.links, hfixed.imageUrl, hfixed.notification, hfixed.callbackUrl, hfixed.options,
    hfixed.decisionResolution⟩

theorem expiresAt_of_reads {env : Env} {req : CreateDecisionRequest} {creator : Option String}
    {row : RequestRow} {related : RelatedRows} {r : DecisionRequest} {version digest : String}
    (h : ReadsAs P row related r version digest)
    (hrow : row.frozen = (createdRow env req creator).frozen) :
    r.expiresAt = req.expiresAt.map DateTime.truncMillis := by
  have hexpires : row.expiresAt = req.expiresAt.map DateTime.toRfc3339Millis := by
    have hsame := congrArg RequestRow.expiresAt hrow
    exact hsame
  have hreads := h.expiresAt
  rw [hexpires] at hreads
  cases hasked : req.expiresAt with
  | none =>
    rw [hasked] at hreads
    cases hread : r.expiresAt with
    | none => rfl
    | some t =>
      rw [hread] at hreads
      cases hreads
  | some t =>
    rw [hasked] at hreads
    cases hread : r.expiresAt with
    | none =>
      rw [hread] at hreads
      cases hreads
    | some u =>
      rw [hread] at hreads
      have hparse : DateTime.parseFromRfc3339 t.toRfc3339Millis = some u := Option.some.inj hreads
      rw [(DateTime.parse_toRfc3339Millis_eq_some hparse).2, Option.map_some]

/-- Expiry times are read back in whole milliseconds. -/
theorem whole_of_read {s : Db} (hs : WellFormed P s) {id : String} {r : DecisionRequest}
    (h : readRequest P s id = .ok r) : r.expiresAt.map DateTime.truncMillis = r.expiresAt := by
  obtain ⟨row, version, digest, hrow, hreads⟩ := (readRequest_eq_ok P).mp h
  obtain ⟨env, req, creator, -, -, -, -, -, hfrozen, -, -⟩ := (hs.good hrow).1.admitted.accepted
  rw [expiresAt_of_reads hreads hfrozen]
  cases req.expiresAt with
  | none => rfl
  | some t => rw [Option.map_some, Option.map_some, DateTime.truncMillis_truncMillis]

variable (P) in
/-- A create and the request it was answered with. -/
structure Asked (req : CreateDecisionRequest) (origin : Option Origin) (s : Db)
    (r : DecisionRequest) : Prop where
  read : readRequest P s r.id = .ok r
  filed : ∃ row, s.requests.get? r.id = some row ∧ row.channelId = req.channelId ∧
    row.dedupeKey = req.dedupeKey
  named : ∀ requested ∈ req.recipients, requested ≠ [] ∧
    ∀ userId ∈ requested, validateId (Text.trim userId) "user id" = .ok ()
  ordinary : req.answerField = none → r.answerField = none
  value : req.answerField ≠ none → Restates req r ∧
    r.expiresAt = req.expiresAt.map DateTime.truncMillis ∧
      ∀ requested ∈ req.recipients, r.recipients = requested.foldl addRecipient []
  origin : origin ≠ none → s.originOf r.id = origin

section

variable {env : Env} {req : CreateDecisionRequest} {metadata : CreateRequestMetadata}
  {fingerprint : String} {s s' : Db} {created : CreatedDecisionRequest}

theorem recipientsFor_of_requested {requested : List String} (h : requested ∈ req.recipients)
    (s : Db) : recipientsFor req s = requested.foldl addRecipient [] := by
  unfold recipientsFor
  rw [Option.mem_def.mp h]

theorem recipientsFor_of_none (h : req.recipients = none) (s : Db) :
    recipientsFor req s = subscribers req.channelId s := by
  unfold recipientsFor
  rw [h]

/-- A create without an idempotency key, joined or made. -/
theorem asked_of_ends (hs : WellFormed P s) (hr : References s) (hresolvable : Resolvable req s)
    (hfree : boundTo req metadata s = none)
    (h : CreateEnds P env req metadata fingerprint s s' created) :
    Asked P req metadata.origin s' created.request ∧ created.request.id = created.requestId := by
  have hnamed : ∀ requested ∈ req.recipients, requested ≠ [] ∧
      ∀ userId ∈ requested, validateId (Text.trim userId) "user id" = .ok () :=
    fun requested hrequested => ⟨(hresolvable requested hrequested).1,
      fun userId huser => ((hresolvable requested hrequested).2 userId huser).1⟩
  cases h with
  | replayed row hbound _ _ _ _ =>
    rw [hfree] at hbound
    cases hbound
  | joined _ hpending hread hjoin _ _ hstore =>
    have hid : created.request.id = created.requestId := id_of_readRequest P hread
    have hreq : s'.requests = s.requests := by rw [hstore]
    have horigin : s'.originOf created.request.id = s.originOf created.request.id := by rw [hstore]; rfl
    refine ⟨⟨?_, ?_, hnamed, fun hnone => ?_, fun hvalue => ?_, fun hne => ?_⟩, hid⟩
    · rw [hstore, hid]
      exact hread
    · obtain ⟨row, hrow, -, hchannel, hkey, -⟩ := row_of_pendingFor hpending
      exact ⟨row, by rw [hreq, hid, hrow], hchannel, hkey⟩
    · by_contra hne
      have hrestates := (not_differs.mp (hjoin.value (Or.inr hne)).1).1
      exact hne (hrestates.answerField.symm.trans hnone)
    · obtain ⟨hrestates, hexpires, hrecipients⟩ := not_differs.mp (hjoin.value (Or.inl hvalue)).1
      refine ⟨hrestates, ?_, fun requested hrequested => ?_⟩
      · rw [hexpires, whole_of_read hs hread]
      · rw [← hrecipients, recipientsFor_of_requested hrequested]
    · rw [horigin]
      exact hjoin.origin hne
  | made _ _ hid _ hcreated _ =>
    obtain ⟨node, hcreated⟩ := hcreated
    obtain ⟨version, digest, hreads⟩ := hcreated.reads hs.toTables
    have hrid : created.request.id = env.newId 0 := id_of_readRequest P hcreated.read
    have hrestates := restates_of_reads hreads
    refine ⟨⟨?_, ?_, hnamed, fun hnone => ?_, fun _ => ⟨hrestates, ?_, fun requested hrequested => ?_⟩,
      fun _ => ?_⟩, hrid.trans hid.symm⟩
    · rw [hrid]
      exact hcreated.read
    · refine ⟨createdRow env req metadata.createdByIssuerTokenId, ?_, rfl, rfl⟩
      rw [hrid, hcreated.get?, if_pos rfl]
    · exact hrestates.answerField.symm.trans hnone
    · exact expiresAt_of_reads hreads rfl
    · rw [hreads.recipients]
      exact recipientsFor_of_requested hrequested s
    · rw [hrid, originOf_created hr hcreated, if_pos rfl]

end

theorem Asked.run {req : CreateDecisionRequest} {origin : Option Origin} {s : Db}
    {r r' : DecisionRequest} (hs : WellFormed P s) (hr : References s)
    (h : Asked P req origin s r) (calls : List Call)
    (hread' : readRequest P (Server.run P calls s) r.id = .ok r') :
    Asked P req origin (Server.run P calls s) r' := by
  have hissued := issued_run hs calls h.read hread'
  have hid : r'.id = r.id := id_of_readRequest P hread'
  have hfield : r'.answerField = r.answerField := by
    have hsame := congrArg DecisionRequest.answerField hissued
    exact hsame
  have hexpires : r'.expiresAt = r.expiresAt := by
    have hsame := congrArg DecisionRequest.expiresAt hissued
    exact hsame
  have hrecipients : r'.recipients = r.recipients := by
    have hsame := congrArg DecisionRequest.recipients hissued
    exact hsame
  obtain ⟨row', -, -, hrow', -⟩ := (readRequest_eq_ok P).mp hread'
  obtain ⟨row, hrow, hchannel, hkey⟩ := h.filed
  refine ⟨?_, ⟨row', ?_, ?_, ?_⟩, h.named, fun hnone => ?_, fun hvalue => ?_, fun hne => ?_⟩
  · rw [hid]
    exact hread'
  · rw [hid, hrow']
  · have hsame := congrArg RequestRow.channelId (frozen_run calls hs hrow hrow')
    exact Eq.trans hsame hchannel
  · have hsame := congrArg RequestRow.dedupeKey (frozen_run calls hs hrow hrow')
    exact Eq.trans hsame hkey
  · rw [hfield]
    exact h.ordinary hnone
  · obtain ⟨hrestates, hwhole, hnamed⟩ := h.value hvalue
    rw [hexpires, hrecipients]
    exact ⟨hrestates.issued hissued, hwhole, hnamed⟩
  · obtain ⟨o, rfl⟩ := Option.ne_none_iff_exists'.mp hne
    have hstored : s.requests.get? r.id ≠ none := by
      rw [hrow]
      exact Option.some_ne_none row
    have hend : (Server.run P calls s).requests.get? r.id ≠ none := by
      rw [hrow']
      exact Option.some_ne_none row'
    rw [hid]
    exact originOf_run calls hs hr hstored hend (h.origin hne)

/-! ## A create sent again -/

/-- The create as its issuer sent it, to a store that does not fail. -/
structure CreateCall.Again (c c' : CreateCall) : Prop where
  req : c'.req = c.req
  metadata : c'.metadata = c.metadata
  faults : c'.faults = []

/-- The create answers with the stored request, marked as a duplicate, and changes nothing. -/
def ReturnsPending (P : Packages) (c : CreateCall) (s : Db) (id : String) : Prop :=
  ∃ r, readRequest P s id = .ok r ∧ c.exec P s = (.ok ⟨id, true, r⟩, s)

/-- Named recipients are still users, and for a value card storage has not shortened the expiry time,
    the subscriptions still give the stored recipients, and no other origin is bound. -/
structure Repeatable (req : CreateDecisionRequest) (origin : Option Origin) (id : String)
    (s : Db) : Prop where
  users : ∀ requested ∈ req.recipients, ∀ userId ∈ requested, userExists (Text.trim userId) s = true
  expires : req.answerField ≠ none → req.expiresAt.map DateTime.truncMillis = req.expiresAt
  subscribed : req.answerField ≠ none → req.recipients = none →
    subscribers req.channelId s = s.recipientsOf id
  bound : req.answerField ≠ none → s.originOf id = origin

/-- Dedupe keys at the end of a run, and over what follows an accepted create. -/
structure Deduplication (P : Packages) (calls : List Call) : Prop where
  one : OnePending (run P calls Db.empty)
  again : ∀ (c c' : CreateCall) created s' more row, c.req.dedupeKey ≠ none →
    c.exec P (run P calls Db.empty) = (.ok created, s') → c.Again c' →
      (run P more s').requests.get? created.requestId = some row → row.status = .pending →
        (ReturnsPending P c' (run P more s') created.requestId ↔
          c.metadata.idempotencyKey ≠ none ∨
            Repeatable c.req c.metadata.origin created.requestId (run P more s'))

section

variable {c c' : CreateCall} {s : Db} {r : DecisionRequest} {id : String}

theorem resolvable_iff {req : CreateDecisionRequest} {origin : Option Origin}
    (h : Asked P req origin s r) : Resolvable req s ↔
      ∀ requested ∈ req.recipients, ∀ userId ∈ requested, userExists (Text.trim userId) s = true := by
  constructor
  · intro hres requested hrequested userId huser
    exact ((hres requested hrequested).2 userId huser).2
  · intro hexist requested hrequested
    obtain ⟨hne, hids⟩ := h.named requested hrequested
    exact ⟨hne, fun userId huser => ⟨hids userId huser, hexist requested hrequested userId huser⟩⟩

/-- Which of the requests that a create was answered with it may join again. -/
theorem joinable_iff {req : CreateDecisionRequest} {origin : Option Origin}
    (h : Asked P req origin s r) : Joinable req origin (recipientsFor req s) r s ↔
      (req.answerField ≠ none → req.expiresAt.map DateTime.truncMillis = req.expiresAt) ∧
        (req.answerField ≠ none → req.recipients = none →
          subscribers req.channelId s = r.recipients) ∧
            (req.answerField ≠ none → s.originOf r.id = origin) := by
  constructor
  · intro hjoin
    refine ⟨fun hvalue => ?_, fun hvalue hnone => ?_, fun hvalue =>
      (hjoin.value (Or.inl hvalue)).2⟩
    · obtain ⟨-, hexpires, -⟩ := not_differs.mp (hjoin.value (Or.inl hvalue)).1
      rw [← (h.value hvalue).2.1, hexpires]
    · obtain ⟨-, -, hrecipients⟩ := not_differs.mp (hjoin.value (Or.inl hvalue)).1
      rw [← hrecipients, recipientsFor_of_none hnone]
  · rintro ⟨hexpires, hsubscribed, hbound⟩
    refine ⟨fun hvalue => ?_, h.origin⟩
    have hcard : req.answerField ≠ none := by
      rcases hvalue with hvalue | hvalue
      · exact hvalue
      · exact fun hnone => hvalue (h.ordinary hnone)
    obtain ⟨hrestates, hwhole, hnamed⟩ := h.value hcard
    refine ⟨not_differs.mpr ⟨hrestates, ?_, ?_⟩, hbound hcard⟩
    · rw [hwhole, hexpires hcard]
    · cases hrequested : req.recipients with
      | none => rw [recipientsFor_of_none hrequested, hsubscribed hcard hrequested]
      | some requested =>
        rw [recipientsFor_of_requested hrequested, hnamed requested hrequested]

/-- A create without an idempotency key, sent again in a state where its request is pending. -/
theorem returnsPending_iff {fingerprint : String} (hr : References s)
    (hone : OnePending s) (hfaults : c.faults = []) (hkey : c.metadata.idempotencyKey = none)
    (hdedupe : c.req.dedupeKey ≠ none) (hpasses : Passes P c.req c.metadata fingerprint)
    (hasked : Asked P c.req c.metadata.origin s r) {row : RequestRow}
    (hrow : s.requests.get? r.id = some row) (hpending : row.status = .pending) :
    ReturnsPending P c s r.id ↔ Repeatable c.req c.metadata.origin r.id s := by
  have htx := transactional_createRequest P c.env c.req c.metadata
  have hnokey : c.metadata.key = none := by
    unfold CreateRequestMetadata.key
    rw [hkey, Option.map_none]
  have hfree : boundTo c.req c.metadata s = none := by
    unfold boundTo
    rw [hnokey, Option.bind_none]
  obtain ⟨row', hrow', hchannel, hdedupeRow⟩ := hasked.filed
  rw [hrow] at hrow'
  cases hrow'
  have hmem := Table.mem_of_get? hrow
  have hid : row.id = r.id := Table.key_of_get? hrow
  have hfound : pendingFor c.req s = some r.id :=
    hid ▸ pendingFor_of_row hone hmem hpending hchannel hdedupeRow hdedupe
  have hrecipients : r.recipients = s.recipientsOf r.id := by
    obtain ⟨_, version, digest, -, hreads⟩ := (readRequest_eq_ok P).mp hasked.read
    rw [hreads.recipients, recipients_relatedOf]
  have heval : Prog.eval databaseError (createRequest P c.env c.req c.metadata) s =
      .ok (⟨r.id, true, r⟩, s) ↔
        Resolvable c.req s ∧ Joinable c.req c.metadata.origin (recipientsFor c.req s) r s := by
    rw [eval_createRequest hpasses, hfree, eval_createInChannel_eq_ok]
    constructor
    · rintro ⟨-, hresolvable, ⟨id, request, hfound', hread, hjoined⟩ | ⟨hnone, -⟩⟩
      · rw [hfound] at hfound'
        cases hfound'
        have hsame := hasked.read.symm.trans hread
        cases hsame
        exact ⟨hresolvable, (eval_joinPending_eq_ok.mp hjoined).1⟩
      · rw [hfound] at hnone
        cases hnone
    · rintro ⟨hresolvable, hjoin⟩
      have hexists : s.channels.get? c.req.channelId ≠ none := by
        rw [← hchannel]
        exact hr.channels row hmem
      refine ⟨hexists, hresolvable, Or.inl ⟨r.id, r, hfound, hasked.read, ?_⟩⟩
      refine eval_joinPending_eq_ok.mpr ⟨hjoin, ?_, rfl⟩
      unfold bindIdempotency bindingOf
      rw [hnokey]
      rfl
  constructor
  · rintro ⟨r', hread, hexec⟩
    have hsame := hasked.read.symm.trans hread
    cases hsame
    obtain ⟨hresolvable, hjoin⟩ := heval.mp (Prog.exec_ok htx hexec)
    obtain ⟨hexpires, hsubscribed, hbound⟩ := (joinable_iff hasked).mp hjoin
    rw [hrecipients] at hsubscribed
    exact ⟨(resolvable_iff hasked).mp hresolvable, hexpires, hsubscribed, hbound⟩
  · rintro ⟨husers, hexpires, hsubscribed, hbound⟩
    rw [← hrecipients] at hsubscribed
    refine ⟨r, hasked.read, ?_⟩
    unfold CreateCall.exec
    rw [hfaults]
    exact Prog.exec_nil_of_eval htx (heval.mpr
      ⟨(resolvable_iff hasked).mpr husers, (joinable_iff hasked).mpr ⟨hexpires, hsubscribed, hbound⟩⟩)

end

/-- An accepted create that names an idempotency key is replayed. -/
theorem returnsPending_of_accepted {calls : List Call} {c c' : CreateCall}
    {k : String × String × String} {id : String} (haccepted : Accepted P calls c k id)
    (hstored : (run P calls Db.empty).requests.get? id ≠ none) (hagain : c.Again c') :
    ReturnsPending P c' (run P calls Db.empty) id := by
  obtain ⟨hreq, hmetadata, hfaults⟩ := hagain
  obtain ⟨row, hrow⟩ := Option.ne_none_iff_exists'.mp hstored
  obtain ⟨r, hread⟩ := (legible_run_empty (P := P) calls).reads id row hrow
  obtain ⟨fingerprint, hpasses, hbound⟩ := haccepted.bound hstored
  have hpasses' : Passes P c'.req c'.metadata fingerprint := by
    rw [hreq, hmetadata]
    exact hpasses
  have hslot : c'.slot = c.slot := by
    unfold CreateCall.slot
    rw [hreq, hmetadata]
  obtain ⟨r', hread', hstore, -, hok⟩ :=
    returns_of_bound hpasses' (hslot.trans haccepted.slot) hbound hread
  exact ⟨r', hread', Prod.ext (hok hfaults) hstore⟩

theorem slot_of_key {c : CreateCall} {key : String} (h : c.metadata.idempotencyKey = some key) :
    c.slot = some (c.metadata.scope, c.req.channelId, Text.trim key) := by
  unfold CreateCall.slot CreateRequestMetadata.key
  rw [h, Option.map_some, Option.map_some]

theorem deduplication (calls : List Call) : Deduplication P calls where
  one := onePending_run_empty calls
  again c c' created s' more row hdedupe hexec hagain hrow hpending := by
    have hs := wellFormed_run_empty (P := P) calls
    have hr := references_run_empty (P := P) calls
    rcases c.exec_cases (P := P) (run P calls Db.empty) with
      ⟨e, he⟩ | ⟨created', s₁, fingerprint, hexec', hpasses, heval, hends⟩
    · rw [he] at hexec
      cases hexec
    rw [hexec'] at hexec
    cases hexec
    have hafter : run P (calls ++ c.toCall :: more) Db.empty = run P more s' := by
      rw [run_append, run_cons, c.after_toCall, hexec']
    have hstored : (run P (calls ++ c.toCall :: more) Db.empty).requests.get? created.requestId ≠
        none := by
      rw [hafter, hrow]
      exact Option.some_ne_none row
    obtain ⟨hreq, hmetadata, hfaults⟩ := id hagain
    have hpasses' : Passes P c'.req c'.metadata fingerprint := by
      rw [hreq, hmetadata]
      exact hpasses
    obtain ⟨r, hread⟩ := (legible_run_empty (P := P) (calls ++ c.toCall :: more)).reads
      created.requestId row (by rw [hafter, hrow])
    rw [hafter] at hread
    cases hkey : c.metadata.idempotencyKey with
    | some key =>
      have haccepted : Accepted P (calls ++ c.toCall :: more) c
          (c.metadata.scope, c.req.channelId, Text.trim key) created.requestId := by
        refine ⟨slot_of_key hkey, calls, more, created, rfl, ?_, rfl⟩
        rw [hexec']
      have hreturns := returnsPending_of_accepted haccepted hstored hagain
      rw [hafter] at hreturns
      exact iff_of_true hreturns (Or.inl (Option.some_ne_none key))
    | none =>
      have hs' : WellFormed P s' := (moves_createRequest hs heval).wellFormed hs
      have hfree : boundTo c.req c.metadata (run P calls Db.empty) = none := by
        unfold boundTo CreateRequestMetadata.key
        rw [hkey, Option.map_none, Option.bind_none]
      have hresolvable : Resolvable c.req (run P calls Db.empty) := by
        rw [eval_createRequest hpasses, hfree] at heval
        exact (eval_createInChannel_eq_ok.mp heval).2.1
      obtain ⟨hasked, hid⟩ := asked_of_ends hs hr hresolvable hfree hends
      have hread₁ : readRequest P (run P more s') created.request.id = .ok r := by
        rw [hid]
        exact hread
      have hasked' := hasked.run hs' (references_create hr heval) more hread₁
      have hrid : r.id = created.requestId := id_of_readRequest P hread
      have hone := onePending_run_empty (P := P) (calls ++ c.toCall :: more)
      have hr' := references_run_empty (P := P) (calls ++ c.toCall :: more)
      rw [hafter] at hone hr'
      have hiff := returnsPending_iff (c := c') hr' hone hfaults (by rw [hmetadata, hkey])
        (by rw [hreq]; exact hdedupe) hpasses' (by rw [hreq, hmetadata]; exact hasked')
        (by rw [hrid]; exact hrow) hpending
      rw [hrid, hreq, hmetadata] at hiff
      rw [hiff]
      exact (or_iff_right (not_not.mpr rfl)).symm

/-! ## A value card that is refused -/

theorem eval_of_differs {env : Env} {req : CreateDecisionRequest} {metadata : CreateRequestMetadata}
    {fingerprint id : String} {s : Db} {r : DecisionRequest}
    (hpasses : Passes P req metadata fingerprint) (hfree : boundTo req metadata s = none)
    (hchannel : s.channels.get? req.channelId ≠ none) (hresolvable : Resolvable req s)
    (hfound : pendingFor req s = some id) (hread : readRequest P s id = .ok r)
    (hvalue : req.answerField ≠ none) (hdiffers : differs req (recipientsFor req s) r) :
    Prog.eval databaseError (createRequest P env req metadata) s =
      .error (.conflict "pending value request has different content") := by
  have hrecipients : Prog.eval databaseError
      (resolveRequestRecipients req.channelId req.recipients) s = .ok (recipientsFor req s, s) :=
    eval_resolveRequestRecipients_eq_ok.mpr ⟨rfl, hresolvable⟩
  have hpending : Prog.eval databaseError
      (findPendingRequestByDedupeKey P req.channelId req.dedupeKey) s = .ok (some r, s) :=
    eval_findPending_eq_ok.mpr ⟨rfl, Or.inr ⟨id, r, hfound, hread, rfl⟩⟩
  rw [eval_createRequest hpasses, hfree]
  simp only [createInChannel, Prog.eval_bind, Prog.eval_query, refuseIf_neg hchannel, Prog.lift_ok,
    Prog.eval_ret, hrecipients, hpending, joinPending, checkValueJoin, if_pos (Or.inl hvalue),
    refuseIf_pos hdiffers]
  rfl

/-- A value card with an expiry time between two milliseconds. -/
def valueCreate : CreateCall where
  env := sampleEnv
  req :=
    { sampleRequest with
      answerField := some (.number "Replicas" (.number "3"))
      dedupeKey := some "scale-web"
      expiresAt := some ⟨2026, 10, 1, 12, 30, 0, 500, by decide⟩
      options := [⟨"approve", "Approve", .approve, "default", false, none, false, false⟩] }
  metadata := ⟨none, none, none⟩
  faults := []

theorem valueCreate_passes : ∃ fingerprint,
    Passes samplePackages valueCreate.req valueCreate.metadata fingerprint :=
  ⟨_, by rfl, by rfl, by rfl, requestFingerprint_none.mpr rfl⟩

theorem valueCreate_made : ∃ created s' fingerprint,
    valueCreate.exec samplePackages (opened sampleEnv) = (.ok created, s') ∧
      Passes samplePackages valueCreate.req valueCreate.metadata fingerprint ∧
      created.requestId = sampleEnv.newId 0 ∧ ∃ node, Created samplePackages sampleEnv valueCreate.req
        valueCreate.metadata (opened sampleEnv) s' created.request
        (recipientsFor valueCreate.req (opened sampleEnv)) node := by
  obtain ⟨fingerprint, hpasses⟩ := valueCreate_passes
  have hexpires : ∀ t ∈ valueCreate.req.expiresAt, t.FourDigitYear := by
    intro t ht
    cases ht
    decide
  obtain ⟨created, s', node, hexec, hid, hcreated⟩ := exists_created (tables_opened sampleEnv)
    (accepting_opened sampleEnv sampleEnv rfl rfl rfl (by decide) hexpires) hpasses
  exact ⟨created, s', fingerprint, hexec, hpasses, hid, node, hcreated⟩

/-- The same card again, while it is pending, is refused as different content. -/
theorem value_create_again_conflicts : ∃ created s' row,
    valueCreate.exec samplePackages (run samplePackages [open_ sampleEnv] Db.empty) =
        (.ok created, s') ∧
      s'.requests.get? created.requestId = some row ∧ row.status = .pending ∧
      valueCreate.req.dedupeKey ≠ none ∧ valueCreate.Again valueCreate ∧
      ¬ ReturnsPending samplePackages valueCreate s' created.requestId ∧
      (valueCreate.exec samplePackages s').1 =
        .error (.conflict "pending value request has different content") := by
  obtain ⟨created, s', fingerprint, hexec, hpasses, hid, node, hcreated⟩ := valueCreate_made
  have htables : Tables samplePackages (opened sampleEnv) := tables_opened sampleEnv
  have hrow : s'.requests.get? created.requestId =
      some (createdRow sampleEnv valueCreate.req none) := by
    rw [hid, hcreated.get?, if_pos rfl]
    rfl
  have hone : OnePending s' := onePending_created
    (onePending_run_empty (P := samplePackages) [open_ sampleEnv]) rfl hcreated
  have hfound : pendingFor valueCreate.req s' = some (sampleEnv.newId 0) :=
    pendingFor_of_row hone (Table.mem_of_get? hrow) rfl rfl rfl (Option.some_ne_none _)
  have hchannel : s'.channels.get? valueCreate.req.channelId ≠ none := by
    rw [hcreated.rest]
    exact Option.some_ne_none _
  have hresolvable : Resolvable valueCreate.req s' :=
    fun requested hrequested => absurd hrequested (Option.not_mem_none requested)
  have hdiffers : differs valueCreate.req (recipientsFor valueCreate.req s') created.request := by
    by_contra hsame
    obtain ⟨version, digest, hreads⟩ := hcreated.reads htables
    have hexpires := (not_differs.mp hsame).2.1
    rw [expiresAt_of_reads hreads rfl] at hexpires
    exact absurd hexpires (by decide)
  have heval := @eval_of_differs samplePackages sampleEnv _ _ _ _ _ _ hpasses rfl hchannel hresolvable hfound
    hcreated.read (Option.some_ne_none _) hdiffers
  have hagain : valueCreate.exec samplePackages s' =
      (.error (.conflict "pending value request has different content"), s') :=
    Prog.exec_nil_of_eval_error (transactional_createRequest samplePackages sampleEnv
      valueCreate.req valueCreate.metadata) heval
  refine ⟨created, s', _, hexec, hrow, rfl, Option.some_ne_none _, ⟨rfl, rfl, rfl⟩, ?_, ?_⟩
  · rintro ⟨r, -, hok⟩
    rw [hagain] at hok
    cases hok
  · rw [hagain]

end Nod.Server
