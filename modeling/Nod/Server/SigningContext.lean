import Nod.Server.Listing

/-
  The signing context of a request. It is not stored: each read computes it again from the row,
  its recipients and its options.
  Proved: reads of equal content agree on it (`signing_congr`), content stands while a request is
  stored (`contentOf_run`), and `signing_immutable`: every later read, whatever runs between its
  statements, gives the context of the create response.
-/

namespace Nod.Server

open Lib Nod.Proto

variable (P : Packages) (C : CursorPackages)

/-! ## Single reads -/

/-- Each statement of this read runs on its own. -/
def getRequest (requestId : String) : Sql DecisionRequest := (getRequestOn P requestId).autocommit

def requestForUser (requestId userId : String) : Sql DecisionRequest := do
  let request ← getRequest P requestId
  pure (projectRequestForUser request userId)

/-- The request as its create fixed it. -/
def DecisionRequest.issued (r : DecisionRequest) : DecisionRequest :=
  { r with
    status := .pending, updatedAt := r.createdAt, resolvedAt := none, decision := none
    userDecisions := [] }

/-! ## What the context is computed from -/

section

variable {P}

theorem answerField_toWire (r : DecisionRequest) :
    (r.toWire P.toExternals).answerField = r.answerField := by
  unfold DecisionRequest.toWire
  split <;> rfl

theorem contentMembers_toWire (r : DecisionRequest) (commitment : String) :
    contentMembers (r.toWire P.toExternals) commitment =
      contentMembers r.toRequest commitment := by
  unfold DecisionRequest.toWire
  split <;> rfl

/-- The digest of a card is one of its content members and its answer field. -/
theorem issuedDigest_congr {w w' : Request} {commitment : String}
    (hfield : w'.answerField = w.answerField)
    (hmembers : contentMembers w' commitment = contentMembers w commitment) :
    issuedDigest P w' commitment = issuedDigest P w commitment := by
  unfold issuedDigest
  rw [hfield]
  cases w.answerField with
  | none =>
    unfold requestDigestV1 structuredRequestDigest structuredPreimage
    rw [hmembers]
  | some field =>
    unfold valueRequestDigest valueRequestDigestWithVersion valueContent
    rw [hmembers]

/-- Two rows that agree on what a create fixes. -/
structure SameContent (row row' : RequestRow) (related related' : RelatedRows) : Prop where
  row : row'.frozen = row.frozen
  recipients : related'.recipients = related.recipients
  options : related'.options = related.options

section

variable {row row' : RequestRow} {related related' : RelatedRows} {r : DecisionRequest}
  {version digest : String}

theorem SameContent.recipientSalt (h : SameContent row row' related related') :
    row'.recipientSalt = row.recipientSalt := by
  have hsalt := congrArg RequestRow.recipientSalt h.row
  exact hsalt

theorem SameContent.expiresAt (h : SameContent row row' related related') :
    row'.expiresAt = row.expiresAt := by
  have hexpires := congrArg RequestRow.expiresAt h.row
  exact hexpires

theorem SameContent.createdAt (h : SameContent row row' related related') :
    row'.createdAt = row.createdAt := by
  have hcreated := congrArg RequestRow.createdAt h.row
  exact hcreated

theorem issuedDigest_of_sameContent (h : SameContent row row' related related')
    {expiresAt : Option DateTime} {createdAt updatedAt updatedAt' : DateTime}
    {resolvedAt resolvedAt' : Option DateTime} (commitment : String) :
    issuedDigest P ((unsignedRequest row' related' expiresAt createdAt updatedAt' resolvedAt').toWire
        P.toExternals) commitment =
      issuedDigest P ((unsignedRequest row related expiresAt createdAt updatedAt resolvedAt).toWire
        P.toExternals) commitment := by
  have hface : (unsignedRequest row' related' expiresAt createdAt updatedAt' resolvedAt').face =
      { (unsignedRequest row related expiresAt createdAt updatedAt resolvedAt).face with
        updatedAt := updatedAt' } := by
    cases row
    cases row'
    cases h.row
    unfold unsignedRequest DecisionRequest.face
    rw [h.options]
  apply issuedDigest_congr
  · rw [answerField_toWire, answerField_toWire]
    have hfield := congrArg DecisionRequest.answerField hface
    exact hfield
  · rw [contentMembers_toWire, contentMembers_toWire]
    have hmembers :=
      congrArg (fun q : DecisionRequest => contentMembers q.toRequest commitment) hface
    exact hmembers

theorem commitment_of_sameContent (h : SameContent row row' related related') :
    recipientsCommitment P.toExternals related'.recipients row'.recipientSalt =
      recipientsCommitment P.toExternals related.recipients row.recipientSalt := by
  rw [h.recipients, h.recipientSalt]

theorem expiresAt_congr {r' : DecisionRequest} {version' digest' : String}
    (hread : ReadsAs P row related r version digest)
    (hread' : ReadsAs P row' related' r' version' digest')
    (h : SameContent row row' related related') : r'.expiresAt = r.expiresAt := by
  have htimes := hread'.expiresAt
  rw [h.expiresAt, hread.expiresAt] at htimes
  exact (Option.map_injective (Option.some_injective _) htimes).symm

theorem createdAt_congr {r' : DecisionRequest} {version' digest' : String}
    (hread : ReadsAs P row related r version digest)
    (hread' : ReadsAs P row' related' r' version' digest')
    (h : SameContent row row' related related') : r'.createdAt = r.createdAt := by
  have htimes := hread'.createdAt
  rw [h.createdAt, hread.createdAt] at htimes
  exact (Option.some.inj htimes).symm

/-- Reads of equal content compute equal contexts. -/
theorem signing_congr {r' : DecisionRequest} {version' digest' : String}
    (hread : ReadsAs P row related r version digest)
    (hread' : ReadsAs P row' related' r' version' digest')
    (h : SameContent row row' related related') : r'.signing = r.signing := by
  have hexpires := expiresAt_congr hread hread' h
  have hcreated := createdAt_congr hread hread' h
  have hissued := hread'.issued
  rw [hexpires, hcreated, issuedDigest_of_sameContent h, commitment_of_sameContent h,
    hread.issued] at hissued
  have hpair := Prod.mk.inj (Except.ok.inj hissued)
  rw [hread.request, hread'.request, commitment_of_sameContent h, hpair.1, hpair.2]

/-- Reads of equal content agree on all that a create fixes. -/
theorem issued_congr {r' : DecisionRequest} {version' digest' : String}
    (hread : ReadsAs P row related r version digest)
    (hread' : ReadsAs P row' related' r' version' digest')
    (h : SameContent row row' related related') : r'.issued = r.issued := by
  have hexpires := expiresAt_congr hread hread' h
  have hcreated := createdAt_congr hread hread' h
  have hsigning := signing_congr hread hread' h
  have hfixed : ∀ {row : RequestRow} {related : RelatedRows} {r : DecisionRequest}
      {version digest : String}, ReadsAs P row related r version digest → r.issued =
        { unsignedRequest row.frozen ⟨related.recipients, [], related.options⟩ r.expiresAt r.createdAt
            r.createdAt none with signing := r.signing } := by
    intro row related r version digest hread
    have hrequest := congrArg DecisionRequest.issued hread.request
    have hsigned := congrArg DecisionRequest.signing hread.request
    rw [hsigned]
    exact hrequest
  rw [hfixed hread, hfixed hread', h.row, h.recipients, h.options, hexpires, hcreated, hsigning]

/-- Content that has been read once reads again, if the times still parse. -/
theorem reads_of_sameContent {updatedAt : DateTime} {resolvedAt : Option DateTime}
    (hread : ReadsAs P row related r version digest) (h : SameContent row row' related related')
    (hupdated : DateTime.parseFromRfc3339 row'.updatedAt = some updatedAt)
    (hresolved : row'.resolvedAt.map DateTime.parseFromRfc3339 = resolvedAt.map some) :
    ∃ r', ReadsAs P row' related' r' version digest := by
  refine ⟨{ unsignedRequest row' related' r.expiresAt r.createdAt updatedAt resolvedAt with
    signing := some ⟨version,
      recipientsCommitment P.toExternals related'.recipients row'.recipientSalt, digest⟩ },
    ?_, ?_, hupdated, hresolved, ?_, rfl⟩
  · rw [h.expiresAt]
    exact hread.expiresAt
  · rw [h.createdAt]
    exact hread.createdAt
  · change issuedDigest P ((unsignedRequest row' related' r.expiresAt r.createdAt updatedAt
      resolvedAt).toWire P.toExternals) _ = _
    rw [issuedDigest_of_sameContent h, commitment_of_sameContent h]
    exact hread.issued

end

/-! ## Content stands -/

/-- A row and its related rows are of one content. -/
structure OfContent (c : Content) (row : RequestRow) (related : RelatedRows) : Prop where
  row : row.frozen = c.row
  recipients : related.recipients = c.recipients
  options : related.options = c.options

theorem OfContent.same {c : Content} {row row' : RequestRow} {related related' : RelatedRows}
    (h : OfContent c row related) (h' : OfContent c row' related') :
    SameContent row row' related related' :=
  ⟨h'.row.trans h.row.symm, h'.recipients.trans h.recipients.symm, h'.options.trans h.options.symm⟩

/-- A request is stored with this content. -/
def Carries (s : Db) (id : String) (c : Content) : Prop :=
  ∃ row, s.requests.get? id = some row ∧ s.contentOf row = c

theorem Carries.of {s : Db} {id : String} {c : Content} {row : RequestRow} (h : Carries s id c)
    (hrow : s.requests.get? id = some row) :
    row.frozen = c.row ∧ s.recipientsOf id = c.recipients ∧ s.optionsOf id = c.options := by
  obtain ⟨row', hrow', rfl⟩ := h
  rw [hrow] at hrow'
  cases hrow'
  have hid : row.id = id := Table.key_of_get? hrow
  unfold Db.contentOf
  rw [hid]
  exact ⟨rfl, rfl, rfl⟩

theorem carries_run {s : Db} (hs : WellFormed P s) {id : String} {c : Content}
    (h : Carries s id c) (calls : List Call) (hstored : (run P calls s).requests.get? id ≠ none) :
    Carries (run P calls s) id c := by
  obtain ⟨row, hrow, rfl⟩ := h
  obtain ⟨row', hrow'⟩ := Option.ne_none_iff_exists'.mp hstored
  have hballot := ballot_of_get? hrow'
  rcases Poll.frozen_of_run (rules P) (hs.polls id) (ballot_of_get? hrow) (pollRun_run calls hs id)
    with ⟨hnone, -, -⟩ | ⟨b, hb, hcontent, -⟩
  · rw [hnone] at hballot
    cases hballot
  · rw [hb] at hballot
    cases hballot
    exact ⟨row', hrow', hcontent⟩

theorem Carries.ofContent {s : Db} {id : String} {c : Content} {row : RequestRow}
    (h : Carries s id c) (hrow : s.requests.get? id = some row) :
    OfContent c row (s.relatedOf id) := by
  obtain ⟨hfrozen, hrecipients, hoptions⟩ := h.of hrow
  exact ⟨hfrozen, (recipients_relatedOf s id).trans hrecipients,
    (options_relatedOf s id).trans hoptions⟩

/-- A request that is read again after some calls is as its create fixed it. -/
theorem issued_run {s : Db} (hs : WellFormed P s) (calls : List Call) {id : String}
    {r r' : DecisionRequest} (hread : readRequest P s id = .ok r)
    (hread' : readRequest P (run P calls s) id = .ok r') : r'.issued = r.issued := by
  obtain ⟨row, version, digest, hrow, hreads⟩ := (readRequest_eq_ok P).mp hread
  obtain ⟨row', version', digest', hrow', hreads'⟩ := (readRequest_eq_ok P).mp hread'
  have hc : Carries s id (s.contentOf row) := ⟨row, hrow, rfl⟩
  have hstored : (run P calls s).requests.get? id ≠ none := by
    rw [hrow']
    exact Option.some_ne_none row'
  have hc' := carries_run hs hc calls hstored
  exact issued_congr hreads hreads' ((hc.ofContent hrow).same (hc'.ofContent hrow'))

/-! ## Reads spread over a run -/

variable (P) in
/-- States that the server goes through after `s`, with a request stored in all of them. -/
structure Timeline (s : Db) (id : String) (sees : ℕ → Db) : Prop where
  start : ∃ calls, sees 0 = run P calls s
  next : ∀ k, ∃ calls, sees (k + 1) = run P calls (sees k)
  stored : ∀ k, (sees k).requests.get? id ≠ none

section

variable {s : Db} {id : String} {sees : ℕ → Db}

theorem Timeline.reached (h : Timeline P s id sees) (k : ℕ) : ∃ calls, sees k = run P calls s := by
  induction k with
  | zero => exact h.start
  | succ k ih =>
    obtain ⟨calls, hcalls⟩ := ih
    obtain ⟨more, hmore⟩ := h.next k
    refine ⟨calls ++ more, ?_⟩
    rw [hmore, hcalls, run_append]

theorem Timeline.tail (h : Timeline P s id sees) : Timeline P s id fun n => sees (n + 1) :=
  ⟨h.reached 1, fun k => h.next (k + 1), fun k => h.stored (k + 1)⟩

theorem Timeline.carries (h : Timeline P s id sees) (hs : WellFormed P s) {c : Content}
    (hc : Carries s id c) (k : ℕ) : Carries (sees k) id c := by
  obtain ⟨calls, hcalls⟩ := h.reached k
  have hstored := h.stored k
  rw [hcalls] at hstored ⊢
  exact carries_run hs hc calls hstored

end

/-- Rows selected for several requests hold what the tables hold for one of them. -/
theorem recipients_relatedRows (db : Db) {ids : List String} {id : String} (hid : id ∈ ids)
    (decisions : List UserDecisionRow) (options : List OptionRow) :
    (relatedRows (selectRecipients ids db) decisions options id).recipients =
      db.recipientsOf id := by
  rw [← recipients_relatedOf, ← relatedRows_of_mem db hid]
  rfl

theorem options_relatedRows (db : Db) {ids : List String} {id : String} (hid : id ∈ ids)
    (recipients : List RecipientRow) (decisions : List UserDecisionRow) :
    (relatedRows recipients decisions (selectOptions ids db) id).options = db.optionsOf id := by
  rw [← options_relatedOf, ← relatedRows_of_mem db hid]
  rfl

end

/-- What a batch read returns when other calls run between its statements. -/
theorem mem_of_spread_rowsToRequests {rows : List RequestRow} {sees rest : ℕ → Db}
    {rs : List DecisionRequest}
    (h : Prog.eval databaseError (rowsToRequests P rows).spread sees = .ok (rs, rest))
    {r : DecisionRequest} (hr : r ∈ rs) :
    ∃ row ∈ rows, requestFromRows P row (relatedRows
      (selectRecipients (rows.map RequestRow.id) (sees 0))
      (selectUserDecisions (rows.map RequestRow.id) (sees 1))
      (selectOptions (rows.map RequestRow.id) (sees 2)) row.id) = .ok r := by
  simp only [rowsToRequests, Prog.spread_bind, Prog.eval_bind, Prog.eval_spread_query,
    Prog.spread_lift, Prog.eval_lift_eq_ok] at h
  exact mem_of_mapM_eq_ok h.1 hr

/-- The context that reads of a content compute. -/
def ContextOf (c : Content) (context : RequestSigningContext) : Prop :=
  ∃ row related r version digest, OfContent c row related ∧
    ReadsAs P row related r version digest ∧ r.signing = some context

section

variable {P} {C} {s : Db} {id : String} {sees : ℕ → Db} {c : Content}
  {context : RequestSigningContext}

theorem signing_of_contextOf (h : ContextOf P c context) {row : RequestRow}
    {related : RelatedRows} {r : DecisionRequest} (hof : OfContent c row related)
    (hread : requestFromRows P row related = .ok r) : r.signing = some context := by
  obtain ⟨row₀, related₀, r₀, version₀, digest₀, hof₀, hread₀, hcontext⟩ := h
  obtain ⟨version, digest, hreads⟩ := (requestFromRows_eq_ok P).mp hread
  rw [signing_congr hread₀ hreads (hof₀.same hof), hcontext]

/-- A request of a batch, its rows read from later states than its row. -/
theorem signing_of_batch (hs : WellFormed P s) (h : Timeline P s id sees) (hc : Carries s id c)
    (hcontext : ContextOf P c context) {rows : List RequestRow}
    (hrows : ∀ row ∈ rows, row ∈ (sees 0).requests.rows) {rs : List DecisionRequest}
    {rest : ℕ → Db}
    (heval : Prog.eval databaseError (rowsToRequests P rows).spread (fun n => sees (n + 1)) =
      .ok (rs, rest))
    {r : DecisionRequest} (hr : r ∈ rs) (hid : r.id = id) : r.signing = some context := by
  obtain ⟨row, hrow, hread⟩ := mem_of_spread_rowsToRequests P heval hr
  have hmem : row.id ∈ rows.map RequestRow.id := List.mem_map_of_mem hrow
  have hrowid : row.id = id := by
    obtain ⟨version, digest, hreads⟩ := (requestFromRows_eq_ok P).mp hread
    rw [← hreads.id, hid]
  have hget : (sees 0).requests.get? id = some row :=
    hrowid ▸ Table.get?_of_mem (hrows row hrow)
  refine signing_of_contextOf hcontext ⟨((h.carries hs hc 0).of hget).1, ?_, ?_⟩ hread
  · obtain ⟨row₁, hrow₁⟩ := Option.ne_none_iff_exists'.mp (h.stored 1)
    rw [recipients_relatedRows _ hmem, hrowid]
    exact ((h.carries hs hc 1).of hrow₁).2.1
  · obtain ⟨row₃, hrow₃⟩ := Option.ne_none_iff_exists'.mp (h.stored 3)
    rw [options_relatedRows _ hmem, hrowid]
    exact ((h.carries hs hc 3).of hrow₃).2.2

theorem signing_projectRequestForUser (r : DecisionRequest) (userId : String) :
    (projectRequestForUser r userId).signing = r.signing := by
  rw [projectRequestForUser_eq]

theorem id_projectRequestForUser (r : DecisionRequest) (userId : String) :
    (projectRequestForUser r userId).id = r.id := by
  rw [projectRequestForUser_eq]

theorem mem_pageRows {userId cutoff : String} {query : ListRequestsForDevice}
    {cursor : Option (String × String)} {limit : Nat} {db : Db} {row : Bool × RequestRow}
    (h : row ∈ pageRows userId cutoff query cursor limit db) : row.2 ∈ db.requests.rows := by
  unfold pageRows at h
  rcases List.mem_append.mp h with h | h
  · obtain ⟨r, hr, rfl⟩ := List.mem_map.mp h
    exact List.mem_of_mem_filter (List.mem_of_mem_filter (List.mem_mergeSort.mp hr))
  · obtain ⟨r, hr, rfl⟩ := List.mem_map.mp h
    have hsorted := List.mem_mergeSort.mp (List.mem_of_mem_take hr)
    exact List.mem_of_mem_filter (List.mem_of_mem_filter hsorted)

theorem mem_cutPage {handledLimit : Nat} {rows : List (Bool × RequestRow)}
    {row : Bool × RequestRow} (h : row ∈ (cutPage C handledLimit rows).1) : row ∈ rows := by
  unfold cutPage at h
  split at h
  · exact List.dropLast_subset _ h
  · exact h

theorem signing_of_page (hs : WellFormed P s) (h : Timeline P s id sees) (hc : Carries s id c)
    (hcontext : ContextOf P c context) {env : Env} {query : ListRequestsForDevice}
    {page : RequestPage} {rest : ℕ → Db}
    (heval : Prog.eval databaseError (listRequestsForDevice P C env query).spread sees =
      .ok (page, rest)) {r : DecisionRequest} (hr : r ∈ page.requests) (hid : r.id = id) :
    r.signing = some context := by
  simp only [listRequestsForDevice, getDevice, Prog.spread_bind, Prog.eval_bind_eq_ok,
    Prog.eval_spread_poolRead, Prog.eval_spread_query, Prog.spread_lift, Prog.eval_lift_eq_ok,
    Prog.spread_pure, Prog.eval_pure, Prog.spread_beginTx, Prog.eval_beginTx, Prog.spread_commitTx,
    Prog.eval_commitTx, Except.ok.injEq, Prod.mk.injEq] at heval
  obtain ⟨device, _, ⟨_, _, ⟨-, rfl⟩, _, _, ⟨-, rfl⟩, -, rfl⟩, cursor, _, ⟨-, rfl⟩, _, _, ⟨-, rfl⟩,
    rows, _, ⟨rfl, rfl⟩, requests, _, hbatch, _, _, ⟨-, rfl⟩, rfl, rfl⟩ := heval
  obtain ⟨q, hq, rfl⟩ := List.mem_map.mp hr
  rw [signing_projectRequestForUser]
  rw [id_projectRequestForUser] at hid
  refine signing_of_batch hs h.tail hc hcontext (fun row hrow => ?_) hbatch hq hid
  obtain ⟨marked, hmarked, rfl⟩ := List.mem_map.mp hrow
  exact mem_pageRows (mem_cutPage hmarked)

theorem signing_of_recent (hs : WellFormed P s) (h : Timeline P s id sees) (hc : Carries s id c)
    (hcontext : ContextOf P c context) {rs : List DecisionRequest} {rest : ℕ → Db}
    (heval : Prog.eval databaseError (recentRequests P).spread sees = .ok (rs, rest))
    {r : DecisionRequest} (hr : r ∈ rs) (hid : r.id = id) : r.signing = some context := by
  simp only [recentRequests, Prog.spread_bind, Prog.eval_bind_eq_ok, Prog.eval_spread_query,
    Prog.spread_pure, Prog.eval_pure, Prog.spread_beginTx, Prog.eval_beginTx, Prog.spread_commitTx,
    Prog.eval_commitTx, Except.ok.injEq, Prod.mk.injEq] at heval
  obtain ⟨_, _, ⟨-, rfl⟩, rows, _, ⟨rfl, rfl⟩, requests, _, hbatch, _, _, ⟨-, rfl⟩, rfl, rfl⟩ := heval
  refine signing_of_batch hs h hc hcontext (fun row hrow => ?_) hbatch hr hid
  exact List.mem_mergeSort.mp (List.mem_of_mem_take hrow)

/-- A single read finds the request, and computes its context, from statements of its own. -/
theorem eval_spread_getRequest (hs : WellFormed P s) (h : Timeline P s id sees)
    (hl : Legible P s) (hc : Carries s id c) (hcontext : ContextOf P c context) :
    ∃ r, Prog.eval databaseError (getRequest P id).spread sees = .ok (r, fun n => sees (n + 4)) ∧
      r.id = id ∧ r.signing = some context := by
  obtain ⟨row, hrow⟩ := Option.ne_none_iff_exists'.mp (h.stored 0)
  obtain ⟨row₁, hrow₁⟩ := Option.ne_none_iff_exists'.mp (h.stored 1)
  obtain ⟨row₃, hrow₃⟩ := Option.ne_none_iff_exists'.mp (h.stored 3)
  have hrowid : row.id = id := Table.key_of_get? hrow
  have hlegible : Legible P (sees 0) := by
    obtain ⟨calls, hcalls⟩ := h.reached 0
    rw [hcalls]
    exact legible_run calls hs hl
  have hof : OfContent c row (relatedRows (selectRecipients [row.id] (sees 1))
      (selectUserDecisions [row.id] (sees 2)) (selectOptions [row.id] (sees 3)) row.id) := by
    refine ⟨((h.carries hs hc 0).of hrow).1, ?_, ?_⟩
    · rw [recipients_relatedRows _ List.mem_cons_self, hrowid]
      exact ((h.carries hs hc 1).of hrow₁).2.1
    · rw [options_relatedRows _ List.mem_cons_self, hrowid]
      exact ((h.carries hs hc 3).of hrow₃).2.2
  -- the times are those of the row, which reads back in its own state
  have hreads : ∃ r, requestFromRows P row (relatedRows (selectRecipients [row.id] (sees 1))
      (selectUserDecisions [row.id] (sees 2)) (selectOptions [row.id] (sees 3)) row.id) =
        .ok r := by
    obtain ⟨r₀, hr₀⟩ := hlegible.reads id row hrow
    obtain ⟨row', version, digest, hrow', hreads⟩ := (readRequest_eq_ok P).mp hr₀
    rw [hrow] at hrow'
    cases hrow'
    have hof₀ := (h.carries hs hc 0).ofContent hrow
    obtain ⟨r, hr⟩ := reads_of_sameContent hreads (hof₀.same hof) hreads.updatedAt hreads.resolvedAt
    exact ⟨r, (requestFromRows_eq_ok P).mpr ⟨version, digest, hr⟩⟩
  obtain ⟨r, hr⟩ := hreads
  refine ⟨r, ?_, ?_, signing_of_contextOf hcontext hof hr⟩
  · rw [getRequest, Prog.eval_spread_autocommit]
    simp only [getRequestOn, rowToRequest, rowsToRequests, Prog.spread_bind, Prog.eval_bind,
      Prog.eval_spread_query, Prog.spread_lift, hrow, orElse, Prog.lift_ok, Prog.eval_ret,
      List.map_cons, List.map_nil, List.mapM_cons, List.mapM_nil, hr]
    rfl
  · obtain ⟨version, digest, hreads⟩ := (requestFromRows_eq_ok P).mp hr
    rw [hreads.id, hrowid]

end

/-! ## The context of the create response -/

/-- Reads of a request along a run, other calls coming between any two of their statements: each
    gives this context. -/
structure ReadsGive (id : String) (context : RequestSigningContext) (sees : ℕ → Db) : Prop where
  single : ∃ r rest, Prog.eval databaseError (getRequest P id).spread sees = .ok (r, rest) ∧
    r.id = id ∧ r.signing = some context
  forUser : ∀ userId, ∃ r rest,
    Prog.eval databaseError (requestForUser P id userId).spread sees = .ok (r, rest) ∧
      r.id = id ∧ r.signing = some context
  paged : ∀ env query page rest,
    Prog.eval databaseError (listRequestsForDevice P C env query).spread sees =
      .ok (page, rest) → ∀ r ∈ page.requests, r.id = id → r.signing = some context
  recent : ∀ rs rest, Prog.eval databaseError (recentRequests P).spread sees = .ok (rs, rest) →
    ∀ r ∈ rs, r.id = id → r.signing = some context

/-- An accepted create, new or joined, answers with the context of every later read, until the
    request is deleted. -/
def SigningImmutable (s : Db) : Prop :=
  ∀ env req metadata faults created s',
    Prog.exec databaseError (createRequest P env req metadata) faults s = (.ok created, s') →
      created.request.id = created.requestId ∧
        ∃ context, created.request.signing = some context ∧
          ∀ sees, Timeline P s' created.requestId sees → ReadsGive P C created.requestId context sees

theorem readsGive_of_read {s : Db} (hs : WellFormed P s) (hl : Legible P s) {id : String}
    {request : DecisionRequest} (hread : readRequest P s id = .ok request) :
    ∃ context, request.signing = some context ∧
      ∀ sees, Timeline P s id sees → ReadsGive P C id context sees := by
  obtain ⟨row, version, digest, hrow, hreads⟩ := (readRequest_eq_ok P).mp hread
  have hsigning : ∃ context, request.signing = some context := by
    rw [hreads.request]
    exact ⟨_, rfl⟩
  obtain ⟨context, hcontext⟩ := hsigning
  have hc : Carries s id (s.contentOf row) := ⟨row, hrow, rfl⟩
  have hissued : ContextOf P (s.contentOf row) context :=
    ⟨row, s.relatedOf id, request, version, digest, hc.ofContent hrow, hreads, hcontext⟩
  refine ⟨context, hcontext, fun sees h => ?_⟩
  obtain ⟨r, heval, hid, hsigned⟩ := eval_spread_getRequest hs h hl hc hissued
  refine ⟨⟨r, _, heval, hid, hsigned⟩, fun userId => ?_, ?_, ?_⟩
  · refine ⟨projectRequestForUser r userId, fun n => sees (n + 4), ?_, ?_, ?_⟩
    · rw [requestForUser, Prog.spread_bind, Prog.eval_bind, heval]
      rfl
    · rw [id_projectRequestForUser, hid]
    · rw [signing_projectRequestForUser, hsigned]
  · intro env query page rest hpage r hr hrid
    exact signing_of_page hs h hc hissued hpage hr hrid
  · intro rs rest hrecent r hr hrid
    exact signing_of_recent hs h hc hissued hrecent hr hrid

theorem signing_immutable (calls : List Call) : SigningImmutable P C (run P calls Db.empty) := by
  intro env req metadata faults created s' hexec
  have hs := wellFormed_run_empty (P := P) calls
  have hl := legible_run_empty (P := P) calls
  have heval := Prog.exec_ok (transactional_createRequest P env req metadata) hexec
  have hs' : WellFormed P s' := (moves_createRequest hs heval).wellFormed hs
  rcases created_of_eval P heval with hjoined | ⟨-, hid, recipients, node, hcreated⟩
  · obtain ⟨id, hread⟩ := hjoined.read
    have hrequest : created.request.id = id := id_of_readRequest P hread
    rw [hjoined.requestId, hrequest]
    have hl' : Legible P s' :=
      legible_of_requests hl fun other _ _ => .inl (kept_joined hjoined other)
    rw [← (kept_joined hjoined id).readRequest] at hread
    exact ⟨rfl, readsGive_of_read P C hs' hl' hread⟩
  · rw [hid]
    exact ⟨id_of_readRequest P hcreated.read,
      readsGive_of_read P C hs' (legible_created hs hl hcreated) hcreated.read⟩

end Nod.Server
