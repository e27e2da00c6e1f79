import Nod.Proto.Preimages
import Nod.Server.Dedupe
import Nod.Server.Pages
import Nod.Server.SignedPayloads

/-
  What the digest of a stored card says of it. A card is signed under one of five encoders, three for
  ordinary cards and two for value cards, that share two version tags and one line format.
  Proved: over the cards that runs of calls store, the texts of the encoders name the encoder and all
  it covers, hashed parts as far as the hash tells their texts apart (`signed_requests`).
-/

namespace Nod.Server

open Lib Nod.Proto

variable (P : Packages)

/-! ## The encoders -/

inductive Encoder
  | legacyLineSnapshot
  | structured
  | legacyStructuredV2
  | value
  | legacyValueV3
  deriving DecidableEq

def commitmentOf (r : DecisionRequest) : Option String :=
  r.signing.map RequestSigningContext.recipientsCommitment

/-- The lines of an ordinary card. -/
def snapshotText (r : DecisionRequest) : Option String :=
  if r.answerField = none then some (lineSnapshot P.toExternals (r.toWire P.toExternals)) else none

/-- The text of an ordinary card under a version tag. -/
def structuredText (r : DecisionRequest) (version : String) : Option String :=
  if r.answerField = none then
    (commitmentOf r).map fun commitment =>
      structuredPreimage (r.toWire P.toExternals) commitment version
  else none

/-- The text of a value card under a version tag. -/
def valueText (r : DecisionRequest) (version : String) : Option String :=
  r.answerField.bind fun field => (commitmentOf r).map fun commitment =>
    valuePreimage (r.toWire P.toExternals) commitment field version

/-- The text an encoder hashes, of a card of its family. -/
def Encoder.preimage (r : DecisionRequest) : Encoder → Option String
  | .legacyLineSnapshot => snapshotText P r
  | .structured => structuredText P r requestDigestVersion
  | .legacyStructuredV2 => structuredText P r legacyStructuredRequestDigestVersion
  | .value => valueText P r valueRequestDigestVersion
  | .legacyValueV3 => valueText P r legacyValueRequestDigestVersion

/-- The digest an encoder gives a card of its family. -/
def Encoder.digest (r : DecisionRequest) : Encoder → Option (Except SigningError String)
  | .legacyLineSnapshot =>
    some (.ok (requestDigestLegacyLineSnapshot P.toExternals (r.toWire P.toExternals)))
  | .structured =>
    (commitmentOf r).map (requestDigestV1 P.toExternals (r.toWire P.toExternals))
  | .legacyStructuredV2 =>
    (commitmentOf r).map (requestDigestLegacyStructuredV2 P.toExternals (r.toWire P.toExternals))
  | .value => r.answerField.bind fun field => (commitmentOf r).map fun commitment =>
    valueRequestDigest P.toExternals (r.toWire P.toExternals) commitment field
  | .legacyValueV3 => r.answerField.bind fun field => (commitmentOf r).map fun commitment =>
    valueRequestDigestLegacyV3 P.toExternals (r.toWire P.toExternals) commitment field

/-- A text that an encoder gives a card, by the kind of the encoder. -/
inductive Encoder.Gives (r : DecisionRequest) : Encoder → String → Prop
  | line (hfield : r.answerField = none) :
    Gives r .legacyLineSnapshot (lineSnapshot P.toExternals r.toRequest)
  | structured {e : Encoder} {commitment version : String} (hfield : r.answerField = none)
    (hcommitment : commitmentOf r = some commitment)
    (htag : e = .structured ∧ version = requestDigestVersion ∨
      e = .legacyStructuredV2 ∧ version = legacyStructuredRequestDigestVersion) :
    Gives r e (structuredPreimage r.toRequest commitment version)
  | value {e : Encoder} {commitment version : String} {field : AnswerField}
    (hfield : r.answerField = some field) (hcommitment : commitmentOf r = some commitment)
    (htag : e = .value ∧ version = valueRequestDigestVersion ∨
      e = .legacyValueV3 ∧ version = legacyValueRequestDigestVersion) :
    Gives r e (valuePreimage r.toRequest commitment field version)

section

variable {P} {r : DecisionRequest} {e : Encoder} {version p : String}

theorem lineSnapshot_toWire (r : DecisionRequest) :
    lineSnapshot P.toExternals (r.toWire P.toExternals) = lineSnapshot P.toExternals r.toRequest := by
  unfold DecisionRequest.toWire
  split <;> rfl

theorem snapshotText_eq_some (h : snapshotText P r = some p) :
    r.answerField = none ∧ lineSnapshot P.toExternals r.toRequest = p := by
  unfold snapshotText at h
  split at h
  · next hfield =>
    rw [lineSnapshot_toWire] at h
    exact ⟨hfield, Option.some.inj h⟩
  · cases h

theorem structuredText_eq_some (h : structuredText P r version = some p) :
    r.answerField = none ∧ ∃ commitment, commitmentOf r = some commitment ∧
      structuredPreimage r.toRequest commitment version = p := by
  unfold structuredText at h
  split at h
  · next hfield =>
    obtain ⟨commitment, hcommitment, rfl⟩ := Option.map_eq_some_iff.mp h
    refine ⟨hfield, commitment, hcommitment, ?_⟩
    unfold structuredPreimage
    rw [contentMembers_toWire]
  · cases h

theorem valueText_eq_some (h : valueText P r version = some p) :
    ∃ field commitment, r.answerField = some field ∧ commitmentOf r = some commitment ∧
      valuePreimage r.toRequest commitment field version = p := by
  obtain ⟨field, hfield, htext⟩ := Option.bind_eq_some_iff.mp h
  obtain ⟨commitment, hcommitment, rfl⟩ := Option.map_eq_some_iff.mp htext
  refine ⟨field, commitment, hfield, hcommitment, ?_⟩
  unfold valuePreimage valueContent
  rw [contentMembers_toWire]

theorem gives_of_preimage (h : e.preimage P r = some p) : e.Gives P r p := by
  cases e with
  | legacyLineSnapshot =>
    obtain ⟨hfield, rfl⟩ := snapshotText_eq_some h
    exact .line hfield
  | structured =>
    obtain ⟨hfield, commitment, hcommitment, rfl⟩ := structuredText_eq_some h
    exact .structured hfield hcommitment (.inl ⟨rfl, rfl⟩)
  | legacyStructuredV2 =>
    obtain ⟨hfield, commitment, hcommitment, rfl⟩ := structuredText_eq_some h
    exact .structured hfield hcommitment (.inr ⟨rfl, rfl⟩)
  | value =>
    obtain ⟨field, commitment, hfield, hcommitment, rfl⟩ := valueText_eq_some h
    exact .value hfield hcommitment (.inl ⟨rfl, rfl⟩)
  | legacyValueV3 =>
    obtain ⟨field, commitment, hfield, hcommitment, rfl⟩ := valueText_eq_some h
    exact .value hfield hcommitment (.inr ⟨rfl, rfl⟩)

end

/-! ## Stored cards -/

theorem free_of_isUuid {s : String} (h : isUuid s = true) : Text.Free '\n' s := by
  unfold isUuid at h
  rw [Bool.and_eq_true, List.all_eq_true] at h
  intro hmem
  obtain ⟨i, hi⟩ := List.mem_iff_getElem?.mp hmem
  have hplace : ('\n', i) ∈ s.toList.zipIdx := List.mem_zipIdx_iff_getElem?.mpr hi
  have hline := h.2 _ hplace
  dsimp only at hline
  split at hline
  · exact absurd hline (by decide)
  · exact absurd hline (by decide)

/-- A card that a run of calls has stored. -/
structure StoredCard where
  calls : List Call
  request : DecisionRequest
  stored : readRequest P (run P calls Db.empty) request.id = .ok request

namespace StoredCard

variable {P} (c : StoredCard P)

/-- The create that the card goes back to. -/
theorem created : ∃ env req creator row version digest,
    validateRequest P req = .ok () ∧ row.frozen = (createdRow env req creator).frozen ∧
      ReadsAs P row ((run P c.calls Db.empty).relatedOf c.request.id) c.request version digest ∧
      row ∈ (run P c.calls Db.empty).requests.rows ∧
      ∀ u ∈ c.request.recipients, ∃ label, validateId u label = .ok () := by
  have hdb := wellFormed_run_empty (P := P) c.calls
  obtain ⟨row, version, digest, hrow, hreads⟩ := (readRequest_eq_ok P).mp c.stored
  have hgood := (hdb.good hrow).1
  obtain ⟨env, req, creator, -, -, -, hvalid, -, hfrozen, -, -⟩ := hgood.admitted.accepted
  have hid : row.id = c.request.id := Table.key_of_get? hrow
  refine ⟨env, req, creator, row, version, digest, hvalid, hfrozen, hreads, Table.mem_of_get? hrow, ?_⟩
  rw [hreads.recipients, recipients_relatedOf, ← hid]
  exact hgood.admitted.recipientIds

theorem keepsLines : KeepsLines c.request.toRequest := by
  obtain ⟨env, req, creator, row, version, digest, hvalid, hfrozen, hreads, hmem, hids⟩ := c.created
  have himage : c.request.imageUrl = req.imageUrl := by
    rw [hreads.request]
    exact congrArg RequestRow.imageUrl hfrozen
  have hdedupe : c.request.dedupeKey = req.dedupeKey := by
    rw [hreads.request]
    exact congrArg RequestRow.dedupeKey hfrozen
  have hchannel : c.request.channelId = req.channelId := by
    rw [hreads.request]
    exact congrArg RequestRow.channelId hfrozen
  have hplain : ∀ {value label : String}, rejectControlCharacters value label = .ok () →
      Text.Free '\n' value := by
    intro value label h hline
    exact rejectControlCharacters_eq_ok.mp h _ hline Text.isControl_newline
  unfold validateRequest at hvalid
  simp only [bind_eq_ok] at hvalid
  obtain ⟨-, -, -, -, -, -, -, -, -, -, -, -, _, himageOk, _, hdedupeOk, -, -, hchannelOk⟩ := hvalid
  refine ⟨?_, ?_, fun u hu => ?_, fun url hurl => ?_, fun key hkey => ?_⟩
  · obtain ⟨huuid, -⟩ := createdAt_of_stored (wellFormed_run_empty (P := P) c.calls) hmem
    rw [← hreads.id] at huuid
    exact free_of_isUuid huuid
  · show Text.Free '\n' c.request.channelId
    rw [hchannel]
    exact free_of_validateId hchannelOk (by decide)
  · obtain ⟨label, hid⟩ := hids u hu
    exact ⟨free_of_validateId hid (by decide), free_of_validateId hid (by decide),
      (validateId_eq_ok.mp hid).1⟩
  · have hchecked := validateOptional_eq_ok.mp himageOk url (himage.symm.trans hurl)
    obtain ⟨_, hcontrol, -⟩ := bind_eq_ok.mp hchecked
    exact hplain hcontrol
  · exact hplain (validateOptional_eq_ok.mp hdedupeOk key (hdedupe.symm.trans hkey))

/-- A stored creation time is a whole millisecond. -/
theorem createdAt_millis : c.request.createdAt.truncMillis = c.request.createdAt := by
  obtain ⟨env, req, creator, row, version, digest, -, hfrozen, hreads, -⟩ := c.created
  have hparse := hreads.createdAt
  have hcreated : row.createdAt = (env.now 0).toRfc3339Millis := congrArg RequestRow.createdAt hfrozen
  rw [hcreated] at hparse
  rw [(DateTime.parse_toRfc3339Millis_eq_some hparse).2, DateTime.truncMillis_truncMillis]

theorem expiresAt_millis : c.request.expiresAt.map DateTime.truncMillis = c.request.expiresAt :=
  whole_of_read (wellFormed_run_empty c.calls) c.stored

end StoredCard

/-! ## What the texts say -/

/-- The texts of a card that its line snapshot has the hashes of. -/
def hashedTexts (r : DecisionRequest) : List String :=
  [r.title, r.summary, r.bodyMarkdown, (Json.arr (r.fields.map CardField.toJson)).text,
    (Json.arr (r.links.map CardLink.toJson)).text,
    (Json.arr (r.options.map fun o => o.toJson.sorted)).text]

/-- The hash tells apart what two snapshots have the hashes of. -/
def TellsCardsApart (v w : DecisionRequest) : Prop :=
  List.Forall₂ (TellsApart P.toExternals) (hashedTexts v) (hashedTexts w)

/-- Two cards agree on what every encoder covers. -/
structure SameSigned (v w : DecisionRequest) : Prop where
  id : v.id = w.id
  channelId : v.channelId = w.channelId
  decisionResolution : v.decisionResolution = w.decisionResolution
  title : v.title = w.title
  summary : v.summary = w.summary
  bodyMarkdown : v.bodyMarkdown = w.bodyMarkdown
  fields : v.fields = w.fields
  links : v.links = w.links
  imageUrl : v.imageUrl.getD "" = w.imageUrl.getD ""
  dedupeKey : v.dedupeKey.getD "" = w.dedupeKey.getD ""
  expiresAt : v.expiresAt = w.expiresAt
  createdAt : v.createdAt = w.createdAt
  options : v.options = w.options

/-- Two cards agree on what the structured and value encoders cover beside. -/
structure SameContext (v w : DecisionRequest) : Prop where
  commitment : commitmentOf v = commitmentOf w
  imageUrl : v.imageUrl = w.imageUrl
  dedupeKey : v.dedupeKey = w.dedupeKey
  notification : v.notification = w.notification
  callbackUrl : v.callbackUrl = w.callbackUrl

section

variable {P} {v w : StoredCard P} {c d : String}

theorem createdAt_of_millis
    (h : v.request.createdAt.toRfc3339Millis = w.request.createdAt.toRfc3339Millis) :
    v.request.createdAt = w.request.createdAt := by
  rw [← v.createdAt_millis, ← w.createdAt_millis]
  exact DateTime.toRfc3339Millis_inj h

theorem expiresAt_of_millis (h : v.request.expiresAt.map DateTime.toRfc3339Millis =
    w.request.expiresAt.map DateTime.toRfc3339Millis) :
    v.request.expiresAt = w.request.expiresAt := by
  rw [← v.expiresAt_millis, ← w.expiresAt_millis]
  cases hv : v.request.expiresAt with
  | none =>
    cases hw : w.request.expiresAt with
    | none => rfl
    | some t =>
      rw [hv, hw] at h
      cases h
  | some s =>
    cases hw : w.request.expiresAt with
    | none =>
      rw [hv, hw] at h
      cases h
    | some t =>
      rw [hv, hw] at h
      exact congrArg some (DateTime.toRfc3339Millis_inj (Option.some.inj h))

theorem sameSigned_of_card (h : SameMembers v.request.toRequest w.request.toRequest c d) :
    SameSigned v.request w.request where
  id := h.id
  channelId := h.channelId
  decisionResolution := h.decisionResolution
  title := h.title
  summary := h.summary
  bodyMarkdown := h.bodyMarkdown
  fields := h.fields
  links := h.links
  imageUrl := congrArg (Option.getD · "") h.imageUrl
  dedupeKey := congrArg (Option.getD · "") h.dedupeKey
  expiresAt := expiresAt_of_millis h.expiresAt
  createdAt := createdAt_of_millis h.createdAt
  options := h.options

theorem floatFree_optionItems (options : List RequestOption) :
    Json.FloatFree (.arr (options.map fun o => o.toJson.sorted)) :=
  (Json.floatFreeItems_iff _).mpr
    (List.forall_mem_map.mpr fun o _ => Json.floatFree_sorted _ o.plain_toJson.1)

theorem sameSigned_of_snapshot
    (h : SameSnapshot P.toExternals v.request.toRequest w.request.toRequest)
    (htells : TellsCardsApart P v.request w.request) : SameSigned v.request w.request := by
  unfold TellsCardsApart hashedTexts at htells
  simp only [List.forall₂_cons, List.Forall₂.nil, and_true] at htells
  obtain ⟨htitle, hsummary, hbody, hfields, hlinks, hoptions⟩ := htells
  have hfieldTexts := Json.text_inj (plain_arr _ CardField.plain_toJson _).1
    (plain_arr _ CardField.plain_toJson _).1 (hfields h.fields)
  have hlinkTexts := Json.text_inj (plain_arr _ CardLink.plain_toJson _).1
    (plain_arr _ CardLink.plain_toJson _).1 (hlinks h.links)
  have hoptionTexts := Json.text_inj (floatFree_optionItems _) (floatFree_optionItems _)
    (hoptions h.options)
  exact
    { id := h.id, channelId := h.channelId, decisionResolution := h.decisionResolution
      title := htitle h.title, summary := hsummary h.summary, bodyMarkdown := hbody h.bodyMarkdown
      fields := arr_map_inj (fun _ _ => CardField.toJson_inj) hfieldTexts
      links := arr_map_inj (fun _ _ => CardLink.toJson_inj) hlinkTexts
      imageUrl := h.imageUrl, dedupeKey := h.dedupeKey
      expiresAt := expiresAt_of_millis h.expiresAt, createdAt := createdAt_of_millis h.createdAt
      options := arr_map_inj RequestOption.sorted_inj hoptionTexts }

theorem sameContext_of_card (h : SameMembers v.request.toRequest w.request.toRequest c d)
    (hv : commitmentOf v.request = some c) (hw : commitmentOf w.request = some d) :
    SameContext v.request w.request where
  commitment := by rw [hv, hw, h.commitment]
  imageUrl := h.imageUrl
  dedupeKey := h.dedupeKey
  notification := h.notification
  callbackUrl := h.callbackUrl

/-- What one text of two cards says, line by line or member by member. -/
theorem gives_inj {d e : Encoder} {p : String} (hv : d.Gives P v.request p)
    (hw : e.Gives P w.request p) : d = e ∧ v.request.answerField = w.request.answerField ∧
      (d = .legacyLineSnapshot →
        SameSnapshot P.toExternals v.request.toRequest w.request.toRequest) ∧
      (d ≠ .legacyLineSnapshot → ∃ c c', commitmentOf v.request = some c ∧
        commitmentOf w.request = some c' ∧
        SameMembers v.request.toRequest w.request.toRequest c c') := by
  have hordinary : ∀ {e : Encoder} {version : String}, (e = .structured ∧
      version = requestDigestVersion ∨ e = .legacyStructuredV2 ∧
      version = legacyStructuredRequestDigestVersion) →
      Text.Free '\n' version ∧ e ≠ .legacyLineSnapshot := by
    rintro e version (⟨rfl, rfl⟩ | ⟨rfl, rfl⟩)
    · exact ⟨by decide, by decide⟩
    · exact ⟨by decide, by decide⟩
  have hvalues : ∀ {e : Encoder} {version : String}, (e = .value ∧
      version = valueRequestDigestVersion ∨ e = .legacyValueV3 ∧
      version = legacyValueRequestDigestVersion) →
      Text.Free '\n' version ∧ e ≠ .legacyLineSnapshot := by
    rintro e version (⟨rfl, rfl⟩ | ⟨rfl, rfl⟩)
    · exact ⟨by decide, by decide⟩
    · exact ⟨by decide, by decide⟩
  generalize hp : p = q at hw
  cases hv with
  | line hfield =>
    cases hw with
    | line hfield' =>
      exact ⟨rfl, hfield.trans hfield'.symm,
        fun _ => lineSnapshot_inj v.keepsLines w.keepsLines hp, fun h => absurd rfl h⟩
    | structured _ _ htag => exact absurd hp (lineSnapshot_ne_tagged _ _ (hordinary htag).1 _)
    | value _ _ htag => exact absurd hp (lineSnapshot_ne_tagged _ _ (hvalues htag).1 _)
  | structured hfield hcommitment htag =>
    cases hw with
    | line _ => exact absurd hp.symm (lineSnapshot_ne_tagged _ _ (hordinary htag).1 _)
    | structured hfield' hcommitment' htag' =>
      obtain ⟨hversion, hsame⟩ := structuredPreimage_inj (hordinary htag).1 (hordinary htag').1 hp
      refine ⟨?_, hfield.trans hfield'.symm, fun h => absurd h (hordinary htag).2,
        fun _ => ⟨_, _, hcommitment, hcommitment', hsame⟩⟩
      rcases htag with ⟨rfl, rfl⟩ | ⟨rfl, rfl⟩ <;> rcases htag' with ⟨rfl, rfl⟩ | ⟨rfl, rfl⟩
      · rfl
      · exact absurd hversion (by decide)
      · exact absurd hversion (by decide)
      · rfl
    | value _ _ htag' =>
      exact absurd hp (structuredPreimage_ne_value (hordinary htag).1 (hvalues htag').1)
  | value hfield hcommitment htag =>
    cases hw with
    | line _ => exact absurd hp.symm (lineSnapshot_ne_tagged _ _ (hvalues htag).1 _)
    | structured _ _ htag' =>
      exact absurd hp.symm (structuredPreimage_ne_value (hordinary htag').1 (hvalues htag).1)
    | value hfield' hcommitment' htag' =>
      obtain ⟨hversion, hsame, hanswer⟩ :=
        valuePreimage_inj (hvalues htag).1 (hvalues htag').1 hp
      refine ⟨?_, ?_, fun h => absurd h (hvalues htag).2,
        fun _ => ⟨_, _, hcommitment, hcommitment', hsame⟩⟩
      · rcases htag with ⟨rfl, rfl⟩ | ⟨rfl, rfl⟩ <;> rcases htag' with ⟨rfl, rfl⟩ | ⟨rfl, rfl⟩
        · rfl
        · exact absurd hversion (by decide)
        · exact absurd hversion (by decide)
        · rfl
      · rw [hfield, hfield', hanswer]

/-- A stored card has a commitment that is a hash, and a value card an answer field that is valid. -/
theorem StoredCard.valid (v : StoredCard P) :
    (∀ c, commitmentOf v.request = some c → validCommitment c = true) ∧
      ∀ field, v.request.answerField = some field → field.validate = .ok () := by
  obtain ⟨env, req, creator, row, version, digest, -, -, hreads, -⟩ := v.created
  constructor
  · intro c hc
    unfold commitmentOf at hc
    rw [hreads.request] at hc
    rw [← Option.some.inj hc]
    exact validCommitment_sha256Hex P.toExternals _
  · intro field hfield
    have hissued := hreads.issued
    have hrow : row.answerField = some field := by
      rw [hreads.request] at hfield
      exact hfield
    unfold issuedDigest at hissued
    rw [answerField_toWire] at hissued
    simp only [unsignedRequest, hrow] at hissued
    obtain ⟨d, hd, -⟩ := map_eq_ok.mp hissued
    exact (valueRequestDigestWithVersion_eq_ok.mp hd).2.1

theorem structuredDigest_of_text {version p : String} {r : DecisionRequest}
    (hvalid : ∀ c, commitmentOf r = some c → validCommitment c = true)
    (h : structuredText P r version = some p) : (commitmentOf r).map (fun commitment =>
      structuredRequestDigest P.toExternals (r.toWire P.toExternals) commitment version) =
        some (.ok (P.sha256Hex p)) := by
  unfold structuredText at h
  split at h
  · obtain ⟨c, hc, rfl⟩ := Option.map_eq_some_iff.mp h
    rw [hc, Option.map_some]
    exact congrArg some (structuredRequestDigest_eq_ok.mpr ⟨hvalid c hc, rfl⟩)
  · cases h

theorem valueDigest_of_text {version p : String} {r : DecisionRequest}
    (hvalid : ∀ c, commitmentOf r = some c → validCommitment c = true)
    (hfields : ∀ field, r.answerField = some field → field.validate = .ok ())
    (h : valueText P r version = some p) : (r.answerField.bind fun field =>
      (commitmentOf r).map fun commitment => valueRequestDigestWithVersion P.toExternals
        (r.toWire P.toExternals) commitment field version) = some (.ok (P.sha256Hex p)) := by
  obtain ⟨field, hfield, htext⟩ := Option.bind_eq_some_iff.mp h
  obtain ⟨c, hc, rfl⟩ := Option.map_eq_some_iff.mp htext
  rw [hfield, Option.bind_some, hc, Option.map_some]
  exact congrArg some
    (valueRequestDigestWithVersion_eq_ok.mpr ⟨hvalid c hc, hfields field hfield, rfl⟩)

end

/-- What the texts of stored cards say: which encoder wrote them, and all that it covers. -/
structure SignedRequests : Prop where
  digest : ∀ (v : StoredCard P) (e : Encoder) p, e.preimage P v.request = some p →
    e.digest P v.request = some (.ok (P.sha256Hex p))
  encoder : ∀ (v w : StoredCard P) (d e : Encoder) p, d.preimage P v.request = some p →
    e.preimage P w.request = some p → d = e ∧ v.request.answerField = w.request.answerField
  covered : ∀ (v w : StoredCard P) (d e : Encoder) p, d.preimage P v.request = some p →
    e.preimage P w.request = some p →
    (d = .legacyLineSnapshot → TellsCardsApart P v.request w.request) →
    SameSigned v.request w.request
  recipients : ∀ (v w : StoredCard P) p,
    Encoder.legacyLineSnapshot.preimage P v.request = some p →
    Encoder.legacyLineSnapshot.preimage P w.request = some p →
    v.request.recipients = w.request.recipients
  context : ∀ (v w : StoredCard P) (d e : Encoder) p, d.preimage P v.request = some p →
    e.preimage P w.request = some p → d ≠ .legacyLineSnapshot → SameContext v.request w.request

theorem signed_requests : SignedRequests P where
  digest v e p h := by
    obtain ⟨hvalid, hfields⟩ := v.valid
    cases e with
    | legacyLineSnapshot =>
      obtain ⟨-, rfl⟩ := snapshotText_eq_some h
      rw [← lineSnapshot_toWire]
      rfl
    | structured => exact structuredDigest_of_text hvalid h
    | legacyStructuredV2 => exact structuredDigest_of_text hvalid h
    | value => exact valueDigest_of_text hvalid hfields h
    | legacyValueV3 => exact valueDigest_of_text hvalid hfields h
  encoder v w d e p hv hw := by
    obtain ⟨hsame, hfield, -⟩ := gives_inj (gives_of_preimage hv) (gives_of_preimage hw)
    exact ⟨hsame, hfield⟩
  covered v w d e p hv hw htells := by
    obtain ⟨-, -, hline, hmembers⟩ := gives_inj (gives_of_preimage hv) (gives_of_preimage hw)
    by_cases hd : d = .legacyLineSnapshot
    · exact sameSigned_of_snapshot (hline hd) (htells hd)
    · obtain ⟨c, c', -, -, hsame⟩ := hmembers hd
      exact sameSigned_of_card hsame
  recipients v w p hv hw := by
    obtain ⟨-, -, hline, -⟩ := gives_inj (gives_of_preimage hv) (gives_of_preimage hw)
    exact (hline rfl).recipients
  context v w d e p hv hw hd := by
    obtain ⟨-, -, -, hmembers⟩ := gives_inj (gives_of_preimage hv) (gives_of_preimage hw)
    obtain ⟨c, c', hc, hc', hsame⟩ := hmembers hd
    exact sameContext_of_card hsame hc hc'

end Nod.Server
