import Nod.Client.Signing
import Nod.Proto.Wire
import Nod.Server.Expiry
import Nod.Server.Pages
import Nod.Server.Receipts
import Nod.Server.Rejection
import Nod.Server.Stamps

/-
  From a stored card to a stored answer: the copy that a recipient's client reads, the signature it
  builds over that copy (`nod-client-core/src/signing.rs`) and what the server makes of it
  (`db/requests/decisions.rs`), any calls in between.
  Proved: `signs_end_to_end`, what a device signs over a copy is stored as it was meant, while the
  card stays open; and `signing_works`, which clocks that takes.
-/

namespace Nod.Server

open Lib Nod.Proto
open Client (DeviceSigner DecisionSigningRequest buildValueDecisionSignature assertedRequestDigest
  recomputedDigest digestsOf checkAnswer optionFor signedPayload signingInputOf trimmedText
  trimmedNotes_eq trimmedNotes_eq_some BuildsSignature)

variable {P : Packages}

/-! ## The copy -/

/-- The card as one recipient gets it. -/
def deliveredCard (P : Packages) (request : DecisionRequest) (userId : String) : Request :=
  (projectRequestForUser request userId).toWire P.toExternals

/-- What is digested does not depend on the recipient. -/
theorem contentMembers_deliveredCard (r : DecisionRequest) (userId commitment : String) :
    contentMembers (deliveredCard P r userId) commitment = contentMembers r.toRequest commitment := by
  rw [deliveredCard, contentMembers_toWire, projectRequestForUser_eq]
  rfl

theorem answerField_deliveredCard (r : DecisionRequest) (userId : String) :
    (deliveredCard P r userId).answerField = r.answerField := by
  rw [deliveredCard, answerField_toWire, projectRequestForUser_eq]

theorem signing_deliveredCard (r : DecisionRequest) (userId : String) :
    (deliveredCard P r userId).signing = r.signing := by
  rw [deliveredCard, signing_toWire, signing_projectRequestForUser]

theorem options_deliveredCard (r : DecisionRequest) (userId : String) :
    (deliveredCard P r userId).options = r.options := by
  obtain ⟨digest, hwire⟩ := toWire_eq (P := P) (r := projectRequestForUser r userId)
  rw [deliveredCard, hwire, projectRequestForUser_eq]
  rfl

theorem id_deliveredCard (r : DecisionRequest) (userId : String) :
    (deliveredCard P r userId).id = r.id := by
  obtain ⟨digest, hwire⟩ := toWire_eq (P := P) (r := projectRequestForUser r userId)
  rw [deliveredCard, hwire, projectRequestForUser_eq]
  rfl

/-- The digest of a signing context is the one that the card is issued under. -/
def IssuedAs (P : Packages) (card : Request) (context : RequestSigningContext) : Prop :=
  issuedDigest P card context.recipientsCommitment = .ok (context.version, context.requestDigest)

/-- A stored request's context holds the digest that its card was issued under. -/
theorem issued_of_read {s : Db} {id : String} {r : DecisionRequest}
    (h : readRequest P s id = .ok r) (userId : String) : ∃ context,
      r.signing = some context ∧ IssuedAs P (deliveredCard P r userId) context := by
  obtain ⟨row, version, digest, -, hreads⟩ := (readRequest_eq_ok P).mp h
  refine ⟨⟨version, recipientsCommitment P.toExternals (s.relatedOf id).recipients
    row.recipientSalt, digest⟩, ?_, ?_⟩
  · rw [hreads.request]
  · unfold IssuedAs
    rw [← hreads.issued]
    have hfield := congrArg DecisionRequest.answerField hreads.request
    have hmembers := fun commitment =>
      congrArg (fun q : DecisionRequest => contentMembers q.toRequest commitment) hreads.request
    apply issuedDigest_congr
    · rw [answerField_deliveredCard, answerField_toWire]
      exact hfield
    · rw [contentMembers_deliveredCard, contentMembers_toWire]
      exact hmembers _

/-- The client finds the issued digest again, under the encoder that the received tag selects. -/
theorem recomputedDigest_of_issued {card : Request} {context : RequestSigningContext}
    (h : IssuedAs P card context) :
    recomputedDigest P.toExternals card context = .ok (some context.requestDigest) := by
  unfold IssuedAs issuedDigest at h
  unfold recomputedDigest
  cases hfield : card.answerField with
  | some field =>
    rw [hfield] at h
    obtain ⟨d, hd, hpair⟩ := map_eq_ok.mp h
    obtain ⟨hversion, rfl⟩ := Prod.mk.inj hpair
    show Client.signingError (valueRequestDigestForVersion P.toExternals card context.version
      context.recipientsCommitment field) = _
    rw [← hversion, valueRequestDigestForVersion, if_pos rfl, hd]
    rfl
  | none =>
    rw [hfield] at h
    obtain ⟨d, hd, hpair⟩ := map_eq_ok.mp h
    obtain ⟨hversion, rfl⟩ := Prod.mk.inj hpair
    show Client.signingError (requestDigestForVersion P.toExternals card context.version
      context.recipientsCommitment) = _
    rw [← hversion, requestDigestForVersion, if_pos rfl, hd]
    rfl

/-- The server counts the issued digest among those it accepts. -/
theorem issued_mem_candidates {r : DecisionRequest} {context : RequestSigningContext}
    {userId : String} (hsigning : r.signing = some context)
    (h : IssuedAs P (deliveredCard P r userId) context) :
    ∃ candidates, digestCandidates P r = .ok candidates ∧ context.requestDigest ∈ candidates := by
  have hissued : issuedDigest P (r.toWire P.toExternals) context.recipientsCommitment =
      .ok (context.version, context.requestDigest) := by
    rw [← h]
    apply issuedDigest_congr
    · rw [answerField_toWire, answerField_deliveredCard]
    · rw [contentMembers_toWire, contentMembers_deliveredCard]
  have hwire : (r.toWire P.toExternals).signing = some context := (signing_toWire r).trans hsigning
  unfold issuedDigest at hissued
  rw [answerField_toWire] at hissued
  unfold digestCandidates
  dsimp only
  rw [hwire, Option.map_some]
  cases hfield : r.answerField with
  | some field =>
    rw [hfield] at hissued
    obtain ⟨d, hd, hpair⟩ := map_eq_ok.mp hissued
    obtain ⟨hcommitment, hvalid, -⟩ := valueRequestDigestWithVersion_eq_ok.mp hd
    obtain ⟨legacy, hlegacy⟩ : ∃ legacy, valueRequestDigestLegacyV3 P.toExternals
        (r.toWire P.toExternals) context.recipientsCommitment field = .ok legacy :=
      ⟨_, valueRequestDigestWithVersion_eq_ok.mpr ⟨hcommitment, hvalid, rfl⟩⟩
    refine ⟨[d, legacy], ?_, ?_⟩
    · simp only [bind_eq_ok, orElse_eq_ok, digestError, mapError_eq_ok, pure_eq_ok]
      exact ⟨_, rfl, d, hd, legacy, hlegacy, rfl⟩
    · rw [← (Prod.mk.inj hpair).2]
      exact List.mem_cons_self
  | none =>
    rw [hfield] at hissued
    obtain ⟨d, hd, hpair⟩ := map_eq_ok.mp hissued
    obtain ⟨hcommitment, -⟩ := structuredRequestDigest_eq_ok.mp hd
    obtain ⟨legacy, hlegacy⟩ : ∃ legacy, requestDigestLegacyStructuredV2 P.toExternals
        (r.toWire P.toExternals) context.recipientsCommitment = .ok legacy :=
      ⟨_, structuredRequestDigest_eq_ok.mpr ⟨hcommitment, rfl⟩⟩
    refine ⟨[requestDigestLegacyLineSnapshot P.toExternals (r.toWire P.toExternals), d, legacy], ?_, ?_⟩
    · simp only [bind_eq_ok, digestError, mapError_eq_ok, pure_eq_ok, stamped_toWire]
      exact ⟨d, hd, legacy, hlegacy, rfl⟩
    · rw [← (Prod.mk.inj hpair).2]
      exact List.mem_cons_of_mem _ List.mem_cons_self

/-! ## The copy reads back -/

/-- The request waits for the user's answer. -/
structure OpenFor (r : DecisionRequest) (userId : String) : Prop where
  pending : r.status = .pending
  recipient : userId ∈ r.recipients
  unanswered : ∀ d ∈ r.userDecisions, d.userId ≠ userId

section

variable {s : Db} {id userId : String} {r : DecisionRequest}

/-- A pending request has no outcome. -/
theorem outcome_of_pending (hs : WellFormed P s) (hl : Legible P s)
    (hread : readRequest P s id = .ok r) (hpending : r.status = .pending) :
    r.resolvedAt = none ∧ r.decision = none := by
  have hless := outcomeless_of_read P hs hl hread
  refine ⟨hless.resolvedAt (by rw [hpending]; decide), ?_⟩
  cases hresolution : r.decisionResolution with
  | perUser => exact hless.decision hresolution
  | shared =>
    obtain ⟨row, version, digest, hrow, hreads⟩ := (readRequest_eq_ok P).mp hread
    have hshared : (rules P).shared (s.ballotOf row).content :=
      hreads.decisionResolution.symm.trans hresolution
    obtain ⟨-, hsettled⟩ := (hs.good hrow).1.shared hshared
    have hdecision : r.decision = row.decision := by
      have hdecision := congrArg DecisionRequest.decision hreads.request
      exact hdecision
    rw [hdecision]
    by_contra hsome
    have hphase := hsettled.mpr (Option.isSome_iff_ne_none.mpr hsome)
    have hstatus : row.status = .pending := hreads.status.symm.trans hpending
    unfold Db.ballotOf at hphase
    dsimp only at hphase
    rw [hstatus] at hphase
    cases hphase

/-- The user sees an open request as it is stored, without answers of others. -/
theorem deliveredCard_of_open (hs : WellFormed P s) (hl : Legible P s)
    (hread : readRequest P s id = .ok r) (hopen : OpenFor r userId) :
    ∃ digest, deliveredCard P r userId = { r.toRequest with
      status := .pending, resolvedAt := none, decision := none, recipients := [userId]
      decisions := [], requestDigest := digest } := by
  obtain ⟨hresolved, hdecision⟩ := outcome_of_pending hs hl hread hopen.pending
  obtain ⟨digest, hwire⟩ := toWire_eq (P := P) (r := projectRequestForUser r userId)
  have hnone : r.userDecisions.filter (fun d => decide (d.userId = userId)) = [] := by
    rw [List.filter_eq_nil_iff]
    intro d hd howner
    exact hopen.unanswered d hd (of_decide_eq_true howner)
  have hfind : r.userDecisions.find? (fun d => decide (d.userId = userId)) = none := by
    rw [List.find?_eq_none]
    intro d hd howner
    exact hopen.unanswered d hd (of_decide_eq_true howner)
  have hrecipients := filter_recipients (wellKept_of_read P hs hread).recipients hopen.recipient
  have houtcome : r.outcomeFor userId = (.pending, none, none) := by
    unfold DecisionRequest.outcomeFor ownOutcome
    rw [hfind, hopen.pending, hresolved, hdecision]
    split <;> rfl
  refine ⟨digest, ?_⟩
  rw [deliveredCard, hwire, projectRequestForUser_eq, houtcome, hrecipients, hnone]
  rfl

/-- Every time of an open card can be written with four digits for its year. -/
theorem dated_of_open (hs : WellFormed P s) (hl : Legible P s) (hstamped : Stamped s)
    (hread : readRequest P s id = .ok r) (hopen : OpenFor r userId) :
    (deliveredCard P r userId).Dated := by
  obtain ⟨digest, hcard⟩ := deliveredCard_of_open hs hl hread hopen
  obtain ⟨row, version, digest', hrow, hreads⟩ := (readRequest_eq_ok P).mp hread
  have hmem := Table.mem_of_get? hrow
  have hyear : ∀ {t u : DateTime}, DateTime.parseFromRfc3339 t.toRfc3339Millis = some u →
      u.FourDigitYear := by
    intro t u h
    obtain ⟨ht, rfl⟩ := DateTime.parse_toRfc3339Millis_eq_some h
    exact (DateTime.fourDigitYear_truncMillis t).mpr ht
  have hcreated : r.createdAt.FourDigitYear := by
    obtain ⟨-, t, -, hcreated⟩ := createdAt_of_stored hs hmem
    have hparse := hreads.createdAt
    rw [hcreated] at hparse
    exact hyear hparse
  have hupdated : r.updatedAt.FourDigitYear := by
    obtain ⟨t, -, -, hupdated⟩ := (hstamped row hmem).updatedAt
    have hparse := hreads.updatedAt
    rw [hupdated] at hparse
    exact hyear hparse
  have hexpires : ∀ t ∈ r.expiresAt, t.FourDigitYear := by
    intro t ht
    have hexpires := hreads.expiresAt
    rw [Option.mem_def.mp ht] at hexpires
    obtain ⟨text, htext, hparse⟩ := Option.map_eq_some_iff.mp hexpires
    obtain ⟨e, -, -, rfl⟩ := expiresAt_of_stored hs hmem htext
    exact hyear hparse
  rw [hcard]
  refine ⟨hcreated, hupdated, hexpires, ?_, ?_, ?_⟩
  · intro t ht
    cases ht
  · intro d hd
    cases hd
  · intro d hd
    cases hd

end

/-! ## The client signs -/

/-- An answer that a card allows. -/
structure Allows (card : Request) (optionId : String) (text : Option String)
    (answer : Option AnswerValue) : Prop where
  offered : (∃ option ∈ card.options, option.id = optionId) ∨
    card.answerField = none ∧ optionId = Client.implicitDismissOptionId ∧ card.options = []
  fits : match card.answerField with
    | some field => ∃ value, answer = some value ∧ field.validateValue value = .ok ()
    | none => answer = none
  notes : card.answerField ≠ none → ∀ t ∈ text, (Text.trim t).utf8ByteSize ≤ 16384

/-- What holds the private half of a device's registered key. -/
structure Holds (P : Packages) (row : DeviceRow) (signer : DeviceSigner) : Prop where
  keyId : row.signingKeyId = some signer.keyId
  algorithm : signer.algorithm = decisionSigningAlgorithm
  signs : ∀ key, row.signingPublicKey = some key → ∀ payload, ∃ signature,
    signer.sign payload = .ok signature ∧ verifyPayload P.toExternals key payload signature = .ok ()

/-- An answer that the user of a device is about to sign. -/
structure Draft where
  row : DeviceRow
  signer : DeviceSigner
  nonce : String
  signedAt : DateTime
  optionId : String
  text : Option String
  answer : Option AnswerValue

namespace Draft

/-- What is signed: the copy for the user of the device. -/
def signing (P : Packages) (d : Draft) (r : DecisionRequest) : DecisionSigningRequest :=
  { request := deliveredCard P r d.row.userId, optionId := d.optionId, text := d.text
    userId := d.row.userId, deviceId := d.row.id }

def build (P : Packages) (d : Draft) (r : DecisionRequest) : Except String DecisionSignature :=
  buildValueDecisionSignature P.toExternals d.signer d.nonce d.signedAt (d.signing P r) d.answer
    (assertedRequestDigest (deliveredCard P r d.row.userId))

/-- What is posted with a signature. -/
def body (d : Draft) (signature : DecisionSignature) : SubmitDecisionRequest :=
  { answerValue := d.answer, text := d.text, signature := some signature }

/-- The card allows the answer, and the device can sign it. -/
structure Good (P : Packages) (d : Draft) (r : DecisionRequest) : Prop where
  allows : Allows (deliveredCard P r d.row.userId) d.optionId d.text d.answer
  holds : Holds P d.row d.signer
  nonce : Text.trim d.nonce ≠ "" ∧ d.nonce.utf8ByteSize ≤ 160
  signedAt : d.signedAt.FourDigitYear

end Draft

section

variable {card : Request} {context : RequestSigningContext}

/-- A digest is never the empty text. -/
theorem issued_ne_empty (h : IssuedAs P card context) : context.requestDigest ≠ "" := by
  have hne : ∀ text, P.toExternals.sha256Hex text ≠ "" := by
    intro text heq
    have hlength := P.toExternals.sha256Hex_length text
    rw [heq] at hlength
    exact absurd hlength (by decide)
  unfold IssuedAs issuedDigest at h
  cases hfield : card.answerField with
  | some field =>
    rw [hfield] at h
    obtain ⟨d, hd, hpair⟩ := map_eq_ok.mp h
    obtain ⟨-, -, rfl⟩ := valueRequestDigestWithVersion_eq_ok.mp hd
    rw [← (Prod.mk.inj hpair).2]
    exact hne _
  | none =>
    rw [hfield] at h
    obtain ⟨d, hd, hpair⟩ := map_eq_ok.mp h
    obtain ⟨-, rfl⟩ := structuredRequestDigest_eq_ok.mp hd
    rw [← (Prod.mk.inj hpair).2]
    exact hne _

/-- A field that a digest was issued for is valid. -/
theorem validate_of_issued {field : AnswerField} (h : IssuedAs P card context)
    (hfield : card.answerField = some field) : field.validate = .ok () := by
  unfold IssuedAs issuedDigest at h
  rw [hfield] at h
  obtain ⟨d, hd, -⟩ := map_eq_ok.mp h
  exact (valueRequestDigestWithVersion_eq_ok.mp hd).2.1

theorem digestsOf_of_issued (hsigning : card.signing = some context)
    (h : IssuedAs P card context) :
    digestsOf P.toExternals card = .ok (context.requestDigest, context.requestDigest) := by
  unfold digestsOf
  rw [hsigning]
  dsimp only
  rw [recomputedDigest_of_issued h]
  rfl

theorem asserted_of_signing (hsigning : card.signing = some context) :
    assertedRequestDigest card = some context.requestDigest := by
  unfold assertedRequestDigest
  rw [hsigning]
  rfl

theorem checkAnswer_of_allows {optionId : String} {text : Option String} {answer : Option AnswerValue}
    (hissued : IssuedAs P card context) (h : Allows card optionId text answer) :
    checkAnswer card answer = .ok () := by
  have hfits := h.fits
  unfold checkAnswer
  cases hfield : card.answerField with
  | some field =>
    rw [hfield] at hfits
    obtain ⟨value, rfl, hvalue⟩ := hfits
    simp only [bind_eq_ok, orElse_eq_ok]
    exact ⟨(), validate_of_issued hissued hfield, value, rfl, hvalue⟩
  | none =>
    rw [hfield] at hfits
    exact refuseIf_eq_ok.mpr (not_not.mpr hfits)

end

section

variable {r : DecisionRequest} {d : Draft}

/-- Both sides find the same option. -/
theorem chooseOption_of_good (h : d.Good P r) :
    ∃ option : RequestOption, chooseOption r d.optionId = .ok option ∧
      optionFor (deliveredCard P r d.row.userId) d.optionId = .ok ⟨option.id, option.kind⟩ := by
  unfold chooseOption optionFor implicitDismissOption
  have hoffered := h.allows.offered
  rw [options_deliveredCard, answerField_deliveredCard] at hoffered ⊢
  cases hfind : r.options.find? fun option => option.id = d.optionId with
  | some option => exact ⟨option, rfl, rfl⟩
  | none =>
    obtain ⟨option, hmem, hid⟩ | ⟨hfield, hdismiss, hnone⟩ := hoffered
    · have hmissed := List.find?_eq_none.mp hfind option hmem
      exact absurd (decide_eq_true hid) hmissed
    · rw [if_neg (by simp [hfield, hdismiss, hnone, Client.implicitDismissOptionId]),
        if_pos ⟨hfield, hdismiss, hnone⟩]
      exact ⟨_, rfl, rfl⟩

/-- There is a payload for the answer. -/
theorem exists_signedPayload (h : d.Good P r) (digest : String) (option : Client.OptionRef) :
    ∃ payload, signedPayload P.toExternals
      (signingInputOf d.signer d.nonce d.signedAt (d.signing P r) digest option) d.answer =
        .ok payload := by
  unfold signedPayload
  cases hanswer : d.answer with
  | none => exact ⟨_, rfl⟩
  | some value =>
    have hvalue : (deliveredCard P r d.row.userId).answerField ≠ none := by
      intro hnone
      have hfits := h.allows.fits
      rw [hnone, hanswer] at hfits
      cases hfits
    refine ⟨_, mapError_eq_ok.mpr (decisionSigningPayloadV2_eq_ok.mpr ⟨?_, ?_, rfl⟩)⟩
    · exact ⟨d.signedAt.truncMillis, DateTime.parse_toRfc3339Millis d.signedAt h.signedAt,
        DateTime.toRfc3339Millis_truncMillis d.signedAt⟩
    · intro v hv
      unfold signingInputOf at hv
      dsimp only at hv
      rw [← trimmedNotes_eq] at hv
      obtain ⟨u, hu, rfl, -⟩ := trimmedNotes_eq_some.mp hv
      obtain ⟨t, ht, rfl, -⟩ := trimmedNotes_eq_some.mp hu
      rw [Text.trim_trim]
      exact h.allows.notes hvalue t ht

end

/-- The client has signed a draft over a copy of `r`, under `option`. -/
structure Signs (P : Packages) (d : Draft) (r : DecisionRequest) (option : RequestOption)
    (payload : String) (signature : DecisionSignature) : Prop where
  good : d.Good P r
  chosen : chooseOption r d.optionId = .ok option
  issued : ∃ context, r.signing = some context ∧
    IssuedAs P (deliveredCard P r d.row.userId) context ∧
      signature.requestDigest = context.requestDigest
  built : BuildsSignature P.toExternals d.signer d.nonce d.signedAt (d.signing P r) d.answer
    (assertedRequestDigest (deliveredCard P r d.row.userId)) ⟨option.id, option.kind⟩ payload signature

section

variable {r : DecisionRequest} {d : Draft} {option : RequestOption} {payload : String}
  {signature : DecisionSignature}

/-- The client builds a signature for every answer that the copy allows. -/
theorem exists_signs {context : RequestSigningContext} (h : d.Good P r)
    (hkey : ∃ key, d.row.signingPublicKey = some key) (hsigning : r.signing = some context)
    (hissued : IssuedAs P (deliveredCard P r d.row.userId) context) :
    ∃ option payload signature, Signs P d r option payload signature := by
  obtain ⟨option, hchosen, hoffered⟩ := chooseOption_of_good h
  obtain ⟨payload, hpayload⟩ := exists_signedPayload h context.requestDigest ⟨option.id, option.kind⟩
  obtain ⟨key, hkey⟩ := hkey
  obtain ⟨signature, hsigned, -⟩ := h.holds.signs key hkey payload
  have hcopy := (signing_deliveredCard (P := P) r d.row.userId).trans hsigning
  refine ⟨option, payload,
    { payloadVersion := d.answer.map fun _ => valueDecisionPayloadVersion
      keyId := d.signer.keyId, algorithm := d.signer.algorithm, nonce := d.nonce
      signedAt := d.signedAt.toRfc3339Millis, requestDigest := context.requestDigest, signature },
    h, hchosen, ⟨context, hsigning, hissued, rfl⟩, ?_⟩
  exact ⟨checkAnswer_of_allows hissued h.allows, digestsOf_of_issued hcopy hissued,
    ⟨asserted_of_signing hcopy, issued_ne_empty hissued⟩, hoffered, hpayload, hsigned, rfl⟩

theorem Signs.payloadVersion (h : Signs P d r option payload signature) :
    signature.payloadVersion = d.answer.map fun _ => valueDecisionPayloadVersion := by
  rw [h.built.record]

/-- The payload that the client signs is the one that the server expects. -/
theorem Signs.expectedPayload {t : DateTime} (h : Signs P d r option payload signature)
    (ht : t.toRfc3339Millis = d.signedAt.toRfc3339Millis) :
    expectedPayload P r signature d.answer
      (signingInput r option d.row.toDevice (trimmedNotes d.text) signature t.toRfc3339Millis) =
        .ok payload := by
  have hrecord := h.built.record
  have hkeyId : signature.keyId = d.signer.keyId := by rw [hrecord]
  have hnonce : signature.nonce = d.nonce := by rw [hrecord]
  have hsignedAt : signature.signedAt = d.signedAt.toRfc3339Millis := by rw [hrecord]
  have hversion := h.payloadVersion
  have hinput : signingInput r option d.row.toDevice (trimmedNotes d.text) signature
      t.toRfc3339Millis = signingInputOf d.signer d.nonce d.signedAt (d.signing P r)
        signature.requestDigest ⟨option.id, option.kind⟩ := by
    unfold signingInput signingInputOf Draft.signing
    dsimp only
    rw [id_deliveredCard, hkeyId, hnonce, ht, trimmedNotes_eq]
    rfl
  have hcovers := h.built.covers
  rw [← hinput] at hcovers
  have hfits := h.good.allows.fits
  rw [answerField_deliveredCard] at hfits
  unfold Server.expectedPayload
  cases hfield : r.answerField with
  | some field =>
    rw [hfield] at hfits
    obtain ⟨value, hanswer, hvalue⟩ := hfits
    rw [hanswer] at hcovers hversion
    have hpayload := mapError_eq_ok.mp hcovers
    rw [hanswer]
    simp only [bind_eq_ok, refuseIf_eq_ok, orElse_eq_ok, digestError, mapError_eq_ok]
    refine ⟨(), ?_, value, rfl, (), hvalue, hpayload⟩
    rw [not_or, not_not, not_not, hversion, hsignedAt]
    exact ⟨rfl, ht.symm⟩
  | none =>
    rw [hfield] at hfits
    rw [hfits] at hcovers hversion
    simp only [bind_eq_ok, refuseIf_eq_ok, pure_eq_ok]
    refine ⟨(), ?_, Except.ok.inj hcovers⟩
    rw [not_or, not_not, not_not, hversion]
    exact ⟨hfits, rfl⟩

/-- The server accepts the signature on the card that it was made for. -/
theorem Signs.valid (h : Signs P d r option payload signature) (hkeyed : Keyed P d.row) :
    SignatureValid P r option d.row.toDevice (trimmedNotes d.text) signature d.answer payload := by
  have hrecord := h.built.record
  obtain ⟨context, hsigning, hissued, hdigest⟩ := h.issued
  refine ⟨?_, ?_, ?_, ?_, ?_, ?_, ?_⟩
  · rw [hrecord]
    exact h.good.holds.keyId
  · obtain ⟨key, hkey, -⟩ := hkeyed.publicKey
    obtain ⟨made, hsigned, hverifies⟩ := h.good.holds.signs key hkey payload
    rw [Except.ok.inj (h.built.signed.symm.trans hsigned)]
    exact ⟨key, hkey, hverifies⟩
  · show d.row.signingKeyAlgorithm.getD decisionSigningAlgorithm = _
    rw [hkeyed.algorithm, Option.getD_some]
  · rw [hrecord]
    exact h.good.holds.algorithm
  · rw [hrecord]
    exact h.good.nonce
  · obtain ⟨candidates, hcandidates, hmem⟩ := issued_mem_candidates hsigning hissued
    exact ⟨candidates, hcandidates, hdigest ▸ hmem⟩
  · have htrunc := DateTime.toRfc3339Millis_truncMillis d.signedAt
    refine ⟨d.signedAt.truncMillis, ?_, h.expectedPayload htrunc⟩
    rw [hrecord]
    exact DateTime.parse_toRfc3339Millis d.signedAt h.good.signedAt

end

/-! ## The server accepts -/

/-- Only a node that has its name stores requests. -/
def Named (s : Db) : Prop :=
  s.requests.rows ≠ [] → ∃ node, s.integrationMeta.get? "node_id" = some ("node_id", node)

theorem named_call (c : Call) {s : Db} (hs : WellFormed P s) (h : Named s) :
    Named (c.after P s) := by
  intro hstored
  have hkeep : s.requests.rows ≠ [] → ∃ node,
      (c.after P s).integrationMeta.get? "node_id" = some ("node_id", node) := by
    intro hold
    obtain ⟨node, hnode⟩ := h hold
    exact ⟨node, node_call c hs hnode⟩
  by_cases hc : ∃ create : CreateCall, c = create.toCall
  · obtain ⟨create, rfl⟩ := hc
    revert hstored hkeep
    refine Prog.exec_post (R := fun r => r.2.requests.rows ≠ [] → (s.requests.rows ≠ [] → ∃ node,
        r.2.integrationMeta.get? "node_id" = some ("node_id", node)) →
          ∃ node, r.2.integrationMeta.get? "node_id" = some ("node_id", node))
      (transactional_createRequest P create.env create.req create.metadata)
      (fun _ hstored hkeep => hkeep hstored) (fun created s' heval hstored hkeep => ?_) create.faults
    obtain hjoined | ⟨-, -, recipients, node, hcreated⟩ := created_of_eval P heval
    · obtain ⟨idempotency, rfl⟩ := hjoined.rest
      exact hkeep hstored
    · rw [hcreated.rest]
      exact ⟨node, hcreated.named⟩
  · obtain ⟨gone, hdrops⟩ := drops_call c (fun create heq => hc ⟨create, heq⟩) hs
    obtain ⟨row, hrow⟩ := List.exists_mem_of_ne_nil _ hstored
    have hget : (c.after P s).requests.get? row.id ≠ none := by
      rw [Table.get?_of_mem hrow]
      exact Option.some_ne_none row
    obtain ⟨old, hold⟩ := Option.ne_none_iff_exists'.mp ((hdrops.stored row.id).mp hget).1
    exact hkeep (List.ne_nil_of_mem (Table.mem_of_get? hold))

theorem named_run (calls : List Call) : Named (run P calls Db.empty) := by
  induction calls using List.reverseRecOn with
  | nil => exact fun h => absurd rfl h
  | append_singleton calls c ih =>
    rw [run_append]
    exact named_call c (wellFormed_run_empty calls) ih

/-- An answer of a value card never names the placeholder of older clients. -/
theorem optionId_of_allows {s : Db} (hs : WellFormed P s) {r : DecisionRequest}
    {id userId optionId : String} {text : Option String} {answer : Option AnswerValue}
    {field : AnswerField} (hread : readRequest P s id = .ok r) (hfield : r.answerField = some field)
    (hallows : Allows (deliveredCard P r userId) optionId text answer) :
    optionId ≠ "__nod_value_open" := by
  obtain ⟨row, version, digest, hrow, hreads⟩ := (readRequest_eq_ok P).mp hread
  obtain ⟨env, req, creator, -, -, -, hvalid, -, hfrozen, hoptions, -⟩ :=
    (hs.good hrow).1.admitted.accepted
  have hid : row.id = id := Table.key_of_get? hrow
  have hnormal : r.options = normalizeOptions req.options := by
    rw [hreads.request, ← hoptions, ← hid]
    exact options_relatedOf s row.id
  have hreq : req.answerField = some field := by
    have hrowField := congrArg RequestRow.answerField hfrozen
    rw [← hfield, hreads.request]
    exact hrowField.symm
  obtain ⟨option, hmem, hid'⟩ | ⟨hnone, -⟩ := hallows.offered
  · rw [options_deliveredCard, hnormal] at hmem
    obtain ⟨given, hgiven, rfl⟩ := List.mem_map.mp hmem
    rw [normalizeOption_id] at hid'
    unfold validateRequest at hvalid
    obtain ⟨_, hanswerField, -⟩ := bind_eq_ok.mp hvalid
    unfold validateAnswerField at hanswerField
    rw [hreq] at hanswerField
    obtain ⟨_, -, hopen⟩ := bind_eq_ok.mp hanswerField
    rw [refuseIf_eq_ok, not_or] at hopen
    intro hplaceholder
    exact hopen.1 ⟨given, hgiven, Or.inl (hid'.trans hplaceholder)⟩
  · rw [answerField_deliveredCard, hfield] at hnone
    cases hnone

section

variable {s : Db} {r : DecisionRequest} {d : Draft} {option : RequestOption} {payload : String}
  {signature : DecisionSignature} {env : Env}

/-- What the client signs passes the answer policy. -/
theorem Signs.answerPolicy {s : Db} (hs : WellFormed P s) {id : String}
    (hread : readRequest P s id = .ok r) (h : Signs P d r option payload signature) :
    answerPolicy r (submissionOf d.row.toDevice id d.optionId (d.body signature)) = .ok () := by
  have hallows := h.good.allows
  obtain ⟨context, -, hissued, -⟩ := h.issued
  have hversion := h.payloadVersion
  have hfits := hallows.fits
  rw [answerField_deliveredCard] at hfits
  unfold Server.answerPolicy submissionOf Draft.body
  dsimp only
  cases hfield : r.answerField with
  | some field =>
    have hcopy := (answerField_deliveredCard (P := P) r d.row.userId).trans hfield
    have hnotes := hallows.notes (by rw [hcopy]; exact Option.some_ne_none field)
    rw [hfield] at hfits
    obtain ⟨value, hanswer, hvalue⟩ := hfits
    rw [hanswer] at hversion
    rw [hanswer]
    simp only [bind_eq_ok, refuseIf_eq_ok, mapError_eq_ok, orElse_eq_ok]
    refine ⟨(), ?_, (), validate_of_issued hissued hcopy, value, rfl, (), hvalue, (), ?_, ?_⟩
    · intro h
      obtain h | h | h := h
      · exact optionId_of_allows hs hread hfield hallows h
      · cases h
      · exact h rfl
    · intro h
      obtain ⟨t, ht, hlong⟩ := h
      exact absurd (hnotes t ht) (not_le.mpr hlong)
    · rw [not_not]
      exact hversion
  | none =>
    rw [hfield] at hfits
    rw [hfits] at hversion
    rw [refuseIf_eq_ok, not_or, not_not, not_not]
    exact ⟨hfits, hversion⟩

theorem not_isWhitespace_of_isSlugChar {c : Char} (h : isSlugChar c = true) :
    Text.isWhitespace c = false := by
  have hrange : 0x2D ≤ c.toNat ∧ c.toNat ≤ 0x7A := by
    have halnum : c.isAlphanum = (decide (c.val ≥ 'A'.val ∧ c.val ≤ 'Z'.val) ||
        (c.val ≥ 'a'.val && c.val ≤ 'z'.val) || (c.val ≥ '0'.val && c.val ≤ '9'.val)) := rfl
    unfold isSlugChar at h
    simp only [Bool.or_eq_true, beq_iff_eq, halnum, Bool.and_eq_true, decide_eq_true_eq] at h
    have hbounds : ∀ {lo hi : Char}, c.val ≥ lo.val ∧ c.val ≤ hi.val →
        lo.toNat ≤ c.toNat ∧ c.toNat ≤ hi.toNat := by
      intro lo hi h
      exact ⟨UInt32.le_iff_toNat_le.mp h.1, UInt32.le_iff_toNat_le.mp h.2⟩
    obtain ((((h | h) | h) | rfl) | rfl) | rfl := h
    · exact ⟨(by decide : 0x2D ≤ 'A'.toNat).trans (hbounds h).1, (hbounds h).2.trans (by decide)⟩
    · exact ⟨(by decide : 0x2D ≤ 'a'.toNat).trans (hbounds h).1, (hbounds h).2⟩
    · exact ⟨(by decide : 0x2D ≤ '0'.toNat).trans (hbounds h).1, (hbounds h).2.trans (by decide)⟩
    · decide
    · decide
    · decide
  unfold Text.isWhitespace
  simp only [Bool.or_eq_false_iff, Bool.and_eq_false_iff, decide_eq_false_iff_not,
    beq_eq_false_iff_ne]
  omega

theorem hasText_slug {value label : String} (h : validateId value label = .ok ()) :
    hasText (some value) = true := by
  obtain ⟨hne, -, hslug⟩ := validateId_eq_ok.mp h
  have hplain : ∀ c ∈ value.toList, Text.isWhitespace c = false := by
    intro c hc
    exact not_isWhitespace_of_isSlugChar (hslug c hc)
  show decide (Text.trim value ≠ "") = true
  rw [Text.trim_of_not_whitespace hplain]
  exact decide_eq_true hne

/-- A user without a decision in the read has no row. -/
theorem unanswered_of_read {userId id : String} (hread : readRequest P s id = .ok r)
    (h : ∀ d ∈ r.userDecisions, d.userId ≠ userId) : s.userDecisions.get? (id, userId) = none := by
  by_contra htaken
  obtain ⟨taken, htaken⟩ := Option.ne_none_iff_exists'.mp htaken
  have hkey : taken.key = (id, userId) := Table.key_of_get? htaken
  obtain ⟨hid, howner⟩ := Prod.mk.inj hkey
  have hlisted : (taken.userId, taken.decision) ∈ s.answersOf id := List.mem_map.mpr
    ⟨taken, List.mem_filter.mpr ⟨Table.mem_of_get? htaken, decide_eq_true hid⟩, rfl⟩
  obtain ⟨_, _, _, -, hreads⟩ := (readRequest_eq_ok P).mp hread
  have hdecisions : r.userDecisions = (s.relatedOf id).decisions := by
    rw [hreads.request]
    rfl
  refine h ⟨taken.userId, taken.decision⟩ ?_ howner
  rw [hdecisions]
  exact mem_decisions_relatedOf.mpr hlisted

/-- The device of a draft is enrolled and not revoked. -/
structure Enrolled (s : Db) (row : DeviceRow) : Prop where
  stored : s.devices.get? row.id = some row
  active : row.revokedAt = none

/-- The server accepts what the client has signed, at every later moment at which it can. -/
theorem Signs.accepted {current : DecisionRequest} (h : Signs P d r option payload signature)
    (hs : WellFormed P s) (hnamed : Named s) (henrolled : Enrolled s d.row)
    (hread : readRequest P s r.id = .ok current) (hopen : OpenFor current d.row.userId)
    (hsame : current.issued = r.issued)
    (hpolicy : Server.answerPolicy r
      (submissionOf d.row.toDevice r.id d.optionId (d.body signature)) = .ok ())
    (hready : Ready env s) (hunexpired : ∀ t ∈ r.expiresAt, ¬ t ≤ env.now 0)
    (hfree : s.nonces.get? (d.row.id, d.signer.keyId, d.nonce) = none) :
    ∃ result, Prog.eval databaseError (recordDecision P env
      (submissionOf d.row.toDevice r.id d.optionId (d.body signature))) s = .ok result := by
  have hkeyed := hs.keyed d.row (Table.mem_of_get? henrolled.stored)
  have hexpires : current.expiresAt = r.expiresAt := by
    have hexpires := congrArg DecisionRequest.expiresAt hsame
    exact hexpires
  have hchecked : Checked P env
      (submissionOf d.row.toDevice r.id d.optionId (d.body signature)) s current option := by
    refine ⟨hread, answerPolicy_issued hsame hpolicy, ?_, ?_, ?_,
      chooseOption_issued hsame h.chosen, hopen.pending⟩
    · intro device hdevice
      obtain rfl := Option.some.inj hdevice
      show deviceActive d.row.id s = true
      unfold deviceActive
      rw [henrolled.stored]
      exact decide_eq_true henrolled.active
    · intro userId huser
      obtain rfl := Option.some.inj huser
      exact hopen.recipient
    · rw [hexpires]
      exact hunexpired
  have hsigned : WellSigned P
      (submissionOf d.row.toDevice r.id d.optionId (d.body signature)) current option s
        d.row.toDevice signature payload := by
    refine ⟨rfl, rfl, ?_, ?_, (h.valid hkeyed).issued hsame, ?_⟩
    · obtain ⟨key, hkey, htext, -⟩ := hkeyed.publicKey
      show hasText d.row.signingPublicKey = true
      rw [hkey]
      exact decide_eq_true htext
    · obtain ⟨keyId, label, hkey, hslug⟩ := hkeyed.keyId
      show hasText d.row.signingKeyId = true
      rw [hkey]
      exact hasText_slug hslug
    · show s.devices.get? d.row.id ≠ none
      rw [henrolled.stored]
      exact Option.some_ne_none d.row
  have hunused : s.nonces.get? (d.row.toDevice.id, signature.keyId, signature.nonce) = none := by
    rw [h.built.record]
    exact hfree
  obtain ⟨stored, -, -, hstored, -⟩ := (readRequest_eq_ok P).mp hread
  obtain ⟨node, hnode⟩ := hnamed (List.ne_nil_of_mem (Table.mem_of_get? hstored))
  exact exists_recorded hs hready hchecked hsigned hunused
    (fun _ => ⟨d.row.userId, rfl, unanswered_of_read hread hopen.unanswered⟩) hnode

end

/-- A stored decision says what the user answered. -/
structure Says (decision : Decision) (d : Draft) : Prop where
  option : decision.optionId = d.optionId
  answer : decision.answerValue = d.answer
  notes : decision.text = trimmedNotes d.text
  user : decision.actorUserId = some d.row.userId
  device : decision.actorDeviceId = some d.row.id

/-- What an accepted submission says is in the store. -/
theorem says_of_eval {s s' : Db} {env : Env} {d : Draft} {id : String}
    {signature : DecisionSignature} {r : DecisionRequest}
    (h : Prog.eval databaseError (recordDecision P env
      (submissionOf d.row.toDevice id d.optionId (d.body signature))) s = .ok (r, s')) :
    ∃ decision ∈ s'.storedDecisions id, Says decision d := by
  obtain ⟨request, option, record, signed, hchecked, -, hmem⟩ := stored_of_eval h
  exact ⟨_, hmem, id_of_chooseOption hchecked.option, rfl, rfl, rfl, rfl⟩

/-! ## From the copy to the answer -/

/-- A card reaches a user as one copy, over HTTP and live, and the client finds its digest again. -/
structure Delivered (P : Packages) (times : String → Option DateTime) (shown : DecisionRequest)
    (userId : String) : Prop where
  live : liveRequest P shown userId = httpRequest P shown userId
  copy : (Json.parse (httpRequest P shown userId).text).bind (Request.ofJson times) =
    some (deliveredCard P shown userId)
  digest : ∃ digest, assertedRequestDigest (deliveredCard P shown userId) = some digest ∧
    digestsOf P.toExternals (deliveredCard P shown userId) = .ok (digest, digest)

theorem delivered_of_open {times : String → Option DateTime} (htimes : ReadsTimes times)
    {calls : List Call} {shown : DecisionRequest} {userId : String}
    (hshown : readRequest P (run P calls Db.empty) shown.id = .ok shown)
    (hopen : OpenFor shown userId) : Delivered P times shown userId := by
  have hs := wellFormed_run_empty (P := P) calls
  have hl := legible_run_empty (P := P) calls
  obtain ⟨context, hsigning, hissued⟩ := issued_of_read hshown userId
  have hcopy := (signing_deliveredCard (P := P) shown userId).trans hsigning
  have hdated := dated_of_open hs hl (stamped_run_empty calls) hshown hopen
  exact ⟨liveRequest_eq_httpRequest P (wellKept_of_read P hs hshown) hopen.recipient,
    Request.parse_text htimes hdated,
    ⟨context.requestDigest, asserted_of_signing hcopy, digestsOf_of_issued hcopy hissued⟩⟩

/-- What a copy of a card is good for: `shown` is the card when it was read for the user of `row`,
    and `s` is the database that the answer comes to. -/
structure Answerable (P : Packages) (times : String → Option DateTime) (shown : DecisionRequest)
    (row : DeviceRow) (s : Db) : Prop extends Delivered P times shown row.userId where
  answer : ∀ d : Draft, d.row = row → d.Good P shown → ∃ signature,
    d.build P shown = .ok signature ∧
    (Json.parse (d.body signature).toJson.text).bind SubmitDecisionRequest.ofJson =
      some (d.body signature) ∧
    ∀ env, Ready env s → (∀ t ∈ shown.expiresAt, ¬ t ≤ env.now 0) →
      s.nonces.get? (row.id, d.signer.keyId, d.nonce) = none → ∃ r s',
        (SubmitCall.mk env (submissionOf row.toDevice shown.id d.optionId (d.body signature)) []).exec
          P s = (.ok r, s') ∧ ∃ decision ∈ s'.storedDecisions shown.id, Says decision d

section

variable {calls more : List Call} {shown current : DecisionRequest} {d : Draft}

/-- What a device signs over a copy is stored while the card stays open, any calls in between. -/
theorem exists_answer (hshown : readRequest P (run P calls Db.empty) shown.id = .ok shown)
    (hcurrent : readRequest P (run P (calls ++ more) Db.empty) shown.id = .ok current)
    (hstill : OpenFor current d.row.userId) (henrolled : Enrolled (run P (calls ++ more) Db.empty) d.row)
    (hgood : d.Good P shown) : ∃ signature,
      d.build P shown = .ok signature ∧
      (Json.parse (d.body signature).toJson.text).bind SubmitDecisionRequest.ofJson =
        some (d.body signature) ∧
      ∀ env, Ready env (run P (calls ++ more) Db.empty) → (∀ t ∈ shown.expiresAt, ¬ t ≤ env.now 0) →
        (run P (calls ++ more) Db.empty).nonces.get? (d.row.id, d.signer.keyId, d.nonce) = none →
          ∃ r s', (SubmitCall.mk env (submissionOf d.row.toDevice shown.id d.optionId
              (d.body signature)) []).exec P (run P (calls ++ more) Db.empty) = (.ok r, s') ∧
            ∃ decision ∈ s'.storedDecisions shown.id, Says decision d := by
  have hs := wellFormed_run_empty (P := P) calls
  obtain ⟨context, hsigning, hissued⟩ := issued_of_read hshown d.row.userId
  have hs' := wellFormed_run_empty (P := P) (calls ++ more)
  obtain ⟨key, hkey, -⟩ := (hs'.keyed d.row (Table.mem_of_get? henrolled.stored)).publicKey
  obtain ⟨option, payload, signature, hsigns⟩ := exists_signs hgood ⟨key, hkey⟩ hsigning hissued
  have hsame : current.issued = shown.issued := by
    rw [run_append] at hcurrent
    exact issued_run hs more hshown hcurrent
  refine ⟨signature, Client.buildValueDecisionSignature_eq_ok.mpr ⟨_, _, hsigns.built⟩,
    SubmitDecisionRequest.parse_text _, ?_⟩
  intro env hready hunexpired hfree
  obtain ⟨⟨r, s'⟩, heval⟩ := hsigns.accepted hs' (named_run _) henrolled hcurrent hstill hsame
    (hsigns.answerPolicy hs hshown) hready hunexpired hfree
  exact ⟨r, s', Prog.exec_nil_of_eval (transactional_recordDecision P env _) heval,
    says_of_eval heval⟩

end

/-- Every copy of an open card can be answered while the card stays open, any calls in between. -/
def SignsEndToEnd (P : Packages) (times : String → Option DateTime) (calls : List Call) : Prop :=
  ∀ shown current row more, readRequest P (run P calls Db.empty) shown.id = .ok shown →
    OpenFor shown row.userId →
    readRequest P (run P (calls ++ more) Db.empty) shown.id = .ok current →
    OpenFor current row.userId → Enrolled (run P (calls ++ more) Db.empty) row →
    Answerable P times shown row (run P (calls ++ more) Db.empty)

theorem signs_end_to_end {times : String → Option DateTime} (htimes : ReadsTimes times)
    (calls : List Call) : SignsEndToEnd P times calls := by
  intro shown current row more hshown hopen hcurrent hstill henrolled
  refine ⟨delivered_of_open htimes hshown hopen, fun d hd hgood => ?_⟩
  obtain rfl := hd
  exact exists_answer hshown hcurrent hstill henrolled hgood

/-! ## The two clocks -/

/-- An answer that the card allows, with a nonce of its own, on its way to the server. -/
structure Presented (P : Packages) (d : Draft) (shown : DecisionRequest) (env : Env) (s : Db) :
    Prop where
  allows : Allows (deliveredCard P shown d.row.userId) d.optionId d.text d.answer
  holds : Holds P d.row d.signer
  nonce : isUuid d.nonce = true
  unused : s.nonces.get? (d.row.id, d.signer.keyId, d.nonce) = none
  unexpired : ∀ t ∈ shown.expiresAt, ¬ t ≤ env.now 0
  event : s.events.get? (env.newId 0) = none

/-- The client signs the answer, and the server takes what it has signed. -/
def AnswerTaken (P : Packages) (d : Draft) (shown : DecisionRequest) (env : Env) (s : Db) : Prop :=
  ∃ signature r s', d.build P shown = .ok signature ∧
    (SubmitCall.mk env (submissionOf d.row.toDevice shown.id d.optionId (d.body signature)) []).exec
      P s = (.ok r, s')

/-- The times of an accepted answer can be read back: the client's and the server's own. -/
theorem years_of_taken {shown : DecisionRequest} {d : Draft} {env : Env} {s : Db}
    (h : AnswerTaken P d shown env s) : d.signedAt.FourDigitYear ∧ (env.now 1).FourDigitYear := by
  obtain ⟨built, r, s', hbuild, hexec⟩ := h
  obtain ⟨option, payload, hbuilt⟩ := Client.buildValueDecisionSignature_eq_ok.mp hbuild
  have hsignedAt : built.signedAt = d.signedAt.toRfc3339Millis := by rw [hbuilt.record]
  have heval := Prog.exec_ok (transactional_recordDecision P env _) hexec
  obtain ⟨request, chosen, signature, signed, stored, row, node, hchecked, hsigned, hstored, hread, -⟩ :=
    recorded_of_eval P heval
  constructor
  · cases hsigned with
    | internal hnone _ => cases hnone
    | device actor provided payload nonces hactor hprovided _ _ hvalid _ _ =>
      obtain rfl := Option.some.inj hprovided
      obtain ⟨t, ht, -⟩ := hvalid.signedAt
      rw [hsignedAt] at ht
      exact (DateTime.parse_toRfc3339Millis_eq_some ht).1
  · obtain ⟨old, version, digest, hold, hreads⟩ := (readRequest_eq_ok P).mp hchecked.read
    have hrow : signed.requests.get? shown.id = some old := by
      rw [hsigned.rest]
      exact hold
    obtain ⟨t, ht, -, htext⟩ :=
      isStamp_of_stored hstored hrow (hreads.status ▸ hchecked.pending) hread
    have hparse := DateTime.parse_toRfc3339Millis t ht
    rw [← htext] at hparse
    exact (DateTime.parse_toRfc3339Millis_eq_some hparse).1

theorem good_of_presented {shown : DecisionRequest} {d : Draft} {env : Env} {s : Db}
    (h : Presented P d shown env s) (hyear : d.signedAt.FourDigitYear) : d.Good P shown := by
  have hslug := validateId_of_isUuid h.nonce "nonce"
  have htext := of_decide_eq_true (hasText_slug hslug)
  obtain ⟨hlength, hascii⟩ := isAscii_of_isUuid h.nonce
  refine ⟨h.allows, h.holds, ⟨htext, ?_⟩, hyear⟩
  rw [Text.utf8ByteSize_of_ascii hascii, hlength]
  decide

/-- What a copy of a card is good for, and under which clocks: `s` is the database that the answer
    comes to. -/
structure DecidedByClocks (P : Packages) (times : String → Option DateTime) (shown : DecisionRequest)
    (row : DeviceRow) (s : Db) : Prop extends Delivered P times shown row.userId where
  taken : ∀ d env, d.row = row → Presented P d shown env s →
    (AnswerTaken P d shown env s ↔ d.signedAt.FourDigitYear ∧ (env.now 1).FourDigitYear)

/-- Every copy of an open card reaches its user and recomputes, and every answer to it is accepted
    when both clocks read a year of four digits, and only then. -/
def SigningWorks (P : Packages) : Prop :=
  ∀ times, ReadsTimes times → ∀ (calls more : List Call) (shown current : DecisionRequest) row,
    readRequest P (run P calls Db.empty) shown.id = .ok shown → OpenFor shown row.userId →
    readRequest P (run P (calls ++ more) Db.empty) shown.id = .ok current →
    OpenFor current row.userId → Enrolled (run P (calls ++ more) Db.empty) row →
    DecidedByClocks P times shown row (run P (calls ++ more) Db.empty)

theorem signing_works (P : Packages) : SigningWorks P := by
  intro times htimes calls more shown current row hshown hopen hcurrent hstill henrolled
  refine ⟨delivered_of_open htimes hshown hopen, fun d env hd hpresented => ?_⟩
  obtain rfl := hd
  constructor
  · exact years_of_taken
  · intro hyears
    obtain ⟨hsigned, hresolved⟩ := hyears
    obtain ⟨signature, hbuild, -, htaken⟩ := exists_answer hshown hcurrent hstill henrolled
      (good_of_presented hpresented hsigned)
    obtain ⟨r, s', hexec, -⟩ := htaken env ⟨hpresented.event, hresolved⟩ hpresented.unexpired
      hpresented.unused
    exact ⟨signature, r, s', hbuild, hexec⟩

/-! ## A card that is answered -/

/-- The owner's phone is enrolled. -/
def phoneCalls : List Call :=
  [open_ codeEnv, ⟨.admin (.createEnrollmentCode codeEnv "owner" none), []⟩,
    ⟨.admin (.enrollDevice codeEnv phoneRequest), []⟩]

def phoneSigner : DeviceSigner where
  keyId := "phone-key"
  algorithm := decisionSigningAlgorithm
  sign payload := .ok (Concrete.urlSafeEncode (Concrete.hashSignature payload))

/-- A value card for the owner. -/
def scaleCreate : CreateCall where
  env := sampleEnv
  req :=
    { sampleRequest with
      answerField := some (.number "Replicas" (.number "3"))
      options := [⟨"scale", "Scale", .approve, "default", false, none, false, false⟩] }
  metadata := ⟨none, none, none⟩
  faults := []

def scaleCalls : List Call := phoneCalls ++ [scaleCreate.toCall]

/-- The owner's answer to it. -/
def scaleDraft (row : DeviceRow) : Draft where
  row := row
  signer := phoneSigner
  nonce := "4be0c5a2-93d1-4c77-8a0e-5f1d2c3b4a69"
  signedAt := sampleTime
  optionId := "scale"
  text := some "Four will do."
  answer := some (.number "4")

/-- The enrolled phone is the owner's, and nothing else has been made. -/
structure PhoneEnrolled (s : Db) (row : DeviceRow) : Prop where
  quiet : Quiet signerPackages (opened codeEnv) s
  subscribed : subscribers "default" s = ["owner"]
  enrolled : Enrolled s row
  owner : row.userId = "owner"
  keyId : row.signingKeyId = some "phone-key"
  publicKey : row.signingPublicKey = some Concrete.publicKey

theorem phone_enrolled : ∃ row, PhoneEnrolled (run signerPackages phoneCalls Db.empty) row := by
  have hfacts : ((run signerPackages phoneCalls Db.empty).devices.get? (codeEnv.newId 0)).any
      (fun d => d.userId = "owner" && d.revokedAt = none && d.signingKeyId = some "phone-key" &&
        d.signingPublicKey = some Concrete.publicKey) = true ∧
      subscribers "default" (run signerPackages phoneCalls Db.empty) = ["owner"] := by
    decide +kernel
  obtain ⟨hfound, hsubscribed⟩ := hfacts
  obtain ⟨row, hrow, hfields⟩ := (Option.any_eq_true _ _).mp hfound
  simp only [Bool.and_eq_true, decide_eq_true_eq] at hfields
  obtain ⟨⟨⟨howner, hactive⟩, hkey⟩, hpublic⟩ := hfields
  have hid : row.id = codeEnv.newId 0 := Table.key_of_get? hrow
  have hquiet := quiet_trans signerPackages
    (quiet_admin signerPackages (.createEnrollmentCode codeEnv "owner" none) [] (opened codeEnv))
    (quiet_admin signerPackages (.enrollDevice codeEnv phoneRequest) [] _)
  exact ⟨row, hquiet, hsubscribed, ⟨hid ▸ hrow, hactive⟩, howner, hkey, hpublic⟩

theorem holds_phoneSigner {row : DeviceRow} (hkey : row.signingKeyId = some "phone-key")
    (hpublic : row.signingPublicKey = some Concrete.publicKey) :
    Holds signerPackages row phoneSigner := by
  refine ⟨hkey, rfl, fun key heq payload => ?_⟩
  obtain rfl := Option.some.inj (hpublic.symm.trans heq)
  exact ⟨_, rfl, Concrete.verifyPayload_hashPackages payload⟩

/-- What the create makes of the value card. -/
theorem scale_created {s : Db} {row : DeviceRow} (hs : Tables signerPackages s)
    (h : PhoneEnrolled s row) : ∃ shown s', scaleCreate.toCall.after signerPackages s = s' ∧
      readRequest signerPackages s' shown.id = .ok shown ∧ OpenFor shown row.userId ∧
      Enrolled s' row ∧ (scaleDraft row).Good signerPackages shown ∧ Ready sampleEnv s' ∧
      shown.expiresAt = none ∧ s'.nonces = s.nonces := by
  have hpasses : ∃ fingerprint,
      Passes signerPackages scaleCreate.req scaleCreate.metadata fingerprint :=
    ⟨_, by rfl, by rfl, by rfl, requestFingerprint_none.mpr rfl⟩
  obtain ⟨fingerprint, hpasses⟩ := hpasses
  have haccepting : Accepting sampleEnv scaleCreate.req scaleCreate.metadata s :=
    accepting_quiet codeEnv sampleEnv h.quiet rfl rfl rfl (by decide)
      fun t ht => absurd ht (Option.not_mem_none t)
  obtain ⟨created, s', node, hexec, -, hcreated⟩ := exists_created hs haccepting hpasses
  obtain ⟨version, digest, hreads⟩ := hcreated.reads hs
  have hshown : created.request.id = sampleEnv.newId 0 :=
    id_of_readRequest signerPackages hcreated.read
  have hfield : created.request.answerField = some (.number "Replicas" (.number "3")) := by
    rw [hreads.request]
    rfl
  have hoptions : created.request.options = normalizeOptions scaleCreate.req.options := by
    rw [hreads.request]
    rfl
  refine ⟨created.request, s', congrArg Prod.snd hexec, ?_, ⟨hreads.status, ?_, ?_⟩,
    ⟨?_, h.enrolled.active⟩, ⟨⟨Or.inl ?_, ?_, ?_⟩, ?_, ?_, ?_⟩, ⟨?_, by decide⟩, ?_, ?_⟩
  · rw [hshown]
    exact hcreated.read
  · rw [hreads.recipients, h.owner]
    show "owner" ∈ subscribers "default" s
    rw [h.subscribed]
    exact List.mem_cons_self
  · rw [hreads.request]
    exact fun d hd => absurd hd List.not_mem_nil
  · rw [hcreated.rest]
    exact h.enrolled.stored
  · rw [options_deliveredCard, hoptions]
    exact ⟨_, List.mem_cons_self, rfl⟩
  · rw [answerField_deliveredCard, hfield]
    exact ⟨_, rfl, by decide⟩
  · intro _ t ht
    obtain rfl := Option.some.inj ht
    decide
  · exact holds_phoneSigner h.keyId h.publicKey
  · have hnonce : Text.trim "4be0c5a2-93d1-4c77-8a0e-5f1d2c3b4a69" ≠ "" ∧
        "4be0c5a2-93d1-4c77-8a0e-5f1d2c3b4a69".utf8ByteSize ≤ 160 := by decide
    exact hnonce
  · have hsigned : sampleTime.FourDigitYear := by decide
    exact hsigned
  · obtain ⟨origin, hevents⟩ := hcreated.event
    refine Table.get?_eq_none.mpr ?_
    rw [hevents, h.quiet.events]
    show sampleEnv.newId 0 ∉ [sampleEnv.newId 1]
    decide
  · have hexpires := hreads.expiresAt
    cases hnone : created.request.expiresAt with
    | none => rfl
    | some t =>
      rw [hnone] at hexpires
      cases hexpires
  · rw [hcreated.rest]

/-- The value card is stored and open, and the phone can sign for it. -/
theorem scale_stored : ∃ shown row,
    readRequest signerPackages (run signerPackages scaleCalls Db.empty) shown.id = .ok shown ∧
      OpenFor shown row.userId ∧ Enrolled (run signerPackages scaleCalls Db.empty) row ∧
      (scaleDraft row).Good signerPackages shown ∧
      Presented signerPackages (scaleDraft row) shown sampleEnv
        (run signerPackages scaleCalls Db.empty) := by
  obtain ⟨row, hphone⟩ := phone_enrolled
  obtain ⟨shown, s', hafter, hread, hopen, henrolled, hgood, hready, hnever, hnonces⟩ :=
    scale_created (wellFormed_run_empty phoneCalls).toTables hphone
  have hcalls : run signerPackages scaleCalls Db.empty = s' := by
    rw [scaleCalls, run_append, run_cons, run_nil, hafter]
  rw [hcalls]
  refine ⟨shown, row, hread, hopen, henrolled, hgood, hgood.allows, hgood.holds, ?_, ?_, ?_,
    hready.event⟩
  · have hnonce : isUuid "4be0c5a2-93d1-4c77-8a0e-5f1d2c3b4a69" = true := by decide
    exact hnonce
  · rw [hnonces, hphone.quiet.nonces]
    rfl
  · rw [hnever]
    exact fun t ht => absurd ht (Option.not_mem_none t)

/-- An answer that is signed by a clock past the year 9999 is not accepted. -/
theorem late_answer_refused : ∃ shown row,
    readRequest signerPackages (run signerPackages scaleCalls Db.empty) shown.id = .ok shown ∧
      OpenFor shown row.userId ∧ Enrolled (run signerPackages scaleCalls Db.empty) row ∧
      Presented signerPackages { scaleDraft row with signedAt := yearTenThousand } shown sampleEnv
        (run signerPackages scaleCalls Db.empty) ∧
      ¬ AnswerTaken signerPackages { scaleDraft row with signedAt := yearTenThousand } shown
        sampleEnv (run signerPackages scaleCalls Db.empty) := by
  obtain ⟨shown, row, hread, hopen, henrolled, -, hpresented⟩ := scale_stored
  refine ⟨shown, row, hread, hopen, henrolled, ⟨hpresented.allows, hpresented.holds,
    hpresented.nonce, hpresented.unused, hpresented.unexpired, hpresented.event⟩, ?_⟩
  intro htaken
  have hyear : ¬ yearTenThousand.FourDigitYear := by decide
  exact hyear (years_of_taken htaken).1

theorem signing_works_sample : ∃ shown row, AnswerTaken signerPackages (scaleDraft row) shown
    sampleEnv (run signerPackages scaleCalls Db.empty) := by
  obtain ⟨shown, row, hread, hopen, henrolled, -, hpresented⟩ := scale_stored
  have hworks := signing_works signerPackages DateTime.parseFromRfc3339 readsTimes_rfc3339 scaleCalls []
    shown shown row
  rw [List.append_nil] at hworks
  have hsigned : sampleTime.FourDigitYear := by decide
  have hresolved : (sampleEnv.now 1).FourDigitYear := by decide
  exact ⟨shown, row, ((hworks hread hopen hread hopen henrolled).taken (scaleDraft row) sampleEnv rfl
    hpresented).mpr ⟨hsigned, hresolved⟩⟩

/-- The phone signs its owner's answer to a stored card, and the answer is stored. -/
theorem signs_end_to_end_sample : ∃ shown row signature r s',
    readRequest signerPackages (run signerPackages scaleCalls Db.empty) shown.id = .ok shown ∧
      OpenFor shown row.userId ∧ Enrolled (run signerPackages scaleCalls Db.empty) row ∧
      (scaleDraft row).Good signerPackages shown ∧
      (scaleDraft row).build signerPackages shown = .ok signature ∧
      (SubmitCall.mk sampleEnv (submissionOf row.toDevice shown.id "scale"
        ((scaleDraft row).body signature)) []).exec signerPackages
          (run signerPackages scaleCalls Db.empty) = (.ok r, s') ∧
      ∃ decision ∈ s'.storedDecisions shown.id, Says decision (scaleDraft row) := by
  obtain ⟨shown, row, hread, hopen, henrolled, hgood, hpresented⟩ := scale_stored
  have hend := signs_end_to_end (P := signerPackages) readsTimes_rfc3339 scaleCalls shown shown row []
  rw [List.append_nil] at hend
  obtain ⟨signature, hbuild, -, hsubmit⟩ :=
    (hend hread hopen hread hopen henrolled).answer (scaleDraft row) rfl hgood
  have hresolved : (sampleEnv.now 1).FourDigitYear := by decide
  obtain ⟨r, last, hok, hsays⟩ := hsubmit sampleEnv ⟨hpresented.event, hresolved⟩
    hpresented.unexpired hpresented.unused
  exact ⟨shown, row, signature, r, last, hread, hopen, henrolled, hgood, hbuild, hok, hsays⟩

end Nod.Server
