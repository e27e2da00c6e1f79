import Nod.Proto.Preimages
import Nod.Server.LegacyProjection

/-
  What a decision payload says. The ordinary payload is a list of lines with one free field, the
  nonce, which may hold line breaks and lines that look like the next ones; the value payload is
  one canonical JSON text.
  Proved: on values the server accepts an ordinary payload names every field, read from both
  ends, up to the hash of its text; a value payload names every field, its trimmed text and its
  answer; the two share no text (`payloads_injective`). So two signatures the server has accepted
  over the same bytes are for the same decision.
-/

namespace Nod.Server

open Lib Nod.Proto

variable {P : Packages}

/-! ## Inputs the server accepts -/

/-- Ids that `validateId` has let through. -/
structure ValidIds (input : DecisionSigningInput) : Prop where
  requestId : ∃ label, validateId input.requestId label = .ok ()
  optionId : ∃ label, validateId input.optionId label = .ok ()
  userId : ∃ label, validateId input.userId label = .ok ()
  deviceId : ∃ label, validateId input.deviceId label = .ok ()
  keyId : ∃ label, validateId input.keyId label = .ok ()

/-- Valid ids, a hash and a canonical time; nonce and text are any text. -/
structure AcceptedInput (input : DecisionSigningInput) : Prop where
  ids : ValidIds input
  digest : ∀ c ∈ input.requestDigest.toList, Text.isLowerHex c = true
  signedAt : ∃ t : DateTime, input.signedAt = t.toRfc3339Millis

/-- The fields of two payloads but for their texts. -/
structure SameFields (a b : DecisionSigningInput) : Prop where
  requestId : a.requestId = b.requestId
  requestDigest : a.requestDigest = b.requestDigest
  optionId : a.optionId = b.optionId
  optionKind : a.optionKind = b.optionKind
  userId : a.userId = b.userId
  deviceId : a.deviceId = b.deviceId
  keyId : a.keyId = b.keyId
  nonce : a.nonce = b.nonce
  signedAt : a.signedAt = b.signedAt

/-! ## The ordinary payload -/

/-- The lines before the nonce. -/
def linesBefore (input : DecisionSigningInput) : List String :=
  [decisionPayloadVersion, "request_id:" ++ input.requestId,
    "request_digest:" ++ input.requestDigest, "option_id:" ++ input.optionId,
    "option_kind:" ++ input.optionKind.asStr, "user_id:" ++ input.userId,
    "device_id:" ++ input.deviceId, "key_id:" ++ input.keyId]

/-- The lines after the nonce. -/
def linesAfter (E : Externals) (input : DecisionSigningInput) : List String :=
  ["signed_at:" ++ input.signedAt, "text_sha256:" ++ E.sha256Hex (input.text.getD ""), ""]

theorem decisionSigningPayload_eq (E : Externals) (input : DecisionSigningInput) :
    decisionSigningPayload E input = (String.singleton '\n').intercalate
      (linesBefore input ++ ("nonce:" ++ input.nonce) :: linesAfter E input) := rfl

theorem free_id {id : String} (h : ∃ label, validateId id label = .ok ()) :
    Text.Free '\n' id := by
  obtain ⟨label, hid⟩ := h
  exact free_of_validateId hid (by decide)

theorem free_asStr (kind : OptionKind) : Text.Free '\n' kind.asStr := by
  cases kind <;> decide

theorem free_linesBefore {input : DecisionSigningInput} (h : AcceptedInput input) :
    ∀ line ∈ linesBefore input, Text.Free '\n' line := by
  have hfield : ∀ name value : String, Text.Free '\n' name → Text.Free '\n' value →
      Text.Free '\n' (name ++ value) := fun _ _ hn hv => Text.free_append.mpr ⟨hn, hv⟩
  have hdigest : Text.Free '\n' input.requestDigest := Text.free_of_all h.digest (by decide)
  unfold linesBefore
  simp only [List.forall_mem_cons, List.not_mem_nil, false_implies, implies_true, and_true]
  exact ⟨by decide, hfield _ _ (by decide) (free_id h.ids.requestId),
    hfield _ _ (by decide) hdigest, hfield _ _ (by decide) (free_id h.ids.optionId),
    hfield _ _ (by decide) (free_asStr _), hfield _ _ (by decide) (free_id h.ids.userId),
    hfield _ _ (by decide) (free_id h.ids.deviceId), hfield _ _ (by decide) (free_id h.ids.keyId)⟩

theorem free_linesAfter (E : Externals) {input : DecisionSigningInput} (h : AcceptedInput input) :
    ∀ line ∈ linesAfter E input, Text.Free '\n' line := by
  obtain ⟨t, ht⟩ := h.signedAt
  unfold linesAfter
  simp only [List.forall_mem_cons, List.not_mem_nil, false_implies, implies_true, and_true]
  refine ⟨Text.free_append.mpr ⟨by decide, ?_⟩,
    Text.free_append.mpr ⟨by decide, free_sha256Hex E _⟩, by decide⟩
  rw [ht]
  exact t.free_toRfc3339Millis

/-- The ordinary payload is read from both ends: the nonce is what is left in between. -/
theorem decisionSigningPayload_inj {E : Externals} {a b : DecisionSigningInput}
    (ha : AcceptedInput a) (hb : AcceptedInput b)
    (h : decisionSigningPayload E a = decisionSigningPayload E b) :
    SameFields a b ∧ E.sha256Hex (a.text.getD "") = E.sha256Hex (b.text.getD "") := by
  rw [decisionSigningPayload_eq, decisionSigningPayload_eq] at h
  obtain ⟨hbefore, hnonce, hafter⟩ := Text.joinOn_ends_inj (free_linesBefore ha)
    (free_linesBefore hb) (free_linesAfter E ha) (free_linesAfter E hb) rfl rfl h
  simp only [linesBefore, linesAfter, List.cons.injEq, String.append_right_inj, true_and,
    and_true] at hbefore hafter hnonce
  obtain ⟨hrequest, hdigest, hoption, hkind, huser, hdevice, hkey⟩ := hbefore
  exact ⟨⟨hrequest, hdigest, hoption, OptionKind.asStr_inj hkind, huser, hdevice, hkey, hnonce,
    hafter.1⟩, hafter.2⟩

/-! ## The value payload -/

theorem valuePayloadText_inj {a b : DecisionSigningInput} {x y : AnswerValue}
    (h : valuePayloadText a x = valuePayloadText b y) :
    SameFields a b ∧ trimmedNotes a.text = trimmedNotes b.text ∧ x = y := by
  unfold valuePayloadText at h
  obtain ⟨-, hsorted⟩ := tagged_inj (by decide) (by decide) (plain_decisionContent a x).1
    (plain_decisionContent b y).1 h
  unfold decisionContent at hsorted
  have hkeys : ["request_id", "request_digest", "option_id", "option_kind", "user_id", "device_id",
      "key_id", "nonce", "signed_at", "text", "answer_value"].Nodup := by decide
  have hsorted := (Json.sorted_obj_eq_iff (by exact hkeys) (by exact hkeys)).mp hsorted
  have hstr : ∀ (k s t : String), Option.map Json.sorted (some (.str s)) =
      Option.map Json.sorted (some (.str t)) → s = t :=
    fun _ _ _ hst => Json.str.inj (Option.some.inj hst)
  have hnotes : Json.sorted (JsonOf.optStr (trimmedNotes a.text)) =
      Json.sorted (JsonOf.optStr (trimmedNotes b.text)) := Option.some.inj (hsorted "text")
  rw [sorted_optStr, sorted_optStr] at hnotes
  exact ⟨⟨hstr "request_id" _ _ (hsorted "request_id"),
    hstr "request_digest" _ _ (hsorted "request_digest"),
    hstr "option_id" _ _ (hsorted "option_id"),
    OptionKind.asStr_inj (hstr "option_kind" _ _ (hsorted "option_kind")),
    hstr "user_id" _ _ (hsorted "user_id"), hstr "device_id" _ _ (hsorted "device_id"),
    hstr "key_id" _ _ (hsorted "key_id"), hstr "nonce" _ _ (hsorted "nonce"),
    hstr "signed_at" _ _ (hsorted "signed_at")⟩, optStr_inj hnotes,
    sorted_answer_inj (Option.some.inj (hsorted "answer_value"))⟩

/-! ## Accepted signatures -/

theorem isLowerHex_of_sha256Hex {E : Externals} {d t : String} (h : E.sha256Hex t = d) :
    ∀ c ∈ d.toList, Text.isLowerHex c = true := by
  rw [← h]
  exact E.sha256Hex_lowerHex t

/-- Whatever encoder issued it, a digest the server accepts is a hash. -/
theorem isLowerHex_of_digestCandidates {request : DecisionRequest} {candidates : List String}
    (h : digestCandidates P request = .ok candidates) :
    ∀ d ∈ candidates, ∀ c ∈ d.toList, Text.isLowerHex c = true := by
  have hvalue : ∀ {r : Request} {commitment version d : String} {field : AnswerField},
      valueRequestDigestWithVersion P.toExternals r commitment field version = .ok d →
        ∀ c ∈ d.toList, Text.isLowerHex c = true := by
    intro r commitment version d field hd
    exact isLowerHex_of_sha256Hex (valueRequestDigestWithVersion_eq_ok.mp hd).2.2
  have hordinary : ∀ {r : Request} {commitment version d : String},
      structuredRequestDigest P.toExternals r commitment version = .ok d →
        ∀ c ∈ d.toList, Text.isLowerHex c = true := by
    intro r commitment version d hd
    exact isLowerHex_of_sha256Hex (structuredRequestDigest_eq_ok.mp hd).2
  unfold digestCandidates at h
  dsimp only at h
  cases hfield : request.answerField with
  | some field =>
    simp only [hfield, bind_eq_ok, digestError, mapError_eq_ok, pure_eq_ok] at h
    obtain ⟨_, _, current, hcurrent, legacy, hlegacy, rfl⟩ := h
    simp only [List.forall_mem_cons, List.not_mem_nil, false_implies, implies_true, and_true]
    exact ⟨hvalue hcurrent, hvalue hlegacy⟩
  | none =>
    have hstamped : ∀ c ∈ ((request.toWire P.toExternals).requestDigest.getD
        (requestDigestLegacyLineSnapshot P.toExternals
          (request.toWire P.toExternals))).toList, Text.isLowerHex c = true := by
      unfold DecisionRequest.toWire
      split
      · exact P.toExternals.sha256Hex_lowerHex _
      · exact P.toExternals.sha256Hex_lowerHex _
    simp only [hfield] at h
    split at h
    · simp only [bind_eq_ok, digestError, mapError_eq_ok, pure_eq_ok] at h
      obtain ⟨current, hcurrent, legacy, hlegacy, rfl⟩ := h
      simp only [List.forall_mem_cons, List.not_mem_nil, false_implies, implies_true, and_true]
      exact ⟨hstamped, hordinary hcurrent, hordinary hlegacy⟩
    · rw [← pure_eq_ok.mp h, List.forall_mem_singleton]
      exact hstamped

variable (P) in
/-- A signature the server has verified, on a request and a device with validated ids. -/
structure AcceptedSignature where
  request : DecisionRequest
  option : RequestOption
  actor : Device
  text : Option String
  provided : DecisionSignature
  answer : Option AnswerValue
  payload : String
  valid : SignatureValid P request option actor text provided answer payload
  ids : ValidIds (signingInput request option actor text provided "")

theorem AcceptedSignature.acceptedInput (v : AcceptedSignature P) (t : DateTime) :
    AcceptedInput
      (signingInput v.request v.option v.actor v.text v.provided t.toRfc3339Millis) := by
  obtain ⟨candidates, hcandidates, hmem⟩ := v.valid.digest
  exact ⟨⟨v.ids.requestId, v.ids.optionId, v.ids.userId, v.ids.deviceId, v.ids.keyId⟩,
    isLowerHex_of_digestCandidates hcandidates _ hmem, t, rfl⟩

/-- The payload of an accepted signature is of one of the two kinds, built from its own fields. -/
theorem AcceptedSignature.payload_cases (v : AcceptedSignature P) : ∃ t : DateTime,
    (v.answer = none ∧ v.payload = decisionSigningPayload P.toExternals
      (signingInput v.request v.option v.actor v.text v.provided t.toRfc3339Millis)) ∨
    ∃ answer, v.answer = some answer ∧ v.payload = valuePayloadText
      (signingInput v.request v.option v.actor v.text v.provided t.toRfc3339Millis) answer := by
  obtain ⟨t, -, h⟩ := v.valid.signedAt
  refine ⟨t, ?_⟩
  unfold expectedPayload at h
  split at h
  · simp only [bind_eq_ok, orElse_eq_ok, refuseIf_eq_ok, mapError_eq_ok, digestError,
      decisionSigningPayloadV2_eq_ok] at h
    obtain ⟨_, -, answer, hanswer, _, -, -, -, hpayload⟩ := h
    exact Or.inr ⟨answer, hanswer, hpayload.symm⟩
  · simp only [bind_eq_ok, refuseIf_eq_ok, pure_eq_ok, not_or, not_not] at h
    obtain ⟨_, ⟨hanswer, -⟩, hpayload⟩ := h
    exact Or.inl ⟨hanswer, hpayload.symm⟩

theorem trimmedNotes_getD (text : Option String) :
    trimmedNotes (some (text.getD "")) = trimmedNotes text := by
  cases text with
  | some s => rfl
  | none => decide

/-- The same decision: card, option, actor, key, nonce, answer, and text up to trimming. -/
structure SameDecision (v w : AcceptedSignature P) : Prop where
  requestId : v.request.id = w.request.id
  digest : v.provided.requestDigest = w.provided.requestDigest
  optionId : v.option.id = w.option.id
  optionKind : v.option.kind = w.option.kind
  userId : v.actor.userId = w.actor.userId
  deviceId : v.actor.id = w.actor.id
  keyId : v.provided.keyId = w.provided.keyId
  nonce : v.provided.nonce = w.provided.nonce
  text : trimmedNotes v.text = trimmedNotes w.text
  answer : v.answer = w.answer

theorem sameDecision_of_fields {v w : AcceptedSignature P} {s t : String}
    (h : SameFields (signingInput v.request v.option v.actor v.text v.provided s)
      (signingInput w.request w.option w.actor w.text w.provided t))
    (htext : trimmedNotes v.text = trimmedNotes w.text) (hanswer : v.answer = w.answer) :
    SameDecision v w :=
  ⟨h.requestId, h.requestDigest, h.optionId, h.optionKind, h.userId, h.deviceId, h.keyId, h.nonce,
    htext, hanswer⟩

/-! ## Both payloads -/

/-- The hash tells these two texts apart. -/
def TellsApart (E : Externals) (s t : String) : Prop := E.sha256Hex s = E.sha256Hex t → s = t

variable (P) in
/-- What equal payload bytes say. -/
structure PayloadsInjective : Prop where
  ordinary : ∀ a b, AcceptedInput a → AcceptedInput b →
    TellsApart P.toExternals (a.text.getD "") (b.text.getD "") →
    decisionSigningPayload P.toExternals a = decisionSigningPayload P.toExternals b →
    SameFields a b ∧ a.text.getD "" = b.text.getD ""
  value : ∀ a b x y p, decisionSigningPayloadV2 a x = .ok p → decisionSigningPayloadV2 b y = .ok p →
    SameFields a b ∧ trimmedNotes a.text = trimmedNotes b.text ∧ x = y
  apart : ∀ a b y p, decisionSigningPayloadV2 b y = .ok p →
    decisionSigningPayload P.toExternals a ≠ p
  signatures : ∀ v w : AcceptedSignature P,
    TellsApart P.toExternals (v.text.getD "") (w.text.getD "") → v.payload = w.payload →
    SameDecision v w

theorem payloads_injective (P : Packages) : PayloadsInjective P where
  ordinary a b ha hb hapart h := by
    obtain ⟨hsame, htext⟩ := decisionSigningPayload_inj ha hb h
    exact ⟨hsame, hapart htext⟩
  value a b x y p ha hb := by
    obtain ⟨-, -, rfl⟩ := decisionSigningPayloadV2_eq_ok.mp ha
    obtain ⟨-, -, htext⟩ := decisionSigningPayloadV2_eq_ok.mp hb
    exact valuePayloadText_inj htext.symm
  apart a b y p hb := by
    obtain ⟨-, -, rfl⟩ := decisionSigningPayloadV2_eq_ok.mp hb
    exact (valuePayloadText_ne P.toExternals b a y).symm
  signatures v w hapart h := by
    obtain ⟨s, hv⟩ := v.payload_cases
    obtain ⟨t, hw⟩ := w.payload_cases
    rcases hv with ⟨hva, hvp⟩ | ⟨x, hva, hvp⟩
    · rcases hw with ⟨hwa, hwp⟩ | ⟨y, hwa, hwp⟩
      · obtain ⟨hsame, htext⟩ := decisionSigningPayload_inj (v.acceptedInput s)
          (w.acceptedInput t) (hvp.symm.trans (h.trans hwp))
        have hnotes : trimmedNotes v.text = trimmedNotes w.text := by
          rw [← trimmedNotes_getD v.text, ← trimmedNotes_getD w.text, hapart htext]
        exact sameDecision_of_fields hsame hnotes (hva.trans hwa.symm)
      · have heq := hwp.symm.trans (h.symm.trans hvp)
        exact absurd heq (valuePayloadText_ne _ _ _ _)
    · rcases hw with ⟨hwa, hwp⟩ | ⟨y, hwa, hwp⟩
      · have heq := hvp.symm.trans (h.trans hwp)
        exact absurd heq (valuePayloadText_ne _ _ _ _)
      · obtain ⟨hsame, htext, hanswer⟩ := valuePayloadText_inj (hvp.symm.trans (h.trans hwp))
        refine sameDecision_of_fields hsame htext ?_
        rw [hva, hwa, hanswer]

/-! ## An accepted signature -/

/-- The signature itself is not signed. -/
theorem signingInput_signature (request : DecisionRequest) (option : RequestOption) (actor : Device)
    (text : Option String) (provided : DecisionSignature) (signature signedAt : String) :
    signingInput request option actor text { provided with signature } signedAt =
      signingInput request option actor text provided signedAt := rfl

theorem expectedPayload_ordinary {request : DecisionRequest} {provided : DecisionSignature}
    (hfield : request.answerField = none) (hversion : provided.payloadVersion = none)
    (input : DecisionSigningInput) :
    expectedPayload P request provided none input =
      .ok (decisionSigningPayload P.toExternals input) := by
  unfold expectedPayload
  rw [hfield, hversion]
  rfl

/-- An ordinary card, and the phone that answers it. -/
def signedCard : DecisionRequest :=
  { answerField := none, id := "0b4f7c1e-5d0a-4b6e-9a51-2f6f3f0a9c01", channelId := "default"
    recipients := ["owner"], decisionResolution := .shared, title := "Deploy", summary := ""
    bodyMarkdown := "", fields := [], links := [], imageUrl := none
    notification := ⟨false, none, none⟩, dedupeKey := none, expiresAt := none, status := .pending
    createdAt := sampleTime, updatedAt := sampleTime, resolvedAt := none, decision := none
    userDecisions := [], callbackUrl := none
    options := [⟨"approve", "Approve", .approve, "default", false, none, false, false⟩]
    privateRecipients := false, signing := none }

def signedPhone : Device :=
  { id := "7d1f3a52-8c3e-4f0b-b0c9-66f2a1d7e4aa", userId := "owner", signingKeyId := some "phone-key"
    signingKeyAlgorithm := some decisionSigningAlgorithm, signingPublicKey := some Concrete.publicKey }

/-- What the phone submits, but for the signature itself. -/
def signedApproval : DecisionSignature :=
  { payloadVersion := none, keyId := "phone-key", algorithm := decisionSigningAlgorithm
    nonce := "4be0c5a2-93d1-4c77-8a0e-5f1d2c3b4a69", signedAt := "2026-10-01T12:00:00.000Z"
    requestDigest := (signedCard.toWire signerPackages.toExternals).requestDigest.getD
      (requestDigestLegacyLineSnapshot signerPackages.toExternals
        (signedCard.toWire signerPackages.toExternals))
    signature := "" }

def signedText : String :=
  decisionSigningPayload signerPackages.toExternals
    (signingInput signedCard (signedCard.options.head (List.cons_ne_nil _ _)) signedPhone none
      signedApproval sampleTime.toRfc3339Millis)

def approvalSignature : AcceptedSignature signerPackages where
  request := signedCard
  option := signedCard.options.head (List.cons_ne_nil _ _)
  actor := signedPhone
  text := none
  provided := { signedApproval with
    signature := Concrete.urlSafeEncode (Concrete.hashSignature signedText) }
  answer := none
  payload := signedText
  valid := by
    have hverified := Concrete.verifyPayload_hashPackages signedText
    have hnonce : Text.trim "4be0c5a2-93d1-4c77-8a0e-5f1d2c3b4a69" ≠ "" ∧
        "4be0c5a2-93d1-4c77-8a0e-5f1d2c3b4a69".utf8ByteSize ≤ 160 := by decide
    have htime : DateTime.parseFromRfc3339 "2026-10-01T12:00:00.000Z" = some sampleTime := by decide
    refine ⟨rfl, ⟨_, rfl, hverified⟩, rfl, rfl, hnonce, ?_, sampleTime, htime, ?_⟩
    · exact ⟨_, rfl, List.mem_singleton.mpr rfl⟩
    · rw [signingInput_signature]
      exact expectedPayload_ordinary rfl rfl _
  ids := ⟨⟨"", by decide⟩, ⟨"", by decide⟩, ⟨"", by decide⟩, ⟨"", by decide⟩, ⟨"", by decide⟩⟩

end Nod.Server
