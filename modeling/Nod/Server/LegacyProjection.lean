import Nod.Client.Signing
import Nod.Server.Acceptance
import Nod.Server.Evidence

/-
  Value cards and the clients that cannot answer them (`api/responses.rs`, `api/sync_socket.rs`):
  what such a client is sent, and what the server makes of the signatures it can produce.
  Proved: `legacy_projection_safe`, the projection shows nothing of a card but its shell, no
  signature for an ordinary card is accepted for a value card, and the option that stands in for
  an answer is never recorded.
-/

namespace Nod.Server

open Lib Nod.Proto
open Client (DeviceSigner DecisionSigningRequest buildValueDecisionSignature)

variable (P : Packages)

/-! ## Delivery under a client's contract -/

/-- The card of a response. -/
def contract (capable : Bool) (request : Request) : Request :=
  if capable then request else request.legacyValueProjection

/-- The payload of a live event; a request that `fromValue` cannot read ends the socket. -/
def contractPayload (fromValue : Json → Option Request) (capable : Bool) (payload : Json) :
    Option Json :=
  if capable then some payload
  else
    match payload with
    | .obj members =>
      match Json.lookup "request" members with
      | some request =>
        (fromValue request).map fun wire =>
          .obj (Json.setMember "request" (contract capable wire).toJson members)
      | none => some payload
    | v => some v

/-! ## What is to be shown -/

/-- A card without its content, its answers and its signing context. -/
def shell (r : Request) : Request :=
  { r with
    answerField := none, summary := "", bodyMarkdown := "", fields := [], links := []
    imageUrl := none, notification := ⟨false, none, none⟩, decision := none, decisions := []
    callbackUrl := none, options := [], requestDigest := none, signing := none }

/-- What an incapable client is sent of a value card is a function of the card's shell, and the
    signing context beside it; over a socket it is the same card. -/
structure ProjectionBlind : Prop where
  blind : ∀ a b : Request, a.answerField ≠ none → b.answerField ≠ none → shell a = shell b →
    { contract false a with signing := none } = { contract false b with signing := none }
  signing : ∀ a : Request, (contract false a).signing = a.signing
  live : ∀ (at_ : DateTime) (kind : String) (request : DecisionRequest) (targets : List String)
    (userId : String) (fromValue : Json → Option Request),
    let wire := liveWire (request.toWire P.toExternals) userId
    fromValue wire.toJson = some wire →
      contractPayload fromValue false
          (syncEnvelopeForUser (Sync.requestForUsers P at_ kind request targets) userId).payload =
        some (.obj [("request", (contract false wire).toJson)])

/-- Under this key a signature that someone made verifies for no other payload than the one it was
    made over. -/
def Unforgeable (made : String → String → Prop) (publicKey : String) : Prop :=
  ∀ payload payload' signature, made payload signature →
    verifyPayload P.toExternals publicKey payload' signature = .ok () → payload' = payload

/-- A signature for an ordinary card: one over a v1 payload, or one that the client made over a copy
    without an answer field. -/
def OrdinarySignature (made : String → String → Prop) (signature : String) : Prop :=
  (∃ input, made (decisionSigningPayload P.toExternals input) signature) ∨
  ∃ (signer : DeviceSigner) (nonce : String) (signedAt : DateTime)
    (signing : DecisionSigningRequest) (answer : Option AnswerValue)
    (expectedDigest : Option String) (built : DecisionSignature),
    (∀ payload s, signer.sign payload = .ok s → made payload s) ∧
    signing.request.answerField = none ∧
    buildValueDecisionSignature P.toExternals signer nonce signedAt signing answer expectedDigest =
      .ok built ∧ built.signature = signature

/-- No submission that carries such a signature is accepted for a value card, from any device under
    whose registered key signatures cannot be forged. -/
def OrdinaryRefused (made : String → String → Prop) (s : Db) : Prop :=
  ∀ env submission faults request provided,
    readRequest P s submission.requestId = .ok request → request.answerField ≠ none →
    (∀ actor ∈ submission.actorDevice, ∀ key ∈ actor.signingPublicKey, Unforgeable P made key) →
    submission.decision.signature = some provided → OrdinarySignature P made provided.signature →
      ∃ e, Prog.exec databaseError (recordDecision P env submission) faults s = (.error e, s)

/-- No value card has a decision for the option that stands in for its answer. -/
def PlaceholderFree (s : Db) : Prop :=
  ∀ id request, readRequest P s id = .ok request → request.answerField ≠ none →
    ∀ decision ∈ s.storedDecisions id, decision.optionId ≠ "__nod_value_open"

structure LegacySafe (made : String → String → Prop) : Prop where
  projection : ProjectionBlind P
  refused : ∀ calls, OrdinaryRefused P made (run P calls Db.empty)
  placeholder : ∀ calls, PlaceholderFree P (run P calls Db.empty)

variable {P}

/-! ## The projection -/

theorem legacyValueProjection_eq {r : Request} (h : r.answerField ≠ none) :
    r.legacyValueProjection = { shell r with
      summary := "Open in an updated Nod app to answer this request."
      bodyMarkdown := "Open in an updated Nod app to answer this request."
      options :=
        [{ id := "__nod_value_open", label := "Open in app", kind := .custom, style := "default"
           requiresText := false, textPlaceholder := none, destructive := false
           foreground := true }]
      signing := r.signing } := by
  obtain ⟨field, hfield⟩ := Option.ne_none_iff_exists'.mp h
  unfold Request.legacyValueProjection
  rw [hfield]
  rfl

theorem signing_legacyValueProjection (r : Request) :
    r.legacyValueProjection.signing = r.signing := by
  unfold Request.legacyValueProjection
  split <;> rfl

theorem contractPayload_live {fromValue : Json → Option Request} {at_ : DateTime} {kind : String}
    {request : DecisionRequest} {targets : List String} {userId : String}
    (h : fromValue (liveWire (request.toWire P.toExternals) userId).toJson =
      some (liveWire (request.toWire P.toExternals) userId)) :
    contractPayload fromValue false
        (syncEnvelopeForUser (Sync.requestForUsers P at_ kind request targets) userId).payload =
      some (.obj [("request",
        (contract false (liveWire (request.toWire P.toExternals) userId)).toJson)]) := by
  have hlive : liveRequest P request userId =
      (liveWire (request.toWire P.toExternals) userId).toJson :=
    filterRequestForUser_toJson _ userId
  rw [payload_syncEnvelopeForUser, hlive]
  unfold contractPayload
  rw [if_neg Bool.false_ne_true]
  dsimp only [Json.lookup]
  rw [if_pos rfl]
  dsimp only
  rw [h]
  rfl

theorem projection_blind : ProjectionBlind P where
  blind a b ha hb hshell := by
    unfold contract
    rw [if_neg Bool.false_ne_true, if_neg Bool.false_ne_true, legacyValueProjection_eq ha,
      legacyValueProjection_eq hb, hshell]
  signing a := signing_legacyValueProjection a
  live _ _ _ _ _ _ h := contractPayload_live h

/-! ## Payloads of the two families -/

theorem take_decisionSigningPayload (E : Externals) (input : DecisionSigningInput) :
    (decisionSigningPayload E input).toList.take 15 = "nod-decision-v1".toList := by
  unfold decisionSigningPayload
  rw [String.toList_intercalate]
  rfl

theorem take_valuePayloadText (input : DecisionSigningInput) (answer : AnswerValue) :
    (valuePayloadText input answer).toList.take 15 = "nod-decision-v2".toList := by
  unfold valuePayloadText
  rw [String.toList_append, String.toList_append, List.append_assoc]
  rfl

/-- The two payload versions share no text. -/
theorem valuePayloadText_ne (E : Externals) (input input' : DecisionSigningInput)
    (answer : AnswerValue) : valuePayloadText input answer ≠ decisionSigningPayload E input' := by
  intro h
  have htake := take_valuePayloadText input answer
  rw [h, take_decisionSigningPayload] at htake
  exact absurd htake (by decide)

/-- A signature for an ordinary card is over a v1 payload. -/
theorem OrdinarySignature.payload {made : String → String → Prop} {signature : String}
    (h : OrdinarySignature P made signature) :
    ∃ input, made (decisionSigningPayload P.toExternals input) signature := by
  rcases h with h | ⟨signer, nonce, signedAt, signing, answer, expectedDigest, built, hsigner, hfield,
    hbuilt, rfl⟩
  · exact h
  · obtain ⟨option, payload, hbuilds⟩ := Client.buildValueDecisionSignature_eq_ok.mp hbuilt
    obtain ⟨-, hpayload⟩ := hbuilds.ordinary hfield
    have hmade := hsigner payload built.signature hbuilds.signed
    rw [hpayload] at hmade
    exact ⟨_, hmade⟩

/-- What the server verifies a value card's signature over. -/
theorem payload_of_value {request : DecisionRequest} {provided : DecisionSignature}
    {answer : Option AnswerValue} {input : DecisionSigningInput} {payload : String}
    (h : expectedPayload P request provided answer input = .ok payload)
    (hfield : request.answerField ≠ none) : ∃ value, payload = valuePayloadText input value := by
  obtain ⟨field, hfield⟩ := Option.ne_none_iff_exists'.mp hfield
  unfold expectedPayload at h
  rw [hfield] at h
  simp only [bind_eq_ok, digestError, mapError_eq_ok] at h
  obtain ⟨_, _, value, _, _, _, hpayload⟩ := h
  exact ⟨value, ((decisionSigningPayloadV2_eq_ok.mp hpayload).2.2).symm⟩

theorem ordinary_refused (made : String → String → Prop) (s : Db) : OrdinaryRefused P made s := by
  intro env submission faults request provided hread hfield hsig hprovided hordinary
  rcases Prog.exec_cases databaseError _ (transactional_recordDecision P env submission) faults s
    with hrefused | ⟨resolved, s', -, heval⟩
  · exact hrefused
  · obtain ⟨request', option, signature, signed, stored, row, node, hchecked, hsigned, -⟩ :=
      recorded_of_eval P heval
    have hsame : request' = request := Except.ok.inj (hchecked.read.symm.trans hread)
    rw [hsame] at hsigned
    cases hsigned with
    | internal _ hnone =>
      rw [hnone] at hprovided
      cases hprovided
    | device actor provided' payload nonces hactor hprovided' _ _ hvalid _ _ =>
      rw [hprovided'] at hprovided
      cases hprovided
      obtain ⟨publicKey, hkey, hverified⟩ := hvalid.publicKey
      obtain ⟨t, -, hpayload⟩ := hvalid.signedAt
      obtain ⟨value, rfl⟩ := payload_of_value hpayload hfield
      obtain ⟨input, hmade⟩ := hordinary.payload
      have hsame := hsig actor hactor publicKey hkey _ _ _ hmade hverified
      exact absurd hsame (valuePayloadText_ne _ _ _ _)

/-! ## The placeholder -/

/-- An accepted submission for a value card names a real option. -/
theorem optionId_of_checked {env : Env} {submission : DecisionSubmission} {s : Db}
    {request : DecisionRequest} {option : RequestOption}
    (h : Checked P env submission s request option) (hfield : request.answerField ≠ none) :
    option.id ≠ "__nod_value_open" := by
  obtain ⟨field, hfield⟩ := Option.ne_none_iff_exists'.mp hfield
  have hpolicy := h.policy
  unfold answerPolicy at hpolicy
  dsimp only at hpolicy
  rw [hfield] at hpolicy
  simp only [bind_eq_ok, refuseIf_eq_ok, not_or] at hpolicy
  obtain ⟨_, ⟨hreal, -⟩, -⟩ := hpolicy
  have hoption := h.option
  rw [chooseOption, orElse_eq_ok, Option.or_eq_some_iff] at hoption
  rcases hoption with hfound | ⟨-, hdismiss⟩
  · have hid := List.find?_some hfound
    rw [of_decide_eq_true hid]
    exact hreal
  · unfold implicitDismissOption at hdismiss
    split at hdismiss
    · cases hdismiss
    · rename_i hcard
      simp only [not_or, not_not] at hcard
      rw [hcard.1] at hfield
      cases hfield

theorem placeholderFree_call (c : Call) {s : Db} (hs : WellFormed P s) (hl : Legible P s)
    (h : PlaceholderFree P s) : PlaceholderFree P (c.after P s) := by
  intro id request' hread' hfield decision hmem
  have hkept : ∀ request, readRequest P s id = .ok request → request.answerField ≠ none := by
    intro request hread
    have hissued := issued_run hs [c] hread hread'
    have hsame := congrArg DecisionRequest.answerField hissued
    exact hsame ▸ hfield
  by_cases hold : decision ∈ s.storedDecisions id
  · obtain ⟨row, hrow⟩ := stored_of_mem_storedDecisions hs hold
    obtain ⟨request, hread⟩ := hl.reads id row hrow
    exact h id request hread (hkept request hread) decision hold
  · obtain ⟨env, submission, request, option, signature, signed, -, rfl, hchecked, -, rfl⟩ :=
      recorded_of_new hs hmem hold
    exact optionId_of_checked hchecked (hkept request hchecked.read)

theorem placeholderFree_run (calls : List Call) : PlaceholderFree P (run P calls Db.empty) := by
  induction calls using List.reverseRecOn with
  | nil =>
    intro id request _ _ decision hmem
    cases hmem
  | append_singleton calls c ih =>
    rw [run_append]
    exact placeholderFree_call c (wellFormed_run_empty calls) (legible_run_empty calls) ih

/-! ## The result -/

/-- A client that cannot answer value cards learns nothing of one but its shell, and nothing it can
    sign is taken for an answer. -/
theorem legacy_projection_safe (P : Packages) (made : String → String → Prop) :
    LegacySafe P made where
  projection := projection_blind
  refused calls := ordinary_refused made (run P calls Db.empty)
  placeholder calls := placeholderFree_run calls

/-! ## A signature of a projected card -/

/-- What a client could sign of a projected card. -/
def ordinaryInput : DecisionSigningInput :=
  { requestId := "0b4f7c1e-5d0a-4b6e-9a51-2f6f3f0a9c01"
    requestDigest := "9f2c41d07be3a6588c1d5e0f3b7a9246d8e1c05f7a3b9264e80d1c5f3a7b9246"
    optionId := "__nod_value_open", optionKind := .custom, userId := "user-ada"
    deviceId := "device-ada", keyId := "ada-key", nonce := "4be0c5a2-93d1-4c77-8a0e-5f1d2c3b4a69"
    signedAt := "2026-10-01T12:00:00.000Z", text := none }

/-- Its signature under a P-256 key. -/
def ordinarySigned : Concrete.Signed :=
  { publicKey := Concrete.publicKey
    payload := decisionSigningPayload samplePackages.toExternals ordinaryInput
    signature :=
      "MEUCIQDsH4_HsbKfLLQglKPP2p4uYA4C_z2teN1ZpUpQKinnJwIgCcEPeXgi9DYeQgXshCc8dZCYJaWZETStIdM9AiydKEM" }

def ordinaryPackages : Packages :=
  { samplePackages with ecdsaVerify := Concrete.ecdsaVerify [ordinarySigned] }

def MadeOrdinary (payload signature : String) : Prop :=
  payload = ordinarySigned.payload ∧ signature = ordinarySigned.signature

theorem unforgeable_madeOrdinary (publicKey : String) :
    Unforgeable ordinaryPackages MadeOrdinary publicKey := by
  intro payload payload' signature hmade h
  rw [hmade.1]
  unfold verifyPayload at h
  simp only [bind_eq_ok, refuseIf_eq_ok, orElse_eq_ok, Bool.not_eq_false] at h
  obtain ⟨key, -, _, -, bytes, -, _, -, hverified⟩ := h
  have hmem : Concrete.ecdsaVerify [ordinarySigned] key payload' bytes = true := hverified
  unfold Concrete.ecdsaVerify at hmem
  rw [List.any_cons, List.any_nil, Bool.or_false, Bool.and_eq_true, Bool.and_eq_true] at hmem
  exact (eq_of_beq hmem.1.2).symm

/-- The signature verifies under the key it was made with, and no value card takes it. -/
theorem legacy_projection_safe_sample :
    verifyPayload ordinaryPackages.toExternals Concrete.publicKey ordinarySigned.payload
        ordinarySigned.signature = .ok () ∧
      OrdinarySignature ordinaryPackages MadeOrdinary ordinarySigned.signature ∧
      Unforgeable ordinaryPackages MadeOrdinary Concrete.publicKey ∧
      LegacySafe ordinaryPackages MadeOrdinary :=
  ⟨Concrete.verifyPayload_packages (List.mem_singleton.mpr rfl) (by decide +kernel),
    .inl ⟨ordinaryInput, rfl, rfl⟩, unforgeable_madeOrdinary Concrete.publicKey,
    legacy_projection_safe ordinaryPackages MadeOrdinary⟩

end Nod.Server
