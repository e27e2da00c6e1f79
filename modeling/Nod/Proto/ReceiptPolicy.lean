import Nod.Proto.Receipt
import Nod.Proto.Concrete

/-
  The receipt verifier and the answer policy. The server takes a typed answer only on a card with
  an answer field, under the value payload, and only if the field accepts it.
  Proved: a passing receipt keeps to that policy unless it was signed under the value payload and
  carries an answer on an ordinary card or one that the card's valid field refuses
  (`policyEnforced_iff`); the verifier's branch for that payload asks for an answer and checks
  nothing else about it, so both kinds do pass (`unchecked_answers_pass`).
-/

namespace Nod.Proto

open Lib

/-- The server's answer policy, read off a request and a decision with its signature. -/
def AnswerPolicy (request : Request) (decision : Decision) (s : DecisionSignatureRecord) : Prop :=
  match request.answerField with
  | none => decision.answerValue = none ∧ s.payloadVersion = none
  | some field =>
    s.payloadVersion = some valueDecisionPayloadVersion ∧
      ∃ a, decision.answerValue = some a ∧ field.validateValue a = .ok ()

/-- The branch of the verifier that checks no policy is not taken: not a value payload with an
    answer on an ordinary card, nor with one that the card's own valid field refuses. -/
def PolicyBranch (field : Option AnswerField) (version : Option String)
    (answer : Option AnswerValue) : Prop :=
  version = some valueDecisionPayloadVersion → ∀ a, answer = some a →
    ∃ f, field = some f ∧ (f.validate = .ok () → f.validateValue a = .ok ())

/-! ## What a pass says about the card -/

/-- A value card whose digest could be recomputed has a valid definition. -/
theorem validate_of_matchRequestDigest {E : Externals} {request : Request} {found : String}
    {dg : String × DigestEncoder} (h : matchRequestDigest E request found = .ok dg)
    {f : AnswerField} (hf : request.answerField = some f) : f.validate = .ok () := by
  simp only [matchRequestDigest, bind_eq_ok, receiptCandidates, hf, mapError_eq_ok] at h
  obtain ⟨_, _, _, ⟨_, _, _, hd, _⟩, _⟩ := h
  exact (valueRequestDigestWithVersion_eq_ok.mp hd).2.1

/-- The policy holds of a passing receipt once the unchecked branch is excluded. -/
theorem answerPolicy_of_verified {E : Externals} {input : ReceiptVerificationInput}
    {s : DecisionSignatureRecord} {u d : String} {pin : PinnedKey} {t : DateTime}
    {dg : String × DigestEncoder} {p : String} (h : Verified E input s u d pin t dg p)
    (hb : PolicyBranch input.request.answerField s.payloadVersion input.decision.answerValue) :
    AnswerPolicy input.request input.decision s := by
  have hp := h.payload
  unfold rebuildPayload at hp
  cases hv : s.payloadVersion with
  | none =>
    simp only [hv, bind_eq_ok, refuseIf_eq_ok, not_or, not_not] at hp
    obtain ⟨_, ⟨ha, hf⟩, _⟩ := hp
    rw [AnswerPolicy, hf]
    exact ⟨ha, hv⟩
  | some v =>
    simp only [hv] at hp
    split at hp
    · next hv2 =>
      simp only [bind_eq_ok, orElse_eq_ok] at hp
      obtain ⟨a, ha, _⟩ := hp
      obtain ⟨f, hf, hval⟩ := hb (hv.trans (congrArg some hv2)) a ha
      rw [AnswerPolicy, hf]
      exact ⟨hv.trans (congrArg some hv2), a, ha,
        hval (validate_of_matchRequestDigest h.digest hf)⟩
    · exact absurd hp (by simp)

/-! ## A receipt for any answer -/

/-- A fixed instant. -/
def noon : DateTime :=
  { year := 2026, month := 5, day := 31, hour := 12, minute := 0, second := 0, nano := 0
    valid := by decide }

def approveOption : RequestOption :=
  { id := "approve", label := "Approve", kind := .approve, style := "default"
    requiresText := false, textPlaceholder := none, destructive := false, foreground := false }

/-- A card asking with the given field, before its signing context is added. -/
def cardContent (field : Option AnswerField) : Request :=
  { answerField := field, id := "req-1", requestId := "req-1", channelId := "deploys"
    recipients := ["owner"], decisionResolution := .shared, title := "Approve deploy"
    summary := "", bodyMarkdown := "", fields := [], links := [], imageUrl := none
    notification := { redact := false, title := none, body := none }, dedupeKey := none
    expiresAt := none, status := .pending, createdAt := noon, updatedAt := noon
    resolvedAt := none, decision := none, decisions := [], callbackUrl := none
    options := [approveOption], requestDigest := none, signing := none }

variable (E : Externals)

def cardCommitment : String := recipientsCommitment E ["owner"] "salt"

/-- The current digest of the card. -/
def cardDigest (field : Option AnswerField) : String :=
  match field with
  | none => E.sha256Hex
      (structuredPreimage (cardContent field) (cardCommitment E) requestDigestVersion)
  | some f => E.sha256Hex
      (valuePreimage (cardContent field) (cardCommitment E) f valueRequestDigestVersion)

def cardOf (field : Option AnswerField) : Request :=
  { cardContent field with
    signing := some
      { version := if field = none then requestDigestVersion else valueRequestDigestVersion
        recipientsCommitment := cardCommitment E, requestDigest := cardDigest E field } }

def cardSigningInput (field : Option AnswerField) : DecisionSigningInput :=
  { requestId := "req-1", requestDigest := cardDigest E field, optionId := "approve"
    optionKind := .approve, userId := "owner", deviceId := "device-1", keyId := "key-1"
    nonce := "nonce-1", signedAt := "2026-05-31T12:00:00.000Z", text := none }

/-- A decision on the card signed under the value payload. -/
def cardDecision (field : Option AnswerField) (a : AnswerValue) (publicKey signature : String) :
    Decision :=
  { answerValue := some a, requestId := "req-1", optionId := "approve", optionKind := .approve
    optionLabel := "Approve", text := none, actorUserId := some "owner"
    actorDeviceId := some "device-1"
    signature := some
      { payloadVersion := some valueDecisionPayloadVersion, keyId := "key-1"
        algorithm := decisionSigningAlgorithm, nonce := "nonce-1"
        signedAt := "2026-05-31T12:00:00.000Z", requestDigest := cardDigest E field
        signingPayload := valuePayloadText (cardSigningInput E field) a, signature
        verified := true, publicKey := some publicKey }
    resolvedAt := noon }

def cardReceipt (field : Option AnswerField) (a : AnswerValue) (publicKey signature : String) :
    ReceiptVerificationInput :=
  { request := cardOf E field, decision := cardDecision E field a publicKey signature
    pinnedKeys := [{ userId := "owner", deviceId := some "device-1", keyId := "key-1", publicKey }]
    now := noon, maxClockSkew := none, strictTime := true }

theorem validCommitment_cardCommitment : validCommitment (cardCommitment E) = true :=
  validCommitment_sha256Hex E _

theorem matchRequestDigest_cardOf (field : Option AnswerField)
    (hf : ∀ f, field = some f → f.validate = .ok ()) :
    ∃ enc, matchRequestDigest E (cardOf E field) (cardDigest E field) =
      .ok (cardDigest E field, enc) := by
  have hc := validCommitment_cardCommitment E
  cases field with
  | none =>
    exact matchRequestDigest_of_mem (by simp [checkVersion, cardOf, knownVersions])
      (receiptCandidates_ordinary rfl rfl hc) List.mem_cons_self
  | some f =>
    exact matchRequestDigest_of_mem (by simp [checkVersion, cardOf, knownVersions])
      (receiptCandidates_value rfl rfl hc (hf f rfl)) List.mem_cons_self

theorem parse_noon : DateTime.parseFromRfc3339 "2026-05-31T12:00:00.000Z" = some noon := by
  decide

theorem toRfc3339Millis_noon : noon.toRfc3339Millis = "2026-05-31T12:00:00.000Z" := by decide

/-- Any signed answer passes the verifier on a card whose digest can be computed. -/
theorem verifies_cardReceipt (field : Option AnswerField) (a : AnswerValue)
    (hf : ∀ f, field = some f → f.validate = .ok ()) {publicKey signature : String}
    (hsig : verifyPayload E publicKey (valuePayloadText (cardSigningInput E field) a) signature =
      .ok ()) :
    ∃ r, verifyDecisionReceipt E (cardReceipt E field a publicKey signature) = .ok r := by
  obtain ⟨enc, hd⟩ := matchRequestDigest_cardOf E field hf
  have hskew : noon.signedDurationSince noon = 0 := by decide
  have hw : timeWarnings (cardReceipt E field a publicKey signature) noon = .ok [] := by
    simp [timeWarnings, cardReceipt, cardDecision, hskew, defaultMaxClockSkew]
  refine ⟨_, verifyDecisionReceipt_eq_ok.mpr ⟨_, "owner", "device-1", _, noon,
    (cardDigest E field, enc), _, [], ⟨rfl, rfl, rfl, Or.inr rfl, hd, ⟨approveOption, rfl, rfl⟩,
      rfl, rfl, rfl, Or.inr rfl, parse_noon, ?_, rfl, hsig⟩, hw, rfl⟩⟩
  simp only [rebuildPayload, cardReceipt, cardDecision, if_true, bind_eq_ok, orElse_eq_ok,
    mapError_eq_ok, Option.some.injEq, exists_eq_left']
  rw [decisionSigningPayloadV2_eq_ok]
  refine ⟨⟨noon, ?_, rfl⟩, by simp [trimmedNotes], ?_⟩
  · rw [toRfc3339Millis_noon]
    exact parse_noon
  · rw [toRfc3339Millis_noon]
    rfl

/-! ## Exactly when the policy is enforced -/

/-- For each card kind, payload version and answer: every passing receipt of that shape keeps to the
    answer policy if and only if the shape is not of the branch the verifier leaves unchecked. The
    hypothesis is that some key has signed the value payload of the shape's own card. -/
theorem policyEnforced_iff (field : Option AnswerField) (version : Option String)
    (answer : Option AnswerValue)
    (hsig : ∀ a, answer = some a → ∃ publicKey signature, verifyPayload E publicKey
      (valuePayloadText (cardSigningInput E field) a) signature = .ok ()) :
    (∀ input r s, input.request.answerField = field → input.decision.answerValue = answer →
      input.decision.signature = some s → s.payloadVersion = version →
      verifyDecisionReceipt E input = .ok r → AnswerPolicy input.request input.decision s) ↔
    PolicyBranch field version answer := by
  constructor
  · intro hall hver a ha
    by_contra hbad
    rw [not_exists] at hbad
    have hf : ∀ f, field = some f → f.validate = .ok () := by
      intro f hf
      by_contra hv
      exact hbad f ⟨hf, fun h => absurd h hv⟩
    obtain ⟨publicKey, signature, hs⟩ := hsig a ha
    obtain ⟨r, hr⟩ := verifies_cardReceipt E field a hf hs
    have hpol := hall (cardReceipt E field a publicKey signature) r _ rfl ha.symm rfl hver.symm hr
    unfold AnswerPolicy at hpol
    cases hfield : field with
    | none =>
      simp only [hfield, cardReceipt, cardOf, cardContent, cardDecision] at hpol
      exact absurd hpol.1 (by simp)
    | some f =>
      simp only [hfield, cardReceipt, cardOf, cardContent, cardDecision] at hpol
      obtain ⟨-, b, hb, hval⟩ := hpol
      exact hbad f ⟨hfield, fun _ => by rw [Option.some.inj hb]; exact hval⟩
  · intro hb input r s hf ha hs hv hver
    obtain ⟨s', u, d, pin, t, dg, p, ws, h, -, -⟩ := verifyDecisionReceipt_eq_ok.mp hver
    have hss : s' = s := Option.some.inj (h.signature.symm.trans hs)
    subst hss
    exact answerPolicy_of_verified h (by rw [hf, ha, hv]; exact hb)

/-! ## On concrete packages -/

def countField : AnswerField := .number "Count" (.number "4")

def ordinarySignature : String :=
  "MEQCIA3np9N62sJMlkJqILIzlBEmPFZIHelFDI7C_Bv0rUFTAiBnZepkEZVNX4rqG2uP6y-EpDJLysJZhiQ-AHNYkbQNKg"

def valueSignature : String :=
  "MEUCIQCIS8c4CI1pf2vWSiNoK4XG-Obgj43TdkZ1_0-t0nmxNAIgdS6CXkEChu3Mani5UHZqOFWjYAm_W8vHG3WkPFvFzJA"

/-- The packages with the two signatures above, over the value payloads of the two cards. -/
def signedPackages : Externals :=
  Concrete.packages
    [⟨Concrete.publicKey, valuePayloadText (cardSigningInput (Concrete.packages []) none)
        (.number "4"), ordinarySignature⟩,
      ⟨Concrete.publicKey, valuePayloadText (cardSigningInput (Concrete.packages [])
        (some countField)) (.number "04"), valueSignature⟩]

theorem cardSigningInput_signedPackages (field : Option AnswerField) :
    cardSigningInput signedPackages field = cardSigningInput (Concrete.packages []) field := rfl

theorem ordinary_card_signed : verifyPayload signedPackages Concrete.publicKey
    (valuePayloadText (cardSigningInput signedPackages none) (.number "4")) ordinarySignature =
      .ok () := by
  rw [cardSigningInput_signedPackages]
  exact Concrete.verifyPayload_packages List.mem_cons_self (by decide +kernel)

theorem value_card_signed : verifyPayload signedPackages Concrete.publicKey
    (valuePayloadText (cardSigningInput signedPackages (some countField)) (.number "04"))
      valueSignature = .ok () := by
  rw [cardSigningInput_signedPackages]
  exact Concrete.verifyPayload_packages (List.mem_cons_of_mem _ List.mem_cons_self)
    (by decide +kernel)

/-- Two receipts that verify and break the policy: an answer on a card that asked for none, and
    an answer with a leading zero on a card that asked for a number. -/
theorem unchecked_answers_pass :
    (∃ input r s, input.request.answerField = none ∧
      input.decision.answerValue = some (.number "4") ∧ input.decision.signature = some s ∧
      verifyDecisionReceipt signedPackages input = .ok r ∧
      ¬ AnswerPolicy input.request input.decision s) ∧
    (∃ input r s, input.request.answerField = some countField ∧
      input.decision.answerValue = some (.number "04") ∧ input.decision.signature = some s ∧
      verifyDecisionReceipt signedPackages input = .ok r ∧
      ¬ AnswerPolicy input.request input.decision s) := by
  constructor
  · obtain ⟨r, hr⟩ := verifies_cardReceipt signedPackages none (.number "4") (by simp)
      ordinary_card_signed
    exact ⟨_, r, _, rfl, rfl, rfl, hr, fun h => absurd h.1 (by simp [cardReceipt, cardDecision])⟩
  · have hvalid : countField.validate = .ok () := by decide
    obtain ⟨r, hr⟩ := verifies_cardReceipt signedPackages (some countField) (.number "04")
      (fun f hf => Option.some.inj hf ▸ hvalid) value_card_signed
    refine ⟨_, r, _, rfl, rfl, rfl, hr, ?_⟩
    rintro ⟨-, a, ha, hval⟩
    cases ha
    exact absurd hval (by decide)

theorem policyEnforced_iff_ordinary_card :
    (∀ input r s, input.request.answerField = none →
      input.decision.answerValue = some (.number "4") → input.decision.signature = some s →
      s.payloadVersion = some valueDecisionPayloadVersion →
      verifyDecisionReceipt signedPackages input = .ok r →
      AnswerPolicy input.request input.decision s) ↔
    PolicyBranch none (some valueDecisionPayloadVersion) (some (.number "4")) :=
  policyEnforced_iff signedPackages none (some valueDecisionPayloadVersion) (some (.number "4"))
    fun _ ha => ⟨_, _, Option.some.inj ha ▸ ordinary_card_signed⟩

end Nod.Proto
