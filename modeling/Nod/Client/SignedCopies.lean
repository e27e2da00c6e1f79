import Nod.Client.SubmissionSafety

/-
  What a submission has signed, exactly: which payload the holder of the key is asked for, of which
  copy of a card and for which answer of the user.
  Proved: in every run, every payload that is asked for signs the user's answer on a copy that the
  client held or had just read, under the digest that the user was shown (`signsAnswer_of_asked`).
-/

namespace Nod.Client

open Lib Flow Nod.Proto

variable {E : Externals}

/-! ## What is signed -/

/-- A payload over the user's answer to a copy. -/
structure SignsAnswer (E : Externals) (device : Device) (nonce : String) (signedAt : DateTime)
    (params : SubmitRequestOptionParams) (t : Trace) (content : Request) (key : DeviceKey)
    (option : OptionRef) (input : DecisionSigningInput) (payload : String) : Prop where
  copy : ∃ profile, device.serverProfile params.serverId = .ok profile ∧
    device.deviceSignerFor profile = .ok (some key) ∧ profile.userId = some input.userId ∧
    profile.deviceId = some input.deviceId ∧
    (HeldLocally profile.id params.requestId t content ∨ Fetched t content)
  rendered : input.requestDigest = Text.trim params.expectedRequestDigest
  digest : digestsOf E content = .ok (input.requestDigest, input.requestDigest)
  nonempty : input.requestDigest ≠ ""
  fits : checkAnswer content params.answerValue = .ok ()
  offered : optionFor content params.optionId = .ok option
  fields : input =
    { requestId := content.id, requestDigest := input.requestDigest, optionId := option.id
      optionKind := option.kind, userId := input.userId, deviceId := input.deviceId
      keyId := key.keyId, nonce, signedAt := signedAt.toRfc3339Millis
      text := trimmedNotes params.text }
  payload : signedPayload E input params.answerValue = .ok payload

/-- Every payload that was asked for signs the user's answer. -/
def SignsAnswers (E : Externals) (device : Device) (nonce : String) (signedAt : DateTime)
    (params : SubmitRequestOptionParams) (t : Trace) : Prop :=
  ∀ payload, .asked (.sign payload) ∈ t → ∃ content key option input,
    SignsAnswer E device nonce signedAt params t content key option input payload

variable {device : Device} {nonce : String} {signedAt : DateTime}
  {params : SubmitRequestOptionParams}

theorem SignsAnswer.cons {t : Trace} {content : Request} {key : DeviceKey} {option : OptionRef}
    {input : DecisionSigningInput} {payload : String}
    (h : SignsAnswer E device nonce signedAt params t content key option input payload)
    (e : Event StateReducer Ask Reply) :
    SignsAnswer E device nonce signedAt params (e :: t) content key option input payload := by
  obtain ⟨⟨profile, hprofile, hkey, huser, hdevice, hcopy⟩, hrendered, hdigest, hne, hfits, hoffered,
    hinput, hpayload⟩ := h
  refine ⟨⟨profile, hprofile, hkey, huser, hdevice, ?_⟩, hrendered, hdigest, hne, hfits, hoffered,
    hinput, hpayload⟩
  obtain ⟨s, hs, hselected, hheld⟩ | hfetched := hcopy
  · exact .inl ⟨s, List.mem_cons_of_mem _ hs, hselected, hheld⟩
  · exact .inr (hfetched.cons e)

/-- Preparing a signature, step by step. -/
theorem signsAnswer_of_prepared {t : Trace} {profile : ServerProfile} {content : Request}
    {key : DeviceKey} {requestDigest payload : String}
    (hprofile : device.serverProfile params.serverId = .ok profile)
    (hcopy : HeldLocally profile.id params.requestId t content ∨ Fetched t content)
    (h : preparedSignature E device nonce signedAt profile content
      { params with
        expectedRequestDigest := Text.trim params.expectedRequestDigest
        text := params.text.bind trimmedText } = .ok (key, requestDigest, payload)) :
    ∃ option input, SignsAnswer E device nonce signedAt params t content key option input payload := by
  unfold preparedSignature preparedDecision at h
  simp only [bind_eq_ok, orElse_eq_ok, refuseIf_eq_ok, pure_eq_ok, not_or, not_not, Prod.exists,
    Prod.mk.injEq] at h
  obtain ⟨signer, hsigner, key, rfl, userId, huser, deviceId, hdevice, _, _, ⟨_, hfits, digest,
    recomputed, hdigests, _, ⟨-, hempty, hrendered⟩, _, rfl, option, hoffered, prepared, hpayload,
    rfl, rfl⟩, rfl, rfl, rfl⟩ := h
  have hdigest := Option.some.inj hrendered
  refine ⟨option, _, ⟨profile, hprofile, hsigner, huser, hdevice, hcopy⟩, hdigest.symm, hdigests, ?_,
    hfits, hoffered, ?_, hpayload⟩
  · intro hzero
    rw [hrendered] at hempty
    exact hempty (congrArg some hzero)
  · rw [← trimmedNotes_eq, ← trimmedNotes_eq, trimmedNotes_trimmedNotes]

/-! ## Along a submission -/

/-- Only a question to the holder of the key can break it. -/
def OnlySigning (P : Trace → Prop) : Prop :=
  ∀ e t, (∀ payload, e ≠ .asked (.sign payload)) → P t → P (e :: t)

theorem OnlySigning.closed {P : Trace → Prop} (h : OnlySigning P) : Closed P where
  get m t _ ht := h _ t (fun payload heq => by cases heq) ht
  answered m r t ht := h _ t (fun payload heq => by cases heq) ht
  held s t ht := h _ t (fun payload heq => by cases heq) ht

theorem onlySigning_signsAnswers : OnlySigning (SignsAnswers E device nonce signedAt params) := by
  intro e t he ht payload hmem
  obtain heq | hmem := List.mem_cons.mp hmem
  · exact absurd heq.symm (he payload)
  · obtain ⟨content, key, option, input, h⟩ := ht payload hmem
    exact ⟨content, key, option, input, h.cons e⟩

variable {P : Trace → Prop}

theorem always_send (h : OnlySigning P) (hops : Nat) (m : HttpRequest) {t : Trace} (ht : P t) :
    Always P (fun _ t => P t) (NodApi.send hops m) t := by
  have hask : ∀ (m : HttpRequest) (t : Trace), P t → P (.asked (.http m) :: t) := by
    intro m t ht
    exact h _ t (fun payload heq => by cases heq) ht
  induction hops generalizing m t with
  | zero =>
    refine ⟨ht, hask m t ht, fun reply => ?_⟩
    have hanswered := h.closed.answered (.http m) reply _ (hask m t ht)
    exact ⟨hanswered, hanswered⟩
  | succ hops ih =>
    refine ⟨ht, hask m t ht, fun reply => ?_⟩
    have hanswered := h.closed.answered (.http m) reply _ (hask m t ht)
    cases hnext : followed m reply with
    | none =>
      simp only [hnext]
      exact ⟨hanswered, hanswered⟩
    | some next =>
      simp only [hnext]
      exact ih next hanswered

theorem always_request (h : OnlySigning P) (retries : Nat) (m : HttpRequest) {t : Trace} (ht : P t) :
    Always P (fun _ t => P t) (NodApi.request retries m) t := by
  induction retries generalizing t with
  | zero =>
    refine Always.bind ((always_send h NodApi.maxRedirects m ht).mono ?_)
    intro reply t ht
    obtain _ | r := reply
    · exact ⟨ht, ht⟩
    · exact ⟨ht, ht⟩
  | succ retries ih =>
    refine Always.bind ((always_send h NodApi.maxRedirects m ht).mono ?_)
    intro reply t ht
    obtain _ | r := reply
    · exact ⟨ht, ht⟩
    · dsimp only
      split
      · exact ih ht
      · exact ⟨ht, ht⟩

/-- Nothing is signed after the post. -/
theorem always_post (h : OnlySigning P) (profile : ServerProfile) (option : SubmitRequestOptionParams)
    (signature : DecisionSignature) {t : Trace} (ht : P t) :
    Always P (fun _ t => P t) (postDecision profile option signature) t := by
  refine Always.bind ((always_request h _ _ ht).mono ?_)
  intro result t ht
  obtain e | request := result
  · refine Always.bind ((always_request h _ _ ht).mono ?_)
    intro current t ht
    obtain _ | current := current
    · exact ⟨ht, ht⟩
    · refine Always.bind ((always_applyTargetedRequest h.closed profile.id current ht).mono ?_)
      intro _ t ht
      exact ⟨ht, ht⟩
  · refine Always.bind ((always_applyTargetedRequest h.closed profile.id request ht).mono ?_)
    intro _ t ht
    exact ⟨ht, ht⟩

theorem signsAnswers_of_quiet {t : Trace} (h : Quiet t) :
    SignsAnswers E device nonce signedAt params t :=
  fun payload hmem => absurd hmem (h.2 payload)

/-- The one question to the holder of the key, and what follows. -/
theorem always_signed {profile : ServerProfile} {content : Request} {t : Trace} (h : Quiet t)
    (hprofile : device.serverProfile params.serverId = .ok profile)
    (hcopy : HeldLocally profile.id params.requestId t content ∨ Fetched t content) :
    Always (SignsAnswers E device nonce signedAt params)
      (fun _ t => SignsAnswers E device nonce signedAt params t)
      (andThen (decisionSignature E device nonce signedAt profile content
        { params with
          expectedRequestDigest := Text.trim params.expectedRequestDigest
          text := params.text.bind trimmedText }) fun signature =>
        postDecision profile
          { params with
            expectedRequestDigest := Text.trim params.expectedRequestDigest
            text := params.text.bind trimmedText } signature) t := by
  have hquiet : SignsAnswers E device nonce signedAt params t := signsAnswers_of_quiet h
  unfold andThen decisionSignature
  cases hprepared : preparedSignature E device nonce signedAt profile content
      { params with
        expectedRequestDigest := Text.trim params.expectedRequestDigest
        text := params.text.bind trimmedText } with
  | error e => exact ⟨hquiet, hquiet⟩
  | ok prepared =>
    obtain ⟨key, requestDigest, payload⟩ := prepared
    obtain ⟨option, input, hsigns⟩ := signsAnswer_of_prepared hprofile hcopy hprepared
    have hasked : SignsAnswers E device nonce signedAt params (.asked (.sign payload) :: t) := by
      intro payload' hmem
      obtain heq | hmem := List.mem_cons.mp hmem
      · cases heq
        exact ⟨content, key, option, input, hsigns.cons _⟩
      · exact absurd hmem (h.2 payload')
    refine ⟨hquiet, hasked, fun signature => ?_⟩
    have hanswered := onlySigning_signsAnswers.closed.answered (.sign payload) signature _ hasked
    obtain e | signature := signature
    · exact ⟨hanswered, hanswered⟩
    · exact always_post onlySigning_signsAnswers profile _ _ hanswered

theorem always_signsAnswers (device : Device) (nonce : String) (signedAt : DateTime)
    (params : SubmitRequestOptionParams) :
    Always (SignsAnswers E device nonce signedAt params)
      (fun _ t => SignsAnswers E device nonce signedAt params t)
      (submitRequestOption E device nonce signedAt params) [] := by
  have hnil : SignsAnswers E device nonce signedAt params [] := signsAnswers_of_quiet quiet_nil
  unfold submitRequestOption
  cases htarget : submissionTarget device params with
  | error e => exact ⟨hnil, hnil⟩
  | ok target =>
    obtain ⟨profile, renderedDigest⟩ := target
    obtain ⟨hprofile, rfl⟩ := submissionTarget_eq_ok htarget
    have hread := @always_checkAuthoritative profile (Text.trim params.expectedRequestDigest)
      params.requestId [] quiet_nil
    refine Always.bind ((hread.weaken fun t => signsAnswers_of_quiet).mono ?_)
    intro result t hresult
    obtain ⟨ht, hfetched⟩ := hresult
    cases result with
    | error e => exact ⟨signsAnswers_of_quiet ht, signsAnswers_of_quiet ht⟩
    | ok authoritative =>
      refine ⟨signsAnswers_of_quiet ht, fun s => ?_⟩
      refine always_signed (closed_quiet.held s t ht) hprofile ?_
      by_cases hselected : s.state.selectedServerId = some profile.id
      · rw [if_pos hselected]
        cases hcontent : s.requestsById[params.requestId]? with
        | none => exact .inr ((hfetched authoritative rfl).cons _)
        | some content => exact .inl ⟨s, List.mem_cons_self, hselected, hcontent⟩
      · rw [if_neg hselected]
        exact .inr ((hfetched authoritative rfl).cons _)

/-- In every run, whatever the server answers and whatever the sync task does. -/
theorem signsAnswer_of_asked {s : StateReducer} (c : Reached E device nonce signedAt params s)
    {payload : String} (h : .asked (.sign payload) ∈ c.val.trace) : ∃ content key option input,
    SignsAnswer E device nonce signedAt params c.val.trace content key option input payload :=
  ((always_signsAnswers device nonce signedAt params).reaches c.property).1 payload h

end Nod.Client
