import Nod.Server.Answering

/-
  Calls that fail. A mutation is one transaction, so wherever it fails it has written nothing, and
  what it was refused for is all that stands against sending it again.
  Proved: `rejections_harmless`, in every state the server reaches.
-/

namespace Nod.Server

open Lib Nod.Proto

variable {P : Packages}

/-- The calls that change requests one transaction at a time. -/
def Op.isMutation : Op → Bool
  | .createRequest _ _ _ => true
  | .recordDecision _ _ => true
  | .cancelRequest _ _ => true
  | .expireDueRequests _ => true
  | _ => false

/-- The call ends in an error. -/
def Call.Fails (P : Packages) (c : Call) (s : Db) : Prop := ∃ e, (c.exec P s).1 = .error e

/-- A submission as a call. -/
structure SubmitCall where
  env : Env
  submission : DecisionSubmission
  faults : List Bool

namespace SubmitCall

def toCall (c : SubmitCall) : Call := ⟨.recordDecision c.env c.submission, c.faults⟩

def exec (P : Packages) (c : SubmitCall) (s : Db) : Except ApiError DecisionRequest × Db :=
  Prog.exec databaseError (recordDecision P c.env c.submission) c.faults s

/-- The same call on a store that works is accepted. -/
def Acceptable (P : Packages) (c : SubmitCall) (s : Db) : Prop :=
  ∃ r, ({ c with faults := [] }.exec P s).1 = .ok r

/-- Refused, and only because the store failed during the call. -/
structure FailedByStore (P : Packages) (c : SubmitCall) (s : Db) : Prop where
  refused : ∃ e, (c.exec P s).1 = .error e
  acceptable : c.Acceptable P s

/-- The same submission later, to a store that works. -/
structure Resent (c c' : SubmitCall) : Prop where
  submission : c'.submission = c.submission
  faults : c'.faults = []

/-- The request is pending and has not expired. -/
structure Open (P : Packages) (c : SubmitCall) (s : Db) : Prop where
  pending : ∃ row, s.requests.get? c.submission.requestId = some row ∧ row.status = .pending
  unexpired : ∀ r, readRequest P s c.submission.requestId = .ok r →
    ∀ t, r.expiresAt = some t → ¬ t ≤ c.env.now 0

/-- Nobody has used the nonce, answered for the user or revoked the device. -/
structure Untaken (c : SubmitCall) (s : Db) : Prop where
  active : ∀ device, c.submission.actorDevice = some device → deviceActive device.id s = true
  nonce : ∀ device provided, c.submission.actorDevice = some device →
    c.submission.decision.signature = some provided →
      s.nonces.get? (device.id, provided.keyId, provided.nonce) = none
  unanswered : ∀ userId, c.submission.actorUserId = some userId →
    s.userDecisions.get? (c.submission.requestId, userId) = none

end SubmitCall

/-- What failed calls leave behind in a state. -/
structure RejectionsHarmless (P : Packages) (s : Db) : Prop where
  unchanged : ∀ c : Call, c.op.isMutation = true → c.Fails P s → c.after P s = s
  resent : ∀ c c' : SubmitCall, c.submission.actorDevice ≠ none → c.FailedByStore P s →
    c.Resent c' → c'.Open P s → Ready c'.env s → ∃ r, (c'.exec P (c.exec P s).2).1 = .ok r
  resentLater : ∀ (c c' : SubmitCall) more, c.submission.actorDevice ≠ none →
    c.FailedByStore P s → c.Resent c' → c'.Open P (run P more s) → c'.Untaken (run P more s) →
      Ready c'.env (run P more s) → ∃ r, (c'.exec P (run P more (c.exec P s).2)).1 = .ok r

/-! ## Failed calls -/

theorem after_of_fails (c : Call) (hc : c.op.isMutation = true) {s : Db} (h : c.Fails P s) :
    c.after P s = s := by
  obtain ⟨op, faults⟩ := c
  obtain ⟨e, he⟩ := h
  unfold Call.after
  have hexec : ∀ {α : Type} {p : Sql α}, Prog.Transactional p →
      (Prog.exec databaseError p faults s).1 = .error e →
        (Prog.exec databaseError p faults s).2 = s := by
    intro α p hp herror
    exact Prog.exec_error hp (Prod.ext herror rfl)
  cases op with
  | createRequest env req metadata =>
    exact hexec (transactional_createRequest P env req metadata) he
  | recordDecision env submission => exact hexec (transactional_recordDecision P env submission) he
  | cancelRequest env requestId => exact hexec (transactional_cancelRequest P env requestId) he
  | expireDueRequests env => exact hexec (transactional_expireDueRequests P env) he
  | deleteChannel channelId => cases hc
  | bindOrigin principal requestId origin => cases hc
  | pruneRetention env retentionDays => cases hc
  | admin op => cases hc

/-! ## Sending a submission again -/

section

variable {request request' : DecisionRequest} {submission : DecisionSubmission}
  {option : RequestOption}

theorem answerPolicy_issued (hsame : request'.issued = request.issued)
    (h : answerPolicy request submission = .ok ()) : answerPolicy request' submission = .ok () := by
  have hfield : request'.answerField = request.answerField := by
    have hfield := congrArg DecisionRequest.answerField hsame
    exact hfield
  unfold answerPolicy at h ⊢
  rw [hfield]
  exact h

theorem chooseOption_issued (hsame : request'.issued = request.issued) {optionId : String}
    (h : chooseOption request optionId = .ok option) : chooseOption request' optionId = .ok option := by
  have hfield : request'.answerField = request.answerField := by
    have hfield := congrArg DecisionRequest.answerField hsame
    exact hfield
  have hoptions : request'.options = request.options := by
    have hoptions := congrArg DecisionRequest.options hsame
    exact hoptions
  unfold chooseOption implicitDismissOption at h ⊢
  rw [hfield, hoptions]
  exact h

/-- A signature is good for every read of the request. -/
theorem SignatureValid.issued {actor : Device} {text : Option String} {provided : DecisionSignature}
    {answer : Option AnswerValue} {payload : String}
    (h : SignatureValid P request option actor text provided answer payload)
    (hsame : request'.issued = request.issued) :
    SignatureValid P request' option actor text provided answer payload := by
  have hid : request'.id = request.id := by
    have hid := congrArg DecisionRequest.id hsame
    exact hid
  have hfield : request'.answerField = request.answerField := by
    have hfield := congrArg DecisionRequest.answerField hsame
    exact hfield
  have hdigests : digestCandidates P request' = digestCandidates P request := by
    rw [← digestCandidates_issued request', ← digestCandidates_issued request, hsame]
  refine ⟨h.keyId, h.publicKey, h.deviceAlgorithm, h.algorithm, h.nonce, ?_, ?_⟩
  · rw [hdigests]
    exact h.digest
  · obtain ⟨t, ht, hpayload⟩ := h.signedAt
    refine ⟨t, ht, ?_⟩
    unfold expectedPayload signingInput at hpayload ⊢
    rw [hfield, hid]
    exact hpayload

end

namespace SubmitCall

variable {c c' : SubmitCall} {s : Db}

theorem exec_ok_of_eval (hfaults : c.faults = []) {r : DecisionRequest × Db}
    (h : Prog.eval databaseError (recordDecision P c.env c.submission) s = .ok r) :
    ∃ r, (c.exec P s).1 = .ok r := by
  unfold SubmitCall.exec
  rw [hfaults, Prog.exec_nil_of_eval (transactional_recordDecision P c.env c.submission) h]
  exact ⟨r.1, rfl⟩

theorem eval_of_acceptable (h : c.Acceptable P s) :
    ∃ r, Prog.eval databaseError (recordDecision P c.env c.submission) s = .ok r := by
  obtain ⟨r, hr⟩ := h
  exact ⟨_, Prog.exec_ok (transactional_recordDecision P c.env c.submission) (Prod.ext hr rfl)⟩

/-- What an acceptable submission needs is not taken. -/
theorem untaken_of_acceptable (hs : WellFormed P s) (h : c.Acceptable P s) : c.Untaken s := by
  obtain ⟨r, heval⟩ := eval_of_acceptable h
  obtain ⟨request, option, signature, signed, stored, hchecked, hsigned, hstored, -, -⟩ :=
    (eval_recordDecision_eq_ok P).mp heval
  refine ⟨hchecked.active, fun device provided hdevice hprovided => ?_, fun userId huser => ?_⟩
  · cases hsigned with
    | internal hnone _ =>
      rw [hnone] at hdevice
      cases hdevice
    | device actor provided' payload nonces hactor hprovided' _ _ _ _ hins =>
      rw [hactor] at hdevice
      rw [hprovided'] at hprovided
      cases hdevice
      cases hprovided
      exact (Table.insert?_eq_some.mp hins).1
  · have hdecisions : signed.userDecisions = s.userDecisions := by rw [hsigned.rest]
    obtain ⟨row, version, digest, hrow, hreads⟩ := (readRequest_eq_ok P).mp hchecked.read
    rw [← hdecisions]
    cases hresolution : request.decisionResolution with
    | shared =>
      have hshared : row.decisionResolution = .shared := hreads.decisionResolution ▸ hresolution
      have hanswers := ((hs.good hrow).1.shared hshared).1
      cases hget : signed.userDecisions.get? (c.submission.requestId, userId) with
      | none => rfl
      | some answer =>
        have hmem := Table.mem_of_get? hget
        have hkey : answer.key = (c.submission.requestId, userId) := Table.key_of_get? hget
        have hrowid : row.id = c.submission.requestId := Table.key_of_get? hrow
        have hlisted : (answer.userId, answer.decision) ∈ s.answersOf row.id := by
          rw [hdecisions] at hmem
          refine List.mem_map.mpr ⟨answer, List.mem_filter.mpr ⟨hmem, ?_⟩, rfl⟩
          rw [hrowid]
          exact decide_eq_true (Prod.mk.inj hkey).1
        have hempty : s.answersOf row.id = [] := hanswers
        rw [hempty] at hlisted
        exact absurd hlisted List.not_mem_nil
    | perUser =>
      rw [hresolution] at hstored
      cases hstored with
      | user userId' userDecisions hactor _ _ hins =>
        rw [huser] at hactor
        cases hactor
        exact (Table.insert?_eq_some.mp hins).1

/-- An acceptable submission is acceptable later, while the request is open and nothing it needs is
    taken. -/
theorem accepted_later (hs : WellFormed P s) (hl : Legible P s) (hdevice : c.submission.actorDevice ≠ none)
    (h : c.Acceptable P s) (hresent : c.Resent c') (more : List Call)
    (hopen : c'.Open P (run P more s)) (huntaken : c'.Untaken (run P more s))
    (hready : Ready c'.env (run P more s)) : ∃ r, (c'.exec P (run P more s)).1 = .ok r := by
  obtain ⟨hsubmission, hfaults⟩ := hresent
  obtain ⟨⟨row', hrow', hpending⟩, hunexpired⟩ := hopen
  obtain ⟨hactive, hnonce, hunanswered⟩ := huntaken
  rw [hsubmission] at hrow' hunexpired hactive hnonce hunanswered
  have hs' := wellFormed_run more hs
  obtain ⟨request', hread'⟩ := (legible_run more hs hl).reads _ row' hrow'
  obtain ⟨row'', version, digest, hrow'', hreads'⟩ := (readRequest_eq_ok P).mp hread'
  rw [hrow'] at hrow''
  cases hrow''
  obtain ⟨r, heval⟩ := eval_of_acceptable h
  obtain ⟨request, option, signature, signed, stored, hchecked, hsigned, hstored, -, happend⟩ :=
    (eval_recordDecision_eq_ok P).mp heval
  have hsame := issued_run hs more hchecked.read hread'
  have hrecipients : request'.recipients = request.recipients := by
    have hrecipients := congrArg DecisionRequest.recipients hsame
    exact hrecipients
  have hresolution : request'.decisionResolution = request.decisionResolution := by
    have hresolution := congrArg DecisionRequest.decisionResolution hsame
    exact hresolution
  have hchecked' : Checked P c'.env c.submission (run P more s) request' option := by
    refine ⟨hread', answerPolicy_issued hsame hchecked.policy, hactive, ?_,
      hunexpired request' hread', chooseOption_issued hsame hchecked.option, ?_⟩
    · rw [hrecipients]
      exact hchecked.recipient
    · rw [hreads'.status, hpending]
  obtain ⟨row, node, happended⟩ := appended_of_eval happend
  have hnode : s.integrationMeta.get? "node_id" = some ("node_id", node) := by
    have hnamed := happended.named
    rw [hstored.rest, hsigned.rest] at hnamed
    exact hnamed
  cases hsigned with
  | internal hnone _ => exact absurd hnone hdevice
  | device actor provided payload nonces hactor hprovided hpub hkey hvalid _ _ =>
    have henrolled : (run P more s).devices.get? actor.id ≠ none := by
      intro hgone
      have hlive := hactive actor hactor
      unfold deviceActive at hlive
      rw [hgone] at hlive
      cases hlive
    have hwell : WellSigned P c.submission request' option (run P more s) actor provided payload :=
      ⟨hactor, hprovided, hpub, hkey, hvalid.issued hsame, henrolled⟩
    have huser : request'.decisionResolution = .perUser → ∃ userId,
        c.submission.actorUserId = some userId ∧
          (run P more s).userDecisions.get? (c.submission.requestId, userId) = none := by
      intro hperUser
      rw [hresolution] at hperUser
      rw [hperUser] at hstored
      cases hstored with
      | user userId _ hactorUser _ _ _ => exact ⟨userId, hactorUser, hunanswered userId hactorUser⟩
    obtain ⟨r', heval'⟩ := exists_recorded hs' hready hchecked' hwell
      (hnonce actor provided hactor hprovided) huser (node_run more hs hnode)
    rw [← hsubmission] at heval'
    exact exec_ok_of_eval hfaults heval'

end SubmitCall

theorem rejections_harmless (calls : List Call) : RejectionsHarmless P (run P calls Db.empty) where
  unchanged c hc hfails := after_of_fails c hc hfails
  resent c c' hdevice hfailed hresent hopen hready := by
    have hs := wellFormed_run_empty (P := P) calls
    have hsame : (c.exec P (run P calls Db.empty)).2 = run P calls Db.empty :=
      after_of_fails c.toCall rfl hfailed.refused
    have huntaken := SubmitCall.untaken_of_acceptable hs hfailed.acceptable
    have huntaken' : c'.Untaken (run P calls Db.empty) := by
      obtain ⟨hactive, hnonce, hunanswered⟩ := huntaken
      rw [← hresent.submission] at hactive hnonce hunanswered
      exact ⟨hactive, hnonce, hunanswered⟩
    rw [hsame]
    exact SubmitCall.accepted_later hs (legible_run_empty calls) hdevice hfailed.acceptable hresent []
      hopen huntaken' hready
  resentLater c c' more hdevice hfailed hresent hopen huntaken hready := by
    have hsame : (c.exec P (run P calls Db.empty)).2 = run P calls Db.empty :=
      after_of_fails c.toCall rfl hfailed.refused
    rw [hsame]
    exact SubmitCall.accepted_later (wellFormed_run_empty calls) (legible_run_empty calls) hdevice
      hfailed.acceptable hresent more hopen huntaken hready

end Nod.Server
