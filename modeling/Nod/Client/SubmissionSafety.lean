import Nod.Client.Delivery
import Nod.Client.Submission
import Nod.Proto.Concrete

/-
  What a submission can have done at any moment, whatever the server answers and whatever the sync
  task does.
  Proved: a payload that the key's holder is asked to sign covers the rendered digest, of a copy with
  that content and an option that it offers; every post carries such a signature; and a decision is
  posted once, unless the server answers the post itself by redirecting it with a 307 or a 308
  (`submission_binds`).
-/

namespace Nod.Client

open Lib Flow Nod.Proto

variable (E : Externals)

/-! ## What a trace says -/

def post? : Event StateReducer Ask Reply → Option HttpRequest
  | .asked (.http m) => if m.method = .post then some m else none
  | _ => none

/-- The posts of a trace, the latest first. -/
def posts (t : Trace) : List HttpRequest := t.filterMap post?

/-- A response to a post that makes the HTTP client send the post again. -/
def repeatsPost : Event StateReducer Ask Reply → Bool
  | .answered (.http m) reply => (followed m reply).any fun next => next.method = .post
  | _ => false

def repeats (t : Trace) : Nat := t.countP repeatsPost

/-- Nothing but reads so far. -/
def Quiet (t : Trace) : Prop := posts t = [] ∧ ∀ payload, .asked (.sign payload) ∉ t

/-- A response to a read had this content. -/
def Fetched (t : Trace) (content : Request) : Prop :=
  ∃ m r, m.method = .get ∧ .answered (.http m) (some r) ∈ t ∧ r.request = some content

/-- The shared state had this content for the request when the task looked. -/
def HeldLocally (serverId requestId : String) (t : Trace) (content : Request) : Prop :=
  ∃ s, .held s ∈ t ∧ s.state.selectedServerId = some serverId ∧
    s.requestsById[requestId]? = some content

/-- An option of the content, or the dismissal of an ordinary card that has none. -/
def Offers (content : Request) (option : OptionRef) : Prop :=
  (∃ o ∈ content.options, o.id = option.id ∧ o.kind = option.kind) ∨
    content.options = [] ∧ content.answerField = none ∧ option = ⟨implicitDismissOptionId, .dismiss⟩

/-- A payload over the rendered digest, of the content it is the digest of. -/
structure Covers (params : SubmitRequestOptionParams) (content : Request) (option : OptionRef)
    (input : DecisionSigningInput) (payload : String) : Prop where
  rendered : input.requestDigest = Text.trim params.expectedRequestDigest ∧ input.requestDigest ≠ ""
  recomputed : digestsOf E content = .ok (input.requestDigest, input.requestDigest)
  answered : checkAnswer content params.answerValue = .ok ()
  offered : option.id = params.optionId ∧ Offers content option
  same : input.requestId = content.id ∧ input.optionId = option.id ∧ input.optionKind = option.kind
  payload : signedPayload E input params.answerValue = .ok payload

/-- A payload is signed over the local copy or the one that was read. -/
def Reviewed (device : Device) (params : SubmitRequestOptionParams) (t : Trace) (payload : String) :
    Prop :=
  ∃ content option input profile, device.serverProfile params.serverId = .ok profile ∧
    (HeldLocally profile.id params.requestId t content ∨ Fetched t content) ∧
    Covers E params content option input payload

/-- A post carries a signature that was made before it, and the digest it was made for. -/
def Carries (params : SubmitRequestOptionParams) (t : Trace) (body : Option SubmitBody) : Prop :=
  ∃ payload signature record,
    .answered (.sign payload) (.ok signature) ∈ t ∧ record.signature = signature ∧
    record.requestDigest = Text.trim params.expectedRequestDigest ∧
    body = some
      { answerValue := params.answerValue, text := params.text.bind trimmedText
        signature := some record }

/-- What holds of a submission at any moment. -/
structure Sound (device : Device) (params : SubmitRequestOptionParams) (t : Trace) : Prop where
  signatures : ∀ payload, .asked (.sign payload) ∈ t → Reviewed E device params t payload
  bodies : ∀ m ∈ posts t, Carries params t m.body
  count : (posts t).length ≤ repeats t + 1

/-! ## Reads keep it -/

/-- What no read changes. -/
structure Closed (P : Trace → Prop) : Prop where
  get : ∀ m t, m.method = .get → P t → P (.asked (.http m) :: t)
  answered : ∀ m r t, P t → P (.answered m r :: t)
  held : ∀ s t, P t → P (.held s :: t)

theorem posts_get {m : HttpRequest} (h : m.method = .get) (t : Trace) :
    posts (.asked (.http m) :: t) = posts t := by
  unfold posts post?
  rw [List.filterMap_cons_none]
  simp [h]

theorem posts_post {m : HttpRequest} (h : m.method = .post) (t : Trace) :
    posts (.asked (.http m) :: t) = m :: posts t := by
  unfold posts post?
  rw [List.filterMap_cons_some]
  simp [h]

@[simp] theorem posts_sign (payload : String) (t : Trace) :
    posts (.asked (.sign payload) :: t) = posts t := rfl

@[simp] theorem posts_answered (m : Ask) (r : Reply m) (t : Trace) :
    posts (.answered m r :: t) = posts t := rfl

@[simp] theorem posts_held (s : StateReducer) (t : Trace) : posts (.held s :: t) = posts t := rfl

@[simp] theorem repeats_asked (m : Ask) (t : Trace) : repeats (.asked m :: t) = repeats t := by
  unfold repeats
  rw [List.countP_cons_of_neg]
  simp [repeatsPost]

@[simp] theorem repeats_held (s : StateReducer) (t : Trace) :
    repeats (.held s :: t) = repeats t := by
  unfold repeats
  rw [List.countP_cons_of_neg]
  simp [repeatsPost]

theorem repeats_le_cons (e : Event StateReducer Ask Reply) (t : Trace) :
    repeats t ≤ repeats (e :: t) :=
  List.Sublist.countP_le (List.sublist_cons_self e t)

theorem closed_quiet : Closed Quiet where
  get m t hm h := by
    refine ⟨(posts_get hm t).trans h.1, ?_⟩
    intro payload
    rw [List.mem_cons, not_or]
    exact ⟨by simp, h.2 payload⟩
  answered m r t h := ⟨h.1, fun payload => by rw [List.mem_cons, not_or]; exact ⟨by simp, h.2 payload⟩⟩
  held s t h := ⟨h.1, fun payload => by rw [List.mem_cons, not_or]; exact ⟨by simp, h.2 payload⟩⟩

variable {E}

theorem Fetched.cons {t : Trace} {content : Request} (h : Fetched t content)
    (e : Event StateReducer Ask Reply) : Fetched (e :: t) content := by
  obtain ⟨m, r, hm, hmem, hr⟩ := h
  exact ⟨m, r, hm, List.mem_cons_of_mem e hmem, hr⟩

theorem Reviewed.cons {device : Device} {params : SubmitRequestOptionParams} {t : Trace}
    {payload : String} (h : Reviewed E device params t payload)
    (e : Event StateReducer Ask Reply) : Reviewed E device params (e :: t) payload := by
  obtain ⟨content, option, input, profile, hprofile, hshown, hcovers⟩ := h
  refine ⟨content, option, input, profile, hprofile, ?_, hcovers⟩
  obtain ⟨s, hs, hheld⟩ | hfetched := hshown
  · exact .inl ⟨s, List.mem_cons_of_mem e hs, hheld⟩
  · exact .inr (hfetched.cons e)

theorem Carries.cons {params : SubmitRequestOptionParams} {t : Trace} {body : Option SubmitBody}
    (h : Carries params t body) (e : Event StateReducer Ask Reply) : Carries params (e :: t) body := by
  obtain ⟨payload, signature, record, hmem, hrecord⟩ := h
  exact ⟨payload, signature, record, List.mem_cons_of_mem e hmem, hrecord⟩

variable {device : Device} {params : SubmitRequestOptionParams}

/-- An event that neither asks for a signature nor posts. -/
theorem Sound.cons {t : Trace} (h : Sound E device params t) {e : Event StateReducer Ask Reply}
    (hposts : posts (e :: t) = posts t) (hsign : ∀ payload, e ≠ .asked (.sign payload)) :
    Sound E device params (e :: t) where
  signatures payload hmem := by
    obtain heq | hmem := List.mem_cons.mp hmem
    · exact absurd heq.symm (hsign payload)
    · exact (h.signatures payload hmem).cons e
  bodies m hm := (h.bodies m (hposts ▸ hm)).cons e
  count := by
    have hle := repeats_le_cons e t
    have hcount := h.count
    rw [hposts]
    omega

theorem closed_sound : Closed (Sound E device params) where
  get m t hm h := h.cons (posts_get hm t) (by simp)
  answered m r t h := h.cons (posts_answered m r t) (by simp)
  held s t h := h.cons (posts_held s t) (by simp)

theorem sound_of_quiet {t : Trace} (h : Quiet t) : Sound E device params t where
  signatures payload hmem := absurd hmem (h.2 payload)
  bodies m hm := by
    rw [h.1] at hm
    exact absurd hm List.not_mem_nil
  count := by
    rw [h.1]
    exact Nat.zero_le _

/-! ## Requests -/

theorem method_of_redirected {m next : HttpRequest} {r : Response} (h : redirected m r = some next) :
    next.method = .get ∨ next.method = m.method ∧ next.body = m.body := by
  unfold redirected at h
  obtain ⟨url, -, h⟩ := Option.bind_eq_some_iff.mp h
  split at h
  · exact .inl (Option.some.inj h ▸ rfl)
  · split at h
    · exact .inr (Option.some.inj h ▸ ⟨rfl, rfl⟩)
    · cases h

theorem redirected_of_followed {m next : HttpRequest} {reply : Option Response}
    (h : followed m reply = some next) : ∃ r, reply = some r ∧ redirected m r = some next :=
  Option.bind_eq_some_iff.mp h

variable {P : Trace → Prop}

/-- A read, wherever it is redirected to. -/
theorem always_send_get (h : Closed P) (hops : Nat) {m : HttpRequest} (hm : m.method = .get)
    {t : Trace} (ht : P t) :
    Always P (fun reply t => P t ∧ ∀ r content, reply = some r → r.request = some content →
      Fetched t content) (NodApi.send hops m) t := by
  have hfetched : ∀ {m : HttpRequest} {reply : Option Response} {t : Trace}, m.method = .get →
      ∀ r content, reply = some r → r.request = some content →
        Fetched (.answered (.http m) reply :: .asked (.http m) :: t) content := by
    intro m reply t hm r content hreply hcontent
    exact ⟨m, r, hm, hreply ▸ List.mem_cons_self, hcontent⟩
  induction hops generalizing m t with
  | zero =>
    have hasked := h.get m t hm ht
    refine ⟨ht, hasked, fun reply => ?_⟩
    have hanswered := h.answered (.http m) reply _ hasked
    refine ⟨hanswered, hanswered, ?_⟩
    intro r content hr
    split at hr
    · cases hr
    · exact hfetched hm r content hr
  | succ hops ih =>
    have hasked := h.get m t hm ht
    refine ⟨ht, hasked, fun reply => ?_⟩
    have hanswered := h.answered (.http m) reply _ hasked
    cases hnext : followed m reply with
    | none =>
      simp only [hnext]
      exact ⟨hanswered, hanswered, fun r content => hfetched hm r content⟩
    | some next =>
      simp only [hnext]
      obtain ⟨r, -, hredirected⟩ := redirected_of_followed hnext
      have hget : next.method = .get := by
        obtain hget | ⟨hsame, -⟩ := method_of_redirected hredirected
        · exact hget
        · exact hsame.trans hm
      exact ih hget hanswered

theorem received_eq_ok {r : Response} {content : Request}
    (h : NodApi.request.received r = .ok content) : r.request = some content := by
  unfold NodApi.request.received at h
  split at h
  · cases h
  · exact orElse_eq_ok.mp h

/-- A read with its retries; what it returns has been received. -/
theorem always_request_get (h : Closed P) (retries : Nat) {m : HttpRequest} (hm : m.method = .get)
    {t : Trace} (ht : P t) :
    Always P (fun result t => P t ∧ ∀ content, result = .ok content → Fetched t content)
      (NodApi.request retries m) t := by
  induction retries generalizing t with
  | zero =>
    refine Always.bind ((always_send_get h NodApi.maxRedirects hm ht).mono ?_)
    intro reply t ⟨ht, hreply⟩
    cases reply with
    | none => exact ⟨ht, ht, fun content hcontent => by cases hcontent⟩
    | some r => exact ⟨ht, ht, fun content hr => hreply r content rfl (received_eq_ok hr)⟩
  | succ retries ih =>
    refine Always.bind ((always_send_get h NodApi.maxRedirects hm ht).mono ?_)
    intro reply t ⟨ht, hreply⟩
    cases reply with
    | none => exact ⟨ht, ht, fun content hcontent => by cases hcontent⟩
    | some r =>
      dsimp only
      split
      · exact ih ht
      · exact ⟨ht, ht, fun content hr => hreply r content rfl (received_eq_ok hr)⟩

theorem always_applyTargetedRequest (h : Closed P) (serverId : String) (request : Request)
    {t : Trace} (ht : P t) :
    Always P (fun _ t => P t) (applyTargetedRequest serverId request) t := by
  refine ⟨ht, fun s => ?_⟩
  have hheld := h.held s t ht
  dsimp only
  split
  · exact ⟨hheld, fun s' => ⟨h.held s' _ hheld, h.held s' _ hheld⟩⟩
  · exact ⟨hheld, hheld⟩

/-! ## The post -/

/-- A decision is out, and nothing that has been asked since breaks what holds of a submission. -/
def Posted (device : Device) (params : SubmitRequestOptionParams) (t : Trace) : Prop :=
  Sound E device params t ∧ posts t ≠ []

theorem closed_posted : Closed (Posted (E := E) device params) where
  get m t hm h := ⟨closed_sound.get m t hm h.1, by rw [posts_get hm]; exact h.2⟩
  answered m r t h := ⟨closed_sound.answered m r t h.1, h.2⟩
  held s t h := ⟨closed_sound.held s t h.1, h.2⟩

theorem repeats_answered {m next : HttpRequest} {reply : Option Response}
    (h : followed m reply = some next) (hpost : next.method = .post) (t : Trace) :
    repeats (.answered (.http m) reply :: t) = repeats t + 1 := by
  unfold repeats
  rw [List.countP_cons_of_pos]
  simp [repeatsPost, h, hpost]

theorem posted_of_asked {m : HttpRequest} (hm : m.method = .post) {t : Trace}
    (h : Sound E device params t) (hcount : (posts t).length ≤ repeats t)
    (hbody : Carries params t m.body) :
    Posted (E := E) device params (.asked (.http m) :: t) := by
  refine ⟨?_, by rw [posts_post hm]; exact List.cons_ne_nil _ _⟩
  refine ⟨?_, ?_, ?_⟩
  · intro payload hmem
    obtain heq | hmem := List.mem_cons.mp hmem
    · cases heq
    · exact (h.signatures payload hmem).cons _
  · intro next hnext
    rw [posts_post hm] at hnext
    obtain rfl | hnext := List.mem_cons.mp hnext
    · exact hbody.cons _
    · exact (h.bodies next hnext).cons _
  · rw [posts_post hm, repeats_asked, List.length_cons]
    omega

/-- The post, and its repetitions where the server redirects it. -/
theorem always_send_post (hops : Nat) {m : HttpRequest} (hm : m.method = .post) {t : Trace}
    (h : Sound E device params t) (hcount : (posts t).length ≤ repeats t)
    (hbody : Carries params t m.body) :
    Always (Sound E device params) (fun _ t => Posted (E := E) device params t)
      (NodApi.send hops m) t := by
  induction hops generalizing m t with
  | zero =>
    have hasked := posted_of_asked hm h hcount hbody
    refine ⟨h, hasked.1, fun reply => ?_⟩
    have hanswered := closed_posted.answered (.http m) reply _ hasked
    exact ⟨hanswered.1, hanswered⟩
  | succ hops ih =>
    have hasked := posted_of_asked hm h hcount hbody
    refine ⟨h, hasked.1, fun reply => ?_⟩
    have hanswered := closed_posted.answered (.http m) reply _ hasked
    cases hnext : followed m reply with
    | none =>
      simp only [hnext]
      exact ⟨hanswered.1, hanswered⟩
    | some next =>
      simp only [hnext]
      obtain ⟨r, -, hredirected⟩ := redirected_of_followed hnext
      by_cases hget : next.method = .get
      · -- the decision is not sent again
        have hread := always_send_get closed_posted hops hget hanswered
        exact (hread.weaken fun t h => h.1).mono fun _ t h => h.1
      · obtain hget' | ⟨hsame, hsameBody⟩ := method_of_redirected hredirected
        · exact absurd hget' hget
        · have hpost := hsame.trans hm
          refine ih hpost hanswered.1 ?_ ?_
          · rw [repeats_answered hnext hpost, repeats_asked, posts_answered, posts_post hm,
              List.length_cons]
            omega
          · rw [hsameBody]
            exact (hbody.cons _).cons _

/-- A post is not retried. -/
theorem always_request_post (retries : Nat) {m : HttpRequest} (hm : m.method = .post) {t : Trace}
    (h : Sound E device params t) (hcount : (posts t).length ≤ repeats t)
    (hbody : Carries params t m.body) :
    Always (Sound E device params) (fun _ t => Posted (E := E) device params t)
      (NodApi.request retries m) t := by
  cases retries with
  | zero =>
    refine Always.bind ((always_send_post NodApi.maxRedirects hm h hcount hbody).mono ?_)
    intro reply t ht
    cases reply with
    | none | some r => exact ⟨ht.1, ht⟩
  | succ retries =>
    refine Always.bind ((always_send_post NodApi.maxRedirects hm h hcount hbody).mono ?_)
    intro reply t ht
    cases reply with
    | none => exact ⟨ht.1, ht⟩
    | some r =>
      have hne : ¬ (m.method = .get ∧ r.status ∈ [502, 503, 504]) := by
        intro hget
        rw [hm] at hget
        cases hget.1
      simp only [if_neg hne]
      exact ⟨ht.1, ht⟩

/-! ## The submission -/

/-- A result follows a post. -/
def ResultPosted (device : Device) (params : SubmitRequestOptionParams)
    (result : Except String Request) (t : Trace) : Prop :=
  Sound E device params t ∧ ∀ r, result = .ok r → posts t ≠ []

theorem always_error {e : String} {t : Trace} (h : Sound E device params t) :
    Always (Sound E device params) (ResultPosted (E := E) device params) (.done (.error e)) t :=
  ⟨h, h, fun r hr => by cases hr⟩

theorem always_postDecision {profile : ServerProfile} {option : SubmitRequestOptionParams}
    {signature : DecisionSignature} {t : Trace} (h : Sound E device params t) (hposts : posts t = [])
    (hbody : Carries params t (some
      { answerValue := option.answerValue, text := option.text, signature := some signature })) :
    Always (Sound E device params) (ResultPosted (E := E) device params)
      (postDecision profile option signature) t := by
  have hcount : (posts t).length ≤ repeats t := by
    rw [hposts]
    exact Nat.zero_le _
  refine Always.bind ((always_request_post _ rfl h hcount hbody).mono ?_)
  intro result t ht
  cases result with
  | ok request =>
    have happly := always_applyTargetedRequest closed_posted profile.id request ht
    refine Always.bind ((happly.weaken fun t h => h.1).mono ?_)
    intro _ t ht
    exact ⟨ht.1, ht.1, fun _ _ => ht.2⟩
  | error e =>
    have hread := always_request_get closed_sound NodApi.maxRetries
      (m := { method := .get, target := .request option.requestId, body := none }) rfl ht.1
    refine Always.bind (hread.mono ?_)
    intro current t ⟨ht, _⟩
    cases current with
    | error _ => exact always_error ht
    | ok current =>
      refine Always.bind ((always_applyTargetedRequest closed_sound profile.id current ht).mono ?_)
      intro _ t ht
      exact always_error ht

theorem offers_of_optionFor {content : Request} {optionId : String} {option : OptionRef}
    (h : optionFor content optionId = .ok option) : option.id = optionId ∧ Offers content option := by
  unfold optionFor at h
  split at h
  · next o hfind =>
    have hid : o.id = optionId := by simpa using List.find?_some hfind
    cases h
    exact ⟨hid, .inl ⟨o, List.mem_of_find?_eq_some hfind, rfl, rfl⟩⟩
  · split at h
    · next hdismiss =>
      cases h
      exact ⟨hdismiss.2.1.symm, .inr ⟨hdismiss.2.2, hdismiss.1, rfl⟩⟩
    · cases h

/-- What is prepared for the signer covers the rendered digest. -/
theorem covers_of_prepared {nonce : String} {signedAt : DateTime} {profile : ServerProfile}
    {content : Request} {option : SubmitRequestOptionParams} {key : DeviceKey}
    {requestDigest payload : String}
    (hexpected : option.expectedRequestDigest = Text.trim params.expectedRequestDigest)
    (hsame : option.answerValue = params.answerValue ∧ option.optionId = params.optionId)
    (h : preparedSignature E device nonce signedAt profile content option =
      .ok (key, requestDigest, payload)) :
    requestDigest = Text.trim params.expectedRequestDigest ∧
      ∃ offered input, Covers E params content offered input payload := by
  unfold preparedSignature preparedDecision at h
  simp only [bind_eq_ok, refuseIf_eq_ok, pure_eq_ok, not_or, not_not, Prod.exists,
    Prod.mk.injEq] at h
  obtain ⟨_, -, key, -, userId, -, deviceId, -, _, _, ⟨_, hanswer, digest, recomputed, hdigests, _,
    ⟨-, hempty, hrendered⟩, _, rfl, offered, hoffered, prepared, hpayload, rfl, rfl⟩, rfl, rfl, rfl⟩ := h
  have hdigest := Option.some.inj hrendered
  rw [hexpected] at hdigest
  refine ⟨hdigest.symm, offered, _, ⟨hdigest.symm, ?_⟩, hdigests, hsame.1 ▸ hanswer,
    hsame.2 ▸ offers_of_optionFor hoffered, ⟨rfl, rfl, rfl⟩, hsame.1 ▸ hpayload⟩
  intro hzero
  rw [hrendered] at hempty
  exact hempty (congrArg some hzero)

theorem Quiet.reviewed {t : Trace} (h : Quiet t) {payload : String}
    (hreviewed : Reviewed E device params t payload) :
    Sound E device params (.asked (.sign payload) :: t) where
  signatures payload' hmem := by
    obtain heq | hmem := List.mem_cons.mp hmem
    · cases heq
      exact hreviewed.cons _
    · exact absurd hmem (h.2 payload')
  bodies m hm := by
    rw [posts_sign, h.1] at hm
    exact absurd hm List.not_mem_nil
  count := by
    rw [posts_sign, h.1]
    exact Nat.zero_le _

/-- The signature of a copy that was held or read, and the post that carries it. -/
theorem always_signAndPost {nonce : String} {signedAt : DateTime} {profile : ServerProfile}
    {content : Request} {option : SubmitRequestOptionParams} {t : Trace} (h : Quiet t)
    (hprofile : device.serverProfile params.serverId = .ok profile)
    (hshown : HeldLocally profile.id params.requestId t content ∨ Fetched t content)
    (hoption : option =
      { params with
        expectedRequestDigest := Text.trim params.expectedRequestDigest
        text := params.text.bind trimmedText }) :
    Always (Sound E device params) (ResultPosted (E := E) device params)
      (andThen (decisionSignature E device nonce signedAt profile content option) fun signature =>
        postDecision profile option signature) t := by
  have hsound : Sound E device params t := sound_of_quiet h
  unfold andThen decisionSignature
  cases hprepared : preparedSignature E device nonce signedAt profile content option with
  | error e => exact always_error hsound
  | ok prepared =>
    obtain ⟨key, requestDigest, payload⟩ := prepared
    obtain ⟨hdigest, offered, input, hcovers⟩ := covers_of_prepared (by rw [hoption])
      ⟨by rw [hoption], by rw [hoption]⟩ hprepared
    have hasked := h.reviewed ⟨content, offered, input, profile, hprofile, hshown, hcovers⟩
    refine ⟨hsound, hasked, fun signature => ?_⟩
    have hanswered := closed_sound.answered (.sign payload) signature _ hasked
    cases signature with
    | error e => exact always_error hanswered
    | ok signature =>
      refine always_postDecision hanswered h.1 ?_
      refine ⟨payload, signature,
        signatureRecord key nonce signedAt option.answerValue requestDigest signature,
        List.mem_cons_self, rfl, hdigest, ?_⟩
      rw [hoption]

theorem always_checkAuthoritative {profile : ServerProfile} {renderedDigest requestId : String}
    {t : Trace} (h : Quiet t) :
    Always Quiet (fun result t => Quiet t ∧ ∀ content, result = .ok content → Fetched t content)
      (andThen (NodApi.getRequest requestId) (checkAuthoritative profile renderedDigest)) t := by
  have hread := always_request_get closed_quiet NodApi.maxRetries
    (m := { method := .get, target := .request requestId, body := none }) rfl h
  refine Always.bind (hread.mono ?_)
  intro result t ⟨ht, hfetched⟩
  cases result with
  | error e => exact ⟨ht, ht, fun content hcontent => by cases hcontent⟩
  | ok authoritative =>
    dsimp only
    unfold checkAuthoritative
    split
    · refine Always.bind ((always_applyTargetedRequest closed_quiet profile.id authoritative ht).mono ?_)
      intro _ t ht
      exact ⟨ht, ht, fun content hcontent => by cases hcontent⟩
    · split
      · exact ⟨ht, ht, fun content hcontent => by cases hcontent⟩
      · refine ⟨ht, ht, fun content hcontent => ?_⟩
        exact hfetched content hcontent

theorem submissionTarget_eq_ok {profile : ServerProfile} {renderedDigest : String}
    (h : submissionTarget device params = .ok (profile, renderedDigest)) :
    device.serverProfile params.serverId = .ok profile ∧
      renderedDigest = Text.trim params.expectedRequestDigest := by
  unfold submissionTarget at h
  simp only [bind_eq_ok, refuseIf_eq_ok, pure_eq_ok, Prod.mk.injEq] at h
  obtain ⟨profile, hprofile, _, -, _, -, rfl, rfl⟩ := h
  exact ⟨hprofile, rfl⟩

theorem quiet_nil : Quiet [] := ⟨rfl, fun _ => List.not_mem_nil⟩

theorem always_submitRequestOption (device : Device) (nonce : String) (signedAt : DateTime)
    (params : SubmitRequestOptionParams) :
    Always (Sound E device params) (ResultPosted (E := E) device params)
      (submitRequestOption E device nonce signedAt params) [] := by
  unfold submitRequestOption
  cases htarget : submissionTarget device params with
  | error e => exact always_error (sound_of_quiet quiet_nil)
  | ok target =>
    obtain ⟨profile, renderedDigest⟩ := target
    obtain ⟨hprofile, rfl⟩ := submissionTarget_eq_ok htarget
    have hread := @always_checkAuthoritative profile (Text.trim params.expectedRequestDigest)
      params.requestId [] quiet_nil
    refine Always.bind ((hread.weaken fun t => sound_of_quiet).mono ?_)
    intro result t ⟨ht, hfetched⟩
    cases result with
    | error e => exact always_error (sound_of_quiet ht)
    | ok authoritative =>
      refine ⟨sound_of_quiet ht, fun s => ?_⟩
      have hheld := closed_quiet.held s t ht
      refine always_signAndPost hheld hprofile ?_ rfl
      by_cases hselected : s.state.selectedServerId = some profile.id
      · rw [if_pos hselected]
        cases hcontent : s.requestsById[params.requestId]? with
        | none => exact .inr ((hfetched authoritative rfl).cons _)
        | some content => exact .inl ⟨s, List.mem_cons_self, hselected, hcontent⟩
      · rw [if_neg hselected]
        exact .inr ((hfetched authoritative rfl).cons _)

/-! ## Every run -/

variable (E)

/-- Where a submission can stand that starts in `s`. -/
abbrev Reached (device : Device) (nonce : String) (signedAt : DateTime)
    (params : SubmitRequestOptionParams) (s : StateReducer) : Type :=
  {c : SubmitConfig //
    Reaches SyncStep ⟨.running (submitRequestOption E device nonce signedAt params), s, []⟩ c}

/-- A submission signs the rendered digest or nothing, posts what it signed, and once. -/
structure Submits (device : Device) (params : SubmitRequestOptionParams) (c : SubmitConfig) :
    Prop where
  /-- Each payload to be signed is over the rendered digest, of a copy with that content. -/
  signatures : ∀ payload, .asked (.sign payload) ∈ c.trace → Reviewed E device params c.trace payload
  /-- Each post carries such a signature. -/
  bodies : ∀ m ∈ posts c.trace, Carries params c.trace m.body
  /-- One post, where the server does not redirect it. -/
  once : repeats c.trace = 0 → (posts c.trace).length ≤ 1
  /-- Without a signature nothing is posted and no request is returned. -/
  refused : (∀ payload signature, .answered (.sign payload) (.ok signature) ∉ c.trace) →
    posts c.trace = [] ∧ ∀ r, c.position ≠ .running (.done (.ok r))

theorem submission_binds (device : Device) (nonce : String) (signedAt : DateTime)
    (params : SubmitRequestOptionParams) (s : StateReducer)
    (c : Reached E device nonce signedAt params s) : Submits E device params c.val := by
  obtain ⟨hsound, hresult⟩ :=
    (always_submitRequestOption device nonce signedAt params).reaches c.property
  have hquiet : (∀ payload signature, .answered (.sign payload) (.ok signature) ∉ c.val.trace) →
      posts c.val.trace = [] := by
    intro hunsigned
    rw [List.eq_nil_iff_forall_not_mem]
    intro m hm
    obtain ⟨payload, signature, _, hmem, _⟩ := hsound.bodies m hm
    exact hunsigned payload signature hmem
  refine ⟨hsound.signatures, hsound.bodies, ?_, ?_⟩
  · intro hdirect
    have hcount := hsound.count
    omega
  · intro hunsigned
    refine ⟨hquiet hunsigned, fun r hdone => ?_⟩
    exact (hresult _ hdone).2 r rfl (hquiet hunsigned)

/-! ## A decision that is posted twice -/

/-- A card without options, with its digest. -/
def dismissibleCard : Request :=
  { pendingCard with requestDigest := some (requestDigestLegacyLineSnapshot E pendingCard) }

def laptopProfile : ServerProfile :=
  { id := "srv-1", credentialId := none, name := "Nod", baseUrlString := "https://nod.example"
    deviceName := "Laptop", deviceId := some "device-1", userId := some "alice"
    userName := some "Alice" }

def sampleDevice : Device where
  servers := [laptopProfile]
  apiForProfile _ := .ok ()
  deviceSignerFor _ := .ok (some ⟨"key-1", decisionSigningAlgorithm⟩)

def sampleParams : SubmitRequestOptionParams :=
  { answerValue := none, expectedRequestDigest := requestDigestLegacyLineSnapshot E pendingCard
    serverId := "srv-1", requestId := "req-1", optionId := "dismiss", text := none }

/-- The server answers the read with the card and the post by sending the client elsewhere. -/
def redirectingServer : List ((m : Ask) → Reply m) :=
  [fun
    | .http _ => some { status := 200, location := none, request := some (dismissibleCard E) }
    | .sign _ => .ok "",
   fun
    | .http _ => none
    | .sign _ => .ok "signature",
   fun
    | .http _ => some { status := 307, location := some "https://else.example", request := none }
    | .sign _ => .ok ""]

theorem one_lt_sixty : 1 < 60 := by decide

def doublePost : SubmitConfig :=
  (submitRequestOption E sampleDevice "nonce" (noon 1 one_lt_sixty) (sampleParams E)).play
    (.new [] none "default") (redirectingServer E) []

theorem trim_sha256Hex (s : String) : Text.trim (E.sha256Hex s) = E.sha256Hex s := by
  have hblank : ∀ c ∈ (E.sha256Hex s).toList, Text.isWhitespace c ≠ true := by
    intro c hc
    have hhex := E.sha256Hex_lowerHex s c hc
    have hrange : 48 ≤ c.toNat ∧ c.toNat ≤ 57 ∨ 97 ≤ c.toNat ∧ c.toNat ≤ 102 := by
      simpa [Text.isLowerHex, Char.isDigit, Char.le_def, UInt32.le_iff_toNat_le] using hhex
    intro hspace
    simp [Text.isWhitespace] at hspace
    omega
  rw [Text.trim_eq_self_iff]
  unfold Text.trimChars
  have hleft : (E.sha256Hex s).toList.dropWhile Text.isWhitespace = (E.sha256Hex s).toList :=
    List.dropWhile_eq_self_iff.mpr fun hl => hblank _ (List.getElem_mem hl)
  rw [hleft]
  exact List.rdropWhile_eq_self_iff.mpr fun hl => hblank _ (List.getLast_mem hl)

theorem digest_ne_empty (r : Request) : requestDigestLegacyLineSnapshot E r ≠ "" := by
  intro hempty
  have hlength := E.sha256Hex_length (lineSnapshot E r)
  unfold requestDigestLegacyLineSnapshot at hempty
  rw [hempty] at hlength
  revert hlength
  decide

theorem submissionTarget_sample : submissionTarget sampleDevice (sampleParams E) =
    .ok (laptopProfile, requestDigestLegacyLineSnapshot E pendingCard) := by
  have htrim : Text.trim (requestDigestLegacyLineSnapshot E pendingCard) =
      requestDigestLegacyLineSnapshot E pendingCard := trim_sha256Hex E _
  have hne := digest_ne_empty E pendingCard
  unfold submissionTarget
  rw [bind_eq_ok]
  refine ⟨laptopProfile, rfl, bind_eq_ok.mpr ⟨(), ?_, bind_eq_ok.mpr ⟨(), rfl, ?_⟩⟩⟩
  · exact refuseIf_neg (by rw [sampleParams, htrim]; exact hne) _
  · rw [sampleParams, htrim]
    rfl

/-- What the client prepares for the card and its signer. -/
theorem preparedSignature_sample : ∃ payload, preparedSignature E sampleDevice "nonce" (noon 1)
    laptopProfile (dismissibleCard E)
    { sampleParams E with
      expectedRequestDigest := requestDigestLegacyLineSnapshot E pendingCard
      text := (sampleParams E).text.bind trimmedText } =
    .ok (⟨"key-1", decisionSigningAlgorithm⟩, requestDigestLegacyLineSnapshot E pendingCard,
      payload) := by
  have hdigests : digestsOf E (dismissibleCard E) = .ok (requestDigestLegacyLineSnapshot E pendingCard,
      requestDigestLegacyLineSnapshot E pendingCard) := rfl
  have hne : requestDigestLegacyLineSnapshot E pendingCard ≠ "" := digest_ne_empty E _
  unfold preparedSignature preparedDecision
  refine ⟨_, bind_eq_ok.mpr ⟨_, rfl, bind_eq_ok.mpr ⟨_, rfl, bind_eq_ok.mpr ⟨_, rfl,
    bind_eq_ok.mpr ⟨_, rfl, bind_eq_ok.mpr ⟨_, bind_eq_ok.mpr ⟨(), rfl, bind_eq_ok.mpr ⟨_, hdigests,
      bind_eq_ok.mpr ⟨(), ?_, bind_eq_ok.mpr ⟨(), ?_, bind_eq_ok.mpr ⟨_, rfl,
        bind_eq_ok.mpr ⟨_, rfl, rfl⟩⟩⟩⟩⟩⟩, rfl⟩⟩⟩⟩⟩⟩
  · exact refuseIf_neg (by simp [hne]) _
  · exact refuseIf_neg (by simp) _

/-- What is posted for the card. -/
def sampleBody : SubmitBody :=
  { answerValue := none, text := none
    signature := some (signatureRecord ⟨"key-1", decisionSigningAlgorithm⟩ "nonce" (noon 1 one_lt_sixty) none
      (requestDigestLegacyLineSnapshot E pendingCard) "signature") }

theorem trace_doublePost : ∃ payload, (doublePost E).trace =
    [.asked (.http
        { method := .post, target := .location "https://else.example", body := some (sampleBody E) }),
      .answered (.http
          { method := .post, target := .option "req-1" "dismiss", body := some (sampleBody E) })
        (some { status := 307, location := some "https://else.example", request := none }),
      .asked (.http
        { method := .post, target := .option "req-1" "dismiss", body := some (sampleBody E) }),
      .answered (.sign payload) (.ok "signature"), .asked (.sign payload),
      .held (.new [] none "default"),
      .answered (.http { method := .get, target := .request "req-1", body := none })
        (some { status := 200, location := none, request := some (dismissibleCard E) }),
      .asked (.http { method := .get, target := .request "req-1", body := none })] := by
  obtain ⟨payload, hprepared⟩ := preparedSignature_sample E
  have hasserted : assertedRequestDigest (dismissibleCard E) =
      some (requestDigestLegacyLineSnapshot E pendingCard) := rfl
  refine ⟨payload, ?_⟩
  have hcheck : checkAuthoritative laptopProfile (requestDigestLegacyLineSnapshot E pendingCard)
      (dismissibleCard E) = .done (.ok (dismissibleCard E)) := by
    have hpending : (dismissibleCard E).status = .pending := rfl
    unfold checkAuthoritative
    rw [if_neg (not_not.mpr hpending), if_neg (not_not.mpr hasserted)]
  let option : SubmitRequestOptionParams :=
    { sampleParams E with
      expectedRequestDigest := requestDigestLegacyLineSnapshot E pendingCard
      text := (sampleParams E).text.bind trimmedText }
  let read : Trace :=
    [.answered (.http { method := .get, target := .request "req-1", body := none })
        (some { status := 200, location := none, request := some (dismissibleCard E) }),
      .asked (.http { method := .get, target := .request "req-1", body := none })]
  -- after the read
  have hread : doublePost E = (andThen (checkAuthoritative laptopProfile
      (requestDigestLegacyLineSnapshot E pendingCard) (dismissibleCard E))
        (signRendered E sampleDevice "nonce" (noon 1) laptopProfile option)).play
          (.new [] none "default") ((redirectingServer E).drop 1) read := by
    unfold doublePost submitRequestOption
    rw [submissionTarget_sample]
    rfl
  -- after the look at the shared state
  have hheld : doublePost E = (andThen (decisionSignature E sampleDevice "nonce" (noon 1) laptopProfile
      (dismissibleCard E) option) (postDecision laptopProfile option)).play (.new [] none "default")
        ((redirectingServer E).drop 1) (.held (.new [] none "default") :: read) := by
    rw [hread, hcheck]
    rfl
  rw [hheld]
  unfold decisionSignature
  rw [hprepared]
  rfl

/-- The server gets two posts of one decision, signed for an option that the card does not list. -/
theorem decision_posted_twice :
    Reaches SyncStep
      ⟨.running (submitRequestOption (Concrete.packages []) sampleDevice "nonce" (noon 1)
        (sampleParams (Concrete.packages []))), .new [] none "default", []⟩
      (doublePost (Concrete.packages [])) ∧
    (posts (doublePost (Concrete.packages [])).trace).length = 2 ∧
    (∃ payload, .answered (.sign payload) (.ok "signature") ∈
      (doublePost (Concrete.packages [])).trace) ∧
    ¬ ∃ o ∈ (dismissibleCard (Concrete.packages [])).options,
      o.id = (sampleParams (Concrete.packages [])).optionId := by
  obtain ⟨payload, htrace⟩ := trace_doublePost (Concrete.packages [])
  refine ⟨reaches_play _ _ _ _, ?_, ⟨payload, ?_⟩, ?_⟩
  · rw [htrace]
    rfl
  · rw [htrace]
    simp
  · have hnone : (dismissibleCard (Concrete.packages [])).options = [] := rfl
    rw [hnone]
    simp

end Nod.Client
