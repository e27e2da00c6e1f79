import Nod.Proto.Injective
import Nod.Server.Readback

/-
  A create as a call: its slot among the idempotency keys, its fingerprint, the checks before its
  transaction, and what it does once they pass.
  Proved: `requestFingerprint_inj`, a fingerprint names body and origin where the hash does not
  collide; `eval_createRequest`, a create that passes its checks replays the binding of its slot or
  goes on in the channel; `eval_createInChannel_eq_ok`, there it joins a pending request or makes one.
-/

namespace Nod.Server

open Lib Nod.Proto

variable (P : Packages)

/-! ## Calls -/

structure CreateCall where
  env : Env
  req : CreateDecisionRequest
  metadata : CreateRequestMetadata
  faults : List Bool

namespace CreateCall

def toCall (c : CreateCall) : Call := ⟨.createRequest c.env c.req c.metadata, c.faults⟩

def exec (c : CreateCall) (s : Db) : Except ApiError CreatedDecisionRequest × Db :=
  Prog.exec databaseError (createRequest P c.env c.req c.metadata) c.faults s

end CreateCall

def CreateRequestMetadata.scope (metadata : CreateRequestMetadata) : String :=
  metadata.createdByIssuerTokenId.getD "admin"

def CreateRequestMetadata.key (metadata : CreateRequestMetadata) : Option String :=
  metadata.idempotencyKey.map Text.trim

/-- Where a create looks for its key: issuer scope, channel and trimmed key. -/
def CreateCall.slot (c : CreateCall) : Option (String × String × String) :=
  c.metadata.key.map fun key => (c.metadata.scope, c.req.channelId, key)

/-! ## Fingerprints -/

/-- The text an origin-bound fingerprint is the hash of. -/
def originText (legacy : String) (origin : Origin) : String :=
  (Json.arr [.str "origin-v1", .str legacy, origin.toJson]).text

/-- The hash tells the texts of two creates apart. -/
structure NoCollision (req req' : CreateDecisionRequest) (origin origin' : Option Origin) :
    Prop where
  body : P.sha256Hex req.toJson.text = P.sha256Hex req'.toJson.text →
    req.toJson.text = req'.toJson.text
  origins : ∀ o ∈ origin, ∀ o' ∈ origin',
    P.sha256Hex (originText (P.sha256Hex req.toJson.text) o) =
        P.sha256Hex (originText (P.sha256Hex req'.toJson.text) o') →
      originText (P.sha256Hex req.toJson.text) o = originText (P.sha256Hex req'.toJson.text) o'

section

variable {P}

theorem requestFingerprint_none {req : CreateDecisionRequest} {fingerprint : String} :
    requestFingerprint P req none = .ok fingerprint ↔
      fingerprint = P.sha256Hex req.toJson.text :=
  ⟨fun h => (Except.ok.inj h).symm, fun h => congrArg Except.ok h.symm⟩

theorem requestFingerprint_some {req : CreateDecisionRequest} {origin : Origin}
    {fingerprint : String} :
    requestFingerprint P req (some origin) = .ok fingerprint ↔
      origin.validate = .ok () ∧ fingerprint =
        "origin-v1:" ++ P.sha256Hex (originText (P.sha256Hex req.toJson.text) origin) := by
  simp only [requestFingerprint, bind_eq_ok, pure_eq_ok]
  constructor
  · rintro ⟨_, hvalid, h⟩
    exact ⟨hvalid, h.symm⟩
  · rintro ⟨hvalid, h⟩
    exact ⟨(), hvalid, h.symm⟩

theorem Origin.toJson_inj {a b : Origin} (h : a.toJson = b.toJson) : a = b := by
  simp only [Origin.toJson, Json.obj.injEq, List.cons.injEq, Prod.mk.injEq, Json.str.injEq,
    true_and, and_true] at h
  obtain ⟨hsession, hdirectory, hreference⟩ := h
  cases a
  cases b
  rw [Origin.mk.injEq]
  exact ⟨hsession, hdirectory, optStr_inj hreference⟩

theorem Origin.plain_toJson (origin : Origin) : Plain origin.toJson :=
  plain_obj_cons (by decide) (plain_str _) (plain_obj_cons (by decide) (plain_str _)
    (plain_obj_cons (by decide) (plain_optStr _) plain_obj_nil))

theorem floatFree_originText (legacy : String) (origin : Origin) :
    (Json.arr [.str "origin-v1", .str legacy, origin.toJson]).FloatFree :=
  ⟨trivial, trivial, origin.plain_toJson.1, trivial⟩

theorem originText_inj {legacy legacy' : String} {origin origin' : Origin}
    (h : originText legacy origin = originText legacy' origin') :
    legacy = legacy' ∧ origin = origin' := by
  have harr := Json.text_inj (floatFree_originText legacy origin)
    (floatFree_originText legacy' origin') h
  simp only [Json.arr.injEq, List.cons.injEq, Json.str.injEq, true_and, and_true] at harr
  exact ⟨harr.1, Origin.toJson_inj harr.2⟩

/-- A bare fingerprint is hexadecimal and an origin-bound one is not. -/
theorem sha256Hex_ne_originFingerprint (s t : String) :
    P.sha256Hex s ≠ "origin-v1:" ++ P.sha256Hex t := by
  intro h
  have hmem : 'o' ∈ (P.sha256Hex s).toList := by
    rw [h, String.toList_append]
    exact List.mem_append_left _ (by decide)
  exact absurd (P.sha256Hex_lowerHex s _ hmem) (by decide)

/-- Equal fingerprints are fingerprints of one body and origin. -/
theorem requestFingerprint_inj {req req' : CreateDecisionRequest} {origin origin' : Option Origin}
    {fingerprint : String} (hapart : NoCollision P req req' origin origin')
    (h : requestFingerprint P req origin = .ok fingerprint)
    (h' : requestFingerprint P req' origin' = .ok fingerprint) : req' = req ∧ origin' = origin := by
  cases origin with
  | none =>
    rw [requestFingerprint_none] at h
    cases origin' with
    | none =>
      rw [requestFingerprint_none] at h'
      have htext := hapart.body (h.symm.trans h')
      exact ⟨(CreateDecisionRequest.text_inj htext).symm, rfl⟩
    | some o' =>
      obtain ⟨-, h'⟩ := requestFingerprint_some.mp h'
      exact absurd (h.symm.trans h') (sha256Hex_ne_originFingerprint _ _)
  | some o =>
    obtain ⟨-, h⟩ := requestFingerprint_some.mp h
    cases origin' with
    | none =>
      rw [requestFingerprint_none] at h'
      exact absurd (h'.symm.trans h) (sha256Hex_ne_originFingerprint _ _)
    | some o' =>
      obtain ⟨-, h'⟩ := requestFingerprint_some.mp h'
      have hhash := String.append_right_inj _ |>.mp (h.symm.trans h')
      obtain ⟨hbody, horigin⟩ := originText_inj (hapart.origins o rfl o' rfl hhash)
      exact ⟨(CreateDecisionRequest.text_inj (hapart.body hbody)).symm, by rw [horigin]⟩

end

/-! ## The checks before the transaction -/

structure Passes (req : CreateDecisionRequest) (metadata : CreateRequestMetadata)
    (fingerprint : String) : Prop where
  valid : validateRequest P req = .ok ()
  options : validateOptions [] req.options = .ok ()
  key : checkIdempotencyKey metadata.key = .ok ()
  fingerprint : requestFingerprint P req metadata.origin = .ok fingerprint

/-- What the key of a create is bound to. -/
def boundTo (req : CreateDecisionRequest) (metadata : CreateRequestMetadata) (db : Db) :
    Option IdempotencyRow :=
  metadata.key.bind fun key => db.idempotency.get? (metadata.scope, req.channelId, key)

def bindingOf (req : CreateDecisionRequest) (metadata : CreateRequestMetadata)
    (fingerprint : String) : IdempotencyBinding :=
  ⟨metadata.scope, req.channelId, metadata.key, fingerprint⟩

section

variable {P} {env : Env} {req : CreateDecisionRequest} {metadata : CreateRequestMetadata}
  {fingerprint : String}

theorem eval_findIdempotency (scope channelId : String) (key : Option String) (db : Db) :
    Prog.eval databaseError (findIdempotency scope channelId key) db =
      .ok (key.bind fun key => db.idempotency.get? (scope, channelId, key), db) := by
  cases key with
  | none => rfl
  | some key => rfl

/-- A create that passes its checks: a replay where its key is bound, the channel otherwise. -/
theorem eval_createRequest (h : Passes P req metadata fingerprint) (db : Db) :
    Prog.eval databaseError (createRequest P env req metadata) db =
      match boundTo req metadata db with
      | some row => Prog.eval databaseError (replayCreate P fingerprint row) db
      | none => Prog.eval databaseError
          (createInChannel P env req metadata (bindingOf req metadata fingerprint)) db := by
  have hkey : checkIdempotencyKey (metadata.idempotencyKey.map Text.trim) = .ok () := h.key
  simp only [createRequest, h.valid, h.options, hkey, h.fingerprint, Prog.lift_ok, Prog.ret_bind]
  rw [Prog.eval_bind, Prog.eval_beginTx]
  simp only [Prog.eval_bind, eval_findIdempotency]
  have hbound : ((metadata.idempotencyKey.map Text.trim).bind fun key =>
      db.idempotency.get? (metadata.createdByIssuerTokenId.getD "admin", req.channelId, key)) =
        boundTo req metadata db := rfl
  rw [hbound]
  cases boundTo req metadata db with
  | none => rfl
  | some row => rfl

/-- A create succeeds only past its checks. -/
theorem passes_of_eval {db : Db} {r : CreatedDecisionRequest × Db}
    (h : Prog.eval databaseError (createRequest P env req metadata) db = .ok r) :
    ∃ fingerprint, Passes P req metadata fingerprint := by
  simp only [createRequest, Prog.eval_bind_eq_ok, Prog.eval_lift_eq_ok] at h
  obtain ⟨_, _, ⟨hvalid, -⟩, _, _, ⟨hoptions, -⟩, _, _, ⟨hkey, -⟩, fingerprint, _,
    ⟨hfingerprint, -⟩, -⟩ := h
  exact ⟨fingerprint, hvalid, hoptions, hkey, hfingerprint⟩

/-- A body that is not well formed is refused before anything else. -/
theorem exec_of_invalid {e : ApiError} (h : validateRequest P req = .error e) (faults : List Bool)
    (db : Db) :
    Prog.exec databaseError (createRequest P env req metadata) faults db = (.error e, db) := by
  unfold createRequest
  rw [h]
  rfl

end

/-! ## Replays -/

section

variable {P} {fingerprint : String} {row : IdempotencyRow} {db : Db}

theorem eval_replayCreate (h : row.fingerprint = fingerprint) :
    Prog.eval databaseError (replayCreate P fingerprint row) db =
      (readRequest P db row.requestId).map fun r => (⟨r.id, true, r⟩, db) := by
  unfold replayCreate
  rw [refuseIf_neg (not_not.mpr h), Prog.lift_ok, Prog.ret_bind, Prog.eval_bind, eval_getRequestOn]
  cases readRequest P db row.requestId with
  | error e => rfl
  | ok r => rfl

theorem eval_replayCreate_of_ne (h : row.fingerprint ≠ fingerprint) :
    Prog.eval databaseError (replayCreate P fingerprint row) db = .error
      (.conflict "idempotency_key was already used for different request content") := by
  unfold replayCreate
  rw [refuseIf_pos h]
  rfl

end

/-! ## Recipients -/

/-- A requested recipient is trimmed and listed once. -/
def addRecipient (recipients : List String) (userId : String) : List String :=
  if Text.trim userId ∈ recipients then recipients else recipients ++ [Text.trim userId]

/-- The recipients of a create that names users who exist. -/
def recipientsFor (req : CreateDecisionRequest) (db : Db) : List String :=
  match req.recipients with
  | some requested => requested.foldl addRecipient []
  | none => subscribers req.channelId db

/-- Recipients that are named are users who exist. -/
def Resolvable (req : CreateDecisionRequest) (db : Db) : Prop :=
  ∀ requested ∈ req.recipients, requested ≠ [] ∧ ∀ userId ∈ requested,
    validateId (Text.trim userId) "user id" = .ok () ∧ userExists (Text.trim userId) db = true

theorem eval_resolveRequested_eq_ok {recipients requested : List String} {db : Db}
    {r : List String × Db} :
    Prog.eval databaseError (resolveRequested recipients requested) db = .ok r ↔
      r = (requested.foldl addRecipient recipients, db) ∧ ∀ userId ∈ requested,
        validateId (Text.trim userId) "user id" = .ok () ∧
          userExists (Text.trim userId) db = true := by
  induction requested generalizing recipients with
  | nil =>
    simp only [resolveRequested, Prog.eval_pure, Except.ok.injEq, List.foldl_nil, List.not_mem_nil,
      false_implies, implies_true, and_true]
    exact eq_comm
  | cons userId requested ih =>
    simp only [resolveRequested, Prog.eval_bind_eq_ok, Prog.eval_query, Prog.eval_lift_eq_ok,
      Except.ok.injEq, Prod.mk.injEq, refuseIf_eq_ok, Bool.not_eq_false, List.foldl_cons,
      List.forall_mem_cons]
    constructor
    · rintro ⟨_, _, ⟨hid, rfl⟩, _, _, ⟨rfl, rfl⟩, _, _, ⟨hfound, rfl⟩, hrest⟩
      obtain ⟨hr, hall⟩ := ih.mp hrest
      exact ⟨hr, ⟨hid, hfound⟩, hall⟩
    · rintro ⟨hr, ⟨hid, hfound⟩, hall⟩
      exact ⟨(), db, ⟨hid, rfl⟩, _, db, ⟨rfl, rfl⟩, (), db, ⟨hfound, rfl⟩, ih.mpr ⟨hr, hall⟩⟩

theorem eval_resolveRequestRecipients_eq_ok {req : CreateDecisionRequest} {db : Db}
    {r : List String × Db} :
    Prog.eval databaseError (resolveRequestRecipients req.channelId req.recipients) db = .ok r ↔
      r = (recipientsFor req db, db) ∧ Resolvable req db := by
  unfold recipientsFor Resolvable resolveRequestRecipients
  cases req.recipients with
  | none =>
    simp only [Prog.eval_query, Except.ok.injEq, Option.not_mem_none, false_implies, implies_true,
      and_true]
    exact eq_comm
  | some requested =>
    simp only [Prog.eval_bind_eq_ok, Prog.eval_lift_eq_ok, refuseIf_eq_ok,
      eval_resolveRequested_eq_ok, Option.mem_some_iff, forall_eq']
    constructor
    · rintro ⟨_, _, ⟨hne, rfl⟩, hr, hall⟩
      exact ⟨hr, hne, hall⟩
    · rintro ⟨hr, hne, hall⟩
      exact ⟨(), db, ⟨hne, rfl⟩, hr, hall⟩

/-! ## In the channel -/

/-- The pending request of a create's dedupe key. -/
def pendingFor (req : CreateDecisionRequest) (db : Db) : Option String :=
  req.dedupeKey.bind fun key => pendingByDedupeKey req.channelId key db

def Db.originOf (db : Db) (id : String) : Option Origin := (db.origins.get? id).map OriginRow.origin

/-- A create may join this pending request. -/
structure Joinable (req : CreateDecisionRequest) (origin : Option Origin)
    (recipients : List String) (request : DecisionRequest) (db : Db) : Prop where
  value : req.answerField ≠ none ∨ request.answerField ≠ none →
    ¬ differs req recipients request ∧ db.originOf request.id = origin
  origin : origin ≠ none → db.originOf request.id = origin

section

variable {P} {env : Env} {req : CreateDecisionRequest} {metadata : CreateRequestMetadata}
  {binding : IdempotencyBinding} {recipients : List String} {request : DecisionRequest} {db : Db}
  {r : CreatedDecisionRequest × Db}

theorem eval_findPending_eq_ok {r : Option DecisionRequest × Db} :
    Prog.eval databaseError (findPendingRequestByDedupeKey P req.channelId req.dedupeKey) db =
        .ok r ↔
      r.2 = db ∧ ((pendingFor req db = none ∧ r.1 = none) ∨
        ∃ id request, pendingFor req db = some id ∧ readRequest P db id = .ok request ∧
          r.1 = some request) := by
  unfold findPendingRequestByDedupeKey pendingFor
  cases req.dedupeKey with
  | none =>
    simp only [Prog.eval_pure, Except.ok.injEq, Option.bind_none, true_and, reduceCtorEq,
      false_and, exists_false, or_false]
    constructor
    · rintro rfl
      exact ⟨rfl, rfl⟩
    · rintro ⟨hdb, hnone⟩
      rw [← hdb, ← hnone]
  | some key =>
    simp only [Prog.eval_bind_eq_ok, Prog.eval_query, Except.ok.injEq, Prod.mk.injEq,
      Option.bind_some]
    constructor
    · rintro ⟨found, _, ⟨rfl, rfl⟩, h⟩
      cases hfound : pendingByDedupeKey req.channelId key db with
      | none =>
        rw [hfound, Prog.eval_pure, Except.ok.injEq] at h
        rw [← h]
        exact ⟨rfl, Or.inl ⟨rfl, rfl⟩⟩
      | some id =>
        rw [hfound] at h
        obtain ⟨request, _, hread, h⟩ := Prog.eval_bind_eq_ok.mp h
        obtain ⟨hread, rfl⟩ := (eval_getRequestOn_eq_ok P).mp hread
        cases h
        exact ⟨rfl, Or.inr ⟨id, request, rfl, hread, rfl⟩⟩
    · rintro ⟨hdb, ⟨hfound, hnone⟩ | ⟨id, request, hfound, hread, hsome⟩⟩
      · refine ⟨_, db, ⟨rfl, rfl⟩, ?_⟩
        rw [hfound, Prog.eval_pure, ← hdb, ← hnone]
      · refine ⟨_, db, ⟨rfl, rfl⟩, ?_⟩
        rw [hfound]
        refine Prog.eval_bind_eq_ok.mpr ⟨request, db, (eval_getRequestOn_eq_ok P).mpr ⟨hread, rfl⟩, ?_⟩
        change Except.ok (some request, db) = Except.ok r
        rw [← hdb, ← hsome]

theorem eval_originCheck_eq_ok {origin : Option Origin} {id : String} {e : ApiError}
    {r : Unit × Db} :
    Prog.eval databaseError (do
      let bound ← originOn id
      Prog.lift (refuseIf (bound ≠ origin) e)) db = .ok r ↔ db.originOf id = origin ∧ db = r.2 := by
  simp only [originOn, Prog.eval_bind_eq_ok, Prog.eval_query, Except.ok.injEq, Prod.mk.injEq,
    Prog.eval_lift_eq_ok, refuseIf_eq_ok, not_not]
  constructor
  · rintro ⟨_, _, ⟨rfl, rfl⟩, hbound, hdb⟩
    exact ⟨hbound, hdb⟩
  · rintro ⟨hbound, hdb⟩
    exact ⟨_, db, ⟨rfl, rfl⟩, hbound, hdb⟩

theorem eval_checkValueJoin_eq_ok {origin : Option Origin} {r : Unit × Db} :
    Prog.eval databaseError (checkValueJoin req origin recipients request) db = .ok r ↔
      (req.answerField ≠ none ∨ request.answerField ≠ none →
        ¬ differs req recipients request ∧ db.originOf request.id = origin) ∧ db = r.2 := by
  unfold checkValueJoin
  split
  · rename_i hvalue
    rw [Prog.eval_bind_eq_ok]
    constructor
    · rintro ⟨_, s, hdiffers, hcheck⟩
      obtain ⟨hdiffers, rfl⟩ := Prog.eval_lift_eq_ok.mp hdiffers
      obtain ⟨horigin, hdb⟩ := eval_originCheck_eq_ok.mp hcheck
      exact ⟨fun _ => ⟨refuseIf_eq_ok.mp hdiffers, horigin⟩, hdb⟩
    · rintro ⟨hsame, hdb⟩
      obtain ⟨hdiffers, horigin⟩ := hsame hvalue
      exact ⟨(), db, Prog.eval_lift_eq_ok.mpr ⟨refuseIf_eq_ok.mpr hdiffers, rfl⟩,
        eval_originCheck_eq_ok.mpr ⟨horigin, hdb⟩⟩
  · rename_i hordinary
    rw [Prog.eval_pure, Except.ok.injEq]
    constructor
    · rintro rfl
      exact ⟨fun hvalue => absurd hvalue hordinary, rfl⟩
    · rintro ⟨-, hdb⟩
      rw [hdb]

theorem eval_checkOriginJoin_eq_ok {origin : Option Origin} {r : Unit × Db} :
    Prog.eval databaseError (checkOriginJoin origin request) db = .ok r ↔
      (origin ≠ none → db.originOf request.id = origin) ∧ db = r.2 := by
  unfold checkOriginJoin
  split
  · rename_i horigin
    rw [eval_originCheck_eq_ok]
    constructor
    · rintro ⟨hbound, hdb⟩
      exact ⟨fun _ => hbound, hdb⟩
    · rintro ⟨hbound, hdb⟩
      exact ⟨hbound horigin, hdb⟩
  · rename_i hnone
    rw [Prog.eval_pure, Except.ok.injEq]
    constructor
    · rintro rfl
      exact ⟨fun h => absurd h hnone, rfl⟩
    · rintro ⟨-, hdb⟩
      rw [hdb]

/-- A create joins a request it may join, and binds its key to it. -/
theorem eval_joinPending_eq_ok {origin : Option Origin} :
    Prog.eval databaseError (joinPending req origin binding recipients request) db = .ok r ↔
      Joinable req origin recipients request db ∧
        Prog.eval databaseError (bindIdempotency binding request.id) db = .ok ((), r.2) ∧
          r.1 = ⟨request.id, true, request⟩ := by
  simp only [joinPending, Prog.eval_bind_eq_ok, eval_checkValueJoin_eq_ok,
    eval_checkOriginJoin_eq_ok, Prog.eval_commitTx, Prog.eval_pure, Except.ok.injEq, Prod.mk.injEq]
  constructor
  · rintro ⟨_, _, ⟨hvalue, rfl⟩, _, _, ⟨horigin, rfl⟩, _, _, hbind, _, _, ⟨_, rfl⟩, rfl⟩
    exact ⟨⟨hvalue, horigin⟩, hbind, rfl⟩
  · rintro ⟨hjoin, hbind, hr⟩
    refine ⟨(), db, ⟨hjoin.value, rfl⟩, (), db, ⟨hjoin.origin, rfl⟩, (), r.2, hbind, (), r.2,
      ⟨trivial, rfl⟩, ?_⟩
    rw [← hr]

/-- A create whose key is not bound joins a pending request or makes one. -/
theorem eval_createInChannel_eq_ok :
    Prog.eval databaseError (createInChannel P env req metadata binding) db = .ok r ↔
      db.channels.get? req.channelId ≠ none ∧ Resolvable req db ∧
        ((∃ id request, pendingFor req db = some id ∧ readRequest P db id = .ok request ∧
            Prog.eval databaseError
              (joinPending req metadata.origin binding (recipientsFor req db) request) db = .ok r) ∨
          pendingFor req db = none ∧ Prog.eval databaseError
            (insertNew P env req metadata binding (recipientsFor req db)) db = .ok r) := by
  simp only [createInChannel, Prog.eval_bind_eq_ok, Prog.eval_query, Prog.eval_lift_eq_ok,
    Except.ok.injEq, Prod.mk.injEq, refuseIf_eq_ok, eval_resolveRequestRecipients_eq_ok,
    eval_findPending_eq_ok]
  constructor
  · rintro ⟨_, _, ⟨rfl, rfl⟩, _, _, ⟨hchannel, rfl⟩, _, _, ⟨⟨rfl, rfl⟩, hresolve⟩, pending, _, ⟨rfl, hpending⟩, h⟩
    refine ⟨hchannel, hresolve, ?_⟩
    rcases hpending with ⟨hnone, rfl⟩ | ⟨id, request, hfound, hread, rfl⟩
    · exact Or.inr ⟨hnone, h⟩
    · exact Or.inl ⟨id, request, hfound, hread, h⟩
  · rintro ⟨hchannel, hresolve, ⟨id, request, hfound, hread, h⟩ | ⟨hnone, h⟩⟩
    · exact ⟨_, db, ⟨rfl, rfl⟩, (), db, ⟨hchannel, rfl⟩, _, db, ⟨⟨rfl, rfl⟩, hresolve⟩, some request, db,
        ⟨rfl, Or.inr ⟨id, request, hfound, hread, rfl⟩⟩, h⟩
    · exact ⟨_, db, ⟨rfl, rfl⟩, (), db, ⟨hchannel, rfl⟩, _, db, ⟨⟨rfl, rfl⟩, hresolve⟩, none, db,
        ⟨rfl, Or.inl ⟨hnone, rfl⟩⟩, h⟩

end

end Nod.Server
