import Nod.Server.Create

/-
  Binding an origin to a stored request (`bind_origin` of `api/integration_events.rs`), and the
  principals and scopes of `auth.rs`.
  Proved: `bound_bindOrigin`, whatever the store does, only origins have changed: those there were
  stand, and a new one is of a stored request.
-/

namespace Nod.Server

open Lib Nod.Proto

/-! ## Principals -/

structure IssuerToken where
  id : String
  scopes : List String
  deriving DecidableEq

inductive Principal where
  | admin
  | device
  | issuer (token : IssuerToken)
  deriving DecidableEq

def hasRequestScope (token : IssuerToken) (operation channelId : String) : Bool :=
  token.scopes.any fun scope =>
    scope == "*" || scope == "requests:*" || scope == "requests:" ++ operation ||
      scope == "requests:" ++ operation ++ ":" ++ channelId || scope == "requests:*:" ++ channelId ||
      (operation == "read" && (scope == "requests:write" || scope == "requests:write:" ++ channelId))

def requireRequestWrite : Principal → String → Except ApiError Unit
  | .admin, _ => .ok ()
  | .device, _ => .error .forbidden
  | .issuer token, channelId => refuseIf (hasRequestScope token "write" channelId = false) .forbidden

def requireRequestRead : Principal → String → Except ApiError Unit
  | .admin, _ => .ok ()
  | .device, _ => .ok ()
  | .issuer token, channelId => refuseIf (hasRequestScope token "read" channelId = false) .forbidden

/-! ## The call -/

/-- An issuer binds origins to its own requests only. -/
def requireCreator (principal : Principal) (creator : Option String) : Except ApiError Unit :=
  match principal with
  | .issuer token => refuseIf (creator ≠ some token.id) .forbidden
  | _ => .ok ()

/-- An origin that is bound already is compared, and none is replaced. -/
def bindOnce (requestId : String) (origin : Origin) : Option Origin → Sql Unit
  | some existing => Prog.lift (refuseIf (existing ≠ origin) (.conflict "origin is immutable"))
  | none => insertOrigin requestId (some origin)

/-- `principal` is the one the headers authenticate. -/
def bindOrigin (principal : Principal) (requestId : String) (origin : Origin) : Sql Unit := do
  Prog.lift origin.validate
  Prog.lift (refuseIf (principal = .device) .forbidden)
  Prog.beginTx
  let row ← Prog.query fun db => db.requests.get? requestId
  let row ← Prog.lift (orElse .notFound row)
  Prog.lift (requireRequestWrite principal row.channelId)
  Prog.lift (requireCreator principal row.createdByIssuerTokenId)
  Prog.lift (refuseIf (row.status ≠ .pending)
    (.conflict "origin migration requires pending request"))
  let existing ← originOn requestId
  bindOnce requestId origin existing
  Prog.commitTx

theorem transactional_bindOrigin (principal : Principal) (requestId : String) (origin : Origin) :
    Prog.Transactional (bindOrigin principal requestId origin) := by
  refine Prog.transactional_lift_bind fun _ _ => ?_
  refine Prog.transactional_lift_bind fun _ _ => ?_
  refine Prog.transactional_begin ?_
  refine Prog.committing_bind (Prog.txOnly_query _) fun row => ?_
  refine Prog.committing_bind (Prog.txOnly_lift _) fun row => ?_
  refine Prog.committing_bind (Prog.txOnly_lift _) fun _ => ?_
  refine Prog.committing_bind (Prog.txOnly_lift _) fun _ => ?_
  refine Prog.committing_bind (Prog.txOnly_lift _) fun _ => ?_
  refine Prog.committing_bind (Prog.txOnly_query _) fun existing => ?_
  refine Prog.committing_bind ?_ fun _ => Prog.committing_commitTx _
  cases existing with
  | some existing => exact Prog.txOnly_lift _
  | none =>
    unfold bindOnce
    exact txOnly_insertOrigin _ _

/-! ## What it has done -/

/-- Origins may have come in, each of a request that is stored. -/
structure Bound (s s' : Db) : Prop where
  rest : ∃ table, s' = { s with origins := table }
  owned : ∀ o ∈ s'.origins.rows, o ∈ s.origins.rows ∨ s.requests.get? o.requestId ≠ none
  kept : ∀ id o, s.origins.get? id = some o → s'.origins.get? id = some o

theorem bound_refl (s : Db) : Bound s s :=
  ⟨⟨s.origins, rfl⟩, fun _ h => Or.inl h, fun _ _ h => h⟩

theorem bound_insert {id : String} {origin : Origin} {s : Db} {table : Table OriginRow.requestId}
    (hstored : s.requests.get? id ≠ none) (h : s.origins.insert? ⟨id, origin⟩ = some table) :
    Bound s { s with origins := table } := by
  obtain ⟨hfree, hrows⟩ := Table.insert?_eq_some.mp h
  refine ⟨⟨table, rfl⟩, fun o ho => ?_, fun k o hget => ?_⟩
  · change o ∈ table.rows at ho
    rw [hrows, List.mem_append, List.mem_singleton] at ho
    obtain ho | rfl := ho
    · exact Or.inl ho
    · exact Or.inr hstored
  · change table.get? k = some o
    rw [Table.get?_insert? h, if_neg, hget]
    rintro rfl
    rw [hfree] at hget
    cases hget

theorem bound_of_eval {principal : Principal} {requestId : String} {origin : Origin} {s s' : Db}
    {u : Unit}
    (h : Prog.eval databaseError (bindOrigin principal requestId origin) s = .ok (u, s')) :
    Bound s s' := by
  simp only [bindOrigin, originOn, Prog.eval_bind_eq_ok, Prog.eval_lift_eq_ok, Prog.eval_beginTx,
    Prog.eval_query, Prog.eval_commitTx, Except.ok.injEq, Prod.mk.injEq] at h
  obtain ⟨_, _, ⟨-, rfl⟩, _, _, ⟨-, rfl⟩, _, _, ⟨-, rfl⟩, _, _, ⟨rfl, rfl⟩, row, _, ⟨hrow, rfl⟩,
    _, _, ⟨-, rfl⟩, _, _, ⟨-, rfl⟩, _, _, ⟨-, rfl⟩, existing, _, ⟨-, rfl⟩, _, _, hbind, -, rfl⟩ := h
  have hstored : s.requests.get? requestId ≠ none := by
    rw [orElse_eq_ok.mp hrow]
    exact Option.some_ne_none row
  cases existing with
  | some existing =>
    obtain ⟨-, rfl⟩ := Prog.eval_lift_eq_ok.mp hbind
    exact bound_refl _
  | none =>
    rw [bindOnce, insertOrigin, Prog.eval_onTx_eq_ok, if_neg hstored, Option.map_eq_some_iff] at hbind
    obtain ⟨table, hinsert, hpair⟩ := hbind
    cases hpair
    exact bound_insert hstored hinsert

theorem bound_bindOrigin (principal : Principal) (requestId : String) (origin : Origin)
    (faults : List Bool) (s : Db) :
    Bound s (Prog.exec databaseError (bindOrigin principal requestId origin) faults s).2 :=
  Prog.exec_post (R := fun r => Bound s r.2) (transactional_bindOrigin principal requestId origin)
    (fun _ => bound_refl s) (fun _ _ h => bound_of_eval h) faults

end Nod.Server
