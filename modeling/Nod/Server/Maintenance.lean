import Nod.Server.Create

/-
  Cancelling a request, the expiry sweep and retention (`db/requests/maintenance.rs`).
-/

namespace Nod.Server

open Lib Nod.Proto

variable (P : Packages)

def requestCancelled : String := "nod.request.cancelled"
def requestExpired : String := "nod.request.expired"

/-! ## Cancel -/

def cancelledRow (now : String) (r : RequestRow) : RequestRow :=
  { r with status := .cancelled, updatedAt := now }

def cancelRequest (env : Env) (requestId : String) : Sql DecisionRequest := do
  Prog.beginTx
  let request ← getRequestOn P requestId
  Prog.lift (refuseIf (request.status ≠ .pending) (.conflict "request is no longer pending"))
  let updated ← Prog.onTx
    (updateRequests (isPendingRow requestId) (cancelledRow (env.nowString 0)) fun _ => rfl)
  Prog.lift (refuseIf (updated = 0) (.conflict "request is no longer pending"))
  let request ← getRequestOn P requestId
  appendLifecycleOn (env.newId 0) (env.nowString 1) request requestCancelled none
  Prog.commitTx
  pure request

/-! ## Expiry sweep -/

/-- Times are compared as texts. -/
def isDueRow (now : String) (r : RequestRow) : Bool :=
  r.status = .pending &&
    match r.expiresAt with
    | some expiresAt => expiresAt ≤ now
    | none => false

def expiredRow (now : String) (r : RequestRow) : RequestRow :=
  { r with status := .expired, updatedAt := now }

/-- `UPDATE … RETURNING id`: the rows come back in any order. -/
def expireDue (env : Env) (db : Db) : Option (List String × Db) :=
  let now := env.nowString 0
  some (env.arrange ((db.requests.rows.filter (isDueRow now)).map RequestRow.id),
    { db with requests := db.requests.update (isDueRow now) (expiredRow now) fun _ => rfl })

/-- One event for each expired request; `k` counts the ids and readings used so far. -/
def appendExpired (env : Env) (k : Nat) : List String → Sql (List DecisionRequest)
  | [] => pure []
  | id :: ids => do
    let request ← getRequestOn P id
    appendLifecycleOn (env.newId k) (env.nowString (k + 1)) request requestExpired none
    let requests ← appendExpired env (k + 1) ids
    pure (request :: requests)

def expireDueRequests (env : Env) : Sql (List DecisionRequest) := do
  Prog.beginTx
  let ids ← Prog.onTx (expireDue env)
  let expired ← appendExpired P env 0 ids
  Prog.commitTx
  pure expired

/-! ## Retention -/

/-- `DELETE FROM requests WHERE p`, with the rows that hang on a deleted request. -/
def Db.deleteRequests (db : Db) (p : RequestRow → Bool) : Db :=
  let gone := fun id => (db.requests.get? id).any p
  { db with
    requests := db.requests.delete p
    options := db.options.delete fun r => gone r.requestId
    recipients := db.recipients.delete fun r => gone r.requestId
    userDecisions := db.userDecisions.delete fun r => gone r.requestId
    origins := db.origins.delete fun r => gone r.requestId
    idempotency := db.idempotency.delete fun r => gone r.requestId
    pushDeliveries := db.pushDeliveries.delete fun r => gone r.requestId }

def isPrunable (cutoff : String) (r : RequestRow) : Bool :=
  r.status ≠ .pending && r.resolvedAt.getD r.updatedAt < cutoff

def pruneRetention (env : Env) (retentionDays : Int) : Sql Nat :=
  let cutoff := ((env.now 0).plusSeconds (-(max retentionDays 1 * 86400))).toRfc3339Millis
  Prog.onPool fun db =>
    some (db.requests.rows.countP (isPrunable cutoff), db.deleteRequests (isPrunable cutoff))

/-! ## One transaction -/

theorem transactional_cancelRequest (env : Env) (requestId : String) :
    Prog.Transactional (cancelRequest P env requestId) := by
  refine Prog.transactional_begin ?_
  refine Prog.committing_bind (txOnly_getRequestOn P _) fun request => ?_
  refine Prog.committing_bind (Prog.txOnly_lift _) fun _ => ?_
  refine Prog.committing_bind (Prog.txOnly_onTx _) fun updated => ?_
  refine Prog.committing_bind (Prog.txOnly_lift _) fun _ => ?_
  refine Prog.committing_bind (txOnly_getRequestOn P _) fun request => ?_
  refine Prog.committing_bind (txOnly_appendLifecycleOn _ _ _ _ _) fun _ => ?_
  exact Prog.committing_commitTx _

theorem txOnly_appendExpired (env : Env) (k : Nat) (ids : List String) :
    Prog.TxOnly (appendExpired P env k ids) := by
  induction ids generalizing k with
  | nil => exact Prog.txOnly_pure _
  | cons id ids ih =>
    refine Prog.txOnly_bind (txOnly_getRequestOn P _) fun request => ?_
    refine Prog.txOnly_bind (txOnly_appendLifecycleOn _ _ _ _ _) fun _ => ?_
    exact Prog.txOnly_bind (ih _) fun _ => Prog.txOnly_pure _

theorem transactional_expireDueRequests (env : Env) :
    Prog.Transactional (expireDueRequests P env) := by
  refine Prog.transactional_begin ?_
  refine Prog.committing_bind (Prog.txOnly_onTx _) fun ids => ?_
  refine Prog.committing_bind (txOnly_appendExpired P _ _ _) fun expired => ?_
  exact Prog.committing_commitTx _

/-! ## What a cancel and a sweep have done -/

/-- The rows a cancel leaves. -/
def cancelled (id now : String) (db : Db) : Db :=
  { db with
    requests := db.requests.update (isPendingRow id) (cancelledRow now) fun _ => rfl }

/-- The rows a sweep leaves. -/
def swept (now : String) (db : Db) : Db :=
  { db with requests := db.requests.update (isDueRow now) (expiredRow now) fun _ => rfl }

theorem eval_cancelRequest_eq_ok {env : Env} {id : String} {db db' : Db} {r : DecisionRequest}
    (h : Prog.eval databaseError (cancelRequest P env id) db = .ok (r, db')) :
    (∃ row, db.requests.get? id = some row ∧ row.status = .pending) ∧
      readRequest P (cancelled id (env.nowString 0) db) id = .ok r ∧
      Prog.eval databaseError
        (appendLifecycleOn (env.newId 0) (env.nowString 1) r requestCancelled none)
        (cancelled id (env.nowString 0) db) = .ok ((), db') := by
  simp only [cancelRequest, Prog.eval_bind_eq_ok, Prog.eval_beginTx, Except.ok.injEq,
    Prod.mk.injEq, eval_getRequestOn_eq_ok, Prog.eval_lift_eq_ok, refuseIf_eq_ok, not_not,
    Prog.eval_onTx_eq_ok, updateRequests, Option.some.injEq, Prog.eval_commitTx,
    Prog.eval_pure] at h
  obtain ⟨_, _, ⟨_, rfl⟩, request, _, ⟨hread, rfl⟩, _, _, ⟨hpending, rfl⟩, updated, _, ⟨rfl, rfl⟩,
    _, _, ⟨hcount, rfl⟩, request', _, ⟨hread', rfl⟩, _, _, happend, _, _, ⟨_, rfl⟩, rfl, rfl⟩ := h
  refine ⟨?_, hread', happend⟩
  obtain ⟨row, version, digest, hrow, hreads⟩ := (readRequest_eq_ok P).mp hread
  refine ⟨row, hrow, ?_⟩
  rw [hreads.request] at hpending
  exact hpending

theorem eval_expireDueRequests_eq_ok {env : Env} {db db' : Db} {rs : List DecisionRequest}
    (h : Prog.eval databaseError (expireDueRequests P env) db = .ok (rs, db')) :
    ∃ ids, ids.Perm ((db.requests.rows.filter (isDueRow (env.nowString 0))).map RequestRow.id) ∧
      Prog.eval databaseError (appendExpired P env 0 ids) (swept (env.nowString 0) db) =
        .ok (rs, db') := by
  simp only [expireDueRequests, Prog.eval_bind_eq_ok, Prog.eval_beginTx, Except.ok.injEq,
    Prod.mk.injEq, Prog.eval_onTx_eq_ok, expireDue, Option.some.injEq, Prog.eval_commitTx,
    Prog.eval_pure] at h
  obtain ⟨_, _, ⟨_, rfl⟩, ids, _, ⟨rfl, rfl⟩, rs', _, happend, _, _, ⟨_, rfl⟩, rfl, rfl⟩ := h
  exact ⟨_, env.arrange_perm _, happend⟩

end Nod.Server
