import Mathlib.Data.Prod.Lex
import Nod.Server.LifecyclePublish

/-
  The callback outbox as its workers use it (`db/callback_deliveries.rs`). A worker claims a due row
  for 30 seconds under a new lease token; the rows of a request are claimed in the order of their
  revisions. Whoever still holds a live lease completes or reschedules the row.
  Proved: what each statement has done (`exec_claimDue`, `exec_settle`).
-/

namespace Nod.Server.CallbackDeliveries

open Lib Nod.Proto

/-! ## Claims -/

structure CallbackClaim where
  deliveryId : String
  eventId : String
  requestRevision : Nat
  url : String
  payload : CallbackPayload
  leaseToken : String
  attempts : Nat
  deriving DecidableEq

/-- An earlier delivery of the same request is still owed. -/
def fenced (db : Db) (c : CallbackRow) : Bool :=
  db.callbacks.rows.any fun older =>
    older.requestId = c.requestId && older.requestRevision < c.requestRevision &&
      older.state ≠ "delivered"

/-- The row is owed, its time has come, and nobody holds it. -/
def ready (now : String) (c : CallbackRow) : Bool :=
  c.state ≠ "delivered" && c.nextAttemptAt ≤ now && leaseLapsed c.leaseUntil now

def due (db : Db) (now : String) (c : CallbackRow) : Bool := ready now c && !fenced db c

/-- `ORDER BY next_attempt_at, request_revision, delivery_id`. -/
def queueOrder (c : CallbackRow) : String ×ₗ ℕ ×ₗ String :=
  toLex (c.nextAttemptAt, toLex (c.requestRevision, c.deliveryId))

def nextDue (db : Db) (now : String) : Option CallbackRow :=
  (db.callbacks.rows.filter (due db now)).argmin queueOrder

def claimedRow (token until_ now : String) (c : CallbackRow) : CallbackRow :=
  { c with
    state := "sending", leaseToken := some token, leaseUntil := some until_
    attempts := c.attempts + 1, updatedAt := now }

def claimOf (token : String) (c : CallbackRow) : CallbackClaim :=
  { deliveryId := c.deliveryId, eventId := c.eventId, requestRevision := c.requestRevision
    url := c.url, payload := c.payload, leaseToken := token, attempts := c.attempts }

/-- Reserves an attempt before any I/O. -/
def claimDue (env : Env) : Sql (Option CallbackClaim) :=
  let now := env.nowString 0
  let until_ := ((env.now 1).plusSeconds 30).toRfc3339Millis
  let token := env.newId 0
  Prog.onPool fun db =>
    match nextDue db now with
    | none => some (none, db)
    | some c =>
      some (some (claimOf token (claimedRow token until_ now c)),
        { db with
          callbacks := db.callbacks.update (fun r => r.deliveryId = c.deliveryId)
            (claimedRow token until_ now) fun _ => rfl })

/-! ## Settling a claim -/

/-- The claim is on this row and its lease is live. -/
def heldBy (now : String) (claim : CallbackClaim) (c : CallbackRow) : Bool :=
  c.deliveryId = claim.deliveryId && c.state = "sending" &&
    c.leaseToken = some claim.leaseToken && c.leaseUntil.any fun until_ => now < until_

/-- The statement `complete` and `retry` share, with whether it has changed a row. -/
def settle (now : String) (claim : CallbackClaim) (f : CallbackRow → CallbackRow)
    (hf : ∀ c, (f c).deliveryId = c.deliveryId) : Sql Bool :=
  Prog.onPool fun db =>
    some (db.callbacks.affected (heldBy now claim) == 1,
      { db with callbacks := db.callbacks.update (heldBy now claim) f hf })

def completedRow (now : String) (status : Nat) (c : CallbackRow) : CallbackRow :=
  { c with
    state := "delivered", deliveredAt := some now, updatedAt := now, lastStatus := some status
    lastError := none, leaseToken := none, leaseUntil := none }

def complete (env : Env) (claim : CallbackClaim) (status : Nat) : Sql Bool :=
  if ¬ (200 ≤ status ∧ status < 300) then .fail (.badRequest "callback success requires 2xx")
  else settle (env.nowString 0) claim (completedRow (env.nowString 0) status) fun _ => rfl

def retryDelay (attempts : Nat) (blockedPolicy : Bool) : Nat :=
  if blockedPolicy then 300 else min (2 ^ min attempts 12) 3600

def retriedRow (now next : String) (status : Option Nat) (blockedPolicy : Bool) (c : CallbackRow) :
    CallbackRow :=
  { c with
    state := if blockedPolicy then "blocked_policy" else "retrying"
    nextAttemptAt := next, updatedAt := now, lastStatus := status.map Int.ofNat
    lastError := some (if blockedPolicy then "policy_denied" else "delivery_failed")
    leaseToken := none, leaseUntil := none }

/-- Retries every failure, with no last attempt. -/
def retry (env : Env) (claim : CallbackClaim) (status : Option Nat) (blockedPolicy : Bool) :
    Sql Bool :=
  let next := ((env.now 1).plusSeconds (retryDelay claim.attempts blockedPolicy)).toRfc3339Millis
  settle (env.nowString 0) claim (retriedRow (env.nowString 0) next status blockedPolicy)
    fun _ => rfl

/-! ## What the statements do -/

/-- One row has been rewritten and nothing else has changed. -/
structure Rewritten (db db' : Db) (c c' : CallbackRow) : Prop where
  stored : db.callbacks.get? c.deliveryId = some c
  get? : ∀ id, db'.callbacks.get? id = if id = c.deliveryId then some c' else db.callbacks.get? id
  rest : db' = { db with callbacks := db'.callbacks }

theorem rewritten_update {db : Db} {c : CallbackRow} {p : CallbackRow → Bool}
    {f : CallbackRow → CallbackRow} {hf : ∀ r, (f r).deliveryId = r.deliveryId}
    (hc : db.callbacks.get? c.deliveryId = some c) (hp : p c = true)
    (hkey : ∀ r, p r = true → r.deliveryId = c.deliveryId) :
    Rewritten db { db with callbacks := db.callbacks.update p f hf } c (f c) := by
  refine ⟨hc, fun id => ?_, rfl⟩
  change (db.callbacks.update p f hf).get? id = _
  split
  · rename_i hid
    subst hid
    exact Table.get?_update_of_pos hc hp
  · rename_i hid
    exact Table.get?_update_of_ne hkey hid

theorem nextDue_eq_some {db : Db} {now : String} {c : CallbackRow} (h : nextDue db now = some c) :
    c ∈ db.callbacks.rows ∧ due db now c = true ∧
      ∀ r ∈ db.callbacks.rows, due db now r = true → queueOrder c ≤ queueOrder r := by
  obtain ⟨hmem, hdue⟩ := List.mem_filter.mp (List.argmin_mem (Option.mem_def.mpr h))
  refine ⟨hmem, hdue, fun r hr hrdue => ?_⟩
  exact List.le_of_mem_argmin (List.mem_filter.mpr ⟨hr, hrdue⟩) (Option.mem_def.mpr h)

theorem nextDue_eq_none {db : Db} {now : String} (h : nextDue db now = none) :
    ∀ r ∈ db.callbacks.rows, due db now r = false := by
  intro r hr
  have hempty := List.argmin_eq_none.mp h
  by_contra hdue
  have hmem := List.mem_filter.mpr ⟨hr, Bool.eq_true_of_not_eq_false hdue⟩
  rw [hempty] at hmem
  exact List.not_mem_nil hmem

/-- A claim fails, finds nothing due, or leases the first row that is due. -/
theorem exec_claimDue (env : Env) (faults : List Bool) (db : Db) :
    (Prog.exec databaseError (claimDue env) faults db = (.error databaseError, db) ∨
      (Prog.exec databaseError (claimDue env) faults db = (.ok none, db) ∧
        nextDue db (env.nowString 0) = none)) ∨
      ∃ c db' until_, nextDue db (env.nowString 0) = some c ∧
        until_ = ((env.now 1).plusSeconds 30).toRfc3339Millis ∧
        Rewritten db db' c (claimedRow (env.newId 0) until_ (env.nowString 0) c) ∧
        Prog.exec databaseError (claimDue env) faults db =
          (.ok (some (claimOf (env.newId 0) (claimedRow (env.newId 0) until_ (env.nowString 0) c))),
            db') := by
  unfold claimDue
  dsimp only
  rcases Prog.exec_onPool databaseError _ faults db with he | ⟨a, db', hf, he⟩
  · exact Or.inl (Or.inl he)
  · cases hnext : nextDue db (env.nowString 0) with
    | none =>
      rw [hnext] at hf
      cases hf
      exact Or.inl (Or.inr ⟨he, rfl⟩)
    | some c =>
      rw [hnext] at hf
      cases hf
      obtain ⟨hmem, -, -⟩ := nextDue_eq_some hnext
      exact Or.inr ⟨c, _, _, rfl, rfl,
        rewritten_update (Table.get?_of_mem hmem) (decide_eq_true rfl) (fun r hr => of_decide_eq_true hr),
        he⟩

theorem heldBy_eq_true {now : String} {claim : CallbackClaim} {c : CallbackRow} :
    heldBy now claim c = true ↔
      c.deliveryId = claim.deliveryId ∧ c.state = "sending" ∧
        c.leaseToken = some claim.leaseToken ∧ ∃ until_, c.leaseUntil = some until_ ∧ now < until_ := by
  unfold heldBy
  simp only [Bool.and_eq_true, decide_eq_true_eq, Option.any_eq_true, and_assoc]

/-- A settlement changes nothing, or the row its claim holds. -/
theorem exec_settle (now : String) (claim : CallbackClaim) (f : CallbackRow → CallbackRow)
    (hf : ∀ c, (f c).deliveryId = c.deliveryId) (faults : List Bool) (db : Db) :
    (∃ r, Prog.exec databaseError (settle now claim f hf) faults db = (r, db) ∧ r ≠ .ok true) ∨
      ∃ c db', heldBy now claim c = true ∧ Rewritten db db' c (f c) ∧
        Prog.exec databaseError (settle now claim f hf) faults db = (.ok true, db') := by
  unfold settle
  rcases Prog.exec_onPool databaseError _ faults db with he | ⟨a, db', hr, he⟩
  · exact Or.inl ⟨_, he, fun h => by cases h⟩
  · cases hr
    have hkey : ∀ c, heldBy now claim c = true → c.deliveryId = claim.deliveryId :=
      fun c hc => (heldBy_eq_true.mp hc).1
    rcases Table.affected_cases hkey with ⟨hzero, hnone⟩ | ⟨hone, c, hc, hheld⟩
    · rw [hzero, Table.update_of_neg hnone] at he
      exact Or.inl ⟨_, he, fun h => by cases h⟩
    · rw [hone] at he
      refine Or.inr ⟨c, _, hheld, rewritten_update ?_ hheld fun r hr => ?_, he⟩
      · rw [hkey c hheld]
        exact hc
      · exact (hkey r hr).trans (hkey c hheld).symm

end Nod.Server.CallbackDeliveries
