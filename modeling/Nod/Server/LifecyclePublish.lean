import Mathlib.Data.List.MinMax
import Mathlib.Data.String.Basic
import Nod.Server.Lifecycle

/-
  The journal as the publishers use it (`claim_due`, `published` and `retry` of `db/lifecycle.rs`).
  A publisher claims the first due event for 60 seconds under a new lease token; whoever still holds
  a live lease marks the event published or puts it off.
  Proved: what each statement has done (`exec_claimDue`, `exec_settle`).
-/

namespace Nod.Server

open Lib Nod.Proto

/-- `lease_until IS NULL OR lease_until <= now`. -/
def leaseLapsed (leaseUntil : Option String) (now : String) : Bool :=
  match leaseUntil with
  | none => true
  | some until_ => until_ ≤ now

namespace LifecyclePublish

/-! ## Claims -/

structure PublishClaim where
  eventId : String
  subject : String
  envelope : EventEnvelope
  leaseToken : String
  attempts : Nat
  deriving DecidableEq

def due (now : String) (e : EventRow) : Bool :=
  e.publishedAt = none && e.nextAttemptAt ≤ now && leaseLapsed e.leaseUntil now

def nextDue (db : Db) (now : String) : Option EventRow :=
  (db.events.rows.filter (due now)).argmin EventRow.seq

def claimedRow (token until_ : String) (e : EventRow) : EventRow :=
  { e with leaseToken := some token, leaseUntil := some until_, attempts := e.attempts + 1 }

def claimOf (token : String) (e : EventRow) : PublishClaim :=
  { eventId := e.eventId, subject := e.subject, envelope := e.envelope, leaseToken := token
    attempts := e.attempts }

/-- Reserves one attempt before any I/O; a lapsed lease is taken over. -/
def claimDue (env : Env) : Sql (Option PublishClaim) :=
  let now := env.nowString 0
  let until_ := ((env.now 1).plusSeconds 60).toRfc3339Millis
  let token := env.newId 0
  Prog.onPool fun db =>
    match nextDue db now with
    | none => some (none, db)
    | some e =>
      some (some (claimOf token (claimedRow token until_ e)),
        { db with
          events := db.events.update (fun r => r.eventId = e.eventId) (claimedRow token until_)
            fun _ => rfl })

/-! ## Settling a claim -/

/-- The claim is on this event, its lease is live and the event is unpublished. -/
def heldBy (now : String) (claim : PublishClaim) (e : EventRow) : Bool :=
  e.eventId = claim.eventId && e.leaseToken = some claim.leaseToken &&
    (e.leaseUntil.any fun until_ => now < until_) && e.publishedAt = none

/-- The statement `published` and `retry` share, with whether it has changed a row. -/
def settle (now : String) (claim : PublishClaim) (f : EventRow → EventRow)
    (hf : ∀ e, (f e).eventId = e.eventId) : Sql Bool :=
  Prog.onPool fun db =>
    some (db.events.affected (heldBy now claim) == 1,
      { db with events := db.events.update (heldBy now claim) f hf })

def publishedRow (now : String) (streamSeq : Int) (e : EventRow) : EventRow :=
  { e with
    publishedAt := some now, streamSeq := some streamSeq, leaseToken := none, leaseUntil := none
    lastError := none }

def published (env : Env) (claim : PublishClaim) (streamSeq : Int) : Sql Bool :=
  settle (env.nowString 0) claim (publishedRow (env.nowString 0) streamSeq) fun _ => rfl

def retryDelay (attempts : Nat) : Nat := min (2 ^ min attempts 8) 300

def retriedRow (next : String) (e : EventRow) : EventRow :=
  { e with
    nextAttemptAt := next, lastError := some "publish_failed", leaseToken := none
    leaseUntil := none }

/-- Stores a static code, never the text of a transport error. -/
def retry (env : Env) (claim : PublishClaim) : Sql Bool :=
  let next := ((env.now 1).plusSeconds (retryDelay claim.attempts)).toRfc3339Millis
  settle (env.nowString 0) claim (retriedRow next) fun _ => rfl

theorem retryDelay_le (attempts : Nat) : retryDelay attempts ≤ 300 := Nat.min_le_right _ _

/-! ## What the statements do -/

/-- One event has been rewritten and nothing else has changed. -/
structure Rewritten (db db' : Db) (e e' : EventRow) : Prop where
  stored : db.events.get? e.eventId = some e
  rows : db'.events.rows = db.events.rows.map fun r => if r.eventId = e.eventId then e' else r
  rest : db' = { db with events := db'.events }

theorem rewritten_update {db : Db} {e : EventRow} {p : EventRow → Bool} {f : EventRow → EventRow}
    {hf : ∀ r, (f r).eventId = r.eventId} (he : db.events.get? e.eventId = some e)
    (hp : p e = true) (hkey : ∀ r, p r = true → r.eventId = e.eventId) :
    Rewritten db { db with events := db.events.update p f hf } e (f e) := by
  refine ⟨he, ?_, rfl⟩
  change (db.events.update p f hf).rows = _
  rw [Table.rows_update]
  refine List.map_congr_left fun r hr => ?_
  by_cases hid : r.eventId = e.eventId
  · have hsame : r = e := by
      have hget := Table.get?_of_mem hr
      rw [hid, he] at hget
      exact (Option.some.inj hget).symm
    rw [if_pos hid, hsame, if_pos hp]
  · rw [if_neg hid, if_neg fun hpr => hid (hkey r hpr)]

theorem Rewritten.get? {db db' : Db} {e e' : EventRow} (h : Rewritten db db' e e')
    (hid : e'.eventId = e.eventId) (id : String) :
    db'.events.get? id = if id = e.eventId then some e' else db.events.get? id := by
  have htable : db'.events =
      db.events.update (fun r => r.eventId = e.eventId) (fun r => if r.eventId = e.eventId then e' else r)
        (fun r => by split <;> simp_all) := by
    refine Table.ext (h.rows.trans ?_)
    rw [Table.rows_update]
    refine List.map_congr_left fun r _ => ?_
    by_cases hr : r.eventId = e.eventId
    · simp [hr]
    · simp [hr]
  rw [htable]
  split
  · rename_i hkey
    subst hkey
    rw [Table.get?_update_of_pos h.stored (decide_eq_true rfl), if_pos rfl]
  · rename_i hkey
    exact Table.get?_update_of_ne (fun r hr => of_decide_eq_true hr) hkey

theorem nextDue_eq_some {db : Db} {now : String} {e : EventRow} (h : nextDue db now = some e) :
    e ∈ db.events.rows ∧ due now e = true ∧
      ∀ r ∈ db.events.rows, due now r = true → e.seq ≤ r.seq := by
  obtain ⟨hmem, hdue⟩ := List.mem_filter.mp (List.argmin_mem (Option.mem_def.mpr h))
  refine ⟨hmem, hdue, fun r hr hrdue => ?_⟩
  exact List.le_of_mem_argmin (List.mem_filter.mpr ⟨hr, hrdue⟩) (Option.mem_def.mpr h)

theorem nextDue_eq_none {db : Db} {now : String} (h : nextDue db now = none) :
    ∀ r ∈ db.events.rows, due now r = false := by
  intro r hr
  have hempty := List.argmin_eq_none.mp h
  by_contra hdue
  have hmem := List.mem_filter.mpr ⟨hr, Bool.eq_true_of_not_eq_false hdue⟩
  rw [hempty] at hmem
  exact List.not_mem_nil hmem

/-- A claim fails, finds nothing due, or leases the first event that is due. -/
theorem exec_claimDue (env : Env) (faults : List Bool) (db : Db) :
    (Prog.exec databaseError (claimDue env) faults db = (.error databaseError, db) ∨
      (Prog.exec databaseError (claimDue env) faults db = (.ok none, db) ∧
        nextDue db (env.nowString 0) = none)) ∨
      ∃ e db' until_, nextDue db (env.nowString 0) = some e ∧
        until_ = ((env.now 1).plusSeconds 60).toRfc3339Millis ∧
        Rewritten db db' e (claimedRow (env.newId 0) until_ e) ∧
        Prog.exec databaseError (claimDue env) faults db =
          (.ok (some (claimOf (env.newId 0) (claimedRow (env.newId 0) until_ e))), db') := by
  unfold claimDue
  dsimp only
  rcases Prog.exec_onPool databaseError _ faults db with he | ⟨a, db', hf, he⟩
  · exact Or.inl (Or.inl he)
  · cases hnext : nextDue db (env.nowString 0) with
    | none =>
      rw [hnext] at hf
      cases hf
      exact Or.inl (Or.inr ⟨he, rfl⟩)
    | some e =>
      rw [hnext] at hf
      cases hf
      obtain ⟨hmem, -, -⟩ := nextDue_eq_some hnext
      exact Or.inr ⟨e, _, _, rfl, rfl,
        rewritten_update (Table.get?_of_mem hmem) (decide_eq_true rfl) (fun r hr => of_decide_eq_true hr),
        he⟩

/-- A claim that finds nothing due hands nothing out. -/
theorem exec_claimDue_none {env : Env} {db : Db} (hnext : nextDue db (env.nowString 0) = none) :
    Prog.exec databaseError (claimDue env) [] db = (.ok none, db) := by
  unfold claimDue
  simp only [Prog.onPool, Prog.exec, Prog.run, Prog.Conn.statement, hnext]
  rfl

theorem heldBy_eq_true {now : String} {claim : PublishClaim} {e : EventRow} :
    heldBy now claim e = true ↔
      e.eventId = claim.eventId ∧ e.leaseToken = some claim.leaseToken ∧
        (∃ until_, e.leaseUntil = some until_ ∧ now < until_) ∧ e.publishedAt = none := by
  unfold heldBy
  simp only [Bool.and_eq_true, decide_eq_true_eq, Option.any_eq_true, and_assoc]

/-- A settlement changes nothing, or the event its claim holds. -/
theorem exec_settle (now : String) (claim : PublishClaim) (f : EventRow → EventRow)
    (hf : ∀ e, (f e).eventId = e.eventId) (faults : List Bool) (db : Db) :
    (∃ r, Prog.exec databaseError (settle now claim f hf) faults db = (r, db) ∧ r ≠ .ok true) ∨
      ∃ e db', heldBy now claim e = true ∧ Rewritten db db' e (f e) ∧
        Prog.exec databaseError (settle now claim f hf) faults db = (.ok true, db') := by
  unfold settle
  rcases Prog.exec_onPool databaseError _ faults db with he | ⟨a, db', hr, he⟩
  · exact Or.inl ⟨_, he, fun h => by cases h⟩
  · cases hr
    have hkey : ∀ e, heldBy now claim e = true → e.eventId = claim.eventId :=
      fun e h => (heldBy_eq_true.mp h).1
    rcases Table.affected_cases hkey with ⟨hzero, hnone⟩ | ⟨hone, e, hget, hheld⟩
    · rw [hzero, Table.update_of_neg hnone] at he
      exact Or.inl ⟨_, he, fun h => by cases h⟩
    · rw [hone] at he
      refine Or.inr ⟨e, _, hheld, rewritten_update ?_ hheld fun r hr => ?_, he⟩
      · rw [hkey e hheld]
        exact hget
      · exact (hkey r hr).trans (hkey e hheld).symm

end LifecyclePublish

end Nod.Server
