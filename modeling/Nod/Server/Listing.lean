import Mathlib.Data.List.Infix
import Nod.Server.Projection

/-
  Reading several requests at once (`db/requests/read.rs`): the device inbox page by page and the
  recent requests. Proved: reading a batch reads each of its rows (`eval_rowsToRequests`).
-/

namespace Nod.Server

open Lib Nod.Proto

variable (P : Packages)

/-! ## One device's inbox -/

structure ListRequestsForDevice where
  deviceId : String
  channelId : Option String
  includeCleared : Bool
  handledLimit : Int
  retentionDays : Int
  search : Option String
  before : Option String

structure RequestPage where
  requests : List DecisionRequest
  nextCursor : Option String

/-- What the cursor coding uses of other packages: unpadded base64url, reading a pair of strings
    from JSON bytes, and the syntax of a UUID. -/
structure CursorPackages where
  urlSafeEncode : List UInt8 → String
  readPair : List UInt8 → Option (String × String)
  parseUuid : String → Bool

variable (C : CursorPackages)

def encodeCursor (createdAt id : String) : String :=
  C.urlSafeEncode (Json.arr [.str createdAt, .str id]).text.toUTF8.toList

def decodeCursor (value : String) : Except ApiError (String × String) := do
  let invalid := ApiError.badRequest "invalid history cursor"
  refuseIf (512 < value.utf8ByteSize) invalid
  let decoded ← orElse invalid (P.urlSafeDecode value)
  let cursor ← orElse invalid (C.readPair decoded)
  refuseIf (DateTime.parseFromRfc3339 cursor.1 = none) invalid
  refuseIf (C.parseUuid cursor.2 = false) invalid
  pure cursor

def subscribedTo (userId channelId : String) (db : Db) : Bool :=
  (db.subscriptions.get? (userId, channelId)).any SubscriptionRow.subscribed

def clearedAt (userId channelId : String) (db : Db) : Option String :=
  (db.clears.get? (userId, channelId)).map ClearRow.clearedAt

def ownAnswer (userId requestId : String) (db : Db) : Option UserDecisionRow :=
  db.userDecisions.get? (requestId, userId)

/-- `lower`: ASCII letters only. -/
def sqlLower (s : String) : String := s.map Char.toLower

/-- `instr(…) > 0`. -/
def sqlContains (hay needle : String) : Bool := needle.toList <:+: hay.toList

/-- The `is_pending` column. -/
def isPendingFor (userId : String) (db : Db) (row : RequestRow) : Bool :=
  row.status = .pending &&
    (row.decisionResolution = .shared || (ownAnswer userId row.id db).isNone)

/-- When the request was last handled, as far as this user is concerned. -/
def handledAt (userId : String) (db : Db) (row : RequestRow) : String :=
  ((ownAnswer userId row.id db).map UserDecisionRow.resolvedAt).getD
    (row.resolvedAt.getD row.updatedAt)

def isVisible (userId cutoff : String) (query : ListRequestsForDevice) (db : Db)
    (row : RequestRow) : Bool :=
  (db.recipients.get? (row.id, userId)).isSome &&
  query.channelId.all (· = row.channelId) &&
  (row.explicitRecipients || subscribedTo userId row.channelId db) &&
  (query.includeCleared || (clearedAt userId row.channelId db).isNone ||
    (row.status = .pending && (ownAnswer userId row.id db).isNone) ||
    (clearedAt userId row.channelId db).any fun cleared => cleared < handledAt userId db row) &&
  sqlContains (sqlLower (row.title ++ " " ++ row.summary ++ " " ++ row.bodyMarkdown))
    (sqlLower (Text.trim (query.search.getD ""))) &&
  (row.status = .pending || cutoff ≤ row.resolvedAt.getD row.updatedAt)

/-- Later first; ids break ties. -/
def RequestRow.newestFirst (a b : RequestRow) : Bool :=
  b.createdAt < a.createdAt || (b.createdAt = a.createdAt && b.id ≤ a.id)

def beforeCursor (cursor : String × String) (row : RequestRow) : Bool :=
  row.createdAt < cursor.1 || (row.createdAt = cursor.1 && row.id < cursor.2)

/-- Pending rows on the first page, then handled ones up to a limit; each with `is_pending`. -/
def pageRows (userId cutoff : String) (query : ListRequestsForDevice)
    (cursor : Option (String × String)) (limit : Nat) (db : Db) : List (Bool × RequestRow) :=
  let visible := db.requests.rows.filter (isVisible userId cutoff query db)
  let pending := visible.filter fun r => isPendingFor userId db r && cursor.isNone
  let handled := visible.filter fun r => !isPendingFor userId db r && cursor.all (beforeCursor · r)
  (pending.mergeSort RequestRow.newestFirst).map (true, ·) ++
    ((handled.mergeSort RequestRow.newestFirst).take limit).map (false, ·)

/-- One row more than the page shows decides whether there is another page. -/
def cutPage (handledLimit : Nat) (rows : List (Bool × RequestRow)) :
    List (Bool × RequestRow) × Option String :=
  if handledLimit < rows.countP (fun r => !r.1) then
    (rows.dropLast, rows.dropLast.getLast?.map fun r => encodeCursor C r.2.createdAt r.2.id)
  else (rows, none)

def listRequestsForDevice (env : Env) (query : ListRequestsForDevice) : Sql RequestPage := do
  let device ← getDevice P query.deviceId
  let cutoff :=
    ((env.now 0).plusSeconds (-(max query.retentionDays 1 * 86400))).toRfc3339Millis
  let cursor ← Prog.lift (match query.before with
    | some value => some <$> decodeCursor P C value
    | none => .ok none)
  let handledLimit := (max 0 (min 500 query.handledLimit)).toNat
  Prog.beginTx
  let rows ← Prog.query (pageRows device.userId cutoff query cursor
    (if 0 < handledLimit then handledLimit + 1 else 0))
  let page := cutPage C handledLimit rows
  let requests ← rowsToRequests P (page.1.map Prod.snd)
  Prog.commitTx
  pure ⟨requests.map fun r => projectRequestForUser r device.userId, page.2⟩

def recentRequests : Sql (List DecisionRequest) := do
  Prog.beginTx
  let rows ← Prog.query fun db => (db.requests.rows.mergeSort RequestRow.newestFirst).take 50
  let requests ← rowsToRequests P rows
  Prog.commitTx
  pure requests

/-! ## A batch reads each of its rows -/

theorem UserDecisionRow.before_trans (a b c : UserDecisionRow) (hab : a.before b = true)
    (hbc : b.before c = true) : a.before c = true := by
  unfold UserDecisionRow.before at *
  simp only [Bool.or_eq_true, Bool.and_eq_true, decide_eq_true_eq, beq_iff_eq] at *
  rcases hab with hab | ⟨hab, hab'⟩
  · rcases hbc with hbc | ⟨hbc, -⟩
    · exact .inl (String.lt_trans hab hbc)
    · exact .inl (hbc ▸ hab)
  · rcases hbc with hbc | ⟨hbc, hbc'⟩
    · exact .inl (hab ▸ hbc)
    · exact .inr ⟨hab.trans hbc, String.le_trans hab' hbc'⟩

theorem UserDecisionRow.before_total (a b : UserDecisionRow) :
    (a.before b || b.before a) = true := by
  unfold UserDecisionRow.before
  simp only [Bool.or_eq_true, Bool.and_eq_true, decide_eq_true_eq, beq_iff_eq]
  by_cases hab : a.resolvedAt < b.resolvedAt
  · exact .inl (.inl hab)
  by_cases hba : b.resolvedAt < a.resolvedAt
  · exact .inr (.inl hba)
  have h : a.resolvedAt = b.resolvedAt :=
    String.le_antisymm (String.not_lt.mp hba) (String.not_lt.mp hab)
  rcases String.le_total a.userId b.userId with hu | hu
  · exact .inl (.inr ⟨h, hu⟩)
  · exact .inr (.inr ⟨h.symm, hu⟩)

/-- The answers of one request in their order, whichever requests were selected with it. -/
theorem selectUserDecisions_of_mem (db : Db) {ids : List String} {id : String} (hid : id ∈ ids) :
    (selectUserDecisions ids db).filter (fun r => r.requestId = id) =
      (selectUserDecisions [id] db).filter fun r => r.requestId = id := by
  have hperm : ∀ ids : List String, id ∈ ids →
      ((selectUserDecisions ids db).filter fun r => decide (r.requestId = id)).Perm
        (db.answerRowsOf id) := by
    intro ids hid
    have hsorted := List.mergeSort_perm (db.userDecisions.rows.filter fun r => r.requestId ∈ ids)
      UserDecisionRow.before
    refine (hsorted.filter _).trans (List.Perm.of_eq ?_)
    rw [List.filter_filter]
    apply List.filter_congr
    intro r _
    by_cases hr : r.requestId = id
    · simp [hr, hid]
    · simp [hr]
  have hpairwise : ∀ ids : List String,
      ((selectUserDecisions ids db).filter fun r => decide (r.requestId = id)).Pairwise
        fun a b => a.before b = true := fun ids =>
    (List.pairwise_mergeSort UserDecisionRow.before_trans UserDecisionRow.before_total _).sublist
      List.filter_sublist
  refine List.Perm.eq_of_pairwise (fun a b ha hb hab hba => ?_) (hpairwise ids) (hpairwise [id])
    ((hperm ids hid).trans (hperm [id] List.mem_cons_self).symm)
  obtain ⟨ha, hareq⟩ := List.mem_filter.mp ((hperm ids hid).mem_iff.mp ha)
  obtain ⟨hb, hbreq⟩ := List.mem_filter.mp ((hperm [id] List.mem_cons_self).mem_iff.mp hb)
  have huser : a.userId = b.userId := by
    unfold UserDecisionRow.before at hab hba
    simp only [Bool.or_eq_true, Bool.and_eq_true, decide_eq_true_eq, beq_iff_eq] at hab hba
    rcases hab with hlt | ⟨heq, hle⟩
    · rcases hba with hlt' | ⟨heq', -⟩
      · exact absurd (String.lt_trans hlt hlt') (String.lt_irrefl _)
      · exact absurd (heq' ▸ hlt) (String.lt_irrefl _)
    · rcases hba with hlt' | ⟨-, hle'⟩
      · exact absurd (heq ▸ hlt') (String.lt_irrefl _)
      · exact String.le_antisymm hle hle'
  have hkey : a.key = b.key := by
    rw [UserDecisionRow.key, UserDecisionRow.key, of_decide_eq_true hareq, of_decide_eq_true hbreq,
      huser]
  have hget := Table.get?_of_mem ha
  rw [hkey, Table.get?_of_mem hb] at hget
  exact (Option.some.inj hget).symm

theorem relatedRows_of_mem (db : Db) {ids : List String} {id : String} (hid : id ∈ ids) :
    relatedRows (selectRecipients ids db) (selectUserDecisions ids db) (selectOptions ids db) id =
      db.relatedOf id := by
  have hrecipients : (selectRecipients ids db).filter (fun r => decide (r.requestId = id)) =
      (selectRecipients [id] db).filter fun r => decide (r.requestId = id) := by
    unfold selectRecipients
    rw [List.filter_filter, List.filter_filter]
    apply List.filter_congr
    intro r _
    by_cases hr : r.requestId = id
    · simp [hr, hid]
    · simp [hr]
  have hoptions : (selectOptions ids db).filter (fun r => decide (r.requestId = id)) =
      (selectOptions [id] db).filter fun r => decide (r.requestId = id) := by
    unfold selectOptions
    rw [List.filter_filter, List.filter_filter]
    apply List.filter_congr
    intro r _
    by_cases hr : r.requestId = id
    · simp [hr, hid]
    · simp [hr]
  unfold Db.relatedOf relatedRows
  rw [hrecipients, hoptions, selectUserDecisions_of_mem db hid]

/-- Reading a batch reads each of its rows. -/
theorem eval_rowsToRequests (rows : List RequestRow) (db : Db) :
    Prog.eval databaseError (rowsToRequests P rows) db =
      (rows.mapM fun row => requestFromRows P row (db.relatedOf row.id)).map (·, db) := by
  have hrows : (rows.mapM fun row => requestFromRows P row
      (relatedRows (selectRecipients (rows.map RequestRow.id) db)
        (selectUserDecisions (rows.map RequestRow.id) db)
        (selectOptions (rows.map RequestRow.id) db) row.id)) =
      rows.mapM fun row => requestFromRows P row (db.relatedOf row.id) := by
    apply mapM_congr
    intro row hrow
    rw [relatedRows_of_mem db (List.mem_map_of_mem hrow)]
  simp only [rowsToRequests, Prog.eval_bind, Prog.eval_query]
  rw [hrows]
  cases rows.mapM fun row => requestFromRows P row (db.relatedOf row.id) <;> rfl

end Nod.Server
