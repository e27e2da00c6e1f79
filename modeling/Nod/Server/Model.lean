import Nod.Lib.Poll
import Nod.Server.Admin

/-
  The abstract view of the database: each request is a poll (`Lib.Poll`) whose content is what a
  create wrote and nothing changes later, and whose journal is the request's lifecycle events.
  `WellFormed` is the invariant of the tables.
-/

namespace Nod.Server

open Lib Nod.Proto

variable (P : Packages)

/-! ## Requests as polls -/

/-- The columns a create fixes. -/
def RequestRow.frozen (r : RequestRow) : RequestRow :=
  { r with status := .pending, updatedAt := "", resolvedAt := none, decision := none, revision := 0 }

structure Content where
  row : RequestRow
  recipients : List String
  options : List RequestOption
  deriving DecidableEq

def phaseOf : RequestStatus → Poll.Phase
  | .pending => .open
  | .resolved => .settled
  | .cancelled => .withdrawn
  | .expired => .lapsed

def Db.recipientsOf (db : Db) (id : String) : List String :=
  (db.recipients.rows.filter fun r => r.requestId = id).map RecipientRow.userId

def Db.optionsOf (db : Db) (id : String) : List RequestOption :=
  (db.options.rows.filter fun r => r.requestId = id).map OptionRow.option

def Db.answersOf (db : Db) (id : String) : List (String × Decision) :=
  (db.userDecisions.rows.filter fun r => r.requestId = id).map fun r => (r.userId, r.decision)

def Db.contentOf (db : Db) (row : RequestRow) : Content :=
  ⟨row.frozen, db.recipientsOf row.id, db.optionsOf row.id⟩

def Db.ballotOf (db : Db) (row : RequestRow) : Poll.Ballot Content String Decision :=
  { content := db.contentOf row, phase := phaseOf row.status, outcome := row.decision
    answers := db.answersOf row.id, revision := row.revision }

def Db.eventsOf (db : Db) (id : String) : List EventRow :=
  db.events.rows.filter fun e => e.requestId = id

/-- How an event reads in the journal: its revision, kind and decision. -/
def EventRow.entry (e : EventRow) : ℕ × String × Option Decision :=
  (e.revision, e.kind, e.detail.decision)

def Db.track (db : Db) (id : String) : Poll.Track Content String Decision (String × Option Decision) :=
  { ballot := (db.requests.get? id).map db.ballotOf, entries := (db.eventsOf id).map EventRow.entry }

/-- A content that an accepted create has written. -/
structure Admitted (c : Content) : Prop where
  accepted : ∃ env req creator r version digest,
    validateRequest P req = .ok () ∧ validateOptions [] req.options = .ok () ∧
      c.row = (createdRow env req creator).frozen ∧ c.options = normalizeOptions req.options ∧
      ReadsAs P (createdRow env req creator) ⟨c.recipients, [], c.options⟩ r version digest
  recipientIds : ∀ u ∈ c.recipients, ∃ label, validateId u label = .ok ()

def eventLabel : Poll.Event Decision → String × Option Decision
  | .created => (requestCreated, none)
  | .answered d => (answerRecorded, some d)
  | .withdrawn => (requestCancelled, none)
  | .lapsed => (requestExpired, none)

def rules : Poll.Rules Content String Decision (String × Option Decision) where
  shared c := c.row.decisionResolution = .shared
  recipients c := c.recipients
  admits := Admitted P
  label := eventLabel

/-! ## The invariant of the tables -/

/-- References, orders and ids of the stored rows. -/
structure Tables (db : Db) : Prop where
  salted : ∀ r ∈ db.requests.rows, r.recipientSalt ≠ ""
  options : ∀ r ∈ db.options.rows, db.requests.get? r.requestId ≠ none
  recipients : ∀ r ∈ db.recipients.rows, db.requests.get? r.requestId ≠ none
  decisions : ∀ r ∈ db.userDecisions.rows, db.requests.get? r.requestId ≠ none
  known : ∀ r ∈ db.recipients.rows, db.users.get? r.userId ≠ none
  userIds : ∀ u ∈ db.users.rows, ∃ label, validateId u.id label = .ok ()
  keyed : ∀ d ∈ db.devices.rows, Keyed P d
  ordered : (db.events.rows.map EventRow.seq).Pairwise (· < ·)
  seqs : ∀ e ∈ db.events.rows, e.seq ≤ db.eventSeq
  callbacks : ∀ c ∈ db.callbacks.rows,
    db.events.get? c.eventId ≠ none ∧ c.deliveryId = c.eventId ++ ":callback"

structure WellFormed (db : Db) : Prop extends Tables P db where
  polls : ∀ id, Poll.Inv (rules P) (db.track id)

/-! ## Reading the view -/

theorem filter_singleton_mem {α : Type} (f : α → String) (id : String) (rows : List α) :
    (rows.filter fun r => decide (f r ∈ [id])).filter (fun r => decide (f r = id)) =
      rows.filter fun r => decide (f r = id) := by
  rw [List.filter_filter]
  apply List.filter_congr
  intro r _
  simp

theorem recipients_relatedOf (db : Db) (id : String) :
    (db.relatedOf id).recipients = db.recipientsOf id := by
  simp only [Db.relatedOf, relatedRows, selectRecipients, Db.recipientsOf]
  rw [filter_singleton_mem]

theorem options_relatedOf (db : Db) (id : String) :
    (db.relatedOf id).options = db.optionsOf id := by
  simp only [Db.relatedOf, relatedRows, selectOptions, Db.optionsOf]
  rw [filter_singleton_mem]

/-- The decisions a read returns are the stored ones, in the order they were made. -/
theorem mem_decisions_relatedOf {db : Db} {id : String} {d : UserDecision} :
    d ∈ (db.relatedOf id).decisions ↔ (d.userId, d.decision) ∈ db.answersOf id := by
  simp only [Db.relatedOf, relatedRows, selectUserDecisions, Db.answersOf, List.mem_map,
    List.mem_filter, List.mem_mergeSort, List.mem_singleton, decide_eq_true_eq]
  constructor
  · rintro ⟨r, ⟨⟨hr, _⟩, hid⟩, rfl⟩
    exact ⟨r, ⟨hr, hid⟩, rfl⟩
  · rintro ⟨r, ⟨hr, hid⟩, heq⟩
    refine ⟨r, ⟨⟨hr, hid⟩, hid⟩, ?_⟩
    cases d
    cases heq
    rfl

theorem nodup_recipientsOf (db : Db) (id : String) : (db.recipientsOf id).Nodup := by
  have hsub : ((db.recipients.rows.filter fun r => r.requestId = id).map RecipientRow.key).Nodup :=
    db.recipients.nodup.sublist (List.filter_sublist.map _)
  have hkeys : (db.recipients.rows.filter fun r => r.requestId = id).map RecipientRow.key =
      (db.recipientsOf id).map (Prod.mk id) := by
    rw [Db.recipientsOf, List.map_map]
    apply List.map_congr_left
    intro r hr
    have : r.requestId = id := by simpa using (List.mem_filter.mp hr).2
    simp [RecipientRow.key, this]
  rw [hkeys] at hsub
  exact hsub.of_map _

theorem wellFormed_empty : WellFormed P Db.empty where
  salted _ h := absurd h List.not_mem_nil
  options _ h := absurd h List.not_mem_nil
  recipients _ h := absurd h List.not_mem_nil
  decisions _ h := absurd h List.not_mem_nil
  known _ h := absurd h List.not_mem_nil
  userIds _ h := absurd h List.not_mem_nil
  keyed _ h := absurd h List.not_mem_nil
  ordered := List.Pairwise.nil
  seqs _ h := absurd h List.not_mem_nil
  callbacks _ h := absurd h List.not_mem_nil
  polls _ := Or.inl rfl

/-- A stored request is a good poll whose journal is its history. -/
theorem WellFormed.good {P : Packages} {db : Db} (h : WellFormed P db) {id : String}
    {row : RequestRow} (hrow : db.requests.get? id = some row) :
    Poll.Good (rules P) (db.ballotOf row) ∧
      (db.eventsOf id).map EventRow.entry =
        Poll.numbered (rules P) (db.ballotOf row).history := by
  have hpoll := h.polls id
  unfold Poll.Inv Db.track at hpoll
  rw [hrow] at hpoll
  exact hpoll

end Nod.Server
