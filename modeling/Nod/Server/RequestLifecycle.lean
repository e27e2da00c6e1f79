import Nod.Server.System

/-
  The life of a stored request. `Lifecycle` is what holds of the requests of one state, over
  everything that can follow.
  Proved: `request_lifecycle`, it holds in every state the server reaches.
-/

namespace Nod.Server

open Lib Nod.Proto

variable {P : Packages}

/-- The decisions stored for a request: its own, and those of its recipients. -/
def Db.storedDecisions (db : Db) (id : String) : List Decision :=
  ((db.requests.get? id).bind RequestRow.decision).toList ++ (db.answersOf id).map Prod.snd

/-- The answers stored for a request and a user. -/
def Db.countAnswers (db : Db) (id userId : String) : Nat :=
  db.userDecisions.rows.countP fun r => r.requestId = id && r.userId = userId

variable (P) in
/-- What holds of the requests of a state, now and after any further calls. -/
structure Lifecycle (s : Db) : Prop where
  closed : ∀ row ∈ s.requests.rows, row.status ≠ .pending → ∀ calls row',
    (run P calls s).requests.get? row.id = some row' → row'.status = row.status
  shared : ∀ row ∈ s.requests.rows, row.decisionResolution = .shared →
    (row.status = .resolved ↔ (s.storedDecisions row.id).length = 1) ∧
      (row.status ≠ .resolved → s.storedDecisions row.id = [])
  perUser : ∀ row ∈ s.requests.rows, row.decisionResolution = .perUser →
    (∀ r ∈ s.userDecisions.rows, r.requestId = row.id → r.userId ∈ s.recipientsOf row.id) ∧
      (s.recipientsOf row.id ≠ [] → (row.status = .resolved ↔
        ∀ userId ∈ s.recipientsOf row.id, s.countAnswers row.id userId = 1))
  final : ∀ row ∈ s.requests.rows, row.status ≠ .pending → ∀ calls,
    ((run P calls s).storedDecisions row.id).Sublist (s.storedDecisions row.id)

/-! ## Reading the poll -/

theorem storedDecisions_of_get? {db : Db} {id : String} {row : RequestRow}
    (h : db.requests.get? id = some row) :
    db.storedDecisions id = (db.ballotOf row).outcome.toList ++ (db.ballotOf row).answers.map Prod.snd := by
  have hid : row.id = id := Table.key_of_get? h
  simp only [Db.storedDecisions, h, Option.bind_some, Db.ballotOf, hid]

theorem storedDecisions_of_get?_none {db : Db} {id : String} (hdb : Tables P db)
    (h : db.requests.get? id = none) : db.storedDecisions id = [] := by
  rw [Db.storedDecisions, h, answersOf_unknown hdb h]
  rfl

theorem phaseOf_injective {a b : RequestStatus} (h : phaseOf a = phaseOf b) : a = b := by
  cases a <;> cases b <;> first | rfl | cases h

theorem phaseOf_eq_settled {status : RequestStatus} :
    phaseOf status = .settled ↔ status = .resolved := by
  cases status <;> simp [phaseOf]

theorem mem_answersOf {db : Db} {id userId : String} :
    userId ∈ (db.answersOf id).map Prod.fst ↔
      ∃ r ∈ db.userDecisions.rows, r.requestId = id ∧ r.userId = userId := by
  simp only [Db.answersOf, List.map_map, List.mem_map, List.mem_filter, decide_eq_true_eq,
    Function.comp_apply, and_assoc]

/-- The primary key allows one answer for each user. -/
theorem countAnswers_eq_one {db : Db} {id userId : String} :
    db.countAnswers id userId = 1 ↔ userId ∈ (db.answersOf id).map Prod.fst := by
  have hle : db.countAnswers id userId ≤ 1 := by
    have hcount : db.countAnswers id userId ≤
        (db.userDecisions.rows.map UserDecisionRow.key).count (id, userId) := by
      rw [Db.countAnswers, List.count, List.countP_map]
      apply List.countP_mono_left
      intro r _ hr
      simp only [Bool.and_eq_true, decide_eq_true_eq] at hr
      simp [UserDecisionRow.key, hr.1, hr.2]
    exact hcount.trans (List.nodup_iff_count_le_one.mp db.userDecisions.nodup _)
  have hpos : 0 < db.countAnswers id userId ↔ userId ∈ (db.answersOf id).map Prod.fst := by
    rw [Db.countAnswers, List.countP_pos_iff, mem_answersOf]
    simp only [Bool.and_eq_true, decide_eq_true_eq]
  rw [← hpos]
  omega

/-- A closed request keeps its whole poll for as long as it is stored. -/
theorem track_of_closed {s : Db} (hs : WellFormed P s) {id : String} {row : RequestRow}
    (hrow : s.requests.get? id = some row) (hclosed : row.status ≠ .pending) (calls : List Call) :
    (run P calls s).requests.get? id = none ∨ (run P calls s).track id = s.track id := by
  have hphase : (s.ballotOf row).phase ≠ .open := fun h => hclosed (phaseOf_eq_open.mp h)
  rcases Poll.frozen_of_run (rules P) (hs.polls id) (ballot_of_get? hrow)
      (pollRun_run calls hs id) with ⟨hnone, -, -⟩ | ⟨b, -, -, hkeep⟩
  · refine Or.inl ?_
    simp only [Db.track, Option.map_eq_none_iff] at hnone
    exact hnone
  · exact Or.inr (hkeep hphase)

/-- Two rows with one track agree on status and on stored decisions. -/
theorem ballotOf_eq_of_track {s s' : Db} {id : String} {row row' : RequestRow}
    (hrow : s.requests.get? id = some row) (hrow' : s'.requests.get? id = some row')
    (h : s'.track id = s.track id) : s'.ballotOf row' = s.ballotOf row := by
  have hb := congrArg Poll.Track.ballot h
  rw [ballot_of_get? hrow, ballot_of_get? hrow'] at hb
  exact Option.some.inj hb

theorem lifecycle_of_wellFormed {s : Db} (hs : WellFormed P s) : Lifecycle P s where
  closed row hmem hclosed calls row' hrow' := by
    have hrow := Table.get?_of_mem hmem
    rcases track_of_closed hs hrow hclosed calls with hnone | htrack
    · rw [hnone] at hrow'
      cases hrow'
    · exact phaseOf_injective
        (congrArg Poll.Ballot.phase (ballotOf_eq_of_track hrow hrow' htrack))
  shared row hmem hshared := by
    have hrow := Table.get?_of_mem hmem
    obtain ⟨hanswers, hphase⟩ := (hs.good hrow).1.shared hshared
    have hstored := storedDecisions_of_get? hrow
    rw [hanswers, List.map_nil, List.append_nil] at hstored
    have hresolved : row.status = .resolved ↔ (s.ballotOf row).outcome.isSome = true :=
      phaseOf_eq_settled.symm.trans hphase
    rw [hstored, ne_eq, hresolved]
    cases (s.ballotOf row).outcome with
    | none => simp
    | some d => simp
  perUser row hmem hperUser := by
    have hrow := Table.get?_of_mem hmem
    have hnot : ¬ (rules P).shared (s.ballotOf row).content := by
      intro hshared
      have : row.decisionResolution = .shared := hshared
      rw [hperUser] at this
      cases this
    obtain ⟨-, -, hsub, hphase⟩ := (hs.good hrow).1.each hnot
    refine ⟨?_, fun hne => ?_⟩
    · intro r hr hid
      exact hsub r.userId (mem_answersOf.mpr ⟨r, hr, hid, rfl⟩)
    · rw [← phaseOf_eq_settled]
      refine hphase.trans ⟨fun h userId hu => ?_, fun h => ⟨hne, fun userId hu => ?_⟩⟩
      · exact countAnswers_eq_one.mpr (h.2 userId hu)
      · exact countAnswers_eq_one.mp (h userId hu)
  final row hmem hclosed calls := by
    have hrow := Table.get?_of_mem hmem
    have hs' := wellFormed_run calls hs
    rcases track_of_closed hs hrow hclosed calls with hnone | htrack
    · rw [storedDecisions_of_get?_none hs'.toTables hnone]
      exact List.nil_sublist _
    · cases hrow' : (run P calls s).requests.get? row.id with
      | none =>
        rw [storedDecisions_of_get?_none hs'.toTables hrow']
        exact List.nil_sublist _
      | some row' =>
        rw [storedDecisions_of_get? hrow, storedDecisions_of_get? hrow',
          ballotOf_eq_of_track hrow hrow' htrack]

/-- In every state the server reaches, a closed request stays as it is and takes no decision, a
    shared one is resolved by exactly one decision, and any other by exactly one of each
    recipient. -/
theorem request_lifecycle (calls : List Call) : Lifecycle P (run P calls Db.empty) :=
  lifecycle_of_wellFormed (wellFormed_run_empty calls)

end Nod.Server
