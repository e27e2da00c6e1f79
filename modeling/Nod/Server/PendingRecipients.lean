import Nod.Server.Projection
import Nod.Server.RequestLifecycle

/-
  Who has yet to answer a request (`views.rs`).
  Proved: `pending_partition`, in every state the server reaches the recipients of a pending
  per-user request are those it waits for and those with a stored decision, each once.
-/

namespace Nod.Server

open Lib Nod.Proto

variable {P : Packages}

/-- The users with a stored decision on a request. -/
def Db.deciders (db : Db) (id : String) : List String := (db.answersOf id).map Prod.fst

/-- The recipients of a request fall into those it waits for and those who decided. -/
structure Partitioned (db : Db) (r : DecisionRequest) : Prop where
  disjoint : (pendingRecipients r).Disjoint (db.deciders r.id)
  together : (pendingRecipients r ++ db.deciders r.id).Perm r.recipients
  order : (pendingRecipients r).Sublist r.recipients
  nodup : r.recipients.Nodup

variable (P) in
structure PendingPartition (db : Db) : Prop where
  readable : ∀ row ∈ db.requests.rows, ∃ r, readRequest P db row.id = .ok r ∧
    r.recipients = db.recipientsOf row.id
  pending : ∀ id r, readRequest P db id = .ok r → r.decisionResolution = .perUser →
    r.status = .pending → Partitioned db r
  others : ∀ r : DecisionRequest, ¬ (r.decisionResolution = .perUser ∧ r.status = .pending) →
    pendingRecipients r = []

theorem pendingRecipients_of_pending {r : DecisionRequest} (hmode : r.decisionResolution = .perUser)
    (hstatus : r.status = .pending) : pendingRecipients r = r.recipients.filter fun userId =>
      !r.userDecisions.any fun decision => decision.userId = userId := by
  unfold pendingRecipients
  rw [if_neg]
  rintro (h | h)
  · exact h hmode
  · exact h hstatus

theorem pendingRecipients_of_not {r : DecisionRequest}
    (h : ¬ (r.decisionResolution = .perUser ∧ r.status = .pending)) : pendingRecipients r = [] := by
  unfold pendingRecipients
  rw [if_pos]
  by_contra hneither
  obtain ⟨hmode, hstatus⟩ := not_or.mp hneither
  exact h ⟨not_not.mp hmode, not_not.mp hstatus⟩

/-- The decisions a read shows are those of the deciders. -/
theorem any_userDecisions {db : Db} {id : String} {r : DecisionRequest}
    (hread : readRequest P db id = .ok r) (userId : String) :
    (r.userDecisions.any fun decision => decision.userId = userId) = true ↔
      userId ∈ db.deciders id := by
  obtain ⟨row, version, digest, -, hreads⟩ := (readRequest_eq_ok P).mp hread
  have hdecisions : r.userDecisions = (db.relatedOf id).decisions := by
    rw [hreads.request]
    rfl
  rw [hdecisions, List.any_eq_true, Db.deciders, List.mem_map]
  constructor
  · rintro ⟨d, hd, huser⟩
    exact ⟨_, mem_decisions_relatedOf.mp hd, of_decide_eq_true huser⟩
  · rintro ⟨⟨u, d⟩, hanswer, rfl⟩
    exact ⟨⟨u, d⟩, mem_decisions_relatedOf.mpr hanswer, decide_eq_true rfl⟩

/-- The deciders of a per-user request are distinct recipients of it. -/
theorem deciders_subset {db : Db} (hdb : WellFormed P db) {id : String} {row : RequestRow}
    (hrow : db.requests.get? id = some row) (hmode : row.decisionResolution = .perUser) :
    (db.deciders id).Nodup ∧ db.deciders id ⊆ db.recipientsOf id := by
  have hid : row.id = id := Table.key_of_get? hrow
  have hnot : ¬ (rules P).shared (db.ballotOf row).content := by
    intro hshared
    have hshared : row.decisionResolution = .shared := hshared
    rw [hmode] at hshared
    cases hshared
  obtain ⟨-, hnodup, hsub, -⟩ := (hdb.good hrow).1.each hnot
  subst hid
  exact ⟨hnodup, hsub⟩

theorem partitioned_of_read {db : Db} (hdb : WellFormed P db) {id : String} {r : DecisionRequest}
    (hread : readRequest P db id = .ok r) (hmode : r.decisionResolution = .perUser)
    (hstatus : r.status = .pending) : Partitioned db r := by
  obtain ⟨row, version, digest, hrow, hreads⟩ := (readRequest_eq_ok P).mp hread
  have hid : r.id = id := id_of_readRequest P hread
  have hrecipients : r.recipients = db.recipientsOf id :=
    hreads.recipients.trans (recipients_relatedOf db id)
  obtain ⟨hnodup, hsub⟩ := deciders_subset hdb hrow (hreads.decisionResolution.symm.trans hmode)
  have hnodup' : r.recipients.Nodup := hrecipients ▸ nodup_recipientsOf db id
  have hpending := pendingRecipients_of_pending hmode hstatus
  have hmem : ∀ u, u ∈ pendingRecipients r ↔ u ∈ r.recipients ∧ u ∉ db.deciders id := by
    intro u
    rw [hpending, List.mem_filter, Bool.not_eq_true', ← Bool.not_eq_true, any_userDecisions hread]
  have hdisjoint : (pendingRecipients r).Disjoint (db.deciders id) :=
    fun u hu hdecided => ((hmem u).mp hu).2 hdecided
  have hsublist : (pendingRecipients r).Sublist r.recipients := hpending ▸ List.filter_sublist
  rw [← hid] at hdisjoint hnodup hsub hmem hrecipients
  refine ⟨hdisjoint, ?_, hsublist, hnodup'⟩
  refine (List.perm_ext_iff_of_nodup
    (List.Nodup.append (hnodup'.sublist hsublist) hnodup hdisjoint) hnodup').mpr fun u => ?_
  rw [List.mem_append, hmem]
  constructor
  · rintro (⟨hu, -⟩ | hu)
    · exact hu
    · exact hrecipients ▸ hsub hu
  · intro hu
    by_cases hdecided : u ∈ db.deciders r.id
    · exact .inr hdecided
    · exact .inl ⟨hu, hdecided⟩

theorem pending_partition (calls : List Call) : PendingPartition P (run P calls Db.empty) where
  readable row hmem := by
    have hrow := Table.get?_of_mem hmem
    obtain ⟨r, hread⟩ := (legible_run_empty (P := P) calls).reads _ row hrow
    obtain ⟨_, _, _, _, hreads⟩ := (readRequest_eq_ok P).mp hread
    exact ⟨r, hread, hreads.recipients.trans (recipients_relatedOf _ _)⟩
  pending _ _ hread hmode hstatus :=
    partitioned_of_read (wellFormed_run_empty calls) hread hmode hstatus
  others _ h := pendingRecipients_of_not h

end Nod.Server
