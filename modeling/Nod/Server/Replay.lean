import Nod.Server.Journal

/-
  Nonces over a run. The server keeps no time window: the nonce table alone decides, and it grows
  by exactly the nonces of accepted decisions.
  Proved: `replay_safety`, no nonce of a device key ever supports a second decision, and only an
  accepted decision uses one up.
-/

namespace Nod.Server

open Lib Nod.Proto

/-- What a submission's signature is replayed by: device, key and nonce. -/
def DecisionSubmission.nonceKey (submission : DecisionSubmission) :
    Option (String × String × String) :=
  match submission.actorDevice, submission.decision.signature with
  | some device, some signature => some (device.id, signature.keyId, signature.nonce)
  | _, _ => none

/-- The nonce of the decision a call got accepted, if it did. -/
def Call.spent (P : Packages) (c : Call) (s : Db) : Option (String × String × String) :=
  match c.op with
  | .recordDecision env submission =>
    match (Prog.exec databaseError (recordDecision P env submission) c.faults s).1 with
    | .ok _ => submission.nonceKey
    | .error _ => none
  | _ => none

/-- The nonces of all accepted decisions of a run, in order. -/
def spentNonces (P : Packages) : List Call → Db → List (String × String × String)
  | [], _ => []
  | c :: calls, s => (c.spent P s).toList ++ spentNonces P calls (c.after P s)

def Db.usedNonces (db : Db) : List (String × String × String) := db.nonces.rows.map NonceRow.key

/-- What a run guarantees of nonces, for it and for any submission after it. -/
structure ReplaySafe (P : Packages) (calls : List Call) : Prop where
  once : (spentNonces P calls Db.empty).Nodup
  replayed : ∀ env submission faults key, submission.nonceKey = some key →
    key ∈ spentNonces P calls Db.empty →
      ∃ e, Prog.exec databaseError (recordDecision P env submission) faults (run P calls Db.empty) =
        (.error e, run P calls Db.empty)
  rejected : ∀ env submission faults e s',
    Prog.exec databaseError (recordDecision P env submission) faults (run P calls Db.empty) =
      (.error e, s') → s' = run P calls Db.empty
  unspent : ∀ key, key ∉ spentNonces P calls Db.empty →
    (run P calls Db.empty).nonces.get? key = none

variable {P : Packages}

theorem Signed.usedNonces {env : Env} {submission : DecisionSubmission} {request : DecisionRequest}
    {option : RequestOption} {signature : Option DecisionSignatureRecord} {s signed : Db}
    (h : Signed P env submission request option s signature signed) :
    signed.usedNonces = s.usedNonces ++ submission.nonceKey.toList ∧
      ∀ key ∈ submission.nonceKey, s.nonces.get? key = none := by
  cases h with
  | internal hdevice hsignature =>
    have hkey : submission.nonceKey = none := by
      simp only [DecisionSubmission.nonceKey, hdevice]
    rw [hkey]
    exact ⟨(List.append_nil _).symm, fun key hmem => by cases hmem⟩
  | device actor provided payload nonces hdevice hsignature _ _ _ _ hins =>
    have hkey : submission.nonceKey = some (actor.id, provided.keyId, provided.nonce) := by
      simp only [DecisionSubmission.nonceKey, hdevice, hsignature]
    obtain ⟨hfree, hrows⟩ := Table.insert?_eq_some.mp hins
    rw [hkey]
    refine ⟨?_, fun key hmem => ?_⟩
    · rw [Db.usedNonces, hrows, List.map_append]
      rfl
    · cases hmem
      exact hfree

/-- An accepted decision adds its nonce, which was not there before. -/
theorem recorded_usedNonces {env : Env} {submission : DecisionSubmission} {s s' : Db}
    {resolved : DecisionRequest}
    (h : Prog.eval databaseError (recordDecision P env submission) s = .ok (resolved, s')) :
    s'.usedNonces = s.usedNonces ++ submission.nonceKey.toList ∧
      ∀ key ∈ submission.nonceKey, s.nonces.get? key = none := by
  obtain ⟨request, option, signature, signed, stored, row, node, -, hsigned, hstored, -,
    happended⟩ := recorded_of_eval P h
  obtain ⟨hused, hfree⟩ := hsigned.usedNonces
  refine ⟨?_, hfree⟩
  have hstoredNonces : stored.nonces = signed.nonces := by rw [hstored.rest]
  have hnonces : s'.nonces = stored.nonces := by rw [happended.rest]
  rw [Db.usedNonces, hnonces, hstoredNonces]
  exact hused

/-- A transactional call that keeps the nonces when it succeeds. -/
theorem usedNonces_transactional {α : Type} {p : Sql α} (hp : Prog.Transactional p) {s : Db}
    (hok : ∀ a s', Prog.eval databaseError p s = .ok (a, s') → s'.nonces = s.nonces)
    (faults : List Bool) :
    (Prog.exec databaseError p faults s).2.usedNonces = s.usedNonces := by
  refine Prog.exec_post (R := fun r => r.2.usedNonces = s.usedNonces) hp (fun _ => rfl) ?_ faults
  intro a s' h
  rw [Db.usedNonces, hok a s' h, Db.usedNonces]

theorem nonces_createRequest {env : Env} {req : CreateDecisionRequest}
    {metadata : CreateRequestMetadata} {s s' : Db} {created : CreatedDecisionRequest}
    (h : Prog.eval databaseError (createRequest P env req metadata) s = .ok (created, s')) :
    s'.nonces = s.nonces := by
  rcases created_of_eval P h with hjoined | ⟨-, -, recipients, node, hcreated⟩
  · obtain ⟨idempotency, rfl⟩ := hjoined.rest
    rfl
  · rw [hcreated.rest]

theorem nonces_cancelRequest {env : Env} {id : String} {s s' : Db} {r : DecisionRequest}
    (h : Prog.eval databaseError (cancelRequest P env id) s = .ok (r, s')) :
    s'.nonces = s.nonces := by
  obtain ⟨-, -, happend⟩ := eval_cancelRequest_eq_ok P h
  obtain ⟨row, node, happended⟩ := appended_of_eval happend
  rw [happended.rest]
  rfl

theorem nonces_expireDueRequests {env : Env} {s s' : Db} {rs : List DecisionRequest}
    (hs : Tables P s)
    (h : Prog.eval databaseError (expireDueRequests P env) s = .ok (rs, s')) :
    s'.nonces = s.nonces := by
  obtain ⟨ids, hids, happend⟩ := eval_expireDueRequests_eq_ok P h
  have hswept : Tables P (swept (env.nowString 0) s) := hs.update fun _ => rfl
  exact (expired_of_eval hswept (nodup_due hids) happend).2.1.nonces

/-- A call adds the nonce of the decision it got accepted, and takes none away. -/
theorem usedNonces_call (c : Call) {s : Db} (hs : WellFormed P s) :
    (c.after P s).usedNonces = s.usedNonces ++ (c.spent P s).toList := by
  obtain ⟨op, faults⟩ := c
  cases op with
  | recordDecision env submission =>
    rcases Prog.exec_cases databaseError _ (transactional_recordDecision P env submission) faults s
      with ⟨e, he⟩ | ⟨resolved, s', hexec, heval⟩
    · have hafter : Call.after P ⟨.recordDecision env submission, faults⟩ s = s :=
        congrArg Prod.snd he
      have hspent : Call.spent P ⟨.recordDecision env submission, faults⟩ s = none := by
        simp only [Call.spent, he]
      rw [hafter, hspent]
      exact (List.append_nil _).symm
    · have hafter : Call.after P ⟨.recordDecision env submission, faults⟩ s = s' :=
        congrArg Prod.snd hexec
      have hspent : Call.spent P ⟨.recordDecision env submission, faults⟩ s =
          submission.nonceKey := by simp only [Call.spent, hexec]
      rw [hafter, hspent]
      exact (recorded_usedNonces heval).1
  | createRequest env req metadata =>
    exact (usedNonces_transactional (transactional_createRequest P env req metadata)
      (fun _ _ h => nonces_createRequest h) faults).trans (List.append_nil _).symm
  | bindOrigin principal requestId origin =>
    have hsame : (Prog.exec databaseError (bindOrigin principal requestId origin) faults
        s).2.usedNonces = s.usedNonces := by
      obtain ⟨origins, h⟩ := (bound_bindOrigin principal requestId origin faults s).rest
      rw [h]
      rfl
    exact hsame.trans (List.append_nil _).symm
  | cancelRequest env requestId =>
    exact (usedNonces_transactional (transactional_cancelRequest P env requestId)
      (fun _ _ h => nonces_cancelRequest h) faults).trans (List.append_nil _).symm
  | expireDueRequests env =>
    exact (usedNonces_transactional (transactional_expireDueRequests P env)
      (fun _ _ h => nonces_expireDueRequests hs.toTables h) faults).trans (List.append_nil _).symm
  | deleteChannel channelId =>
    exact (usedNonces_transactional (transactional_deleteChannel channelId)
      (fun _ _ h => (removed_deleteChannel h).nonces) faults).trans (List.append_nil _).symm
  | pruneRetention env retentionDays =>
    have hsame : (Prog.exec databaseError (pruneRetention env retentionDays) faults s).2.usedNonces =
        s.usedNonces := by
      rcases exec_pruneRetention env retentionDays faults s with he | ⟨p, hp⟩
      · rw [he]
      · rw [hp]
        rfl
    exact hsame.trans (List.append_nil _).symm
  | admin op =>
    have hsame : (Prog.exec databaseError (op.prog P) faults s).2.usedNonces = s.usedNonces := by
      rw [Db.usedNonces, (quiet_admin P op faults s).nonces, Db.usedNonces]
    exact hsame.trans (List.append_nil _).symm

/-- The nonce table of a run is the list of nonces it accepted. -/
theorem usedNonces_run (calls : List Call) {s : Db} (hs : WellFormed P s) :
    (run P calls s).usedNonces = s.usedNonces ++ spentNonces P calls s := by
  induction calls generalizing s with
  | nil => exact (List.append_nil _).symm
  | cons c calls ih =>
    rw [run_cons, ih ((moves_call c hs).wellFormed hs), usedNonces_call c hs, spentNonces,
      List.append_assoc]

theorem replay_safety (calls : List Call) : ReplaySafe P calls := by
  have hused : (run P calls Db.empty).usedNonces = spentNonces P calls Db.empty :=
    usedNonces_run calls (wellFormed_empty P)
  refine ⟨?_, ?_, ?_, ?_⟩
  · rw [← hused]
    exact (run P calls Db.empty).nonces.nodup
  · intro env submission faults key hkey hspent
    rcases Prog.exec_cases databaseError _ (transactional_recordDecision P env submission) faults
      (run P calls Db.empty) with he | ⟨resolved, s', -, heval⟩
    · exact he
    · have hfree := (recorded_usedNonces heval).2 key hkey
      rw [← hused] at hspent
      exact absurd hspent (Table.get?_eq_none.mp hfree)
  · intro env submission faults e s' h
    exact Prog.exec_error (transactional_recordDecision P env submission) h
  · intro key hkey
    rw [← hused] at hkey
    exact Table.get?_eq_none.mpr hkey

end Nod.Server
