import Nod.Server.Refine

/-
  Runs of the server. A call is one operation with its outside inputs and a schedule of store
  failures; calls that run concurrently take effect one after the other, since each of them is a
  single writer transaction or statements of their own.
  Proved: every call moves the database within `Moves` (`moves_call`), so every state reached from
  an empty database is well-formed and each request's poll has made a run (`wellFormed_run`,
  `pollRun_run`).
-/

namespace Nod.Server

open Lib Nod.Proto

variable (P : Packages)

inductive Op where
  | admin (op : AdminOp)
  | deleteChannel (channelId : String)
  | createRequest (env : Env) (req : CreateDecisionRequest) (metadata : CreateRequestMetadata)
  | recordDecision (env : Env) (submission : DecisionSubmission)
  | bindOrigin (principal : Principal) (requestId : String) (origin : Origin)
  | cancelRequest (env : Env) (requestId : String)
  | expireDueRequests (env : Env)
  | pruneRetention (env : Env) (retentionDays : Int)

def Op.Result : Op → Type
  | admin op => op.Result
  | deleteChannel _ => Unit
  | createRequest _ _ _ => CreatedDecisionRequest
  | recordDecision _ _ => DecisionRequest
  | bindOrigin _ _ _ => Unit
  | cancelRequest _ _ => DecisionRequest
  | expireDueRequests _ => List DecisionRequest
  | pruneRetention _ _ => Nat

def Op.prog : (op : Op) → Sql op.Result
  | admin op => op.prog P
  | deleteChannel channelId => Server.deleteChannel channelId
  | createRequest env req metadata => Server.createRequest P env req metadata
  | recordDecision env submission => Server.recordDecision P env submission
  | bindOrigin principal requestId origin => Server.bindOrigin principal requestId origin
  | cancelRequest env requestId => Server.cancelRequest P env requestId
  | expireDueRequests env => Server.expireDueRequests P env
  | pruneRetention env retentionDays => Server.pruneRetention env retentionDays

/-- An operation and the failures the store has during it. -/
structure Call where
  op : Op
  faults : List Bool

namespace Call

def exec (c : Call) (s : Db) : Except ApiError c.op.Result × Db :=
  Prog.exec databaseError (c.op.prog P) c.faults s

/-- The database after the call. -/
def after (c : Call) (s : Db) : Db := (c.exec P s).2

end Call

/-- The database after some calls. -/
def run (calls : List Call) (s : Db) : Db := calls.foldl (fun s c => c.after P s) s

variable {P}

@[simp] theorem run_nil (s : Db) : run P [] s = s := rfl

@[simp] theorem run_cons (c : Call) (calls : List Call) (s : Db) :
    run P (c :: calls) s = run P calls (c.after P s) := rfl

theorem run_append (calls more : List Call) (s : Db) :
    run P (calls ++ more) s = run P more (run P calls s) :=
  List.foldl_append

/-! ## One call -/

theorem moves_refl {s : Db} (hs : WellFormed P s) : Moves P s s := ⟨hs.toTables, fun _ => .stay⟩

theorem moves_transactional {α : Type} {p : Sql α} (hp : Prog.Transactional p) {s : Db}
    (hs : WellFormed P s)
    (hok : ∀ a s', Prog.eval databaseError p s = .ok (a, s') → Moves P s s') (faults : List Bool) :
    Moves P s (Prog.exec databaseError p faults s).2 :=
  Prog.exec_post (R := fun r => Moves P s r.2) hp (fun _ => moves_refl hs) hok faults

theorem moves_createRequest {env : Env} {req : CreateDecisionRequest}
    {metadata : CreateRequestMetadata} {s s' : Db} {created : CreatedDecisionRequest}
    (hs : WellFormed P s)
    (h : Prog.eval databaseError (createRequest P env req metadata) s = .ok (created, s')) :
    Moves P s s' := by
  rcases created_of_eval P h with hjoined | ⟨-, -, recipients, node, hcreated⟩
  · exact moves_joined hs hjoined
  · exact moves_created hs hcreated

/-- A prune fails and changes nothing, or deletes the requests past retention. -/
theorem exec_pruneRetention (env : Env) (retentionDays : Int) (faults : List Bool) (s : Db) :
    (Prog.exec databaseError (pruneRetention env retentionDays) faults s).2 = s ∨
      ∃ p, (Prog.exec databaseError (pruneRetention env retentionDays) faults s).2 =
        s.deleteRequests p := by
  unfold pruneRetention
  rcases Prog.exec_onPool databaseError _ faults s with he | ⟨n, s', hf, hexec⟩
  · rw [he]
    exact Or.inl rfl
  · rw [hexec]
    cases hf
    exact Or.inr ⟨_, rfl⟩

theorem moves_pruneRetention {env : Env} {retentionDays : Int} {s : Db} (hs : WellFormed P s)
    (faults : List Bool) :
    Moves P s (Prog.exec databaseError (pruneRetention env retentionDays) faults s).2 := by
  rcases exec_pruneRetention env retentionDays faults s with he | ⟨p, hp⟩
  · rw [he]
    exact moves_refl hs
  · rw [hp]
    exact moves_removed hs (removed_deleteRequests s p)

/-- Every call keeps up the tables and moves each poll by at most one step. -/
theorem moves_call (c : Call) {s : Db} (hs : WellFormed P s) : Moves P s (c.after P s) := by
  obtain ⟨op, faults⟩ := c
  unfold Call.after Call.exec
  cases op with
  | admin op => exact moves_quiet hs (quiet_admin P op faults s)
  | deleteChannel channelId =>
    exact moves_transactional (transactional_deleteChannel channelId) hs
      (fun _ _ h => moves_removed hs (removed_deleteChannel h)) faults
  | createRequest env req metadata =>
    exact moves_transactional (transactional_createRequest P env req metadata) hs
      (fun _ _ h => moves_createRequest hs h) faults
  | recordDecision env submission =>
    exact moves_transactional (transactional_recordDecision P env submission) hs
      (fun _ _ h => moves_recorded hs h) faults
  | bindOrigin principal requestId origin =>
    exact moves_bound hs (bound_bindOrigin principal requestId origin faults s)
  | cancelRequest env requestId =>
    exact moves_transactional (transactional_cancelRequest P env requestId) hs
      (fun _ _ h => moves_cancelled hs h) faults
  | expireDueRequests env =>
    exact moves_transactional (transactional_expireDueRequests P env) hs
      (fun _ _ h => moves_swept hs h) faults
  | pruneRetention env retentionDays => exact moves_pruneRetention hs faults

/-! ## Runs -/

theorem wellFormed_run (calls : List Call) {s : Db} (hs : WellFormed P s) :
    WellFormed P (run P calls s) := by
  induction calls generalizing s with
  | nil => exact hs
  | cons c calls ih => exact ih ((moves_call c hs).wellFormed hs)

theorem pollRun_run (calls : List Call) {s : Db} (hs : WellFormed P s) (id : String) :
    Poll.Run (rules P) (s.track id) ((run P calls s).track id) := by
  induction calls generalizing s with
  | nil => exact .refl
  | cons c calls ih =>
    have hmoves := moves_call c hs
    exact .head (hmoves.steps id) (ih (hmoves.wellFormed hs))

theorem wellFormed_run_empty (calls : List Call) : WellFormed P (run P calls Db.empty) :=
  wellFormed_run calls (wellFormed_empty P)

end Nod.Server
