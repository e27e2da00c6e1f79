import Nod.Server.Enrollment
import Nod.Server.History
import Nod.Server.PendingRecipients
import Nod.Server.Settings
import Nod.Server.Stamps

/-
  Clearing a channel (`clear_channel` of `db/subscriptions.rs`), delivery eligibility
  (`request_delivery_eligible` of `db/requests/read.rs`) and the inbox.
  A clear stores its time as text, and the inbox compares texts. The mark of a run is the clock of
  the last clear by a device of that user, forgotten when the channel is deleted (`lastClear`).
  Proved: `clearing_keeps_work`. After any run, the pending requests of a first page are those that
  wait for the user and are delivered to them, whatever was cleared; a finished walk through the
  inbox shows a handled request unless the mark is of a year up to 9999 and not before the moment
  the request was handled for that user. And `clearing_hides_no_work`: the walk leaves out what the
  last clear covers exactly when no mark of a later year is in its way.
-/

namespace Nod.Server

open Lib Nod.Proto

variable {P : Packages} {C : CursorPackages}

/-! ## Delivery -/

/-- A recipient gets a request that names its recipients, and any other of a channel they are
    subscribed to. -/
def deliveryEligible (requestId userId : String) (db : Db) : Bool :=
  (db.requests.get? requestId).any fun row =>
    (db.recipients.get? (row.id, userId)).isSome &&
      (row.explicitRecipients || subscribedTo userId row.channelId db)

def requestDeliveryEligible (requestId userId : String) : Sql Bool :=
  Prog.onPool fun db => some (deliveryEligible requestId userId db, db)

/-- The server says that a request is to be delivered to a user. -/
def Db.Delivers (s : Db) (requestId userId : String) : Prop :=
  Prog.eval databaseError (requestDeliveryEligible requestId userId) s = .ok (true, s)

theorem delivers_iff {s : Db} {row : RequestRow} (hrow : row ∈ s.requests.rows) {userId : String} :
    s.Delivers row.id userId ↔ (s.recipients.get? (row.id, userId)).isSome = true ∧
      (row.explicitRecipients || subscribedTo userId row.channelId s) = true := by
  have heval : Prog.eval databaseError (requestDeliveryEligible row.id userId) s =
      .ok (deliveryEligible row.id userId s, s) := rfl
  unfold Db.Delivers
  rw [heval, deliveryEligible, Table.get?_of_mem hrow, Option.any_some, Except.ok.injEq,
    Prod.mk.injEq, and_iff_left rfl, Bool.and_eq_true]

/-! ## The mark of a clear -/

/-- A clear fails and changes nothing, or stores its time for the user of the device. -/
theorem exec_clearChannel (env : Env) (deviceId channelId : String) (faults : List Bool) (s : Db) :
    (∃ e, Prog.exec databaseError (clearChannel P env deviceId channelId) faults s = (.error e, s)) ∨
      ∃ row s', s.devices.get? deviceId = some row ∧
        upsertClear ⟨row.userId, channelId, env.nowString 0⟩ s = some ((), s') ∧
        Prog.exec databaseError (clearChannel P env deviceId channelId) faults s = (.ok (), s') := by
  have hprog : clearChannel P env deviceId channelId =
      (Prog.onPool fun db => some (db.devices.get? deviceId, db)) >>= fun found =>
        Prog.lift (orElse .notFound (found.filter fun d => d.revokedAt = none) >>= rowToDevice P) >>=
          fun device => (Prog.onPool fun db => some (db.channels.get? channelId, db)) >>= fun channel =>
            Prog.lift (orElse .notFound channel >>= fun row => rowToChannel P row true) >>= fun _ =>
              Prog.onPool (upsertClear ⟨device.userId, channelId, env.nowString 0⟩) := by
    unfold clearChannel getDevice getChannel
    refine congrArg (Prog.stmt Handle.pool _) (funext fun found => ?_)
    show ((Prog.lift _ >>= fun row => Prog.lift (rowToDevice P row)) >>= _ : Sql Unit) = _
    rw [Prog.lift_bind_lift]
    refine congrArg (Prog.lift _ >>= ·) (funext fun device => ?_)
    refine congrArg (Prog.stmt Handle.pool _) (funext fun channel => ?_)
    show ((Prog.lift _ >>= fun row => Prog.lift (rowToChannel P row true)) >>= _ : Sql Unit) = _
    rw [Prog.lift_bind_lift]
    rfl
  rw [hprog]
  obtain he | ⟨found, s1, hf, he⟩ := Prog.exec_onPool_bind databaseError _ _ faults s
  · exact Or.inl ⟨_, he⟩
  · cases hf
    rw [he]
    obtain ⟨row, device, hrow, -, hdevice, hfound⟩ | ⟨-, e, hmissing⟩ :=
      orElse_filter_bind (s.devices.get? deviceId) (fun d => decide (d.revokedAt = none))
        (rowToDevice P)
    · obtain ⟨-, rfl⟩ := rowToDevice_eq_ok.mp hdevice
      rw [hfound, Prog.lift_ok, Prog.ret_bind]
      obtain he | ⟨channel, s2, hf, he⟩ := Prog.exec_onPool_bind databaseError _ _ faults.tail s
      · exact Or.inl ⟨_, he⟩
      · cases hf
        rw [he]
        cases orElse ApiError.notFound (s.channels.get? channelId) >>= fun row =>
            rowToChannel P row true with
        | error e => exact Or.inl ⟨e, rfl⟩
        | ok channel =>
          rw [Prog.lift_ok, Prog.ret_bind]
          obtain he | ⟨_, s3, hf, he⟩ := Prog.exec_onPool databaseError _ faults.tail.tail s
          · exact Or.inl ⟨_, he⟩
          · exact Or.inr ⟨row, s3, hrow, hf, he⟩
    · rw [hmissing]
      exact Or.inl ⟨_, rfl⟩

theorem clearedAt_upsertClear {row : ClearRow} {s s' : Db} (h : upsertClear row s = some ((), s'))
    (userId channelId : String) : clearedAt userId channelId s' =
      if row.userId = userId ∧ row.channelId = channelId then some row.clearedAt
      else clearedAt userId channelId s := by
  have hkey : row.key = (userId, channelId) ↔ row.userId = userId ∧ row.channelId = channelId :=
    Prod.mk.injEq .. ▸ Iff.rfl
  unfold clearedAt
  unfold upsertClear at h
  split at h
  · cases h
  · split at h
    · rename_i hfree
      cases h
      obtain ⟨t, ht⟩ := Table.exists_insert? hfree
      have hinsert : (s.clears.insertIgnore row).2 = t := by
        unfold Table.insertIgnore
        rw [ht]
      dsimp only
      rw [hinsert, Table.get?_insert? ht]
      by_cases hsame : row.key = (userId, channelId)
      · rw [if_pos hsame, if_pos (hkey.mp hsame)]
        rfl
      · rw [if_neg hsame, if_neg (mt hkey.mpr hsame)]
    · rename_i old hold
      cases h
      have hupdate : (s.clears.update (fun c => c.key = row.key)
          (fun c => { c with clearedAt := row.clearedAt }) fun _ => rfl).get? (userId, channelId) =
            (s.clears.get? (userId, channelId)).map fun c =>
              if decide (c.key = row.key) then { c with clearedAt := row.clearedAt } else c :=
        Table.get?_update s.clears _ _ _ _
      dsimp only
      rw [hupdate]
      by_cases hsame : row.key = (userId, channelId)
      · rw [hsame] at hold
        rw [if_pos (hkey.mp hsame), hold, Option.map_some, if_pos, Option.map_some]
        rw [hsame]
        exact decide_eq_true (Table.key_of_get? hold)
      · rw [if_neg (mt hkey.mpr hsame)]
        cases hfound : s.clears.get? (userId, channelId) with
        | none => rfl
        | some found =>
          rw [Option.map_some, if_neg]
          rw [decide_eq_true_eq, Table.key_of_get? hfound]
          exact fun heq => hsame heq.symm

variable (P) in
/-- The clock of the last clear of a channel by a device of a user. -/
def Call.lastClear (c : Call) (s : Db) (userId channelId : String) (last : Option DateTime) :
    Option DateTime :=
  if (c.exec P s).1.isOk then
    match c.op with
    | .admin (.clearChannel env deviceId id) =>
      if (s.devices.get? deviceId).map DeviceRow.userId = some userId ∧ id = channelId then
        some (env.now 0)
      else last
    | .deleteChannel id => if id = channelId then none else last
    | _ => last
  else last

variable (P) in
/-- The same after some calls. -/
def lastClear (userId channelId : String) : List Call → Db → Option DateTime → Option DateTime
  | [], _, last => last
  | c :: calls, s, last =>
    lastClear userId channelId calls (c.after P s) (c.lastClear P s userId channelId last)

/-- The stored mark is the text of the last clear. -/
def LastCleared (userId channelId : String) (s : Db) (last : Option DateTime) : Prop :=
  clearedAt userId channelId s = last.map DateTime.toRfc3339Millis

theorem marked_of_sameClears {userId channelId : String} {s s' : Db} {last : Option DateTime}
    (h : SameClears s s') (hs : LastCleared userId channelId s last) :
    LastCleared userId channelId s' last := by
  unfold LastCleared clearedAt at *
  rw [h]
  exact hs

theorem marked_clearChannel {userId channelId : String} {env : Env} {deviceId id : String}
    {faults : List Bool} {s : Db} {last : Option DateTime} (hs : LastCleared userId channelId s last) :
    LastCleared userId channelId (Call.after P ⟨.admin (.clearChannel env deviceId id), faults⟩ s)
      (Call.lastClear P ⟨.admin (.clearChannel env deviceId id), faults⟩ s userId channelId last) := by
  unfold Call.lastClear Call.after Call.exec
  change LastCleared userId channelId
    (Prog.exec databaseError (clearChannel P env deviceId id) faults s).2
    (if (Prog.exec databaseError (clearChannel P env deviceId id) faults s).1.isOk then _ else _)
  obtain ⟨e, he⟩ | ⟨row, s', hrow, hupsert, he⟩ := exec_clearChannel env deviceId id faults s
  · rw [he, if_neg (show ¬ (Except.error e : Except ApiError Unit).isOk = true from
      Bool.false_ne_true)]
    exact hs
  · rw [he, if_pos (show (Except.ok () : Except ApiError Unit).isOk = true from rfl)]
    unfold LastCleared at *
    dsimp only
    rw [clearedAt_upsertClear hupsert, hrow]
    by_cases hmine : row.userId = userId ∧ id = channelId
    · rw [if_pos hmine, if_pos ⟨congrArg some hmine.1, hmine.2⟩]
      rfl
    · rw [if_neg hmine, if_neg fun h => hmine ⟨Option.some.inj h.1, h.2⟩]
      exact hs

theorem marked_deleteChannel {userId channelId id : String} {faults : List Bool} {s : Db}
    {last : Option DateTime} (hs : LastCleared userId channelId s last) :
    LastCleared userId channelId (Call.after P ⟨.deleteChannel id, faults⟩ s)
      (Call.lastClear P ⟨.deleteChannel id, faults⟩ s userId channelId last) := by
  unfold Call.lastClear Call.after Call.exec
  change LastCleared userId channelId (Prog.exec databaseError (deleteChannel id) faults s).2
    (if (Prog.exec databaseError (deleteChannel id) faults s).1.isOk then _ else _)
  generalize hexec : Prog.exec databaseError (deleteChannel id) faults s = r
  obtain ⟨r, s'⟩ := r
  cases r with
  | error e =>
    rw [Prog.exec_error (transactional_deleteChannel id) hexec]
    exact hs
  | ok u =>
    obtain ⟨hclears, -⟩ := eval_deleteChannel_settings
      (Prog.exec_ok (transactional_deleteChannel id) hexec)
    rw [if_pos (show (Except.ok u : Except ApiError Unit).isOk = true from rfl)]
    unfold LastCleared clearedAt at *
    dsimp only
    rw [hclears, Table.get?_delete]
    by_cases hid : id = channelId
    · rw [if_pos hid]
      cases hfound : s.clears.get? (userId, channelId) with
      | none => rfl
      | some mark =>
        have hchannel : mark.channelId = id := (congrArg Prod.snd (Table.key_of_get? hfound)).trans hid.symm
        rw [Option.filter_some, if_neg]
        · rfl
        · rw [decide_eq_true hchannel]
          exact Bool.false_ne_true
    · rw [if_neg hid, ← hs]
      cases hfound : s.clears.get? (userId, channelId) with
      | none => rfl
      | some mark =>
        have hchannel : mark.channelId = channelId := congrArg Prod.snd (Table.key_of_get? hfound)
        rw [Option.filter_some, if_pos]
        rw [Bool.not_eq_true', decide_eq_false_iff_not, hchannel]
        exact fun heq => hid heq.symm

theorem marked_call (c : Call) {userId channelId : String} {s : Db} {last : Option DateTime}
    (hs : LastCleared userId channelId s last) :
    LastCleared userId channelId (c.after P s) (c.lastClear P s userId channelId last) := by
  have hkept : SameClears s (c.after P s) → c.lastClear P s userId channelId last = last →
      LastCleared userId channelId (c.after P s) (c.lastClear P s userId channelId last) :=
    fun h hlast => hlast.symm ▸ marked_of_sameClears h hs
  have hsame : ∀ {p : Prop} [Decidable p], (if p then last else last) = last := fun {p} _ => ite_self last
  obtain ⟨op, faults⟩ := c
  cases op with
  | deleteChannel id => exact marked_deleteChannel hs
  | admin op =>
    cases hop : op.isClearChannel with
    | true =>
      cases op with
      | clearChannel env deviceId id => exact marked_clearChannel hs
      | _ => cases hop
    | false =>
      refine hkept (clears_admin hop faults s) ?_
      cases op with
      | clearChannel env deviceId id => cases hop
      | _ => exact hsame
  | _ => exact hkept (settings_call _ rfl rfl s).clears hsame

theorem marked_run (calls : List Call) {userId channelId : String} {s : Db} {last : Option DateTime}
    (hs : LastCleared userId channelId s last) :
    LastCleared userId channelId (run P calls s) (lastClear P userId channelId calls s last) := by
  induction calls generalizing s last with
  | nil => exact hs
  | cons c calls ih => exact ih (marked_call c hs)

theorem marked_run_empty (calls : List Call) (userId channelId : String) :
    LastCleared userId channelId (run P calls Db.empty)
      (lastClear P userId channelId calls Db.empty none) :=
  marked_run calls rfl

/-! ## What a list shows -/

/-- The filters of a query. -/
structure ListRequestsForDevice.Matches (query : ListRequestsForDevice) (row : RequestRow) :
    Prop where
  channel : ∀ id ∈ query.channelId, id = row.channelId
  search : sqlContains (sqlLower (row.title ++ " " ++ row.summary ++ " " ++ row.bodyMarkdown))
    (sqlLower (Text.trim (query.search.getD ""))) = true

/-- A request waits for a user: it is pending and they have not answered it. -/
def Db.Awaits (s : Db) (userId : String) (row : RequestRow) : Prop :=
  row.status = .pending ∧ userId ∉ s.deciders row.id

/-- A clear at `t` covers what was handled at or before `t`, unless its year has five digits. -/
def Covers (t handled : DateTime) : Prop := t.year ≤ 9999 ∧ handled ≤ t

/-- What the inbox of a user lists of the stored requests while nothing is cleared. -/
structure Offered (s : Db) (userId cutoff : String) (query : ListRequestsForDevice)
    (row : RequestRow) : Prop where
  matched : query.Matches row
  delivered : s.Delivers row.id userId
  kept : row.status = .pending ∨ cutoff ≤ row.resolvedAt.getD row.updatedAt

/-- What the inbox of a user lists of the stored requests, with the mark of each channel. -/
structure Listed (s : Db) (userId cutoff : String) (query : ListRequestsForDevice)
    (mark : Option DateTime) (row : RequestRow) : Prop where
  matched : query.Matches row
  delivered : s.Delivers row.id userId
  kept : row.status = .pending ∨ cutoff ≤ row.resolvedAt.getD row.updatedAt
  uncleared : s.Awaits userId row ∨ ∃ handled,
    DateTime.parseFromRfc3339 (handledAt userId s row) = some handled ∧ ∀ t ∈ mark, ¬ Covers t handled

theorem awaits_iff_noAnswer {s : Db} {userId : String} {row : RequestRow} :
    (row.status = .pending && (ownAnswer userId row.id s).isNone) = true ↔ s.Awaits userId row := by
  rw [Bool.and_eq_true, decide_eq_true_eq, Option.isNone_iff_eq_none,
    ← Option.not_isSome_iff_eq_none, ownAnswer_isSome]
  exact Iff.rfl

/-- The page counts as pending what waits for the user. -/
theorem awaits_iff {s : Db} (hs : WellFormed P s) {row : RequestRow} (hrow : row ∈ s.requests.rows)
    {userId : String} : isPendingFor userId s row = true ↔ s.Awaits userId row := by
  have hphase : (s.ballotOf row).phase = .open ↔ row.status = .pending := by
    change phaseOf row.status = .open ↔ _
    cases row.status <;> decide
  rw [← Bool.not_eq_false, isPendingFor_eq_false hs hrow]
  unfold Poll.Ballot.Handled Db.Awaits
  rw [not_or, ne_eq, not_not, hphase]
  exact Iff.rfl

theorem isStamp_handledAt {s : Db} (hs : Stamped s) {row : RequestRow} (hrow : row ∈ s.requests.rows)
    (userId : String) : IsStamp (handledAt userId s row) := by
  obtain ⟨hupdated, hresolved, hanswers⟩ := hs row hrow
  unfold handledAt
  cases hown : ownAnswer userId row.id s with
  | some answer =>
    refine hanswers answer (List.mem_filter.mpr ⟨Table.mem_of_get? hown, ?_⟩)
    exact decide_eq_true (congrArg Prod.fst (Table.key_of_get? hown))
  | none =>
    cases hres : row.resolvedAt with
    | some text => exact hresolved text hres
    | none => exact hupdated

/-- The texts are compared, and that is the comparison of the times up to the year 9999. -/
theorem cleared_lt_iff {text : String} (htext : IsStamp text) (t : DateTime) :
    t.toRfc3339Millis < text ↔
      ∃ handled, DateTime.parseFromRfc3339 text = some handled ∧ ¬ Covers t handled := by
  obtain ⟨u, hyear, hmillis, rfl⟩ := htext
  have hparse : DateTime.parseFromRfc3339 u.toRfc3339Millis = some u := by
    rw [DateTime.parse_toRfc3339Millis u hyear, hmillis]
  have hcovers : u.toRfc3339Millis ≤ t.toRfc3339Millis ↔ Covers t u := by
    rw [DateTime.toRfc3339Millis_le hyear hmillis]
    constructor
    · intro h
      exact ⟨h.1.2, h.2⟩
    · intro h
      have hpositive : ¬ t.year < 0 := fun hneg => DateTime.not_le_of_year_neg hyear hneg h.2
      exact ⟨⟨by omega, h.1⟩, h.2⟩
  rw [hparse, ← not_le, hcovers]
  simp only [Option.some.injEq, exists_eq_left']

theorem isVisible_iff {s : Db} (hs : Stamped s) {row : RequestRow}
    (hrow : row ∈ s.requests.rows) {userId cutoff : String} {query : ListRequestsForDevice}
    {mark : Option DateTime} (hmark : LastCleared userId row.channelId s mark) :
    isVisible userId cutoff query s row = true ↔ Offered s userId cutoff query row ∧
      (query.includeCleared = true ∨ s.Awaits userId row ∨ ∃ handled,
        DateTime.parseFromRfc3339 (handledAt userId s row) = some handled ∧
          ∀ t ∈ mark, ¬ Covers t handled) := by
  have hchannel : query.channelId.all (fun id => decide (id = row.channelId)) = true ↔
      ∀ id ∈ query.channelId, id = row.channelId := by
    rw [Option.all_eq_true]
    exact forall₂_congr fun _ _ => decide_eq_true_iff
  have huncleared : ((clearedAt userId row.channelId s).isNone ||
      (row.status = .pending && (ownAnswer userId row.id s).isNone) ||
      (clearedAt userId row.channelId s).any fun cleared => cleared < handledAt userId s row) = true ↔
        s.Awaits userId row ∨ ∃ handled,
          DateTime.parseFromRfc3339 (handledAt userId s row) = some handled ∧
            ∀ t ∈ mark, ¬ Covers t handled := by
    have hstamp := isStamp_handledAt hs hrow userId
    rw [Bool.or_eq_true, Bool.or_eq_true, awaits_iff_noAnswer, hmark]
    cases mark with
    | none =>
      obtain ⟨u, hyear, -, htext⟩ := hstamp
      refine iff_of_true (Or.inl (Or.inl rfl)) (Or.inr ⟨u.truncMillis, ?_, fun t ht => (by cases ht)⟩)
      rw [htext]
      exact DateTime.parse_toRfc3339Millis u hyear
    | some t =>
      rw [Option.map_some, Option.any_some, decide_eq_true_eq, cleared_lt_iff hstamp]
      simp only [Option.isNone_some, Bool.false_eq_true, false_or, Option.mem_some_iff, forall_eq']
  have hkept : (decide (row.status = .pending) ||
      decide (cutoff ≤ row.resolvedAt.getD row.updatedAt)) = true ↔
        row.status = .pending ∨ cutoff ≤ row.resolvedAt.getD row.updatedAt := by
    rw [Bool.or_eq_true, decide_eq_true_eq, decide_eq_true_eq]
  have hshown : (query.includeCleared || (clearedAt userId row.channelId s).isNone ||
      (row.status = .pending && (ownAnswer userId row.id s).isNone) ||
      (clearedAt userId row.channelId s).any fun cleared => cleared < handledAt userId s row) = true ↔
        query.includeCleared = true ∨ s.Awaits userId row ∨ ∃ handled,
          DateTime.parseFromRfc3339 (handledAt userId s row) = some handled ∧
            ∀ t ∈ mark, ¬ Covers t handled := by
    rw [← huncleared, ← Bool.or_eq_true]
    simp only [Bool.or_assoc]
  unfold isVisible
  rw [Bool.and_eq_true, Bool.and_eq_true, Bool.and_eq_true, Bool.and_eq_true, Bool.and_eq_true,
    hchannel, hshown, hkept]
  constructor
  · rintro ⟨⟨⟨⟨⟨hrecipient, hchannel⟩, helig⟩, hun⟩, hsearch⟩, hkept⟩
    exact ⟨⟨⟨hchannel, hsearch⟩, (delivers_iff hrow).mpr ⟨hrecipient, helig⟩, hkept⟩, hun⟩
  · rintro ⟨⟨⟨hchannel, hsearch⟩, hdelivered, hkept⟩, hun⟩
    obtain ⟨hrecipient, helig⟩ := (delivers_iff hrow).mp hdelivered
    exact ⟨⟨⟨⟨⟨hrecipient, hchannel⟩, helig⟩, hun⟩, hsearch⟩, hkept⟩

/-! ## The first page -/

section FirstPage

variable {userId : String} {env : Env} {query : ListRequestsForDevice} {db : Db}

/-- The rows of a first page, for any limit the server clamps. -/
theorem eval_firstPage (hbefore : query.before = none) (db : Db) : ∃ next,
    Prog.eval databaseError (listRequestsForUser P C userId env query) db =
      ((pendingRows userId (retentionCutoff env query) query none db ++
          (handledRows userId (retentionCutoff env query) query none db).take
            (max 0 (min 500 query.handledLimit)).toNat).mapM fun row =>
        requestFromRows P row (db.relatedOf row.id)).map fun requests =>
          (⟨requests.map fun r => projectRequestForUser r userId, next⟩, db) := by
  have hrows : ∀ ps hs : List RequestRow,
      ((ps.map (true, ·) ++ hs.map (false, ·)).map Prod.snd : List RequestRow) = ps ++ hs := by
    intro ps hs
    rw [List.map_append, List.map_map, List.map_map]
    exact congrArg₂ _ (List.map_id ps) (List.map_id hs)
  unfold listRequestsForUser retentionCutoff
  dsimp only
  rw [hbefore]
  generalize (max 0 (min 500 query.handledLimit)).toNat = L
  generalize ((env.now 0).plusSeconds (-(max query.retentionDays 1 * 86400))).toRfc3339Millis = cutoff
  by_cases hL : 0 < L
  · refine ⟨if L < (handledRows userId cutoff query none db).length then
      ((handledRows userId cutoff query none db).take L).getLast?.map fun r =>
        encodeCursor C r.createdAt r.id
      else none, ?_⟩
    rw [if_pos hL]
    simp only [Prog.lift_ok, Prog.ret_bind, Prog.eval_bind, Prog.eval_beginTx, Prog.eval_query,
      pageRows_eq, cutPage_eq C hL, hrows, eval_rowsToRequests]
    cases (pendingRows userId cutoff query none db ++
      (handledRows userId cutoff query none db).take L).mapM
        fun row => requestFromRows P row (db.relatedOf row.id) <;> rfl
  · obtain rfl : L = 0 := by omega
    have hcut : cutPage C 0 ((pendingRows userId cutoff query none db).map (true, ·) ++
        (([] : List RequestRow)).map (false, ·)) =
          ((pendingRows userId cutoff query none db).map (true, ·) ++
            (([] : List RequestRow)).map (false, ·), none) := by
      unfold cutPage
      rw [List.map_nil, List.append_nil, List.countP_map, List.countP_eq_zero.mpr, if_neg (lt_irrefl 0)]
      intro r _ hr
      cases hr
    refine ⟨none, ?_⟩
    rw [if_neg hL]
    simp only [Prog.lift_ok, Prog.ret_bind, Prog.eval_bind, Prog.eval_beginTx, Prog.eval_query,
      pageRows_eq, List.take_zero, hcut, hrows, eval_rowsToRequests]
    cases (pendingRows userId cutoff query none db ++ ([] : List RequestRow)).mapM
        fun row => requestFromRows P row (db.relatedOf row.id) <;> rfl

/-- What a first page shows as pending is what it counts as pending. -/
theorem pending_of_firstPage (hdb : WellFormed P db) (hbefore : query.before = none)
    {page : RequestPage} {db' : Db}
    (h : Prog.eval databaseError (listRequestsForUser P C userId env query) db = .ok (page, db')) :
    (page.requests.filter fun r => r.status = .pending).map DecisionRequest.id =
      (pendingRows userId (retentionCutoff env query) query none db).map RequestRow.id := by
  obtain ⟨next, heval⟩ := @eval_firstPage P C userId env query hbefore db
  rw [heval] at h
  obtain ⟨requests, hrequests, hpage⟩ := map_eq_ok.mp h
  cases hpage
  have hread : (requests.filter fun r =>
      decide ((projectRequestForUser r userId).status = .pending)).map
        (fun r => (projectRequestForUser r userId).id) =
      ((pendingRows userId (retentionCutoff env query) query none db ++
        (handledRows userId (retentionCutoff env query) query none db).take
          (max 0 (min 500 query.handledLimit)).toNat).filter (isPendingFor userId db)).map
            RequestRow.id := by
    refine filter_map_mapM hrequests fun row hrow r hr => ?_
    obtain ⟨hstored, hrecipient⟩ := shown_of_mem hrow
    obtain ⟨version, digest, hreads⟩ := (requestFromRows_eq_ok P).mp hr
    refine ⟨?_, (projected_keys r userId).1.trans hreads.id⟩
    rw [Bool.eq_iff_iff, decide_eq_true_eq]
    exact status_projected hdb hstored hrecipient hreads
  have hpending : (pendingRows userId (retentionCutoff env query) query none db ++
      (handledRows userId (retentionCutoff env query) query none db).take
        (max 0 (min 500 query.handledLimit)).toNat).filter (isPendingFor userId db) =
          pendingRows userId (retentionCutoff env query) query none db := by
    rw [List.filter_append, List.filter_eq_self.mpr fun row hrow => (mem_pendingRows.mp hrow).2.2.1,
      List.filter_eq_nil_iff.mpr, List.append_nil]
    intro row hrow
    rw [(mem_handledRows.mp (List.mem_of_mem_take hrow)).2.2.1]
    exact Bool.false_ne_true
  rw [hpending] at hread
  rw [List.filter_map, List.map_map]
  exact hread

end FirstPage

/-! ## A walk shows nothing else -/

variable (query : ListRequestsForDevice) in
/-- What a walk has returned was to be seen when its page was read. -/
def Walker.Genuine (r : Walker) : Prop :=
  ∀ f ∈ r.pages, ∀ id ∈ f.ids, ∃ row, f.db.requests.get? id = some row ∧
    isVisible f.userId f.cutoff query f.db row = true

section Genuine

variable {query : ListRequestsForDevice} {L : Nat} {w : Walk}

theorem genuine_step (hL : query.handledLimit = L) (hlow : 1 ≤ L) (hhigh : L ≤ 500) (a : WalkAct)
    (hw : Walking P C query w) (h : w.walker.Genuine query) :
    (Walk.step P C query a w).walker.Genuine query := by
  cases a with
  | call c => exact h
  | readDevice faults =>
    have hpages : (Walk.step P C query (.readDevice faults) w).walker.pages = w.walker.pages := by
      unfold Walk.step
      dsimp only
      split <;> rfl
    unfold Walker.Genuine
    rw [hpages]
    exact h
  | readPage env faults =>
    cases hdevice : w.walker.device with
    | none =>
      unfold Walk.step
      dsimp only
      rw [hdevice]
      exact h
    | some device =>
      obtain ⟨cursor, hplace⟩ := hw.place
      obtain hfailed | ⟨page, hshows, hread⟩ :=
        readPage_cases hL hlow hhigh env faults hw hdevice hplace
      · rw [hfailed]
        exact h
      · rw [hread]
        intro f hf id hid
        obtain hold | hnew := List.mem_append.mp hf
        · exact h f hold id hid
        · rw [List.mem_singleton.mp hnew] at hid ⊢
          unfold FetchedPage.ids at hid
          rw [hshows.ids] at hid
          obtain ⟨row, hrow, rfl⟩ := List.mem_map.mp hid
          obtain hpending | hhandled := List.mem_append.mp hrow
          · obtain ⟨hstored, hvisible, -⟩ := mem_pendingRows.mp hpending
            exact ⟨row, Table.get?_of_mem hstored, hvisible⟩
          · obtain ⟨hstored, hvisible, -⟩ := mem_handledRows.mp (List.mem_of_mem_take hhandled)
            exact ⟨row, Table.get?_of_mem hstored, hvisible⟩

theorem genuine_walk (laws : CursorLaws P C) (hL : query.handledLimit = L) (hlow : 1 ≤ L)
    (hhigh : L ≤ 500) (acts : List WalkAct) (hw : Walking P C query w)
    (h : w.walker.Genuine query) : (walk P C query acts w).walker.Genuine query := by
  induction acts generalizing w with
  | nil => exact h
  | cons a acts ih =>
    exact ih (walking_step laws hL hlow hhigh a hw) (genuine_step hL hlow hhigh a hw h)

end Genuine

/-! ## Every run -/

variable (P C) in
/-- Clearing hides no work, for every device and query, after any run. -/
def ClearingKeepsWork : Prop :=
  ∀ (calls : List Call) (query : ListRequestsForDevice) (device : DeviceRow),
    query.includeCleared = false →
    (run P calls Db.empty).devices.get? query.deviceId = some device →
    (query.before = none → ∀ env page s',
      Prog.eval databaseError (listRequestsForDevice P C env query) (run P calls Db.empty) =
        .ok (page, s') →
      ∀ id, (∃ r ∈ page.requests, r.id = id ∧ r.status = .pending) ↔
        ∃ row, (run P calls Db.empty).requests.get? id = some row ∧ query.Matches row ∧
          (run P calls Db.empty).Awaits device.userId row ∧
          (run P calls Db.empty).Delivers id device.userId) ∧
    (1 ≤ query.handledLimit → query.handledLimit ≤ 500 → ∀ acts cutoff,
      (∀ a ∈ acts, a.StillAt query cutoff) →
      (walk P C query acts (.start (run P calls Db.empty))).walker.ended = true →
      (walk P C query acts (.start (run P calls Db.empty))).walker.ids.Nodup ∧
      ∀ id, id ∈ (walk P C query acts (.start (run P calls Db.empty))).walker.ids ↔
        ∃ row, (run P calls Db.empty).requests.get? id = some row ∧
          Listed (run P calls Db.empty) device.userId cutoff query
            (lastClear P device.userId row.channelId calls Db.empty none) row)

theorem isVisible_run (calls : List Call) {row : RequestRow}
    (hrow : row ∈ (run P calls Db.empty).requests.rows) {userId cutoff : String}
    {query : ListRequestsForDevice} (hcleared : query.includeCleared = false) :
    isVisible userId cutoff query (run P calls Db.empty) row = true ↔
      Listed (run P calls Db.empty) userId cutoff query
        (lastClear P userId row.channelId calls Db.empty none) row := by
  rw [isVisible_iff (stamped_run_empty calls) hrow (marked_run_empty calls _ _), hcleared]
  constructor
  · intro h
    exact ⟨h.1.matched, h.1.delivered, h.1.kept, h.2.resolve_left Bool.false_ne_true⟩
  · intro h
    exact ⟨⟨h.matched, h.delivered, h.kept⟩, Or.inr h.uncleared⟩

section

variable {calls : List Call} {query : ListRequestsForDevice} {device : DeviceRow}

/-- What waits for the user is on the first page, whatever was cleared. -/
theorem waiting_of_firstPage (hdevice : (run P calls Db.empty).devices.get? query.deviceId = some device)
    (hbefore : query.before = none) {env : Env} {page : RequestPage} {s' : Db}
    (hpage : Prog.eval databaseError (listRequestsForDevice P C env query) (run P calls Db.empty) =
      .ok (page, s')) (id : String) :
    (∃ r ∈ page.requests, r.id = id ∧ r.status = .pending) ↔
      ∃ row, (run P calls Db.empty).requests.get? id = some row ∧ query.Matches row ∧
        (run P calls Db.empty).Awaits device.userId row ∧
        (run P calls Db.empty).Delivers id device.userId := by
  have hs : WellFormed P (run P calls Db.empty) := wellFormed_run_empty calls
  have hstamped := stamped_run_empty (P := P) calls
  rw [listRequestsForDevice_eq, Prog.eval_bind_eq_ok] at hpage
  obtain ⟨found, s1, hfound, hpage⟩ := hpage
  obtain ⟨row, hrow, -, -, rfl, rfl⟩ := eval_getDevice_eq_ok.mp hfound
  rw [hdevice] at hrow
  cases hrow
  have hids := pending_of_firstPage hs hbefore hpage
  have hmem : (∃ r ∈ page.requests, r.id = id ∧ r.status = .pending) ↔
      id ∈ (page.requests.filter fun r => r.status = .pending).map DecisionRequest.id := by
    rw [List.mem_map]
    simp only [List.mem_filter, decide_eq_true_eq]
    exact exists_congr fun r => ⟨fun h => ⟨⟨h.1, h.2.2⟩, h.2.1⟩, fun h => ⟨h.1.1, h.2, h.1.2⟩⟩
  rw [hmem, hids, List.mem_map]
  constructor
  · rintro ⟨row, hrow, rfl⟩
    obtain ⟨hstored, hvisible, hpending, -⟩ := mem_pendingRows.mp hrow
    obtain ⟨hoffered, -⟩ := (isVisible_iff hstamped hstored (marked_run_empty calls _ _)).mp hvisible
    exact ⟨row, Table.get?_of_mem hstored, hoffered.matched, (awaits_iff hs hstored).mp hpending,
      hoffered.delivered⟩
  · rintro ⟨row, hrow, hmatched, hawaits, hdelivers⟩
    have hstored := Table.mem_of_get? hrow
    have hid : row.id = id := Table.key_of_get? hrow
    refine ⟨row, mem_pendingRows.mpr ⟨hstored, ?_, (awaits_iff hs hstored).mpr hawaits, rfl⟩, hid⟩
    exact (isVisible_iff hstamped hstored (marked_run_empty calls _ _)).mpr
      ⟨⟨hmatched, hid.symm ▸ hdelivers, Or.inl hawaits.1⟩, Or.inr (Or.inl hawaits)⟩

/-- A finished walk has returned each listed request once, and nothing else. -/
theorem listed_of_walk (laws : CursorLaws P C) (hcleared : query.includeCleared = false)
    (hdevice : (run P calls Db.empty).devices.get? query.deviceId = some device)
    (hlow : 1 ≤ query.handledLimit) (hhigh : query.handledLimit ≤ 500) {acts : List WalkAct}
    {cutoff : String} (hacts : ∀ a ∈ acts, a.StillAt query cutoff)
    (hended : (walk P C query acts (.start (run P calls Db.empty))).walker.ended = true) :
    (walk P C query acts (.start (run P calls Db.empty))).walker.ids.Nodup ∧
      ∀ id, id ∈ (walk P C query acts (.start (run P calls Db.empty))).walker.ids ↔
        ∃ row, (run P calls Db.empty).requests.get? id = some row ∧
          Listed (run P calls Db.empty) device.userId cutoff query
            (lastClear P device.userId row.channelId calls Db.empty none) row := by
  have hs : WellFormed P (run P calls Db.empty) := wellFormed_run_empty calls
  have hL : query.handledLimit = query.handledLimit.toNat := by omega
  have hlow' : 1 ≤ query.handledLimit.toNat := by omega
  have hhigh' : query.handledLimit.toNat ≤ 500 := by omega
  have hstart : Walking P C query (.start (run P calls Db.empty)) :=
    walking_start hs (legible_run_empty calls)
  have hstanding : Standing P C query device.userId cutoff (.start (run P calls Db.empty)) := by
    refine ⟨hstart, ⟨device, hdevice, rfl⟩, fun f hf => (by cases hf), ?_⟩
    obtain ⟨cursor, hplace⟩ := hstart.place
    exact ⟨cursor, hplace, List.nodup_nil, fun id hid => (by cases hid), fun f rest h => (by cases h)⟩
  obtain ⟨hlast, hdb⟩ := standing_walk laws hL hlow' hhigh' hacts hstanding
  have hgenuine := genuine_walk laws hL hlow' hhigh' acts hstart fun f hf => by cases hf
  obtain ⟨cursor, -, hstill⟩ := hlast.still
  refine ⟨hstill.nodup, fun id => ⟨fun hid => ?_, ?_⟩⟩
  · obtain ⟨f, hf, hid⟩ := mem_ids.mp hid
    obtain ⟨hfdb, huser, hcutoff⟩ := hlast.pages f hf
    obtain ⟨row, hrow, hvisible⟩ := hgenuine f hf id hid
    rw [hfdb, hdb] at hrow hvisible
    rw [huser, hcutoff] at hvisible
    exact ⟨row, hrow, (isVisible_run calls (Table.mem_of_get? hrow) hcleared).mp hvisible⟩
  · rintro ⟨row, hrow, hlisted⟩
    have hstored := Table.mem_of_get? hrow
    have hvisible := (isVisible_run calls hstored hcleared).mpr hlisted
    have honce : row ∈ (walk P C query acts (.start (run P calls Db.empty))).db.requests.rows →
        isVisible device.userId cutoff query
          (walk P C query acts (.start (run P calls Db.empty))).db row = true → _ :=
      once_of_standing hlast hended
    rw [hdb] at honce
    have hcount := (honce hstored hvisible).1
    have hid : row.id = id := Table.key_of_get? hrow
    rw [← hid]
    exact List.count_pos_iff.mp (by omega)

end

theorem clearing_keeps_work (laws : CursorLaws P C) : ClearingKeepsWork P C := by
  intro calls query device hcleared hdevice
  constructor
  · intro hbefore env page s' hpage
    exact waiting_of_firstPage hdevice hbefore hpage
  · intro hlow hhigh acts cutoff hacts hended
    exact listed_of_walk laws hcleared hdevice hlow hhigh hacts hended

theorem clearing_keeps_work_sample : ClearingKeepsWork samplePackages sampleCursors :=
  clearing_keeps_work cursorLaws_sample

/-! ## The year of a clear -/

/-- The request was handled for the user at or before `t`, in the milliseconds that are stored. -/
def HandledBy (s : Db) (userId : String) (row : RequestRow) (t : DateTime) : Prop :=
  ∃ handled, DateTime.parseFromRfc3339 (handledAt userId s row) = some handled ∧
    handled ≤ t.truncMillis

/-- What ended the request, or changed it last, is within the retention of the query. -/
def Retained (env : Env) (query : ListRequestsForDevice) (row : RequestRow) : Prop :=
  ∃ ended, DateTime.parseFromRfc3339 (row.resolvedAt.getD row.updatedAt) = some ended ∧
    (env.now 0).plusSeconds (-(max query.retentionDays 1 * 86400)) ≤ ended

variable (P) in
/-- A list leaves out what was handled for the user at or before the last clear, and nothing else. -/
def ShowsUncleared (calls : List Call) (userId cutoff : String) (query : ListRequestsForDevice)
    (ids : List String) : Prop :=
  ∀ id, id ∈ ids ↔ ∃ row, (run P calls Db.empty).requests.get? id = some row ∧
    Offered (run P calls Db.empty) userId cutoff query row ∧
    ((run P calls Db.empty).Awaits userId row ∨
      ∀ t ∈ lastClear P userId row.channelId calls Db.empty none,
        ¬ HandledBy (run P calls Db.empty) userId row t)

variable (P) in
/-- The last clear that a handled request of the list comes under is of a year up to 9999. -/
def ClearedInTime (calls : List Call) (userId cutoff : String) (query : ListRequestsForDevice) :
    Prop :=
  ∀ row ∈ (run P calls Db.empty).requests.rows,
    Offered (run P calls Db.empty) userId cutoff query row →
    ¬ (run P calls Db.empty).Awaits userId row →
    ∀ t ∈ lastClear P userId row.channelId calls Db.empty none,
      HandledBy (run P calls Db.empty) userId row t → t.year ≤ 9999

/-- A text of a clear is later than every stored time but for those it covers. -/
theorem uncleared_iff {s : Db} (hs : Stamped s) {row : RequestRow} (hrow : row ∈ s.requests.rows)
    {userId : String} {mark : Option DateTime} :
    (∃ handled, DateTime.parseFromRfc3339 (handledAt userId s row) = some handled ∧
        ∀ t ∈ mark, ¬ Covers t handled) ↔
      ∀ t ∈ mark, HandledBy s userId row t → 9999 < t.year := by
  obtain ⟨u, hyear, hmillis, htext⟩ := isStamp_handledAt hs hrow userId
  have hparse : DateTime.parseFromRfc3339 (handledAt userId s row) = some u := by
    rw [htext, DateTime.parse_toRfc3339Millis u hyear, hmillis]
  have hhandled : ∀ t, HandledBy s userId row t ↔ u ≤ t := by
    intro t
    unfold HandledBy
    rw [hparse, ← DateTime.truncMillis_le_truncMillis hmillis]
    simp only [Option.some.injEq, exists_eq_left']
  simp only [hparse, Option.some.injEq, exists_eq_left', hhandled, Covers, not_and, ← not_le]
  exact forall₂_congr fun t _ => imp_not_comm

/-- What ended within the retention is kept by the comparison of texts. -/
theorem kept_of_retained {s : Db} (hs : Stamped s) {row : RequestRow} (hrow : row ∈ s.requests.rows)
    {env : Env} {query : ListRequestsForDevice} (h : Retained env query row) :
    retentionCutoff env query ≤ row.resolvedAt.getD row.updatedAt := by
  obtain ⟨ended, hparse, hcutoff⟩ := h
  obtain ⟨hupdated, hresolved, -⟩ := hs row hrow
  have hstamp : IsStamp (row.resolvedAt.getD row.updatedAt) := by
    cases htext : row.resolvedAt with
    | none => exact hupdated
    | some text => exact hresolved text htext
  obtain ⟨u, hyear, hmillis, htext⟩ := hstamp
  rw [htext, DateTime.parse_toRfc3339Millis u hyear, hmillis] at hparse
  obtain rfl := Option.some.inj hparse
  rw [htext]
  exact DateTime.toRfc3339Millis_mono hcutoff hyear

section

variable {calls : List Call} {query : ListRequestsForDevice} {userId cutoff : String}
  {ids : List String}

/-- A list by the comparison of texts is the list that it should be where every clear is of a year
    that a text can be compared in. -/
theorem showsUncleared_iff (h : ∀ id, id ∈ ids ↔
      ∃ row, (run P calls Db.empty).requests.get? id = some row ∧
        Listed (run P calls Db.empty) userId cutoff query
          (lastClear P userId row.channelId calls Db.empty none) row) :
    ShowsUncleared P calls userId cutoff query ids ↔ ClearedInTime P calls userId cutoff query := by
  have hs := stamped_run_empty (P := P) calls
  constructor
  · intro hshows row hrow hoffered hhandled t ht hby
    by_contra hlate
    have hunseen : row.id ∉ ids := by
      intro hid
      obtain ⟨row', hrow', -, hwaits⟩ := (hshows row.id).mp hid
      rw [Table.get?_of_mem hrow] at hrow'
      obtain rfl := Option.some.inj hrow'
      obtain hwaits | hclear := hwaits
      · exact hhandled hwaits
      · exact hclear t ht hby
    refine hunseen ((h row.id).mpr ⟨row, Table.get?_of_mem hrow, hoffered.matched, hoffered.delivered,
      hoffered.kept, Or.inr ((uncleared_iff hs hrow).mpr fun t' ht' _ => ?_)⟩)
    have hsame : t' = t := Option.some.inj (ht'.symm.trans ht)
    rw [hsame]
    omega
  · intro hyears id
    rw [h id]
    constructor
    · rintro ⟨row, hrow, hlisted⟩
      have hstored := Table.mem_of_get? hrow
      have hoffered : Offered _ userId cutoff query row :=
        ⟨hlisted.matched, hlisted.delivered, hlisted.kept⟩
      refine ⟨row, hrow, hoffered, or_iff_not_imp_left.mpr fun hhandled t ht hby => ?_⟩
      have hlate := (uncleared_iff hs hstored).mp (hlisted.uncleared.resolve_left hhandled) t ht hby
      have hyear := hyears row hstored hoffered hhandled t ht hby
      omega
    · rintro ⟨row, hrow, hoffered, hwaits⟩
      refine ⟨row, hrow, hoffered.matched, hoffered.delivered, hoffered.kept, hwaits.imp_right ?_⟩
      intro hclear
      exact (uncleared_iff hs (Table.mem_of_get? hrow)).mpr fun t ht hby => absurd hby (hclear t ht)

end

variable (P C) in
/-- Clearing hides no work, for every device and query, after any run: what waits is on the first
    page; a finished walk leaves out what is cleared exactly when the clears are of years up to
    9999; what was handled after the clear, within the retention, is listed. -/
def ClearingHidesNoWork : Prop :=
  ∀ (calls : List Call) (query : ListRequestsForDevice) (device : DeviceRow),
    (run P calls Db.empty).devices.get? query.deviceId = some device →
    (query.before = none → ∀ env page s',
      Prog.eval databaseError (listRequestsForDevice P C env query) (run P calls Db.empty) =
        .ok (page, s') →
      ∀ id, (∃ r ∈ page.requests, r.id = id ∧ r.status = .pending) ↔
        ∃ row, (run P calls Db.empty).requests.get? id = some row ∧ query.Matches row ∧
          (run P calls Db.empty).Awaits device.userId row ∧
          (run P calls Db.empty).Delivers id device.userId) ∧
    (query.includeCleared = false → 1 ≤ query.handledLimit → query.handledLimit ≤ 500 →
      ∀ acts cutoff, (∀ a ∈ acts, a.StillAt query cutoff) →
      (walk P C query acts (.start (run P calls Db.empty))).walker.ended = true →
      (ShowsUncleared P calls device.userId cutoff query
          (walk P C query acts (.start (run P calls Db.empty))).walker.ids ↔
        ClearedInTime P calls device.userId cutoff query) ∧
      ∀ env, retentionCutoff env query = cutoff → ∀ row ∈ (run P calls Db.empty).requests.rows,
        query.Matches row → (run P calls Db.empty).Delivers row.id device.userId →
        Retained env query row →
        (∀ t ∈ lastClear P device.userId row.channelId calls Db.empty none,
          ¬ HandledBy (run P calls Db.empty) device.userId row t) →
        row.id ∈ (walk P C query acts (.start (run P calls Db.empty))).walker.ids)

theorem clearing_hides_no_work (laws : CursorLaws P C) : ClearingHidesNoWork P C := by
  intro calls query device hdevice
  refine ⟨fun hbefore env page s' hpage => waiting_of_firstPage hdevice hbefore hpage, ?_⟩
  intro hcleared hlow hhigh acts cutoff hacts hended
  obtain ⟨-, hids⟩ := listed_of_walk laws hcleared hdevice hlow hhigh hacts hended
  refine ⟨showsUncleared_iff hids, ?_⟩
  rintro env rfl row hrow hmatched hdelivered hretained hclear
  have hs := stamped_run_empty (P := P) calls
  exact (hids row.id).mpr ⟨row, Table.get?_of_mem hrow, hmatched, hdelivered,
    Or.inr (kept_of_retained hs hrow hretained),
    Or.inr ((uncleared_iff hs hrow).mpr fun t ht hby => absurd hby (hclear t ht))⟩

theorem clearing_hides_no_work_sample : ClearingHidesNoWork samplePackages sampleCursors :=
  clearing_hides_no_work cursorLaws_sample

/-- A card is cancelled in 2026, and its channel cleared in the year 10000. -/
def lateClearCalls : List Call :=
  [open_ codeEnv, ⟨.admin (.createEnrollmentCode codeEnv "owner" none), []⟩,
    ⟨.admin (.enrollDevice codeEnv phoneRequest), []⟩, sampleCreate.toCall,
    ⟨.cancelRequest sampleEnv (sampleEnv.newId 0), []⟩,
    ⟨.admin (.clearChannel lateEnv (codeEnv.newId 0) "default"), []⟩]

/-- The inbox of the phone, not filtered. -/
def phoneInbox : ListRequestsForDevice where
  deviceId := codeEnv.newId 0
  channelId := none
  includeCleared := false
  handledLimit := 50
  retentionDays := 30
  search := none
  before := none

def phoneWalk : Walk :=
  walk samplePackages sampleCursors phoneInbox [.readDevice [], .readPage sampleEnv []]
    (.start (run samplePackages lateClearCalls Db.empty))

/-- The card is still listed after the clear. -/
theorem late_clear_unseen : phoneWalk.walker.ended = true ∧
    lastClear samplePackages "owner" "default" lateClearCalls Db.empty none = some yearTenThousand ∧
    ¬ ShowsUncleared samplePackages lateClearCalls "owner" (retentionCutoff sampleEnv phoneInbox)
      phoneInbox phoneWalk.walker.ids := by
  have hfacts : phoneWalk.walker.ended = true ∧
      lastClear samplePackages "owner" "default" lateClearCalls Db.empty none = some yearTenThousand ∧
      sampleEnv.newId 0 ∈ phoneWalk.walker.ids ∧
      ((run samplePackages lateClearCalls Db.empty).requests.get? (sampleEnv.newId 0)).all
        (fun row => row.status = .cancelled && row.channelId = "default" &&
          handledAt "owner" (run samplePackages lateClearCalls Db.empty) row =
            sampleTime.toRfc3339Millis) = true := by
    decide +kernel
  obtain ⟨hended, hlast, hlisted, hfields⟩ := hfacts
  refine ⟨hended, hlast, fun hshows => ?_⟩
  obtain ⟨row, hrow, -, hwaits⟩ := (hshows _).mp hlisted
  rw [hrow, Option.all_some, Bool.and_eq_true, Bool.and_eq_true, decide_eq_true_eq, decide_eq_true_eq,
    decide_eq_true_eq] at hfields
  obtain ⟨⟨hstatus, hchannel⟩, hhandled⟩ := hfields
  obtain hwaits | hclear := hwaits
  · rw [hwaits.1] at hstatus
    cases hstatus
  · rw [hchannel] at hclear
    refine hclear yearTenThousand hlast ⟨sampleTime, ?_, by decide⟩
    rw [hhandled]
    decide

end Nod.Server
