import Nod.Lib.Cursor
import Nod.Server.PublishQueue

/-
  Replay of the journal for integrations (`list` of `api/integration_events.rs`, `high_water` and
  `scan` of `db/lifecycle.rs`). A reader pages from a position up to the
  high-water mark of its first answer; calls and workers act between the statements of a page and
  between pages, and a page that the store fails is asked for again.
  Proved: `integration_replay`, a reader that has reached its mark has received exactly the events
  after its start and up to the mark that its scopes authorise, in order, and it gets there.
-/

namespace Nod.Server

open Lib Nod.Proto

/-! ## Scopes -/

/-- Some channel might be readable: asked before the journal is. -/
def mayRead : Principal → Bool
  | .issuer token => token.scopes.any fun scope =>
    scope == "*" || scope == "requests:*" || scope == "requests:read" || scope == "requests:write" ||
      startsWith "requests:read:" scope || startsWith "requests:write:" scope ||
      startsWith "requests:*:" scope
  | _ => true

/-! ## One page -/

structure ReplayQuery where
  after : Option Int
  limit : Option Int
  through : Option Int

structure ReplayEvent where
  seq : Nat
  envelope : EventEnvelope
  deriving DecidableEq

structure ReplayPage where
  events : List ReplayEvent
  nextCursor : Int
  highWater : Int

/-- An event with the channel that was saved for it. -/
def EventRow.scanned (e : EventRow) : ReplayEvent × String := (⟨e.seq, e.envelope⟩, e.channelId)

def highWater (db : Db) : Int := ((db.events.rows.map EventRow.seq).max?.getD 0 : Nat)

/-- `seq > ? AND seq <= ?`. -/
def inWindow (after through : Int) (seq : Nat) : Bool :=
  decide (after < seq) && decide ((seq : Int) ≤ through)

def scanRows (after through limit : Int) (db : Db) : List (ReplayEvent × String) :=
  (((db.events.rows.filter fun e => inWindow after through e.seq).mergeSort
    fun a b => a.seq ≤ b.seq).take limit.toNat).map EventRow.scanned

/-- The checks between the two statements, and the mark up to which the page is read. -/
def checkReplay (principal : Principal) (query : ReplayQuery) (high : Int) : Except ApiError Int := do
  let after := query.after.getD 0
  let limit := query.limit.getD 100
  let through := query.through.getD high
  refuseIf (after < 0 ∨ ¬ (1 ≤ limit ∧ limit ≤ 500) ∨ through < after ∨ high < through)
    (ApiError.badRequest "invalid replay cursor or limit")
  refuseIf (mayRead principal = false) ApiError.forbidden
  pure through

/-- The cursor moves on over rows the principal may not see. -/
def replayPage (principal : Principal) (through : Int) (rows : List (ReplayEvent × String)) :
    ReplayPage :=
  { events := rows.filterMap fun row =>
      if requireRequestRead principal row.2 = .ok () then some row.1 else none
    nextCursor := (rows.getLast?.map fun row => (row.1.seq : Int)).getD through
    highWater := through }

/-! ## A reader -/

/-- Where a reader is: between pages, or between the two statements of a page up to `through`. -/
inductive ReaderPhase where
  | asking
  | scanning (through : Int)
  | finished
  | refused (error : ApiError)

/-- A reader follows `next_cursor` up to the mark of its first page. -/
structure Reader where
  after : Int
  mark : Option Int
  phase : ReaderPhase
  received : List ReplayEvent
  pages : Nat

structure ReplayWorld where
  world : World
  reader : Reader

inductive ReplayAct where
  | world (a : Act)
  | highWater (fault : Bool)
  | scan (fault : Bool)

variable (P : Packages) (principal : Principal) (limit : Int)

def Reader.query (r : Reader) : ReplayQuery := ⟨some r.after, some limit, r.mark⟩

/-- The first statement of a page, which a device is not let to; a failed one is tried again. -/
def Reader.askHighWater (fault : Bool) (db : Db) (r : Reader) : Reader :=
  match r.phase with
  | .asking =>
    if fault then r
    else match checkReplay principal (r.query limit) (highWater db) with
      | .ok through => { r with phase := .scanning through }
      | .error e => { r with phase := .refused e }
  | _ => r

def Reader.receive (page : ReplayPage) (r : Reader) : Reader where
  after := page.nextCursor
  mark := some page.highWater
  phase := if page.nextCursor = page.highWater then .finished else .asking
  received := r.received ++ page.events
  pages := r.pages + 1

/-- The second statement of a page; if it fails, the page is asked for again. -/
def Reader.askRows (fault : Bool) (db : Db) (r : Reader) : Reader :=
  match r.phase with
  | .scanning through =>
    if fault then { r with phase := .asking }
    else r.receive (replayPage principal through (scanRows r.after through limit db))
  | _ => r

def ReplayWorld.step (a : ReplayAct) (s : ReplayWorld) : ReplayWorld :=
  match a with
  | .world a => { s with world := World.step P a s.world }
  | .highWater fault => { s with reader := s.reader.askHighWater principal limit fault s.world.db }
  | .scan fault => { s with reader := s.reader.askRows principal limit fault s.world.db }

def ReplayWorld.allows : ReplayAct → ReplayWorld → Prop
  | .world a, s => World.allows a s.world
  | _, _ => True

def replays : Machine ReplayWorld ReplayAct := ⟨ReplayWorld.step P principal limit, ReplayWorld.allows⟩

/-- A reader that starts at a position. -/
def Reader.startAt (start : Int) : Reader := ⟨start, none, .asking, [], 0⟩

/-! ## The journal a reader sees -/

/-- The scanned rows of the journal, in the order of their numbers. -/
def scannedRows (db : Db) : List (ReplayEvent × String) := db.events.rows.map EventRow.scanned

/-- The rows after a position and up to a mark. -/
def unread (after through : Int) (db : Db) : List (ReplayEvent × String) :=
  (scannedRows db).filter fun row => inWindow after through row.1.seq

/-- The events after a position and up to a mark that a principal may read. -/
def readable (after through : Int) (db : Db) : List ReplayEvent :=
  (unread after through db).filterMap fun row =>
    if requireRequestRead principal row.2 = .ok () then some row.1 else none

/-- A mark that the journal has reached. -/
def Marked (mark : Int) (db : Db) : Prop := mark = 0 ∨ ∃ row ∈ scannedRows db, mark = row.1.seq

def Earlier (a b : ReplayEvent × String) : Prop := a.1.seq < b.1.seq

instance : DecidableRel Earlier := fun a b => inferInstanceAs (Decidable (a.1.seq < b.1.seq))

variable {P principal limit}

theorem inWindow_iff {after through : Int} {seq : Nat} :
    inWindow after through seq = true ↔ after < seq ∧ (seq : Int) ≤ through := by
  unfold inWindow
  rw [Bool.and_eq_true, decide_eq_true_eq, decide_eq_true_eq]

theorem scannedRows_sorted {db : Db} (hdb : WellFormed P db) : (scannedRows db).Pairwise Earlier := by
  unfold scannedRows
  rw [List.pairwise_map]
  have hordered : db.events.rows.Pairwise fun a b => a.seq < b.seq := List.pairwise_map.mp hdb.ordered
  exact hordered

theorem unread_sorted {db : Db} (hdb : WellFormed P db) (after through : Int) :
    (unread after through db).Pairwise Earlier :=
  (scannedRows_sorted hdb).sublist List.filter_sublist

/-- The statement reads the first unread rows. -/
theorem scanRows_eq {db : Db} (hdb : WellFormed P db) (after through limit : Int) :
    scanRows after through limit db = (unread after through db).take limit.toNat := by
  unfold scanRows unread scannedRows
  have hordered := List.pairwise_map.mp hdb.ordered
  rw [List.mergeSort_of_pairwise, List.map_take, List.filter_map]
  · rfl
  · refine (hordered.sublist List.filter_sublist).imp fun hlt => ?_
    exact decide_eq_true (Nat.le_of_lt hlt)

theorem seq_le_highWater {db : Db} {row : ReplayEvent × String} (hrow : row ∈ scannedRows db) :
    (row.1.seq : Int) ≤ highWater db := by
  obtain ⟨e, he, rfl⟩ := List.mem_map.mp hrow
  have hmem : e.seq ∈ db.events.rows.map EventRow.seq := List.mem_map_of_mem he
  unfold highWater
  cases hmax : (db.events.rows.map EventRow.seq).max? with
  | none =>
    rw [List.max?_eq_none_iff] at hmax
    rw [hmax] at hmem
    cases hmem
  | some m => exact Int.ofNat_le.mpr ((List.max?_eq_some_iff.mp hmax).2 e.seq hmem)

theorem marked_highWater (db : Db) : Marked (highWater db) db := by
  unfold highWater
  cases hmax : (db.events.rows.map EventRow.seq).max? with
  | none => exact Or.inl rfl
  | some m =>
    obtain ⟨e, he, hseq⟩ := List.mem_map.mp (List.max?_eq_some_iff.mp hmax).1
    exact Or.inr ⟨e.scanned, List.mem_map_of_mem he, congrArg Int.ofNat hseq.symm⟩

theorem Marked.le_highWater {mark : Int} {db : Db} (h : Marked mark db) : mark ≤ highWater db := by
  rcases h with rfl | ⟨row, hrow, rfl⟩
  · exact Int.natCast_nonneg _
  · exact seq_le_highWater hrow

/-! ## A page -/

/-- Past the last row of a page is what the page left out. -/
theorem unread_past {db : Db} (hdb : WellFormed P db) {after through : Int} {n : Nat}
    {row : ReplayEvent × String} (hlast : ((unread after through db).take n).getLast? = some row) :
    unread row.1.seq through db = (unread after through db).drop n := by
  have hmem : row ∈ unread after through db := List.mem_of_mem_take (List.mem_of_getLast? hlast)
  have hpast := Cursor.past_of_take (r := Earlier) (fun a => Nat.lt_irrefl a.1.seq)
    (fun _ _ _ => Nat.lt_trans) (unread_sorted hdb after through) hlast
  rw [← hpast]
  unfold unread at hmem ⊢
  have hafter := (inWindow_iff.mp (List.mem_filter.mp hmem).2).1
  unfold Cursor.past
  rw [List.filter_filter]
  refine List.filter_congr fun other _ => ?_
  rw [Option.all_some, Bool.eq_iff_iff, Bool.and_eq_true, inWindow_iff, inWindow_iff,
    decide_eq_true_eq]
  unfold Earlier
  omega

/-- Past its mark a journal has nothing to read. -/
theorem unread_self (mark : Int) (db : Db) : unread mark mark db = [] := by
  refine List.filter_eq_nil_iff.mpr fun row _ hwindow => ?_
  obtain ⟨hlt, hle⟩ := inWindow_iff.mp hwindow
  omega

/-- A mark that is ahead of a position leaves something to read. -/
theorem unread_ne_nil {mark after : Int} {db : Db} (h : Marked mark db) (hafter : 0 ≤ after)
    (hlt : after < mark) : unread after mark db ≠ [] := by
  rcases h with rfl | ⟨row, hrow, rfl⟩
  · omega
  · refine List.ne_nil_of_mem (a := row) (List.mem_filter.mpr ⟨hrow, ?_⟩)
    exact inWindow_iff.mpr ⟨hlt, le_refl _⟩

variable (principal) in
/-- What a page from a position up to a mark brings. -/
structure PageRead (db : Db) (after mark : Int) (page : ReplayPage) : Prop where
  highWater : page.highWater = mark
  events : page.events ++ readable principal page.nextCursor mark db = readable principal after mark db
  after_le : after ≤ page.nextCursor
  le_mark : page.nextCursor ≤ mark
  fewer : (unread page.nextCursor mark db).length ≤ (unread after mark db).length - 1

variable (principal) in
theorem pageRead {db : Db} (hdb : WellFormed P db) {after mark : Int} (hle : after ≤ mark)
    (hlimit : 1 ≤ limit) :
    PageRead principal db after mark
      (replayPage principal mark (scanRows after mark limit db)) := by
  rw [scanRows_eq hdb]
  have hpos : 0 < limit.toNat := by omega
  cases hlast : ((unread after mark db).take limit.toNat).getLast? with
  | none =>
    have hnil : unread after mark db = [] := by
      rw [List.getLast?_eq_none_iff, List.take_eq_nil_iff] at hlast
      exact hlast.resolve_left (Nat.ne_of_gt hpos)
    have hpage : replayPage principal mark ((unread after mark db).take limit.toNat) =
        ⟨[], mark, mark⟩ := by
      rw [hnil, List.take_nil]
      rfl
    rw [hpage]
    refine ⟨rfl, ?_, hle, le_refl _, ?_⟩
    · unfold readable
      dsimp only
      rw [unread_self, hnil]
      rfl
    · dsimp only
      rw [unread_self]
      exact Nat.zero_le _
  | some row =>
    have hmem : row ∈ unread after mark db := List.mem_of_mem_take (List.mem_of_getLast? hlast)
    obtain ⟨hlt, hrow⟩ := inWindow_iff.mp (List.mem_filter.mp hmem).2
    have hcursor : (replayPage principal mark ((unread after mark db).take limit.toNat)).nextCursor =
        row.1.seq := by
      unfold replayPage
      rw [hlast]
      rfl
    refine ⟨rfl, ?_, ?_, ?_, ?_⟩
    · rw [hcursor]
      unfold readable replayPage
      dsimp only
      rw [unread_past hdb hlast, ← List.filterMap_append, List.take_append_drop]
    · rw [hcursor]
      exact Int.le_of_lt hlt
    · rw [hcursor]
      exact hrow
    · rw [hcursor, unread_past hdb hlast, List.length_drop]
      omega

/-! ## The journal between pages -/

theorem scannedRows_rewritten {db db' : Db} {e e' : EventRow}
    (h : LifecyclePublish.Rewritten db db' e e') (hsame : e'.scanned = e.scanned) :
    scannedRows db' = scannedRows db := by
  unfold scannedRows
  rw [h.rows, List.map_map]
  refine List.map_congr_left fun d hd => ?_
  rw [Function.comp_apply]
  by_cases hid : d.eventId = e.eventId
  · have hde : d = e := by
      have hget := Table.get?_of_mem hd
      rw [hid, h.stored] at hget
      exact (Option.some.inj hget).symm
    rw [if_pos hid, hsame, hde]
  · rw [if_neg hid]

/-- The journal grows at its end; publishing an event leaves what a reader sees of it. -/
theorem scannedRows_step {w w' : World} (h : EventStep P w w') :
    ∃ new, scannedRows w'.db = scannedRows w.db ++ new := by
  cases h with
  | added new hrows hnew hclaims hpublished htokens henvs =>
    refine ⟨new.map EventRow.scanned, ?_⟩
    unfold scannedRows
    rw [hrows, List.map_append]
  | claimed env e e' until_ hnext huntil hfresh he' hrow hclaims hpublished htokens henvs =>
    refine ⟨[], ?_⟩
    rw [List.append_nil, scannedRows_rewritten hrow (by rw [he']; rfl)]
  | published env claim streamSeq e hheld hrow hclaims hpublished htokens henvs =>
    refine ⟨[], ?_⟩
    rw [List.append_nil, scannedRows_rewritten hrow rfl]
  | retried env claim next e hnext hheld hrow hclaims hpublished htokens henvs =>
    refine ⟨[], ?_⟩
    rw [List.append_nil, scannedRows_rewritten hrow rfl]

/-- What is appended comes after every mark that was reached. -/
theorem unread_grown {db db' : Db} (hdb' : WellFormed P db') {new : List (ReplayEvent × String)}
    (hgrown : scannedRows db' = scannedRows db ++ new) {mark : Int} (hmark : Marked mark db)
    {after : Int} (hafter : 0 ≤ after) : unread after mark db' = unread after mark db := by
  unfold unread
  rw [hgrown, List.filter_append, List.filter_eq_nil_iff (l := new) |>.mpr, List.append_nil]
  intro row hrow hwindow
  obtain ⟨hlt, hle⟩ := inWindow_iff.mp hwindow
  rcases hmark with rfl | ⟨last, hlast, rfl⟩
  · omega
  · have hsorted := scannedRows_sorted hdb'
    rw [hgrown] at hsorted
    have hearlier : last.1.seq < row.1.seq := (List.pairwise_append.mp hsorted).2.2 last hlast row hrow
    omega

theorem Marked.grown {db db' : Db} {new : List (ReplayEvent × String)} {mark : Int}
    (h : Marked mark db) (hgrown : scannedRows db' = scannedRows db ++ new) : Marked mark db' := by
  refine h.imp_right fun ⟨row, hrow, hseq⟩ => ⟨row, ?_, hseq⟩
  rw [hgrown]
  exact List.mem_append_left _ hrow

theorem readable_grown {db db' : Db} (hdb' : WellFormed P db') {new : List (ReplayEvent × String)}
    (hgrown : scannedRows db' = scannedRows db ++ new) {mark : Int} (hmark : Marked mark db)
    {after : Int} (hafter : 0 ≤ after) :
    readable principal after mark db' = readable principal after mark db := by
  unfold readable
  rw [unread_grown hdb' hgrown hmark hafter]

/-! ## The checks of a page -/

theorem checkReplay_eq_ok {query : ReplayQuery} {high through : Int} :
    checkReplay principal query high = .ok through ↔
      through = query.through.getD high ∧ 0 ≤ query.after.getD 0 ∧ query.after.getD 0 ≤ through ∧
        through ≤ high ∧ (1 ≤ query.limit.getD 100 ∧ query.limit.getD 100 ≤ 500) ∧
        mayRead principal = true := by
  unfold checkReplay
  simp only [bind_eq_ok, refuseIf_eq_ok]
  constructor
  · rintro ⟨_, hrange, _, hscopes, hthrough⟩
    cases hthrough
    refine ⟨rfl, ?_, ?_, ?_, ?_, Bool.not_eq_false _ ▸ hscopes⟩
    all_goals omega
  · rintro ⟨rfl, hafter, hle, hhigh, hlimit, hscopes⟩
    refine ⟨(), ?_, (), ?_, rfl⟩
    · omega
    · rw [hscopes]
      exact Bool.true_eq_false_eq_False

/-- A refusal for the scopes is one for scopes that read no channel. -/
theorem checkReplay_forbidden {query : ReplayQuery} {high : Int}
    (h : checkReplay principal query high = .error .forbidden) : mayRead principal = false := by
  by_contra hscopes
  unfold checkReplay at h
  rw [refuseIf_neg hscopes] at h
  dsimp only at h
  unfold refuseIf at h
  split at h
  · cases h
  · cases h

theorem startsWith_append (lead s : String) : startsWith lead (lead ++ s) = true := by
  unfold startsWith
  rw [List.isPrefixOf_iff_prefix, String.toList_append]
  exact List.prefix_append _ _

/-- Scopes that read a channel pass the check that is made before the journal is read. -/
theorem mayRead_of_read {channelId : String} (h : requireRequestRead principal channelId = .ok ()) :
    mayRead principal = true := by
  cases principal with
  | admin => rfl
  | device => rfl
  | issuer token =>
    unfold requireRequestRead at h
    rw [refuseIf_eq_ok, Bool.not_eq_false] at h
    unfold hasRequestScope at h
    unfold mayRead
    rw [List.any_eq_true] at h ⊢
    obtain ⟨scope, hmem, hscope⟩ := h
    refine ⟨scope, hmem, ?_⟩
    simp only [Bool.or_eq_true, Bool.and_eq_true, beq_iff_eq] at hscope ⊢
    have hread := startsWith_append "requests:read:" channelId
    have hwrite := startsWith_append "requests:write:" channelId
    have hany := startsWith_append "requests:*:" channelId
    rcases hscope with ((((rfl | rfl) | rfl) | rfl) | rfl) | ⟨-, rfl | rfl⟩
    · simp
    · simp
    · simp
    · change startsWith "requests:read:" ("requests:read:" ++ channelId) = true at hread
      simp [hread]
    · simp [hany]
    · simp
    · simp [hwrite]

theorem readable_eq_nil (h : mayRead principal = false) (after mark : Int) (db : Db) :
    readable principal after mark db = [] := by
  unfold readable
  rw [List.filterMap_eq_nil_iff]
  intro row _
  refine if_neg fun hread => ?_
  rw [mayRead_of_read hread] at h
  cases h

/-! ## The invariant of a reader -/

variable (principal) in
/-- A reader that has its mark. -/
structure Reading (start mark : Int) (s : ReplayWorld) : Prop where
  reached : Marked mark s.world.db
  scopes : mayRead principal = true
  start_nonneg : 0 ≤ start
  start_le : start ≤ s.reader.after
  after_le : s.reader.after ≤ mark
  received : s.reader.received ++ readable principal s.reader.after mark s.world.db =
    readable principal start mark s.world.db
  done : s.reader.phase = .finished ↔ s.reader.after = mark

variable (P principal) in
structure Replaying (start : Int) (s : ReplayWorld) : Prop where
  wellFormed : WellFormed P s.world.db
  fresh : s.reader.mark = none →
    s.reader.after = start ∧ s.reader.received = [] ∧ s.reader.phase ≠ .finished
  marked : ∀ mark, s.reader.mark = some mark → Reading principal start mark s
  scanning : ∀ through, s.reader.phase = .scanning through →
    0 ≤ s.reader.after ∧ s.reader.after ≤ through ∧ Marked through s.world.db ∧
      mayRead principal = true ∧ ∀ mark, s.reader.mark = some mark → through = mark
  refused : ∀ e, s.reader.phase = .refused e → s.reader.mark = none ∧
    (e = .forbidden → mayRead principal = false)

theorem replaying_world (a : Act) {start : Int} {s : ReplayWorld}
    (hs : Replaying P principal start s) (hallowed : World.allows a s.world) :
    Replaying P principal start { s with world := World.step P a s.world } := by
  have hdb' := wellFormed_step a hs.wellFormed
  obtain ⟨new, hgrown⟩ := scannedRows_step (eventStep_of_act a hs.wellFormed hallowed)
  refine ⟨hdb', hs.fresh, fun mark hmark => ?_, fun through hthrough => ?_, hs.refused⟩
  · have h := hs.marked mark hmark
    refine ⟨h.reached.grown hgrown, h.scopes, h.start_nonneg, h.start_le, h.after_le, ?_, h.done⟩
    dsimp only
    rw [readable_grown hdb' hgrown h.reached (le_trans h.start_nonneg h.start_le),
      readable_grown hdb' hgrown h.reached h.start_nonneg]
    exact h.received
  · obtain ⟨hafter, hle, hreached, hrest⟩ := hs.scanning through hthrough
    exact ⟨hafter, hle, hreached.grown hgrown, hrest⟩

/-- A page that is asked for with a mark passes the checks. -/
theorem checkReplay_marked {start mark : Int} {s : ReplayWorld} (h : Reading principal start mark s)
    (hmark : s.reader.mark = some mark) (hlimit : 1 ≤ limit ∧ limit ≤ 500) :
    checkReplay principal (s.reader.query limit) (highWater s.world.db) = .ok mark := by
  refine checkReplay_eq_ok.mpr ⟨?_, le_trans h.start_nonneg h.start_le, h.after_le,
    h.reached.le_highWater, hlimit, h.scopes⟩
  unfold Reader.query
  rw [hmark]
  rfl

theorem replaying_highWater (fault : Bool) (hlimit : 1 ≤ limit ∧ limit ≤ 500) {start : Int}
    {s : ReplayWorld} (hs : Replaying P principal start s) :
    Replaying P principal start
      { s with reader := s.reader.askHighWater principal limit fault s.world.db } := by
  unfold Reader.askHighWater
  cases hphase : s.reader.phase with
  | scanning through => exact hs
  | finished => exact hs
  | refused e => exact hs
  | asking =>
    cases fault with
    | true => exact hs
    | false =>
      dsimp only
      rw [if_neg Bool.false_ne_true]
      cases hcheck : checkReplay principal (s.reader.query limit) (highWater s.world.db) with
      | ok through =>
        obtain ⟨hthrough, hafter, hle, hhigh, -, hscopes⟩ := checkReplay_eq_ok.mp hcheck
        refine ⟨hs.wellFormed, fun hmark => ?_, fun mark hmark => ?_, fun t ht => ?_,
          fun e he => ?_⟩
        · obtain ⟨hstart, hreceived, -⟩ := hs.fresh hmark
          exact ⟨hstart, hreceived, fun h => (by cases h)⟩
        · have h := hs.marked mark hmark
          refine ⟨h.reached, h.scopes, h.start_nonneg, h.start_le, h.after_le, h.received, ?_⟩
          refine iff_of_false (fun hfinished => by cases hfinished) fun hdone => ?_
          rw [h.done.mpr hdone] at hphase
          cases hphase
        · cases ht
          refine ⟨hafter, hle, ?_, hscopes, fun mark hmark => ?_⟩
          · cases hmark : s.reader.mark with
            | none =>
              have heq : through = highWater s.world.db := by
                rw [hthrough]
                unfold Reader.query
                rw [hmark]
                rfl
              rw [heq]
              exact marked_highWater _
            | some mark =>
              rw [checkReplay_marked (hs.marked mark hmark) hmark hlimit] at hcheck
              rw [← Except.ok.inj hcheck]
              exact (hs.marked mark hmark).reached
          · rw [checkReplay_marked (hs.marked mark hmark) hmark hlimit] at hcheck
            cases hcheck
            rfl
        · cases he
      | error e =>
        have hnone : s.reader.mark = none := by
          cases hmark : s.reader.mark with
          | none => rfl
          | some mark =>
            rw [checkReplay_marked (hs.marked mark hmark) hmark hlimit] at hcheck
            cases hcheck
        obtain ⟨hstart, hreceived, -⟩ := hs.fresh hnone
        refine ⟨hs.wellFormed, fun _ => ⟨hstart, hreceived, fun h => (by cases h)⟩,
          fun mark hmark => ?_, fun t ht => (by cases ht), fun e' he' => ?_⟩
        · dsimp only at hmark
          rw [hnone] at hmark
          cases hmark
        · cases he'
          refine ⟨hnone, fun hforbidden => ?_⟩
          rw [hforbidden] at hcheck
          exact checkReplay_forbidden hcheck

/-- A page with its rows, received by a reader that has no mark or has this one. -/
theorem reading_receive {start through : Int} {s : ReplayWorld} (hs : Replaying P principal start s)
    (hphase : s.reader.phase = .scanning through) (hlimit : 1 ≤ limit) :
    Reading principal start through { s with
      reader := s.reader.receive
        (replayPage principal through (scanRows s.reader.after through limit s.world.db)) } := by
  obtain ⟨hafter, hle, hreached, hscopes, hsame⟩ := hs.scanning through hphase
  have hpage := pageRead principal hs.wellFormed hle hlimit
  have hbefore : 0 ≤ start ∧ start ≤ s.reader.after ∧
      s.reader.received ++ readable principal s.reader.after through s.world.db =
        readable principal start through s.world.db := by
    cases hmark : s.reader.mark with
    | none =>
      obtain ⟨hstart, hreceived, -⟩ := hs.fresh hmark
      rw [hreceived, hstart, List.nil_append]
      exact ⟨hstart ▸ hafter, le_refl _, rfl⟩
    | some mark =>
      obtain rfl := hsame mark hmark
      have h := hs.marked _ hmark
      exact ⟨h.start_nonneg, h.start_le, h.received⟩
  obtain ⟨hnonneg, hstart, hreceived⟩ := hbefore
  refine ⟨hreached, hscopes, hnonneg, le_trans hstart hpage.after_le, hpage.le_mark, ?_, ?_⟩
  · unfold Reader.receive
    dsimp only
    rw [List.append_assoc, hpage.events]
    exact hreceived
  · unfold Reader.receive
    dsimp only
    rw [hpage.highWater]
    split
    · exact iff_of_true rfl ‹_›
    · exact iff_of_false (fun h => by cases h) ‹_›

theorem replaying_scan (fault : Bool) (hlimit : 1 ≤ limit) {start : Int} {s : ReplayWorld}
    (hs : Replaying P principal start s) :
    Replaying P principal start
      { s with reader := s.reader.askRows principal limit fault s.world.db } := by
  unfold Reader.askRows
  cases hphase : s.reader.phase with
  | asking => exact hs
  | finished => exact hs
  | refused e => exact hs
  | scanning through =>
    cases fault with
    | true =>
      dsimp only
      rw [if_pos rfl]
      refine ⟨hs.wellFormed, fun hmark => ?_, fun mark hmark => ?_, fun t ht => (by cases ht),
        fun e he => (by cases he)⟩
      · obtain ⟨hstart, hreceived, -⟩ := hs.fresh hmark
        exact ⟨hstart, hreceived, fun h => (by cases h)⟩
      · have h := hs.marked mark hmark
        refine ⟨h.reached, h.scopes, h.start_nonneg, h.start_le, h.after_le, h.received, ?_⟩
        refine iff_of_false (fun hfinished => by cases hfinished) fun hdone => ?_
        rw [h.done.mpr hdone] at hphase
        cases hphase
    | false =>
      dsimp only
      rw [if_neg Bool.false_ne_true]
      have hreading := reading_receive hs hphase hlimit
      refine ⟨hs.wellFormed, fun hmark => ?_, fun mark hmark => ?_, fun t ht => ?_, fun e he => ?_⟩
      · cases hmark
      · cases hmark
        exact hreading
      · unfold Reader.receive at ht
        dsimp only at ht
        split at ht <;> cases ht
      · unfold Reader.receive at he
        dsimp only at he
        split at he <;> cases he

theorem replaying_step (hlimit : 1 ≤ limit ∧ limit ≤ 500) {start : Int} (a : ReplayAct)
    (s : ReplayWorld) (hs : Replaying P principal start s) (hallowed : ReplayWorld.allows a s) :
    Replaying P principal start (ReplayWorld.step P principal limit a s) := by
  cases a with
  | world a => exact replaying_world a hs hallowed
  | highWater fault => exact replaying_highWater fault hlimit hs
  | scan fault => exact replaying_scan fault hlimit.1 hs

theorem replaying_run (hlimit : 1 ≤ limit ∧ limit ≤ 500) {start : Int} {acts : List ReplayAct}
    {s : ReplayWorld} (hs : Replaying P principal start s)
    (hlegal : (replays P principal limit).Legal acts s) :
    Replaying P principal start ((replays P principal limit).run acts s) :=
  Machine.invariant (M := replays P principal limit) (fun a s => replaying_step hlimit a s) hs hlegal

theorem replaying_startAt {w : World} (hw : WellFormed P w.db) (start : Int) :
    Replaying P principal start ⟨w, .startAt start⟩ :=
  ⟨hw, fun _ => ⟨rfl, rfl, fun h => (by cases h)⟩, fun _ h => (by cases h), fun _ h => (by cases h),
    fun _ h => (by cases h)⟩

/-! ## Runs of a reader -/

/-- The actions of a page that the store does not fail, and what comes before each statement. -/
def pageRound (between : List Act × List Act) : List ReplayAct :=
  between.1.map .world ++ .highWater false :: (between.2.map .world ++ [.scan false])

variable (principal) in
/-- A mark that is fixed stays, and so does what there is to read up to it. -/
def Further (start mark : Int) (s s' : ReplayWorld) : Prop :=
  s.reader.mark = some mark → s'.reader.mark = some mark ∧
    readable principal start mark s'.world.db = readable principal start mark s.world.db ∧
    (unread s'.reader.after mark s'.world.db).length ≤ (unread s.reader.after mark s.world.db).length

theorem Further.trans {start mark : Int} {a b c : ReplayWorld} (h : Further principal start mark a b)
    (k : Further principal start mark b c) : Further principal start mark a c := by
  intro hmark
  obtain ⟨hb, hread, hleft⟩ := h hmark
  obtain ⟨hc, hread', hleft'⟩ := k hb
  exact ⟨hc, hread'.trans hread, le_trans hleft' hleft⟩

/-- The second statement of a page uses up at least one row, if there is one. -/
theorem askRows_scanning {start mark : Int} {s : ReplayWorld} (hs : Replaying P principal start s)
    (hphase : s.reader.phase = .scanning mark) (hlimit : 1 ≤ limit) :
    (s.reader.askRows principal limit false s.world.db).mark = some mark ∧
      (unread (s.reader.askRows principal limit false s.world.db).after mark s.world.db).length ≤
        (unread s.reader.after mark s.world.db).length - 1 := by
  obtain ⟨-, hle, -⟩ := hs.scanning mark hphase
  have hpage := pageRead principal hs.wellFormed hle hlimit
  unfold Reader.askRows
  rw [hphase]
  dsimp only
  rw [if_neg Bool.false_ne_true]
  exact ⟨congrArg some hpage.highWater, hpage.fewer⟩

theorem further_step (hlimit : 1 ≤ limit ∧ limit ≤ 500) {start : Int} (mark : Int) (a : ReplayAct)
    (s : ReplayWorld) (hs : Replaying P principal start s) (hallowed : ReplayWorld.allows a s) :
    Further principal start mark s (ReplayWorld.step P principal limit a s) := by
  intro hmark
  have h := hs.marked mark hmark
  cases a with
  | world a =>
    have hdb' := wellFormed_step a hs.wellFormed
    obtain ⟨new, hgrown⟩ := scannedRows_step (eventStep_of_act a hs.wellFormed hallowed)
    refine ⟨hmark, readable_grown hdb' hgrown h.reached h.start_nonneg, le_of_eq ?_⟩
    exact congrArg List.length
      (unread_grown hdb' hgrown h.reached (le_trans h.start_nonneg h.start_le))
  | highWater fault =>
    unfold ReplayWorld.step Reader.askHighWater
    dsimp only
    split
    · split
      · exact ⟨hmark, rfl, le_refl _⟩
      · split
        · exact ⟨hmark, rfl, le_refl _⟩
        · exact ⟨hmark, rfl, le_refl _⟩
    · exact ⟨hmark, rfl, le_refl _⟩
  | scan fault =>
    by_cases hscan : s.reader.phase = .scanning mark ∧ fault = false
    · obtain ⟨hphase, rfl⟩ := hscan
      obtain ⟨hmark', hleft⟩ := askRows_scanning hs hphase hlimit.1
      exact ⟨hmark', rfl, le_trans hleft (Nat.sub_le _ _)⟩
    · unfold ReplayWorld.step Reader.askRows
      dsimp only
      split
      · rename_i through hphase
        obtain ⟨-, -, -, -, hsame⟩ := hs.scanning through hphase
        obtain rfl := hsame mark hmark
        cases fault with
        | true => exact ⟨hmark, rfl, le_refl _⟩
        | false => exact absurd ⟨hphase, rfl⟩ hscan
      · exact ⟨hmark, rfl, le_refl _⟩

theorem further_run (hlimit : 1 ≤ limit ∧ limit ≤ 500) {start : Int} (mark : Int)
    {acts : List ReplayAct} {s : ReplayWorld} (hs : Replaying P principal start s)
    (hlegal : (replays P principal limit).Legal acts s) :
    Further principal start mark s ((replays P principal limit).run acts s) :=
  Machine.relates (M := replays P principal limit) (I := Replaying P principal start)
    (R := Further principal start mark) (fun _ hmark => ⟨hmark, rfl, le_refl _⟩)
    (fun h k => h.trans k) (fun a s => replaying_step hlimit a s)
    (fun a s => further_step hlimit mark a s) hs hlegal

variable (P principal limit) in
theorem reader_world (acts : List Act) (s : ReplayWorld) :
    ((replays P principal limit).run (acts.map .world) s).reader = s.reader := by
  induction acts generalizing s with
  | nil => rfl
  | cons a acts ih => exact ih _

/-- The first statement of a page takes a reader that is not at its end to the second. -/
theorem askHighWater_asking {start : Int} {s : ReplayWorld} (hs : Replaying P principal start s)
    (hlimit : 1 ≤ limit ∧ limit ≤ 500) (hopen : s.reader.phase ≠ .finished)
    (hpass : (∃ mark, s.reader.mark = some mark) ∨
      s.reader.mark = none ∧ (∀ e, s.reader.phase ≠ .refused e) ∧ 0 ≤ start ∧
        start ≤ highWater s.world.db ∧ mayRead principal = true) :
    ∃ through, (s.reader.askHighWater principal limit false s.world.db).phase = .scanning through := by
  unfold Reader.askHighWater
  cases hphase : s.reader.phase with
  | scanning through => exact ⟨through, hphase⟩
  | finished => exact absurd hphase hopen
  | refused e =>
    rcases hpass with ⟨mark, hmark⟩ | ⟨-, hnot, -⟩
    · rw [(hs.refused e hphase).1] at hmark
      cases hmark
    · exact absurd hphase (hnot e)
  | asking =>
    dsimp only
    rw [if_neg Bool.false_ne_true]
    rcases hpass with ⟨mark, hmark⟩ | ⟨hmark, -, hstart, hle, hscopes⟩
    · rw [checkReplay_marked (hs.marked mark hmark) hmark hlimit]
      exact ⟨mark, rfl⟩
    · obtain ⟨hafter, -, -⟩ := hs.fresh hmark
      have hcheck : checkReplay principal (s.reader.query limit) (highWater s.world.db) =
          .ok (highWater s.world.db) := by
        unfold Reader.query
        rw [hmark, hafter]
        exact checkReplay_eq_ok.mpr ⟨rfl, hstart, hle, le_refl _, hlimit, hscopes⟩
      rw [hcheck]
      exact ⟨_, rfl⟩

theorem le_highWater_run {start : Int} (hlimit : 1 ≤ limit ∧ limit ≤ 500) {acts : List ReplayAct}
    {s : ReplayWorld} (hs : Replaying P principal start s)
    (hlegal : (replays P principal limit).Legal acts s) :
    highWater s.world.db ≤ highWater ((replays P principal limit).run acts s).world.db :=
  Machine.relates (M := replays P principal limit) (I := Replaying P principal start)
    (R := fun a b => highWater a.world.db ≤ highWater b.world.db) (fun _ => le_refl _)
    (fun h k => le_trans h k) (fun a s => replaying_step hlimit a s)
    (fun a s hs hallowed => by
      cases a with
      | world a =>
        obtain ⟨new, hgrown⟩ := scannedRows_step (eventStep_of_act a hs.wellFormed hallowed)
        exact ((marked_highWater s.world.db).grown hgrown).le_highWater
      | highWater fault => exact le_refl _
      | scan fault => exact le_refl _) hs hlegal

/-- What a page that the store does not fail does, whatever comes between its statements. -/
theorem pageRound_reads {start : Int} (hlimit : 1 ≤ limit ∧ limit ≤ 500)
    {between : List Act × List Act} {s : ReplayWorld} (hs : Replaying P principal start s)
    (hlegal : (replays P principal limit).Legal (pageRound between) s)
    (hopen : s.reader.phase ≠ .finished)
    (hpass : (∃ mark, s.reader.mark = some mark) ∨
      s.reader.mark = none ∧ (∀ e, s.reader.phase ≠ .refused e) ∧ 0 ≤ start ∧
        start ≤ highWater s.world.db ∧ mayRead principal = true) :
    ∃ mark, ((replays P principal limit).run (pageRound between) s).reader.mark = some mark ∧
      ∀ m, s.reader.mark = some m →
        (unread ((replays P principal limit).run (pageRound between) s).reader.after m
          ((replays P principal limit).run (pageRound between) s).world.db).length ≤
        (unread s.reader.after m s.world.db).length - 1 := by
  unfold pageRound at hlegal ⊢
  rw [Machine.legal_append] at hlegal
  obtain ⟨hlegal₁, hlegal⟩ := hlegal
  rw [Machine.run_append]
  have hs₁ := replaying_run hlimit hs hlegal₁
  have hreader₁ := reader_world P principal limit between.1 s
  have hhigh₁ := le_highWater_run hlimit hs hlegal₁
  have hfurther₁ := fun m => further_run hlimit m hs hlegal₁
  generalize (replays P principal limit).run (between.1.map .world) s = s₁ at *
  have hopen₁ : s₁.reader.phase ≠ .finished := by
    rw [hreader₁]
    exact hopen
  obtain ⟨through, hphase₂⟩ := askHighWater_asking hs₁ hlimit hopen₁ (by
    rw [hreader₁]
    exact hpass.imp_right fun ⟨hmark, hnot, hstart, hle, hscopes⟩ =>
      ⟨hmark, hnot, hstart, le_trans hle hhigh₁, hscopes⟩)
  rw [Machine.run_cons, Machine.run_append]
  obtain ⟨hallowed, hlegal⟩ := hlegal
  rw [Machine.legal_append] at hlegal
  have hs₂ := replaying_step hlimit (.highWater false) s₁ hs₁ hallowed
  have hfurther₂ := fun m => further_step hlimit m (.highWater false) s₁ hs₁ hallowed
  have hs₃ := replaying_run hlimit hs₂ hlegal.1
  have hfurther₃ := fun m => further_run hlimit m hs₂ hlegal.1
  have hphase₃ : ((replays P principal limit).run (between.2.map .world)
      ((replays P principal limit).step (.highWater false) s₁)).reader.phase = .scanning through := by
    rw [reader_world]
    exact hphase₂
  obtain ⟨hmark, hleft⟩ := askRows_scanning hs₃ hphase₃ hlimit.1
  refine ⟨through, hmark, fun m hm => ?_⟩
  have hfurther := ((hfurther₁ m).trans (hfurther₂ m)).trans (hfurther₃ m)
  obtain ⟨hm₃, -, hle⟩ := hfurther hm
  obtain ⟨-, -, -, -, hsame⟩ := hs₃.scanning through hphase₃
  obtain rfl := hsame m hm₃
  exact le_trans hleft (Nat.sub_le_sub_right hle 1)

theorem unread_rounds {start mark : Int} (hlimit : 1 ≤ limit ∧ limit ≤ 500)
    {rounds : List (List Act × List Act)} {s : ReplayWorld} (hs : Replaying P principal start s)
    (hmark : s.reader.mark = some mark)
    (hlegal : (replays P principal limit).Legal (rounds.flatMap pageRound) s) :
    (unread ((replays P principal limit).run (rounds.flatMap pageRound) s).reader.after mark
      ((replays P principal limit).run (rounds.flatMap pageRound) s).world.db).length ≤
    (unread s.reader.after mark s.world.db).length - rounds.length := by
  induction rounds generalizing s with
  | nil => exact le_refl _
  | cons between rounds ih =>
    obtain ⟨-, -, hle⟩ := further_run hlimit mark hs hlegal hmark
    by_cases hopen : s.reader.phase = .finished
    · rw [((hs.marked mark hmark).done.mp hopen), unread_self] at hle ⊢
      exact le_trans hle (Nat.zero_le _)
    · rw [List.flatMap_cons] at hlegal ⊢
      rw [Machine.legal_append] at hlegal
      rw [Machine.run_append]
      obtain ⟨m, hm, hleft⟩ := pageRound_reads hlimit hs hlegal.1 hopen (.inl ⟨mark, hmark⟩)
      obtain ⟨hmark', -⟩ := further_run hlimit mark hs hlegal.1 hmark
      refine le_trans (ih (replaying_run hlimit hs hlegal.1) hmark' hlegal.2) ?_
      have hstep := hleft mark hmark
      rw [List.length_cons]
      omega

theorem finished_of_rounds {start mark : Int} (hlimit : 1 ≤ limit ∧ limit ≤ 500)
    {rounds : List (List Act × List Act)} {s : ReplayWorld} (hs : Replaying P principal start s)
    (hmark : s.reader.mark = some mark)
    (hlegal : (replays P principal limit).Legal (rounds.flatMap pageRound) s)
    (henough : (unread s.reader.after mark s.world.db).length ≤ rounds.length) :
    ((replays P principal limit).run (rounds.flatMap pageRound) s).reader.phase = .finished := by
  have hleft := unread_rounds hlimit hs hmark hlegal
  obtain ⟨hmark', -⟩ := further_run hlimit mark hs hlegal hmark
  have h := (replaying_run hlimit hs hlegal).marked mark hmark'
  rw [Nat.sub_eq_zero_of_le henough, Nat.le_zero, List.length_eq_zero_iff] at hleft
  refine h.done.mpr (le_antisymm h.after_le (not_lt.mp fun hlt => ?_))
  exact unread_ne_nil h.reached (le_trans h.start_nonneg h.start_le) hlt hleft

variable (principal) in
theorem readable_sorted {db : Db} (hdb : WellFormed P db) (after mark : Int) :
    (readable principal after mark db).Pairwise fun a b => a.seq < b.seq := by
  unfold readable
  refine (unread_sorted hdb after mark).filterMap _ fun a b hab => ?_
  intro x hx y hy
  split at hx
  · split at hy
    · cases hx
      cases hy
      exact hab
    · cases hy
  · cases hx

/-- What holds of a reader that started at a position, in every world it can be in. -/
structure ReplayExact (P : Packages) (principal : Principal) (limit start : Int) (s : ReplayWorld) :
    Prop where
  /-- What was received and what is still to come are the authorised events up to the mark. -/
  complete : ∀ mark, s.reader.mark = some mark →
    s.reader.received ++ readable principal s.reader.after mark s.world.db =
      readable principal start mark s.world.db
  finished : s.reader.phase = .finished → ∃ mark, s.reader.mark = some mark ∧
    s.reader.after = mark ∧ s.reader.received = readable principal start mark s.world.db
  ordered : s.reader.received.Pairwise fun a b => a.seq < b.seq
  /-- The mark stays, and so do the authorised events up to it. -/
  fixed : ∀ mark, s.reader.mark = some mark → ∀ more, (replays P principal limit).Legal more s →
    ((replays P principal limit).run more s).reader.mark = some mark ∧
      readable principal start mark ((replays P principal limit).run more s).world.db =
        readable principal start mark s.world.db
  /-- One page that the store does not fail brings the mark, unless the start is out of range. -/
  begins : s.reader.mark = none → (∀ e, s.reader.phase ≠ .refused e) → 0 ≤ start →
    start ≤ highWater s.world.db → mayRead principal = true →
    ∀ between, (replays P principal limit).Legal (pageRound between) s →
      ((replays P principal limit).run (pageRound between) s).reader.mark ≠ none
  /-- As many such pages as there are rows to scan end the loop. -/
  ends : ∀ mark, s.reader.mark = some mark → ∀ rounds : List (List Act × List Act),
    (replays P principal limit).Legal (rounds.flatMap pageRound) s →
    (unread s.reader.after mark s.world.db).length ≤ rounds.length →
      ((replays P principal limit).run (rounds.flatMap pageRound) s).reader.phase = .finished
  /-- A reader is refused at its first page only, and for its scopes only if they read nothing. -/
  refused : ∀ e, s.reader.phase = .refused e → s.reader.mark = none ∧ s.reader.received = [] ∧
    (e = .forbidden → ∀ after mark, readable principal after mark s.world.db = [])

theorem replayExact {start : Int} (hlimit : 1 ≤ limit ∧ limit ≤ 500) {s : ReplayWorld}
    (hs : Replaying P principal start s) : ReplayExact P principal limit start s where
  complete mark hmark := (hs.marked mark hmark).received
  finished hfinished := by
    cases hmark : s.reader.mark with
    | none => exact absurd hfinished (hs.fresh hmark).2.2
    | some mark =>
      have h := hs.marked mark hmark
      have hafter := h.done.mp hfinished
      have hreceived := h.received
      unfold readable at hreceived
      rw [hafter, unread_self, List.filterMap_nil, List.append_nil] at hreceived
      exact ⟨mark, rfl, hafter, hreceived⟩
  ordered := by
    cases hmark : s.reader.mark with
    | none =>
      rw [(hs.fresh hmark).2.1]
      exact List.Pairwise.nil
    | some mark =>
      have hsorted := readable_sorted principal hs.wellFormed start mark
      rw [← (hs.marked mark hmark).received] at hsorted
      exact (List.pairwise_append.mp hsorted).1
  fixed mark hmark more hlegal := by
    obtain ⟨hmark', hread, -⟩ := further_run hlimit mark hs hlegal hmark
    exact ⟨hmark', hread⟩
  begins hmark hnot hstart hle hscopes between hlegal := by
    obtain ⟨mark, hmark', -⟩ := pageRound_reads hlimit hs hlegal (hs.fresh hmark).2.2
      (.inr ⟨hmark, hnot, hstart, hle, hscopes⟩)
    rw [hmark']
    exact Option.some_ne_none mark
  ends mark hmark rounds hlegal henough := finished_of_rounds hlimit hs hmark hlegal henough
  refused e he := by
    obtain ⟨hmark, hscopes⟩ := hs.refused e he
    exact ⟨hmark, (hs.fresh hmark).2.1, fun hforbidden after mark =>
      readable_eq_nil (hscopes hforbidden) after mark s.world.db⟩

variable (P) in
/-- Replay for an integration that starts anywhere in any run of the server and its workers. -/
def IntegrationReplay : Prop :=
  ∀ principal, principal ≠ .device → ∀ limit start, 1 ≤ limit ∧ limit ≤ 500 →
    ∀ before, (worlds P).Legal before World.empty →
    ∀ acts, (replays P principal limit).Legal acts ⟨(worlds P).run before World.empty, .startAt start⟩ →
      ReplayExact P principal limit start ((replays P principal limit).run acts
        ⟨(worlds P).run before World.empty, .startAt start⟩)

theorem integration_replay (P : Packages) : IntegrationReplay P := by
  intro principal _ limit start hlimit before hbefore acts hlegal
  have hw := publishSafe_run (publishSafe_empty (P := P)) hbefore
  exact replayExact hlimit (replaying_run hlimit (replaying_startAt hw.wellFormed start) hlegal)

end Nod.Server
