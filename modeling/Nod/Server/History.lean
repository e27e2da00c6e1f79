import Mathlib.Data.Set.Finite.List
import Mathlib.Data.Set.Finite.Lattice
import Nod.Lib.Cursor
import Nod.Proto.Concrete
import Nod.Server.Acceptance
import Nod.Server.Pages
import Nod.Server.References
import Nod.Server.Evidence

/-
  A walk through a device's history. The reader follows `next_cursor` from the first page on; each
  page is the read of its device and one read transaction, and any calls come before, between and
  after these. A page that fails is asked for again.
  Proved: `history_pagination`, a finished walk has returned every request that was visible on each of
  its pages, its handled rows come in strictly decreasing order, it ends within a bound that no run
  changes, and where nothing changes it returns every visible request exactly once.
-/

namespace Nod.Server

open Lib Nod.Proto

/-! ## A walk -/

/-- A page, and the database and the cutoff it was read with. -/
structure FetchedPage where
  db : Db
  userId : String
  cutoff : String
  page : RequestPage

/-- The device of the page in progress, the cursor for it, and the pages there are. -/
structure Walker where
  device : Option Device
  cursor : Option String
  ended : Bool
  pages : List FetchedPage

structure Walk where
  db : Db
  walker : Walker

inductive WalkAct where
  | call (c : Call)
  | readDevice (faults : List Bool)
  | readPage (env : Env) (faults : List Bool)

variable (P : Packages) (C : CursorPackages) (query : ListRequestsForDevice)

def Walker.receive (f : FetchedPage) (r : Walker) : Walker :=
  ⟨none, f.page.nextCursor, f.page.nextCursor.isNone, r.pages ++ [f]⟩

def Walk.step (a : WalkAct) (w : Walk) : Walk :=
  match a with
  | .call c => { w with db := c.after P w.db }
  | .readDevice faults =>
    if w.walker.ended then w
    else
      let r := Prog.exec databaseError (getDevice P query.deviceId) faults w.db
      ⟨r.2, { w.walker with device := r.1.toOption }⟩
  | .readPage env faults =>
    match w.walker.device with
    | none => w
    | some device =>
      let next := { query with before := w.walker.cursor }
      let r := Prog.exec databaseError (listRequestsForUser P C device.userId env next) faults w.db
      match r.1 with
      | .ok page =>
        ⟨r.2, w.walker.receive ⟨w.db, device.userId, retentionCutoff env query, page⟩⟩
      | .error _ => ⟨r.2, { w.walker with device := none }⟩

/-- The walk after some actions. -/
def walk (acts : List WalkAct) (w : Walk) : Walk := acts.foldl (fun w a => Walk.step P C query a w) w

def Walk.start (db : Db) : Walk := ⟨db, ⟨none, none, false, []⟩⟩

/-! ## What a walk has returned -/

def FetchedPage.ids (f : FetchedPage) : List String := f.page.requests.map DecisionRequest.id

/-- The keys of the handled rows of a page, in their order. -/
def FetchedPage.history (f : FetchedPage) : List (String ×ₗ String) :=
  (f.page.requests.filter fun r => r.status ≠ .pending).map DecisionRequest.historyKey

def Walker.history (r : Walker) : List (String ×ₗ String) := r.pages.flatMap FetchedPage.history

def Walker.ids (r : Walker) : List String := r.pages.flatMap FetchedPage.ids

/-- A request that its user could see when each page was read. -/
def Walker.VisibleThroughout (r : Walker) (id : String) : Prop :=
  ∀ f ∈ r.pages, ∃ row, f.db.requests.get? id = some row ∧
    isVisible f.userId f.cutoff query f.db row = true

variable {P C query}

theorem mem_ids {r : Walker} {id : String} : id ∈ r.ids ↔ ∃ f ∈ r.pages, id ∈ f.ids :=
  List.mem_flatMap

/-! ## The invariant -/

/-- A request that is history for the user since one of the pages, and comes after the cursor. -/
def Walker.Ahead (r : Walker) (cursor : Option (String × String)) (id : String) : Prop :=
  ∃ f ∈ r.pages, ∃ row, f.db.requests.get? id = some row ∧
    isPendingFor f.userId f.db row = false ∧ ∀ c ∈ cursor, row.historyKey < toLex c

variable (P C query) in
/-- Where a walk stands: all it has returned comes before its cursor, and a request it has missed
    comes after it. -/
structure Place (r : Walker) (cursor : Option (String × String)) : Prop where
  text : r.cursor = cursor.map fun c => encodeCursor C c.1 c.2
  decodes : ∀ c ∈ cursor, decodeCursor P C (encodeCursor C c.1 c.2) = .ok c
  first : r.ended = false → (cursor = none ↔ r.pages = [])
  started : r.ended = true → r.pages ≠ []
  above : ∀ c ∈ cursor, ∀ k ∈ r.history, toLex c ≤ k
  sorted : r.history.Pairwise fun a b => b < a
  texts : ∀ k ∈ r.history, (ofLex k).1.toList.length = 24 ∧ (ofLex k).2.toList.length = 36
  count : r.pages.length ≤ r.history.length + if r.ended then 1 else 0
  seen : r.pages ≠ [] → ∀ id, r.VisibleThroughout query id →
    id ∈ r.ids ∨ r.ended = false ∧ r.Ahead cursor id

variable (P C query) in
structure Walking (w : Walk) : Prop where
  wellFormed : WellFormed P w.db
  legible : Legible P w.db
  past : ∀ f ∈ w.walker.pages, WellFormed P f.db ∧ ∃ calls, w.db = run P calls f.db
  device : ∀ d, w.walker.device = some d → w.walker.ended = false ∧
    ∃ row, w.db.devices.get? query.deviceId = some row ∧ row.userId = d.userId
  owners : ∀ f ∈ w.walker.pages, ∃ row,
    w.db.devices.get? query.deviceId = some row ∧ row.userId = f.userId
  place : ∃ cursor, Place P C query w.walker cursor

theorem walking_call (c : Call) {w : Walk} (hw : Walking P C query w) :
    Walking P C query { w with db := c.after P w.db } := by
  have hkept : ∀ u : String, (∃ row, w.db.devices.get? query.deviceId = some row ∧ row.userId = u) →
      ∃ row, (c.after P w.db).devices.get? query.deviceId = some row ∧ row.userId = u := by
    rintro u ⟨row, hrow, rfl⟩
    obtain ⟨row', hrow', hsame⟩ := devices_call (P := P) c w.db query.deviceId row hrow
    exact ⟨row', hrow', congrArg Device.userId hsame⟩
  refine ⟨(moves_call c hw.wellFormed).wellFormed hw.wellFormed,
    legible_call c hw.wellFormed hw.legible, fun f hf => ?_, fun d hd => ?_, fun f hf => ?_, hw.place⟩
  · obtain ⟨hwellFormed, calls, hcalls⟩ := hw.past f hf
    refine ⟨hwellFormed, calls ++ [c], ?_⟩
    rw [run_append, ← hcalls]
    rfl
  · obtain ⟨hopen, hrow⟩ := hw.device d hd
    exact ⟨hopen, hkept d.userId hrow⟩
  · exact hkept f.userId (hw.owners f hf)

theorem place_device {r : Walker} {cursor : Option (String × String)} (h : Place P C query r cursor)
    (device : Option Device) : Place P C query { r with device := device } cursor :=
  ⟨h.text, h.decodes, h.first, h.started, h.above, h.sorted, h.texts, h.count, h.seen⟩

/-- A reader between pages, on a database that has not changed. -/
theorem walking_device {w : Walk} (hw : Walking P C query w) (device : Option Device)
    (hdevice : ∀ d, device = some d → w.walker.ended = false ∧
      ∃ row, w.db.devices.get? query.deviceId = some row ∧ row.userId = d.userId) :
    Walking P C query ⟨w.db, { w.walker with device := device }⟩ := by
  obtain ⟨cursor, h⟩ := hw.place
  exact ⟨hw.wellFormed, hw.legible, hw.past, hdevice, hw.owners, cursor, place_device h device⟩

theorem walking_readDevice (faults : List Bool) {w : Walk} (hw : Walking P C query w) :
    Walking P C query (Walk.step P C query (.readDevice faults) w) := by
  unfold Walk.step
  dsimp only
  by_cases hended : w.walker.ended = true
  · rw [if_pos hended]
    exact hw
  · rw [if_neg hended]
    obtain ⟨row, -, hrow, -, -, he⟩ | ⟨-, e, he⟩ :=
      exec_getDevice (P := P) query.deviceId faults w.db
    · rw [he]
      refine walking_device hw (some row.toDevice) fun d hd => ⟨Bool.not_eq_true _ ▸ hended, ?_⟩
      cases hd
      exact ⟨row, hrow, rfl⟩
    · rw [he]
      exact walking_device hw none fun d hd => by cases hd

/-! ## A page is received -/

theorem history_receive (f : FetchedPage) (r : Walker) :
    (r.receive f).history = r.history ++ f.history := by
  unfold Walker.history Walker.receive
  rw [List.flatMap_append, List.flatMap_singleton]

theorem ids_receive (f : FetchedPage) (r : Walker) : (r.receive f).ids = r.ids ++ f.ids := by
  unfold Walker.ids Walker.receive
  rw [List.flatMap_append, List.flatMap_singleton]

/-- A request that is history for a user stays history, under the same key. -/
theorem history_run {s : Db} (hs : WellFormed P s) (calls : List Call) {id userId : String}
    {row row' : RequestRow} (hrow : s.requests.get? id = some row)
    (hrow' : (run P calls s).requests.get? id = some row')
    (h : isPendingFor userId s row = false) :
    isPendingFor userId (run P calls s) row' = false ∧ row'.historyKey = row.historyKey := by
  have hmem := Table.mem_of_get? hrow
  have hmem' := Table.mem_of_get? hrow'
  have hs' := wellFormed_run calls hs
  have hrun := pollRun_run calls hs id
  constructor
  · rw [isPendingFor_eq_false hs' hmem']
    rw [isPendingFor_eq_false hs hmem] at h
    exact Poll.handled_of_run (rules P) (hs.polls id) (ballot_of_get? hrow) hrun
      (ballot_of_get? hrow') h
  · have hfrozen := frozen_run calls hs hrow hrow'
    have hkey := congrArg RequestRow.historyKey hfrozen
    exact hkey

section Receive

variable {w : Walk} {cursor : Option (String × String)} {userId cutoff : String} {L : Nat}
  {page : RequestPage}

/-- A request that was visible so far and is visible on this page is returned by now, or the page
    comes across it. -/
theorem comesAcross (hw : Walking P C query w) (hplace : Place P C query w.walker cursor)
    (hopen : w.walker.ended = false)
    (howner : ∃ row, w.db.devices.get? query.deviceId = some row ∧ row.userId = userId) {id : String}
    (hvisible : (w.walker.receive ⟨w.db, userId, cutoff, page⟩).VisibleThroughout query id) :
    id ∈ w.walker.ids ∨ ∃ row, row.id = id ∧
      (row ∈ pendingRows userId cutoff query cursor w.db ∨
        row ∈ handledRows userId cutoff query cursor w.db) := by
  have hold : w.walker.VisibleThroughout query id := fun f hf => hvisible f (List.mem_append_left _ hf)
  obtain ⟨row', hrow', hvis⟩ := hvisible ⟨w.db, userId, cutoff, page⟩
    (List.mem_append_right _ List.mem_cons_self)
  dsimp only at hrow' hvis
  have hmem' := Table.mem_of_get? hrow'
  have hid : row'.id = id := Table.key_of_get? hrow'
  by_cases hpages : w.walker.pages = []
  · have hnone := (hplace.first hopen).mpr hpages
    refine Or.inr ⟨row', hid, ?_⟩
    cases hpending : isPendingFor userId w.db row' with
    | true => exact Or.inl (mem_pendingRows.mpr ⟨hmem', hvis, hpending, hnone⟩)
    | false =>
      refine Or.inr (mem_handledRows.mpr ⟨hmem', hvis, hpending, fun c hc => ?_⟩)
      rw [hnone] at hc
      cases hc
  · rcases hplace.seen hpages id hold with hreturned | ⟨-, f, hf, row, hrow, hhandled, hbefore⟩
    · exact Or.inl hreturned
    · obtain ⟨hfdb, calls, hcalls⟩ := hw.past f hf
      obtain ⟨device, hdevice, hsame⟩ := hw.owners f hf
      obtain ⟨device', hdevice', hsame'⟩ := howner
      rw [hdevice] at hdevice'
      cases hdevice'
      rw [hcalls] at hrow'
      obtain ⟨hstill, hkey⟩ := history_run hfdb calls hrow hrow' hhandled
      rw [← hcalls, ← hsame, hsame'] at hstill
      refine Or.inr ⟨row', hid, Or.inr (mem_handledRows.mpr ⟨hmem', hvis, hstill, fun c hc => ?_⟩)⟩
      rw [hkey]
      exact hbefore c hc

theorem history_texts (hw : Walking P C query w) {row : RequestRow}
    (h : row ∈ handledRows userId cutoff query cursor w.db) :
    (ofLex row.historyKey).1.toList.length = 24 ∧ (ofLex row.historyKey).2.toList.length = 36 := by
  obtain ⟨hid, t, ht, hcreated⟩ := createdAt_of_stored hw.wellFormed (mem_handledRows.mp h).1
  refine ⟨?_, (isAscii_of_isUuid hid).1⟩
  change row.createdAt.toList.length = 24
  rw [hcreated]
  exact (length_toRfc3339Millis ht).1

/-- What a walk has returned stays in order when a page comes on. -/
theorem sorted_receive (hplace : Place P C query w.walker cursor) (hopen : w.walker.ended = false)
    (hshows : PageShows C w.db userId cutoff query cursor L page) :
    (w.walker.receive ⟨w.db, userId, cutoff, page⟩).history.Pairwise fun a b => b < a := by
  rw [history_receive]
  refine List.pairwise_append.mpr ⟨hplace.sorted, ?_, fun a ha b hb => ?_⟩
  · unfold FetchedPage.history
    rw [hshows.history]
    exact List.pairwise_map.mpr ((handledRows_sorted w.db).sublist (List.take_sublist _ _))
  · unfold FetchedPage.history at hb
    rw [hshows.history] at hb
    obtain ⟨row, hrow, rfl⟩ := List.mem_map.mp hb
    have hbefore := (mem_handledRows.mp (List.mem_of_mem_take hrow)).2.2.2
    cases hcursor : cursor with
    | none =>
      have hnil := (hplace.first hopen).mp hcursor
      unfold Walker.history at ha
      rw [hnil] at ha
      cases ha
    | some c => exact lt_of_lt_of_le (hbefore c hcursor) (hplace.above c hcursor a ha)

theorem mem_page_ids (hshows : PageShows C w.db userId cutoff query cursor L page) {row : RequestRow}
    (h : row ∈ pendingRows userId cutoff query cursor w.db ∨
      row ∈ (handledRows userId cutoff query cursor w.db).take L) :
    row.id ∈ (w.walker.receive ⟨w.db, userId, cutoff, page⟩).ids := by
  rw [ids_receive]
  refine List.mem_append_right _ ?_
  unfold FetchedPage.ids
  rw [hshows.ids]
  exact List.mem_map_of_mem (List.mem_append.mpr h)

variable (w userId cutoff page) in
theorem pages_receive_length :
    (w.walker.receive ⟨w.db, userId, cutoff, page⟩).pages.length = w.walker.pages.length + 1 := by
  unfold Walker.receive
  rw [List.length_append, List.length_singleton]

theorem pages_receive_ne_nil : (w.walker.receive ⟨w.db, userId, cutoff, page⟩).pages ≠ [] := by
  refine List.ne_nil_of_length_pos ?_
  rw [pages_receive_length]
  exact Nat.succ_pos _

theorem history_receive_length (hshows : PageShows C w.db userId cutoff query cursor L page) :
    (w.walker.receive ⟨w.db, userId, cutoff, page⟩).history.length =
      w.walker.history.length + ((handledRows userId cutoff query cursor w.db).take L).length := by
  rw [history_receive, List.length_append]
  unfold FetchedPage.history
  rw [hshows.history, List.length_map]

theorem texts_receive (hw : Walking P C query w) (hplace : Place P C query w.walker cursor)
    (hshows : PageShows C w.db userId cutoff query cursor L page) :
    ∀ k ∈ (w.walker.receive ⟨w.db, userId, cutoff, page⟩).history,
      (ofLex k).1.toList.length = 24 ∧ (ofLex k).2.toList.length = 36 := by
  intro k hk
  rw [history_receive] at hk
  rcases List.mem_append.mp hk with hk | hk
  · exact hplace.texts k hk
  · unfold FetchedPage.history at hk
    rw [hshows.history] at hk
    obtain ⟨row, hrow, rfl⟩ := List.mem_map.mp hk
    exact history_texts hw (List.mem_of_mem_take hrow)

/-- The last page: it has shown all that was left. -/
theorem place_last (hw : Walking P C query w) (hplace : Place P C query w.walker cursor)
    (hopen : w.walker.ended = false)
    (howner : ∃ row, w.db.devices.get? query.deviceId = some row ∧ row.userId = userId)
    (hshows : PageShows C w.db userId cutoff query cursor L page)
    (hlast : ¬ L < (handledRows userId cutoff query cursor w.db).length) :
    Place P C query (w.walker.receive ⟨w.db, userId, cutoff, page⟩) none := by
  have hnext : page.nextCursor = none := by
    rw [hshows.nextCursor, if_neg hlast]
  have hended : (w.walker.receive ⟨w.db, userId, cutoff, page⟩).ended = true := by
    unfold Walker.receive
    rw [hnext]
    rfl
  refine ⟨hnext, fun c hc => (by cases hc), fun hnot => ?_, fun _ => pages_receive_ne_nil,
    fun c hc => (by cases hc), sorted_receive hplace hopen hshows,
    texts_receive hw hplace hshows, ?_, fun _ id hvisible => ?_⟩
  · rw [hended] at hnot
    cases hnot
  · have hcount := hplace.count
    rw [hopen, if_neg Bool.false_ne_true] at hcount
    rw [pages_receive_length, history_receive_length hshows, hended, if_pos rfl]
    omega
  · refine Or.inl ?_
    rcases comesAcross hw hplace hopen howner hvisible with hreturned | ⟨row, rfl, hrow⟩
    · rw [ids_receive]
      exact List.mem_append_left _ hreturned
    · refine mem_page_ids hshows (hrow.imp_right fun hmem => ?_)
      rw [List.take_of_length_le (Nat.not_lt.mp hlast)]
      exact hmem

/-- A page that leaves rows out: they come after its last row, which is the next cursor. -/
theorem place_more (laws : CursorLaws P C) (hw : Walking P C query w)
    (hplace : Place P C query w.walker cursor) (hopen : w.walker.ended = false)
    (howner : ∃ row, w.db.devices.get? query.deviceId = some row ∧ row.userId = userId)
    (hshows : PageShows C w.db userId cutoff query cursor L page) (hlow : 1 ≤ L)
    (hmore : L < (handledRows userId cutoff query cursor w.db).length) :
    ∃ last, ((handledRows userId cutoff query cursor w.db).take L).getLast? = some last ∧
      Place P C query (w.walker.receive ⟨w.db, userId, cutoff, page⟩)
        (some (last.createdAt, last.id)) := by
  have hlength : ((handledRows userId cutoff query cursor w.db).take L).length = L := by
    rw [List.length_take]
    omega
  obtain ⟨last, hlast⟩ : ∃ last, ((handledRows userId cutoff query cursor w.db).take L).getLast? =
      some last := by
    refine Option.isSome_iff_exists.mp ?_
    rw [List.getLast?_isSome]
    exact List.ne_nil_of_length_pos (by omega)
  have hlastMem := List.mem_of_getLast? hlast
  have hsorted : (handledRows userId cutoff query cursor w.db).Pairwise fun a b =>
      b.historyKey < a.historyKey := handledRows_sorted w.db
  have hpast := Cursor.past_of_take (r := fun a b : RequestRow => b.historyKey < a.historyKey)
    (fun a => lt_irrefl _) (fun a b c hab hbc => lt_trans hbc hab) hsorted hlast
  obtain ⟨hid, t, ht, hcreated⟩ := createdAt_of_stored hw.wellFormed
    (mem_handledRows.mp (List.mem_of_mem_take hlastMem)).1
  have hnext : page.nextCursor = some (encodeCursor C last.createdAt last.id) := by
    rw [hshows.nextCursor, if_pos hmore, hlast]
    rfl
  have hended : (w.walker.receive ⟨w.db, userId, cutoff, page⟩).ended = false := by
    unfold Walker.receive
    rw [hnext]
    rfl
  refine ⟨last, hlast, hnext, fun c hc => ?_, fun _ => ?_, fun _ => pages_receive_ne_nil,
    fun c hc k hk => ?_, sorted_receive hplace hopen hshows, texts_receive hw hplace hshows, ?_,
    fun _ id hvisible => ?_⟩
  · cases hc
    exact decodeCursor_encodeCursor laws ht hcreated hid
  · exact iff_of_false (fun h => (by cases h)) pages_receive_ne_nil
  · cases hc
    change last.historyKey ≤ k
    rw [history_receive] at hk
    rcases List.mem_append.mp hk with hk | hk
    · cases hcursor : cursor with
      | none =>
        have hnil := (hplace.first hopen).mp hcursor
        unfold Walker.history at hk
        rw [hnil] at hk
        cases hk
      | some c =>
        have hbefore := (mem_handledRows.mp (List.mem_of_mem_take hlastMem)).2.2.2 c hcursor
        exact le_of_lt (lt_of_lt_of_le hbefore (hplace.above c hcursor k hk))
    · unfold FetchedPage.history at hk
      rw [hshows.history] at hk
      obtain ⟨row, hrow, rfl⟩ := List.mem_map.mp hk
      rcases Cursor.rel_getLast (hsorted.sublist (List.take_sublist _ _)) hlast hrow with rfl | hlt
      · exact le_refl _
      · exact le_of_lt hlt
  · have hcount := hplace.count
    rw [hopen, if_neg Bool.false_ne_true] at hcount
    rw [pages_receive_length, history_receive_length hshows, hended, if_neg Bool.false_ne_true, hlength]
    omega
  · rcases comesAcross hw hplace hopen howner hvisible with hreturned | ⟨row, rfl, hpending | hrow⟩
    · refine Or.inl ?_
      rw [ids_receive]
      exact List.mem_append_left _ hreturned
    · exact Or.inl (mem_page_ids hshows (Or.inl hpending))
    · obtain ⟨hstored, -, hhandled, -⟩ := mem_handledRows.mp hrow
      rw [← List.take_append_drop L (handledRows userId cutoff query cursor w.db)] at hrow
      rcases List.mem_append.mp hrow with hrow | hrow
      · exact Or.inl (mem_page_ids hshows (Or.inr hrow))
      · refine Or.inr ⟨hended, _, List.mem_append_right _ List.mem_cons_self, row,
          Table.get?_of_mem hstored, hhandled, fun c hc => ?_⟩
        cases hc
        rw [← hpast] at hrow
        exact (Cursor.mem_past.mp hrow).2 last rfl

end Receive

/-! ## Every step of a walk -/

section Steps

variable {L : Nat}

theorem walking_receive (laws : CursorLaws P C) (hlow : 1 ≤ L) {w : Walk} (hw : Walking P C query w)
    {cursor : Option (String × String)} (hplace : Place P C query w.walker cursor) {userId : String}
    (hopen : w.walker.ended = false)
    (howner : ∃ row, w.db.devices.get? query.deviceId = some row ∧ row.userId = userId)
    {cutoff : String} {page : RequestPage}
    (hshows : PageShows C w.db userId cutoff query cursor L page) :
    Walking P C query ⟨w.db, w.walker.receive ⟨w.db, userId, cutoff, page⟩⟩ := by
  refine ⟨hw.wellFormed, hw.legible, fun f hf => ?_, fun d hd => (by cases hd), fun f hf => ?_, ?_⟩
  · rcases List.mem_append.mp hf with hf | hf
    · exact hw.past f hf
    · rw [List.mem_singleton.mp hf]
      exact ⟨hw.wellFormed, [], rfl⟩
  · rcases List.mem_append.mp hf with hf | hf
    · exact hw.owners f hf
    · rw [List.mem_singleton.mp hf]
      exact howner
  · by_cases hmore : L < (handledRows userId cutoff query cursor w.db).length
    · obtain ⟨last, -, hnext⟩ := place_more laws hw hplace hopen howner hshows hlow hmore
      exact ⟨_, hnext⟩
    · exact ⟨none, place_last hw hplace hopen howner hshows hmore⟩

/-- A page that is asked for fails and leaves the walk where it was, or is received. -/
theorem readPage_cases (hL : query.handledLimit = L) (hlow : 1 ≤ L) (hhigh : L ≤ 500) (env : Env)
    (faults : List Bool) {w : Walk} (hw : Walking P C query w) {device : Device}
    (hdevice : w.walker.device = some device) {cursor : Option (String × String)}
    (hplace : Place P C query w.walker cursor) :
    Walk.step P C query (.readPage env faults) w = ⟨w.db, { w.walker with device := none }⟩ ∨
      ∃ page, PageShows C w.db device.userId (retentionCutoff env query) query cursor L page ∧
        Walk.step P C query (.readPage env faults) w =
          ⟨w.db, w.walker.receive ⟨w.db, device.userId, retentionCutoff env query, page⟩⟩ := by
  have htx := transactional_listRequestsForUser (P := P) (C := C) device.userId env
    { query with before := w.walker.cursor }
  unfold Walk.step
  dsimp only
  rw [hdevice]
  dsimp only
  generalize hexec : Prog.exec databaseError (listRequestsForUser P C device.userId env
    { query with before := w.walker.cursor }) faults w.db = r
  obtain ⟨r, db'⟩ := r
  cases r with
  | error e =>
    rw [Prog.exec_error htx hexec]
    exact Or.inl rfl
  | ok page =>
    have hlimit : ({ query with before := w.walker.cursor } : ListRequestsForDevice).handledLimit = L := hL
    have hshows : db' = w.db ∧ PageShows C w.db device.userId
        (retentionCutoff env { query with before := w.walker.cursor })
        { query with before := w.walker.cursor } cursor L page :=
      pageShows_of_eval hw.wellFormed hlimit hlow hhigh hplace.text hplace.decodes (Prog.exec_ok htx hexec)
    rw [hshows.1]
    exact Or.inr ⟨page, ⟨hshows.2.ids, hshows.2.history, hshows.2.nextCursor⟩, rfl⟩

theorem walking_step (laws : CursorLaws P C) (hL : query.handledLimit = L) (hlow : 1 ≤ L)
    (hhigh : L ≤ 500) (a : WalkAct) {w : Walk} (hw : Walking P C query w) :
    Walking P C query (Walk.step P C query a w) := by
  cases a with
  | call c => exact walking_call c hw
  | readDevice faults => exact walking_readDevice faults hw
  | readPage env faults =>
    cases hdevice : w.walker.device with
    | none =>
      unfold Walk.step
      dsimp only
      rw [hdevice]
      exact hw
    | some device =>
      obtain ⟨cursor, hplace⟩ := hw.place
      obtain ⟨hopen, howner⟩ := hw.device device hdevice
      rcases readPage_cases hL hlow hhigh env faults hw hdevice hplace with hfailed | ⟨page, hshows, hread⟩
      · rw [hfailed]
        exact walking_device hw none fun d hd => by cases hd
      · rw [hread]
        exact walking_receive laws hlow hw hplace hopen howner hshows

theorem walking_walk (laws : CursorLaws P C) (hL : query.handledLimit = L) (hlow : 1 ≤ L)
    (hhigh : L ≤ 500) {acts : List WalkAct} {w : Walk} (hw : Walking P C query w) :
    Walking P C query (walk P C query acts w) := by
  induction acts generalizing w with
  | nil => exact hw
  | cons a acts ih => exact ih (walking_step laws hL hlow hhigh a hw)

theorem walking_start {db : Db} (hdb : WellFormed P db) (hl : Legible P db) :
    Walking P C query (Walk.start db) := by
  refine ⟨hdb, hl, fun f hf => (by cases hf), fun d hd => (by cases hd), fun f hf => (by cases hf),
    none, ?_⟩
  exact ⟨rfl, fun c hc => (by cases hc), fun _ => iff_of_true rfl rfl, fun h => (by cases h),
    fun c hc => (by cases hc), List.Pairwise.nil, fun k hk => (by cases hk), Nat.zero_le _, fun hpages => absurd rfl hpages⟩

/-- A page that the store does not fail is answered while the device is not revoked. -/
theorem readPage_read (hL : query.handledLimit = L) (hlow : 1 ≤ L) (hhigh : L ≤ 500) (env : Env)
    {w : Walk} (hw : Walking P C query w) {device : Device} (hdevice : w.walker.device = some device) :
    (Walk.step P C query (.readPage env []) w).walker.pages.length = w.walker.pages.length + 1 := by
  obtain ⟨cursor, hplace⟩ := hw.place
  have hpage : ∃ page, Prog.eval databaseError (listRequestsForUser P C device.userId env
      { query with before := w.walker.cursor }) w.db = .ok (page, w.db) :=
    exists_page hw.legible hL hlow hhigh hplace.text hplace.decodes
  obtain ⟨page, hpage⟩ := hpage
  have hexec := Prog.exec_nil_of_eval (transactional_listRequestsForUser (P := P) (C := C) _ _ _) hpage
  unfold Walk.step
  dsimp only
  rw [hdevice]
  dsimp only
  rw [hexec]
  exact pages_receive_length w _ _ _

theorem readDevice_read {w : Walk} (hopen : w.walker.ended = false) {row : DeviceRow}
    (hrow : w.db.devices.get? query.deviceId = some row) (hlive : row.revokedAt = none)
    (hreadable : row.Readable) :
    (Walk.step P C query (.readDevice []) w).walker.device = some row.toDevice ∧
      (Walk.step P C query (.readDevice []) w).walker.pages = w.walker.pages := by
  unfold Walk.step
  dsimp only
  rw [if_neg (by rw [hopen]; exact Bool.false_ne_true)]
  obtain ⟨row', -, hrow', -, -, he⟩ | ⟨hfault | hnone, -⟩ :=
    exec_getDevice (P := P) query.deviceId [] w.db
  · rw [hrow] at hrow'
    cases hrow'
    rw [he]
    exact ⟨rfl, rfl⟩
  · cases hfault
  · exact absurd ⟨row, hrow, hlive, hreadable⟩ hnone

end Steps

/-! ## A walk ends -/

theorem finite_strings (n : ℕ) : {s : String | s.toList.length = n}.Finite := by
  have hchar : Finite Char := Finite.of_injective Char.ordinal Char.ordinal_injective
  have hlists : {l : List Char | l.length ≤ n}.Finite := List.finite_length_le Char n
  refine (hlists.image String.ofList).subset fun s hs => ⟨s.toList, le_of_eq hs, ?_⟩
  exact String.ofList_toList

/-- Keys of handled rows are texts of fixed lengths. -/
theorem finite_keys : {k : String ×ₗ String |
    (ofLex k).1.toList.length = 24 ∧ (ofLex k).2.toList.length = 36}.Finite := by
  refine (((finite_strings 24).prod (finite_strings 36)).image toLex).subset fun k hk => ?_
  exact ⟨ofLex k, hk, rfl⟩

/-- The number of pages any walk can have. -/
noncomputable def pageBound : ℕ := finite_keys.toFinset.card + 1

theorem pages_le_bound {w : Walk} (hw : Walking P C query w) :
    w.walker.pages.length ≤ w.walker.history.length + 1 ∧ w.walker.pages.length ≤ pageBound := by
  obtain ⟨cursor, hplace⟩ := hw.place
  have hcount : w.walker.pages.length ≤ w.walker.history.length + 1 := by
    refine le_trans hplace.count (Nat.add_le_add_left ?_ _)
    split <;> decide
  have hnodup : w.walker.history.Nodup := hplace.sorted.imp fun hlt => (ne_of_lt hlt).symm
  have hkeys : w.walker.history.toFinset ⊆ finite_keys.toFinset := by
    intro k hk
    rw [Set.Finite.mem_toFinset]
    exact hplace.texts k (List.mem_toFinset.mp hk)
  have hcard := Finset.card_le_card hkeys
  rw [List.toFinset_card_of_nodup hnodup] at hcard
  refine ⟨hcount, le_trans hcount ?_⟩
  unfold pageBound
  exact Nat.add_le_add_right hcard 1


/-! ## A walk through a database that stands still -/

variable (query) in
/-- What a walk has returned of a database that stands still: each request once, and those pending
    for the user on the first page. -/
structure Still (db : Db) (userId cutoff : String) (r : Walker) (cursor : Option (String × String)) :
    Prop where
  nodup : r.ids.Nodup
  shown : ∀ id ∈ r.ids, ∃ row ∈ db.requests.rows, row.id = id ∧
    (isPendingFor userId db row = true ∨ ∀ c ∈ cursor, toLex c ≤ row.historyKey)
  pending : ∀ f rest, r.pages = f :: rest → ∀ row ∈ db.requests.rows,
    isVisible userId cutoff query db row = true → isPendingFor userId db row = true → row.id ∈ f.ids

section Standing

variable {L : Nat} {w : Walk} {cursor : Option (String × String)} {userId cutoff : String}
  {page : RequestPage}

theorem row_of_id {db : Db} {a b : RequestRow} (ha : a ∈ db.requests.rows) (hb : b ∈ db.requests.rows)
    (hid : a.id = b.id) : a = b :=
  List.inj_on_of_nodup_map db.requests.nodup ha hb hid

theorem nodup_page_ids (hshows : PageShows C w.db userId cutoff query cursor L page) :
    (page.requests.map DecisionRequest.id).Nodup := by
  rw [hshows.ids, List.map_append]
  refine List.nodup_append.mpr ⟨nodup_sorted _ _ _, ?_, fun a ha b hb hab => ?_⟩
  · exact (nodup_sorted _ _ _).sublist ((List.take_sublist _ _).map _)
  · obtain ⟨row, hrow, rfl⟩ := List.mem_map.mp ha
    obtain ⟨row', hrow', rfl⟩ := List.mem_map.mp hb
    obtain ⟨hstored, -, hpending, -⟩ := mem_pendingRows.mp hrow
    obtain ⟨hstored', -, hhandled, -⟩ := mem_handledRows.mp (List.mem_of_mem_take hrow')
    rw [row_of_id hstored hstored' hab, hhandled] at hpending
    cases hpending

theorem ids_eq_nil {r : Walker} (h : r.pages = []) : r.ids = [] := by
  unfold Walker.ids
  rw [h, List.flatMap_nil]

/-- A page of a database that stands still shows nothing again. -/
theorem still_receive (hplace : Place P C query w.walker cursor) (hopen : w.walker.ended = false)
    (hstill : Still query w.db userId cutoff w.walker cursor)
    (hshows : PageShows C w.db userId cutoff query cursor L page) {next : Option (String × String)}
    (hnext : ∀ c ∈ next, ∃ last, c = (last.createdAt, last.id) ∧
      ((handledRows userId cutoff query cursor w.db).take L).getLast? = some last) :
    Still query w.db userId cutoff (w.walker.receive ⟨w.db, userId, cutoff, page⟩) next := by
  have hfirst : cursor = none → w.walker.ids = [] := fun h => ids_eq_nil ((hplace.first hopen).mp h)
  refine ⟨?_, fun id hid => ?_, fun f rest hpages row hrow hvisible hpending => ?_⟩
  · rw [ids_receive]
    refine List.nodup_append.mpr ⟨hstill.nodup, nodup_page_ids hshows, fun a ha b hb hab => ?_⟩
    obtain ⟨row, hrow, rfl, hbefore⟩ := hstill.shown a ha
    have hb' : b ∈ page.requests.map DecisionRequest.id := hb
    rw [hshows.ids] at hb'
    obtain ⟨row', hrow', rfl⟩ := List.mem_map.mp hb'
    rcases List.mem_append.mp hrow' with hrow' | hrow'
    · rw [hfirst (mem_pendingRows.mp hrow').2.2.2] at ha
      cases ha
    · obtain ⟨hstored', -, hhandled, hafter⟩ := mem_handledRows.mp (List.mem_of_mem_take hrow')
      obtain rfl := row_of_id hrow hstored' hab
      rcases hbefore with hpending | hbefore
      · rw [hhandled] at hpending
        cases hpending
      · cases hcursor : cursor with
        | none =>
          rw [hfirst hcursor] at ha
          cases ha
        | some c => exact absurd (hbefore c hcursor) (not_le.mpr (hafter c hcursor))
  · rw [ids_receive] at hid
    rcases List.mem_append.mp hid with hid | hid
    · obtain ⟨row, hrow, hrowId, hbefore⟩ := hstill.shown id hid
      refine ⟨row, hrow, hrowId, hbefore.imp_right fun hbefore c hc => ?_⟩
      obtain ⟨last, rfl, hlast⟩ := hnext c hc
      cases hcursor : cursor with
      | none =>
        rw [hfirst hcursor] at hid
        cases hid
      | some d =>
        have hlt := (mem_handledRows.mp (List.mem_of_mem_take (List.mem_of_getLast? hlast))).2.2.2 d hcursor
        exact le_of_lt (lt_of_lt_of_le hlt (hbefore d hcursor))
    · have hid' : id ∈ page.requests.map DecisionRequest.id := hid
      rw [hshows.ids] at hid'
      obtain ⟨row, hrow, rfl⟩ := List.mem_map.mp hid'
      refine ⟨row, (shown_of_mem hrow).1, rfl, ?_⟩
      rcases List.mem_append.mp hrow with hrow | hrow
      · exact Or.inl (mem_pendingRows.mp hrow).2.2.1
      · refine Or.inr fun c hc => ?_
        obtain ⟨last, rfl, hlast⟩ := hnext c hc
        rcases Cursor.rel_getLast ((handledRows_sorted w.db).sublist (List.take_sublist _ _)) hlast hrow
          with rfl | hlt
        · exact le_refl _
        · exact le_of_lt hlt
  · by_cases hnil : w.walker.pages = []
    · unfold Walker.receive at hpages
      rw [hnil] at hpages
      cases hpages
      unfold FetchedPage.ids
      dsimp only
      rw [hshows.ids]
      refine List.mem_map_of_mem (List.mem_append_left _ (mem_pendingRows.mpr ⟨hrow, hvisible, hpending, ?_⟩))
      exact (hplace.first hopen).mpr hnil
    · obtain ⟨g, others, hold⟩ := List.exists_cons_of_ne_nil hnil
      unfold Walker.receive at hpages
      rw [hold] at hpages
      cases hpages
      exact hstill.pending _ _ hold row hrow hvisible hpending

variable (P C query) in
/-- A walk of one user through a database that stands still. -/
structure Standing (userId cutoff : String) (w : Walk) : Prop where
  walking : Walking P C query w
  owner : ∃ row, w.db.devices.get? query.deviceId = some row ∧ row.userId = userId
  pages : ∀ f ∈ w.walker.pages, f.db = w.db ∧ f.userId = userId ∧ f.cutoff = cutoff
  still : ∃ cursor, Place P C query w.walker cursor ∧ Still query w.db userId cutoff w.walker cursor

variable (P query) in
/-- An action that changes nothing; all pages are read with one cutoff. -/
def WalkAct.StillAt (cutoff : String) : WalkAct → Prop
  | .call _ => False
  | .readDevice _ => True
  | .readPage env _ => retentionCutoff env query = cutoff

theorem standing_readPage (laws : CursorLaws P C) (hL : query.handledLimit = L) (hlow : 1 ≤ L)
    (hhigh : L ≤ 500) (env : Env) (faults : List Bool) (hcutoff : retentionCutoff env query = cutoff)
    (hw : Standing P C query userId cutoff w) :
    Standing P C query userId cutoff (Walk.step P C query (.readPage env faults) w) ∧
      (Walk.step P C query (.readPage env faults) w).db = w.db := by
  have hwalking := walking_step laws hL hlow hhigh (.readPage env faults) hw.walking
  cases hdevice : w.walker.device with
  | none =>
    unfold Walk.step
    dsimp only
    rw [hdevice]
    exact ⟨hw, rfl⟩
  | some device =>
    obtain ⟨cursor, hplace, hstill⟩ := hw.still
    obtain ⟨hopen, row, hrow, hsame⟩ := hw.walking.device device hdevice
    obtain ⟨row', hrow', rfl⟩ := hw.owner
    rw [hrow] at hrow'
    cases hrow'
    rcases readPage_cases hL hlow hhigh env faults hw.walking hdevice hplace with
      hfailed | ⟨page, hshows, hread⟩
    · rw [hfailed] at hwalking ⊢
      exact ⟨⟨hwalking, ⟨row, hrow, rfl⟩, hw.pages, cursor, place_device hplace none,
        hstill.nodup, hstill.shown, hstill.pending⟩, rfl⟩
    · rw [hread] at hwalking ⊢
      rw [hcutoff, ← hsame] at hwalking hshows ⊢
      refine ⟨⟨hwalking, ⟨row, hrow, rfl⟩, fun f hf => ?_, ?_⟩, rfl⟩
      · rcases List.mem_append.mp hf with hf | hf
        · exact hw.pages f hf
        · rw [List.mem_singleton.mp hf]
          exact ⟨rfl, rfl, rfl⟩
      · by_cases hmore : L < (handledRows row.userId cutoff query cursor w.db).length
        · obtain ⟨last, hlast, hnext⟩ := place_more laws hw.walking hplace hopen ⟨row, hrow, rfl⟩ hshows
            hlow hmore
          refine ⟨_, hnext, still_receive hplace hopen hstill hshows fun c hc => ?_⟩
          cases hc
          exact ⟨last, rfl, hlast⟩
        · exact ⟨none, place_last hw.walking hplace hopen ⟨row, hrow, rfl⟩ hshows hmore,
            still_receive hplace hopen hstill hshows fun c hc => (by cases hc)⟩

theorem standing_readDevice (faults : List Bool) (hw : Standing P C query userId cutoff w) :
    Standing P C query userId cutoff (Walk.step P C query (.readDevice faults) w) ∧
      (Walk.step P C query (.readDevice faults) w).db = w.db := by
  have hwalking := walking_readDevice faults hw.walking
  obtain ⟨cursor, hplace, hstill⟩ := hw.still
  have hsame : (Walk.step P C query (.readDevice faults) w).db = w.db ∧
      ∃ device, (Walk.step P C query (.readDevice faults) w).walker = { w.walker with device := device } := by
    unfold Walk.step
    dsimp only
    split
    · exact ⟨rfl, _, rfl⟩
    · obtain ⟨row, -, -, -, -, he⟩ | ⟨-, e, he⟩ :=
        exec_getDevice (P := P) query.deviceId faults w.db
      · rw [he]
        exact ⟨rfl, _, rfl⟩
      · rw [he]
        exact ⟨rfl, _, rfl⟩
  obtain ⟨hdb, device, hwalker⟩ := hsame
  refine ⟨⟨hwalking, ?_, ?_, cursor, ?_, ?_⟩, hdb⟩
  · rw [hdb]
    exact hw.owner
  · rw [hdb, hwalker]
    exact hw.pages
  · rw [hwalker]
    exact place_device hplace device
  · rw [hdb, hwalker]
    exact ⟨hstill.nodup, hstill.shown, hstill.pending⟩

theorem standing_walk (laws : CursorLaws P C) (hL : query.handledLimit = L) (hlow : 1 ≤ L)
    (hhigh : L ≤ 500) {acts : List WalkAct} (hacts : ∀ a ∈ acts, a.StillAt query cutoff)
    (hw : Standing P C query userId cutoff w) :
    Standing P C query userId cutoff (walk P C query acts w) ∧ (walk P C query acts w).db = w.db := by
  induction acts generalizing w with
  | nil => exact ⟨hw, rfl⟩
  | cons a acts ih =>
    have hstill := hacts a List.mem_cons_self
    have hstep : Standing P C query userId cutoff (Walk.step P C query a w) ∧
        (Walk.step P C query a w).db = w.db := by
      cases a with
      | call c => exact hstill.elim
      | readDevice faults => exact standing_readDevice faults hw
      | readPage env faults => exact standing_readPage laws hL hlow hhigh env faults hstill hw
    obtain ⟨hlast, hdb⟩ := ih (fun b hb => hacts b (List.mem_cons_of_mem a hb)) hstep.1
    exact ⟨hlast, hdb.trans hstep.2⟩

/-- A finished walk through a database that stands still has returned each visible request once. -/
theorem once_of_standing (hw : Standing P C query userId cutoff w) (hended : w.walker.ended = true)
    {row : RequestRow} (hrow : row ∈ w.db.requests.rows)
    (hvisible : isVisible userId cutoff query w.db row = true) :
    w.walker.ids.count row.id = 1 ∧ (isPendingFor userId w.db row = true →
      ∃ f rest, w.walker.pages = f :: rest ∧ row.id ∈ f.ids) := by
  obtain ⟨cursor, hplace, hstill⟩ := hw.still
  have hthroughout : w.walker.VisibleThroughout query row.id := by
    intro f hf
    obtain ⟨hdb, huser, hcutoff⟩ := hw.pages f hf
    rw [hdb, huser, hcutoff]
    exact ⟨row, Table.get?_of_mem hrow, hvisible⟩
  have hpages := hplace.started hended
  refine ⟨List.count_eq_one_of_mem hstill.nodup ?_, fun hpending => ?_⟩
  · rcases hplace.seen hpages row.id hthroughout with hreturned | ⟨hopen, -⟩
    · exact hreturned
    · rw [hended] at hopen
      cases hopen
  · obtain ⟨f, rest, hfirst⟩ := List.exists_cons_of_ne_nil hpages
    exact ⟨f, rest, hfirst, hstill.pending f rest hfirst row hrow hvisible hpending⟩

end Standing

/-! ## Every walk -/

variable (P C query) in
/-- What holds of a walk at any time. -/
structure HistoryComplete (w : Walk) : Prop where
  /-- Once it has ended, every request that was visible on each page has been returned. -/
  complete : w.walker.ended = true → ∀ id, w.walker.VisibleThroughout query id → id ∈ w.walker.ids
  ordered : w.walker.history.Pairwise fun a b => b < a
  /-- The pages are one user's, that of the device. -/
  owner : ∀ f ∈ w.walker.pages, ∃ row,
    w.db.devices.get? query.deviceId = some row ∧ row.userId = f.userId
  bounded : w.walker.pages.length ≤ w.walker.history.length + 1 ∧ w.walker.pages.length ≤ pageBound
  /-- Until it ends, an attempt that the store does not fail brings a page, whatever comes between its
      two reads; the times of the device's row can be read. -/
  proceeds : w.walker.ended = false → ∀ row, w.db.devices.get? query.deviceId = some row →
    row.revokedAt = none → row.Readable → ∀ (calls : List Call) env,
    (walk P C query (.readDevice [] :: (calls.map .call ++ [.readPage env []])) w).walker.pages.length =
      w.walker.pages.length + 1

variable (P C) in
/-- History for every device, filter and page size, and every state the server can be in. -/
def HistoryPagination : Prop :=
  ∀ query, 1 ≤ query.handledLimit → query.handledLimit ≤ 500 → ∀ before : List Call,
    (∀ acts, HistoryComplete P C query (walk P C query acts (.start (run P before Db.empty)))) ∧
    ∀ acts cutoff, (∀ a ∈ acts, a.StillAt query cutoff) →
      (walk P C query acts (.start (run P before Db.empty))).walker.ended = true →
      ∀ device, (run P before Db.empty).devices.get? query.deviceId = some device →
      ∀ row ∈ (run P before Db.empty).requests.rows,
        isVisible device.userId cutoff query (run P before Db.empty) row = true →
        (walk P C query acts (.start (run P before Db.empty))).walker.ids.count row.id = 1 ∧
          (isPendingFor device.userId (run P before Db.empty) row = true →
            ∃ f rest, (walk P C query acts (.start (run P before Db.empty))).walker.pages = f :: rest ∧
              row.id ∈ f.ids)

theorem walker_calls {q : ListRequestsForDevice} (calls : List Call) (w : Walk) :
    (walk P C q (calls.map .call) w).walker = w.walker := by
  induction calls generalizing w with
  | nil => rfl
  | cons c calls ih => exact ih _

theorem walk_append (acts more : List WalkAct) (w : Walk) :
    walk P C query (acts ++ more) w = walk P C query more (walk P C query acts w) :=
  List.foldl_append

theorem historyComplete {L : Nat} (laws : CursorLaws P C) (hL : query.handledLimit = L) (hlow : 1 ≤ L)
    (hhigh : L ≤ 500) {w : Walk} (hw : Walking P C query w) : HistoryComplete P C query w where
  complete hended id hvisible := by
    obtain ⟨cursor, hplace⟩ := hw.place
    rcases hplace.seen (hplace.started hended) id hvisible with hreturned | ⟨hopen, -⟩
    · exact hreturned
    · rw [hended] at hopen
      cases hopen
  ordered := by
    obtain ⟨cursor, hplace⟩ := hw.place
    exact hplace.sorted
  owner := hw.owners
  bounded := pages_le_bound hw
  proceeds hopen row hrow hlive hreadable calls env := by
    obtain ⟨hdevice, hpages⟩ := readDevice_read (P := P) (C := C) hopen hrow hlive hreadable
    have hfirst := walking_step laws hL hlow hhigh (.readDevice []) hw
    have hwalker := walker_calls (P := P) (C := C) (q := query) calls
      (Walk.step P C query (.readDevice []) w)
    have hread := readPage_read hL hlow hhigh env
      (walking_walk laws hL hlow hhigh hfirst) (hwalker ▸ hdevice)
    rw [hwalker, hpages] at hread
    change (walk P C query (calls.map .call ++ [.readPage env []])
      (Walk.step P C query (.readDevice []) w)).walker.pages.length = _
    rw [walk_append]
    exact hread

theorem history_pagination (laws : CursorLaws P C) : HistoryPagination P C := by
  intro query hlow hhigh before
  have hL : query.handledLimit = query.handledLimit.toNat := by omega
  have hlow' : 1 ≤ query.handledLimit.toNat := by omega
  have hhigh' : query.handledLimit.toNat ≤ 500 := by omega
  have hstart : Walking P C query (.start (run P before Db.empty)) :=
    walking_start (wellFormed_run_empty before) (legible_run_empty before)
  refine ⟨fun acts => historyComplete laws hL hlow' hhigh' (walking_walk laws hL hlow' hhigh' hstart),
    fun acts cutoff hacts hended device hdevice row hrow hvisible => ?_⟩
  have hstanding : Standing P C query device.userId cutoff (.start (run P before Db.empty)) := by
    refine ⟨hstart, ⟨device, hdevice, rfl⟩, fun f hf => (by cases hf), ?_⟩
    obtain ⟨cursor, hplace⟩ := hstart.place
    exact ⟨cursor, hplace, List.nodup_nil, fun id hid => (by cases hid), fun f rest h => (by cases h)⟩
  obtain ⟨hlast, hdb⟩ := standing_walk laws hL hlow' hhigh' hacts hstanding
  have honce : row ∈ (walk P C query acts (.start (run P before Db.empty))).db.requests.rows →
      isVisible device.userId cutoff query (walk P C query acts (.start (run P before Db.empty))).db
        row = true → _ := once_of_standing hlast hended
  rw [hdb] at honce
  exact honce hrow hvisible

/-! ## Cursors of concrete packages -/

def readPair (bytes : List UInt8) : Option (String × String) :=
  match (String.fromUTF8? ⟨bytes.toArray⟩).bind Json.parse with
  | some (.arr [.str a, .str b]) => some (a, b)
  | _ => none

def sampleCursors : CursorPackages where
  urlSafeEncode := Concrete.urlSafeEncode
  readPair := readPair
  parseUuid := isUuid

theorem readPair_text (a b : String) :
    readPair (Json.arr [.str a, .str b]).text.toUTF8.toList = some (a, b) := by
  have htext : String.fromUTF8? ⟨(Json.arr [.str a, .str b]).text.toUTF8.toList.toArray⟩ =
      some (Json.arr [.str a, .str b]).text := by
    rw [Text.toList_byteArray]
    exact dif_pos (Json.arr [.str a, .str b]).text.isValidUTF8
  unfold readPair
  have hfree : Json.FloatFree (.arr [.str a, .str b]) := ⟨trivial, trivial, trivial⟩
  rw [htext, Option.bind_some, Json.parse_text _ hfree]

theorem cursorLaws_sample : CursorLaws samplePackages sampleCursors where
  urlSafe := Concrete.urlSafeDecode_urlSafeEncode
  size bytes := le_of_eq (Concrete.utf8ByteSize_urlSafeEncode bytes)
  pair := readPair_text
  uuid _ h := h

theorem history_pagination_sample : HistoryPagination samplePackages sampleCursors :=
  history_pagination cursorLaws_sample

end Nod.Server
