import Mathlib.Data.Prod.Lex
import Mathlib.Data.String.Basic
import Nod.Server.Listing

/-
  One page of a device's inbox (`list_requests_for_device` of `db/requests/read.rs`).
  Proved: the handled rows of a page are the first of those before its cursor, later ones first, and
  the next cursor is the last of them when rows are left out (`pageShows_of_eval`); a page of stored
  requests is always answered (`exists_page`).
-/

namespace Nod.Server

open Lib Nod.Proto

/-! ## The order of history -/

/-- `(created_at, id)`. -/
def RequestRow.historyKey (r : RequestRow) : String ×ₗ String := toLex (r.createdAt, r.id)

/-- The same of a request as it is answered. -/
def DecisionRequest.historyKey (r : DecisionRequest) : String ×ₗ String :=
  toLex (r.createdAt.toRfc3339Millis, r.id)

theorem newestFirst_iff {a b : RequestRow} :
    a.newestFirst b = true ↔ b.historyKey ≤ a.historyKey := by
  unfold RequestRow.newestFirst RequestRow.historyKey
  rw [Bool.or_eq_true, Bool.and_eq_true, decide_eq_true_eq, decide_eq_true_eq, decide_eq_true_eq,
    Prod.Lex.toLex_le_toLex]

theorem beforeCursor_iff {cursor : String × String} {row : RequestRow} :
    beforeCursor cursor row = true ↔ row.historyKey < toLex cursor := by
  unfold beforeCursor RequestRow.historyKey
  rw [Bool.or_eq_true, Bool.and_eq_true, decide_eq_true_eq, decide_eq_true_eq, decide_eq_true_eq,
    Prod.Lex.toLex_lt_toLex]

/-! ## The rows of a page -/

section Rows

variable (userId cutoff : String) (query : ListRequestsForDevice) (cursor : Option (String × String))

def pendingRows (db : Db) : List RequestRow :=
  ((db.requests.rows.filter (isVisible userId cutoff query db)).filter fun r =>
    isPendingFor userId db r && cursor.isNone).mergeSort RequestRow.newestFirst

def handledRows (db : Db) : List RequestRow :=
  ((db.requests.rows.filter (isVisible userId cutoff query db)).filter fun r =>
    !isPendingFor userId db r && cursor.all (beforeCursor · r)).mergeSort RequestRow.newestFirst

variable {userId cutoff query cursor}

theorem pageRows_eq (limit : Nat) (db : Db) :
    pageRows userId cutoff query cursor limit db =
      (pendingRows userId cutoff query cursor db).map (true, ·) ++
        ((handledRows userId cutoff query cursor db).take limit).map (false, ·) := rfl

theorem mem_pendingRows {db : Db} {row : RequestRow} :
    row ∈ pendingRows userId cutoff query cursor db ↔ row ∈ db.requests.rows ∧
      isVisible userId cutoff query db row = true ∧ isPendingFor userId db row = true ∧
      cursor = none := by
  unfold pendingRows
  rw [List.mem_mergeSort, List.mem_filter, List.mem_filter, Bool.and_eq_true, Option.isNone_iff_eq_none,
    and_assoc]

theorem mem_handledRows {db : Db} {row : RequestRow} :
    row ∈ handledRows userId cutoff query cursor db ↔ row ∈ db.requests.rows ∧
      isVisible userId cutoff query db row = true ∧ isPendingFor userId db row = false ∧
      ∀ c ∈ cursor, row.historyKey < toLex c := by
  unfold handledRows
  rw [List.mem_mergeSort, List.mem_filter, List.mem_filter, Bool.and_eq_true, Bool.not_eq_true',
    Option.all_eq_true, and_assoc]
  simp only [beforeCursor_iff]
  exact Iff.rfl

theorem nodup_sorted (db : Db) (p q : RequestRow → Bool) :
    ((((db.requests.rows.filter p).filter q).mergeSort RequestRow.newestFirst).map
      RequestRow.id).Nodup := by
  refine ((List.mergeSort_perm _ _).map RequestRow.id).nodup_iff.mpr ?_
  exact db.requests.nodup.sublist ((List.filter_sublist.trans List.filter_sublist).map _)

theorem handledRows_sorted (db : Db) :
    (handledRows userId cutoff query cursor db).Pairwise fun a b => b.historyKey < a.historyKey := by
  have hsorted : (handledRows userId cutoff query cursor db).Pairwise fun a b =>
      a.newestFirst b = true := by
    refine List.pairwise_mergeSort (fun a b c hab hbc => ?_) (fun a b => ?_) _
    · exact newestFirst_iff.mpr (le_trans (newestFirst_iff.mp hbc) (newestFirst_iff.mp hab))
    · rw [Bool.or_eq_true, newestFirst_iff, newestFirst_iff]
      exact le_total _ _
  have hnodup := List.pairwise_map.mp (nodup_sorted db (isVisible userId cutoff query db) fun r =>
    !isPendingFor userId db r && cursor.all (beforeCursor · r))
  refine hsorted.imp₂ (fun a b hle hne => ?_) hnodup
  refine lt_of_le_of_ne (newestFirst_iff.mp hle) fun heq => hne ?_
  exact (congrArg (fun k => (ofLex k).2) heq).symm

end Rows

/-- A page shows the first handled rows; the last of them is the next cursor when some are left. -/
theorem cutPage_eq (C : CursorPackages) {L : Nat} (hL : 1 ≤ L) (ps hs : List RequestRow) :
    cutPage C L (ps.map (true, ·) ++ (hs.take (L + 1)).map (false, ·)) =
      (ps.map (true, ·) ++ (hs.take L).map (false, ·),
        if L < hs.length then (hs.take L).getLast?.map fun r => encodeCursor C r.createdAt r.id
        else none) := by
  have hcount : (ps.map (true, ·) ++ (hs.take (L + 1)).map (false, ·)).countP
      (fun r : Bool × RequestRow => !r.1) = min (L + 1) hs.length := by
    rw [List.countP_append, List.countP_map, List.countP_map]
    have hp : ps.countP ((fun r : Bool × RequestRow => !r.1) ∘ (true, ·)) = 0 :=
      List.countP_eq_zero.mpr fun _ _ h => Bool.false_ne_true h
    have hh : (hs.take (L + 1)).countP ((fun r : Bool × RequestRow => !r.1) ∘ (false, ·)) =
        (hs.take (L + 1)).length := List.countP_eq_length.mpr fun _ _ => rfl
    rw [hp, hh, List.length_take, Nat.zero_add]
  unfold cutPage
  rw [hcount]
  by_cases hmore : L < hs.length
  · rw [if_pos (by omega), if_pos hmore]
    have hne : (hs.take (L + 1)).map (fun r => (false, r)) ≠ [] := by
      rw [ne_eq, List.map_eq_nil_iff, List.take_eq_nil_iff, not_or]
      exact ⟨by omega, List.ne_nil_of_length_pos (by omega)⟩
    have hcut : (ps.map (true, ·) ++ (hs.take (L + 1)).map (false, ·)).dropLast =
        ps.map (true, ·) ++ (hs.take L).map (false, ·) := by
      have hlength : min (min (L + 1) hs.length - 1) (L + 1) = L := by omega
      rw [List.dropLast_append_of_ne_nil hne, ← List.map_dropLast, List.dropLast_eq_take,
        List.take_take, List.length_take, hlength]
    have hlast : (ps.map (true, ·) ++ (hs.take L).map (false, ·)).getLast? =
        (hs.take L).getLast?.map (false, ·) := by
      rw [List.getLast?_append, List.getLast?_map, Option.or_of_isSome]
      rw [Option.isSome_map, List.getLast?_isSome, ne_eq, List.take_eq_nil_iff, not_or]
      exact ⟨by omega, List.ne_nil_of_length_pos (by omega)⟩
    rw [hcut, hlast, Option.map_map]
    rfl
  · rw [if_neg (by omega), if_neg hmore, List.take_of_length_le (by omega),
      List.take_of_length_le (by omega)]

/-! ## What a stored row carries -/

variable {P : Packages} {C : CursorPackages}

/-- A stored request has the id of a call, and its creation time reads back as it was written. -/
theorem createdAt_of_stored {db : Db} (hdb : WellFormed P db) {row : RequestRow}
    (hrow : row ∈ db.requests.rows) :
    isUuid row.id = true ∧ ∃ t : DateTime, t.FourDigitYear ∧ row.createdAt = t.toRfc3339Millis := by
  obtain ⟨hgood, -⟩ := hdb.good (Table.get?_of_mem hrow)
  obtain ⟨env, req, creator, r, version, digest, -, -, hfrozen, -, hreads⟩ := hgood.admitted.accepted
  have hid : row.id = env.newId 0 := congrArg RequestRow.id hfrozen
  have hcreated : row.createdAt = env.nowString 0 := congrArg RequestRow.createdAt hfrozen
  refine ⟨?_, env.now 0, ?_, hcreated⟩
  · rw [hid]
    exact env.newId_uuid 0
  · exact (DateTime.parse_toRfc3339Millis_eq_some hreads.createdAt).1

/-- A request is answered under the key its row is ordered by. -/
theorem historyKey_of_reads {db : Db} (hdb : WellFormed P db) {row : RequestRow}
    (hrow : row ∈ db.requests.rows) {related : RelatedRows} {r : DecisionRequest} {version digest : String}
    (h : ReadsAs P row related r version digest) : r.historyKey = row.historyKey := by
  obtain ⟨-, t, ht, hcreated⟩ := createdAt_of_stored hdb hrow
  have hparse := h.createdAt
  rw [hcreated] at hparse
  obtain ⟨-, hread⟩ := DateTime.parse_toRfc3339Millis_eq_some hparse
  unfold DecisionRequest.historyKey RequestRow.historyKey
  rw [hread, DateTime.toRfc3339Millis_truncMillis, h.id, hcreated]

theorem ownAnswer_isSome {userId id : String} {db : Db} :
    (ownAnswer userId id db).isSome = true ↔ userId ∈ (db.answersOf id).map Prod.fst := by
  unfold ownAnswer Db.answersOf
  rw [List.map_map, List.mem_map]
  constructor
  · intro h
    obtain ⟨d, hd⟩ := Option.isSome_iff_exists.mp h
    have hkey := Table.key_of_get? hd
    refine ⟨d, List.mem_filter.mpr ⟨Table.mem_of_get? hd, decide_eq_true (congrArg Prod.fst hkey)⟩, ?_⟩
    exact congrArg Prod.snd hkey
  · rintro ⟨d, hd, huser⟩
    obtain ⟨hmem, hid⟩ := List.mem_filter.mp hd
    have hkey : d.key = (id, userId) := Prod.ext (of_decide_eq_true hid) huser
    have hget := Table.get?_of_mem hmem
    rw [hkey] at hget
    rw [hget]
    rfl

/-- A request is history for a user who is done with its poll. -/
theorem isPendingFor_eq_false {db : Db} (hdb : WellFormed P db) {row : RequestRow}
    (hrow : row ∈ db.requests.rows) {userId : String} :
    isPendingFor userId db row = false ↔ (db.ballotOf row).Handled userId := by
  obtain ⟨hgood, -⟩ := hdb.good (Table.get?_of_mem hrow)
  have hphase : (db.ballotOf row).phase = .open ↔ row.status = .pending := by
    change phaseOf row.status = .open ↔ _
    cases row.status <;> decide
  have hanswers : (db.ballotOf row).answers = db.answersOf row.id := rfl
  unfold isPendingFor Poll.Ballot.Handled
  rw [← Bool.not_eq_true, Bool.and_eq_true, Bool.or_eq_true, decide_eq_true_eq, decide_eq_true_eq,
    Option.isNone_iff_eq_none, ← Option.not_isSome_iff_eq_none, ownAnswer_isSome, ne_eq, hphase,
    hanswers, not_and_or, not_or, not_not]
  refine or_congr_right ⟨And.right, fun hmem => ⟨fun hshared => ?_, hmem⟩⟩
  have hnone := (hgood.shared hshared).1
  rw [hanswers] at hnone
  rw [hnone] at hmem
  cases hmem

/-- What a recipient is shown as pending is what the page counts as pending. -/
theorem status_projected {db : Db} (hdb : WellFormed P db) {row : RequestRow}
    (hrow : row ∈ db.requests.rows) {userId : String}
    (hrecipient : (db.recipients.get? (row.id, userId)).isSome = true) {r : DecisionRequest}
    {version digest : String} (h : ReadsAs P row (db.relatedOf row.id) r version digest) :
    (projectRequestForUser r userId).status = .pending ↔ isPendingFor userId db row = true := by
  obtain ⟨hgood, -⟩ := hdb.good (Table.get?_of_mem hrow)
  have hstatus := h.status
  have hresolution := h.decisionResolution
  have hown : (r.userDecisions.find? fun d => decide (d.userId = userId)).isSome = true ↔
      (ownAnswer userId row.id db).isSome = true := by
    have hdecisions : r.userDecisions = (db.relatedOf row.id).decisions := by
      rw [h.request]
      rfl
    rw [hdecisions, ownAnswer_isSome, List.find?_isSome, List.mem_map]
    constructor
    · rintro ⟨d, hd, huser⟩
      exact ⟨_, mem_decisions_relatedOf.mp hd, of_decide_eq_true huser⟩
    · rintro ⟨⟨u, d⟩, hd, rfl⟩
      exact ⟨⟨u, d⟩, mem_decisions_relatedOf.mpr hd, decide_eq_true rfl⟩
  unfold projectRequestForUser isPendingFor
  dsimp only
  rw [hstatus, hresolution, Bool.and_eq_true, Bool.or_eq_true, decide_eq_true_eq, decide_eq_true_eq]
  by_cases hshared : row.decisionResolution = .shared
  · rw [if_neg (by rw [hshared]; decide)]
    exact (and_iff_left (Or.inl hshared)).symm
  · have hper : row.decisionResolution = .perUser := by
      cases hres : row.decisionResolution with
      | shared => exact absurd hres hshared
      | perUser => rfl
    rw [if_pos hper]
    cases hfound : r.userDecisions.find? fun d => decide (d.userId = userId) with
    | some own =>
      rw [hfound] at hown
      have hanswer := hown.mp rfl
      refine iff_of_false (fun hp => by cases hp) fun hp => ?_
      rcases hp.2 with hs | hn
      · exact hshared hs
      · rw [Option.isNone_iff_eq_none] at hn
        rw [hn] at hanswer
        cases hanswer
    | none =>
      rw [hfound] at hown
      have hnone : ownAnswer userId row.id db = none := by
        rw [← Option.not_isSome_iff_eq_none, ← hown]
        exact Bool.false_ne_true
      have hnotResolved : row.status ≠ .resolved := by
        intro hres
        have hsettled : (db.ballotOf row).phase = .settled := by
          change phaseOf row.status = _
          rw [hres]
          rfl
        obtain ⟨-, hall⟩ := (hgood.each hshared).2.2.2.mp hsettled
        obtain ⟨recipient, hget⟩ := Option.isSome_iff_exists.mp hrecipient
        have hkey := Table.key_of_get? hget
        have hmem : userId ∈ db.recipientsOf row.id := by
          refine List.mem_map.mpr ⟨recipient, List.mem_filter.mpr ⟨Table.mem_of_get? hget, ?_⟩, ?_⟩
          · exact decide_eq_true (congrArg Prod.fst hkey)
          · exact congrArg Prod.snd hkey
        have hanswered := ownAnswer_isSome.mpr (hall userId hmem)
        rw [hnone] at hanswered
        cases hanswered
      dsimp only
      rw [if_neg hnotResolved, hnone]
      exact (and_iff_left (Or.inr rfl)).symm

/-! ## The cursor -/

variable (P C) in
/-- How the packages behave that a cursor goes through: base64url and JSON undo their own encoding,
    and a UUID is one. -/
structure CursorLaws : Prop where
  urlSafe : ∀ bytes, P.urlSafeDecode (C.urlSafeEncode bytes) = some bytes
  size : ∀ bytes, (C.urlSafeEncode bytes).utf8ByteSize ≤ (bytes.length * 4 + 2) / 3
  pair : ∀ a b, C.readPair (Json.arr [.str a, .str b]).text.toUTF8.toList = some (a, b)
  uuid : ∀ s, isUuid s = true → C.parseUuid s = true

theorem isAscii_of_isUuid {s : String} (h : isUuid s = true) :
    s.toList.length = 36 ∧ ∀ c ∈ s.toList, Text.isAscii c = true := by
  unfold isUuid at h
  rw [Bool.and_eq_true, beq_iff_eq, List.all_eq_true] at h
  refine ⟨h.1, fun c hc => ?_⟩
  obtain ⟨i, hi⟩ := List.mem_iff_getElem?.mp hc
  have hmem : (c, i) ∈ s.toList.zipIdx := List.mem_zipIdx_iff_getElem?.mpr hi
  have hall := h.2 _ hmem
  dsimp only at hall
  split at hall
  · rw [beq_iff_eq] at hall
    rw [hall]
    decide
  · exact Text.isAscii_of_isLowerHex hall

theorem isSlugChar_of_isLowerHex {c : Char} (h : Text.isLowerHex c = true) : isSlugChar c = true := by
  have halnum : c.isAlphanum = ((c.isUpper || (c.val ≥ 'a'.val && c.val ≤ 'z'.val)) || c.isDigit) := rfl
  unfold isSlugChar
  rw [halnum]
  unfold Text.isLowerHex at h
  obtain hdigit | hletter := Bool.or_eq_true_iff.mp h
  · rw [hdigit, Bool.or_true, Bool.true_or, Bool.true_or, Bool.true_or]
  · simp only [Bool.and_eq_true, decide_eq_true_eq, Char.le_def] at hletter
    have hle : c.val ≤ 'z'.val := UInt32.le_trans hletter.2 (by decide)
    rw [decide_eq_true hletter.1, decide_eq_true hle, Bool.and_self, Bool.or_true, Bool.true_or,
      Bool.true_or, Bool.true_or, Bool.true_or]

theorem validateId_of_isUuid {id : String} (h : isUuid id = true) (label : String) :
    validateId id label = .ok () := by
  obtain ⟨hlength, hascii⟩ := isAscii_of_isUuid h
  refine validateId_eq_ok.mpr ⟨?_, ?_, ?_⟩
  · intro hempty
    rw [hempty] at hlength
    exact absurd hlength (by decide)
  · rw [Text.utf8ByteSize_of_ascii hascii, hlength]
    decide
  · intro c hc
    unfold isUuid at h
    rw [Bool.and_eq_true, List.all_eq_true] at h
    obtain ⟨i, hi⟩ := List.mem_iff_getElem?.mp hc
    have hplace : (c, i) ∈ id.toList.zipIdx := List.mem_zipIdx_iff_getElem?.mpr hi
    have hchar := h.2 _ hplace
    dsimp only at hchar
    split at hchar
    · rw [beq_iff_eq] at hchar
      rw [hchar]
      decide
    · exact isSlugChar_of_isLowerHex hchar

theorem length_padDigits (w n : Nat) : (padDigits w n).length = w := by
  induction w with
  | zero => rfl
  | succ w ih => rw [padDigits, List.length_cons, ih]

/-- A time with a four-digit year is written in 24 ASCII characters. -/
theorem length_toRfc3339Millis {t : DateTime} (ht : t.FourDigitYear) :
    t.toRfc3339Millis.toList.length = 24 ∧ ∀ c ∈ t.toRfc3339Millis.toList, Text.isAscii c = true := by
  refine ⟨?_, fun c hc => ?_⟩
  · unfold DateTime.toRfc3339Millis DateTime.wholeChars DateTime.yearChars
    rw [if_pos (show 0 ≤ t.year ∧ t.year ≤ 9999 from ht)]
    simp only [String.toList_ofList, List.length_append, List.length_cons, length_padDigits,
      List.length_nil]
  · have hchar := t.isRfc3339Char_toRfc3339Millis c hc
    unfold DateTime.isRfc3339Char at hchar
    simp only [Bool.or_eq_true, beq_iff_eq] at hchar
    rcases hchar with (((((hdigit | rfl) | rfl) | rfl) | rfl) | rfl) | rfl
    · refine Text.isAscii_of_isLowerHex ?_
      unfold Text.isLowerHex
      rw [hdigit, Bool.true_or]
    all_goals decide

/-- Writing a character of an ASCII text takes at most six ASCII characters. -/
theorem length_escapeChar {c : Char} (hc : Text.isAscii c = true) :
    (Json.escapeChar c).length ≤ 6 ∧ ∀ d ∈ Json.escapeChar c, Text.isAscii d = true := by
  have hhex : ∀ n < 16, Text.isAscii (Json.hexDigit n) = true := by decide
  have hfixed {l : List Char} (hl : l.all Text.isAscii = true) :
      ∀ d ∈ l, Text.isAscii d = true := List.all_eq_true.mp hl
  unfold Json.escapeChar
  split
  · exact ⟨by decide, hfixed rfl⟩
  split
  · exact ⟨by decide, hfixed rfl⟩
  split
  · exact ⟨by decide, hfixed rfl⟩
  split
  · exact ⟨by decide, hfixed rfl⟩
  split
  · exact ⟨by decide, hfixed rfl⟩
  split
  · exact ⟨by decide, hfixed rfl⟩
  split
  · exact ⟨by decide, hfixed rfl⟩
  split
  · refine ⟨Nat.le_refl 6, ?_⟩
    simp only [List.forall_mem_cons, List.not_mem_nil, false_implies, implies_true, and_true]
    exact ⟨by decide, by decide, by decide, by decide, hhex _ (by omega), hhex _ (by omega)⟩
  · refine ⟨Nat.le_add_left 1 5, fun d hd => ?_⟩
    rw [List.mem_singleton.mp hd]
    exact hc

/-- A text of ASCII characters is at most six times as long when it is written. -/
theorem length_renderString {s : String} (hs : ∀ c ∈ s.toList, Text.isAscii c = true) :
    (Json.renderString s).length ≤ s.toList.length * 6 + 2 ∧
      ∀ c ∈ Json.renderString s, Text.isAscii c = true := by
  have hflat : ∀ cs : List Char, (∀ c ∈ cs, Text.isAscii c = true) →
      (cs.flatMap Json.escapeChar).length ≤ cs.length * 6 ∧
        ∀ c ∈ cs.flatMap Json.escapeChar, Text.isAscii c = true := by
    intro cs hcs
    induction cs with
    | nil => exact ⟨le_refl _, fun c hc => absurd hc List.not_mem_nil⟩
    | cons c cs ih =>
      obtain ⟨hlength, hascii⟩ := length_escapeChar (hcs c List.mem_cons_self)
      obtain ⟨hrest, hrestAscii⟩ := ih fun d hd => hcs d (List.mem_cons_of_mem c hd)
      rw [List.flatMap_cons]
      refine ⟨?_, fun d hd => ?_⟩
      · rw [List.length_append, List.length_cons]
        omega
      · rcases List.mem_append.mp hd with hd | hd
        · exact hascii d hd
        · exact hrestAscii d hd
  obtain ⟨hlength, hascii⟩ := hflat s.toList hs
  unfold Json.renderString
  refine ⟨?_, fun c hc => ?_⟩
  · rw [List.length_cons, List.length_append, List.length_singleton]
    omega
  · rcases List.mem_cons.mp hc with rfl | hc
    · decide
    · rcases List.mem_append.mp hc with hc | hc
      · exact hascii c hc
      · rw [List.mem_singleton.mp hc]
        decide

theorem decodeCursor_encodeCursor (laws : CursorLaws P C) {createdAt id : String} {t : DateTime}
    (ht : t.FourDigitYear) (hcreated : createdAt = t.toRfc3339Millis) (hid : isUuid id = true) :
    decodeCursor P C (encodeCursor C createdAt id) = .ok (createdAt, id) := by
  obtain ⟨hcreatedLength, hcreatedAscii⟩ := length_toRfc3339Millis ht
  rw [← hcreated] at hcreatedLength hcreatedAscii
  obtain ⟨hidLength, hidAscii⟩ := isAscii_of_isUuid hid
  obtain ⟨hfirst, hfirstAscii⟩ := length_renderString hcreatedAscii
  obtain ⟨hsecond, hsecondAscii⟩ := length_renderString hidAscii
  have htext : (Json.arr [.str createdAt, .str id]).render =
      '[' :: (Json.renderString createdAt ++ ',' :: (Json.renderString id ++ [']'])) := by
    simp only [Json.render, Json.renderItems]
  have hascii : ∀ c ∈ (Json.arr [.str createdAt, .str id]).text.toList, Text.isAscii c = true := by
    unfold Json.text
    rw [String.toList_ofList, htext]
    intro c hc
    simp only [List.mem_cons, List.mem_append, List.not_mem_nil, or_false] at hc
    rcases hc with rfl | hc | rfl | hc | rfl
    · decide
    · exact hfirstAscii c hc
    · decide
    · exact hsecondAscii c hc
    · decide
  have hbytes : (Json.arr [.str createdAt, .str id]).text.toUTF8.toList.length ≤ 367 := by
    rw [Text.length_toUTF8, Text.utf8ByteSize_of_ascii hascii]
    unfold Json.text
    rw [String.toList_ofList, htext]
    simp only [List.length_cons, List.length_append, List.length_nil]
    omega
  have hsize := laws.size (Json.arr [.str createdAt, .str id]).text.toUTF8.toList
  have hparse : DateTime.parseFromRfc3339 createdAt ≠ none := by
    rw [hcreated, DateTime.parse_toRfc3339Millis t ht]
    exact Option.some_ne_none _
  have hsmall : ¬ 512 < (encodeCursor C createdAt id).utf8ByteSize := by
    unfold encodeCursor
    omega
  unfold decodeCursor
  dsimp only
  rw [refuseIf_neg hsmall]
  unfold encodeCursor
  rw [laws.urlSafe]
  simp only [orElse, laws.pair, bind_eq_ok, refuseIf_eq_ok, pure_eq_ok, Except.ok.injEq,
    exists_eq_left', exists_const, and_true]
  refine ⟨trivial, hparse, ?_⟩
  rw [laws.uuid id hid]
  exact Bool.true_eq_false_eq_False

/-! ## A page as it is answered -/

variable (P C) in
/-- What `list_requests_for_device` does for the user of the device it has read. -/
def listRequestsForUser (userId : String) (env : Env) (query : ListRequestsForDevice) :
    Sql RequestPage := do
  let cutoff :=
    ((env.now 0).plusSeconds (-(max query.retentionDays 1 * 86400))).toRfc3339Millis
  let cursor ← Prog.lift (match query.before with
    | some value => some <$> decodeCursor P C value
    | none => .ok none)
  let handledLimit := (max 0 (min 500 query.handledLimit)).toNat
  Prog.beginTx
  let rows ← Prog.query (pageRows userId cutoff query cursor
    (if 0 < handledLimit then handledLimit + 1 else 0))
  let page := cutPage C handledLimit rows
  let requests ← rowsToRequests P (page.1.map Prod.snd)
  Prog.commitTx
  pure ⟨requests.map fun r => projectRequestForUser r userId, page.2⟩

theorem listRequestsForDevice_eq (env : Env) (query : ListRequestsForDevice) :
    listRequestsForDevice P C env query =
      getDevice P query.deviceId >>= fun device => listRequestsForUser P C device.userId env query := rfl

/-- Handled rows older than this are past their retention. -/
def retentionCutoff (env : Env) (query : ListRequestsForDevice) : String :=
  ((env.now 0).plusSeconds (-(max query.retentionDays 1 * 86400))).toRfc3339Millis

theorem txOnly_rowsToRequests (rows : List RequestRow) : Prog.TxOnly (rowsToRequests P rows) := by
  unfold rowsToRequests
  refine Prog.txOnly_bind (Prog.txOnly_query _) fun _ => ?_
  refine Prog.txOnly_bind (Prog.txOnly_query _) fun _ => ?_
  refine Prog.txOnly_bind (Prog.txOnly_query _) fun _ => ?_
  exact Prog.txOnly_lift _

theorem transactional_listRequestsForUser (userId : String) (env : Env)
    (query : ListRequestsForDevice) :
    Prog.Transactional (listRequestsForUser P C userId env query) := by
  refine Prog.transactional_lift_bind fun cursor _ => ?_
  refine Prog.transactional_begin ?_
  refine Prog.committing_bind (Prog.txOnly_query _) fun rows => ?_
  refine Prog.committing_bind (txOnly_rowsToRequests _) fun requests => ?_
  exact Prog.committing_commitTx _

variable (C) in
/-- What a page at a decoded cursor shows. -/
structure PageShows (db : Db) (userId cutoff : String) (query : ListRequestsForDevice)
    (cursor : Option (String × String)) (L : Nat) (page : RequestPage) : Prop where
  ids : page.requests.map DecisionRequest.id =
    (pendingRows userId cutoff query cursor db ++
      (handledRows userId cutoff query cursor db).take L).map RequestRow.id
  history : (page.requests.filter fun r => r.status ≠ .pending).map DecisionRequest.historyKey =
    ((handledRows userId cutoff query cursor db).take L).map RequestRow.historyKey
  nextCursor : page.nextCursor =
    if L < (handledRows userId cutoff query cursor db).length then
      ((handledRows userId cutoff query cursor db).take L).getLast?.map fun r =>
        encodeCursor C r.createdAt r.id
    else none

/-- The rows of a page, and what reading them gives. -/
theorem eval_listRequestsForUser {userId : String} {env : Env} {query : ListRequestsForDevice}
    {L : Nat} (hL : query.handledLimit = L) (hlow : 1 ≤ L) (hhigh : L ≤ 500)
    {cursor : Option (String × String)}
    (hcursor : query.before = cursor.map fun c => encodeCursor C c.1 c.2)
    (hdecode : ∀ c ∈ cursor, decodeCursor P C (encodeCursor C c.1 c.2) = .ok c) (db : Db) :
    Prog.eval databaseError (listRequestsForUser P C userId env query) db =
      ((pendingRows userId (retentionCutoff env query) query cursor db ++
          (handledRows userId (retentionCutoff env query) query cursor db).take L).mapM fun row =>
        requestFromRows P row (db.relatedOf row.id)).map fun requests =>
          (⟨requests.map fun r => projectRequestForUser r userId,
            if L < (handledRows userId (retentionCutoff env query) query cursor db).length then
              ((handledRows userId (retentionCutoff env query) query cursor db).take L).getLast?.map
                fun r => encodeCursor C r.createdAt r.id
            else none⟩, db) := by
  have hlift : (match query.before with
      | some value => some <$> decodeCursor P C value
      | none => .ok none) = Except.ok cursor := by
    rw [hcursor]
    cases cursor with
    | none => rfl
    | some c =>
      rw [Option.map_some]
      dsimp only
      rw [hdecode c rfl]
      rfl
  have hlimit : (max 0 (min 500 query.handledLimit)).toNat = L := by omega
  have hrows : ∀ ps hs : List RequestRow,
      ((ps.map (true, ·) ++ hs.map (false, ·)).map Prod.snd : List RequestRow) = ps ++ hs := by
    intro ps hs
    rw [List.map_append, List.map_map, List.map_map]
    exact congrArg₂ _ (List.map_id ps) (List.map_id hs)
  unfold listRequestsForUser
  dsimp only
  rw [hlift, hlimit, if_pos (show 0 < L by omega)]
  simp only [Prog.lift_ok, Prog.ret_bind, Prog.eval_bind, Prog.eval_beginTx, Prog.eval_query,
    pageRows_eq, cutPage_eq C hlow, hrows, eval_rowsToRequests]
  unfold retentionCutoff
  cases (pendingRows userId _ query cursor db ++ (handledRows userId _ query cursor db).take L).mapM
    fun row => requestFromRows P row (db.relatedOf row.id) with
  | error e => rfl
  | ok requests => rfl

/-- A row that a page shows is stored, and its user is one of its recipients. -/
theorem shown_of_mem {userId cutoff : String} {query : ListRequestsForDevice}
    {cursor : Option (String × String)} {L : Nat} {db : Db} {row : RequestRow}
    (h : row ∈ pendingRows userId cutoff query cursor db ++
      (handledRows userId cutoff query cursor db).take L) :
    row ∈ db.requests.rows ∧ (db.recipients.get? (row.id, userId)).isSome = true := by
  have hvisible : row ∈ db.requests.rows ∧ isVisible userId cutoff query db row = true := by
    rcases List.mem_append.mp h with h | h
    · obtain ⟨hrow, hvisible, -⟩ := mem_pendingRows.mp h
      exact ⟨hrow, hvisible⟩
    · obtain ⟨hrow, hvisible, -⟩ := mem_handledRows.mp (List.mem_of_mem_take h)
      exact ⟨hrow, hvisible⟩
  obtain ⟨hrow, hvisible⟩ := hvisible
  unfold isVisible at hvisible
  simp only [Bool.and_eq_true] at hvisible
  exact ⟨hrow, hvisible.1.1.1.1.1⟩

/-- A projection keeps what a request is ordered by. -/
theorem projected_keys (r : DecisionRequest) (userId : String) :
    (projectRequestForUser r userId).id = r.id ∧
      (projectRequestForUser r userId).historyKey = r.historyKey := by
  unfold projectRequestForUser DecisionRequest.historyKey
  dsimp only
  split
  · split
    · exact ⟨rfl, rfl⟩
    · split
      · exact ⟨rfl, rfl⟩
      · exact ⟨rfl, rfl⟩
  · exact ⟨rfl, rfl⟩

section Answered

variable {userId : String} {env : Env} {query : ListRequestsForDevice} {L : Nat}
  {cursor : Option (String × String)} {db : Db} {page : RequestPage}

theorem pageShows_of_eval (hdb : WellFormed P db) (hL : query.handledLimit = L) (hlow : 1 ≤ L)
    (hhigh : L ≤ 500) (hcursor : query.before = cursor.map fun c => encodeCursor C c.1 c.2)
    (hdecode : ∀ c ∈ cursor, decodeCursor P C (encodeCursor C c.1 c.2) = .ok c) {db' : Db}
    (h : Prog.eval databaseError (listRequestsForUser P C userId env query) db = .ok (page, db')) :
    db' = db ∧ PageShows C db userId (retentionCutoff env query) query cursor L page := by
  rw [eval_listRequestsForUser hL hlow hhigh hcursor hdecode] at h
  obtain ⟨requests, hrequests, hpage⟩ := map_eq_ok.mp h
  cases hpage
  have hreads : ∀ row ∈ pendingRows userId (retentionCutoff env query) query cursor db ++
      (handledRows userId (retentionCutoff env query) query cursor db).take L,
      ∀ r, requestFromRows P row (db.relatedOf row.id) = .ok r →
        (projectRequestForUser r userId).id = row.id ∧
          (decide ((projectRequestForUser r userId).status ≠ .pending) =
              !isPendingFor userId db row ∧
            (projectRequestForUser r userId).historyKey = row.historyKey) := by
    intro row hrow r hr
    obtain ⟨hstored, hrecipient⟩ := shown_of_mem hrow
    obtain ⟨version, digest, hreads⟩ := (requestFromRows_eq_ok P).mp hr
    have hstatus := status_projected hdb hstored hrecipient hreads
    have hpending : (projectRequestForUser r userId).id = r.id ∧
        (projectRequestForUser r userId).historyKey = r.historyKey := projected_keys r userId
    refine ⟨hpending.1.trans hreads.id, ?_, ?_⟩
    · rw [Bool.eq_iff_iff, decide_eq_true_eq, Bool.not_eq_true', ne_eq, hstatus, Bool.not_eq_true]
    · exact hpending.2.trans (historyKey_of_reads hdb hstored hreads)
  refine ⟨rfl, ?_, ?_, rfl⟩
  · have hids := filter_map_mapM (p := fun _ => true) (q := fun _ => true)
      (g := fun r => (projectRequestForUser r userId).id) hrequests fun row hrow r hr =>
        ⟨rfl, (hreads row hrow r hr).1⟩
    rw [List.filter_true, List.filter_true] at hids
    rw [List.map_map]
    exact hids
  · have hhistory := filter_map_mapM (g := fun r => (projectRequestForUser r userId).historyKey)
      (p := fun r => decide ((projectRequestForUser r userId).status ≠ .pending)) hrequests
      fun row hrow r hr => (hreads row hrow r hr).2
    have hflags : (pendingRows userId (retentionCutoff env query) query cursor db ++
        (handledRows userId (retentionCutoff env query) query cursor db).take L).filter
          (fun row => !isPendingFor userId db row) =
        (handledRows userId (retentionCutoff env query) query cursor db).take L := by
      rw [List.filter_append, List.filter_eq_nil_iff.mpr, List.nil_append, List.filter_eq_self]
      · intro row hrow
        rw [(mem_handledRows.mp (List.mem_of_mem_take hrow)).2.2.1]
        rfl
      · intro row hrow hnot
        rw [(mem_pendingRows.mp hrow).2.2.1] at hnot
        cases hnot
    rw [hflags] at hhistory
    rw [List.filter_map, List.map_map]
    exact hhistory

/-- Stored requests can all be answered. -/
theorem exists_page (hl : Legible P db) (hL : query.handledLimit = L) (hlow : 1 ≤ L)
    (hhigh : L ≤ 500) (hcursor : query.before = cursor.map fun c => encodeCursor C c.1 c.2)
    (hdecode : ∀ c ∈ cursor, decodeCursor P C (encodeCursor C c.1 c.2) = .ok c) :
    ∃ page, Prog.eval databaseError (listRequestsForUser P C userId env query) db = .ok (page, db) := by
  rw [eval_listRequestsForUser hL hlow hhigh hcursor hdecode]
  have hread : ∀ row ∈ pendingRows userId (retentionCutoff env query) query cursor db ++
      (handledRows userId (retentionCutoff env query) query cursor db).take L,
      ∃ r, requestFromRows P row (db.relatedOf row.id) = .ok r := by
    intro row hrow
    obtain ⟨hstored, -⟩ := shown_of_mem hrow
    obtain ⟨r, hr⟩ := hl.reads row.id row (Table.get?_of_mem hstored)
    obtain ⟨row', version, digest, hrow', hreads⟩ := (readRequest_eq_ok P).mp hr
    rw [Table.get?_of_mem hstored] at hrow'
    cases hrow'
    exact ⟨r, (requestFromRows_eq_ok P).mpr ⟨version, digest, hreads⟩⟩
  obtain ⟨requests, hrequests⟩ := exists_mapM hread
  rw [hrequests]
  exact ⟨_, rfl⟩

end Answered

end Nod.Server
