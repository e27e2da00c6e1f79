import Nod.Lib.JsonValue
import Nod.Proto.ValueSigning

/-
  The canonical writer on any JSON value, not only on the trees of the wire types. It writes the
  sorted tree, so the order of members at any depth is lost and nothing else is.
  Proved: it succeeds on a value with no floating-point number and ASCII keys only, and on no other
  (`canonicalValueJson_eq_ok`); its text reads back as the value, equal values share it and
  distinct ones do not (`canonicalJson`).
-/

namespace Nod.Proto

open Lib

namespace Canonical

theorem writeMembers_eq_map (ms : List (String × Json)) :
    writeMembers ms = ms.map fun m => (m.1, write m.2) := by
  induction ms with
  | nil => rfl
  | cons m ms ih => rw [writeMembers, ih, List.map_cons]

/-! ## The writer sees the sorted tree -/

mutual
theorem write_sorted : ∀ v : Json, write v.sorted = write v
  | .null => rfl
  | .bool _ => rfl
  | .num _ => rfl
  | .float _ => rfl
  | .str _ => rfl
  | .arr vs => by rw [Json.sorted, write, write, writeItems_sorted vs]
  | .obj ms => by
    rw [Json.sorted, write, write, writeMembers_eq_map (Json.ofMembers _), ← Json.ofMembers_map,
      Json.ofMembers_ofMembers, ← writeMembers_eq_map, writeMembers_sorted ms]

theorem writeItems_sorted : ∀ vs : List Json, writeItems (Json.sortedItems vs) = writeItems vs
  | [] => rfl
  | v :: vs => by
    rw [Json.sortedItems, writeItems, writeItems, write_sorted v, writeItems_sorted vs]

theorem writeMembers_sorted :
    ∀ ms : List (String × Json), writeMembers (Json.sortedMembers ms) = writeMembers ms
  | [] => rfl
  | (k, v) :: ms => by
    rw [Json.sortedMembers, writeMembers, writeMembers, write_sorted v, writeMembers_sorted ms]
end

/-! ## When the writer succeeds -/

theorem of_joinMembers {ms : List (String × Except String (List Char))} {texts : List (List Char)}
    (h : joinMembers ms = .ok texts) :
    ∀ m ∈ ms, m.1.toList.all Text.isAscii = true ∧ ∃ cs, m.2 = .ok cs := by
  induction ms generalizing texts with
  | nil => exact fun _ hm => absurd hm List.not_mem_nil
  | cons m ms ih =>
    obtain ⟨k, v⟩ := m
    simp only [joinMembers, bind_eq_ok, refuseIf_eq_ok] at h
    obtain ⟨_, hkey, cs, hv, rest, hrest, -⟩ := h
    exact List.forall_mem_cons.mpr ⟨⟨Bool.not_eq_false _ ▸ hkey, cs, hv⟩, ih hrest⟩

mutual
theorem plain_of_write : ∀ (v : Json) (cs : List Char), v.DistinctKeys → write v = .ok cs → Plain v
  | .null, _, _, _ => plain_null
  | .bool b, _, _, _ => plain_bool b
  | .num _, _, _, _ => ⟨trivial, trivial⟩
  | .float _, _, _, h => by cases h
  | .str s, _, _, _ => plain_str s
  | .arr vs, _, hv, h => by
    simp only [write, bind_eq_ok] at h
    obtain ⟨texts, htexts, -⟩ := h
    exact plain_of_writeItems vs texts hv htexts
  | .obj ms, _, hv, h => by
    simp only [write, bind_eq_ok] at h
    obtain ⟨texts, htexts, -⟩ := h
    refine plain_of_writeMembers ms hv.2 fun m hm => ?_
    have hkeys : ((writeMembers ms).map Prod.fst).Nodup := by
      rw [writeMembers_eq_map, List.map_map]
      exact hv.1
    exact of_joinMembers htexts m (Json.mem_ofMembers hkeys hm)

theorem plain_of_writeItems : ∀ (vs : List Json) (texts : List (List Char)),
    Json.DistinctKeysItems vs → writeItems vs = .ok texts → Plain (.arr vs)
  | [], _, _, _ => ⟨trivial, trivial⟩
  | v :: vs, _, hv, h => by
    simp only [writeItems, bind_eq_ok] at h
    obtain ⟨cs, hcs, texts, htexts, -⟩ := h
    have hhead := plain_of_write v cs hv.1 hcs
    have htail := plain_of_writeItems vs texts hv.2 htexts
    exact ⟨⟨hhead.1, htail.1⟩, ⟨hhead.2, htail.2⟩⟩

theorem plain_of_writeMembers : ∀ ms : List (String × Json), Json.DistinctKeysMembers ms →
    (∀ m ∈ writeMembers ms, m.1.toList.all Text.isAscii = true ∧ ∃ cs, m.2 = .ok cs) →
      Plain (.obj ms)
  | [], _, _ => plain_obj_nil
  | (k, v) :: ms, hv, h => by
    rw [writeMembers, List.forall_mem_cons] at h
    obtain ⟨⟨hkey, cs, hcs⟩, hrest⟩ := h
    exact plain_obj_cons hkey (plain_of_write v cs hv.1 hcs)
      (plain_of_writeMembers ms hv.2 hrest)
end

end Canonical

/-- The canonical text of a plain value is the text of its sorted tree; no other value has one. -/
theorem canonicalValueJson_eq_ok {v : Json.Value} {s : String} :
    canonicalValueJson v.json = .ok s ↔ Plain v.json ∧ v.json.sorted.text = s := by
  constructor
  · intro h
    have hplain : Plain v.json := by
      simp only [canonicalValueJson, bind_eq_ok] at h
      obtain ⟨cs, hcs, -⟩ := h
      exact Canonical.plain_of_write v.json cs v.distinct hcs
    rw [canonicalValueJson_eq hplain.2 hplain.1] at h
    exact ⟨hplain, Except.ok.inj h⟩
  · intro h
    rw [canonicalValueJson_eq h.1.2 h.1.1, h.2]

/-! ## One text for each value -/

/-- What the canonical text of a value is good for. -/
structure CanonicalJson (v : Json.Value) : Prop where
  refused : (∃ message, canonicalValueJson v.json = .error message) ↔
    ¬ v.json.FloatFree ∨ ¬ Canonical.AsciiKeys v.json
  reads_back : ∀ s, canonicalValueJson v.json = .ok s →
    ∃ w : Json.Value, Json.parse s = some w.json ∧ Json.same v.json w.json = true
  reordered : ∀ w : Json.Value, Json.Reordered v.json w.json →
    canonicalValueJson w.json = canonicalValueJson v.json
  equal : ∀ w : Json.Value, Json.same v.json w.json = true →
    canonicalValueJson w.json = canonicalValueJson v.json
  distinct : ∀ (w : Json.Value) s, canonicalValueJson v.json = .ok s →
    canonicalValueJson w.json = .ok s → Json.same v.json w.json = true

theorem canonicalJson (v : Json.Value) : CanonicalJson v := by
  have hequal : ∀ w : Json.Value, Json.same v.json w.json = true →
      canonicalValueJson w.json = canonicalValueJson v.json := by
    intro w h
    have hsorted := (Json.same_iff _ _ v.distinct w.distinct).mp h
    unfold canonicalValueJson
    rw [← Canonical.write_sorted w.json, ← hsorted, Canonical.write_sorted]
  refine ⟨?_, ?_, fun w h => hequal w (Json.Reordered.same h), hequal, ?_⟩
  · rw [← not_and_or]
    constructor
    · intro h hplain
      obtain ⟨message, hmessage⟩ := h
      rw [canonicalValueJson_eq hplain.2 hplain.1] at hmessage
      cases hmessage
    · intro h
      cases hwritten : canonicalValueJson v.json with
      | error message => exact ⟨message, rfl⟩
      | ok s => exact absurd (canonicalValueJson_eq_ok.mp hwritten).1 h
  · intro s h
    obtain ⟨hplain, rfl⟩ := canonicalValueJson_eq_ok.mp h
    refine ⟨⟨v.json.sorted, Json.distinctKeys_sorted v.json⟩,
      Json.parse_text _ (Json.floatFree_sorted _ hplain.1), ?_⟩
    rw [Json.same_iff _ _ v.distinct (Json.distinctKeys_sorted v.json), Json.sorted_sorted]
  · intro w s hv hw
    obtain ⟨hvplain, rfl⟩ := canonicalValueJson_eq_ok.mp hv
    obtain ⟨hwplain, htext⟩ := canonicalValueJson_eq_ok.mp hw
    have hsorted := Json.text_inj (Json.floatFree_sorted _ hwplain.1)
      (Json.floatFree_sorted _ hvplain.1) htext
    exact (Json.same_iff _ _ v.distinct w.distinct).mpr hsorted.symm

/-- Member order goes, control characters are escaped, other letters stand as they are. -/
example : (canonicalValueJson (.obj [("z", .arr [.obj [("y", .str "é/"), ("a", .str "\n")]]),
    ("a", .null)])).toOption = some "\x7b\"a\":null,\"z\":[\x7b\"a\":\"\\n\",\"y\":\"é/\"\x7d]\x7d" := by
  decide

end Nod.Proto
