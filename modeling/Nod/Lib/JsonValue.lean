import Nod.Lib.JsonRead
import Mathlib.Data.String.Basic
import Mathlib.Data.List.Perm.Subperm

/-
  JSON values rather than JSON texts: the keys of an object are distinct, and the order of its
  members says nothing.
  Proved: sorting picks one tree of each value (`same_iff`), it is idempotent (`sorted_sorted`), and
  moving members about at any depth keeps the value (`Reordered.same`).
-/

namespace Lib.Json

/-! ## Distinct keys -/

mutual
/-- The keys of every object are distinct. -/
def DistinctKeys : Json → Prop
  | arr vs => DistinctKeysItems vs
  | obj ms => (ms.map Prod.fst).Nodup ∧ DistinctKeysMembers ms
  | _ => True

def DistinctKeysItems : List Json → Prop
  | [] => True
  | v :: vs => DistinctKeys v ∧ DistinctKeysItems vs

def DistinctKeysMembers : List (String × Json) → Prop
  | [] => True
  | (_, v) :: ms => DistinctKeys v ∧ DistinctKeysMembers ms
end

theorem distinctKeysItems_iff (vs : List Json) :
    DistinctKeysItems vs ↔ ∀ v ∈ vs, DistinctKeys v := by
  induction vs with
  | nil => simp [DistinctKeysItems]
  | cons v vs ih => simp [DistinctKeysItems, ih]

theorem distinctKeysMembers_iff (ms : List (String × Json)) :
    DistinctKeysMembers ms ↔ ∀ m ∈ ms, DistinctKeys m.2 := by
  induction ms with
  | nil => simp [DistinctKeysMembers]
  | cons m ms ih => simp [DistinctKeysMembers, ih]

/-- A value: a tree whose objects have distinct keys. -/
structure Value where
  json : Json
  distinct : json.DistinctKeys

/-! ## Equality of values -/

mutual
/-- Equality of values: arrays item by item, objects key by key. -/
def same : Json → Json → Bool
  | null, null => true
  | bool a, bool b => a == b
  | num m, num n => m == n
  | float s, float t => s == t
  | str s, str t => s == t
  | arr vs, arr ws => sameItems vs ws
  | obj ms, obj ns => ms.length == ns.length && sameMembers ms ns
  | _, _ => false

def sameItems : List Json → List Json → Bool
  | [], [] => true
  | v :: vs, w :: ws => same v w && sameItems vs ws
  | _, _ => false

/-- Each member has its equal under the same key. -/
def sameMembers : List (String × Json) → List (String × Json) → Bool
  | [], _ => true
  | (k, v) :: ms, ns =>
    (match lookup k ns with
      | some w => same v w
      | none => false) && sameMembers ms ns
end

/-! ## Members ordered by key -/

section Members

variable {α : Type}

/-- Keys in increasing order. -/
def KeysSorted (ms : List (String × α)) : Prop := (ms.map Prod.fst).Pairwise (· < ·)

theorem KeysSorted.nodup {ms : List (String × α)} (h : KeysSorted ms) :
    (ms.map Prod.fst).Nodup :=
  h.imp fun hlt => ne_of_lt hlt

theorem fst_insertMember {k a : String} {v : α} {ms : List (String × α)}
    (h : a ∈ (insertMember k v ms).map Prod.fst) : a = k ∨ a ∈ ms.map Prod.fst := by
  obtain ⟨m, hm, rfl⟩ := List.mem_map.mp h
  rcases mem_insertMember hm with rfl | hm
  · exact Or.inl rfl
  · exact Or.inr (List.mem_map_of_mem hm)

theorem keysSorted_insertMember (k : String) (v : α) {ms : List (String × α)}
    (h : KeysSorted ms) : KeysSorted (insertMember k v ms) := by
  induction ms with
  | nil => exact List.pairwise_singleton _ _
  | cons m ms ih =>
    obtain ⟨k', v'⟩ := m
    obtain ⟨hhead, htail⟩ := List.pairwise_cons.mp h
    rw [insertMember]
    by_cases heq : k = k'
    · subst heq
      rw [if_pos rfl]
      exact h
    · rw [if_neg heq]
      by_cases hlt : k < k'
      · rw [if_pos hlt]
        refine List.pairwise_cons.mpr ⟨?_, h⟩
        intro a ha
        rcases List.mem_cons.mp ha with rfl | ha
        · exact hlt
        · exact lt_trans hlt (hhead a ha)
      · rw [if_neg hlt]
        refine List.pairwise_cons.mpr ⟨?_, ih htail⟩
        intro a ha
        rcases fst_insertMember ha with rfl | ha
        · exact lt_of_le_of_ne (not_lt.mp hlt) (Ne.symm heq)
        · exact hhead a ha

theorem keysSorted_ofMembers (ms : List (String × α)) : KeysSorted (ofMembers ms) := by
  have hfold : ∀ (ms acc : List (String × α)), KeysSorted acc →
      KeysSorted (ms.foldl (fun acc m => insertMember m.1 m.2 acc) acc) := by
    intro ms
    induction ms with
    | nil => exact fun acc h => h
    | cons m ms ih => exact fun acc h => ih _ (keysSorted_insertMember m.1 m.2 h)
  exact hfold ms [] List.Pairwise.nil

theorem mem_of_lookup {k : String} {v : α} {ms : List (String × α)} (h : lookup k ms = some v) :
    (k, v) ∈ ms := by
  induction ms with
  | nil => cases h
  | cons m ms ih =>
    rw [lookup] at h
    split at h
    · rename_i hk
      rw [← Option.some.inj h, hk]
      exact List.mem_cons_self
    · exact List.mem_cons_of_mem _ (ih h)

theorem lookup_of_mem {m : String × α} {ms : List (String × α)} (hms : (ms.map Prod.fst).Nodup)
    (h : m ∈ ms) : lookup m.1 ms = some m.2 := by
  induction ms with
  | nil => cases h
  | cons n ms ih =>
    rw [List.map_cons, List.nodup_cons] at hms
    rw [lookup]
    rcases List.mem_cons.mp h with rfl | h
    · rw [if_pos rfl]
    · have hne : m.1 ≠ n.1 := by
        intro heq
        exact hms.1 (heq ▸ List.mem_map_of_mem h)
      rw [if_neg hne, ih hms.2 h]

theorem lookup_isSome_iff {k : String} {ms : List (String × α)} :
    (lookup k ms).isSome = true ↔ k ∈ ms.map Prod.fst := by
  constructor
  · intro h
    obtain ⟨v, hv⟩ := Option.isSome_iff_exists.mp h
    exact List.mem_map_of_mem (mem_of_lookup hv)
  · intro h
    by_contra hnone
    rw [Bool.not_eq_true, Option.isSome_eq_false_iff, Option.isNone_iff_eq_none] at hnone
    induction ms with
    | nil => exact absurd h List.not_mem_nil
    | cons m ms ih =>
      rw [lookup] at hnone
      split at hnone
      · cases hnone
      · rename_i hne
        rcases List.mem_cons.mp h with heq | h
        · exact hne heq
        · exact ih h hnone

/-- Members in key order are told by what stands under each key. -/
theorem eq_of_keysSorted {ms ns : List (String × α)} (hms : KeysSorted ms) (hns : KeysSorted ns)
    (h : ∀ k, lookup k ms = lookup k ns) : ms = ns := by
  have hmem : ∀ m, m ∈ ms ↔ m ∈ ns := by
    intro m
    constructor
    · intro hm
      exact mem_of_lookup ((h m.1).symm.trans (lookup_of_mem hms.nodup hm))
    · intro hm
      exact mem_of_lookup ((h m.1).trans (lookup_of_mem hns.nodup hm))
  have hperm : ms.Perm ns :=
    (List.perm_ext_iff_of_nodup (List.Nodup.of_map _ hms.nodup)
      (List.Nodup.of_map _ hns.nodup)).mpr hmem
  have hanti : ∀ a b : String × α, a ∈ ms → b ∈ ns → a.1 < b.1 → b.1 < a.1 → a = b := by
    intro a b _ _ hab hba
    exact absurd hba (lt_asymm hab)
  exact hperm.eq_of_pairwise hanti (List.pairwise_map.mp hms) (List.pairwise_map.mp hns)

theorem ofMembers_eq_iff {ms ns : List (String × α)} (hms : (ms.map Prod.fst).Nodup)
    (hns : (ns.map Prod.fst).Nodup) :
    ofMembers ms = ofMembers ns ↔ ∀ k, lookup k ms = lookup k ns := by
  constructor
  · intro h k
    rw [← lookup_ofMembers k hms, h, lookup_ofMembers k hns]
  · intro h
    refine eq_of_keysSorted (keysSorted_ofMembers ms) (keysSorted_ofMembers ns) fun k => ?_
    rw [lookup_ofMembers k hms, lookup_ofMembers k hns, h k]

@[simp] theorem ofMembers_ofMembers (ms : List (String × α)) :
    ofMembers (ofMembers ms) = ofMembers ms := by
  have hsorted := keysSorted_ofMembers ms
  exact eq_of_keysSorted (keysSorted_ofMembers _) hsorted fun k => lookup_ofMembers k hsorted.nodup

theorem mem_ofMembers {m : String × α} {ms : List (String × α)} (hms : (ms.map Prod.fst).Nodup)
    (h : m ∈ ms) : m ∈ ofMembers ms :=
  mem_of_lookup ((lookup_ofMembers m.1 hms).trans (lookup_of_mem hms h))

end Members

/-! ## Sorting a value -/

theorem distinctKeys_sorted_obj {ms : List (String × Json)}
    (h : ∀ m ∈ ms, DistinctKeys (sorted m.2)) : DistinctKeys (sorted (obj ms)) := by
  refine ⟨(keysSorted_ofMembers _).nodup, (distinctKeysMembers_iff _).mpr fun m hm => ?_⟩
  have hm := mem_of_mem_ofMembers hm
  rw [sortedMembers_eq_map] at hm
  obtain ⟨n, hn, rfl⟩ := List.mem_map.mp hm
  exact h n hn

mutual
/-- Sorting leaves distinct keys: of two members of one key the later one stays. -/
theorem distinctKeys_sorted : ∀ v : Json, DistinctKeys (sorted v)
  | .null => trivial
  | .bool _ => trivial
  | .num _ => trivial
  | .float _ => trivial
  | .str _ => trivial
  | .arr vs => distinctKeysItems_sorted vs
  | .obj ms => distinctKeys_sorted_obj (distinctKeysMembers_sorted ms)

theorem distinctKeysItems_sorted : ∀ vs : List Json, DistinctKeysItems (sortedItems vs)
  | [] => trivial
  | v :: vs => ⟨distinctKeys_sorted v, distinctKeysItems_sorted vs⟩

theorem distinctKeysMembers_sorted :
    ∀ ms : List (String × Json), ∀ m ∈ ms, DistinctKeys (sorted m.2)
  | [] => fun _ hm => absurd hm List.not_mem_nil
  | (_, v) :: ms => List.forall_mem_cons.mpr
      ⟨distinctKeys_sorted v, distinctKeysMembers_sorted ms⟩
end

mutual
theorem sorted_sorted : ∀ v : Json, sorted (sorted v) = sorted v
  | .null => rfl
  | .bool _ => rfl
  | .num _ => rfl
  | .float _ => rfl
  | .str _ => rfl
  | .arr vs => by rw [sorted, sorted, sortedItems_sortedItems vs]
  | .obj ms => by
    rw [sorted, sorted, sortedMembers_eq_map (ofMembers _), ← ofMembers_map, ofMembers_ofMembers,
      ← sortedMembers_eq_map, sortedMembers_sortedMembers ms]

theorem sortedItems_sortedItems :
    ∀ vs : List Json, sortedItems (sortedItems vs) = sortedItems vs
  | [] => rfl
  | v :: vs => by
    rw [sortedItems, sortedItems, sorted_sorted v, sortedItems_sortedItems vs]

theorem sortedMembers_sortedMembers :
    ∀ ms : List (String × Json), sortedMembers (sortedMembers ms) = sortedMembers ms
  | [] => rfl
  | (k, v) :: ms => by
    rw [sortedMembers, sortedMembers, sorted_sorted v, sortedMembers_sortedMembers ms]
end

/-! ## Sorted trees and values -/

theorem sorted_obj_eq_iff {ms ns : List (String × Json)} (hms : (ms.map Prod.fst).Nodup)
    (hns : (ns.map Prod.fst).Nodup) :
    sorted (obj ms) = sorted (obj ns) ↔
      ∀ k, (lookup k ms).map sorted = (lookup k ns).map sorted := by
  rw [sorted, sorted, obj.injEq, ofMembers_eq_iff (by rwa [map_fst_sortedMembers])
    (by rwa [map_fst_sortedMembers])]
  simp only [lookup_sortedMembers]

/-- Objects of equally many members are equal once the members of one have their equals. -/
theorem lookup_eq_of_length {ms ns : List (String × Json)} (hms : (ms.map Prod.fst).Nodup)
    (hlen : ms.length = ns.length)
    (h : ∀ m ∈ ms, (lookup m.1 ns).map sorted = some (sorted m.2)) (k : String) :
    (lookup k ms).map sorted = (lookup k ns).map sorted := by
  have hsub : ms.map Prod.fst ⊆ ns.map Prod.fst := by
    intro a ha
    obtain ⟨m, hm, rfl⟩ := List.mem_map.mp ha
    obtain ⟨w, hw, -⟩ := Option.map_eq_some_iff.mp (h m hm)
    exact List.mem_map.mpr ⟨(m.1, w), mem_of_lookup hw, rfl⟩
  have hperm : (ms.map Prod.fst).Perm (ns.map Prod.fst) := by
    refine (List.subperm_of_subset hms hsub).perm_of_length_le ?_
    rw [List.length_map, List.length_map, hlen]
  cases hk : lookup k ms with
  | some v => exact (h (k, v) (mem_of_lookup hk)).symm
  | none =>
    cases hn : lookup k ns with
    | none => rfl
    | some w =>
      have hmem := hperm.symm.subset (List.mem_map_of_mem (mem_of_lookup hn))
      obtain ⟨m, hm, hmk⟩ := List.mem_map.mp hmem
      have hsome := lookup_of_mem hms hm
      rw [hmk, hk] at hsome
      cases hsome

mutual
/-- Values are equal when they sort to one tree. -/
theorem same_iff : ∀ v w : Json, DistinctKeys v → DistinctKeys w →
    (same v w = true ↔ sorted v = sorted w)
  | .null, w, _, _ => by cases w <;> simp [same, sorted]
  | .bool _, w, _, _ => by cases w <;> simp [same, sorted]
  | .num _, w, _, _ => by cases w <;> simp [same, sorted]
  | .float _, w, _, _ => by cases w <;> simp [same, sorted]
  | .str _, w, _, _ => by cases w <;> simp [same, sorted]
  | .arr vs, .arr ws, hv, hw => by
    rw [same, sorted, sorted, arr.injEq]
    exact sameItems_iff vs ws hv hw
  | .obj ms, .obj ns, hv, hw => by
    rw [same, Bool.and_eq_true, beq_iff_eq, sameMembers_iff ms ns hv.2 hw.2,
      sorted_obj_eq_iff hv.1 hw.1]
    constructor
    · intro h
      exact lookup_eq_of_length hv.1 h.1 h.2
    · intro h
      have hmembers : ∀ m ∈ ms, (lookup m.1 ns).map sorted = some (sorted m.2) := by
        intro m hm
        rw [← h, lookup_of_mem hv.1 hm, Option.map_some]
      have hkeys : ∀ a, a ∈ ms.map Prod.fst ↔ a ∈ ns.map Prod.fst := by
        intro a
        rw [← lookup_isSome_iff, ← lookup_isSome_iff, ← Option.isSome_map, h a, Option.isSome_map]
      have hlen := ((List.perm_ext_iff_of_nodup hv.1 hw.1).mpr hkeys).length_eq
      rw [List.length_map, List.length_map] at hlen
      exact ⟨hlen, hmembers⟩
  | .arr _, .null, _, _ => by simp [same, sorted]
  | .arr _, .bool _, _, _ => by simp [same, sorted]
  | .arr _, .num _, _, _ => by simp [same, sorted]
  | .arr _, .float _, _, _ => by simp [same, sorted]
  | .arr _, .str _, _, _ => by simp [same, sorted]
  | .arr _, .obj _, _, _ => by simp [same, sorted]
  | .obj _, .null, _, _ => by simp [same, sorted]
  | .obj _, .bool _, _, _ => by simp [same, sorted]
  | .obj _, .num _, _, _ => by simp [same, sorted]
  | .obj _, .float _, _, _ => by simp [same, sorted]
  | .obj _, .str _, _, _ => by simp [same, sorted]
  | .obj _, .arr _, _, _ => by simp [same, sorted]

theorem sameItems_iff : ∀ vs ws : List Json, DistinctKeysItems vs → DistinctKeysItems ws →
    (sameItems vs ws = true ↔ sortedItems vs = sortedItems ws)
  | [], [], _, _ => by simp [sameItems]
  | [], _ :: _, _, _ => by simp [sameItems, sortedItems]
  | _ :: _, [], _, _ => by simp [sameItems, sortedItems]
  | v :: vs, w :: ws, hv, hw => by
    rw [sameItems, Bool.and_eq_true, same_iff v w hv.1 hw.1, sameItems_iff vs ws hv.2 hw.2,
      sortedItems, sortedItems, List.cons.injEq]

theorem sameMembers_iff : ∀ ms ns : List (String × Json), DistinctKeysMembers ms →
    DistinctKeysMembers ns → (sameMembers ms ns = true ↔
      ∀ m ∈ ms, (lookup m.1 ns).map sorted = some (sorted m.2))
  | [], _, _, _ => by simp [sameMembers]
  | (k, v) :: ms, ns, hv, hw => by
    rw [sameMembers, Bool.and_eq_true, sameMembers_iff ms ns hv.2 hw, List.forall_mem_cons]
    refine and_congr ?_ Iff.rfl
    cases hk : lookup k ns with
    | none => simp
    | some w =>
      have hdistinct := (distinctKeysMembers_iff ns).mp hw (k, w) (mem_of_lookup hk)
      rw [Option.map_some, Option.some.injEq, @eq_comm _ (sorted w)]
      exact same_iff v w hv.1 hdistinct
end

/-! ## Moving members about -/

/-- The members of objects stand in another order, at any depth. -/
inductive Reordered : Json → Json → Prop
  | refl (v : Json) : Reordered v v
  | trans {u v w : Json} : Reordered u v → Reordered v w → Reordered u w
  | members {ms ns : List (String × Json)} : ms.Perm ns → Reordered (obj ms) (obj ns)
  | item (before after : List Json) {v w : Json} : Reordered v w →
      Reordered (arr (before ++ v :: after)) (arr (before ++ w :: after))
  | member (before after : List (String × Json)) (k : String) {v w : Json} : Reordered v w →
      Reordered (obj (before ++ (k, v) :: after)) (obj (before ++ (k, w) :: after))

/-- A tree with members moved about sorts to the same tree. -/
theorem Reordered.sorted_eq {v w : Json} (h : Reordered v w) :
    DistinctKeys v → DistinctKeys w ∧ sorted v = sorted w := by
  induction h with
  | refl v => exact fun hv => ⟨hv, rfl⟩
  | trans _ _ ih ih' =>
    intro hu
    obtain ⟨hv, huv⟩ := ih hu
    obtain ⟨hw, hvw⟩ := ih' hv
    exact ⟨hw, huv.trans hvw⟩
  | @members ms ns hperm =>
    intro hv
    have hkeys := hperm.map Prod.fst
    have hns : (ns.map Prod.fst).Nodup := hkeys.nodup_iff.mp hv.1
    refine ⟨⟨hns, (distinctKeysMembers_iff ns).mpr fun m hm =>
      (distinctKeysMembers_iff ms).mp hv.2 m (hperm.symm.subset hm)⟩, ?_⟩
    rw [sorted_obj_eq_iff hv.1 hns]
    intro k
    cases hk : lookup k ms with
    | some v => rw [lookup_of_mem hns (hperm.subset (mem_of_lookup hk))]
    | none =>
      cases hn : lookup k ns with
      | none => rfl
      | some w =>
        have hsome := lookup_of_mem hv.1 (hperm.symm.subset (mem_of_lookup hn))
        rw [hk] at hsome
        cases hsome
  | @item before after v w _ ih =>
    intro hv
    have hitems := (distinctKeysItems_iff _).mp hv
    obtain ⟨hw, heq⟩ := ih (hitems v (List.mem_append_right _ List.mem_cons_self))
    refine ⟨(distinctKeysItems_iff _).mpr fun u hu => ?_, ?_⟩
    · rcases List.mem_append.mp hu with hu | hu
      · exact hitems u (List.mem_append_left _ hu)
      · rcases List.mem_cons.mp hu with rfl | hu
        · exact hw
        · exact hitems u (List.mem_append_right _ (List.mem_cons_of_mem _ hu))
    · simp only [sorted, sortedItems_eq_map, List.map_append, List.map_cons, heq]
  | @member before after k v w _ ih =>
    intro hv
    have hmembers := (distinctKeysMembers_iff _).mp hv.2
    obtain ⟨hw, heq⟩ := ih (hmembers (k, v) (List.mem_append_right _ List.mem_cons_self))
    refine ⟨⟨?_, (distinctKeysMembers_iff _).mpr fun m hm => ?_⟩, ?_⟩
    · have hnodup := hv.1
      rwa [List.map_append, List.map_cons] at hnodup ⊢
    · rcases List.mem_append.mp hm with hm | hm
      · exact hmembers m (List.mem_append_left _ hm)
      · rcases List.mem_cons.mp hm with rfl | hm
        · exact hw
        · exact hmembers m (List.mem_append_right _ (List.mem_cons_of_mem _ hm))
    · simp only [sorted, sortedMembers_eq_map, List.map_append, List.map_cons, heq]

theorem Reordered.same {v w : Value} (h : Reordered v.json w.json) :
    same v.json w.json = true :=
  (same_iff _ _ v.distinct w.distinct).mpr (h.sorted_eq v.distinct).2

end Lib.Json
