import Mathlib.Data.List.Induction
import Std.Data.ExtTreeMap

/-
  Facts about ordered maps beyond the standard ones: the values in key order, the map indexed
  from a list of pairs, and a fold that patches a map with entries of another one, each at its
  own key.
-/

namespace Lib.OrdMap

open Std

variable {α β : Type} [Ord α] [TransOrd α]

/-- The values in key order. -/
def values (m : ExtTreeMap α β) : List β :=
  m.toList.map Prod.snd

theorem mem_values [LawfulEqOrd α] {m : ExtTreeMap α β} {v : β} :
    v ∈ values m ↔ ∃ k : α, m[k]? = some v := by
  unfold values
  simp only [List.mem_map, Prod.exists, ExtTreeMap.mem_toList_iff_getElem?_eq_some,
    exists_eq_right]

variable [LawfulEqOrd α]

omit [TransOrd α] in
theorem compare_ne {a b : α} (h : a ≠ b) : compare a b ≠ .eq :=
  fun he => h (LawfulEqCmp.eq_of_compare he)

theorem getElem?_insert_of_ne {m : ExtTreeMap α β} {a k : α} {v : β} (h : k ≠ a) :
    (m.insert k v)[a]? = m[a]? := by
  rw [ExtTreeMap.getElem?_insert, if_neg (compare_ne h)]

theorem getElem?_erase_of_ne {m : ExtTreeMap α β} {a k : α} (h : k ≠ a) :
    (m.erase k)[a]? = m[a]? := by
  rw [ExtTreeMap.getElem?_erase, if_neg (compare_ne h)]

omit [LawfulEqOrd α] in
theorem ofList_concat (l : List (α × β)) (p : α × β) :
    (ExtTreeMap.ofList (l ++ [p]) : ExtTreeMap α β) = (ExtTreeMap.ofList l).insert p.1 p.2 := by
  rw [ExtTreeMap.ofList_eq_foldl, ExtTreeMap.ofList_eq_foldl, List.foldl_append]
  rfl

/-- The last pair listed for a key is the one indexed. -/
theorem mem_of_getElem?_ofList {l : List (α × β)} {k : α} {v : β}
    (h : (ExtTreeMap.ofList l : ExtTreeMap α β)[k]? = some v) : (k, v) ∈ l := by
  induction l using List.reverseRecOn with
  | nil => simp at h
  | append_singleton l p ih =>
    rw [ofList_concat, ExtTreeMap.getElem?_insert] at h
    by_cases hk : compare p.1 k = .eq
    · rw [if_pos hk] at h
      have hp : p = (k, v) := Prod.ext (LawfulEqCmp.eq_of_compare hk) (Option.some.inj h)
      exact List.mem_append_right l (List.mem_singleton.mpr hp.symm)
    · rw [if_neg hk] at h
      exact List.mem_append_left _ (ih h)

theorem getElem?_ofList_iff {l : List (α × β)} {k : α} {v : β} (h : (l.map Prod.fst).Nodup) :
    (ExtTreeMap.ofList l : ExtTreeMap α β)[k]? = some v ↔ (k, v) ∈ l := by
  refine ⟨mem_of_getElem?_ofList, fun hmem => ?_⟩
  refine ExtTreeMap.getElem?_ofList_of_mem ReflCmp.compare_self ?_ hmem
  exact (List.pairwise_map.mp h).imp fun hne he => hne (LawfulEqCmp.eq_of_compare he)


/-! ## Patching one map with the entries of another -/

section Patch

variable (keep : α → β → Option β → Bool)

/-- An entry is written where `keep` prefers it to what the patched map holds at its key. -/
def patchStep (m : ExtTreeMap α β) (k : α) (v : β) : ExtTreeMap α β :=
  if keep k v m[k]? then m.insert k v else m

theorem getElem?_patchStep_of_ne {m : ExtTreeMap α β} {a k : α} {v : β} (h : k ≠ a) :
    (patchStep keep m k v)[a]? = m[a]? := by
  unfold patchStep
  split
  · exact getElem?_insert_of_ne h
  · rfl

theorem getElem?_foldl_patch_of_notMem {a : α} (entries : List (α × β)) (m : ExtTreeMap α β)
    (h : ∀ p ∈ entries, p.1 ≠ a) :
    (entries.foldl (fun m p => patchStep keep m p.1 p.2) m)[a]? = m[a]? := by
  induction entries generalizing m with
  | nil => rfl
  | cons p rest ih =>
    rw [List.foldl_cons, ih _ fun q hq => h q (List.mem_cons_of_mem p hq)]
    exact getElem?_patchStep_of_ne keep (h p List.mem_cons_self)

theorem getElem?_foldl_patch_of_mem {a : α} {v : β} (entries : List (α × β))
    (m : ExtTreeMap α β) (hnodup : (entries.map Prod.fst).Nodup) (h : (a, v) ∈ entries) :
    (entries.foldl (fun m p => patchStep keep m p.1 p.2) m)[a]? =
      if keep a v m[a]? then some v else m[a]? := by
  induction entries generalizing m with
  | nil => exact absurd h List.not_mem_nil
  | cons p rest ih =>
    obtain ⟨hnot, hrest⟩ := List.nodup_cons.mp hnodup
    rw [List.foldl_cons]
    rcases List.mem_cons.mp h with rfl | hmem
    · rw [getElem?_foldl_patch_of_notMem keep rest _ fun q hq he =>
        hnot (List.mem_map.mpr ⟨q, hq, he⟩)]
      unfold patchStep
      split
      · exact ExtTreeMap.getElem?_insert_self
      · rfl
    · have hne : p.1 ≠ a := fun he => hnot (List.mem_map.mpr ⟨(a, v), hmem, he.symm⟩)
      rw [ih _ hrest hmem, getElem?_patchStep_of_ne keep hne]

/-- Every key of `source` decides for itself; the others keep what the base map has. -/
theorem getElem?_patch (source base : ExtTreeMap α β) (a : α) :
    (source.foldl (patchStep keep) base)[a]? =
      match source[a]? with
      | some v => if keep a v base[a]? then some v else base[a]?
      | none => base[a]? := by
  rw [ExtTreeMap.foldl_eq_foldl_toList]
  cases hs : source[a]? with
  | none =>
    refine getElem?_foldl_patch_of_notMem keep _ _ fun p hp he => ?_
    have hget := ExtTreeMap.mem_toList_iff_getElem?_eq_some.mp hp
    rw [he, hs] at hget
    cases hget
  | some v =>
    refine getElem?_foldl_patch_of_mem keep _ _ ?_
      (ExtTreeMap.mem_toList_iff_getElem?_eq_some.mpr hs)
    rw [ExtTreeMap.map_fst_toList_eq_keys]
    exact ExtTreeMap.nodup_keys

end Patch

end Lib.OrdMap
