import Nod.Lib.OrdMap

/-
  Counts kept beside an ordered map. `countWhere p m` is the number of entries of `m` whose
  value satisfies `p`; a tally is a map from keys to positive counts that is patched by
  `increment` and `decrement`. `IsTally counts n` says that a tally holds exactly the non-zero
  values of `n`; both patches keep it, at the function they change.
-/

namespace Lib

open Std

variable {α β : Type} [Ord α] [TransOrd α]

namespace Tally

section Count

/-- The entries of the map whose value satisfies `p`. -/
def countWhere (p : β → Bool) (m : ExtTreeMap α β) : Nat :=
  (m.filter fun _ v => p v).size

theorem filter_insert [LawfulEqOrd α] (p : β → Bool) (m : ExtTreeMap α β) (k : α) (v : β) :
    (m.insert k v).filter (fun _ v => p v) =
      if p v then (m.filter fun _ v => p v).insert k v
      else (m.filter fun _ v => p v).erase k := by
  ext k' v'
  by_cases hk : k = k'
  · subst hk
    cases hp : p v
    · simp
      rintro rfl
      exact hp
    · simp
      rintro rfl
      exact hp
  · cases p v <;> simp [ExtTreeMap.getElem?_insert, ExtTreeMap.getElem?_erase, hk]

/-- Whether the map holds an entry at `k` that counts. -/
def counted (p : β → Bool) (m : ExtTreeMap α β) (k : α) : Bool :=
  m[k]?.any p

theorem contains_filter [LawfulEqOrd α] (p : β → Bool) (m : ExtTreeMap α β) (k : α) :
    (m.filter fun _ v => p v).contains k = counted p m k := by
  rw [ExtTreeMap.contains_eq_isSome_getElem?, ExtTreeMap.getElem?_filter']
  unfold counted
  cases m[k]? with
  | none => rfl
  | some v => cases hp : p v <;> simp [hp]

theorem countWhere_insert [LawfulEqOrd α] (p : β → Bool) (m : ExtTreeMap α β) (k : α) (v : β) :
    countWhere p (m.insert k v) + (if counted p m k then 1 else 0) =
      countWhere p m + (if p v then 1 else 0) := by
  have hpos : counted p m k = true → 0 < countWhere p m := by
    intro h
    rw [← contains_filter, ExtTreeMap.contains_iff_mem] at h
    exact Nat.pos_of_ne_zero fun h0 => by
      have := ExtTreeMap.eq_empty_iff_size_eq_zero.mpr h0
      rw [this] at h
      exact absurd h ExtTreeMap.not_mem_empty
  unfold countWhere at hpos ⊢
  rw [filter_insert]
  cases hp : p v <;> cases hc : counted p m k <;>
    simp only [Bool.false_eq_true, ↓reduceIte, ExtTreeMap.size_insert, ExtTreeMap.size_erase,
      contains_filter, hc]
  have := hpos hc
  omega

omit [TransOrd α] in
@[simp] theorem countWhere_empty (p : β → Bool) : countWhere p (∅ : ExtTreeMap α β) = 0 := by
  rfl

theorem countWhere_eq_countP (p : β → Bool) (m : ExtTreeMap α β) :
    countWhere p m = (OrdMap.values m).countP p := by
  unfold countWhere OrdMap.values
  rw [← ExtTreeMap.length_toList, ExtTreeMap.toList_filter, List.countP_map,
    List.countP_eq_length_filter]
  rfl

end Count

section Patch

def increment (counts : ExtTreeMap α Nat) (k : α) : ExtTreeMap α Nat :=
  counts.insert k (counts[k]?.getD 0 + 1)

/-- Counts never go below zero; a count that reaches zero leaves the map. -/
def decrement (counts : ExtTreeMap α Nat) (k : α) : ExtTreeMap α Nat :=
  (counts.modify k (· - 1)).filter fun _ n => 0 < n

/-- The map holds the non-zero values of `n`. -/
def IsTally (counts : ExtTreeMap α Nat) (n : α → Nat) : Prop :=
  ∀ k, counts[k]? = if n k = 0 then none else some (n k)

variable {counts : ExtTreeMap α Nat} {n : α → Nat} [LawfulEqOrd α] [DecidableEq α]

omit [LawfulEqOrd α] [DecidableEq α] in
theorem isTally_empty : IsTally (∅ : ExtTreeMap α Nat) fun _ => 0 :=
  fun _ => ExtTreeMap.getElem?_empty

omit [LawfulEqOrd α] [DecidableEq α] in
theorem IsTally.getD (h : IsTally counts n) (k : α) : counts[k]?.getD 0 = n k := by
  rw [h k]
  split
  · exact (Eq.symm ‹_›)
  · rfl

omit [LawfulEqOrd α] [DecidableEq α] in
theorem IsTally.congr {n' : α → Nat} (h : IsTally counts n) (hn : ∀ k, n k = n' k) :
    IsTally counts n' := by
  intro k
  rw [h k, hn k]

theorem IsTally.increment (h : IsTally counts n) (k : α) :
    IsTally (increment counts k) fun k' => n k' + if k' = k then 1 else 0 := by
  intro k'
  show _ = if n k' + (if k' = k then 1 else 0) = 0 then none
    else some (n k' + if k' = k then 1 else 0)
  unfold Tally.increment
  rw [ExtTreeMap.getElem?_insert, h.getD k]
  by_cases hk : k' = k
  · subst hk
    rw [if_pos ReflCmp.compare_self, if_pos rfl, if_neg (Nat.succ_ne_zero _)]
  · have hne : compare k k' ≠ .eq := fun he => hk (LawfulEqCmp.eq_of_compare he).symm
    rw [if_neg hne, if_neg hk, h k', Nat.add_zero]

theorem IsTally.decrement (h : IsTally counts n) (k : α) :
    IsTally (decrement counts k) fun k' => n k' - if k' = k then 1 else 0 := by
  intro k'
  show _ = if n k' - (if k' = k then 1 else 0) = 0 then none
    else some (n k' - if k' = k then 1 else 0)
  unfold Tally.decrement
  rw [ExtTreeMap.getElem?_filter', ExtTreeMap.getElem?_modify]
  by_cases hk : k' = k
  · subst hk
    rw [if_pos ReflCmp.compare_self, if_pos rfl, h k']
    by_cases h0 : n k' = 0
    · simp [h0]
    · rw [if_neg h0]
      by_cases h1 : n k' - 1 = 0
      · simp [h1]
      · simp [h1, Nat.pos_of_ne_zero h1]
  · have hne : compare k k' ≠ .eq := fun he => hk (LawfulEqCmp.eq_of_compare he).symm
    rw [if_neg hne, if_neg hk, h k', Nat.sub_zero]
    by_cases h0 : n k' = 0
    · simp [h0]
    · simp [h0, Nat.pos_of_ne_zero h0]

/-- Counting a list from nothing, key by key. -/
theorem isTally_foldl {δ : Type} (f : δ → α) (l : List δ)
    (h : IsTally counts n) :
    IsTally (l.foldl (fun counts d => Tally.increment counts (f d)) counts)
      fun k => n k + l.countP fun d => f d = k := by
  induction l generalizing counts n with
  | nil => exact h.congr fun _ => rfl
  | cons d l ih =>
    refine (ih (h.increment (f d))).congr fun k => ?_
    rw [List.countP_cons]
    by_cases hk : f d = k
    · subst hk
      simp only [↓reduceIte, decide_true]
      omega
    · have hk' : ¬ k = f d := fun he => hk he.symm
      simp only [hk, hk', ↓reduceIte, decide_false, Bool.false_eq_true, Nat.add_zero]

end Patch

end Tally

end Lib
