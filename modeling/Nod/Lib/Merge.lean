import Nod.Lib.OrdMap
import Mathlib.Data.List.Count
import Mathlib.Data.List.Nodup
import Mathlib.Logic.Function.Basic

/-
  Three-way merges of keyed content, and several shells that share one store: each loads what is
  stored, edits its copy and saves it, and a save merges the copy with what is stored by then,
  against what the shell last loaded or saved.
  Proved: list and map merges are three-way at every key (`atKey_mergeList`,
  `getElem?_mergeMap`); a key that no save edits stays as it is stored (`kept_run`).
-/

namespace Lib.Merge

open Std

/-! ## The merge of one key -/

section ThreeWay

variable {κ σ : Type} (same : κ → σ → σ → Prop)

/-- A key that `ours` did not change from `base` is as stored, any other as in `ours`. -/
def ThreeWay (base ours stored result : σ) : Prop :=
  ∀ k, (same k base ours → same k result stored) ∧ (¬ same k base ours → same k result ours)

end ThreeWay

/-! ## Lists with keys -/

section Lists

variable {κ α : Type} [DecidableEq κ] (key : α → κ)

def atKey (k : κ) (l : List α) : List α := l.filter fun a => key a = k

/-- Remove what `ours` no longer has, then put what it added or changed at the end. -/
def mergeList [DecidableEq α] (base ours stored : List α) : List α :=
  let kept := (base.filter fun a => !ours.any fun b => key b = key a).foldl
    (fun stored removed => stored.filter fun a => key a ≠ key removed) stored
  ours.foldl (fun stored a =>
    if base.find? (fun b => key b = key a) = some a then stored
    else (stored.filter fun b => key b ≠ key a) ++ [a]) kept

variable {key}

theorem atKey_append (k : κ) (l m : List α) : atKey key k (l ++ m) = atKey key k l ++ atKey key k m :=
  List.filter_append ..

theorem atKey_filter_ne {k other : κ} (l : List α) :
    atKey key k (l.filter fun a => key a ≠ other) = if k = other then [] else atKey key k l := by
  unfold atKey
  rw [List.filter_filter]
  split
  · next h =>
    rw [List.filter_eq_nil_iff]
    intro a _
    simp [h]
  · next h =>
    apply List.filter_congr
    intro a _
    by_cases ha : key a = k
    · simp [ha, h]
    · simp [ha]

theorem atKey_singleton (k : κ) (a : α) : atKey key k [a] = if key a = k then [a] else [] := by
  unfold atKey
  by_cases h : key a = k
  · rw [if_pos h, List.filter_cons_of_pos (by simpa using h), List.filter_nil]
  · rw [if_neg h, List.filter_cons_of_neg (by simpa using h), List.filter_nil]

/-- With distinct keys there is one entry at a key at most, the first found. -/
theorem atKey_eq_find? {l : List α} (h : (l.map key).Nodup) (k : κ) :
    atKey key k l = (l.find? fun a => key a = k).toList := by
  induction l with
  | nil => rfl
  | cons a l ih =>
    rw [List.map_cons, List.nodup_cons] at h
    by_cases hk : key a = k
    · have hnone : atKey key k l = [] := by
        rw [atKey, List.filter_eq_nil_iff]
        intro b hb hbk
        exact h.1 (List.mem_map.mpr ⟨b, hb, (of_decide_eq_true hbk).trans hk.symm⟩)
      rw [List.find?_cons_of_pos (by simpa using hk), atKey,
        List.filter_cons_of_pos (by simpa using hk)]
      exact congrArg (a :: ·) hnone
    · rw [List.find?_cons_of_neg (by simpa using hk), ← ih h.2, atKey,
        List.filter_cons_of_neg (by simpa using hk)]
      rfl

theorem atKey_foldl_remove (k : κ) (gone stored : List α) :
    atKey key k (gone.foldl (fun stored removed => stored.filter fun a => key a ≠ key removed)
      stored) = if k ∈ gone.map key then [] else atKey key k stored := by
  induction gone generalizing stored with
  | nil => rfl
  | cons g gone ih =>
    rw [List.foldl_cons, ih, atKey_filter_ne]
    by_cases hg : k = key g
    · rw [if_pos hg, List.map_cons, if_pos (List.mem_cons.mpr (.inl hg))]
      exact ite_self []
    · rw [if_neg hg, List.map_cons]
      simp only [List.mem_cons, hg, false_or]

variable [DecidableEq α]

theorem atKey_foldl_put {base ours : List α} (hours : (ours.map key).Nodup) (k : κ)
    (stored : List α) :
    atKey key k (ours.foldl (fun stored a =>
      if base.find? (fun b => key b = key a) = some a then stored
      else (stored.filter fun b => key b ≠ key a) ++ [a]) stored) =
      match ours.find? fun a => key a = k with
      | none => atKey key k stored
      | some a => if base.find? (fun b => key b = k) = some a then atKey key k stored else [a] := by
  induction ours generalizing stored with
  | nil => rfl
  | cons a ours ih =>
    rw [List.map_cons, List.nodup_cons] at hours
    have hput : ∀ other, key a ≠ other → atKey key other
        (if base.find? (fun b => key b = key a) = some a then stored
          else (stored.filter fun b => key b ≠ key a) ++ [a]) = atKey key other stored := by
      intro other hne
      split
      · rfl
      · rw [atKey_append, atKey_filter_ne, atKey_singleton, if_neg (Ne.symm hne), if_neg hne,
          List.append_nil]
    rw [List.foldl_cons, ih hours.2]
    by_cases hk : key a = k
    · subst hk
      have hnone : ours.find? (fun b => key b = key a) = none := by
        rw [List.find?_eq_none]
        intro b hb hbk
        exact hours.1 (List.mem_map.mpr ⟨b, hb, of_decide_eq_true hbk⟩)
      rw [hnone, List.find?_cons_of_pos (by simp)]
      dsimp only
      split
      · rfl
      · rw [atKey_append, atKey_filter_ne, atKey_singleton, if_pos rfl, if_pos rfl, List.nil_append]
    · rw [List.find?_cons_of_neg (by simpa using hk), hput k hk]

/-- The merge of lists with distinct keys is three-way at every key. -/
theorem atKey_mergeList {base ours stored : List α} (hbase : (base.map key).Nodup)
    (hours : (ours.map key).Nodup) (k : κ) : atKey key k (mergeList key base ours stored) =
      if atKey key k base = atKey key k ours then atKey key k stored else atKey key k ours := by
  have hgone : k ∈ (base.filter fun a => !ours.any fun b => key b = key a).map key ↔
      base.find? (fun b => key b = k) ≠ none ∧ ours.find? (fun b => key b = k) = none := by
    simp only [List.mem_map, List.mem_filter, Bool.not_eq_true', List.any_eq_false,
      decide_eq_true_eq, ne_eq, List.find?_eq_none]
    constructor
    · rintro ⟨a, ⟨ha, hnone⟩, rfl⟩
      exact ⟨fun hall => hall a ha rfl, hnone⟩
    · rintro ⟨hsome, hnone⟩
      push Not at hsome
      obtain ⟨a, ha, hak⟩ := hsome
      exact ⟨a, ⟨ha, fun b hb => hak ▸ hnone b hb⟩, hak⟩
  unfold mergeList
  rw [atKey_foldl_put hours, atKey_foldl_remove, atKey_eq_find? hbase, atKey_eq_find? hours]
  cases ho : ours.find? fun b => key b = k with
  | none =>
    cases hb : base.find? fun b => key b = k with
    | none =>
      exact (if_neg fun h => (hgone.mp h).1 hb).trans (if_pos rfl).symm
    | some b =>
      have hmem := hgone.mpr ⟨hb ▸ Option.some_ne_none b, ho⟩
      exact (if_pos hmem).trans (if_neg (List.cons_ne_nil b [])).symm
  | some a =>
    have hkept : k ∉ (base.filter fun a => !ours.any fun b => key b = key a).map key := by
      intro h
      rw [(hgone.mp h).2] at ho
      cases ho
    dsimp only
    rw [if_neg hkept]
    cases hb : base.find? fun b => key b = k with
    | none => rfl
    | some b =>
      by_cases hab : b = a
      · rw [hab, if_pos rfl, if_pos rfl]
      · rw [if_neg (by simpa using hab), if_neg (by simpa using hab)]
        rfl

end Lists

/-! ## Lists that agree at every key -/

section Agree

variable {κ α : Type} [DecidableEq κ] [DecidableEq α] {key : α → κ}

theorem count_atKey (a : α) (l : List α) : (atKey key (key a) l).count a = l.count a :=
  List.count_filter (decide_eq_true rfl)

/-- Lists with the same entries at every key are the same up to order. -/
theorem perm_of_atKey {l m : List α} (h : ∀ k, atKey key k l = atKey key k m) : l.Perm m := by
  rw [List.perm_iff_count]
  intro a
  have hcount : ∀ l : List α, (atKey key (key a) l).count a = l.count a := count_atKey a
  rw [← hcount l, h, hcount]

omit [DecidableEq α] in
theorem nodup_iff_atKey {l : List α} : (l.map key).Nodup ↔ ∀ k, (atKey key k l).length ≤ 1 := by
  rw [List.nodup_iff_count_le_one]
  refine forall_congr' fun k => ?_
  rw [List.count, List.countP_map, List.countP_eq_length_filter]
  rfl

theorem nodup_mergeList {base ours stored : List α} (hbase : (base.map key).Nodup)
    (hours : (ours.map key).Nodup) (hstored : (stored.map key).Nodup) :
    ((mergeList key base ours stored).map key).Nodup := by
  rw [nodup_iff_atKey]
  intro k
  rw [atKey_mergeList hbase hours]
  split
  · exact nodup_iff_atKey.mp hstored k
  · exact nodup_iff_atKey.mp hours k

end Agree

/-! ## Maps -/

section Maps

variable {κ β : Type} [Ord κ] [TransOrd κ] [LawfulEqOrd κ] [DecidableEq β]

def mergeMap (base ours stored : ExtTreeMap κ β) : ExtTreeMap κ β :=
  let kept := (base.keys.filter fun k => !ours.contains k).foldl
    (fun stored k => stored.erase k) stored
  ours.foldl (OrdMap.patchStep fun k v _ => base[k]? ≠ some v) kept

omit [DecidableEq β] in
theorem getElem?_foldl_erase [DecidableEq κ] (k : κ) (gone : List κ) (stored : ExtTreeMap κ β) :
    (gone.foldl (fun stored k => stored.erase k) stored)[k]? =
      if k ∈ gone then none else stored[k]? := by
  induction gone generalizing stored with
  | nil => rfl
  | cons g gone ih =>
    rw [List.foldl_cons, ih]
    by_cases hk : k = g
    · subst hk
      rw [ExtTreeMap.getElem?_erase_self, ite_self, if_pos List.mem_cons_self]
    · rw [OrdMap.getElem?_erase_of_ne (Ne.symm hk)]
      simp only [List.mem_cons, hk, false_or]

theorem getElem?_mergeMap (base ours stored : ExtTreeMap κ β) (k : κ) :
    (mergeMap base ours stored)[k]? =
      if base[k]? = ours[k]? then stored[k]? else ours[k]? := by
  classical
  have hgone : k ∈ (base.keys.filter fun k => !ours.contains k) ↔
      base[k]? ≠ none ∧ ours[k]? = none := by
    rw [List.mem_filter, ExtTreeMap.mem_keys, ← ExtTreeMap.isSome_getElem?_iff_mem,
      ExtTreeMap.contains_eq_isSome_getElem?, Option.isSome_iff_ne_none, Bool.not_eq_true',
      Option.isSome_eq_false_iff, Option.isNone_iff_eq_none]
  unfold mergeMap
  rw [OrdMap.getElem?_patch, getElem?_foldl_erase]
  cases ho : ours[k]? with
  | none =>
    dsimp only
    by_cases hb : base[k]? = none
    · rw [if_pos hb, if_neg fun h => (hgone.mp h).1 hb]
    · rw [if_neg hb, if_pos (hgone.mpr ⟨hb, ho⟩)]
  | some v =>
    have hkept : ¬ k ∈ (base.keys.filter fun k => !ours.contains k) := by
      intro h
      rw [(hgone.mp h).2] at ho
      cases ho
    dsimp only
    rw [if_neg hkept]
    by_cases hb : base[k]? = some v
    · rw [if_pos hb, if_neg (by simp [hb])]
    · rw [if_neg hb, if_pos (decide_eq_true hb)]

end Maps

/-! ## Shells that share a store -/

/-- What a shell last loaded or saved, and its own copy. -/
structure Shell (σ : Type) where
  baseline : σ
  copy : σ

structure World (ι σ : Type) where
  stored : σ
  shells : ι → Shell σ

inductive Action (ι σ : Type) where
  | load (i : ι)
  | edit (i : ι) (copy : σ)
  | save (i : ι)

section Shells

variable {ι κ σ : Type} [DecidableEq ι] (merge : σ → σ → σ → σ) (out : σ → σ)

/-- What a save of a shell writes; `out` is what becomes of the copy on the way out. -/
def saved (w : World ι σ) (i : ι) : σ :=
  merge (w.shells i).baseline (out (w.shells i).copy) w.stored

def step (w : World ι σ) : Action ι σ → World ι σ
  | .load i => { w with shells := Function.update w.shells i ⟨w.stored, w.stored⟩ }
  | .edit i copy => { w with shells := Function.update w.shells i { w.shells i with copy } }
  | .save i =>
    { stored := saved merge out w i
      shells := Function.update w.shells i
        { w.shells i with baseline := out (w.shells i).copy } }

def run (w : World ι σ) (actions : List (Action ι σ)) : World ι σ :=
  actions.foldl (step merge out) w

theorem run_append (w : World ι σ) (actions more : List (Action ι σ)) :
    run merge out w (actions ++ more) = run merge out (run merge out w actions) more :=
  List.foldl_append

/-! ### What every run keeps -/

variable (P : σ → Prop)

/-- All that is stored or held has a property. -/
structure All (w : World ι σ) : Prop where
  stored : P w.stored
  baseline : ∀ i, P (w.shells i).baseline
  copy : ∀ i, P (w.shells i).copy

/-- The copies that edits make have a property. -/
def Edits : Action ι σ → Prop
  | .edit _ copy => P copy
  | _ => True

variable {merge out P}

theorem all_step (hmerge : ∀ base ours stored, P base → P ours → P stored → P (merge base ours stored))
    (hout : ∀ c, P c → P (out c)) {w : World ι σ} (h : All P w) {a : Action ι σ} (ha : Edits P a) :
    All P (step merge out w a) := by
  have hshells : ∀ i (s : Shell σ), P s.baseline → P s.copy → ∀ j,
      P (Function.update w.shells i s j).baseline ∧ P (Function.update w.shells i s j).copy := by
    intro i s hbaseline hcopy j
    rcases eq_or_ne j i with rfl | hne
    · rw [Function.update_self]
      exact ⟨hbaseline, hcopy⟩
    · rw [Function.update_of_ne hne]
      exact ⟨h.baseline j, h.copy j⟩
  cases a with
  | load i =>
    have hs := hshells i ⟨w.stored, w.stored⟩ h.stored h.stored
    exact ⟨h.stored, fun j => (hs j).1, fun j => (hs j).2⟩
  | edit i copy =>
    have hs := hshells i { w.shells i with copy } (h.baseline i) ha
    exact ⟨h.stored, fun j => (hs j).1, fun j => (hs j).2⟩
  | save i =>
    have hout' := hout _ (h.copy i)
    have hs := hshells i { w.shells i with baseline := out (w.shells i).copy } hout' (h.copy i)
    exact ⟨hmerge _ _ _ (h.baseline i) hout' h.stored, fun j => (hs j).1, fun j => (hs j).2⟩

theorem all_run (hmerge : ∀ base ours stored, P base → P ours → P stored → P (merge base ours stored))
    (hout : ∀ c, P c → P (out c)) {w : World ι σ} (h : All P w) {actions : List (Action ι σ)}
    (ha : ∀ a ∈ actions, Edits P a) : All P (run merge out w actions) := by
  induction actions generalizing w with
  | nil => exact h
  | cons a actions ih =>
    exact ih (all_step hmerge hout h (ha a List.mem_cons_self))
      fun b hb => ha b (List.mem_cons_of_mem _ hb)

/-! ### Keys that no save edits -/

variable (merge out) (same : κ → σ → σ → Prop)

/-- An action that edits a key of the store in no way. -/
def Leaves (k : κ) (w : World ι σ) : Action ι σ → Prop
  | .save i => same k (w.shells i).baseline (out (w.shells i).copy)
  | _ => True

/-- No save of a run edits the key. -/
def LeavesAll (k : κ) : World ι σ → List (Action ι σ) → Prop
  | _, [] => True
  | w, a :: actions => Leaves out same k w a ∧ LeavesAll k (step merge out w a) actions

variable {merge out same}

theorem kept_run (hrefl : ∀ k c, same k c c) (htrans : ∀ k a b c, same k a b → same k b c → same k a c)
    (hthree : ∀ base ours stored, P base → P ours →
      ThreeWay same base ours stored (merge base ours stored))
    (hmerge : ∀ base ours stored, P base → P ours → P stored → P (merge base ours stored))
    (hout : ∀ c, P c → P (out c)) {k : κ} {w : World ι σ} (h : All P w)
    {actions : List (Action ι σ)} (ha : ∀ a ∈ actions, Edits P a)
    (hleaves : LeavesAll merge out same k w actions) :
    same k (run merge out w actions).stored w.stored := by
  induction actions generalizing w with
  | nil => exact hrefl k _
  | cons a actions ih =>
    have hstep := all_step hmerge hout h (ha a List.mem_cons_self)
    refine htrans k _ _ _ (ih hstep (fun b hb => ha b (List.mem_cons_of_mem _ hb)) hleaves.2) ?_
    cases a with
    | load i => exact hrefl k _
    | edit i copy => exact hrefl k _
    | save i => exact (hthree _ _ _ (h.baseline i) (hout _ (h.copy i)) k).1 hleaves.1

/-! ### Shells that have edited nothing -/

/-- Every edit of the shell was followed by a load or a save. -/
def Rested (i : ι) (actions : List (Action ι σ)) : Prop :=
  ∀ before copy later, actions = before ++ .edit i copy :: later →
    Action.load i ∈ later ∨ Action.save i ∈ later

/-- What is stored, and what the shells last loaded or saved, has a property. -/
structure Holds (P : σ → Prop) (w : World ι σ) : Prop where
  stored : P w.stored
  baseline : ∀ i, P (w.shells i).baseline

omit [DecidableEq ι] in
theorem Rested.of_concat {i : ι} {actions : List (Action ι σ)} {a : Action ι σ}
    (h : Rested i (actions ++ [a])) (hload : a ≠ .load i) (hsave : a ≠ .save i) :
    Rested i actions := by
  intro before copy later hactions
  have hmem := h before copy (later ++ [a]) (by rw [hactions, List.append_assoc]; rfl)
  simp only [List.mem_append, List.mem_singleton, Ne.symm hload, Ne.symm hsave, or_false] at hmem
  exact hmem

theorem holds_step (hout : ∀ c, P (out c))
    (hmerge : ∀ base ours stored, P base → P ours → P stored → P (merge base ours stored))
    {w : World ι σ} (h : Holds P w) (a : Action ι σ) : Holds P (step merge out w a) := by
  have hshells : ∀ i (s : Shell σ), P s.baseline → ∀ j, P (Function.update w.shells i s j).baseline := by
    intro i s hs j
    rcases eq_or_ne j i with rfl | hne
    · rw [Function.update_self]
      exact hs
    · rw [Function.update_of_ne hne]
      exact h.baseline j
  cases a with
  | load i => exact ⟨h.stored, hshells i _ h.stored⟩
  | edit i copy => exact ⟨h.stored, hshells i { w.shells i with copy } (h.baseline i)⟩
  | save i => exact ⟨hmerge _ _ _ (h.baseline i) (hout _) h.stored, hshells i _ (hout _)⟩

theorem holds_run (hout : ∀ c, P (out c))
    (hmerge : ∀ base ours stored, P base → P ours → P stored → P (merge base ours stored))
    {w : World ι σ} (h : Holds P w) (actions : List (Action ι σ)) :
    Holds P (run merge out w actions) := by
  induction actions generalizing w with
  | nil => exact h
  | cons a actions ih => exact ih (holds_step hout hmerge h a)

/-- A shell that has edited nothing would save what it last loaded or saved. -/
theorem out_copy_of_rested (hout : ∀ c, P (out c))
    (hmerge : ∀ base ours stored, P base → P ours → P stored → P (merge base ours stored))
    (hfix : ∀ c, P c → out c = c) {w : World ι σ} (h : Holds P w) {i : ι}
    (hstart : out (w.shells i).copy = (w.shells i).baseline) {actions : List (Action ι σ)}
    (hrested : Rested i actions) :
    out ((run merge out w actions).shells i).copy = ((run merge out w actions).shells i).baseline := by
  induction actions using List.reverseRecOn with
  | nil => exact hstart
  | append_singleton actions a ih =>
    have hheld := holds_run hout hmerge h actions
    rw [run_append]
    show out ((step merge out (run merge out w actions) a).shells i).copy =
      ((step merge out (run merge out w actions) a).shells i).baseline
    cases a with
    | load j =>
      rcases eq_or_ne i j with rfl | hne
      · simp only [step, Function.update_self]
        exact hfix _ hheld.stored
      · simp only [step, Function.update_of_ne hne]
        exact ih (hrested.of_concat (fun heq => hne (Action.load.inj heq).symm) nofun)
    | edit j copy =>
      rcases eq_or_ne i j with rfl | hne
      · exact absurd (hrested actions copy [] rfl) (by simp)
      · simp only [step, Function.update_of_ne hne]
        exact ih (hrested.of_concat nofun nofun)
    | save j =>
      rcases eq_or_ne i j with rfl | hne
      · simp only [step, Function.update_self]
      · simp only [step, Function.update_of_ne hne]
        exact ih (hrested.of_concat nofun (fun heq => hne (Action.save.inj heq).symm))

end Shells

end Lib.Merge
