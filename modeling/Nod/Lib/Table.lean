import Mathlib.Data.List.Nodup
import Mathlib.Data.List.Lemmas
import Mathlib.Tactic.Common

/-
  Tables with a primary key. Rows keep the order of insertion, and their keys are distinct by
  construction: a table that breaks its key cannot be built.
  Proved: what a lookup finds after each operation (`get?_insert?`, `get?_update`, `get?_delete`).
-/

namespace Lib

/-- Rows in insertion order, no two of one key. -/
structure Table {α κ : Type} (key : α → κ) where
  rows : List α
  nodup : (rows.map key).Nodup

namespace Table

variable {α κ : Type} {key : α → κ}

theorem ext {s t : Table key} (h : s.rows = t.rows) : s = t := by
  cases s
  cases t
  cases h
  rfl

def empty : Table key := ⟨[], List.nodup_nil⟩

@[simp] theorem rows_empty : (empty : Table key).rows = [] := rfl

/-- `UPDATE … WHERE p`: rows change, their keys do not. -/
def update (t : Table key) (p : α → Bool) (f : α → α) (hf : ∀ r, key (f r) = key r) :
    Table key where
  rows := t.rows.map fun r => if p r then f r else r
  nodup := by
    have hkey : (key ∘ fun r => if p r then f r else r) = key := by
      funext r
      simp only [Function.comp_apply]
      split
      · exact hf r
      · rfl
    rw [List.map_map, hkey]
    exact t.nodup

/-- `rows_affected` of a statement with this condition. -/
def affected (t : Table key) (p : α → Bool) : Nat := t.rows.countP p

/-- `DELETE … WHERE p`. -/
def delete (t : Table key) (p : α → Bool) : Table key where
  rows := t.rows.filter fun r => !p r
  nodup := t.nodup.sublist (List.filter_sublist.map key)

@[simp] theorem rows_update (t : Table key) (p : α → Bool) (f : α → α)
    (hf : ∀ r, key (f r) = key r) :
    (t.update p f hf).rows = t.rows.map fun r => if p r then f r else r := rfl

@[simp] theorem rows_delete (t : Table key) (p : α → Bool) :
    (t.delete p).rows = t.rows.filter fun r => !p r := rfl

theorem delete_false (t : Table key) : (t.delete fun _ => false) = t :=
  ext (List.filter_eq_self.mpr fun _ _ => rfl)

theorem update_of_neg {t : Table key} {p : α → Bool} {f : α → α} {hf : ∀ r, key (f r) = key r}
    (h : ∀ r ∈ t.rows, p r = false) : t.update p f hf = t := by
  refine ext ?_
  rw [rows_update, List.map_congr_left (g := id), List.map_id]
  intro r hr
  rw [if_neg (by rw [h r hr]; exact Bool.false_ne_true)]
  rfl

variable [DecidableEq κ]

def get? (t : Table key) (k : κ) : Option α := t.rows.find? fun r => key r = k

/-- `INSERT`: `none` when the key is taken. -/
def insert? (t : Table key) (r : α) : Option (Table key) :=
  if h : key r ∈ t.rows.map key then none
  else some ⟨t.rows ++ [r], by
    rw [List.map_append, List.map_singleton]
    exact List.nodup_append.mpr ⟨t.nodup, List.nodup_singleton _, by
      rintro a ha b hb rfl
      exact h (List.mem_singleton.mp hb ▸ ha)⟩⟩

/-- `INSERT OR IGNORE`, with whether the row went in. -/
def insertIgnore (t : Table key) (r : α) : Bool × Table key :=
  match t.insert? r with
  | some t' => (true, t')
  | none => (false, t)

/-- Several inserts, all or none. -/
def insertAll? (t : Table key) : List α → Option (Table key)
  | [] => some t
  | r :: rs => (t.insert? r).bind fun t' => t'.insertAll? rs

theorem get?_eq_some {t : Table key} {k : κ} {r : α} :
    t.get? k = some r ↔ r ∈ t.rows ∧ key r = k := by
  constructor
  · intro h
    refine ⟨List.mem_of_find?_eq_some h, ?_⟩
    have := List.find?_some h
    exact of_decide_eq_true this
  · rintro ⟨hr, rfl⟩
    have hsome : (t.rows.find? fun s => key s = key r).isSome :=
      List.find?_isSome.mpr ⟨r, hr, decide_eq_true rfl⟩
    obtain ⟨s, hs⟩ := Option.isSome_iff_exists.mp hsome
    have hkey : key s = key r := by
      have := List.find?_some hs
      exact of_decide_eq_true this
    have : s = r := List.inj_on_of_nodup_map t.nodup (List.mem_of_find?_eq_some hs) hr hkey
    rw [get?, hs, this]

theorem get?_of_mem {t : Table key} {r : α} (h : r ∈ t.rows) : t.get? (key r) = some r :=
  get?_eq_some.mpr ⟨h, rfl⟩

theorem mem_of_get? {t : Table key} {k : κ} {r : α} (h : t.get? k = some r) : r ∈ t.rows :=
  (get?_eq_some.mp h).1

theorem key_of_get? {t : Table key} {k : κ} {r : α} (h : t.get? k = some r) : key r = k :=
  (get?_eq_some.mp h).2

theorem get?_eq_none {t : Table key} {k : κ} : t.get? k = none ↔ k ∉ t.rows.map key := by
  rw [get?, List.find?_eq_none, List.mem_map]
  constructor
  · rintro h ⟨r, hr, hk⟩
    exact h r hr (decide_eq_true hk)
  · intro h r hr hk
    exact h ⟨r, hr, of_decide_eq_true hk⟩

@[simp] theorem get?_empty (k : κ) : (empty : Table key).get? k = none := rfl

theorem insert?_eq_some {t t' : Table key} {r : α} :
    t.insert? r = some t' ↔ t.get? (key r) = none ∧ t'.rows = t.rows ++ [r] := by
  unfold insert?
  rw [get?_eq_none]
  split
  · rename_i h
    simp [h]
  · rename_i h
    constructor
    · intro ht
      cases ht
      exact ⟨h, rfl⟩
    · intro ht
      exact congrArg some (ext ht.2.symm)

/-- A free key can be inserted. -/
theorem exists_insert? {t : Table key} {r : α} (h : t.get? (key r) = none) :
    ∃ t', t.insert? r = some t' := by
  unfold insert?
  rw [dif_neg (get?_eq_none.mp h)]
  exact ⟨_, rfl⟩

/-- A taken key cannot. -/
theorem insert?_eq_none {t : Table key} {r : α} (h : t.get? (key r) ≠ none) :
    t.insert? r = none := by
  unfold insert?
  rw [ne_eq, get?_eq_none, not_not] at h
  exact dif_pos h

theorem get?_insert? {t t' : Table key} {r : α} (h : t.insert? r = some t') (k : κ) :
    t'.get? k = if key r = k then some r else t.get? k := by
  obtain ⟨hfree, hrows⟩ := insert?_eq_some.mp h
  rw [get?, hrows, List.find?_append]
  split
  · rename_i hk
    subst hk
    have : t.rows.find? (fun s => key s = key r) = none := hfree
    rw [this]
    simp
  · rename_i hk
    simp [get?, hk]

/-- An ignored insert leaves what is there. -/
theorem get?_insertIgnore {t : Table key} {k : κ} {r s : α} (h : t.get? k = some s) :
    (t.insertIgnore r).2.get? k = some s := by
  unfold insertIgnore
  cases hi : t.insert? r with
  | none => exact h
  | some t' =>
    have hne : key r ≠ k := by
      rintro rfl
      rw [(insert?_eq_some.mp hi).1] at h
      cases h
    change t'.get? k = some s
    rw [get?_insert? hi, if_neg hne, h]

theorem mem_insertIgnore {t : Table key} {r s : α} (h : s ∈ (t.insertIgnore r).2.rows) :
    s ∈ t.rows ∨ s = r := by
  unfold insertIgnore at h
  cases hi : t.insert? r with
  | none =>
    rw [hi] at h
    exact Or.inl h
  | some t' =>
    rw [hi] at h
    have hrows : s ∈ t'.rows := h
    rw [(insert?_eq_some.mp hi).2, List.mem_append, List.mem_singleton] at hrows
    exact hrows

theorem insertAll?_eq_some {t t' : Table key} {rs : List α} :
    t.insertAll? rs = some t' ↔ ∃ h : ((t.rows ++ rs).map key).Nodup, t' = ⟨t.rows ++ rs, h⟩ := by
  induction rs generalizing t with
  | nil =>
    constructor
    · intro h
      refine ⟨by rw [List.append_nil]; exact t.nodup, ?_⟩
      rw [← Option.some.inj h]
      exact ext (List.append_nil _).symm
    · rintro ⟨_, rfl⟩
      exact congrArg some (ext (List.append_nil _).symm)
  | cons r rs ih =>
    rw [insertAll?, Option.bind_eq_some_iff]
    constructor
    · rintro ⟨u, hu, ht⟩
      obtain ⟨hnodup, rfl⟩ := ih.mp ht
      have hrows := (insert?_eq_some.mp hu).2
      have hcons : u.rows ++ rs = t.rows ++ r :: rs := by
        rw [hrows, List.append_assoc, List.singleton_append]
      exact ⟨hcons ▸ hnodup, ext hcons⟩
    · rintro ⟨hnodup, rfl⟩
      have hfree : t.get? (key r) = none := by
        rw [get?_eq_none]
        rw [List.map_append, List.map_cons] at hnodup
        intro hmem
        exact (List.nodup_append.mp hnodup).2.2 _ hmem _ List.mem_cons_self rfl
      obtain ⟨u, hu⟩ := exists_insert? hfree
      have hrows := (insert?_eq_some.mp hu).2
      have hcons : u.rows ++ rs = t.rows ++ r :: rs := by
        rw [hrows, List.append_assoc, List.singleton_append]
      exact ⟨u, hu, ih.mpr ⟨hcons ▸ hnodup, ext hcons.symm⟩⟩

theorem get?_update (t : Table key) (p : α → Bool) (f : α → α) (hf : ∀ r, key (f r) = key r)
    (k : κ) : (t.update p f hf).get? k = (t.get? k).map fun r => if p r then f r else r := by
  have hkey : ∀ r, key (if p r then f r else r) = key r := fun r => by
    split
    · exact hf r
    · rfl
  simp only [get?, rows_update, List.find?_map, Function.comp_def, hkey]

/-- An update of one row leaves the others. -/
theorem get?_update_of_ne {t : Table key} {p : α → Bool} {f : α → α}
    {hf : ∀ r, key (f r) = key r} {k l : κ} (hp : ∀ r, p r = true → key r = l) (h : k ≠ l) :
    (t.update p f hf).get? k = t.get? k := by
  rw [get?_update]
  cases hk : t.get? k with
  | none => rfl
  | some r =>
    have hne : ¬ p r = true := fun hpr => h ((key_of_get? hk).symm.trans (hp r hpr))
    rw [Option.map_some, if_neg hne]

theorem get?_update_of_pos {t : Table key} {p : α → Bool} {f : α → α}
    {hf : ∀ r, key (f r) = key r} {k : κ} {r : α} (h : t.get? k = some r) (hp : p r = true) :
    (t.update p f hf).get? k = some (f r) := by
  rw [get?_update, h, Option.map_some, if_pos hp]

/-- An update keeps the keys that are taken. -/
theorem get?_update_ne_none {t : Table key} {p : α → Bool} {f : α → α}
    {hf : ∀ r, key (f r) = key r} {k : κ} :
    (t.update p f hf).get? k ≠ none ↔ t.get? k ≠ none := by
  rw [get?_update, ne_eq, Option.map_eq_none_iff]

/-- A statement about one key affects no row, or the row of that key. -/
theorem affected_cases {t : Table key} {p : α → Bool} {k : κ} (hp : ∀ r, p r = true → key r = k) :
    (t.affected p = 0 ∧ ∀ r ∈ t.rows, p r = false) ∨
      (t.affected p = 1 ∧ ∃ r, t.get? k = some r ∧ p r = true) := by
  cases hk : t.get? k with
  | none =>
    have hnone : ∀ r ∈ t.rows, p r = false := by
      intro r hr
      by_contra hpr
      have hkey := hp r (Bool.eq_true_of_not_eq_false hpr)
      exact get?_eq_none.mp hk (List.mem_map.mpr ⟨r, hr, hkey⟩)
    exact Or.inl ⟨List.countP_eq_zero.mpr fun r hr => by rw [hnone r hr]; exact Bool.false_ne_true,
      hnone⟩
  | some r =>
    obtain ⟨hr, hkey⟩ := get?_eq_some.mp hk
    have hother : ∀ s ∈ t.rows, p s = true → s = r := fun s hs hps =>
      List.inj_on_of_nodup_map t.nodup hs hr ((hp s hps).trans hkey.symm)
    cases hpr : p r with
    | false =>
      have hnone : ∀ s ∈ t.rows, p s = false := by
        intro s hs
        by_contra hps
        have hps := Bool.eq_true_of_not_eq_false hps
        rw [hother s hs hps, hpr] at hps
        cases hps
      exact Or.inl ⟨List.countP_eq_zero.mpr fun s hs => by rw [hnone s hs]; exact Bool.false_ne_true,
        hnone⟩
    | true =>
      refine Or.inr ⟨?_, r, rfl, hpr⟩
      have hcount : t.affected p = (t.rows.map key).count k := by
        unfold affected List.count
        rw [List.countP_map]
        refine List.countP_congr fun s hs => ?_
        rw [Function.comp_apply, beq_iff_eq]
        constructor
        · exact hp s
        · intro hks
          rw [List.inj_on_of_nodup_map t.nodup hs hr (hks.trans hkey.symm)]
          exact hpr
      rw [hcount]
      exact List.count_eq_one_of_mem t.nodup (List.mem_map.mpr ⟨r, hr, hkey⟩)

theorem get?_delete (t : Table key) (p : α → Bool) (k : κ) :
    (t.delete p).get? k = (t.get? k).filter fun r => !p r := by
  cases h : t.get? k with
  | none =>
    rw [Option.filter_none, get?_eq_none, rows_delete]
    rw [get?_eq_none] at h
    exact fun hk => h ((List.filter_sublist.map key).subset hk)
  | some r =>
    obtain ⟨hr, rfl⟩ := get?_eq_some.mp h
    rw [Option.filter_some]
    split
    · rename_i hp
      exact get?_of_mem (List.mem_filter.mpr ⟨hr, hp⟩)
    · rename_i hp
      rw [get?_eq_none, rows_delete, List.mem_map]
      rintro ⟨s, hs, hk⟩
      obtain ⟨hs, hp'⟩ := List.mem_filter.mp hs
      have : s = r := List.inj_on_of_nodup_map t.nodup hs hr hk
      exact hp (this ▸ hp')

end Table

end Lib
