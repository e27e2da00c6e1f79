import Mathlib.Data.List.Basic

/-
  Paging through a sorted list by a cursor. A page is the first items past the cursor, and the last
  item of a page is the next cursor.
  Proved: what is past the next cursor is what the page has left out (`past_of_take`).
-/

namespace Lib.Cursor

variable {α : Type} {r : α → α → Prop} [DecidableRel r]

variable (r) in
/-- The items of a list past a cursor; without a cursor, all of them. -/
def past (cursor : Option α) (l : List α) : List α := l.filter fun a => cursor.all (r · a)

theorem mem_past {cursor : Option α} {l : List α} {a : α} :
    a ∈ past r cursor l ↔ a ∈ l ∧ ∀ c ∈ cursor, r c a := by
  unfold past
  rw [List.mem_filter]
  cases cursor with
  | none => simp
  | some c => simp

omit [DecidableRel r] in
/-- In a sorted list every item but the last comes before it. -/
theorem rel_getLast {l : List α} (hl : l.Pairwise r) {x y : α} (hx : l.getLast? = some x)
    (hy : y ∈ l) : y = x ∨ r y x := by
  obtain ⟨init, rfl⟩ := List.getLast?_eq_some_iff.mp hx
  rcases List.mem_append.mp hy with hy | hy
  · exact Or.inr ((List.pairwise_append.mp hl).2.2 y hy x List.mem_cons_self)
  · exact Or.inl (List.mem_singleton.mp hy)

/-- In a sorted list, what comes after the last of the first `n` items is what they leave out. -/
theorem past_of_take (hirrefl : ∀ a, ¬ r a a) (htrans : ∀ a b c, r a b → r b c → r a c)
    {l : List α} (hl : l.Pairwise r) {n : ℕ} {x : α} (hx : (l.take n).getLast? = some x) :
    past r (some x) l = l.drop n := by
  have hmem : x ∈ l.take n := List.mem_of_getLast? hx
  have hsplit : (l.take n ++ l.drop n).Pairwise r := by
    rw [List.take_append_drop]
    exact hl
  obtain ⟨htake, -, hcross⟩ := List.pairwise_append.mp hsplit
  have hbefore : ∀ y ∈ l.take n, ¬ r x y := by
    intro y hy hxy
    rcases rel_getLast htake hx hy with rfl | hyx
    · exact hirrefl y hxy
    · exact hirrefl x (htrans x y x hxy hyx)
  unfold past
  conv_lhs => rw [← List.take_append_drop n l]
  rw [List.filter_append, List.filter_eq_nil_iff.mpr, List.nil_append, List.filter_eq_self]
  · intro y hy
    exact decide_eq_true (hcross x hmem y hy)
  · intro y hy
    rw [Option.all_some, decide_eq_true_eq]
    exact hbefore y hy

end Lib.Cursor
