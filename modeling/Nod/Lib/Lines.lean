import Mathlib.Algebra.GroupWithZero.Nat
import Mathlib.Data.List.Basic

/-
  Line-based logs. A content is its whole lines, each of them ended by the separator, and the rest
  behind the last separator, which a write that stopped half way leaves.
  Proved: appending a whole line adds it behind the rest (`whole_append_line`), and appending less
  than a line only adds to the rest (`whole_append_free`).
-/

namespace Lib.Lines

variable {α : Type} {sep : α}

/-- Part of a line and its separator is less than a line, or all of it. -/
theorem free_take {line : List α} (h : sep ∉ line) {n : Nat} (hn : n < (line ++ [sep]).length) :
    sep ∉ (line ++ [sep]).take n := by
  have hle : n ≤ line.length := by
    rw [List.length_append, List.length_singleton] at hn
    omega
  rw [List.take_append_of_le_length hle]
  exact fun hmem => h (List.mem_of_mem_take hmem)

variable [DecidableEq α]

/-- The lines that are ended. -/
def whole (sep : α) (content : List α) : List (List α) := (content.splitOn sep).dropLast

/-- What stands behind the last separator. -/
def rest (sep : α) (content : List α) : List α := (content.splitOn sep).getLastD []

theorem of_free {piece : List α} (h : sep ∉ piece) :
    whole sep piece = [] ∧ rest sep piece = piece := by
  unfold whole rest
  rw [List.splitOn_eq_singleton h]
  exact ⟨rfl, rfl⟩

theorem of_append_cons {piece : List α} (content : List α) (h : sep ∉ piece) :
    whole sep (content ++ sep :: piece) = content.splitOn sep ∧
      rest sep (content ++ sep :: piece) = piece := by
  unfold whole rest
  rw [List.splitOn_append_cons_self, List.splitOn_eq_singleton h]
  exact ⟨List.dropLast_concat, List.getLastD_concat⟩

/-- A content has no separator, or a last one. -/
theorem cases_last (sep : α) (content : List α) :
    sep ∉ content ∨ ∃ front back, content = front ++ sep :: back ∧ sep ∉ back := by
  by_cases h : sep ∈ content
  · obtain ⟨back, front, hreverse, hfree⟩ := List.eq_append_cons_of_mem (List.mem_reverse.mpr h)
    refine Or.inr ⟨front.reverse, back.reverse, ?_, fun hmem => hfree (List.mem_reverse.mp hmem)⟩
    have hcontent := congrArg List.reverse hreverse
    rw [List.reverse_reverse, List.reverse_append, List.reverse_cons, List.append_assoc] at hcontent
    exact hcontent
  · exact Or.inl h

/-- The pieces of a content are together no longer than it. -/
theorem sum_length_splitOn (sep : α) (content : List α) :
    ((content.splitOn sep).map List.length).sum ≤ content.length := by
  induction content with
  | nil => exact Nat.le_refl 0
  | cons c content ih =>
    obtain ⟨piece, pieces, hpieces⟩ := List.exists_cons_of_ne_nil (List.splitOn_ne_nil sep content)
    rw [hpieces, List.map_cons, List.sum_cons] at ih
    rw [List.splitOn_cons_eq_if_modifyHead, hpieces]
    split
    · rw [List.map_cons, List.map_cons, List.sum_cons, List.sum_cons, List.length_nil, List.length_cons]
      omega
    · rw [List.modifyHead_cons, List.map_cons, List.sum_cons, List.length_cons, List.length_cons]
      omega

/-- Less than a line only adds to the rest. -/
theorem whole_append_free (content : List α) {piece : List α} (h : sep ∉ piece) :
    whole sep (content ++ piece) = whole sep content ∧
      rest sep (content ++ piece) = rest sep content ++ piece := by
  rcases cases_last sep content with hfree | ⟨front, back, rfl, hfree⟩
  · have hboth : sep ∉ content ++ piece := List.not_mem_append hfree h
    rw [(of_free hboth).1, (of_free hboth).2, (of_free hfree).1, (of_free hfree).2]
    exact ⟨rfl, rfl⟩
  · have hboth : sep ∉ back ++ piece := List.not_mem_append hfree h
    rw [List.append_assoc, List.cons_append, (of_append_cons front hboth).1,
      (of_append_cons front hboth).2, (of_append_cons front hfree).1,
      (of_append_cons front hfree).2]
    exact ⟨rfl, rfl⟩

theorem splitOn_eq (sep : α) (content : List α) :
    content.splitOn sep = whole sep content ++ [rest sep content] := by
  unfold whole rest
  rw [List.getLastD_eq_getLast?, List.getLast?_eq_some_getLast (List.splitOn_ne_nil sep content),
    Option.getD_some, List.dropLast_append_getLast]

/-- A whole line is added behind what the rest was. -/
theorem whole_append_line (content : List α) {line : List α} (h : sep ∉ line) :
    whole sep (content ++ (line ++ [sep])) = whole sep content ++ [rest sep content ++ line] ∧
      rest sep (content ++ (line ++ [sep])) = [] := by
  obtain ⟨hwhole, hrest⟩ := whole_append_free content h
  obtain ⟨hline, hnone⟩ := of_append_cons (content ++ line) (List.not_mem_nil (a := sep))
  rw [← List.append_assoc]
  refine ⟨?_, hnone⟩
  rw [hline, splitOn_eq, hwhole, hrest]

end Lib.Lines
