import Mathlib.Data.List.Basic
import Mathlib.Data.List.Perm.Basic

/-
  A sorted list cut down to everything that satisfies `p` and the first `limit` of the rest.
  `keepWithin` is the one-pass filter with a running counter; when the order puts every `p`
  before the others it keeps the sorted `p`s followed by the first `limit` others
  (`keepWithin_mergeSort`).
-/

namespace Lib.Shortlist

variable {α : Type} (p : α → Bool) (limit : Nat)

/-- One pass over the list; `seen` counts the others met so far. -/
def keepWithin : Nat → List α → List α
  | _, [] => []
  | seen, a :: l =>
    if p a then a :: keepWithin seen l
    else
      let seen := seen + 1
      if seen ≤ limit then a :: keepWithin seen l else keepWithin seen l

theorem keepWithin_others {seen : Nat} {l : List α} (h : ∀ a ∈ l, p a = false) :
    keepWithin p limit seen l = l.take (limit - seen) := by
  induction l generalizing seen with
  | nil => rw [keepWithin, List.take_nil]
  | cons a l ih =>
    have hl : ∀ b ∈ l, p b = false := fun b hb => h b (List.mem_cons_of_mem a hb)
    rw [keepWithin, if_neg (by rw [h a List.mem_cons_self]; exact Bool.false_ne_true)]
    dsimp only
    rw [ih hl]
    split
    · rw [show limit - seen = (limit - (seen + 1)) + 1 by omega, List.take_succ_cons]
    · rw [show limit - seen = 0 by omega, show limit - (seen + 1) = 0 by omega]
      rfl

theorem keepWithin_append {seen : Nat} {l r : List α} (hl : ∀ a ∈ l, p a = true)
    (hr : ∀ a ∈ r, p a = false) :
    keepWithin p limit seen (l ++ r) = l ++ r.take (limit - seen) := by
  induction l with
  | nil => exact keepWithin_others p limit hr
  | cons a l ih =>
    rw [List.cons_append, keepWithin, if_pos (hl a List.mem_cons_self),
      ih fun b hb => hl b (List.mem_cons_of_mem a hb), List.cons_append]

section Sorted

variable {p limit} {le : α → α → Bool}

/-- In a list sorted by an order that never puts an other before a `p`, the `p`s come first. -/
theorem eq_filter_append_filter {l : List α} (hsorted : l.Pairwise fun a b => le a b)
    (hfirst : ∀ a b, p a = false → p b = true → le a b = false) :
    l = l.filter p ++ l.filter fun a => !p a := by
  induction l with
  | nil => rfl
  | cons a l ih =>
    obtain ⟨hhead, htail⟩ := List.pairwise_cons.mp hsorted
    cases hp : p a with
    | true =>
      rw [List.filter_cons_of_pos hp, List.filter_cons_of_neg (by simp [hp]), List.cons_append,
        ← ih htail]
    | false =>
      have hnone : ∀ b ∈ l, p b = false := by
        intro b hb
        by_contra hpb
        have hle := hfirst a b hp (by simpa using hpb)
        rw [hhead b hb] at hle
        exact Bool.false_ne_true hle.symm
      rw [List.filter_cons_of_neg (by simp [hp]), List.filter_cons_of_pos (by simp [hp]),
        List.filter_eq_nil_iff.mpr fun b hb => by simp [hnone b hb],
        List.filter_eq_self.mpr fun b hb => by simp [hnone b hb], List.nil_append]

variable (htrans : ∀ a b c, le a b = true → le b c = true → le a c = true)
  (htotal : ∀ a b, (le a b || le b a) = true)
include htrans htotal

/-- Sorting a sublist picked by a predicate is picking from the sorted list, when no two
elements of the list are equivalent in the order. -/
theorem filter_mergeSort {q : α → Bool} {l : List α}
    (hanti : ∀ a ∈ l, ∀ b ∈ l, le a b = true → le b a = true → a = b) :
    (l.mergeSort le).filter q = (l.filter q).mergeSort le := by
  have hperm : ((l.mergeSort le).filter q).Perm ((l.filter q).mergeSort le) :=
    ((List.mergeSort_perm l le).filter q).trans (List.mergeSort_perm _ le).symm
  have hmem : ∀ a ∈ (l.mergeSort le).filter q, a ∈ l := fun a ha =>
    List.mem_mergeSort.mp (List.mem_filter.mp ha).1
  refine List.Perm.eq_of_pairwise ?_
    ((List.pairwise_mergeSort htrans htotal l).filter q)
    (List.pairwise_mergeSort htrans htotal _) hperm
  intro a b ha hb hab hba
  exact hanti a (hmem a ha) b (hmem b (hperm.mem_iff.mpr hb)) hab hba

theorem keepWithin_mergeSort {l : List α}
    (hanti : ∀ a ∈ l, ∀ b ∈ l, le a b = true → le b a = true → a = b)
    (hfirst : ∀ a b, p a = false → p b = true → le a b = false) :
    keepWithin p limit 0 (l.mergeSort le) =
      (l.filter p).mergeSort le ++ ((l.filter fun a => !p a).mergeSort le).take limit := by
  rw [eq_filter_append_filter (List.pairwise_mergeSort htrans htotal l) hfirst,
    keepWithin_append p limit (fun a ha => (List.mem_filter.mp ha).2)
      (fun a ha => by simpa using (List.mem_filter.mp ha).2),
    filter_mergeSort htrans htotal hanti, filter_mergeSort htrans htotal hanti, Nat.sub_zero]

end Sorted

end Lib.Shortlist
