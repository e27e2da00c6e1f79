import Mathlib.Data.List.Nodup
import Mathlib.Logic.Relation

/-
  Leases on a piece of work. Whoever takes the work gets a token that was never issued for it
  before; taking it again takes it from the holder. Work that is done is left alone.
  Proved, along any number of moves: the holder has the token issued last (`sound_moves`), a token
  that lost the work never holds it again (`not_holder_moves`), and done work stays as it is
  (`eq_of_done`).
-/

namespace Lib

/-- `issued` has every token handed out, the last one first. -/
structure Lease (τ : Type) where
  done : Bool
  holder : Option τ
  issued : List τ

namespace Lease

variable {τ : Type}

inductive Move : Lease τ → Lease τ → Prop
  | stay (l : Lease τ) : Move l l
  | claim (l : Lease τ) (t : τ) (hopen : l.done = false) (hfresh : t ∉ l.issued) :
      Move l ⟨false, some t, t :: l.issued⟩
  | release (l : Lease τ) (hopen : l.done = false) : Move l ⟨false, none, l.issued⟩
  | finish (l : Lease τ) (hopen : l.done = false) : Move l ⟨true, none, l.issued⟩

abbrev Moves : Lease τ → Lease τ → Prop := Relation.ReflTransGen Move

structure Sound (l : Lease τ) : Prop where
  closed : l.done = true → l.holder = none
  newest : ∀ t, l.holder = some t → l.issued.head? = some t
  distinct : l.issued.Nodup

theorem sound_new : Sound (⟨false, none, []⟩ : Lease τ) where
  closed h := by cases h
  newest _ h := by cases h
  distinct := List.nodup_nil

theorem Sound.move {l m : Lease τ} (h : Move l m) (hl : Sound l) : Sound m := by
  cases h with
  | stay => exact hl
  | claim t hopen hfresh =>
    refine ⟨fun h => (by cases h), fun t' ht' => ?_, List.nodup_cons.mpr ⟨hfresh, hl.distinct⟩⟩
    rw [List.head?_cons]
    exact ht'
  | release hopen => exact ⟨fun _ => rfl, fun _ h => (by cases h), hl.distinct⟩
  | finish hopen => exact ⟨fun _ => rfl, fun _ h => (by cases h), hl.distinct⟩

theorem eq_of_done {l m : Lease τ} (h : Moves l m) (hl : l.done = true) : m = l := by
  induction h with
  | refl => rfl
  | tail _ hmove ih =>
    subst ih
    cases hmove with
    | stay => rfl
    | claim t hopen _ => exact absurd (hl.symm.trans hopen) Bool.noConfusion
    | release hopen => exact absurd (hl.symm.trans hopen) Bool.noConfusion
    | finish hopen => exact absurd (hl.symm.trans hopen) Bool.noConfusion

theorem issued_suffix {l m : Lease τ} (h : Moves l m) : l.issued <:+ m.issued := by
  induction h with
  | refl => exact List.suffix_rfl
  | tail _ hmove ih =>
    cases hmove with
    | stay => exact ih
    | claim t _ _ => exact ih.trans (List.suffix_cons t _)
    | release _ => exact ih
    | finish _ => exact ih

/-- A token that was issued and no longer holds never holds again. -/
theorem not_holder_moves {l m : Lease τ} {t : τ} (h : Moves l m) (hissued : t ∈ l.issued)
    (hlost : l.holder ≠ some t) : m.holder ≠ some t := by
  induction h with
  | refl => exact hlost
  | tail hmoves hmove ih =>
    cases hmove with
    | stay => exact ih
    | claim t' _ hfresh =>
      intro heq
      cases heq
      exact hfresh ((issued_suffix hmoves).subset hissued)
    | release _ => exact fun heq => by cases heq
    | finish _ => exact fun heq => by cases heq

/-- Only the last token can hold. -/
theorem Sound.not_holder {l : Lease τ} {t : τ} {later : List τ} {earlier : List τ} (hl : Sound l)
    (hissued : l.issued = later ++ t :: earlier) (hlater : later ≠ []) : l.holder ≠ some t := by
  intro hholder
  have hhead := hl.newest t hholder
  cases later with
  | nil => exact hlater rfl
  | cons u later =>
    rw [hissued, List.cons_append, List.head?_cons] at hhead
    cases hhead
    have hdistinct := hl.distinct
    rw [hissued, List.cons_append, List.nodup_cons] at hdistinct
    exact hdistinct.1 (List.mem_append_right _ List.mem_cons_self)

end Lease

end Lib
