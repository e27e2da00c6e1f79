import Mathlib.Computability.RegularExpressions

/-
  Regular expressions as programs write them: classes of symbols, optional parts and bounded
  repetition, over Mathlib's regular expressions, with the texts that each of them matches.
-/

namespace Lib.Pattern

open RegularExpression

variable {α : Type}

/-- A class of symbols. -/
def oneOf (cs : List α) : RegularExpression α := (cs.map char).foldr (· + ·) 0

/-- `p?` -/
def optional (p : RegularExpression α) : RegularExpression α := p + 1

/-- `p{0,n}` -/
def upTo (p : RegularExpression α) : ℕ → RegularExpression α
  | 0 => 1
  | n + 1 => optional (p * upTo p n)

/-- The whole text matches. -/
def fullMatch [DecidableEq α] (p : RegularExpression α) (x : List α) : Bool := p.rmatch x

theorem fullMatch_iff [DecidableEq α] (p : RegularExpression α) (x : List α) :
    fullMatch p x = true ↔ x ∈ p.matches' := rmatch_iff_matches' p x

theorem mem_char {a : α} {x : List α} : x ∈ (char a).matches' ↔ x = [a] := Iff.rfl

theorem mem_mul {p q : RegularExpression α} {x : List α} :
    x ∈ (p * q).matches' ↔ ∃ a ∈ p.matches', ∃ b ∈ q.matches', a ++ b = x := by
  rw [matches'_mul, Language.mem_mul]

theorem mem_add {p q : RegularExpression α} {x : List α} :
    x ∈ (p + q).matches' ↔ x ∈ p.matches' ∨ x ∈ q.matches' := by
  rw [matches'_add, Language.mem_add]

theorem mem_optional {p : RegularExpression α} {x : List α} :
    x ∈ (optional p).matches' ↔ x = [] ∨ x ∈ p.matches' := by
  unfold optional
  rw [mem_add, matches'_epsilon, Language.mem_one, or_comm]

theorem mem_oneOf {cs : List α} {x : List α} : x ∈ (oneOf cs).matches' ↔ ∃ c ∈ cs, x = [c] := by
  unfold oneOf
  induction cs with
  | nil =>
    rw [List.map_nil, List.foldr_nil, matches'_zero]
    exact iff_of_false (Language.notMem_zero x) (by simp)
  | cons c cs ih =>
    rw [List.map_cons, List.foldr_cons, mem_add, mem_char, ih]
    simp only [List.mem_cons, exists_eq_or_imp]

/-- Up to `n` symbols of a class. -/
theorem mem_upTo_oneOf {cs : List α} {n : ℕ} {x : List α} :
    x ∈ (upTo (oneOf cs) n).matches' ↔ x.length ≤ n ∧ ∀ c ∈ x, c ∈ cs := by
  induction n generalizing x with
  | zero =>
    unfold upTo
    rw [matches'_epsilon, Language.mem_one]
    constructor
    · rintro rfl
      exact ⟨Nat.le_refl 0, fun c hc => absurd hc List.not_mem_nil⟩
    · exact fun h => List.length_eq_zero_iff.mp (Nat.le_zero.mp h.1)
  | succ n ih =>
    unfold upTo
    rw [mem_optional, mem_mul]
    constructor
    · rintro (rfl | ⟨a, ha, b, hb, rfl⟩)
      · exact ⟨Nat.zero_le _, fun c hc => absurd hc List.not_mem_nil⟩
      · obtain ⟨c, hc, rfl⟩ := mem_oneOf.mp ha
        obtain ⟨hlength, hall⟩ := ih.mp hb
        refine ⟨Nat.succ_le_succ hlength, fun d hd => ?_⟩
        rcases List.mem_cons.mp hd with rfl | hd
        · exact hc
        · exact hall d hd
    · rintro ⟨hlength, hall⟩
      cases x with
      | nil => exact .inl rfl
      | cons c x =>
        refine .inr ⟨[c], mem_oneOf.mpr ⟨c, hall c List.mem_cons_self, rfl⟩, x, ih.mpr ⟨?_, ?_⟩, rfl⟩
        · exact Nat.le_of_succ_le_succ hlength
        · exact fun d hd => hall d (List.mem_cons_of_mem _ hd)

end Lib.Pattern
