import Mathlib.Data.List.Basic

/-
  Machines whose actions are guarded. A run is a list of actions, each of them allowed in the state
  it is taken in; an interleaving of several parties is a run of the machine they share.
  Proved: what every allowed action keeps holds over a run (`invariant`), and a relation that every
  allowed action stays within relates the ends of a run (`relates`).
-/

namespace Lib

structure Machine (σ α : Type) where
  step : α → σ → σ
  allowed : α → σ → Prop

namespace Machine

variable {σ α : Type} (M : Machine σ α)

/-- The state after some actions. -/
def run (acts : List α) (s : σ) : σ := acts.foldl (fun s a => M.step a s) s

/-- Each action is allowed where it is taken. -/
def Legal : List α → σ → Prop
  | [], _ => True
  | a :: acts, s => M.allowed a s ∧ Legal acts (M.step a s)

@[simp] theorem run_nil (s : σ) : M.run [] s = s := rfl

@[simp] theorem run_cons (a : α) (acts : List α) (s : σ) :
    M.run (a :: acts) s = M.run acts (M.step a s) := rfl

theorem run_append (acts more : List α) (s : σ) :
    M.run (acts ++ more) s = M.run more (M.run acts s) :=
  List.foldl_append

theorem legal_append {acts more : List α} {s : σ} :
    M.Legal (acts ++ more) s ↔ M.Legal acts s ∧ M.Legal more (M.run acts s) := by
  induction acts generalizing s with
  | nil => exact (and_iff_right trivial).symm
  | cons a acts ih =>
    rw [List.cons_append, run_cons]
    change M.allowed a s ∧ M.Legal (acts ++ more) _ ↔ (M.allowed a s ∧ M.Legal acts _) ∧ _
    rw [ih, and_assoc]

variable {M}

theorem invariant {I : σ → Prop} (hstep : ∀ a s, I s → M.allowed a s → I (M.step a s))
    {acts : List α} {s : σ} (hs : I s) (hlegal : M.Legal acts s) : I (M.run acts s) := by
  induction acts generalizing s with
  | nil => exact hs
  | cons a acts ih => exact ih (hstep a s hs hlegal.1) hlegal.2

/-- A preorder on states that every allowed action stays within, under an invariant. -/
theorem relates {I : σ → Prop} {R : σ → σ → Prop} (hrefl : ∀ s, R s s)
    (htrans : ∀ {a b c}, R a b → R b c → R a c)
    (hinv : ∀ a s, I s → M.allowed a s → I (M.step a s))
    (hstep : ∀ a s, I s → M.allowed a s → R s (M.step a s))
    {acts : List α} {s : σ} (hs : I s) (hlegal : M.Legal acts s) : R s (M.run acts s) := by
  induction acts generalizing s with
  | nil => exact hrefl s
  | cons a acts ih => exact htrans (hstep a s hs hlegal.1) (ih (hinv a s hs hlegal.1) hlegal.2)

end Machine

end Lib
