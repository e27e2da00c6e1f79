import Nod.Lib.Txn
import Nod.Lib.Guard

/-
  Errors a computation never ends in. A `do` block avoids an error that each of its steps avoids;
  a program on a store avoids an error that none of its branches fails with, and that is not the
  error of a broken constraint.
-/

namespace Lib

variable {ε ε' α β : Type} {e : ε}

/-! ## Pure computations -/

def Avoids (e : ε) (x : Except ε α) : Prop := x ≠ .error e

theorem avoids_ok (a : α) : Avoids e (.ok a) := nofun

theorem avoids_pure (a : α) : Avoids e (pure a : Except ε α) := nofun

theorem avoids_error {d : ε} (h : d ≠ e) : Avoids e (.error d : Except ε α) := by
  intro heq
  exact h (Except.error.inj heq)

theorem avoids_bind {x : Except ε α} {g : α → Except ε β} (hx : Avoids e x)
    (hg : ∀ a, Avoids e (g a)) : Avoids e (x >>= g) := by
  cases x with
  | error d =>
    intro heq
    exact hx (congrArg Except.error (Except.error.inj heq))
  | ok a => exact hg a

theorem avoids_refuseIf {c : Prop} [Decidable c] {d : ε} (h : d ≠ e) :
    Avoids e (refuseIf c d) := by
  unfold refuseIf
  split
  · exact avoids_error h
  · exact avoids_ok ()

theorem avoids_orElse {d : ε} {o : Option α} (h : d ≠ e) : Avoids e (orElse d o) := by
  cases o with
  | none => exact avoids_error h
  | some a => exact avoids_ok a

theorem avoids_mapError {x : Except ε' α} {f : ε' → ε} (h : ∀ d, f d ≠ e) :
    Avoids e (x.mapError f) := by
  cases x with
  | error d => exact avoids_error (h d)
  | ok a => exact avoids_ok a

theorem avoids_mapM {f : α → Except ε β} (h : ∀ a, Avoids e (f a)) (as : List α) :
    Avoids e (as.mapM f) := by
  induction as with
  | nil => exact avoids_pure _
  | cons a as ih =>
    rw [List.mapM_cons]
    exact avoids_bind (h a) fun _ => avoids_bind ih fun _ => avoids_pure _

/-! ## Programs on a store -/

namespace Prog

variable {σ : Type}

/-- No branch of the program fails with the error. -/
def Avoids (e : ε) : Prog σ ε α → Prop
  | ret _ => True
  | fail d => d ≠ e
  | stmt _ _ k => ∀ b, Avoids e (k b)
  | begin k => Avoids e k
  | commit k => Avoids e k

theorem avoids_pure (a : α) : Avoids e (pure a : Prog σ ε α) := trivial

theorem avoids_commitTx : Avoids e (commitTx : Prog σ ε Unit) := trivial

theorem avoids_onTx (f : σ → Option (α × σ)) : Avoids e (onTx f : Prog σ ε α) :=
  fun _ => trivial

theorem avoids_query (f : σ → α) : Avoids e (query f : Prog σ ε α) := fun _ => trivial

theorem avoids_lift {x : Except ε α} (h : Lib.Avoids e x) : Avoids e (lift x : Prog σ ε α) := by
  cases x with
  | error d =>
    intro heq
    exact h (congrArg Except.error heq)
  | ok a => trivial

theorem avoids_bind {p : Prog σ ε α} {g : α → Prog σ ε β} (hp : Avoids e p)
    (hg : ∀ a, Avoids e (g a)) : Avoids e (p >>= g) := by
  change Avoids e (p.bind g)
  induction p with
  | ret a => exact hg a
  | fail d => exact hp
  | stmt h f k ih => exact fun b => ih b (hp b)
  | begin k ih => exact ih hp
  | commit k ih => exact ih hp

theorem eval_ne_error {err : ε} {p : Prog σ ε α} (hp : Avoids e p) (herr : err ≠ e) (s : σ) :
    eval err p s ≠ .error e := by
  induction p generalizing s with
  | ret a => exact nofun
  | fail d =>
    intro heq
    exact hp (Except.error.inj heq)
  | stmt h f k ih =>
    rw [eval]
    split
    · intro heq
      exact herr (Except.error.inj heq)
    · exact ih _ (hp _) _
  | begin k ih => exact ih hp s
  | commit k ih => exact ih hp s

end Prog

end Lib
