import Mathlib.Data.Option.Basic
import Nod.Lib.Txn

/-
  Two runs of one program from related stores. A program is `Alike` for a relation when each of
  its statements does the same on related stores and leaves them related.
  Proved: `exec_alike`, such a program ends the same way on both, whichever failures strike.
-/

namespace Lib.Prog

variable {σ ε α β : Type}

/-- The statement breaks a constraint on both stores, or gives the same result on both and leaves
    them related. -/
def AlikeOn (R : σ → σ → Prop) (f : σ → Option (β × σ)) : Prop :=
  ∀ s t, R s t → Option.Rel (fun a b => a.1 = b.1 ∧ R a.2 b.2) (f s) (f t)

def Alike (R : σ → σ → Prop) : Prog σ ε α → Prop
  | ret _ => True
  | fail _ => True
  | stmt _ f k => AlikeOn R f ∧ ∀ b, Alike R (k b)
  | begin k => Alike R k
  | commit k => Alike R k

variable {R : σ → σ → Prop}

theorem alike_pure (a : α) : Alike R (pure a : Prog σ ε α) := trivial

theorem alike_lift (x : Except ε α) : Alike R (lift x : Prog σ ε α) := by
  cases x <;> trivial

theorem alike_onTx {f : σ → Option (α × σ)} (h : AlikeOn R f) : Alike R (onTx f : Prog σ ε α) :=
  ⟨h, fun _ => trivial⟩

/-- A query that does not see the difference. -/
theorem alike_query {f : σ → α} (h : ∀ s t, R s t → f s = f t) :
    Alike R (query f : Prog σ ε α) :=
  alike_onTx fun s t hst => .some ⟨h s t hst, hst⟩

theorem alike_beginTx : Alike R (beginTx : Prog σ ε Unit) := trivial

theorem alike_bind {p : Prog σ ε α} {g : α → Prog σ ε β} (hp : Alike R p)
    (hg : ∀ a, Alike R (g a)) : Alike R (p >>= g) := by
  change Alike R (p.bind g)
  induction p with
  | ret a => exact hg a
  | fail e => trivial
  | stmt h f k ih => exact ⟨hp.1, fun b => ih b (hp.2 b)⟩
  | begin k ih => exact ih hp
  | commit k ih => exact ih hp

/-! ## Related connections -/

section Rel

variable {α' β' : Type} {r : α → β → Prop} {r' : α' → β' → Prop} {x : Option α} {y : Option β}

theorem rel_map {f : α → α'} {g : β → β'} (h : Option.Rel r x y)
    (hfg : ∀ a b, r a b → r' (f a) (g b)) : Option.Rel r' (x.map f) (y.map g) := by
  cases h with
  | none => exact .none
  | some hab => exact .some (hfg _ _ hab)

theorem rel_bind {f : α → Option α'} {g : β → Option β'} (h : Option.Rel r x y)
    (hfg : ∀ a b, r a b → Option.Rel r' (f a) (g b)) : Option.Rel r' (x.bind f) (y.bind g) := by
  cases h with
  | none => exact .none
  | some hab => exact hfg _ _ hab

end Rel

/-- What the stores hold, and what open transactions would make of them. -/
structure ConnAlike (R : σ → σ → Prop) (c d : Conn σ) : Prop where
  committed : R c.committed d.committed
  working : Option.Rel R c.working d.working

theorem statement_alike {f : σ → Option (β × σ)} (hf : AlikeOn R f) (h : Handle) {c d : Conn σ}
    (hcd : ConnAlike R c d) :
    Option.Rel (fun a b => a.1 = b.1 ∧ ConnAlike R a.2 b.2) (c.statement h f)
      (d.statement h f) := by
  cases h with
  | pool => exact rel_map (hf _ _ hcd.committed) fun a b hab => ⟨hab.1, hab.2, hcd.working⟩
  | tx =>
    refine rel_bind hcd.working fun v w hvw => ?_
    exact rel_map (hf v w hvw) fun a b hab => ⟨hab.1, hcd.committed, .some hab.2⟩

theorem run_alike (err : ε) {p : Prog σ ε α} (hp : Alike R p) (faults : List Bool) {c d : Conn σ}
    (hcd : ConnAlike R c d) :
    (run err p faults c).1 = (run err p faults d).1 ∧
      R (run err p faults c).2.committed (run err p faults d).2.committed := by
  induction p generalizing faults c d with
  | ret a => exact ⟨rfl, hcd.committed⟩
  | fail e => exact ⟨rfl, hcd.committed⟩
  | stmt h f k ih =>
    simp only [run]
    split
    · exact ⟨rfl, hcd.committed⟩
    · have hsame := statement_alike hp.1 h hcd
      cases hc : c.statement h f with
      | none =>
        rw [hc] at hsame
        cases hd : d.statement h f with
        | none => exact ⟨rfl, hcd.committed⟩
        | some b =>
          rw [hd] at hsame
          cases hsame
      | some a =>
        rw [hc] at hsame
        cases hd : d.statement h f with
        | none =>
          rw [hd] at hsame
          cases hsame
        | some b =>
          rw [hd] at hsame
          cases hsame with
          | some hab =>
            have hnext := ih a.1 (hp.2 a.1) faults.tail hab.2
            rw [hab.1] at hnext
            simp only [hab.1]
            exact hnext
  | begin k ih =>
    simp only [run]
    split
    · exact ⟨rfl, hcd.committed⟩
    · exact ih hp _ ⟨hcd.committed, .some hcd.committed⟩
  | commit k ih =>
    simp only [run]
    split
    · exact ⟨rfl, hcd.committed⟩
    · have hworking := hcd.working
      cases hc : c.working with
      | none =>
        rw [hc] at hworking
        cases hd : d.working with
        | none => exact ⟨rfl, hcd.committed⟩
        | some w =>
          rw [hd] at hworking
          cases hworking
      | some v =>
        rw [hc] at hworking
        cases hd : d.working with
        | none =>
          rw [hd] at hworking
          cases hworking
        | some w =>
          rw [hd] at hworking
          cases hworking with
          | some hvw => exact ih hp _ ⟨hvw, .none⟩

/-- Two runs from related stores end with the same result, and the stores are related again. -/
theorem exec_alike (err : ε) {p : Prog σ ε α} (hp : Alike R p) (faults : List Bool) {s t : σ}
    (h : R s t) :
    (exec err p faults s).1 = (exec err p faults t).1 ∧
      R (exec err p faults s).2 (exec err p faults t).2 :=
  run_alike err hp faults ⟨h, .none⟩

end Lib.Prog
