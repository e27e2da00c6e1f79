/-
  Early returns. `refuseIf` is the guard of a function that answers with an error, `orElse` the
  unwrapping of an option with one; a `do` block of guards succeeds when each of its steps does
  (`bind_eq_ok`).
-/

namespace Lib

variable {ε α β : Type}

/-- Return the error when the condition holds. -/
def refuseIf (c : Prop) [Decidable c] (e : ε) : Except ε Unit := if c then .error e else .ok ()

/-- The value of an option, or the error. -/
def orElse (e : ε) : Option α → Except ε α
  | some a => .ok a
  | none => .error e

@[simp] theorem refuseIf_eq_ok {c : Prop} [Decidable c] {e : ε} {u : Unit} :
    refuseIf c e = .ok u ↔ ¬ c := by
  unfold refuseIf
  split <;> simp [*]

@[simp] theorem orElse_eq_ok {e : ε} {o : Option α} {a : α} :
    orElse e o = .ok a ↔ o = some a := by
  cases o <;> simp [orElse]

/-- A sequence of steps succeeds when each step does. -/
@[simp] theorem bind_eq_ok {x : Except ε α} {g : α → Except ε β} {b : β} :
    (x >>= g) = .ok b ↔ ∃ a, x = .ok a ∧ g a = .ok b := by
  cases x with
  | error e => simp [bind, Except.bind]
  | ok a => simp [bind, Except.bind]

@[simp] theorem pure_eq_ok {a b : α} : (pure a : Except ε α) = .ok b ↔ a = b := by
  simp [pure, Except.pure]

@[simp] theorem mapError_eq_ok {ε' : Type} {x : Except ε α} {f : ε → ε'} {a : α} :
    x.mapError f = .ok a ↔ x = .ok a := by
  cases x with
  | error e => exact ⟨nofun, nofun⟩
  | ok b =>
    constructor
    · intro h
      rw [Except.ok.inj h]
    · intro h
      rw [Except.ok.inj h]
      rfl

@[simp] theorem map_eq_ok {x : Except ε α} {f : α → β} {b : β} :
    f <$> x = .ok b ↔ ∃ a, x = .ok a ∧ f a = b := by
  cases x <;> simp [Functor.map, Except.map]

@[simp] theorem exists_unit_eq_ok {x : Except ε Unit} : (∃ u, x = .ok u) ↔ x = .ok () :=
  ⟨fun ⟨_, h⟩ => h, fun h => ⟨(), h⟩⟩

theorem refuseIf_neg {c : Prop} [Decidable c] (h : ¬ c) (e : ε) :
    refuseIf c e = .ok () := if_neg h

theorem refuseIf_pos {c : Prop} [Decidable c] (h : c) (e : ε) :
    refuseIf c e = .error e := if_pos h

/-- What a sequence of computations returns comes from one of them. -/
theorem mem_of_mapM_eq_ok {f : α → Except ε β} {xs : List α} {ys : List β}
    (h : xs.mapM f = .ok ys) {y : β} (hy : y ∈ ys) : ∃ x ∈ xs, f x = .ok y := by
  induction xs generalizing ys with
  | nil =>
    cases h
    cases hy
  | cons x xs ih =>
    simp only [List.mapM_cons, bind_eq_ok, pure_eq_ok] at h
    obtain ⟨z, hz, zs, hzs, rfl⟩ := h
    rcases List.mem_cons.mp hy with rfl | hy
    · exact ⟨x, List.mem_cons_self, hz⟩
    · obtain ⟨x', hx', hfx'⟩ := ih hzs hy
      exact ⟨x', List.mem_cons_of_mem x hx', hfx'⟩

theorem mapM_congr {f g : α → Except ε β} {xs : List α} (h : ∀ x ∈ xs, f x = g x) :
    xs.mapM f = xs.mapM g := by
  induction xs with
  | nil => rfl
  | cons x xs ih =>
    rw [List.mapM_cons, List.mapM_cons, h x List.mem_cons_self,
      ih fun x' hx' => h x' (List.mem_cons_of_mem x hx')]

/-- Each element of a list that is mapped is. -/
theorem exists_of_mapM {f : α → Except ε β} {xs : List α} {ys : List β} (h : xs.mapM f = .ok ys)
    {x : α} (hx : x ∈ xs) : ∃ y, f x = .ok y := by
  induction xs generalizing ys with
  | nil => cases hx
  | cons a xs ih =>
    simp only [List.mapM_cons, bind_eq_ok, pure_eq_ok] at h
    obtain ⟨y, hy, zs, hzs, -⟩ := h
    obtain rfl | hx := List.mem_cons.mp hx
    · exact ⟨y, hy⟩
    · exact ih hzs hx

/-- A list is mapped when each of its elements is. -/
theorem exists_mapM {f : α → Except ε β} {xs : List α} (h : ∀ x ∈ xs, ∃ y, f x = .ok y) :
    ∃ ys, xs.mapM f = .ok ys := by
  induction xs with
  | nil => exact ⟨[], rfl⟩
  | cons x xs ih =>
    obtain ⟨y, hy⟩ := h x List.mem_cons_self
    obtain ⟨ys, hys⟩ := ih fun x' hx' => h x' (List.mem_cons_of_mem x hx')
    refine ⟨y :: ys, ?_⟩
    rw [List.mapM_cons, hy, hys]
    rfl

/-- What can be told of the results from the elements they came from. -/
theorem filter_map_mapM {γ : Type} {f : α → Except ε β} {p : β → Bool} {q : α → Bool} {g : β → γ}
    {g' : α → γ} {xs : List α} {ys : List β} (h : xs.mapM f = .ok ys)
    (hf : ∀ x ∈ xs, ∀ y, f x = .ok y → p y = q x ∧ g y = g' x) :
    (ys.filter p).map g = (xs.filter q).map g' := by
  induction xs generalizing ys with
  | nil =>
    cases h
    rfl
  | cons x xs ih =>
    rw [List.mapM_cons] at h
    simp only [bind_eq_ok, pure_eq_ok] at h
    obtain ⟨y, hy, rest, hrest, rfl⟩ := h
    obtain ⟨hp, hg⟩ := hf x List.mem_cons_self y hy
    have htail := ih hrest fun x' hx' => hf x' (List.mem_cons_of_mem x hx')
    rw [List.filter_cons, List.filter_cons, hp]
    split
    · rw [List.map_cons, List.map_cons, hg, htail]
    · exact htail

end Lib
