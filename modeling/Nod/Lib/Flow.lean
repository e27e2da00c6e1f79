import Mathlib.Data.List.Basic
import Mathlib.Logic.Relation

/-
  A task that shares a state with other tasks. It asks parties outside and waits for their answers,
  and takes the lock of the state for one step at a time; whenever it does not hold the lock the
  others may change the state.
  Proved: a property of traces that holds along every continuation of a task holds in every run,
  whatever is answered and whatever the other tasks do (`Always.reaches`).
-/

namespace Lib

/-- A task: what is asked, and what a question can be answered with, are parameters. -/
inductive Flow (σ A : Type) (R : A → Type) (α : Type) where
  | done (a : α)
  | ask (m : A) (k : R m → Flow σ A R α)
  /-- One step under the lock; the task goes on with the state it found. -/
  | locked (f : σ → σ) (k : σ → Flow σ A R α)

namespace Flow

variable {σ A : Type} {R : A → Type} {α β : Type}

def bind (x : Flow σ A R α) (f : α → Flow σ A R β) : Flow σ A R β :=
  match x with
  | done a => f a
  | ask m k => ask m fun r => (k r).bind f
  | locked g k => locked g fun s => (k s).bind f

/-- What a task has done so far, the latest first. -/
inductive Event (σ A : Type) (R : A → Type) where
  | asked (m : A)
  | answered (m : A) (r : R m)
  | held (s : σ)

inductive Position (σ A : Type) (R : A → Type) (α : Type) where
  | running (flow : Flow σ A R α)
  | waiting (m : A) (k : R m → Flow σ A R α)

structure Config (σ A : Type) (R : A → Type) (α : Type) where
  position : Position σ A R α
  state : σ
  trace : List (Event σ A R)

/-- A step of the task, or of another one. -/
inductive Step (other : σ → σ → Prop) : Config σ A R α → Config σ A R α → Prop
  | other {p : Position σ A R α} {s s' : σ} {t : List (Event σ A R)} :
    other s s' → Step other ⟨p, s, t⟩ ⟨p, s', t⟩
  | ask {m : A} {k : R m → Flow σ A R α} {s : σ} {t : List (Event σ A R)} :
    Step other ⟨.running (.ask m k), s, t⟩ ⟨.waiting m k, s, .asked m :: t⟩
  | answer {m : A} {k : R m → Flow σ A R α} {s : σ} {t : List (Event σ A R)} (r : R m) :
    Step other ⟨.waiting m k, s, t⟩ ⟨.running (k r), s, .answered m r :: t⟩
  | lock {f : σ → σ} {k : σ → Flow σ A R α} {s : σ} {t : List (Event σ A R)} :
    Step other ⟨.running (.locked f k), s, t⟩ ⟨.running (k s), f s, .held s :: t⟩

def Reaches (other : σ → σ → Prop) : Config σ A R α → Config σ A R α → Prop :=
  Relation.ReflTransGen (Step other)

/-! ## Properties of every run -/

/-- `P` along every continuation of a task, and `Q` where it is done. -/
def Always (P : List (Event σ A R) → Prop) (Q : α → List (Event σ A R) → Prop) :
    Flow σ A R α → List (Event σ A R) → Prop
  | done a, t => P t ∧ Q a t
  | ask m k, t => P t ∧ P (.asked m :: t) ∧
      ∀ r, Always P Q (k r) (.answered m r :: .asked m :: t)
  | locked _ k, t => P t ∧ ∀ s, Always P Q (k s) (.held s :: t)

variable {P P' : List (Event σ A R) → Prop} {Q Q' : α → List (Event σ A R) → Prop}

theorem Always.now {x : Flow σ A R α} {t : List (Event σ A R)} (h : Always P Q x t) : P t := by
  cases x with
  | done a | ask m k | locked f k => exact h.1

theorem Always.mono {x : Flow σ A R α} {t : List (Event σ A R)} (h : Always P Q x t)
    (hQ : ∀ a t, Q a t → Q' a t) : Always P Q' x t := by
  induction x generalizing t with
  | done a => exact ⟨h.1, hQ a t h.2⟩
  | ask m k ih => exact ⟨h.1, h.2.1, fun r => ih r (h.2.2 r)⟩
  | locked f k ih => exact ⟨h.1, fun s => ih s (h.2 s)⟩

theorem Always.weaken {x : Flow σ A R α} {t : List (Event σ A R)} (h : Always P Q x t)
    (hP : ∀ t, P t → P' t) : Always P' Q x t := by
  induction x generalizing t with
  | done a => exact ⟨hP t h.1, h.2⟩
  | ask m k ih => exact ⟨hP t h.1, hP _ h.2.1, fun r => ih r (h.2.2 r)⟩
  | locked f k ih => exact ⟨hP t h.1, fun s => ih s (h.2 s)⟩

/-- A task and what follows it. -/
theorem Always.bind {Q : β → List (Event σ A R) → Prop} {x : Flow σ A R α} {f : α → Flow σ A R β}
    {t : List (Event σ A R)} (h : Always P (fun a t => Always P Q (f a) t) x t) :
    Always P Q (x.bind f) t := by
  induction x generalizing t with
  | done a => exact h.2
  | ask m k ih => exact ⟨h.1, h.2.1, fun r => ih r (h.2.2 r)⟩
  | locked g k ih => exact ⟨h.1, fun s => ih s (h.2 s)⟩

/-- Where a run stands, the rest of the task keeps to `P` and `Q`. -/
def Kept (P : List (Event σ A R) → Prop) (Q : α → List (Event σ A R) → Prop)
    (c : Config σ A R α) : Prop :=
  match c.position with
  | .running flow => Always P Q flow c.trace
  | .waiting m k => P c.trace ∧ ∀ r, Always P Q (k r) (.answered m r :: c.trace)

theorem Kept.now {c : Config σ A R α} (h : Kept P Q c) : P c.trace := by
  unfold Kept at h
  split at h
  · exact h.now
  · exact h.1

theorem Kept.step {other : σ → σ → Prop} {c c' : Config σ A R α} (h : Kept P Q c)
    (hstep : Step other c c') : Kept P Q c' := by
  cases hstep with
  | other _ => exact h
  | ask => exact h.2
  | answer r => exact h.2 r
  | lock => exact h.2 _

/-- Whatever is answered and whatever the other tasks do. -/
theorem Always.reaches {other : σ → σ → Prop} {x : Flow σ A R α} {s : σ} {c : Config σ A R α}
    (h : Always P Q x []) (hreaches : Reaches other ⟨.running x, s, []⟩ c) :
    P c.trace ∧ ∀ a, c.position = .running (.done a) → Q a c.trace := by
  have hkept : Kept P Q c := by
    induction hreaches with
    | refl => exact h
    | tail _ hstep ih => exact ih.step hstep
  refine ⟨hkept.now, ?_⟩
  intro a ha
  unfold Kept at hkept
  rw [ha] at hkept
  exact hkept.2

/-! ## Scripted runs -/

/-- The run on given answers in which no other task moves; it waits when there are no more. -/
def play : Flow σ A R α → σ → List ((m : A) → R m) → List (Event σ A R) → Config σ A R α
  | done a, s, _, t => ⟨.running (done a), s, t⟩
  | ask m k, s, [], t => ⟨.waiting m k, s, .asked m :: t⟩
  | ask m k, s, r :: rs, t => (k (r m)).play s rs (.answered m (r m) :: .asked m :: t)
  | locked f k, s, rs, t => (k s).play (f s) rs (.held s :: t)

theorem reaches_play {other : σ → σ → Prop} (x : Flow σ A R α) (s : σ)
    (replies : List ((m : A) → R m)) (t : List (Event σ A R)) :
    Reaches other ⟨.running x, s, t⟩ (x.play s replies t) := by
  induction x generalizing s replies t with
  | done a => exact Relation.ReflTransGen.refl
  | ask m k ih =>
    cases replies with
    | nil => exact .single .ask
    | cons r rs => exact ((Relation.ReflTransGen.single .ask).tail (.answer (r m))).trans (ih _ s rs _)
  | locked f k ih => exact (Relation.ReflTransGen.single .lock).trans (ih s (f s) replies _)

end Flow

end Lib
