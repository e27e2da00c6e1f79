/-
  Programs against a transactional store. A program is a tree of statements; each statement runs
  on the open transaction or, outside it, on the pool. `exec` runs a program on a store where any
  statement, `begin` or `commit` can fail: a failure ends the program, and whatever was not
  committed is dropped. `eval` is the meaning without failures.
  Proved, for every program whose statements all run on the one transaction it opens and that
  commits last (`Transactional`): an error leaves the store as it was (`exec_error`), and a
  success is the one `eval` gives (`exec_ok`, `exec_nil_of_eval`).
-/

namespace Lib

inductive Handle where
  | pool
  | tx
  deriving DecidableEq

/-- A program over stores `σ` with errors `ε`. A statement that breaks a constraint is `none`. -/
inductive Prog (σ ε α : Type) : Type 1 where
  | ret (a : α)
  | fail (e : ε)
  | stmt {β : Type} (h : Handle) (f : σ → Option (β × σ)) (k : β → Prog σ ε α)
  | begin (k : Prog σ ε α)
  | commit (k : Prog σ ε α)

namespace Prog

variable {σ ε α β : Type}

/-! ## Composition -/

protected def bind : Prog σ ε α → (α → Prog σ ε β) → Prog σ ε β
  | ret a, g => g a
  | fail e, _ => fail e
  | stmt h f k, g => stmt h f (fun b => (k b).bind g)
  | begin k, g => begin (k.bind g)
  | commit k, g => commit (k.bind g)

instance : Monad (Prog σ ε) where
  pure := ret
  bind := Prog.bind

/-- One statement of the open transaction. -/
def onTx (f : σ → Option (α × σ)) : Prog σ ε α := stmt .tx f ret

/-- One query of the open transaction. -/
def query (f : σ → α) : Prog σ ε α := onTx fun s => some (f s, s)

/-- One statement of its own, committed at once. -/
def onPool (f : σ → Option (α × σ)) : Prog σ ε α := stmt .pool f ret

/-- A pure computation that can fail. -/
def lift : Except ε α → Prog σ ε α
  | .ok a => ret a
  | .error e => fail e

def beginTx : Prog σ ε Unit := begin (ret ())

def commitTx : Prog σ ε Unit := commit (ret ())

@[simp] theorem ret_bind (a : α) (g : α → Prog σ ε β) : (ret a >>= g) = g a := rfl
@[simp] theorem pure_bind' (a : α) (g : α → Prog σ ε β) : (pure a >>= g : Prog σ ε β) = g a := rfl
@[simp] theorem fail_bind (e : ε) (g : α → Prog σ ε β) : (fail e >>= g) = fail e := rfl
theorem bind_assoc {γ : Type} (p : Prog σ ε α) (f : α → Prog σ ε β) (g : β → Prog σ ε γ) :
    ((p >>= f) >>= g) = p >>= fun a => f a >>= g := by
  induction p with
  | ret a => rfl
  | fail e => rfl
  | stmt h q k ih => exact congrArg (stmt h q) (funext ih)
  | begin k ih => exact congrArg begin ih
  | commit k ih => exact congrArg commit ih

@[simp] theorem lift_ok (a : α) : (lift (.ok a) : Prog σ ε α) = ret a := rfl
@[simp] theorem lift_error (e : ε) : (lift (.error e) : Prog σ ε α) = fail e := rfl

theorem lift_bind_lift (x : Except ε α) (g : α → Except ε β) :
    (lift x >>= fun a => lift (g a) : Prog σ ε β) = lift (x >>= g) := by
  cases x <;> rfl

/-! ## Meaning without failures -/

/-- The store the program leaves behind and its result, when the store never fails. `err` is
    the error of a statement that breaks a constraint. -/
def eval (err : ε) : Prog σ ε α → σ → Except ε (α × σ)
  | ret a, s => .ok (a, s)
  | fail e, _ => .error e
  | stmt _ f k, s =>
    match f s with
    | none => .error err
    | some (b, s') => eval err (k b) s'
  | begin k, s => eval err k s
  | commit k, s => eval err k s

@[simp] theorem eval_ret (err : ε) (a : α) (s : σ) : eval err (ret a) s = .ok (a, s) := rfl
@[simp] theorem eval_pure (err : ε) (a : α) (s : σ) :
    eval err (pure a : Prog σ ε α) s = .ok (a, s) := rfl
@[simp] theorem eval_fail (err e : ε) (s : σ) :
    eval err (fail e : Prog σ ε α) s = .error e := rfl
@[simp] theorem eval_query (err : ε) (f : σ → α) (s : σ) :
    eval err (query f) s = .ok (f s, s) := rfl
@[simp] theorem eval_beginTx (err : ε) (s : σ) :
    eval err (beginTx : Prog σ ε Unit) s = .ok ((), s) := rfl
@[simp] theorem eval_commitTx (err : ε) (s : σ) :
    eval err (commitTx : Prog σ ε Unit) s = .ok ((), s) := rfl

theorem eval_bind (err : ε) (p : Prog σ ε α) (g : α → Prog σ ε β) (s : σ) :
    eval err (p >>= g) s =
      match eval err p s with
      | .ok (a, s') => eval err (g a) s'
      | .error e => .error e := by
  change eval err (p.bind g) s = _
  induction p generalizing s with
  | ret a => rfl
  | fail e => rfl
  | stmt h f k ih =>
    simp only [Prog.bind, eval]
    cases f s with
    | none => rfl
    | some r => exact ih r.1 r.2
  | begin k ih => exact ih s
  | commit k ih => exact ih s

/-- A sequence succeeds when its parts do. -/
theorem eval_bind_eq_ok {err : ε} {p : Prog σ ε α} {g : α → Prog σ ε β} {s : σ} {r : β × σ} :
    eval err (p >>= g) s = .ok r ↔
      ∃ a s', eval err p s = .ok (a, s') ∧ eval err (g a) s' = .ok r := by
  rw [eval_bind]
  cases h : eval err p s with
  | error e => simp
  | ok q =>
    constructor
    · exact fun hr => ⟨q.1, q.2, rfl, hr⟩
    · rintro ⟨a, s', ha, hr⟩
      cases ha
      exact hr

@[simp] theorem eval_onTx_eq_ok {err : ε} {f : σ → Option (α × σ)} {s : σ} {r : α × σ} :
    eval err (onTx f) s = .ok r ↔ f s = some r := by
  simp only [onTx, eval]
  cases f s <;> simp

@[simp] theorem eval_onPool_eq_ok {err : ε} {f : σ → Option (α × σ)} {s : σ} {r : α × σ} :
    eval err (onPool f) s = .ok r ↔ f s = some r := by
  simp only [onPool, eval]
  cases f s <;> simp

@[simp] theorem eval_lift_eq_ok {err : ε} {x : Except ε α} {s : σ} {r : α × σ} :
    eval err (lift x) s = .ok r ↔ x = .ok r.1 ∧ s = r.2 := by
  cases x with
  | error e => simp
  | ok a => simp [Prod.ext_iff]

/-! ## Meaning with failures -/

/-- What the store holds and what an open transaction would make of it. -/
structure Conn (σ : Type) where
  committed : σ
  working : Option σ

/-- One statement: on the pool it is committed at once, on the transaction it stays with it. -/
def Conn.statement (c : Conn σ) (h : Handle) (f : σ → Option (β × σ)) : Option (β × Conn σ) :=
  match h with
  | .pool => (f c.committed).map fun r => (r.1, { c with committed := r.2 })
  | .tx => c.working.bind fun w => (f w).map fun r => (r.1, { c with working := some r.2 })

/-- Run with a schedule of failures, one flag for each statement, `begin` and `commit`; the store
    works once the schedule is used up. A failed commit commits nothing. -/
def run (err : ε) : Prog σ ε α → List Bool → Conn σ → Except ε α × Conn σ
  | ret a, _, c => (.ok a, c)
  | fail e, _, c => (.error e, c)
  | stmt h f k, faults, c =>
    if faults.head? = some true then (.error err, c)
    else
      match c.statement h f with
      | none => (.error err, c)
      | some (b, c') => run err (k b) faults.tail c'
  | begin k, faults, c =>
    if faults.head? = some true then (.error err, c)
    else run err k faults.tail { c with working := some c.committed }
  | commit k, faults, c =>
    if faults.head? = some true then (.error err, c)
    else
      match c.working with
      | none => (.error err, c)
      | some w => run err k faults.tail ⟨w, none⟩

/-- Run a program on a store. A transaction still open at the end is rolled back. -/
def exec (err : ε) (p : Prog σ ε α) (faults : List Bool) (s : σ) : Except ε α × σ :=
  let (r, c) := run err p faults ⟨s, none⟩
  (r, c.committed)

/-- The two ways a single statement on the pool ends. -/
theorem exec_onPool (err : ε) (f : σ → Option (α × σ)) (faults : List Bool) (s : σ) :
    exec err (onPool f) faults s = (.error err, s) ∨
      ∃ a s', f s = some (a, s') ∧ exec err (onPool f) faults s = (.ok a, s') := by
  simp only [exec, onPool, run, Conn.statement]
  split
  · exact Or.inl rfl
  · cases f s with
    | none => exact Or.inl rfl
    | some r => exact Or.inr ⟨r.1, r.2, rfl, rfl⟩

/-- A statement on the pool and what follows it. -/
theorem exec_onPool_bind (err : ε) (f : σ → Option (α × σ)) (k : α → Prog σ ε β)
    (faults : List Bool) (s : σ) :
    exec err (onPool f >>= k) faults s = (.error err, s) ∨
      ∃ a s', f s = some (a, s') ∧ exec err (onPool f >>= k) faults s = exec err (k a) faults.tail s' := by
  change exec err (stmt .pool f fun b => (ret b).bind k) faults s = _ ∨
    ∃ a s', _ ∧ exec err (stmt .pool f fun b => (ret b).bind k) faults s = _
  simp only [exec, run, Conn.statement, Prog.bind]
  split
  · exact Or.inl rfl
  · cases f s with
    | none => exact Or.inl rfl
    | some r => exact Or.inr ⟨r.1, r.2, rfl, rfl⟩

/-- What a program ends with can be checked and put into another shape. -/
theorem exec_bind_lift (err : ε) (p : Prog σ ε α) (g : α → Except ε β) (faults : List Bool) (s : σ) :
    exec err (p >>= fun a => lift (g a)) faults s =
      ((exec err p faults s).1.bind g, (exec err p faults s).2) := by
  have hlift : ∀ (x : Except ε β) (faults : List Bool) (c : Conn σ), run err (lift x) faults c = (x, c) := by
    intro x faults c
    cases x <;> rfl
  have hrun : ∀ (c : Conn σ), run err (p.bind fun a => lift (g a)) faults c =
      ((run err p faults c).1.bind g, (run err p faults c).2) := by
    induction p generalizing faults with
    | ret a => exact hlift (g a) faults
    | fail e => exact fun c => rfl
    | stmt h f k ih =>
      intro c
      simp only [Prog.bind, run]
      split
      · rfl
      · cases c.statement h f with
        | none => rfl
        | some r => exact ih r.1 faults.tail r.2
    | begin k ih =>
      intro c
      simp only [Prog.bind, run]
      split
      · rfl
      · exact ih faults.tail _
    | commit k ih =>
      intro c
      simp only [Prog.bind, run]
      split
      · rfl
      · cases c.working with
        | none => rfl
        | some w => exact ih faults.tail _
  exact congrArg (fun r => (r.1, r.2.committed)) (hrun ⟨s, none⟩)

theorem exec_bind_ret (err : ε) (p : Prog σ ε α) (g : α → β) (faults : List Bool) (s : σ) :
    exec err (p >>= fun a => (pure (g a) : Prog σ ε β)) faults s =
      ((exec err p faults s).1.map g, (exec err p faults s).2) := by
  have h := exec_bind_lift err p (fun a => Except.ok (g a)) faults s
  cases hp : (exec err p faults s).1 with
  | error e =>
    rw [hp] at h
    exact h
  | ok a =>
    rw [hp] at h
    exact h

/-! ## What every statement keeps -/

/-- Each statement stays within a relation and runs on the transaction exactly while one is open:
    at the start (`before`) and at the end (`after`) of the program it may or may not be. -/
def Within (R : σ → σ → Prop) (after : Bool) : Bool → Prog σ ε α → Prop
  | before, ret _ => before = after
  | _, fail _ => True
  | before, stmt h f k =>
    (h = if before then .tx else .pool) ∧ (∀ s b s', f s = some (b, s') → R s s') ∧
      ∀ b, Within R after before (k b)
  | before, begin k => before = false ∧ Within R after true k
  | before, commit k => before = true ∧ Within R after false k

section Within

variable {R : σ → σ → Prop} {before middle after : Bool}

theorem Within.mono {R' : σ → σ → Prop} (hmono : ∀ s s', R s s' → R' s s') {p : Prog σ ε α}
    (hp : Within R after before p) : Within R' after before p := by
  induction p generalizing before with
  | ret a => exact hp
  | fail e => trivial
  | stmt h f k ih =>
    obtain ⟨hhandle, hf, hk⟩ := hp
    exact ⟨hhandle, fun s b s' h => hmono s s' (hf s b s' h), fun b => ih b (hk b)⟩
  | begin k ih => exact ⟨hp.1, ih hp.2⟩
  | commit k ih => exact ⟨hp.1, ih hp.2⟩

theorem within_pure (a : α) : Within R after after (pure a : Prog σ ε α) := rfl

theorem within_lift (x : Except ε α) : Within R after after (lift x : Prog σ ε α) := by
  cases x with
  | error e => trivial
  | ok a => rfl

theorem within_onTx {f : σ → Option (α × σ)} (h : ∀ s b s', f s = some (b, s') → R s s') :
    Within R true true (onTx f : Prog σ ε α) :=
  ⟨rfl, h, fun _ => rfl⟩

theorem within_onPool {f : σ → Option (α × σ)} (h : ∀ s b s', f s = some (b, s') → R s s') :
    Within R false false (onPool f : Prog σ ε α) :=
  ⟨rfl, h, fun _ => rfl⟩

theorem within_beginTx : Within R true false (beginTx : Prog σ ε Unit) := ⟨rfl, rfl⟩

theorem within_commitTx : Within R false true (commitTx : Prog σ ε Unit) := ⟨rfl, rfl⟩

theorem within_bind {p : Prog σ ε α} {g : α → Prog σ ε β} (hp : Within R middle before p)
    (hg : ∀ a, Within R after middle (g a)) : Within R after before (p >>= g) := by
  change Within R after before (p.bind g)
  induction p generalizing before with
  | ret a =>
    cases hp
    exact hg a
  | fail e => trivial
  | stmt h f k ih => exact ⟨hp.1, hp.2.1, fun b => ih b (hp.2.2 b)⟩
  | begin k ih => exact ⟨hp.1, ih hp.2⟩
  | commit k ih => exact ⟨hp.1, ih hp.2⟩

theorem within_lift_bind {x : Except ε α} {g : α → Prog σ ε β}
    (hg : ∀ a, x = .ok a → Within R after before (g a)) : Within R after before (lift x >>= g) := by
  cases x with
  | error e => trivial
  | ok a => exact hg a rfl

theorem run_within (err : ε) (p : Prog σ ε α) (hp : Within R after before p)
    (htrans : ∀ {a b c}, R a b → R b c → R a c) (faults : List Bool) (s : σ) (c : Conn σ)
    (hs : R s c.committed) (hw : before = true → ∃ w, c.working = some w ∧ R s w) :
    R s (run err p faults c).2.committed := by
  induction p generalizing before faults c with
  | ret a => exact hs
  | fail e => exact hs
  | stmt h f k ih =>
    obtain ⟨rfl, hf, hk⟩ := hp
    simp only [run]
    split
    · exact hs
    · cases before with
      | false =>
        simp only [Conn.statement, Bool.false_eq_true, if_false]
        cases hfs : f c.committed with
        | none => exact hs
        | some r => exact ih r.1 (hk r.1) _ _ (htrans hs (hf _ _ _ hfs)) nofun
      | true =>
        obtain ⟨w, hcw, hw⟩ := hw rfl
        simp only [Conn.statement, if_true, hcw, Option.bind_some]
        cases hfs : f w with
        | none => exact hs
        | some r => exact ih r.1 (hk r.1) _ _ hs fun _ => ⟨_, rfl, htrans hw (hf _ _ _ hfs)⟩
  | begin k ih =>
    simp only [run]
    split
    · exact hs
    · exact ih hp.2 _ _ hs fun _ => ⟨_, rfl, hs⟩
  | commit k ih =>
    obtain ⟨w, hcw, hw⟩ := hw hp.1
    simp only [run]
    split
    · exact hs
    · rw [hcw]
      exact ih hp.2 _ _ hw nofun

/-- Wherever a failure strikes, the store has moved within the relation. -/
theorem exec_within (hrefl : ∀ s, R s s) (htrans : ∀ {a b c}, R a b → R b c → R a c) {err : ε}
    {p : Prog σ ε α} (hp : Within R after false p) {faults : List Bool} {s s' : σ}
    {r : Except ε α} (h : exec err p faults s = (r, s')) : R s s' := by
  have := run_within err p hp htrans faults s ⟨s, none⟩ (hrefl s) nofun
  rw [← (Prod.mk.inj h).2]
  exact this

end Within

/-! ## One transaction -/

/-- Statements of the open transaction only. -/
def TxOnly : Prog σ ε α → Prop
  | ret _ => True
  | fail _ => True
  | stmt h _ k => h = .tx ∧ ∀ b, TxOnly (k b)
  | begin _ => False
  | commit _ => False

/-- Statements of the open transaction, then a commit as the last step of every success. -/
def Committing : Prog σ ε α → Prop
  | ret _ => False
  | fail _ => True
  | stmt h _ k => h = .tx ∧ ∀ b, Committing (k b)
  | begin _ => False
  | commit (ret _) => True
  | commit _ => False

/-- Nothing before the transaction is opened, and nothing after its commit. -/
def Transactional : Prog σ ε α → Prop
  | fail _ => True
  | begin k => Committing k
  | _ => False

theorem txOnly_pure (a : α) : TxOnly (pure a : Prog σ ε α) := trivial
theorem txOnly_onTx (f : σ → Option (α × σ)) : TxOnly (onTx f : Prog σ ε α) :=
  ⟨rfl, fun _ => trivial⟩
theorem txOnly_query (f : σ → α) : TxOnly (query f : Prog σ ε α) := txOnly_onTx _

theorem txOnly_lift (x : Except ε α) : TxOnly (lift x : Prog σ ε α) := by
  cases x <;> trivial

theorem txOnly_bind {p : Prog σ ε α} {g : α → Prog σ ε β} (hp : TxOnly p)
    (hg : ∀ a, TxOnly (g a)) : TxOnly (p >>= g) := by
  change TxOnly (p.bind g)
  induction p with
  | ret a => exact hg a
  | fail e => trivial
  | stmt h f k ih => exact ⟨hp.1, fun b => ih b (hp.2 b)⟩
  | begin k ih => exact hp.elim
  | commit k ih => exact hp.elim

theorem committing_bind {p : Prog σ ε α} {g : α → Prog σ ε β} (hp : TxOnly p)
    (hg : ∀ a, Committing (g a)) : Committing (p >>= g) := by
  change Committing (p.bind g)
  induction p with
  | ret a => exact hg a
  | fail e => trivial
  | stmt h f k ih => exact ⟨hp.1, fun b => ih b (hp.2 b)⟩
  | begin k ih => exact hp.elim
  | commit k ih => exact hp.elim

theorem committing_commitTx (a : α) :
    Committing ((do commitTx; pure a) : Prog σ ε α) := trivial

theorem transactional_lift_bind {x : Except ε α} {g : α → Prog σ ε β}
    (hg : ∀ a, x = .ok a → Transactional (g a)) : Transactional (lift x >>= g) := by
  cases x with
  | error e => trivial
  | ok a => exact hg a rfl

theorem transactional_begin {g : Unit → Prog σ ε β} (hg : Committing (g ())) :
    Transactional (beginTx >>= g) := hg

theorem run_stmt_tx (err : ε) (f : σ → Option (β × σ)) (k : β → Prog σ ε α)
    (faults : List Bool) (s w : σ) :
    run err (stmt .tx f k) faults ⟨s, some w⟩ =
      if faults.head? = some true then (.error err, ⟨s, some w⟩)
      else
        match f w with
        | none => (.error err, ⟨s, some w⟩)
        | some (b, w') => run err (k b) faults.tail ⟨s, some w'⟩ := by
  simp only [run, Conn.statement, Option.bind_some]
  cases f w <;> rfl

/-- Inside the transaction the committed store does not move; a success leaves what `eval` says. -/
theorem run_committing (err : ε) (p : Prog σ ε α) (hp : Committing p) (faults : List Bool)
    (s w : σ) :
    (∃ e c, run err p faults ⟨s, some w⟩ = (.error e, c) ∧ c.committed = s) ∨
    (∃ a w', run err p faults ⟨s, some w⟩ = (.ok a, ⟨w', none⟩) ∧
      eval err p w = .ok (a, w')) := by
  induction p generalizing faults w with
  | ret a => exact hp.elim
  | fail e => exact Or.inl ⟨e, _, rfl, rfl⟩
  | stmt h f k ih =>
    obtain ⟨rfl, hk⟩ := hp
    rw [run_stmt_tx]
    simp only [eval]
    split
    · exact Or.inl ⟨err, _, rfl, rfl⟩
    · cases f w with
      | none => exact Or.inl ⟨err, _, rfl, rfl⟩
      | some r => exact ih r.1 (hk r.1) faults.tail r.2
  | begin k ih => exact hp.elim
  | commit k ih =>
    cases k with
    | ret a =>
      simp only [run, eval]
      split
      · exact Or.inl ⟨err, _, rfl, rfl⟩
      · exact Or.inr ⟨a, w, rfl, rfl⟩
    | fail e => exact hp.elim
    | stmt h f k => exact hp.elim
    | begin k => exact hp.elim
    | commit k => exact hp.elim

/-- The two ways a transactional program ends. -/
theorem exec_cases (err : ε) (p : Prog σ ε α) (hp : Transactional p) (faults : List Bool) (s : σ) :
    (∃ e, exec err p faults s = (.error e, s)) ∨
    (∃ a s', exec err p faults s = (.ok a, s') ∧ eval err p s = .ok (a, s')) := by
  cases p with
  | ret a => exact hp.elim
  | stmt h f k => exact hp.elim
  | commit k => exact hp.elim
  | fail e => exact Or.inl ⟨e, rfl⟩
  | begin k =>
    simp only [exec, run, eval]
    split
    · exact Or.inl ⟨err, rfl⟩
    · rcases run_committing err k hp faults.tail s s with ⟨e, c, h1, h2⟩ | ⟨a, w', h1, h2⟩
      · exact Or.inl ⟨e, by rw [h1, h2]⟩
      · exact Or.inr ⟨a, w', by rw [h1], h2⟩

/-- What holds of every end of a transactional program: an error that changed nothing, or the
    success of a store that works. -/
theorem exec_post {err : ε} {p : Prog σ ε α} (hp : Transactional p) {s : σ}
    {R : Except ε α × σ → Prop} (herror : ∀ e, R (.error e, s))
    (hok : ∀ a s', eval err p s = .ok (a, s') → R (.ok a, s')) (faults : List Bool) :
    R (exec err p faults s) := by
  rcases exec_cases err p hp faults s with ⟨e, he⟩ | ⟨a, s', hexec, heval⟩
  · rw [he]
    exact herror e
  · rw [hexec]
    exact hok a s' heval

/-- An error leaves the store as it was, wherever it struck. -/
theorem exec_error {err e : ε} {p : Prog σ ε α} (hp : Transactional p) {faults : List Bool}
    {s s' : σ} (h : exec err p faults s = (.error e, s')) : s' = s := by
  rcases exec_cases err p hp faults s with ⟨e', he⟩ | ⟨a, w, ha, -⟩
  · rw [he] at h
    exact (Prod.mk.inj h).2.symm
  · rw [ha] at h
    exact absurd (Prod.mk.inj h).1 (by simp)

/-- A success is the one of the store that never fails. -/
theorem exec_ok {err : ε} {p : Prog σ ε α} (hp : Transactional p) {faults : List Bool}
    {s s' : σ} {a : α} (h : exec err p faults s = (.ok a, s')) : eval err p s = .ok (a, s') := by
  rcases exec_cases err p hp faults s with ⟨e', he⟩ | ⟨b, w, hb, hw⟩
  · rw [he] at h
    exact absurd (Prod.mk.inj h).1 (by simp)
  · rw [hb] at h
    cases h
    exact hw

theorem run_nil_committing (err : ε) (p : Prog σ ε α) (hp : Committing p) (s w : σ) :
    (∀ e, eval err p w = .error e →
      ∃ c, run err p [] ⟨s, some w⟩ = (.error e, c) ∧ c.committed = s) ∧
    (∀ a w', eval err p w = .ok (a, w') →
      run err p [] ⟨s, some w⟩ = (.ok a, ⟨w', none⟩)) := by
  induction p generalizing w with
  | ret a => exact hp.elim
  | fail e =>
    refine ⟨fun e' he => ?_, fun a w' h => ?_⟩
    · cases he
      exact ⟨_, rfl, rfl⟩
    · cases h
  | stmt h f k ih =>
    obtain ⟨rfl, hk⟩ := hp
    rw [run_stmt_tx]
    simp only [eval, List.head?_nil, reduceCtorEq, if_false, List.tail_nil]
    cases f w with
    | none =>
      refine ⟨fun e he => ?_, fun a w' h => ?_⟩
      · cases he
        exact ⟨_, rfl, rfl⟩
      · cases h
    | some r => exact ih r.1 (hk r.1) r.2
  | begin k ih => exact hp.elim
  | commit k ih =>
    cases k with
    | ret a =>
      refine ⟨fun e he => ?_, fun b w' h => ?_⟩
      · cases he
      · cases h
        rfl
    | fail e => exact hp.elim
    | stmt h f k => exact hp.elim
    | begin k => exact hp.elim
    | commit k => exact hp.elim

/-- On a store that works, a program that can succeed does. -/
theorem exec_nil_of_eval {err : ε} {p : Prog σ ε α} (hp : Transactional p) {s s' : σ} {a : α}
    (h : eval err p s = .ok (a, s')) : exec err p [] s = (.ok a, s') := by
  cases p with
  | ret a => exact hp.elim
  | stmt h f k => exact hp.elim
  | commit k => exact hp.elim
  | fail e => cases h
  | begin k =>
    have := (run_nil_committing err k hp s s).2 a s' h
    simp only [exec, run, List.head?_nil, reduceCtorEq, if_false, List.tail_nil, this]

/-- On a store that works, a program fails with its own error only. -/
theorem exec_nil_of_eval_error {err e : ε} {p : Prog σ ε α} (hp : Transactional p) {s : σ}
    (h : eval err p s = .error e) : exec err p [] s = (.error e, s) := by
  cases p with
  | ret a => exact hp.elim
  | stmt h f k => exact hp.elim
  | commit k => exact hp.elim
  | fail e' => cases h; rfl
  | begin k =>
    obtain ⟨c, hc, hs⟩ := (run_nil_committing err k hp s s).1 e h
    simp only [exec, run, List.head?_nil, reduceCtorEq, if_false, List.tail_nil, hc, hs]

/-! ## Reads outside a transaction -/

/-- On a connection of its own: each statement commits at once. -/
def autocommit : Prog σ ε α → Prog σ ε α
  | ret a => ret a
  | fail e => fail e
  | stmt _ f k => stmt .pool f fun b => (k b).autocommit
  | begin k => begin k.autocommit
  | commit k => commit k.autocommit

/-- The program over the states the store goes through while others run between its statements:
    each statement sees the next of them, and what it changes there is dropped. -/
def spread : Prog σ ε α → Prog (Nat → σ) ε α
  | ret a => ret a
  | fail e => fail e
  | stmt h f k => stmt h (fun sees => (f (sees 0)).map fun r => (r.1, fun n => sees (n + 1)))
      fun b => (k b).spread
  | begin k => begin k.spread
  | commit k => commit k.spread

theorem eval_spread_autocommit (err : ε) (p : Prog σ ε α) (sees : Nat → σ) :
    eval err p.autocommit.spread sees = eval err p.spread sees := by
  induction p generalizing sees with
  | ret a => rfl
  | fail e => rfl
  | stmt h f k ih =>
    simp only [autocommit, spread, eval]
    cases f (sees 0) with
    | none => rfl
    | some r => exact ih r.1 _
  | begin k ih => exact ih sees
  | commit k ih => exact ih sees

theorem spread_bind (p : Prog σ ε α) (g : α → Prog σ ε β) :
    (p >>= g).spread = p.spread >>= fun a => (g a).spread := by
  change (p.bind g).spread = p.spread.bind fun a => (g a).spread
  induction p with
  | ret a => rfl
  | fail e => rfl
  | stmt h f k ih => exact congrArg (stmt h _) (funext ih)
  | begin k ih => exact congrArg begin ih
  | commit k ih => exact congrArg commit ih

@[simp] theorem spread_pure (a : α) : (pure a : Prog σ ε α).spread = pure a := rfl
@[simp] theorem spread_beginTx : (beginTx : Prog σ ε Unit).spread = beginTx := rfl
@[simp] theorem spread_commitTx : (commitTx : Prog σ ε Unit).spread = commitTx := rfl

@[simp] theorem spread_lift (x : Except ε α) : (lift x : Prog σ ε α).spread = lift x := by
  cases x <;> rfl

@[simp] theorem eval_spread_query (err : ε) (f : σ → α) (sees : Nat → σ) :
    eval err (query f : Prog σ ε α).spread sees = .ok (f (sees 0), fun n => sees (n + 1)) := rfl

@[simp] theorem eval_spread_poolRead (err : ε) (f : σ → α) (sees : Nat → σ) :
    eval err (onPool (fun s => some (f s, s)) : Prog σ ε α).spread sees =
      .ok (f (sees 0), fun n => sees (n + 1)) := rfl

end Prog

end Lib
