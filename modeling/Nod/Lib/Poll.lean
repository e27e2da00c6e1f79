import Mathlib.Data.List.Nodup
import Mathlib.Data.List.Perm.Subperm
import Mathlib.Logic.Relation
import Mathlib.Tactic.Common

/-
  One question put to several people, and the journal of what became of it. A ballot is answered
  once for all (shared) or once by each recipient, can be withdrawn or lapse while it is open, and
  can be removed; its journal is kept. `Step` is one change, `Track` a ballot with its journal.
  Proved, over every run: a stored ballot is `Good` and its journal is exactly its history,
  numbered from 1 (`inv_of_run`); its content never changes, and once closed it never changes at
  all (`frozen_of_run`); a removed ballot leaves its journal and never comes back (`gone_of_run`).
-/

namespace Lib.Poll

inductive Phase where
  | open
  | settled
  | withdrawn
  | lapsed
  deriving DecidableEq

inductive Event (δ : Type) where
  | created
  | answered (d : δ)
  | withdrawn
  | lapsed

/-- A ballot over contents `κ`, recipients `υ` and answers `δ`. -/
structure Ballot (κ υ δ : Type) where
  content : κ
  phase : Phase
  outcome : Option δ
  answers : List (υ × δ)
  revision : ℕ

/-- What a content says about its ballot, and how the journal spells an event. -/
structure Rules (κ υ δ lab : Type) where
  shared : κ → Prop
  recipients : κ → List υ
  admits : κ → Prop
  label : Event δ → lab

/-- A ballot while it is stored, and its journal for good. -/
structure Track (κ υ δ lab : Type) where
  ballot : Option (Ballot κ υ δ)
  entries : List (ℕ × lab)

variable {κ υ δ lab : Type} (R : Rules κ υ δ lab)

/-! ## Steps -/

/-- A ballot as it is created. -/
def fresh (k : κ) : Ballot κ υ δ :=
  { content := k, phase := .open, outcome := none, answers := [], revision := 1 }

/-- A ballot settled for all by one answer. -/
def Ballot.settle (b : Ballot κ υ δ) (d : δ) : Ballot κ υ δ :=
  { b with phase := .settled, outcome := some d, revision := b.revision + 1 }

open Classical in
/-- A ballot after one recipient's answer: the last one settles it. -/
noncomputable def Ballot.answer (b : Ballot κ υ δ) (u : υ) (d : δ) : Ballot κ υ δ :=
  { b with
    phase := if (R.recipients b.content).length ≤ b.answers.length + 1 then .settled else .open
    answers := b.answers ++ [(u, d)], revision := b.revision + 1 }

theorem Ballot.answer_last {b : Ballot κ υ δ} {u : υ} {d : δ}
    (h : (R.recipients b.content).length ≤ b.answers.length + 1) :
    b.answer R u d =
      { b with phase := .settled, answers := b.answers ++ [(u, d)], revision := b.revision + 1 } := by
  unfold Ballot.answer
  rw [if_pos h]

theorem Ballot.answer_pending {b : Ballot κ υ δ} {u : υ} {d : δ}
    (h : ¬ (R.recipients b.content).length ≤ b.answers.length + 1) :
    b.answer R u d =
      { b with phase := .open, answers := b.answers ++ [(u, d)], revision := b.revision + 1 } := by
  unfold Ballot.answer
  rw [if_neg h]

/-- A ballot closed without an answer. -/
def Ballot.close (b : Ballot κ υ δ) (phase : Phase) : Ballot κ υ δ :=
  { b with phase := phase, revision := b.revision + 1 }

/-- The track after a change that is journaled under the ballot's new revision. -/
def Track.record (t : Track κ υ δ lab) (b : Ballot κ υ δ) (e : Event δ) : Track κ υ δ lab :=
  { ballot := some b, entries := t.entries ++ [(b.revision, R.label e)] }

inductive Step (t : Track κ υ δ lab) : Track κ υ δ lab → Prop
  | stay : Step t t
  | create (k : κ) : t.ballot = none → (∀ e ∈ t.entries, e.1 ≠ 1) → R.admits k →
      (R.recipients k).Nodup → Step t (t.record R (fresh k) .created)
  | settle (b : Ballot κ υ δ) (d : δ) : t.ballot = some b → b.phase = .open →
      R.shared b.content → Step t (t.record R (b.settle d) (.answered d))
  | answer (b : Ballot κ υ δ) (u : υ) (d : δ) : t.ballot = some b → b.phase = .open →
      ¬ R.shared b.content → u ∈ R.recipients b.content → u ∉ b.answers.map Prod.fst →
      Step t (t.record R (b.answer R u d) (.answered d))
  | withdraw (b : Ballot κ υ δ) : t.ballot = some b → b.phase = .open →
      Step t (t.record R (b.close .withdrawn) .withdrawn)
  | lapse (b : Ballot κ υ δ) : t.ballot = some b → b.phase = .open →
      Step t (t.record R (b.close .lapsed) .lapsed)
  | remove : Step t { t with ballot := none }

/-- Any number of steps. -/
def Run : Track κ υ δ lab → Track κ υ δ lab → Prop := Relation.ReflTransGen (Step R)

/-! ## Invariant -/

/-- The event that closes a ballot without an answer. -/
def closing : Phase → List (Event δ)
  | .open => []
  | .settled => []
  | .withdrawn => [.withdrawn]
  | .lapsed => [.lapsed]

/-- Everything that has happened to a stored ballot. -/
def Ballot.history (b : Ballot κ υ δ) : List (Event δ) :=
  .created :: ((b.answers.map Prod.snd ++ b.outcome.toList).map .answered ++ closing b.phase)

/-- A journal numbered from 1. -/
def numbered (events : List (Event δ)) : List (ℕ × lab) :=
  (List.range' 1 events.length).zip (events.map R.label)

/-- A shared ballot is settled by exactly one answer, any other by those of all its recipients. -/
structure Good (b : Ballot κ υ δ) : Prop where
  admitted : R.admits b.content
  nodup : (R.recipients b.content).Nodup
  revision : b.revision = b.history.length
  shared : R.shared b.content → b.answers = [] ∧ (b.phase = .settled ↔ b.outcome.isSome = true)
  each : ¬ R.shared b.content → b.outcome = none ∧ (b.answers.map Prod.fst).Nodup ∧
    (∀ u ∈ b.answers.map Prod.fst, u ∈ R.recipients b.content) ∧
    (b.phase = .settled ↔ R.recipients b.content ≠ [] ∧
      ∀ u ∈ R.recipients b.content, u ∈ b.answers.map Prod.fst)

/-- The journal of a stored ballot is its history; a removed one leaves the journal it had. -/
def Inv (t : Track κ υ δ lab) : Prop :=
  match t.ballot with
  | some b => Good R b ∧ t.entries = numbered R b.history
  | none => t.entries = [] ∨ ∃ b, Good R b ∧ t.entries = numbered R b.history

/-- A journal starts with revision 1. -/
theorem Inv.entries_eq_nil {t : Track κ υ δ lab} (h : Inv R t) (hfree : ∀ e ∈ t.entries, e.1 ≠ 1) :
    t.entries = [] := by
  have hnumbered : ∀ events, t.entries = numbered R events → t.entries = [] := by
    intro events hentries
    cases events with
    | nil => exact hentries
    | cons e events =>
      refine absurd rfl (hfree (1, R.label e) ?_)
      rw [hentries]
      exact List.mem_cons_self
  unfold Inv at h
  split at h
  · exact hnumbered _ h.2
  · rcases h with hnil | ⟨b, -, hentries⟩
    · exact hnil
    · exact hnumbered _ hentries

/-- The revisions of a journal go up. -/
theorem Inv.revisions {t : Track κ υ δ lab} (h : Inv R t) :
    (t.entries.map Prod.fst).Pairwise (· < ·) := by
  have hnumbered : ∀ events, ((numbered R events).map Prod.fst).Pairwise (· < ·) := by
    intro events
    unfold numbered
    have hlength : (List.range' 1 events.length).length = (events.map R.label).length := by
      rw [List.length_range', List.length_map]
    rw [List.map_fst_zip (Nat.le_of_eq hlength)]
    exact List.pairwise_lt_range'
  unfold Inv at h
  split at h
  · rw [h.2]
    exact hnumbered _
  · rcases h with hnil | ⟨b, -, hentries⟩
    · rw [hnil]
      exact List.Pairwise.nil
    · rw [hentries]
      exact hnumbered _

theorem numbered_append (events : List (Event δ)) (e : Event δ) :
    numbered R (events ++ [e]) = numbered R events ++ [(events.length + 1, R.label e)] := by
  simp only [numbered, List.length_append, List.length_singleton, List.range'_concat,
    List.map_append, List.map_singleton]
  rw [List.zip_append (by simp)]
  simp [Nat.add_comm]

theorem one_mem_numbered (b : Ballot κ υ δ) : ∃ e ∈ numbered R b.history, e.1 = 1 :=
  ⟨_, List.mem_cons_self, rfl⟩

theorem good_fresh {k : κ} (hk : R.admits k) (hn : (R.recipients k).Nodup) :
    Good R (fresh k) := by
  refine ⟨hk, hn, rfl, fun _ => ⟨rfl, by simp [fresh]⟩, fun _ => ⟨rfl, List.nodup_nil, nofun, ?_⟩⟩
  constructor
  · intro h
    cases h
  · rintro ⟨hne, hall⟩
    obtain ⟨u, hu⟩ := List.exists_mem_of_ne_nil _ hne
    exact absurd (hall u hu) List.not_mem_nil

theorem history_settle {b : Ballot κ υ δ} (hb : Good R b) (hopen : b.phase = .open)
    (hs : R.shared b.content) (d : δ) : (b.settle d).history = b.history ++ [.answered d] := by
  obtain ⟨ha, hp⟩ := hb.shared hs
  have ho : b.outcome = none := by
    cases h : b.outcome with
    | none => rfl
    | some x =>
      rw [h, hopen] at hp
      exact absurd (hp.mpr rfl) (by simp)
  simp [Ballot.history, Ballot.settle, ha, ho, hopen, closing]

theorem good_settle {b : Ballot κ υ δ} (hb : Good R b) (hopen : b.phase = .open)
    (hs : R.shared b.content) (d : δ) : Good R (b.settle d) := by
  refine ⟨hb.admitted, hb.nodup, ?_, fun _ => ⟨(hb.shared hs).1, by simp [Ballot.settle]⟩,
    fun h => absurd hs h⟩
  rw [history_settle R hb hopen hs, List.length_append, List.length_singleton, ← hb.revision]
  rfl

/-- Answers of distinct recipients reach their number when nobody is missing. -/
theorem length_le_iff_all {us vs : List υ} (hu : us.Nodup) (hv : vs.Nodup)
    (hsub : ∀ v ∈ vs, v ∈ us) : us.length ≤ vs.length ↔ ∀ u ∈ us, u ∈ vs := by
  constructor
  · intro hle u hmem
    have hperm : vs.Perm us :=
      (List.subperm_of_subset hv hsub).perm_of_length_le hle
    exact hperm.mem_iff.mpr hmem
  · intro hall
    exact (List.subperm_of_subset hu hall).length_le

theorem history_answer {b : Ballot κ υ δ} (hb : Good R b) (hopen : b.phase = .open)
    (hs : ¬ R.shared b.content) (u : υ) (d : δ) :
    (b.answer R u d).history = b.history ++ [.answered d] := by
  have ho := (hb.each hs).1
  have hc : closing (δ := δ) (b.answer R u d).phase = [] := by
    simp only [Ballot.answer]
    split <;> rfl
  simp only [Ballot.history, hc]
  simp [Ballot.answer, ho, hopen, closing]

theorem good_answer {b : Ballot κ υ δ} (hb : Good R b) (hopen : b.phase = .open)
    (hs : ¬ R.shared b.content) {u : υ} (hu : u ∈ R.recipients b.content)
    (hnew : u ∉ b.answers.map Prod.fst) (d : δ) : Good R (b.answer R u d) := by
  obtain ⟨ho, hn, hsub, -⟩ := hb.each hs
  have hn' : ((b.answer R u d).answers.map Prod.fst).Nodup := by
    simp only [Ballot.answer, List.map_append, List.map_singleton]
    exact List.nodup_append.mpr ⟨hn, List.nodup_singleton u, by
      rintro a ha c hc rfl
      exact hnew (List.mem_singleton.mp hc ▸ ha)⟩
  have hsub' : ∀ v ∈ (b.answer R u d).answers.map Prod.fst, v ∈ R.recipients b.content := by
    intro v hv
    simp only [Ballot.answer, List.map_append, List.map_singleton, List.mem_append,
      List.mem_singleton] at hv
    rcases hv with hv | rfl
    · exact hsub v hv
    · exact hu
  refine ⟨hb.admitted, hb.nodup, ?_, fun h => absurd h hs, fun _ => ⟨ho, hn', hsub', ?_⟩⟩
  · rw [history_answer R hb hopen hs, List.length_append, List.length_singleton, ← hb.revision]
    rfl
  · have hlen : (R.recipients b.content).length ≤ b.answers.length + 1 ↔
        ∀ v ∈ R.recipients b.content, v ∈ (b.answer R u d).answers.map Prod.fst := by
      rw [← length_le_iff_all hb.nodup hn' hsub']
      simp [Ballot.answer]
    have hne : R.recipients b.content ≠ [] := List.ne_nil_of_mem hu
    rw [show (b.answer R u d).content = b.content from rfl, ← hlen]
    simp only [Ballot.answer]
    constructor
    · intro h
      refine ⟨hne, ?_⟩
      by_contra hlt
      rw [if_neg hlt] at h
      cases h
    · intro h
      rw [if_pos h.2]

theorem history_close {b : Ballot κ υ δ} (hopen : b.phase = .open) (phase : Phase) :
    (b.close phase).history = b.history ++ closing phase := by
  simp [Ballot.history, Ballot.close, hopen, closing]

/-- Closing an open ballot without an answer leaves it good. -/
theorem good_close {b : Ballot κ υ δ} (hb : Good R b) (hopen : b.phase = .open) {phase : Phase}
    (hphase : phase ≠ .settled) (hone : (closing (δ := δ) phase).length = 1) :
    Good R (b.close phase) := by
  refine ⟨hb.admitted, hb.nodup, ?_, fun hs => ?_, fun hs => ?_⟩
  · rw [history_close hopen, List.length_append, hone, ← hb.revision]
    rfl
  · obtain ⟨ha, hp⟩ := hb.shared hs
    refine ⟨ha, ?_⟩
    rw [show (b.close phase).outcome = b.outcome from rfl, ← hp, hopen]
    exact ⟨fun h => absurd h hphase, fun h => by cases h⟩
  · obtain ⟨ho, hn, hsub, hp⟩ := hb.each hs
    refine ⟨ho, hn, hsub, ?_⟩
    rw [show (b.close phase).content = b.content from rfl,
      show (b.close phase).answers = b.answers from rfl, ← hp, hopen]
    exact ⟨fun h => absurd h hphase, fun h => by cases h⟩

/-- A journaled change appends what the history gains. -/
theorem inv_record {t : Track κ υ δ lab} {b b' : Ballot κ υ δ} {e : Event δ}
    (hentries : t.entries = numbered R b.history) (hb' : Good R b')
    (hhistory : b'.history = b.history ++ [e]) : Inv R (t.record R b' e) := by
  refine ⟨hb', ?_⟩
  have hrev : b'.revision = b.history.length + 1 := by
    rw [hb'.revision, hhistory, List.length_append, List.length_singleton]
  simp only [Track.record]
  rw [hhistory, numbered_append, hentries, hrev]

theorem inv_step {t t' : Track κ υ δ lab} (h : Inv R t) (hstep : Step R t t') : Inv R t' := by
  unfold Inv at h
  cases hstep with
  | stay => exact h
  | create k hnone hunused hk hn =>
    rw [hnone] at h
    rcases h with h | ⟨b, -, h⟩
    · refine ⟨good_fresh R hk hn, ?_⟩
      simp only [Track.record, h]
      rfl
    · obtain ⟨e, he, hone⟩ := one_mem_numbered R b
      exact absurd hone (hunused e (h ▸ he))
  | settle b d hb hopen hs =>
    rw [hb] at h
    exact inv_record R h.2 (good_settle R h.1 hopen hs d) (history_settle R h.1 hopen hs d)
  | answer b u d hb hopen hs hu hnew =>
    rw [hb] at h
    exact inv_record R h.2 (good_answer R h.1 hopen hs hu hnew d) (history_answer R h.1 hopen hs u d)
  | withdraw b hb hopen =>
    rw [hb] at h
    exact inv_record R h.2 (good_close R h.1 hopen (by decide) rfl) (history_close hopen .withdrawn)
  | lapse b hb hopen =>
    rw [hb] at h
    exact inv_record R h.2 (good_close R h.1 hopen (by decide) rfl) (history_close hopen .lapsed)
  | remove =>
    cases hb : t.ballot with
    | none =>
      rw [hb] at h
      exact h
    | some b =>
      rw [hb] at h
      exact Or.inr ⟨b, h⟩

theorem inv_of_run {t t' : Track κ υ δ lab} (h : Inv R t) (hrun : Run R t t') : Inv R t' := by
  induction hrun with
  | refl => exact h
  | tail _ hstep ih => exact inv_step R ih hstep

/-- A journal speaks of the ballot that was stored last, gone or not. -/
def Remembers (t : Track κ υ δ lab) : Option (Ballot κ υ δ) → Prop
  | none => t.ballot = none ∧ t.entries = []
  | some b => (t.ballot = none ∨ t.ballot = some b) ∧ Good R b ∧ t.entries = numbered R b.history

theorem inv_of_remembers {t : Track κ υ δ lab} {last : Option (Ballot κ υ δ)}
    (h : Remembers R t last) : Inv R t := by
  unfold Inv
  cases last with
  | none =>
    obtain ⟨hnone, hentries⟩ := h
    rw [hnone]
    exact Or.inl hentries
  | some b =>
    obtain ⟨hnone | hsome, hgood, hentries⟩ := h
    · rw [hnone]
      exact Or.inr ⟨b, hgood, hentries⟩
    · rw [hsome]
      exact ⟨hgood, hentries⟩

/-- A step that leaves no ballot adds nothing to the journal. -/
theorem entries_of_gone {t t' : Track κ υ δ lab} (hstep : Step R t t') (hnone : t'.ballot = none) :
    t'.entries = t.entries := by
  cases hstep with
  | stay => rfl
  | remove => rfl
  | create k _ _ _ _ => cases hnone
  | settle b d _ _ _ => cases hnone
  | answer b u d _ _ _ _ _ => cases hnone
  | withdraw b _ _ => cases hnone
  | lapse b _ _ => cases hnone

theorem remembers_step {t t' : Track κ υ δ lab} {last : Option (Ballot κ υ δ)}
    (h : Remembers R t last) (hstep : Step R t t') : Remembers R t' (t'.ballot.or last) := by
  have hinv := inv_step R (inv_of_remembers R h) hstep
  cases hb : t'.ballot with
  | some b =>
    unfold Inv at hinv
    rw [hb] at hinv
    exact ⟨Or.inr hb, hinv⟩
  | none =>
    have hentries := entries_of_gone R hstep hb
    rw [Option.none_or]
    cases last with
    | none => exact ⟨hb, hentries.trans h.2⟩
    | some b => exact ⟨Or.inl hb, h.2.1, hentries.trans h.2.2⟩

/-! ## What does not change -/

/-- A removed ballot stays away, and its journal stays. -/
theorem gone_of_run {t t' : Track κ υ δ lab} (h : Inv R t) (hnone : t.ballot = none)
    (hseen : t.entries ≠ []) (hrun : Run R t t') : t' = t := by
  induction hrun with
  | refl => rfl
  | @tail u v _ hstep ih =>
    subst ih
    cases hstep with
    | stay => rfl
    | create k _ hunused =>
      unfold Inv at h
      rw [hnone] at h
      rcases h with h | ⟨b, -, h⟩
      · exact absurd h hseen
      · obtain ⟨e, he, hone⟩ := one_mem_numbered R b
        exact absurd hone (hunused e (h ▸ he))
    | settle b d hb => rw [hnone] at hb; cases hb
    | answer b u d hb => rw [hnone] at hb; cases hb
    | withdraw b hb => rw [hnone] at hb; cases hb
    | lapse b hb => rw [hnone] at hb; cases hb
    | remove =>
      cases u
      cases hnone
      rfl

/-- One step on a stored ballot: it is removed, or it keeps its content, and everything if it was
    closed. -/
theorem frozen_step {t t' : Track κ υ δ lab} {b : Ballot κ υ δ} (hb : t.ballot = some b)
    (hstep : Step R t t') :
    t' = { t with ballot := none } ∨
      ∃ b', t'.ballot = some b' ∧ b'.content = b.content ∧ (b.phase ≠ .open → t' = t) := by
  cases hstep with
  | stay => exact Or.inr ⟨b, hb, rfl, fun _ => rfl⟩
  | create k hnone => rw [hb] at hnone; cases hnone
  | settle c d hc hopen =>
    rw [hb] at hc
    cases hc
    exact Or.inr ⟨_, rfl, rfl, fun h => absurd hopen h⟩
  | answer c u d hc hopen =>
    rw [hb] at hc
    cases hc
    exact Or.inr ⟨_, rfl, rfl, fun h => absurd hopen h⟩
  | withdraw c hc hopen =>
    rw [hb] at hc
    cases hc
    exact Or.inr ⟨_, rfl, rfl, fun h => absurd hopen h⟩
  | lapse c hc hopen =>
    rw [hb] at hc
    cases hc
    exact Or.inr ⟨_, rfl, rfl, fun h => absurd hopen h⟩
  | remove => exact Or.inl rfl

/-- A stored ballot over a run: removed with the journal of some moment, or the same content, and
    the same in everything if it was closed. -/
theorem frozen_of_run {t t' : Track κ υ δ lab} {b : Ballot κ υ δ} (h : Inv R t)
    (hb : t.ballot = some b) (hrun : Run R t t') :
    (t'.ballot = none ∧ t'.entries ≠ [] ∧ (b.phase ≠ .open → t'.entries = t.entries)) ∨
      ∃ b', t'.ballot = some b' ∧ b'.content = b.content ∧ (b.phase ≠ .open → t' = t) := by
  induction hrun with
  | refl => exact Or.inr ⟨b, hb, rfl, fun _ => rfl⟩
  | @tail u v hrun hstep ih =>
    have hinv := inv_of_run R h hrun
    rcases ih with ⟨hnone, hseen, hkeep⟩ | ⟨c, hc, hcontent, hkeep⟩
    · have hv := gone_of_run R hinv hnone hseen (Relation.ReflTransGen.single hstep)
      rw [hv]
      exact Or.inl ⟨hnone, hseen, hkeep⟩
    · rcases frozen_step R hc hstep with rfl | ⟨c', hc', hcontent', hkeep'⟩
      · refine Or.inl ⟨rfl, ?_, fun hclosed => by rw [hkeep hclosed]⟩
        unfold Inv at hinv
        rw [hc] at hinv
        rw [hinv.2]
        obtain ⟨e, he, -⟩ := one_mem_numbered R c
        exact List.ne_nil_of_mem he
      · refine Or.inr ⟨c', hc', hcontent'.trans hcontent, fun hclosed => ?_⟩
        have hu := hkeep hclosed
        subst hu
        rw [hb] at hc
        cases hc
        exact hkeep' hclosed

/-- A stored ballot over a run: removed for good, or kept up to a preorder that every step on a stored
    ballot stays within. -/
theorem kept_of_run {K : Ballot κ υ δ → Ballot κ υ δ → Prop} (hrefl : ∀ b, K b b)
    (htrans : ∀ a b c, K a b → K b c → K a c)
    (hstep : ∀ {t t' : Track κ υ δ lab} {b b'}, Inv R t → t.ballot = some b → Step R t t' →
      t'.ballot = some b' → K b b')
    {t t' : Track κ υ δ lab} {b b' : Ballot κ υ δ} (h : Inv R t) (hb : t.ballot = some b)
    (hrun : Run R t t') (hb' : t'.ballot = some b') : K b b' := by
  induction hrun generalizing b' with
  | refl =>
    rw [hb] at hb'
    cases hb'
    exact hrefl b
  | @tail u v hrun hlast ih =>
    have hinv := inv_of_run R h hrun
    rcases frozen_of_run R h hb hrun with ⟨hnone, hseen, -⟩ | ⟨c, hc, -, -⟩
    · have hv := gone_of_run R hinv hnone hseen (Relation.ReflTransGen.single hlast)
      rw [hv, hnone] at hb'
      cases hb'
    · exact htrans b c b' (ih hc) (hstep hinv hc hlast hb')

/-- Who is done with a ballot: everybody once it is closed, and before that those whose answers it
    has. -/
def Ballot.Handled (b : Ballot κ υ δ) (u : υ) : Prop := b.phase ≠ .open ∨ u ∈ b.answers.map Prod.fst

theorem handled_step {t t' : Track κ υ δ lab} {b b' : Ballot κ υ δ} {u : υ} (hb : t.ballot = some b)
    (hstep : Step R t t') (hb' : t'.ballot = some b') (hu : b.Handled u) : b'.Handled u := by
  cases hstep with
  | stay =>
    rw [hb] at hb'
    cases hb'
    exact hu
  | create k hnone => rw [hb] at hnone; cases hnone
  | settle c d hc hopen =>
    cases hb'
    exact Or.inl Phase.noConfusion
  | answer c v d hc hopen =>
    rw [hb] at hc
    cases hc
    cases hb'
    rcases hu with hclosed | hmem
    · exact absurd hopen hclosed
    · refine Or.inr ?_
      unfold Ballot.answer
      rw [List.map_append]
      exact List.mem_append_left _ hmem
  | withdraw c hc hopen =>
    cases hb'
    exact Or.inl Phase.noConfusion
  | lapse c hc hopen =>
    cases hb'
    exact Or.inl Phase.noConfusion
  | remove => cases hb'

/-- Who is done with a ballot stays done with it. -/
theorem handled_of_run {t t' : Track κ υ δ lab} {b b' : Ballot κ υ δ} (h : Inv R t)
    (hb : t.ballot = some b) (hrun : Run R t t') (hb' : t'.ballot = some b') {u : υ}
    (hu : b.Handled u) : b'.Handled u :=
  kept_of_run R (K := fun b b' => b.Handled u → b'.Handled u) (fun _ h => h)
    (fun _ _ _ h k hu => k (h hu)) (fun _ hb hstep hb' hu => handled_step R hb hstep hb' hu) h hb hrun
    hb' hu

end Lib.Poll
