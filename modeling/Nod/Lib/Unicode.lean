import Nod.Lib.Text

/-
  Canonical equivalence of Unicode texts: decompose every character in full, put each run of
  combining marks in the order of their classes, compare. The Unicode Character Database is a
  parameter, with what is used of it.
  Proved: an ASCII text is its own canonical form (`nfd_ascii`), and no text is canonically
  equivalent to a part of itself (`eq_of_sublist`).
-/

namespace Lib.Unicode

open Text

/-- Full canonical decompositions and combining classes. -/
structure CanonicalData where
  decompose : Char → List Char
  combiningClass : Char → ℕ
  decompose_ne_nil : ∀ c, decompose c ≠ []
  decompose_ascii : ∀ c, isAscii c = true → decompose c = [c]
  combiningClass_ascii : ∀ c, isAscii c = true → combiningClass c = 0

namespace CanonicalData

variable (U : CanonicalData)

/-- Put a mark behind the marks of smaller class that follow it. -/
def sink (c : Char) : List Char → List Char
  | [] => [c]
  | d :: ds =>
    if 0 < U.combiningClass d ∧ U.combiningClass d < U.combiningClass c then d :: sink c ds
    else c :: d :: ds

def reorder : List Char → List Char
  | [] => []
  | c :: cs => U.sink c (reorder cs)

/-- The canonical form of a text. -/
def nfd (s : String) : List Char := U.reorder (s.toList.flatMap U.decompose)

/-- Canonical equivalence. -/
def same (s t : String) : Bool := U.nfd s = U.nfd t

variable {U}

theorem same_iff {s t : String} : U.same s t = true ↔ U.nfd s = U.nfd t := decide_eq_true_iff

theorem same_refl (s : String) : U.same s s = true := same_iff.mpr rfl

theorem length_sink (c : Char) (ds : List Char) : (U.sink c ds).length = ds.length + 1 := by
  induction ds with
  | nil => rfl
  | cons d ds ih =>
    unfold sink
    split
    · rw [List.length_cons, ih, List.length_cons]
    · rfl

theorem length_reorder (cs : List Char) : (U.reorder cs).length = cs.length := by
  induction cs with
  | nil => rfl
  | cons c cs ih => rw [reorder, length_sink, ih, List.length_cons]

theorem length_le_flatMap (cs : List Char) : cs.length ≤ (cs.flatMap U.decompose).length := by
  induction cs with
  | nil => exact Nat.le_refl 0
  | cons c cs ih =>
    have hpos := List.length_pos_iff.mpr (U.decompose_ne_nil c)
    rw [List.flatMap_cons, List.length_append, List.length_cons]
    omega

theorem length_le_nfd (s : String) : s.toList.length ≤ (U.nfd s).length := by
  unfold nfd
  rw [length_reorder]
  exact length_le_flatMap s.toList

/-! ## ASCII -/

theorem reorder_ascii {cs : List Char} (h : ∀ c ∈ cs, isAscii c = true) : U.reorder cs = cs := by
  induction cs with
  | nil => rfl
  | cons c cs ih =>
    rw [reorder, ih fun d hd => h d (List.mem_cons_of_mem _ hd)]
    cases cs with
    | nil => rfl
    | cons d ds =>
      have hc := U.combiningClass_ascii c (h c List.mem_cons_self)
      unfold sink
      rw [if_neg (by omega)]

theorem nfd_ascii {s : String} (h : ∀ c ∈ s.toList, isAscii c = true) : U.nfd s = s.toList := by
  have hflat : s.toList.flatMap U.decompose = s.toList := by
    rw [List.flatMap_congr fun c hc => U.decompose_ascii c (h c hc), List.flatMap_singleton']
  unfold nfd
  rw [hflat, reorder_ascii h]

/-- Canonically equivalent ASCII texts are equal. -/
theorem same_ascii {s t : String} (hs : ∀ c ∈ s.toList, isAscii c = true)
    (ht : ∀ c ∈ t.toList, isAscii c = true) : U.same s t = true ↔ s = t := by
  rw [same_iff, nfd_ascii hs, nfd_ascii ht, String.toList_inj]

/-! ## Parts of a text -/

theorem length_flatMap_mono {s t : List Char} (h : s.Sublist t) :
    (s.flatMap U.decompose).length ≤ (t.flatMap U.decompose).length := by
  induction h with
  | slnil => exact Nat.le_refl _
  | cons c _ ih =>
    rw [List.flatMap_cons, List.length_append]
    omega
  | cons_cons c _ ih =>
    rw [List.flatMap_cons, List.flatMap_cons, List.length_append, List.length_append]
    omega

theorem eq_of_length_flatMap {s t : List Char} (h : s.Sublist t)
    (hlength : (t.flatMap U.decompose).length ≤ (s.flatMap U.decompose).length) : s = t := by
  induction h with
  | slnil => rfl
  | cons c hst _ =>
    have hle := length_flatMap_mono (U := U) hst
    have hpos := List.length_pos_iff.mpr (U.decompose_ne_nil c)
    rw [List.flatMap_cons, List.length_append] at hlength
    omega
  | cons_cons c hst ih =>
    rw [List.flatMap_cons, List.flatMap_cons, List.length_append, List.length_append] at hlength
    rw [ih (by omega)]

theorem eq_of_sublist {s t : String} (h : s.toList.Sublist t.toList) (hsame : U.same t s = true) :
    t = s := by
  have hnfd := congrArg List.length (same_iff.mp hsame)
  unfold nfd at hnfd
  rw [length_reorder, length_reorder] at hnfd
  exact String.toList_inj.mp (eq_of_length_flatMap h hnfd.le).symm

/-- A text is canonically equivalent to its trimmed form only when nothing is trimmed. -/
theorem same_trim (s : String) : U.same s (trim s) = true ↔ trim s = s := by
  constructor
  · intro h
    refine (eq_of_sublist ?_ h).symm
    rw [toList_trim]
    exact (List.rdropWhile_prefix isWhitespace _).sublist.trans
      (List.dropWhile_suffix isWhitespace).sublist
  · intro h
    rw [h]
    exact same_refl s

end CanonicalData

end Lib.Unicode
