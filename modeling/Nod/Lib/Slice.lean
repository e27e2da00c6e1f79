import Mathlib

/-
  Bytes of text under checked indexing: an index or a slice out of range, or a text slice off a
  character boundary, fails, and `none` is that failure. Tests run left to right and stop at the
  first that decides (`andAlso`). `parseUnsigned` reads a bounded decimal with an optional plus.
  Proved: slices of ASCII bytes in range do not fail (`slice?_ascii`); digits within the bound
  read as their value (`parseUnsigned_digits`).
-/

namespace Lib.Slice

/-! ## Tests that may fail -/

/-- `a && b`, where `b` is not run once `a` is false. -/
def andAlso (a b : Option Bool) : Option Bool :=
  a.bind fun holds => if holds then b else some false

theorem andAlso_some {a b : Bool} {rest : Option Bool} (h : a = true → rest = some b) :
    andAlso (some a) rest = some (a && b) := by
  cases a with
  | false => rfl
  | true => exact h rfl

/-! ## Indices and slices -/

/-- A text may be cut before its bytes `i`: at an end, or where a character starts. -/
def isCharBoundary (b : List UInt8) (i : ℕ) : Bool :=
  i == 0 || if b.length ≤ i then i == b.length else b[i]?.any fun c => c < 128 || 192 ≤ c

/-- `&bytes[lo..hi]` -/
def byteSlice? (b : List UInt8) (lo hi : ℕ) : Option (List UInt8) :=
  if lo ≤ hi ∧ hi ≤ b.length then some ((b.take hi).drop lo) else none

/-- `&text[lo..hi]` -/
def slice? (b : List UInt8) (lo hi : ℕ) : Option (List UInt8) :=
  if lo ≤ hi ∧ isCharBoundary b lo = true ∧ isCharBoundary b hi = true then
    some ((b.take hi).drop lo)
  else none

theorem isCharBoundary_ascii {b : List UInt8} (h : ∀ c ∈ b, c < 128) {i : ℕ} (hi : i ≤ b.length) :
    isCharBoundary b i = true := by
  unfold isCharBoundary
  rw [Bool.or_eq_true]
  right
  rcases Nat.lt_or_eq_of_le hi with hlt | rfl
  · rw [if_neg (Nat.not_le_of_lt hlt), List.getElem?_eq_getElem hlt, Option.any_some,
      Bool.or_eq_true, decide_eq_true_eq]
    exact .inl (h _ (List.getElem_mem hlt))
  · rw [if_pos (Nat.le_refl _)]
    exact beq_self_eq_true _

theorem slice?_ascii {b : List UInt8} (h : ∀ c ∈ b, c < 128) {lo hi : ℕ} (hle : lo ≤ hi)
    (hhi : hi ≤ b.length) : slice? b lo hi = some ((b.take hi).drop lo) :=
  if_pos ⟨hle, isCharBoundary_ascii h (Nat.le_trans hle hhi), isCharBoundary_ascii h hhi⟩

theorem byteSlice?_eq {b : List UInt8} {lo hi : ℕ} (hle : lo ≤ hi) (hhi : hi ≤ b.length) :
    byteSlice? b lo hi = some ((b.take hi).drop lo) := if_pos ⟨hle, hhi⟩

/-! ## Bounded numbers -/

def isAsciiDigit (c : UInt8) : Bool := 48 ≤ c && c ≤ 57

/-- One more digit, unless it is none or the number passes `max`. -/
def parseStep (max acc : ℕ) (c : UInt8) : Option ℕ :=
  if isAsciiDigit c = true ∧ acc * 10 + (c.toNat - 48) ≤ max then
    some (acc * 10 + (c.toNat - 48))
  else none

def dropPlus : List UInt8 → List UInt8
  | 43 :: rest => rest
  | b => b

/-- `text.parse()` at an unsigned type with largest value `max`: a plus sign may come first. -/
def parseUnsigned (max : ℕ) (b : List UInt8) : Option ℕ :=
  if dropPlus b = [] then none else (dropPlus b).foldlM (parseStep max) 0

def valueOf (b : List UInt8) (acc : ℕ) : ℕ := b.foldl (fun acc c => acc * 10 + (c.toNat - 48)) acc

theorem digit_le {c : UInt8} (h : isAsciiDigit c = true) : 48 ≤ c.toNat ∧ c.toNat ≤ 57 := by
  simpa [isAsciiDigit, UInt8.le_iff_toNat_le] using h

theorem foldlM_parseStep {max : ℕ} {b : List UInt8} (h : ∀ c ∈ b, isAsciiDigit c = true)
    {acc : ℕ} (hmax : (acc + 1) * 10 ^ b.length ≤ max + 1) :
    b.foldlM (parseStep max) acc = some (valueOf b acc) := by
  induction b generalizing acc with
  | nil => rfl
  | cons c b ih =>
    obtain ⟨hlow, hhigh⟩ := digit_le (h c List.mem_cons_self)
    rw [List.length_cons, Nat.pow_succ] at hmax
    have hpos : 0 < 10 ^ b.length := Nat.pow_pos (by decide)
    have hnext : (acc * 10 + (c.toNat - 48) + 1) * 10 ^ b.length ≤ max + 1 := by
      have hstep : acc * 10 + (c.toNat - 48) + 1 ≤ (acc + 1) * 10 := by omega
      refine Nat.le_trans (Nat.mul_le_mul_right _ hstep) ?_
      rwa [Nat.mul_assoc, Nat.mul_comm 10]
    have hbound : acc * 10 + (c.toNat - 48) ≤ max :=
      Nat.le_of_succ_le_succ (Nat.le_trans (Nat.le_mul_of_pos_right _ hpos) hnext)
    rw [List.foldlM_cons, parseStep, if_pos ⟨h c List.mem_cons_self, hbound⟩, Option.bind_eq_bind,
      Option.bind_some, ih (fun d hd => h d (List.mem_cons_of_mem _ hd)) hnext]
    rfl

/-- Digits within the bound read as their value. -/
theorem parseUnsigned_digits {max : ℕ} {b : List UInt8} (h : ∀ c ∈ b, isAsciiDigit c = true)
    (hne : b ≠ []) (hmax : 10 ^ b.length ≤ max + 1) :
    parseUnsigned max b = some (valueOf b 0) := by
  have hplus : dropPlus b = b := by
    unfold dropPlus
    split
    · exact absurd (h 43 List.mem_cons_self) (by decide)
    · rfl
  rw [parseUnsigned, hplus, if_neg hne]
  exact foldlM_parseStep h (by omega)

end Lib.Slice
