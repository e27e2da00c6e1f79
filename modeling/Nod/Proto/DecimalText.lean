import Nod.Lib.Decimal
import Nod.Proto.Answer

/-
  The texts of decimal answers (`nod-proto/src/answer.rs`).
  Proved: `validDecimal` accepts the texts of decimals with up to 12 digits and 6 after the point
  and no others (`validDecimal_iff`), so a number has one accepted text (`decimal_answers`).
-/

namespace Nod.Proto

open Lib

/-! ## The scan -/

theorem validInteger_iff {integer : List Char} :
    validDecimal.validInteger integer = true ↔
      integer ≠ [] ∧ integer.length ≤ 12 ∧ Digits integer ∧ NoSpareZero integer := by
  simp only [validDecimal.validInteger, Bool.and_eq_true, decide_eq_true_eq, List.all_eq_true,
    Bool.not_eq_true', Bool.and_eq_false_iff, decide_eq_false_iff_not, and_assoc]
  refine and_congr_right fun hne => and_congr_right fun _ => and_congr_right fun _ => ?_
  have hpos := List.length_pos_iff.mpr hne
  unfold NoSpareZero
  constructor
  · rintro (hshort | hhead) hzero
    · omega
    · exact absurd hzero hhead
  · intro h
    by_cases hzero : integer.head? = some '0'
    · exact .inl (by rw [h hzero]; omega)
    · exact .inr hzero

def negative (value : String) : Bool := value.toList.head? = some '-'

/-- The text after the sign, as the scan takes it. -/
def unsigned (value : String) : List Char :=
  if value.toList.head? = some '-' then value.toList.tail else value.toList

theorem validDecimal_eq (value : String) : validDecimal value =
    match (unsigned value).splitOn '.' with
    | [integer] => validDecimal.validInteger integer && !(negative value && integer == ['0'])
    | [integer, fraction] => validDecimal.validInteger integer && fraction ≠ [] &&
        fraction.length ≤ 6 && fraction.getLast? ≠ some '0' && fraction.all Char.isDigit
    | _ => false := rfl

theorem toList_eq_sign (value : String) :
    value.toList = (if negative value then ['-'] else []) ++ unsigned value := by
  unfold unsigned negative
  by_cases h : value.toList.head? = some '-'
  · obtain ⟨cs, hcs⟩ := List.head?_eq_some_iff.mp h
    rw [if_pos (decide_eq_true h), if_pos h, hcs]
    rfl
  · rw [if_neg (fun hminus => h (of_decide_eq_true hminus)), if_neg h]
    rfl

/-- The parts of an accepted text: no fraction stands for no point. -/
structure Parts (value : String) (integer fraction : List Char) : Prop where
  split : (unsigned value).splitOn '.' = integer :: if fraction = [] then [] else [fraction]
  whole : integer ≠ [] ∧ integer.length ≤ 12 ∧ Digits integer ∧ NoSpareZero integer
  part : fraction.length ≤ 6 ∧ fraction.getLast? ≠ some '0' ∧ Digits fraction
  sign : negative value = true → ¬ (integer = ['0'] ∧ fraction = [])

theorem parts_of_validDecimal {value : String} (h : validDecimal value = true) :
    ∃ integer fraction, Parts value integer fraction := by
  rw [validDecimal_eq] at h
  match hsplit : (unsigned value).splitOn '.' with
  | [] => exact absurd hsplit (List.splitOn_ne_nil _ _)
  | [integer] =>
    rw [hsplit] at h
    simp only [Bool.and_eq_true, validInteger_iff, Bool.not_eq_true', Bool.and_eq_false_iff,
      beq_eq_false_iff_ne] at h
    refine ⟨integer, [], hsplit, h.1, ⟨Nat.zero_le 6, nofun, nofun⟩, ?_⟩
    rintro hminus ⟨hzero, -⟩
    rcases h.2 with hpositive | hinteger
    · rw [hminus] at hpositive
      cases hpositive
    · exact hinteger hzero
  | [integer, fraction] =>
    rw [hsplit] at h
    simp only [Bool.and_eq_true, validInteger_iff, decide_eq_true_eq, List.all_eq_true] at h
    obtain ⟨⟨⟨⟨hinteger, hne⟩, hlength⟩, hlast⟩, hdigits⟩ := h
    exact ⟨integer, fraction, by rw [hsplit, if_neg hne], hinteger, ⟨hlength, hlast, hdigits⟩,
      fun _ hzero => hne hzero.2⟩
  | _ :: _ :: _ :: _ =>
    rw [hsplit] at h
    cases h

theorem validDecimal_of_parts {value : String} {integer fraction : List Char}
    (h : Parts value integer fraction) : validDecimal value = true := by
  obtain ⟨hsplit, hinteger, ⟨hlength, hlast, hdigits⟩, hsign⟩ := h
  rw [validDecimal_eq, hsplit]
  by_cases hnone : fraction = []
  · rw [if_pos hnone]
    simp only [Bool.and_eq_true, validInteger_iff, Bool.not_eq_true', Bool.and_eq_false_iff,
      beq_eq_false_iff_ne]
    refine ⟨hinteger, ?_⟩
    by_cases hminus : negative value = true
    · exact .inr fun hzero => hsign hminus ⟨hzero, hnone⟩
    · exact .inl (Bool.eq_false_of_not_eq_true hminus)
  · rw [if_neg hnone]
    simp only [Bool.and_eq_true, validInteger_iff, decide_eq_true_eq, List.all_eq_true]
    exact ⟨⟨⟨⟨hinteger, hnone⟩, hlength⟩, hlast⟩, hdigits⟩

/-! ## Accepted texts are the texts of decimals -/

theorem intercalate_parts (integer fraction : List Char) :
    ['.'].intercalate (integer :: if fraction = [] then [] else [fraction]) =
      integer ++ point fraction := by
  cases fraction with
  | nil => simp [point]
  | cons c cs => simp [point, List.intercalate]

theorem validDecimal_iff (value : String) :
    validDecimal value = true ↔ ∃ d : Decimal 12 6, value.toList = d.text := by
  constructor
  · intro h
    obtain ⟨integer, fraction, hparts⟩ := parts_of_validDecimal h
    have htext : unsigned value = integer ++ point fraction := by
      rw [← intercalate_parts, ← hparts.split, List.intercalate_splitOn]
    refine ⟨{
      negative := negative value
      integer := integer
      fraction := fraction
      digits := ⟨hparts.whole.2.2.1, hparts.part.2.2⟩
      nonempty := hparts.whole.1
      fits := ⟨hparts.whole.2.1, hparts.part.1⟩
      leading := hparts.whole.2.2.2
      trailing := hparts.part.2.1
      unsignedZero := hparts.sign }, ?_⟩
    exact (toList_eq_sign value).trans (congrArg _ htext)
  · rintro ⟨d, hd⟩
    have hnegative : negative value = d.negative := by
      rw [Bool.eq_iff_iff, negative, hd, decide_eq_true_eq]
      by_cases hneg : d.negative = true
      · rw [d.text_of_negative hneg]
        exact iff_of_true List.head?_cons hneg
      · rw [d.text_of_positive hneg]
        exact iff_of_false d.head?_unsignedText hneg
    have hunsigned : unsigned value = d.integer ++ point d.fraction := by
      have htext := toList_eq_sign value
      rw [hd, hnegative] at htext
      exact (List.append_cancel_left htext).symm
    refine validDecimal_of_parts ⟨?_, ⟨d.nonempty, d.fits.1, d.digits.1, d.leading⟩,
      ⟨d.fits.2, d.trailing, d.digits.2⟩, fun hminus => d.unsignedZero (hnegative ▸ hminus)⟩
    rw [hunsigned, splitOn_point d.digits.1 d.digits.2]

/-! ## One text a number -/

/-- The accepted texts are the spellings of the numbers that fit, one of each. -/
structure OneSpelling (accepts : String → Bool) (i f : ℕ) : Prop where
  canonical : ∀ s : String, accepts s = true ↔
    ∃ q, FitsDigits i f q ∧ s.toList = spelling f q ∧ decimalValue? s.toList = some q
  unique : ∀ q, FitsDigits i f q →
    ∃! s : String, accepts s = true ∧ decimalValue? s.toList = some q
  injective : ∀ s t : String, accepts s = true → accepts t = true →
    decimalValue? s.toList = decimalValue? t.toList → s = t

theorem decimal_answers : OneSpelling validDecimal 12 6 where
  canonical s := by
    rw [validDecimal_iff]
    constructor
    · rintro ⟨d, hd⟩
      exact ⟨d.toRat, d.fitsDigits_toRat, by rw [hd, d.text_eq_spelling],
        by rw [hd, d.decimalValue?_text]⟩
    · rintro ⟨q, hq, hs, -⟩
      obtain ⟨d, rfl⟩ := Decimal.exists_toRat (by decide) hq
      exact ⟨d, by rw [hs, d.text_eq_spelling]⟩
  unique q hq := by
    obtain ⟨d, rfl⟩ := Decimal.exists_toRat (i := 12) (by decide) hq
    refine ⟨String.ofList d.text, ⟨?_, ?_⟩, ?_⟩
    · exact (validDecimal_iff _).mpr ⟨d, String.toList_ofList⟩
    · simp only [String.toList_ofList, d.decimalValue?_text]
    · rintro s ⟨hs, hvalue⟩
      obtain ⟨e, he⟩ := (validDecimal_iff s).mp hs
      rw [he, e.decimalValue?_text] at hvalue
      rw [← Decimal.toRat_inj (Option.some.inj hvalue), ← he, String.ofList_toList]
  injective s t hs ht h := by
    obtain ⟨d, hd⟩ := (validDecimal_iff s).mp hs
    obtain ⟨e, he⟩ := (validDecimal_iff t).mp ht
    rw [hd, he, d.decimalValue?_text, e.decimalValue?_text] at h
    rw [← String.toList_inj, hd, he, Decimal.toRat_inj (Option.some.inj h)]

example : validDecimal "-0.0" = false := by decide

end Nod.Proto
