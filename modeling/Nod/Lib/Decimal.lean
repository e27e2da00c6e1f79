import Nod.Lib.Rfc3339
import Mathlib.Algebra.Order.Floor.Ring
import Mathlib.Data.List.DropRight
import Mathlib.Data.Rat.Floor
import Mathlib.Tactic.FieldSimp
import Mathlib.Tactic.Positivity

/-
  Plain decimal texts: an optional minus sign, digits, and an optional point with digits after it.
  `value?` is the rational such a text denotes, spare zeros and all; `spelling` writes a rational
  without them; a `Decimal` is a text that has none.
  Proved: digits and values invert each other (`toDigits_digitsValue`, `padDigits_digitsValue`);
  every rational that fits is the value of a `Decimal` (`exists_toRat`) and of one only
  (`toRat_inj`), and the text of a `Decimal` is the spelling of its value (`text_eq_spelling`).
-/

namespace Lib

/-! ## Digits and their value -/

def digitsValue (cs : List Char) : ℕ := Nat.ofDigitChars 10 cs 0

def Digits (cs : List Char) : Prop := ∀ c ∈ cs, c.isDigit = true

theorem exists_digitChar {c : Char} (h : c.isDigit = true) : ∃ d < 10, c = Nat.digitChar d := by
  have hn : 48 ≤ c.toNat ∧ c.toNat ≤ 57 := by
    simpa [Char.isDigit, UInt32.le_iff_toNat_le] using h
  have hchar : ∀ d < 10, Char.ofNat (48 + d) = Nat.digitChar d := by decide
  refine ⟨c.toNat - 48, by omega, ?_⟩
  rw [← hchar _ (by omega), Nat.add_sub_cancel' hn.1, Char.ofNat_toNat]

theorem digitsValue_concat_digitChar (cs : List Char) {d : ℕ} (hd : d < 10) :
    digitsValue (cs ++ [Nat.digitChar d]) = 10 * digitsValue cs + d := by
  unfold digitsValue
  rw [Nat.ofDigitChars_append, Nat.ofDigitChars_cons_digitChar_of_lt_ten hd, Nat.ofDigitChars_nil]

theorem digitsValue_cons_digitChar (cs : List Char) {d : ℕ} (hd : d < 10) :
    digitsValue (Nat.digitChar d :: cs) = d * 10 ^ cs.length + digitsValue cs := by
  unfold digitsValue
  rw [Nat.ofDigitChars_cons_digitChar_of_lt_ten hd, Nat.ofDigitChars_eq_ofDigitChars_zero]
  ring

theorem digitsValue_append (cs ds : List Char) :
    digitsValue (cs ++ ds) = digitsValue cs * 10 ^ ds.length + digitsValue ds := by
  unfold digitsValue
  rw [Nat.ofDigitChars_append, Nat.ofDigitChars_eq_ofDigitChars_zero]
  ring

theorem digitsValue_zeros (n : ℕ) : digitsValue (List.replicate n '0') = 0 := by
  unfold digitsValue
  rw [Nat.ofDigitChars_replicate_zero, Nat.mul_zero]

theorem digitsValue_toDigits (n : ℕ) : digitsValue (Nat.toDigits 10 n) = n :=
  Nat.ofDigitChars_ten_toDigits

theorem digitsValue_padDigits {w n : ℕ} (h : n < 10 ^ w) : digitsValue (padDigits w n) = n := by
  unfold digitsValue
  rw [DateTime.ofDigitChars_padDigits, Nat.zero_mul, Nat.zero_add, Nat.mod_eq_of_lt h]

theorem digitsValue_lt {cs : List Char} (h : Digits cs) : digitsValue cs < 10 ^ cs.length := by
  induction cs with
  | nil => exact Nat.one_pos
  | cons c cs ih =>
    obtain ⟨d, hd, rfl⟩ := exists_digitChar (h c List.mem_cons_self)
    have hrest := ih fun e he => h e (List.mem_cons_of_mem _ he)
    rw [digitsValue_cons_digitChar cs hd, List.length_cons, Nat.pow_succ]
    have hle : d * 10 ^ cs.length ≤ 9 * 10 ^ cs.length :=
      Nat.mul_le_mul_right _ (Nat.le_of_lt_succ hd)
    omega

/-- Only the value modulo `10 ^ w` is written. -/
theorem padDigits_add (w d n : ℕ) : padDigits w (d * 10 ^ w + n) = padDigits w n := by
  induction w generalizing d n with
  | zero => rfl
  | succ w ih =>
    have hsplit : d * 10 ^ (w + 1) + n = (d * 10) * 10 ^ w + n := by ring
    have hdigit : ((d * 10) * 10 ^ w + n) / 10 ^ w % 10 = n / 10 ^ w % 10 := by
      rw [Nat.add_comm, Nat.add_mul_div_right _ _ (Nat.pow_pos (by decide))]
      omega
    rw [padDigits, padDigits, hsplit, ih, hdigit]

theorem padDigits_digitsValue {cs : List Char} (h : Digits cs) :
    padDigits cs.length (digitsValue cs) = cs := by
  induction cs with
  | nil => rfl
  | cons c cs ih =>
    obtain ⟨d, hd, rfl⟩ := exists_digitChar (h c List.mem_cons_self)
    have htail : Digits cs := fun e he => h e (List.mem_cons_of_mem _ he)
    have hlt := digitsValue_lt htail
    have hlead : (d * 10 ^ cs.length + digitsValue cs) / 10 ^ cs.length % 10 = d := by
      rw [Nat.add_comm, Nat.add_mul_div_right _ _ (Nat.pow_pos (by decide)),
        Nat.div_eq_of_lt hlt]
      omega
    rw [digitsValue_cons_digitChar cs hd, List.length_cons, padDigits, hlead, padDigits_add,
      ih htail]

/-- No digit is zero before a longer number. -/
def NoSpareZero (cs : List Char) : Prop := cs.head? = some '0' → cs.length = 1

theorem digitsValue_pos {cs : List Char} (h : Digits cs) (hne : cs ≠ [])
    (hlead : cs.head? ≠ some '0') : 0 < digitsValue cs := by
  obtain ⟨c, cs, rfl⟩ := List.exists_cons_of_ne_nil hne
  obtain ⟨d, hd, rfl⟩ := exists_digitChar (h c List.mem_cons_self)
  have hpos : 0 < d := by
    rcases Nat.eq_zero_or_pos d with rfl | hpos
    · exact absurd rfl hlead
    · exact hpos
  rw [digitsValue_cons_digitChar cs hd]
  exact Nat.add_pos_left (Nat.mul_pos hpos (Nat.pow_pos (by decide))) _

theorem toDigits_digitsValue {cs : List Char} (h : Digits cs) (hne : cs ≠ [])
    (hlead : NoSpareZero cs) : Nat.toDigits 10 (digitsValue cs) = cs := by
  -- the last digit is written last, so the induction takes digits off the end
  induction cs using List.reverseRecOn with
  | nil => exact absurd rfl hne
  | append_singleton cs c ih =>
    obtain ⟨d, hd, rfl⟩ := exists_digitChar (h c (List.mem_append_right _ List.mem_cons_self))
    rw [digitsValue_concat_digitChar cs hd]
    rcases eq_or_ne cs [] with rfl | hcs
    · have hzero : digitsValue [] = 0 := rfl
      rw [hzero, Nat.mul_zero, Nat.zero_add, Nat.toDigits_of_lt_base hd, List.nil_append]
    · have hfirst : cs.head? ≠ some '0' := by
        intro hfirst
        have hlength := hlead (by rw [List.head?_append, hfirst]; rfl)
        rw [List.length_append, List.length_singleton] at hlength
        exact hcs (List.length_eq_zero_iff.mp (by omega))
      have hdigits : Digits cs := fun e he => h e (List.mem_append_left _ he)
      have hpos := digitsValue_pos hdigits hcs hfirst
      rw [← Nat.toDigits_append_toDigits (by decide) hpos hd,
        ih hdigits hcs fun hzero => absurd hzero hfirst, Nat.toDigits_of_lt_base hd]

theorem noSpareZero_toDigits (n : ℕ) : NoSpareZero (Nat.toDigits 10 n) := by
  intro hzero
  rcases Nat.eq_zero_or_pos n with rfl | hn
  · rfl
  · exfalso
    induction n using Nat.strongRecOn with
    | ind n ih =>
      rcases Nat.lt_or_ge n 10 with hlt | hge
      · rw [Nat.toDigits_of_lt_base hlt] at hzero
        have hchar : ∀ d < 10, Nat.digitChar d = '0' → d = 0 := by decide
        have := hchar n hlt (Option.some.inj hzero)
        omega
      · have hpos : 0 < n / 10 := Nat.div_pos hge (by decide)
        rw [Nat.toDigits_of_base_le (by decide) hge, List.head?_append_of_ne_nil _
          Nat.toDigits_ne_nil]
          at hzero
        exact ih (n / 10) (Nat.div_lt_self hn (by decide)) hzero hpos

/-! ## What a decimal text denotes -/

def signOf (negative : Bool) : ℚ := if negative then -1 else 1

def digitsOrNone (cs : List Char) : Option ℚ :=
  if cs ≠ [] ∧ cs.all Char.isDigit then some (digitsValue cs) else none

def unsignedValue? (cs : List Char) : Option ℚ :=
  match cs.splitOn '.' with
  | [integer] => digitsOrNone integer
  | [integer, fraction] => do
    let whole ← digitsOrNone integer
    let part ← digitsOrNone fraction
    some (whole + part / 10 ^ fraction.length)
  | _ => none

/-- The rational of a text of the form `-?[0-9]+(\.[0-9]+)?`. -/
def decimalValue? (cs : List Char) : Option ℚ :=
  if cs.head? = some '-' then (unsignedValue? cs.tail).map Neg.neg else unsignedValue? cs

/-! ## Texts without spare digits -/

def point (fraction : List Char) : List Char :=
  match fraction with
  | [] => []
  | _ :: _ => '.' :: fraction

/-- Up to `i` digits and up to `f` after the point: no spare zero at either end, and zero has no
    sign. -/
structure Decimal (i f : ℕ) where
  negative : Bool
  integer : List Char
  fraction : List Char
  digits : Digits integer ∧ Digits fraction
  nonempty : integer ≠ []
  fits : integer.length ≤ i ∧ fraction.length ≤ f
  leading : NoSpareZero integer
  trailing : fraction.getLast? ≠ some '0'
  unsignedZero : negative = true → ¬ (integer = ['0'] ∧ fraction = [])

namespace Decimal

variable {i f : ℕ}

theorem ext_parts {d e : Decimal i f} (hsign : d.negative = e.negative)
    (hinteger : d.integer = e.integer) (hfraction : d.fraction = e.fraction) : d = e := by
  cases d
  cases e
  congr

def text (d : Decimal i f) : List Char :=
  (if d.negative then ['-'] else []) ++ (d.integer ++ point d.fraction)

def toRat (d : Decimal i f) : ℚ :=
  signOf d.negative *
    (digitsValue d.integer + digitsValue d.fraction / 10 ^ d.fraction.length)

/-- The magnitude in units of the last place. -/
def units (d : Decimal i f) : ℕ :=
  digitsValue d.integer * 10 ^ f + digitsValue d.fraction * 10 ^ (f - d.fraction.length)

end Decimal

/-- A rational written without spare digits, `f` of them after the point at most. -/
def spelling (f : ℕ) (q : ℚ) : List Char :=
  let units := ⌊|q| * 10 ^ f⌋₊
  (if q < 0 then ['-'] else []) ++ (Nat.toDigits 10 (units / 10 ^ f) ++
    point ((padDigits f (units % 10 ^ f)).rdropWhile (· == '0')))

/-- At most `i` digits before the point and `f` after it. -/
def FitsDigits (i f : ℕ) (q : ℚ) : Prop := |q| < 10 ^ i ∧ ∃ m : ℤ, q * 10 ^ f = m

/-! ## Trailing zeros -/

theorem rdropWhile_zeros {cs : List Char} (h : cs.getLast? ≠ some '0') (n : ℕ) :
    (cs ++ List.replicate n '0').rdropWhile (· == '0') = cs := by
  induction n with
  | zero =>
    rw [List.replicate_zero, List.append_nil, List.rdropWhile_eq_self_iff]
    intro hne hlast
    rw [List.getLast?_eq_some_getLast hne] at h
    exact h (congrArg some (eq_of_beq hlast))
  | succ n ih =>
    rw [List.replicate_succ', ← List.append_assoc, List.rdropWhile_concat_pos _ _ _ rfl, ih]

/-- What is dropped from the end of a text is zeros. -/
theorem rdropWhile_append_zeros (cs : List Char) :
    cs.rdropWhile (· == '0') ++
      List.replicate (cs.length - (cs.rdropWhile (· == '0')).length) '0' = cs := by
  have hsplit : cs.rdropWhile (· == '0') ++ cs.rtakeWhile (· == '0') = cs :=
    List.rdropWhile_append_rtakeWhile
  have hzeros : ∀ c ∈ cs.rtakeWhile (· == '0'), c = '0' :=
    fun c hc => eq_of_beq (List.mem_rtakeWhile_imp (p := (· == '0')) hc)
  have hlength := congrArg List.length hsplit
  rw [List.length_append] at hlength
  rw [← Nat.eq_sub_of_add_eq' hlength]
  rw [← List.eq_replicate_of_mem hzeros]
  exact hsplit

theorem getLast?_rdropWhile_zeros (cs : List Char) :
    (cs.rdropWhile (· == '0')).getLast? ≠ some '0' := by
  intro hlast
  have hne : cs.rdropWhile (· == '0') ≠ [] := by
    intro hnil
    rw [hnil] at hlast
    cases hlast
  rw [List.getLast?_eq_some_getLast hne] at hlast
  exact List.rdropWhile_last_not _ _ hne (beq_of_eq (Option.some.inj hlast))

theorem digitsValue_append_zeros (cs : List Char) (n : ℕ) :
    digitsValue (cs ++ List.replicate n '0') = digitsValue cs * 10 ^ n := by
  rw [digitsValue_append, digitsValue_zeros, List.length_replicate, Nat.add_zero]

theorem digits_zeros (n : ℕ) : Digits (List.replicate n '0') := by
  intro c hc
  rw [List.eq_of_mem_replicate hc]
  rfl

theorem digits_append {cs ds : List Char} (hc : Digits cs) (hd : Digits ds) : Digits (cs ++ ds) :=
  fun c h => (List.mem_append.mp h).elim (hc c) (hd c)

namespace Decimal

variable {i f : ℕ} (d : Decimal i f)

/-! ## A decimal from its units -/

/-- The digits after the point, out to the last place. -/
def places : List Char := d.fraction ++ List.replicate (f - d.fraction.length) '0'

theorem length_places : d.places.length = f := by
  rw [places, List.length_append, List.length_replicate]
  exact Nat.add_sub_cancel' d.fits.2

theorem digits_places : Digits d.places := digits_append d.digits.2 (digits_zeros _)

theorem units_eq : d.units = digitsValue d.integer * 10 ^ f + digitsValue d.places := by
  rw [units, places, digitsValue_append_zeros]

theorem digitsValue_places_lt : digitsValue d.places < 10 ^ f := by
  have h := digitsValue_lt d.digits_places
  rwa [d.length_places] at h

theorem units_div : d.units / 10 ^ f = digitsValue d.integer := by
  rw [units_eq, Nat.add_comm, Nat.add_mul_div_right _ _ (Nat.pow_pos (by decide)),
    Nat.div_eq_of_lt d.digitsValue_places_lt, Nat.zero_add]

theorem units_mod : d.units % 10 ^ f = digitsValue d.places := by
  rw [units_eq, Nat.add_comm, Nat.add_mul_mod_self_right, Nat.mod_eq_of_lt d.digitsValue_places_lt]

theorem integer_eq : Nat.toDigits 10 (d.units / 10 ^ f) = d.integer := by
  rw [units_div, toDigits_digitsValue d.digits.1 d.nonempty d.leading]

theorem fraction_eq : (padDigits f (d.units % 10 ^ f)).rdropWhile (· == '0') = d.fraction := by
  have hplaces := padDigits_digitsValue d.digits_places
  rw [d.length_places] at hplaces
  rw [units_mod, hplaces, places, rdropWhile_zeros d.trailing]

theorem units_pos (h : d.negative = true) : 0 < d.units := by
  rcases Nat.eq_zero_or_pos d.units with hzero | hpos
  · exfalso
    apply d.unsignedZero h
    have hinteger := d.integer_eq
    have hfraction := d.fraction_eq
    rw [hzero, Nat.zero_div] at hinteger
    rw [hzero, Nat.zero_mod] at hfraction
    refine ⟨hinteger.symm, ?_⟩
    rw [← hfraction, List.rdropWhile_eq_nil_iff]
    have hall : ∀ w, ∀ c ∈ padDigits w 0, c = '0' := by
      intro w
      induction w with
      | zero => exact fun c hc => absurd hc List.not_mem_nil
      | succ w ih =>
        intro c hc
        rcases List.mem_cons.mp hc with rfl | hc
        · rw [Nat.zero_div]
          rfl
        · exact ih c hc
    exact fun c hc => beq_of_eq (hall f c hc)
  · exact hpos

/-! ## The value of a decimal -/

theorem toRat_eq : d.toRat = signOf d.negative * (d.units / 10 ^ f) := by
  have hpow : (10 : ℚ) ^ f = 10 ^ d.fraction.length * 10 ^ (f - d.fraction.length) := by
    rw [← pow_add, Nat.add_sub_cancel' d.fits.2]
  have hunits : (d.units : ℚ) =
      digitsValue d.integer * 10 ^ f + digitsValue d.fraction * 10 ^ (f - d.fraction.length) := by
    exact_mod_cast congrArg (Nat.cast (R := ℚ)) (rfl : d.units = _)
  rw [toRat, hunits, hpow]
  congr 1
  field_simp

theorem abs_toRat : |d.toRat| = d.units / 10 ^ f := by
  have hsign : |signOf d.negative| = 1 := by
    unfold signOf
    split <;> simp
  rw [toRat_eq, abs_mul, hsign, one_mul, abs_of_nonneg (by positivity)]

theorem floor_units : ⌊|d.toRat| * 10 ^ f⌋₊ = d.units := by
  rw [abs_toRat, div_mul_cancel₀ _ (by positivity), Nat.floor_natCast]

theorem toRat_neg_iff : d.toRat < 0 ↔ d.negative = true := by
  rw [toRat_eq]
  constructor
  · intro hneg
    by_contra hsign
    rw [signOf, if_neg hsign, one_mul] at hneg
    exact absurd hneg (not_lt.mpr (by positivity))
  · intro hsign
    have hpos : (0 : ℚ) < d.units := by exact_mod_cast d.units_pos hsign
    rw [signOf, if_pos hsign, neg_one_mul, neg_lt_zero]
    positivity

/-- The text of a decimal is the spelling of its value. -/
theorem text_eq_spelling : d.text = spelling f d.toRat := by
  simp only [spelling, floor_units, integer_eq, fraction_eq, toRat_neg_iff]
  rfl

/-- Decimals of one value are the same. -/
theorem toRat_inj {d e : Decimal i f} (h : d.toRat = e.toRat) : d = e := by
  have hunits : d.units = e.units := by rw [← d.floor_units, h, e.floor_units]
  refine ext_parts ?_ ?_ ?_
  · rw [Bool.eq_iff_iff, ← d.toRat_neg_iff, h, e.toRat_neg_iff]
  · rw [← d.integer_eq, hunits, e.integer_eq]
  · rw [← d.fraction_eq, hunits, e.fraction_eq]

theorem fitsDigits_toRat : FitsDigits i f d.toRat := by
  constructor
  · have hlt : d.units < 10 ^ i * 10 ^ f := by
      have hinteger := (digitsValue_lt d.digits.1).trans_le
        (Nat.pow_le_pow_right (by decide) d.fits.1)
      rw [← Nat.div_lt_iff_lt_mul (Nat.pow_pos (by decide)), units_div]
      exact hinteger
    rw [abs_toRat, div_lt_iff₀ (by positivity)]
    exact_mod_cast hlt
  · refine ⟨if d.negative then -d.units else d.units, ?_⟩
    rw [toRat_eq, mul_assoc, div_mul_cancel₀ _ (by positivity), signOf]
    split <;> push_cast <;> ring

end Decimal

/-! ## Writing a number of units -/

section Units

variable {i f u : ℕ}

/-- The digits of `u` units after the point. -/
def fractionOf (f u : ℕ) : List Char := (padDigits f (u % 10 ^ f)).rdropWhile (· == '0')

theorem isPrefix_fractionOf (f u : ℕ) : fractionOf f u <+: padDigits f (u % 10 ^ f) :=
  List.rdropWhile_prefix _ _

theorem digitsValue_fractionOf (f u : ℕ) :
    digitsValue (fractionOf f u) * 10 ^ (f - (fractionOf f u).length) = u % 10 ^ f := by
  have hplaces := rdropWhile_append_zeros (padDigits f (u % 10 ^ f))
  rw [length_padDigits] at hplaces
  rw [← digitsValue_append_zeros, fractionOf, hplaces,
    digitsValue_padDigits (Nat.mod_lt _ (Nat.pow_pos (by decide)))]

theorem units_of_parts (f u : ℕ) :
    digitsValue (Nat.toDigits 10 (u / 10 ^ f)) * 10 ^ f +
      digitsValue (fractionOf f u) * 10 ^ (f - (fractionOf f u).length) = u := by
  rw [digitsValue_toDigits, digitsValue_fractionOf]
  exact Nat.div_add_mod' u (10 ^ f)

theorem parts_ne_zero (hu : 0 < u) :
    ¬ (Nat.toDigits 10 (u / 10 ^ f) = ['0'] ∧ fractionOf f u = []) := by
  rintro ⟨hwhole, hpart⟩
  have h := units_of_parts f u
  have hzero : digitsValue ['0'] = 0 := rfl
  have hnil : digitsValue [] = 0 := rfl
  rw [hwhole, hpart, hzero, hnil, Nat.zero_mul, Nat.zero_mul] at h
  omega

/-- `u` units of the last place, with a sign. -/
def Decimal.ofUnits (negative : Bool) (hi : 0 < i) (hfits : u < 10 ^ i * 10 ^ f)
    (hsign : negative = true → 0 < u) : Decimal i f where
  negative := negative
  integer := Nat.toDigits 10 (u / 10 ^ f)
  fraction := fractionOf f u
  digits := ⟨fun _ => Nat.isDigit_of_mem_toDigits (by decide) (by decide),
    fun c hc => isDigit_of_mem_padDigits _ _ c ((isPrefix_fractionOf f u).subset hc)⟩
  nonempty := Nat.toDigits_ne_nil
  fits := ⟨(Nat.length_toDigits_le_iff (by decide) hi).mpr
      ((Nat.div_lt_iff_lt_mul (Nat.pow_pos (by decide))).mpr hfits),
    (isPrefix_fractionOf f u).length_le.trans_eq (length_padDigits _ _)⟩
  leading := noSpareZero_toDigits _
  trailing := getLast?_rdropWhile_zeros _
  unsignedZero h := parts_ne_zero (hsign h)

theorem Decimal.units_ofUnits {negative : Bool} {hi : 0 < i} {hfits : u < 10 ^ i * 10 ^ f}
    {hsign : negative = true → 0 < u} :
    (Decimal.ofUnits negative hi hfits hsign).units = u := units_of_parts f u

/-- Every rational that fits is the value of a decimal. -/
theorem Decimal.exists_toRat (hi : 0 < i) {q : ℚ} (hq : FitsDigits i f q) :
    ∃ d : Decimal i f, d.toRat = q := by
  obtain ⟨hlt, m, hm⟩ := hq
  have hpow : (0 : ℚ) < 10 ^ f := by positivity
  have habs : |q| * 10 ^ f = m.natAbs := by
    have h := congrArg abs hm
    rw [abs_mul, abs_of_pos hpow] at h
    rw [h, Nat.cast_natAbs, Int.cast_abs]
  have hfits : m.natAbs < 10 ^ i * 10 ^ f := by
    have h := mul_lt_mul_of_pos_right hlt hpow
    rw [habs] at h
    exact_mod_cast h
  have hsign : decide (q < 0) = true → 0 < m.natAbs := by
    intro hneg
    have h := mul_neg_of_neg_of_pos (of_decide_eq_true hneg) hpow
    rw [hm] at h
    have hm0 : m < 0 := by exact_mod_cast h
    exact Int.natAbs_pos.mpr hm0.ne
  have hvalue : signOf (decide (q < 0)) * |q| = q := by
    unfold signOf
    rcases lt_or_ge q 0 with hneg | hpos
    · rw [if_pos (decide_eq_true hneg), abs_of_neg hneg, neg_one_mul, neg_neg]
    · rw [decide_eq_false (not_lt.mpr hpos), abs_of_nonneg hpos]
      exact one_mul q
  refine ⟨ofUnits (decide (q < 0)) hi hfits hsign, ?_⟩
  rw [toRat_eq, units_ofUnits, ← habs, mul_div_cancel_right₀ _ hpow.ne']
  exact hvalue

end Units

/-! ## Reading a text back -/

theorem not_mem_of_digits {cs : List Char} (h : Digits cs) {c : Char} (hc : c.isDigit = false) :
    c ∉ cs := by
  intro hmem
  rw [h c hmem] at hc
  cases hc

theorem splitOn_point {integer fraction : List Char} (hinteger : Digits integer)
    (hfraction : Digits fraction) :
    (integer ++ point fraction).splitOn '.' =
      integer :: (if fraction = [] then [] else [fraction]) := by
  have hfree : '.' ∉ integer := not_mem_of_digits hinteger rfl
  cases fraction with
  | nil =>
    rw [point, List.append_nil, if_pos rfl]
    exact List.splitOn_eq_singleton hfree
  | cons c cs =>
    rw [point, if_neg (List.cons_ne_nil c cs), List.splitOn_append_cons_self_of_not_mem hfree,
      List.splitOn_eq_singleton (not_mem_of_digits hfraction rfl)]

theorem digitsOrNone_eq {cs : List Char} (h : Digits cs) (hne : cs ≠ []) :
    digitsOrNone cs = some (digitsValue cs : ℚ) :=
  if_pos ⟨hne, List.all_eq_true.mpr h⟩

theorem head?_ne_minus {cs : List Char} (h : Digits cs) (hne : cs ≠ []) (ds : List Char) :
    (cs ++ ds).head? ≠ some '-' := by
  obtain ⟨c, cs, rfl⟩ := List.exists_cons_of_ne_nil hne
  intro hminus
  have hdigit := h c List.mem_cons_self
  rw [Option.some.inj hminus] at hdigit
  cases hdigit

namespace Decimal

variable {i f : ℕ} (d : Decimal i f)

/-- The text after the sign. -/
def unsignedText : List Char := d.integer ++ point d.fraction

theorem text_of_negative (h : d.negative = true) : d.text = '-' :: d.unsignedText := by
  rw [text, if_pos h]
  rfl

theorem text_of_positive (h : ¬ d.negative = true) : d.text = d.unsignedText := by
  rw [text, if_neg h]
  rfl

theorem head?_unsignedText : d.unsignedText.head? ≠ some '-' :=
  head?_ne_minus d.digits.1 d.nonempty _

theorem unsignedValue?_unsignedText : unsignedValue? d.unsignedText =
    some (digitsValue d.integer + digitsValue d.fraction / 10 ^ d.fraction.length : ℚ) := by
  rw [unsignedValue?, unsignedText, splitOn_point d.digits.1 d.digits.2]
  by_cases hnone : d.fraction = []
  · have hzero : digitsValue [] = 0 := rfl
    rw [if_pos hnone, hnone, hzero, Nat.cast_zero, zero_div, add_zero]
    exact digitsOrNone_eq d.digits.1 d.nonempty
  · rw [if_neg hnone]
    simp only [digitsOrNone_eq d.digits.1 d.nonempty, digitsOrNone_eq d.digits.2 hnone,
      Option.bind_eq_bind, Option.bind_some]

/-- The text of a decimal denotes its value. -/
theorem decimalValue?_text : decimalValue? d.text = some d.toRat := by
  by_cases h : d.negative = true
  · rw [d.text_of_negative h, decimalValue?, if_pos List.head?_cons, List.tail_cons,
      unsignedValue?_unsignedText, toRat, signOf, if_pos h, neg_one_mul]
    rfl
  · rw [d.text_of_positive h, decimalValue?,
      if_neg d.head?_unsignedText, unsignedValue?_unsignedText, toRat, signOf, if_neg h, one_mul]

end Decimal

end Lib
