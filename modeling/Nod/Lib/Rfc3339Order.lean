import Nod.Lib.Rfc3339
import Mathlib.Data.String.Basic

/-
  Millisecond texts compared as texts. Digits of a fixed width compare as their numbers, so texts
  of four-digit years compare as their instants do; a year with a sign sorts before all of them,
  although one past 9999 is later.
  Proved: `toRfc3339Millis_lt`, and when text order and time order agree against a four-digit
  year (`toRfc3339Millis_le`, `order_agrees_iff`).
-/

namespace Lib

/-! ## Digits -/

theorem digitChar_lt : ∀ a < 10, ∀ b < 10, Nat.digitChar a < Nat.digitChar b ↔ a < b := by decide

theorem digitChar_inj : ∀ a < 10, ∀ b < 10, Nat.digitChar a = Nat.digitChar b ↔ a = b := by decide

/-- A high digit decides before the low part does. -/
theorem add_mul_lt_iff {k x y a b : Nat} (hx : x < k) (hy : y < k) :
    x + k * a < y + k * b ↔ a < b ∨ a = b ∧ x < y := by
  constructor
  · intro h
    by_cases hab : a = b
    · subst hab
      exact Or.inr ⟨rfl, by omega⟩
    · refine Or.inl (Nat.lt_of_not_le fun hba => ?_)
      have hstep : k * (b + 1) ≤ k * a := Nat.mul_le_mul_left k (by omega)
      rw [Nat.mul_succ] at hstep
      omega
  · intro h
    rcases h with h | ⟨rfl, h⟩
    · have hstep : k * (a + 1) ≤ k * b := Nat.mul_le_mul_left k h
      rw [Nat.mul_succ] at hstep
      omega
    · omega

theorem add_mul_inj {k x y a b : Nat} (hx : x < k) (hy : y < k) :
    x + k * a = y + k * b ↔ a = b ∧ x = y := by
  have hxy := add_mul_lt_iff (a := a) (b := b) hx hy
  have hyx := add_mul_lt_iff (a := b) (b := a) hy hx
  constructor
  · intro h
    have hlt : ¬ x + k * a < y + k * b := by omega
    have hgt : ¬ y + k * b < x + k * a := by omega
    rw [hxy, not_or, not_and] at hlt
    rw [hyx, not_or, not_and] at hgt
    have hab : a = b := by omega
    have h1 := hlt.2 hab
    have h2 := hgt.2 hab.symm
    exact ⟨hab, by omega⟩
  · intro h
    rw [h.1, h.2]

/-- Two fields of one width: the smaller number sorts first, equal ones leave it to the rest. -/
theorem padDigits_append_lt (w m n : Nat) (r s : List Char) :
    padDigits w m ++ r < padDigits w n ++ s ↔
      m % 10 ^ w < n % 10 ^ w ∨ m % 10 ^ w = n % 10 ^ w ∧ r < s := by
  induction w with
  | zero =>
    rw [pow_zero, Nat.mod_one, Nat.mod_one]
    show r < s ↔ _
    simp only [lt_irrefl, true_and, false_or]
  | succ w ih =>
    have hm : m / 10 ^ w % 10 < 10 := Nat.mod_lt _ (by decide)
    have hn : n / 10 ^ w % 10 < 10 := Nat.mod_lt _ (by decide)
    have hpow : 0 < 10 ^ w := Nat.pow_pos (by decide)
    have hmlow : m % 10 ^ w < 10 ^ w := Nat.mod_lt _ hpow
    have hnlow : n % 10 ^ w < 10 ^ w := Nat.mod_lt _ hpow
    rw [padDigits, padDigits, List.cons_append, List.cons_append, List.cons_lt_cons_iff, ih,
      digitChar_lt _ hm _ hn, digitChar_inj _ hm _ hn, Nat.mod_pow_succ, Nat.mod_pow_succ,
      add_mul_lt_iff hmlow hnlow, add_mul_inj hmlow hnlow]
    tauto

namespace DateTime

variable {a b e t : DateTime}

/-! ## Four-digit years -/

theorem cons_lt_cons_self (c : Char) (r s : List Char) : c :: r < c :: s ↔ r < s := by
  rw [List.cons_lt_cons_iff]
  simp only [lt_irrefl, true_and, false_or]

theorem mul_add_lt_iff {k a b x y : Int} (hx : 0 ≤ x ∧ x < k) (hy : 0 ≤ y ∧ y < k) :
    a * k + x < b * k + y ↔ a < b ∨ a = b ∧ x < y := by
  obtain hab | rfl | hba := lt_trichotomy a b
  · have hstep : (a + 1) * k ≤ b * k := Int.mul_le_mul_of_nonneg_right hab (by omega)
    rw [Int.add_mul, Int.one_mul] at hstep
    omega
  · omega
  · have hstep : (b + 1) * k ≤ a * k := Int.mul_le_mul_of_nonneg_right hba (by omega)
    rw [Int.add_mul, Int.one_mul] at hstep
    omega

theorem mul_add_inj {k a b x y : Int} (hx : 0 ≤ x ∧ x < k) (hy : 0 ≤ y ∧ y < k) :
    a * k + x = b * k + y ↔ a = b ∧ x = y := by
  have hlt := mul_add_lt_iff (a := a) (b := b) hx hy
  have hgt := mul_add_lt_iff (a := b) (b := a) hy hx
  omega

/-- Nanoseconds since the minute began; those of a leap second come after its second. -/
def inMinute (t : DateTime) : Int := t.second * 2000000000 + t.nano

/-- Instants compare field by field. -/
theorem lt_iff_fields (a b : DateTime) : a < b ↔ a.year < b.year ∨ a.year = b.year ∧
    (a.month < b.month ∨ a.month = b.month ∧ (a.day < b.day ∨ a.day = b.day ∧
      (a.hour < b.hour ∨ a.hour = b.hour ∧ (a.minute < b.minute ∨ a.minute = b.minute ∧
        a.inMinute < b.inMinute)))) := by
  have hkey : ∀ t : DateTime, t.key =
      ((((t.year * 13 + t.month) * 32 + t.day) * 24 + t.hour) * 60 + t.minute) * 120000000000 +
        t.inMinute := by
    intro t
    unfold key inMinute
    ring
  have hrange : ∀ t : DateTime, (0 ≤ (t.month : Int) ∧ (t.month : Int) < 13) ∧
      (0 ≤ (t.day : Int) ∧ (t.day : Int) < 32) ∧ (0 ≤ (t.hour : Int) ∧ (t.hour : Int) < 24) ∧
        (0 ≤ (t.minute : Int) ∧ (t.minute : Int) < 60) ∧
          (0 ≤ t.inMinute ∧ t.inMinute < 120000000000) := by
    intro t
    obtain ⟨⟨_, hm⟩, ⟨_, hd⟩, hh, hmi, hs, hn, _⟩ := t.valid
    have hday := daysInMonth_le t.year t.month
    unfold inMinute
    omega
  obtain ⟨hm, hd, hh, hmi, hs⟩ := hrange a
  obtain ⟨hm', hd', hh', hmi', hs'⟩ := hrange b
  rw [lt_def, hkey, hkey, mul_add_lt_iff hs hs', mul_add_lt_iff hmi hmi', mul_add_inj hmi hmi',
    mul_add_lt_iff hh hh', mul_add_inj hh hh', mul_add_lt_iff hd hd', mul_add_inj hd hd',
    mul_add_lt_iff hm hm', mul_add_inj hm hm']
  simp only [Int.ofNat_lt, Int.ofNat_inj, and_or_left, and_assoc, or_assoc]

/-- The second and the milliseconds as written. -/
theorem shown_lt (a b : DateTime) :
    (a.shownSecond % 10 ^ 2 < b.shownSecond % 10 ^ 2 ∨
      a.shownSecond % 10 ^ 2 = b.shownSecond % 10 ^ 2 ∧
        a.nano % 1000000000 / 1000000 % 10 ^ 3 < b.nano % 1000000000 / 1000000 % 10 ^ 3) ↔
      a.truncMillis.inMinute < b.truncMillis.inMinute := by
  obtain ⟨-, -, -, -, hs, hn, hleap⟩ := a.valid
  obtain ⟨-, -, -, -, hs', hn', hleap'⟩ := b.valid
  unfold inMinute shownSecond truncMillis
  dsimp only
  split <;> split <;> omega

/-- Texts of four-digit years compare as the instants they keep. -/
theorem toRfc3339Millis_lt (ha : a.FourDigitYear) (hb : b.FourDigitYear) :
    a.toRfc3339Millis < b.toRfc3339Millis ↔ a.truncMillis < b.truncMillis := by
  have hfields : ∀ t : DateTime, t.month % 10 ^ 2 = t.month ∧ t.day % 10 ^ 2 = t.day ∧
      t.hour % 10 ^ 2 = t.hour ∧ t.minute % 10 ^ 2 = t.minute := by
    intro t
    obtain ⟨⟨_, hm⟩, ⟨_, hd⟩, hh, hmi, -⟩ := t.valid
    have hday := daysInMonth_le t.year t.month
    omega
  obtain ⟨hm, hd, hh, hmi⟩ := hfields a
  obtain ⟨hm', hd', hh', hmi'⟩ := hfields b
  have hyears : (0 ≤ a.year ∧ a.year ≤ 9999) ∧ 0 ≤ b.year ∧ b.year ≤ 9999 := ⟨ha, hb⟩
  have hlt : a.year.toNat % 10 ^ 4 < b.year.toNat % 10 ^ 4 ↔ a.year < b.year := by omega
  have heq : a.year.toNat % 10 ^ 4 = b.year.toNat % 10 ^ 4 ↔ a.year = b.year := by omega
  rw [lt_iff_fields, ← shown_lt]
  simp only [String.lt_iff_toList_lt, toRfc3339Millis, wholeChars, yearChars, if_pos hyears.1,
    if_pos hyears.2, String.toList_ofList, List.append_assoc, List.cons_append,
    padDigits_append_lt, cons_lt_cons_self, lt_irrefl, and_false, or_false, hm, hd, hh, hmi, hm',
    hd', hh', hmi', hlt, heq, truncMillis]

/-! ## Any clock reading against a four-digit year -/

/-- A sign sorts before every digit. -/
theorem lt_of_not_fourDigitYear (he : e.FourDigitYear) (ht : ¬ t.FourDigitYear) :
    t.toRfc3339Millis < e.toRfc3339Millis := by
  have hdigit : ∀ d < 10, '-' < Nat.digitChar d ∧ '+' < Nat.digitChar d := by decide
  have hfirst := hdigit (e.year.toNat / 10 ^ 3 % 10) (Nat.mod_lt _ (by decide))
  have hyear : yearChars e.year =
      Nat.digitChar (e.year.toNat / 10 ^ 3 % 10) :: padDigits 3 e.year.toNat := by
    unfold yearChars
    rw [if_pos (show 0 ≤ e.year ∧ e.year ≤ 9999 from he)]
    rfl
  simp only [String.lt_iff_toList_lt, toRfc3339Millis, wholeChars, hyear, yearChars_signed ht,
    String.toList_ofList, List.cons_append, List.cons_lt_cons_iff]
  split
  · exact Or.inl hfirst.1
  · exact Or.inl hfirst.2

theorem truncMillis_le_truncMillis (he : e.truncMillis = e) : e ≤ t.truncMillis ↔ e ≤ t := by
  have hnano := congrArg DateTime.nano he
  rw [truncMillis_nano] at hnano
  obtain ⟨_, _, _, _, _, hn, _⟩ := e.valid
  obtain ⟨_, _, _, _, _, hn', _⟩ := t.valid
  simp only [le_def, key, truncMillis]
  omega

/-- Texts follow the instants up to a four-digit year. -/
theorem toRfc3339Millis_mono (hle : e ≤ t) (ht : t.FourDigitYear) :
    e.toRfc3339Millis ≤ t.toRfc3339Millis := by
  by_cases he : e.FourDigitYear
  · rw [← not_lt, toRfc3339Millis_lt ht he, lt_def, not_lt]
    have hmillis : e.truncMillis.truncMillis = e.truncMillis := by
      refine ext_fields rfl rfl rfl rfl rfl rfl ?_
      rw [truncMillis_nano, truncMillis_nano]
      omega
    have htrunc := e.truncMillis_le
    rw [le_def] at hle htrunc
    exact (truncMillis_le_truncMillis hmillis).mpr (htrunc.trans hle)
  · exact (lt_of_not_fourDigitYear ht he).le

/-- A millisecond instant of a four-digit year has come by text when it has come by time, on any
    clock that shows a four-digit year. -/
theorem toRfc3339Millis_le (he : e.FourDigitYear) (hmillis : e.truncMillis = e) :
    e.toRfc3339Millis ≤ t.toRfc3339Millis ↔ t.FourDigitYear ∧ e ≤ t := by
  rw [← not_lt]
  by_cases ht : t.FourDigitYear
  · rw [toRfc3339Millis_lt ht he, hmillis, ← truncMillis_le_truncMillis hmillis]
    simp only [lt_def, le_def, not_lt, ht, true_and]
  · exact iff_of_false (fun h => h (lt_of_not_fourDigitYear he ht)) fun h => ht h.1

/-- Nothing of a four-digit year has come before the year zero. -/
theorem not_le_of_year_neg (he : e.FourDigitYear) (ht : t.year < 0) : ¬ e ≤ t := by
  obtain ⟨⟨_, hm⟩, ⟨_, hd⟩, hh, hmi, hs, hn, _⟩ := t.valid
  have hday := daysInMonth_le t.year t.month
  have hyear := he.1
  simp only [le_def, key]
  omega

theorem le_of_year (he : e.FourDigitYear) (ht : 9999 < t.year) : e ≤ t := by
  obtain ⟨⟨_, hm⟩, ⟨_, hd⟩, hh, hmi, hs, hn, _⟩ := e.valid
  have hday := daysInMonth_le e.year e.month
  have hyear := he.2
  simp only [le_def, key]
  omega

/-- Text order and time order agree on a clock reading unless its year has five digits. -/
theorem order_agrees_iff (he : e.FourDigitYear) (hmillis : e.truncMillis = e) :
    (e.toRfc3339Millis ≤ t.toRfc3339Millis ↔ e ≤ t) ↔ t.year ≤ 9999 := by
  rw [toRfc3339Millis_le he hmillis]
  constructor
  · intro h
    by_contra hyear
    have hle : e ≤ t := le_of_year he (by omega)
    have hfour := (h.mpr hle).1
    exact hyear hfour.2
  · intro hyear
    by_cases hneg : t.year < 0
    · have hnot := not_le_of_year_neg he hneg
      exact iff_of_false (fun h => hnot h.2) hnot
    · exact and_iff_right ⟨by omega, hyear⟩

end DateTime

end Lib
