import Nod.Lib.Decimal
import Nod.Lib.Slice
import Nod.Proto.Answer

/-
  The texts of date and instant answers (`nod-proto/src/answer.rs`), with every index and slice of
  the code checked: `none` is a panic.
  Proved: neither check panics on any text, and they accept exactly the texts of days of the years
  1 to 9999 and of minutes of such days (`calendar_answers`).
-/

namespace Nod.Proto

open Lib Lib.Slice

/-! ## The checks as the code runs them -/

def validDateRun (b : List UInt8) : Option Bool :=
  andAlso (some (b.length == 10)) <|
  andAlso (b[4]?.map (· == 45)) <|
  andAlso (b[7]?.map (· == 45)) <|
  andAlso (some (b.zipIdx.all fun c => c.2 == 4 || c.2 == 7 || isAsciiDigit c.1)) <| do
    let year := (parseUnsigned (2 ^ 32 - 1) (← slice? b 0 4)).getD 0
    let month := (parseUnsigned (2 ^ 32 - 1) (← slice? b 5 7)).getD 0
    let day := (parseUnsigned (2 ^ 32 - 1) (← slice? b 8 b.length)).getD 0
    some (year ≠ 0 && day ≠ 0 && day ≤ daysIn year month)

def validInstantRun (b : List UInt8) : Option Bool :=
  andAlso (some (b.length == 20)) <|
  andAlso (some (b.all (· < 128))) <|
  andAlso ((slice? b 0 10).bind validDateRun) <|
  andAlso (b[10]?.map (· == 84)) <|
  andAlso (b[13]?.map (· == 58)) <|
  andAlso ((byteSlice? b 16 b.length).map (· == [58, 48, 48, 90])) <|
  andAlso (do some (((← byteSlice? b 11 13) ++ (← byteSlice? b 14 16)).all isAsciiDigit)) <|
  andAlso ((slice? b 11 13).map fun hour => (parseUnsigned 255 hour).any (· < 24)) <|
  (slice? b 14 16).map fun minute => (parseUnsigned 255 minute).any (· < 60)

/-! ## No panic -/

theorem exists_ten {b : List UInt8} (h : b.length = 10) :
    ∃ b0 b1 b2 b3 b4 b5 b6 b7 b8 b9, b = [b0, b1, b2, b3, b4, b5, b6, b7, b8, b9] := by
  match b, h with
  | [b0, b1, b2, b3, b4, b5, b6, b7, b8, b9], _ => exact ⟨_, _, _, _, _, _, _, _, _, _, rfl⟩

theorem lt_of_isAsciiDigit {c : UInt8} (h : isAsciiDigit c = true) : c < 128 := by
  have := digit_le h
  rw [UInt8.lt_iff_toNat_lt]
  exact Nat.lt_of_le_of_lt this.2 (by decide)

theorem parse_digits {max : ℕ} {b : List UInt8} (h : ∀ c ∈ b, isAsciiDigit c = true) (hne : b ≠ [])
    (hmax : 10 ^ b.length ≤ max + 1) : parseUnsigned max b = some (natOfBytes b) :=
  parseUnsigned_digits h hne hmax

theorem validDateRun_eq (b : List UInt8) : validDateRun b = some (validDateBytes b) := by
  by_cases hlength : b.length = 10
  · obtain ⟨b0, b1, b2, b3, b4, b5, b6, b7, b8, b9, rfl⟩ := exists_ten hlength
    simp only [validDateBytes, Bool.and_assoc]
    refine andAlso_some fun _ => andAlso_some fun h4 => andAlso_some fun h7 => ?_
    have h4 : b4 = 45 := eq_of_beq h4
    have h7 : b7 = 45 := eq_of_beq h7
    subst h4 h7
    refine andAlso_some fun hdigits => ?_
    have hdigit : ∀ c ∈ [b0, b1, b2, b3, b5, b6, b8, b9], isAsciiDigit c = true :=
      List.all_eq_true.mp hdigits
    have hascii : ∀ c ∈ [b0, b1, b2, b3, 45, b5, b6, 45, b8, b9], c < 128 := by
      intro c hc
      by_cases hdash : c = 45
      · rw [hdash]
        decide
      · refine lt_of_isAsciiDigit (hdigit c ?_)
        simpa [hdash] using hc
    have hparse : ∀ cs ⊆ [b0, b1, b2, b3, b5, b6, b8, b9], cs ≠ [] → cs.length ≤ 4 →
        parseUnsigned (2 ^ 32 - 1) cs = some (natOfBytes cs) := fun cs hcs hne hle =>
      parse_digits (fun c hc => hdigit c (hcs hc)) hne
        ((Nat.pow_le_pow_right (by decide) hle).trans (by decide))
    have hlast : [b0, b1, b2, b3, 45, b5, b6, 45, b8, b9].length = 10 := rfl
    rw [hlast, slice?_ascii hascii (by decide) (by decide : 4 ≤ 10),
      slice?_ascii hascii (by decide) (by decide : 7 ≤ 10),
      slice?_ascii hascii (by decide) (by decide : 10 ≤ 10)]
    have hyear := hparse [b0, b1, b2, b3] (by simp) (by simp) (by simp)
    have hmonth := hparse [b5, b6] (by simp) (by simp) (by simp)
    have hday := hparse [b8, b9] (by simp) (by simp) (by simp)
    simp only [Option.bind_eq_bind, Option.bind_some, List.take_succ_cons, List.take_zero,
      List.drop_succ_cons, List.drop_zero, hyear, hmonth, hday, Option.getD_some, Bool.and_assoc]
    rfl
  · have hfalse : (b.length == 10) = false := beq_eq_false_iff_ne.mpr hlength
    simp only [validDateRun, validDateBytes, hfalse, Bool.false_and]
    rfl

/-- The check on the bytes of an instant. -/
def validInstantBytes (b : List UInt8) : Bool :=
  b.length == 20 && b.all (· < 128) && validDateBytes (b.take 10) && b[10]? == some 84 &&
    b[13]? == some 58 && b.drop 16 == [58, 48, 48, 90] &&
    ((b.drop 11).take 2 ++ (b.drop 14).take 2).all isDigitByte &&
    natOfBytes ((b.drop 11).take 2) < 24 && natOfBytes ((b.drop 14).take 2) < 60

theorem validInstant_eq (value : String) : validInstant value = validInstantBytes (bytes value) := rfl

theorem map_getElem? {b : List UInt8} {i : ℕ} (hi : i < b.length) (c : UInt8) :
    b[i]?.map (· == c) = some (b[i]? == some c) := by
  rw [List.getElem?_eq_getElem hi]
  rfl

theorem parse_two {b : List UInt8} (h : b.all isAsciiDigit = true) (hlength : b.length = 2)
    (limit : ℕ) : (parseUnsigned 255 b).any (· < limit) = decide (natOfBytes b < limit) := by
  have hne : b ≠ [] := List.ne_nil_of_length_eq_add_one hlength
  rw [parse_digits (List.all_eq_true.mp h) hne (by rw [hlength]; decide), Option.any_some]

theorem validInstantRun_eq (b : List UInt8) : validInstantRun b = some (validInstantBytes b) := by
  simp only [validInstantBytes, Bool.and_assoc]
  refine andAlso_some fun hlength => andAlso_some fun hall => ?_
  have hlength : b.length = 20 := eq_of_beq hlength
  have hascii : ∀ c ∈ b, c < 128 := fun c hc => of_decide_eq_true (List.all_eq_true.mp hall c hc)
  have hslice : ∀ lo hi, lo ≤ hi → hi ≤ 20 → slice? b lo hi = some ((b.drop lo).take (hi - lo)) := by
    intro lo hi hle hhi
    rw [slice?_ascii hascii hle (hlength ▸ hhi), List.drop_take]
  have hbytes : ∀ lo hi, lo ≤ hi → hi ≤ 20 →
      byteSlice? b lo hi = some ((b.drop lo).take (hi - lo)) := by
    intro lo hi hle hhi
    rw [byteSlice?_eq hle (hlength ▸ hhi), List.drop_take]
  have hrest : (b.drop 16).take (20 - 16) = b.drop 16 :=
    List.take_of_length_le (by rw [List.length_drop, hlength])
  rw [hslice 0 10 (by decide) (by decide), hlength, hbytes 16 20 (by decide) (by decide), hrest,
    hbytes 11 13 (by decide) (by decide), hbytes 14 16 (by decide) (by decide),
    hslice 11 13 (by decide) (by decide), hslice 14 16 (by decide) (by decide),
    map_getElem? (by omega), map_getElem? (by omega), List.drop_zero, Option.bind_some,
    validDateRun_eq]
  refine andAlso_some fun _ => andAlso_some fun _ => andAlso_some fun _ => andAlso_some fun _ =>
    andAlso_some fun hdigits => ?_
  have hdigits : ((b.drop 11).take 2).all isAsciiDigit = true ∧
      ((b.drop 14).take 2).all isAsciiDigit = true := by
    rw [← Bool.and_eq_true, ← List.all_append]
    exact hdigits
  have htwo : ∀ lo, lo ≤ 18 → ((b.drop lo).take 2).length = 2 := by
    intro lo hlo
    rw [List.length_take, List.length_drop, hlength]
    omega
  rw [Option.map_some, Option.map_some, parse_two hdigits.1 (htwo 11 (by decide)),
    parse_two hdigits.2 (htwo 14 (by decide))]
  exact andAlso_some fun _ => rfl

/-! ## Days and minutes -/

/-- A day of the proleptic Gregorian calendar. -/
structure CivilDay where
  year : ℕ
  month : ℕ
  day : ℕ
  year_mem : 1 ≤ year ∧ year ≤ 9999
  month_mem : 1 ≤ month ∧ month ≤ 12
  day_mem : 1 ≤ day ∧ day ≤ daysInMonth year month

/-- `YYYY-MM-DD` -/
def CivilDay.text (t : CivilDay) : List Char :=
  padDigits 4 t.year ++ '-' :: (padDigits 2 t.month ++ '-' :: padDigits 2 t.day)

structure CivilMinute extends CivilDay where
  hour : ℕ
  minute : ℕ
  hour_lt : hour < 24
  minute_lt : minute < 60

/-- `YYYY-MM-DDTHH:MM:00Z` -/
def CivilMinute.text (t : CivilMinute) : List Char :=
  t.toCivilDay.text ++ 'T' :: (padDigits 2 t.hour ++ ':' :: (padDigits 2 t.minute ++
    [':', '0', '0', 'Z']))

theorem daysIn_eq {year month : ℕ} (h : 1 ≤ month ∧ month ≤ 12) :
    daysIn year month = daysInMonth year month := by
  have hleap : isLeapYear year = decide (year % 4 = 0 ∧ (year % 100 ≠ 0 ∨ year % 400 = 0)) := by
    rw [Bool.eq_iff_iff, decide_eq_true_eq]
    simp only [isLeapYear, Bool.and_eq_true, Bool.or_eq_true, beq_iff_eq, bne_iff_ne]
    omega
  obtain ⟨hlow, hhigh⟩ := h
  unfold daysInMonth daysIn
  rw [hleap]
  simp only [decide_eq_true_eq]
  rcases (by omega : month = 1 ∨ month = 2 ∨ month = 3 ∨ month = 4 ∨ month = 5 ∨ month = 6 ∨
    month = 7 ∨ month = 8 ∨ month = 9 ∨ month = 10 ∨ month = 11 ∨ month = 12) with
    rfl | rfl | rfl | rfl | rfl | rfl | rfl | rfl | rfl | rfl | rfl | rfl <;> rfl

theorem daysIn_eq_zero {year month : ℕ} (h : ¬ (1 ≤ month ∧ month ≤ 12)) :
    daysIn year month = 0 := by
  unfold daysIn
  rw [if_neg (by simp; omega), if_neg (by simp; omega), if_neg (by omega)]

/-- The fields of a date that passes. -/
theorem civil_fields {year month day : ℕ} (hyear : year < 10000) :
    (year ≠ 0 && day ≠ 0 && day ≤ daysIn year month) = true ↔
      (1 ≤ year ∧ year ≤ 9999) ∧ (1 ≤ month ∧ month ≤ 12) ∧
        1 ≤ day ∧ day ≤ daysInMonth year month := by
  simp only [Bool.and_eq_true, decide_eq_true_eq]
  by_cases h : 1 ≤ month ∧ month ≤ 12
  · rw [daysIn_eq h]
    omega
  · rw [daysIn_eq_zero h]
    omega

/-! ## Digits as bytes -/

theorem byteOf_digit {c : Char} (h : c.isDigit = true) :
    isAsciiDigit (Text.byteOf c) = true ∧ (Text.byteOf c).toNat = c.toNat := by
  obtain ⟨d, hd, rfl⟩ := exists_digitChar h
  have hall : ∀ d < 10, isAsciiDigit (Text.byteOf (Nat.digitChar d)) = true ∧
      (Text.byteOf (Nat.digitChar d)).toNat = (Nat.digitChar d).toNat := by decide
  exact hall d hd

theorem exists_digit {c : UInt8} (h : isAsciiDigit c = true) :
    ∃ d : Char, d.isDigit = true ∧ c = Text.byteOf d := by
  have hall : ∀ d < 10, (Nat.digitChar d).isDigit = true ∧
      (Text.byteOf (Nat.digitChar d)).toNat = 48 + d := by decide
  have hrange := digit_le h
  have hd := hall (c.toNat - 48) (by omega)
  refine ⟨Nat.digitChar (c.toNat - 48), hd.1, UInt8.toNat_inj.mp ?_⟩
  rw [hd.2]
  omega

theorem exists_digits {b : List UInt8} (h : b.all isAsciiDigit = true) :
    ∃ cs, Digits cs ∧ b = cs.map Text.byteOf := by
  induction b with
  | nil => exact ⟨[], fun c hc => absurd hc List.not_mem_nil, rfl⟩
  | cons c b ih =>
    rw [List.all_cons, Bool.and_eq_true] at h
    obtain ⟨d, hd, rfl⟩ := exists_digit h.1
    obtain ⟨cs, hcs, rfl⟩ := ih h.2
    exact ⟨d :: cs, List.forall_mem_cons.mpr ⟨hd, hcs⟩, rfl⟩

theorem natOfBytes_digits {cs : List Char} (h : Digits cs) :
    natOfBytes (cs.map Text.byteOf) = digitsValue cs := by
  unfold natOfBytes digitsValue
  rw [Nat.ofDigitChars_eq_foldl, List.foldl_map]
  refine List.foldl_ext _ _ 0 fun acc c hc => ?_
  rw [(byteOf_digit (h c hc)).2, Nat.mul_comm]
  rfl

theorem all_digits {cs : List Char} (h : Digits cs) : (cs.map Text.byteOf).all isAsciiDigit = true :=
  List.all_eq_true.mpr fun _ hb => by
    obtain ⟨c, hc, rfl⟩ := List.mem_map.mp hb
    exact (byteOf_digit (h c hc)).1

/-! ## The layout of a date -/

/-- Four bytes, a dash, two, a dash and two. -/
def dashed (y m d : List UInt8) : List UInt8 := y ++ 45 :: (m ++ 45 :: d)

theorem validDateBytes_dashed {y m d : List UInt8} (hy : y.length = 4) (hm : m.length = 2)
    (hd : d.length = 2) : validDateBytes (dashed y m d) =
      ((y ++ m ++ d).all isAsciiDigit && (natOfBytes y ≠ 0 && natOfBytes d ≠ 0 &&
        natOfBytes d ≤ daysIn (natOfBytes y) (natOfBytes m))) := by
  match y, m, d, hy, hm, hd with
  | [_, _, _, _], [_, _], [_, _], _, _, _ => rfl

theorem exists_dashed {b : List UInt8} (h : validDateBytes b = true) :
    ∃ y m d, b = dashed y m d ∧ y.length = 4 ∧ m.length = 2 ∧ d.length = 2 := by
  simp only [validDateBytes, Bool.and_eq_true] at h
  obtain ⟨b0, b1, b2, b3, b4, b5, b6, b7, b8, b9, rfl⟩ := exists_ten (eq_of_beq h.1.1.1.1)
  have h4 : b4 = 45 := Option.some.inj (eq_of_beq h.1.1.1.2)
  have h7 : b7 = 45 := Option.some.inj (eq_of_beq h.1.1.2)
  exact ⟨[b0, b1, b2, b3], [b5, b6], [b8, b9], by rw [h4, h7]; rfl, rfl, rfl, rfl⟩

theorem dash_map (y m d : List Char) :
    (y ++ '-' :: (m ++ '-' :: d)).map Text.byteOf =
      dashed (y.map Text.byteOf) (m.map Text.byteOf) (d.map Text.byteOf) := by
  simp only [List.map_append, List.map_cons]
  rfl

theorem digits_padDigits (w n : ℕ) : Digits (padDigits w n) := isDigit_of_mem_padDigits w n

theorem natOfBytes_padDigits {w n : ℕ} (h : n < 10 ^ w) :
    natOfBytes ((padDigits w n).map Text.byteOf) = n := by
  rw [natOfBytes_digits (digits_padDigits w n), digitsValue_padDigits h]

theorem length_map_padDigits (w n : ℕ) : ((padDigits w n).map Text.byteOf).length = w := by
  rw [List.length_map, length_padDigits]

/-- Digit bytes of a width are the digits of their value. -/
theorem exists_padDigits {b : List UInt8} (h : b.all isAsciiDigit = true) :
    natOfBytes b < 10 ^ b.length ∧ b = (padDigits b.length (natOfBytes b)).map Text.byteOf := by
  obtain ⟨cs, hcs, rfl⟩ := exists_digits h
  rw [natOfBytes_digits hcs, List.length_map, padDigits_digitsValue hcs]
  exact ⟨digitsValue_lt hcs, rfl⟩

theorem validDateBytes_iff (b : List UInt8) :
    validDateBytes b = true ↔ ∃ t : CivilDay, b = t.text.map Text.byteOf := by
  constructor
  · intro h
    obtain ⟨y, m, d, rfl, hy, hm, hd⟩ := exists_dashed h
    rw [validDateBytes_dashed hy hm hd, List.all_append, List.all_append, Bool.and_eq_true,
      Bool.and_eq_true, Bool.and_eq_true] at h
    obtain ⟨⟨⟨hydigits, hmdigits⟩, hddigits⟩, hfields⟩ := h
    obtain ⟨hylt, hytext⟩ := exists_padDigits hydigits
    obtain ⟨-, hmtext⟩ := exists_padDigits hmdigits
    obtain ⟨-, hdtext⟩ := exists_padDigits hddigits
    rw [hy] at hylt hytext
    rw [hm] at hmtext
    rw [hd] at hdtext
    obtain ⟨hyear, hmonth, hday⟩ := (civil_fields hylt).mp hfields
    refine ⟨⟨natOfBytes y, natOfBytes m, natOfBytes d, hyear, hmonth, hday⟩, ?_⟩
    rw [CivilDay.text, dash_map, ← hytext, ← hmtext, ← hdtext]
  · rintro ⟨t, rfl⟩
    obtain ⟨hyear, hmonth, hday⟩ := And.intro t.year_mem (And.intro t.month_mem t.day_mem)
    have hdays := daysInMonth_le t.year t.month
    rw [CivilDay.text, dash_map, validDateBytes_dashed (length_map_padDigits _ _)
      (length_map_padDigits _ _) (length_map_padDigits _ _), natOfBytes_padDigits (by omega),
      natOfBytes_padDigits (by omega), natOfBytes_padDigits (by omega), List.all_append,
      List.all_append, all_digits (digits_padDigits _ _), all_digits (digits_padDigits _ _),
      all_digits (digits_padDigits _ _)]
    exact (civil_fields (by omega)).mpr ⟨hyear, hmonth, hday⟩

/-! ## The layout of an instant -/

/-- A date, `T`, two bytes, a colon, two bytes and `:00Z`. -/
def timed (date hour minute : List UInt8) : List UInt8 :=
  date ++ 84 :: (hour ++ 58 :: (minute ++ [58, 48, 48, 90]))

theorem validInstantBytes_timed {date hour minute : List UInt8} (hdate : date.length = 10)
    (hhour : hour.length = 2) (hminute : minute.length = 2) :
    validInstantBytes (timed date hour minute) =
      ((timed date hour minute).all (· < 128) && validDateBytes date &&
        ((hour ++ minute).all isAsciiDigit && natOfBytes hour < 24 && natOfBytes minute < 60)) := by
  match hour, minute, hhour, hminute with
  | [h0, h1], [m0, m1], _, _ =>
    obtain ⟨b0, b1, b2, b3, b4, b5, b6, b7, b8, b9, rfl⟩ := exists_ten hdate
    simp only [validInstantBytes, Bool.and_assoc]
    rfl

theorem length_of_validDateBytes {b : List UInt8} (h : validDateBytes b = true) : b.length = 10 := by
  obtain ⟨y, m, d, rfl, hy, hm, hd⟩ := exists_dashed h
  simp only [dashed, List.length_append, List.length_cons, hy, hm, hd]

theorem exists_timed {b : List UInt8} (h : validInstantBytes b = true) :
    ∃ date hour minute, b = timed date hour minute ∧ date.length = 10 ∧ hour.length = 2 ∧
      minute.length = 2 := by
  simp only [validInstantBytes, Bool.and_eq_true] at h
  obtain ⟨⟨⟨⟨⟨⟨⟨⟨hlength, -⟩, -⟩, h10⟩, h13⟩, h16⟩, -⟩, -⟩, -⟩ := h
  have hlength := eq_of_beq hlength
  have hsplit : b.take 10 ++ (b.drop 10) = b := List.take_append_drop 10 b
  have hten : b.drop 10 = 84 :: (b.drop 11) := by
    rw [List.drop_eq_getElem_cons (by omega)]
    have := eq_of_beq h10
    rw [List.getElem?_eq_getElem (by omega)] at this
    rw [Option.some.inj this]
  have hcut : ∀ lo, b.drop lo = (b.drop lo).take 2 ++ b.drop (lo + 2) := by
    intro lo
    rw [← List.drop_drop, List.take_append_drop]
  have heleven : b.drop 11 = (b.drop 11).take 2 ++ b.drop 13 := hcut 11
  have hthirteen : b.drop 13 = 58 :: (b.drop 14) := by
    rw [List.drop_eq_getElem_cons (by omega)]
    have := eq_of_beq h13
    rw [List.getElem?_eq_getElem (by omega)] at this
    rw [Option.some.inj this]
  have hfourteen : b.drop 14 = (b.drop 14).take 2 ++ [58, 48, 48, 90] := by
    rw [← eq_of_beq h16]
    exact hcut 14
  have htwo : ∀ lo, lo ≤ 18 → ((b.drop lo).take 2).length = 2 := by
    intro lo hlo
    rw [List.length_take, List.length_drop, hlength]
    omega
  refine ⟨b.take 10, (b.drop 11).take 2, (b.drop 14).take 2, ?_, ?_, htwo 11 (by decide),
    htwo 14 (by decide)⟩
  · unfold timed
    rw [← hfourteen, ← hthirteen, ← heleven, ← hten, hsplit]
  · rw [List.length_take, hlength]
    rfl

theorem time_map (date hour minute : List Char) :
    (date ++ 'T' :: (hour ++ ':' :: (minute ++ [':', '0', '0', 'Z']))).map Text.byteOf =
      timed (date.map Text.byteOf) (hour.map Text.byteOf) (minute.map Text.byteOf) := by
  simp only [List.map_append, List.map_cons]
  rfl

theorem byteOf_lt {cs : List Char} (h : ∀ c ∈ cs, Text.isAscii c = true) :
    (cs.map Text.byteOf).all (· < 128) = true := by
  rw [List.all_eq_true]
  intro b hb
  obtain ⟨c, hc, rfl⟩ := List.mem_map.mp hb
  have hascii := h c hc
  simp only [Text.isAscii, decide_eq_true_eq] at hascii
  rw [decide_eq_true_eq, UInt8.lt_iff_toNat_lt, Text.byteOf, UInt32.toNat_toUInt8]
  have hn : c.toNat = c.val.toNat := rfl
  exact Nat.lt_of_le_of_lt (Nat.mod_le _ _) (hn ▸ hascii)

theorem isAscii_of_isDigit {c : Char} (h : c.isDigit = true) : Text.isAscii c = true := by
  obtain ⟨d, hd, rfl⟩ := exists_digitChar h
  have hall : ∀ d < 10, Text.isAscii (Nat.digitChar d) = true := by decide
  exact hall d hd

theorem isAscii_padDigits (w n : ℕ) : ∀ c ∈ padDigits w n, Text.isAscii c = true :=
  fun c hc => isAscii_of_isDigit (isDigit_of_mem_padDigits w n c hc)

theorem CivilDay.isAscii_text (t : CivilDay) : ∀ c ∈ t.text, Text.isAscii c = true := by
  simp only [CivilDay.text, List.forall_mem_append, List.forall_mem_cons]
  exact ⟨isAscii_padDigits _ _, rfl, isAscii_padDigits _ _, rfl, isAscii_padDigits _ _⟩

theorem CivilMinute.isAscii_text (t : CivilMinute) : ∀ c ∈ t.text, Text.isAscii c = true := by
  simp only [CivilMinute.text, List.forall_mem_append, List.forall_mem_cons]
  exact ⟨t.toCivilDay.isAscii_text, rfl, isAscii_padDigits _ _, rfl, isAscii_padDigits _ _, rfl,
    rfl, rfl, rfl, fun c hc => absurd hc List.not_mem_nil⟩

theorem validInstantBytes_iff (b : List UInt8) :
    validInstantBytes b = true ↔ ∃ t : CivilMinute, b = t.text.map Text.byteOf := by
  constructor
  · intro h
    obtain ⟨date, hour, minute, rfl, hdate, hhour, hminute⟩ := exists_timed h
    rw [validInstantBytes_timed hdate hhour hminute, List.all_append] at h
    simp only [Bool.and_eq_true, decide_eq_true_eq] at h
    obtain ⟨⟨-, hday⟩, ⟨⟨hhdigits, hmdigits⟩, hhlt⟩, hmlt⟩ := h
    obtain ⟨t, rfl⟩ := (validDateBytes_iff date).mp hday
    obtain ⟨-, hhtext⟩ := exists_padDigits hhdigits
    obtain ⟨-, hmtext⟩ := exists_padDigits hmdigits
    rw [hhour] at hhtext
    rw [hminute] at hmtext
    refine ⟨⟨t, natOfBytes hour, natOfBytes minute, hhlt, hmlt⟩, ?_⟩
    rw [CivilMinute.text, time_map, ← hhtext, ← hmtext]
  · rintro ⟨t, rfl⟩
    have hhour := t.hour_lt
    have hminute := t.minute_lt
    have hascii := byteOf_lt t.isAscii_text
    have hday := (validDateBytes_iff _).mpr ⟨t.toCivilDay, rfl⟩
    rw [CivilMinute.text, time_map] at hascii ⊢
    rw [validInstantBytes_timed (length_of_validDateBytes hday) (length_map_padDigits _ _)
      (length_map_padDigits _ _), hascii, hday, List.all_append,
      all_digits (digits_padDigits _ _), all_digits (digits_padDigits _ _),
      natOfBytes_padDigits (by omega), natOfBytes_padDigits (by omega)]
    simp only [Bool.and_eq_true, decide_eq_true_eq, Bool.true_and]
    exact ⟨hhour, hminute⟩

/-! ## Texts -/

theorem CivilDay.fields_lt (t : CivilDay) : t.year < 10 ^ 4 ∧ t.month < 10 ^ 2 ∧ t.day < 10 ^ 2 := by
  have hdays := daysInMonth_le t.year t.month
  have hyear := t.year_mem
  have hmonth := t.month_mem
  have hday := t.day_mem
  omega

/-- A text is that of one day. -/
theorem CivilDay.text_append_inj {s t : CivilDay} {r r' : List Char}
    (h : s.text ++ r = t.text ++ r') : s = t ∧ r = r' := by
  obtain ⟨hys, hms, hds⟩ := s.fields_lt
  obtain ⟨hyt, hmt, hdt⟩ := t.fields_lt
  simp only [CivilDay.text, List.append_assoc, List.cons_append] at h
  obtain ⟨hyear, h⟩ := DateTime.padDigits_append_inj hys hyt h
  obtain ⟨hmonth, h⟩ := DateTime.padDigits_append_inj hms hmt (List.tail_eq_of_cons_eq h)
  obtain ⟨hday, h⟩ := DateTime.padDigits_append_inj hds hdt (List.tail_eq_of_cons_eq h)
  refine ⟨?_, h⟩
  cases s
  cases t
  cases hyear
  cases hmonth
  cases hday
  rfl

theorem CivilDay.text_inj {s t : CivilDay} (h : s.text = t.text) : s = t :=
  (CivilDay.text_append_inj (congrArg (· ++ []) h)).1

theorem CivilMinute.text_inj {s t : CivilMinute} (h : s.text = t.text) : s = t := by
  have hs := And.intro s.hour_lt s.minute_lt
  have ht := And.intro t.hour_lt t.minute_lt
  obtain ⟨hday, h⟩ := CivilDay.text_append_inj h
  obtain ⟨hhour, h⟩ := DateTime.padDigits_append_inj (by omega) (by omega)
    (List.tail_eq_of_cons_eq h)
  obtain ⟨hminute, -⟩ := DateTime.padDigits_append_inj (by omega) (by omega)
    (List.tail_eq_of_cons_eq h)
  cases s
  cases t
  cases hday
  cases hhour
  cases hminute
  rfl

theorem bytes_eq_text {s : String} {cs : List Char} (h : ∀ c ∈ cs, Text.isAscii c = true) :
    bytes s = cs.map Text.byteOf ↔ s.toList = cs := Text.toUTF8_eq_ascii h

/-- A check that answers on every text, and accepts the texts of a type, each for one value. -/
structure Accepts {α : Type} (check : List UInt8 → Option Bool) (text : α → List Char) : Prop where
  total : ∀ s : String, check (bytes s) ≠ none
  exact_ : ∀ s : String, check (bytes s) = some true ↔ ∃! t, s.toList = text t

theorem validDate_iff (s : String) : validDate s = true ↔ ∃ t : CivilDay, s.toList = t.text := by
  rw [validDate, validDateBytes_iff]
  exact exists_congr fun t => bytes_eq_text t.isAscii_text

theorem validInstant_iff (s : String) :
    validInstant s = true ↔ ∃ t : CivilMinute, s.toList = t.text := by
  rw [validInstant_eq, validInstantBytes_iff]
  exact exists_congr fun t => bytes_eq_text t.isAscii_text

/-- Dates and instants are accepted in one layout each, on the whole texts and without a panic. -/
theorem calendar_answers :
    Accepts validDateRun CivilDay.text ∧ Accepts validInstantRun CivilMinute.text := by
  refine ⟨⟨fun s => ?_, fun s => ?_⟩, ⟨fun s => ?_, fun s => ?_⟩⟩
  · rw [validDateRun_eq]
    exact Option.some_ne_none _
  · rw [validDateRun_eq, Option.some_inj]
    exact (validDate_iff s).trans ⟨fun ⟨t, ht⟩ => ⟨t, ht, fun _ hu =>
      CivilDay.text_inj (hu.symm.trans ht)⟩, fun ⟨t, ht, _⟩ => ⟨t, ht⟩⟩
  · rw [validInstantRun_eq]
    exact Option.some_ne_none _
  · rw [validInstantRun_eq, Option.some_inj]
    exact (validInstant_iff s).trans ⟨fun ⟨t, ht⟩ => ⟨t, ht, fun _ hu =>
      CivilMinute.text_inj (hu.symm.trans ht)⟩, fun ⟨t, ht, _⟩ => ⟨t, ht⟩⟩

end Nod.Proto
