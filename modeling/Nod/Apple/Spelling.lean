import Nod.Apple.AnswerValue
import Nod.Proto.CalendarText
import Nod.Proto.DecimalText

/-
  Texts of answers, as the app and the server check them: the app by regular expressions and the
  calendar formatter, the server by scans.
  Proved: choice ids (`fullMatch_choiceId`), numbers (`number_agrees`), dates and instants
  (`date_agrees`, `dateTime_agrees`) and labels (`labelValid_eq`) pass the one check exactly when
  they pass the other.
-/

namespace Nod.Apple

open Lib Nod.Proto Pattern

/-! ## Choice ids -/

theorem toNat_lt_of_isAlphanum {c : Char} (h : c.isAlphanum = true) : c.toNat < 128 := by
  simp only [Char.isAlphanum, Char.isAlpha, Char.isUpper, Char.isLower, Char.isDigit,
    Bool.or_eq_true, Bool.and_eq_true, decide_eq_true_eq, ge_iff_le, UInt32.le_iff_toNat_le] at h
  have hval : c.toNat = c.val.toNat := rfl
  rcases h with (⟨-, h⟩ | ⟨-, h⟩) | ⟨-, h⟩
  all_goals simp at h; omega

/-- A property of ASCII characters, checked on each of them. -/
theorem of_ascii {p : Char → Bool} (h : (List.range 128).all (fun n => p (Char.ofNat n)) = true)
    {c : Char} (hc : c.toNat < 128) : p c = true := by
  have hall := List.all_eq_true.mp h c.toNat (List.mem_range.mpr hc)
  rwa [Char.ofNat_toNat] at hall

def isIdCharacter (c : Char) : Bool := c.isAlphanum || c == '_' || c == '-'

theorem mem_idCharacters {c : Char} : c ∈ idCharacters ↔ isIdCharacter c = true := by
  constructor
  · intro h
    have hall : idCharacters.all isIdCharacter = true := by decide
    exact List.all_eq_true.mp hall c h
  · intro h
    have hlt : c.toNat < 128 := by
      unfold isIdCharacter at h
      simp only [Bool.or_eq_true, beq_iff_eq] at h
      rcases h with (h | rfl) | rfl
      · exact toNat_lt_of_isAlphanum h
      · decide
      · decide
    have hall : (List.range 128).all (fun n =>
        !isIdCharacter (Char.ofNat n) || decide (Char.ofNat n ∈ idCharacters)) = true := by
      decide
    have hc := of_ascii (p := fun c => !isIdCharacter c || decide (c ∈ idCharacters)) hall hlt
    rw [h] at hc
    exact of_decide_eq_true hc

theorem isAscii_of_isIdCharacter {c : Char} (h : isIdCharacter c = true) : Text.isAscii c = true := by
  have hall : idCharacters.all Text.isAscii = true := by decide
  exact List.all_eq_true.mp hall c (mem_idCharacters.mpr h)

theorem validChoiceId_iff {id : String} : AnswerField.validChoiceId id = true ↔
    id ≠ "" ∧ id.toList.length ≤ 40 ∧ ∀ c ∈ id.toList, isIdCharacter c = true := by
  unfold AnswerField.validChoiceId
  simp only [Bool.and_eq_true, decide_eq_true_eq, List.all_eq_true, and_assoc]
  refine and_congr_right fun _ => ?_
  constructor
  · intro ⟨hsize, hall⟩
    rw [Text.utf8ByteSize_of_ascii fun c hc => isAscii_of_isIdCharacter (hall c hc)] at hsize
    exact ⟨hsize, hall⟩
  · intro ⟨hlength, hall⟩
    refine ⟨?_, hall⟩
    rw [Text.utf8ByteSize_of_ascii fun c hc => isAscii_of_isIdCharacter (hall c hc)]
    exact hlength

theorem fullMatch_choiceId (id : String) :
    fullMatch choiceIdPattern id.toList = AnswerField.validChoiceId id := by
  rw [Bool.eq_iff_iff, fullMatch_iff, validChoiceId_iff, choiceIdPattern, mem_mul]
  constructor
  · rintro ⟨first, hfirst, rest, hrest, htext⟩
    obtain ⟨c, hc, rfl⟩ := mem_oneOf.mp hfirst
    obtain ⟨hlength, hall⟩ := mem_upTo_oneOf.mp hrest
    rw [← htext]
    refine ⟨?_, ?_, ?_⟩
    · intro hnil
      rw [hnil] at htext
      cases htext
    · rw [List.singleton_append, List.length_cons]
      omega
    · rw [List.singleton_append, List.forall_mem_cons]
      exact ⟨mem_idCharacters.mp hc, fun d hd => mem_idCharacters.mp (hall d hd)⟩
  · intro ⟨hne, hlength, hall⟩
    cases htext : id.toList with
    | nil => exact absurd (String.toList_inj.mp htext) hne
    | cons c cs =>
      rw [htext] at hlength hall
      rw [List.forall_mem_cons] at hall
      rw [List.length_cons] at hlength
      exact ⟨[c], mem_oneOf.mpr ⟨c, mem_idCharacters.mpr hall.1, rfl⟩, cs,
        mem_upTo_oneOf.mpr ⟨by omega, fun d hd => mem_idCharacters.mpr (hall.2 d hd)⟩, rfl⟩

/-! ## Numbers -/

theorem toNat_lt_of_isDigit {c : Char} (h : c.isDigit = true) : c.toNat < 128 :=
  toNat_lt_of_isAlphanum (by rw [Char.isAlphanum, h, Bool.or_true])

theorem mem_digits {c : Char} : c ∈ digits ↔ c.isDigit = true := by
  constructor
  · intro h
    have hall : digits.all Char.isDigit = true := by decide
    exact List.all_eq_true.mp hall c h
  · intro h
    have hall : (List.range 128).all (fun n =>
        !(Char.ofNat n).isDigit || decide (Char.ofNat n ∈ digits)) = true := by decide
    have hc := of_ascii (p := fun c => !c.isDigit || decide (c ∈ digits)) hall
      (toNat_lt_of_isDigit h)
    rw [h] at hc
    exact of_decide_eq_true hc

theorem mem_nonzeroDigits {c : Char} : c ∈ nonzeroDigits ↔ c.isDigit = true ∧ c ≠ '0' := by
  have hdigits : digits = '0' :: nonzeroDigits := by decide
  have hzero : '0' ∉ nonzeroDigits := by decide
  rw [← mem_digits, hdigits, List.mem_cons]
  constructor
  · exact fun h => ⟨.inr h, fun heq => hzero (heq ▸ h)⟩
  · exact fun ⟨h, hne⟩ => h.resolve_left hne

/-- `0|[1-9][0-9]{0,11}` -/
theorem mem_integer {x : List Char} : x ∈ (RegularExpression.char '0' +
      oneOf nonzeroDigits * upTo (oneOf digits) 11).matches' ↔
    x ≠ [] ∧ x.length ≤ 12 ∧ Digits x ∧ NoSpareZero x := by
  rw [mem_add, mem_char, mem_mul]
  constructor
  · rintro (rfl | ⟨first, hfirst, rest, hrest, rfl⟩)
    · exact ⟨List.cons_ne_nil _ _, by decide, fun c hc => List.mem_singleton.mp hc ▸ rfl, fun _ => rfl⟩
    · obtain ⟨c, hc, rfl⟩ := mem_oneOf.mp hfirst
      obtain ⟨hlength, hall⟩ := mem_upTo_oneOf.mp hrest
      obtain ⟨hdigit, hne⟩ := mem_nonzeroDigits.mp hc
      refine ⟨List.cons_ne_nil _ _, ?_, ?_, fun hhead => absurd (Option.some.inj hhead) hne⟩
      · rw [List.singleton_append, List.length_cons]
        omega
      · unfold Digits
        rw [List.singleton_append, List.forall_mem_cons]
        exact ⟨hdigit, fun d hd => mem_digits.mp (hall d hd)⟩
  · intro ⟨hne, hlength, hdigits, hspare⟩
    cases x with
    | nil => exact absurd rfl hne
    | cons c cs =>
      unfold Digits at hdigits
      rw [List.forall_mem_cons] at hdigits
      rw [List.length_cons] at hlength
      by_cases hc : c = '0'
      · subst hc
        have hone := hspare rfl
        rw [List.length_cons] at hone
        exact .inl (by rw [List.length_eq_zero_iff.mp (Nat.succ_injective hone)])
      · exact .inr ⟨[c], mem_oneOf.mpr ⟨c, mem_nonzeroDigits.mpr ⟨hdigits.1, hc⟩, rfl⟩, cs,
          mem_upTo_oneOf.mpr ⟨by omega, fun d hd => mem_digits.mpr (hdigits.2 d hd)⟩, rfl⟩

theorem point_concat (front : List Char) (c : Char) :
    point (front ++ [c]) = '.' :: (front ++ [c]) := by
  cases front <;> rfl

/-- `(\.[0-9]{0,5}[1-9])?` -/
theorem mem_fraction {x : List Char} :
    x ∈ (Pattern.optional (RegularExpression.char '.' *
        (upTo (oneOf digits) 5 * oneOf nonzeroDigits))).matches' ↔
      ∃ fraction, x = point fraction ∧ fraction.length ≤ 6 ∧ fraction.getLast? ≠ some '0' ∧
        Digits fraction := by
  rw [mem_optional, mem_mul]
  constructor
  · rintro (rfl | ⟨dot, hdot, rest, hrest, rfl⟩)
    · exact ⟨[], rfl, Nat.zero_le 6, nofun, nofun⟩
    · obtain ⟨front, hfront, last, hlast, rfl⟩ := mem_mul.mp hrest
      obtain ⟨hlength, hall⟩ := mem_upTo_oneOf.mp hfront
      obtain ⟨c, hc, rfl⟩ := mem_oneOf.mp hlast
      obtain ⟨hdigit, hne⟩ := mem_nonzeroDigits.mp hc
      rw [mem_char.mp hdot]
      refine ⟨front ++ [c], ?_, ?_, ?_, ?_⟩
      · rw [point_concat]
        rfl
      · rw [List.length_append, List.length_singleton]
        omega
      · rw [List.getLast?_concat]
        exact fun h => hne (Option.some.inj h)
      · intro d hd
        rcases List.mem_append.mp hd with hd | hd
        · exact mem_digits.mp (hall d hd)
        · exact List.mem_singleton.mp hd ▸ hdigit
  · rintro ⟨fraction, rfl, hlength, hlast, hdigits⟩
    rcases List.eq_nil_or_concat fraction with rfl | ⟨front, c, rfl⟩
    · exact .inl rfl
    · rw [List.concat_eq_append] at hlength hlast hdigits ⊢
      rw [List.length_append, List.length_singleton] at hlength
      rw [List.getLast?_concat] at hlast
      refine .inr ⟨['.'], mem_char.mpr rfl, front ++ [c], mem_mul.mpr ⟨front, ?_, [c], ?_, rfl⟩, ?_⟩
      · exact mem_upTo_oneOf.mpr
          ⟨by omega, fun d hd => mem_digits.mpr (hdigits d (List.mem_append_left _ hd))⟩
      · refine mem_oneOf.mpr ⟨c, mem_nonzeroDigits.mpr ⟨?_, fun h => hlast (congrArg some h)⟩, rfl⟩
        exact hdigits c (List.mem_append_right _ (List.mem_singleton_self c))
      · rw [point_concat]
        rfl

theorem isAscii_of_validDecimal {s : String} (h : validDecimal s = true) :
    ∀ c ∈ s.toList, Text.isAscii c = true := by
  obtain ⟨d, hd⟩ := (validDecimal_iff s).mp h
  have hdigits : ∀ cs, Digits cs → ∀ c ∈ cs, Text.isAscii c = true :=
    fun cs hcs c hc => isAscii_of_isDigit (hcs c hc)
  rw [hd]
  unfold Decimal.text
  simp only [List.forall_mem_append]
  refine ⟨?_, hdigits _ d.digits.1, ?_⟩
  · split
    · exact fun c hc => List.mem_singleton.mp hc ▸ rfl
    · exact nofun
  · cases hfraction : d.fraction with
    | nil => exact nofun
    | cons c cs =>
      unfold point
      rw [List.forall_mem_cons, ← hfraction]
      exact ⟨rfl, hdigits _ d.digits.2⟩

theorem number_agrees (F : Foundation) (s : String) :
    (!F.same s "-0" && fullMatch numberPattern s.toList) = validDecimal s := by
  rw [Bool.eq_iff_iff, Bool.and_eq_true, Bool.not_eq_true', fullMatch_iff, numberPattern, mem_mul]
  constructor
  · rintro ⟨hsame, sign, hsign, rest, hrest, htext⟩
    obtain ⟨integer, hinteger, tail, htail, rfl⟩ := mem_mul.mp hrest
    obtain ⟨hne, hlength, hdigits, hspare⟩ := mem_integer.mp hinteger
    obtain ⟨fraction, rfl, hfits, hlast, hfraction⟩ := mem_fraction.mp htail
    have hminus : sign = [] ∨ sign = ['-'] := mem_optional.mp hsign
    refine (validDecimal_iff s).mpr ⟨{
      negative := decide (sign = ['-'])
      integer := integer
      fraction := fraction
      digits := ⟨hdigits, hfraction⟩
      nonempty := hne
      fits := ⟨hlength, hfits⟩
      leading := hspare
      trailing := hlast
      unsignedZero := ?_ }, ?_⟩
    · rintro hnegative ⟨rfl, rfl⟩
      have hzero : s = "-0" := by
        rw [← String.toList_inj, ← htext, of_decide_eq_true hnegative]
        rfl
      rw [hzero, F.same_refl] at hsame
      cases hsame
    · refine htext.symm.trans ?_
      unfold Decimal.text
      rcases hminus with rfl | rfl
      · rfl
      · rfl
  · intro h
    obtain ⟨d, hd⟩ := (validDecimal_iff s).mp h
    refine ⟨?_, if d.negative then ['-'] else [], ?_, d.integer ++ point d.fraction, ?_, hd.symm⟩
    · rw [Bool.eq_false_iff]
      intro hsame
      have hminus : ∀ c ∈ "-0".toList, Text.isAscii c = true := by
        simp only [← List.all_eq_true]
        decide
      have hzero := (F.same_ascii (isAscii_of_validDecimal h) hminus).mp hsame
      rw [hzero] at h
      exact absurd h (by decide)
    · split
      · exact mem_optional.mpr (.inr rfl)
      · exact mem_optional.mpr (.inl rfl)
    · exact mem_mul.mpr ⟨d.integer, mem_integer.mpr ⟨d.nonempty, d.fits.1, d.digits.1, d.leading⟩,
        point d.fraction, mem_fraction.mpr ⟨d.fraction, rfl, d.fits.2, d.trailing, d.digits.2⟩, rfl⟩

/-! ## Dates and instants -/

theorem hasPrefix_iff {s lead : String} : hasPrefix s lead = true ↔ lead.toList <+: s.toList :=
  List.isPrefixOf_iff_prefix

/-- A date is outside the year 0000 exactly when its text does not start with the year's. -/
theorem hasPrefix_year {s : String} {year : ℕ} {rest : List Char} (hyear : year ≤ 9999)
    (hs : s.toList = padDigits 4 year ++ rest) : hasPrefix s "0000" = true ↔ year = 0 := by
  have hzero : "0000".toList = padDigits 4 0 := by decide
  rw [hasPrefix_iff, hs, hzero]
  constructor
  · intro ⟨more, hmore⟩
    exact (DateTime.padDigits_append_inj (by omega) (by omega) hmore).1.symm
  · intro h
    rw [h]
    exact List.prefix_append _ _

theorem year_pos {s : String} {year : ℕ} {rest : List Char} (hlead : hasPrefix s "0000" = false)
    (hyear : year ≤ 9999) (hs : s.toList = padDigits 4 year ++ rest) : 1 ≤ year := by
  rw [Bool.eq_false_iff, ne_eq, hasPrefix_year hyear hs] at hlead
  omega

theorem length_civilDate (year month day : ℕ) : (civilDate year month day).length = 10 := by
  simp [civilDate]

theorem date_agrees (F : Foundation) (s : String) :
    NodAnswerField.calendarValue F s .date = validDate s := by
  rw [Bool.eq_iff_iff, validDate_iff]
  unfold NodAnswerField.calendarValue
  simp only [Bool.and_eq_true, Bool.not_eq_true', beq_iff_eq]
  constructor
  · intro ⟨⟨hlead, hsize⟩, htrips⟩
    obtain ⟨year, month, day, hyear, hmonth, hday, hs⟩ := (F.roundTrips_date s hlead hsize).mp htrips
    exact ⟨⟨year, month, day, ⟨year_pos hlead hyear hs, hyear⟩, hmonth, hday⟩, hs⟩
  · intro ⟨t, hs⟩
    have hlead : hasPrefix s "0000" = false := by
      rw [Bool.eq_false_iff]
      intro h
      have hzero := (hasPrefix_year t.year_mem.2 hs).mp h
      have hpos := t.year_mem.1
      omega
    have hsize : s.utf8ByteSize = calendarLength .date := by
      rw [Text.utf8ByteSize_of_ascii (hs ▸ t.isAscii_text), hs]
      exact length_civilDate _ _ _
    refine ⟨⟨hlead, hsize⟩, (F.roundTrips_date s hlead hsize).mpr ?_⟩
    exact ⟨t.year, t.month, t.day, t.year_mem.2, t.month_mem, t.day_mem, hs⟩

theorem dateTime_agrees (F : Foundation) (s : String) :
    NodAnswerField.calendarValue F s .dateTime = validInstant s := by
  have hzulu : ":00Z".toList = [':', '0', '0', 'Z'] := by decide
  rw [Bool.eq_iff_iff, validInstant_iff]
  unfold NodAnswerField.calendarValue
  simp only [Bool.and_eq_true, Bool.not_eq_true', beq_iff_eq]
  constructor
  · intro ⟨⟨hlead, hsize⟩, htrips⟩
    obtain ⟨date, hour, minute, ⟨year, month, day, hyear, hmonth, hday, rfl⟩, hhour, hminute, hs⟩ :=
      (F.roundTrips_dateTime s hlead hsize).mp htrips
    rw [hzulu] at hs
    have hsplit := hs
    unfold civilDate at hsplit
    rw [List.append_assoc] at hsplit
    exact ⟨⟨⟨year, month, day, ⟨year_pos hlead hyear hsplit, hyear⟩, hmonth, hday⟩, hour, minute, hhour,
      hminute⟩, hs⟩
  · intro ⟨t, hs⟩
    have hlead : hasPrefix s "0000" = false := by
      rw [Bool.eq_false_iff]
      intro h
      have hyear := hs
      unfold CivilMinute.text CivilDay.text at hyear
      rw [List.append_assoc] at hyear
      have hzero := (hasPrefix_year t.year_mem.2 hyear).mp h
      have hpos := t.year_mem.1
      omega
    have hsize : s.utf8ByteSize = calendarLength .dateTime := by
      rw [Text.utf8ByteSize_of_ascii (hs ▸ t.isAscii_text), hs]
      simp [CivilMinute.text, CivilDay.text, calendarLength]
    refine ⟨⟨hlead, hsize⟩, (F.roundTrips_dateTime s hlead hsize).mpr ?_⟩
    refine ⟨civilDate t.year t.month t.day, t.hour, t.minute,
      ⟨t.year, t.month, t.day, t.year_mem.2, t.month_mem, t.day_mem, rfl⟩, t.hour_lt, t.minute_lt, ?_⟩
    rw [hzulu]
    exact hs

/-! ## Labels -/

theorem labelValid_eq (F : Foundation) (s : String) (max : ℕ) :
    labelValid F s max = validLabel s max := by
  have htrim : F.same s (Text.trim s) = (Text.trim s == s) := by
    rw [Bool.eq_iff_iff, F.same_trim, beq_iff_eq]
  unfold labelValid validLabel
  rw [htrim]

end Nod.Apple
