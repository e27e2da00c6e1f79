import Nod.Lib.Text
import Nod.Lib.DateTime
import Mathlib.Tactic.Ring

/-
  RFC 3339 texts of instants. `toRfc3339Millis` and `toRfc3339AutoSi` write UTC texts with a `Z`;
  `parseFromRfc3339` reads any offset and normalises to UTC. A year outside 0..9999 is written
  with a sign, which the reader refuses.
  Proved: the reader inverts both writers on four-digit years, up to the milliseconds kept
  (`parse_toRfc3339Millis`, `parse_toRfc3339AutoSi`); it refuses a year with a sign; millisecond
  texts hold no line break, and equal ones are texts of equal millisecond instants; a lossless
  text names its instant (`toRfc3339AutoSi_inj`).
-/

namespace Lib

/-! ## Digits -/

/-- The last `w` decimal digits of `n`. -/
def padDigits : Nat → Nat → List Char
  | 0, _ => []
  | w + 1, n => Nat.digitChar (n / 10 ^ w % 10) :: padDigits w n

def digitVal (c : Char) : Nat := c.toNat - 48

/-- Read exactly `w` decimal digits. -/
def number : Nat → Nat → List Char → Option (Nat × List Char)
  | 0, acc, cs => some (acc, cs)
  | _ + 1, _, [] => none
  | w + 1, acc, c :: cs => if c.isDigit then number w (acc * 10 + digitVal c) cs else none

theorem isDigit_digitChar : ∀ d, d < 10 → (Nat.digitChar d).isDigit = true := by decide

theorem digitVal_digitChar : ∀ d, d < 10 → digitVal (Nat.digitChar d) = d := by decide

theorem number_padDigits (w n acc : Nat) (cs : List Char) :
    number w acc (padDigits w n ++ cs) = some (acc * 10 ^ w + n % 10 ^ w, cs) := by
  induction w generalizing acc with
  | zero => simp [number, padDigits, Nat.mod_one]
  | succ w ih =>
    have hd : n / 10 ^ w % 10 < 10 := Nat.mod_lt _ (by decide)
    simp only [padDigits, List.cons_append, number, isDigit_digitChar _ hd, if_true, ih,
      digitVal_digitChar _ hd, Nat.mod_pow_succ, Option.some.injEq, Prod.mk.injEq, and_true]
    ring

theorem isDigit_of_mem_padDigits (w n : Nat) : ∀ c ∈ padDigits w n, c.isDigit = true := by
  induction w with
  | zero => simp [padDigits]
  | succ w ih =>
    intro c hc
    rcases List.mem_cons.mp hc with rfl | hc
    · exact isDigit_digitChar _ (Nat.mod_lt _ (by decide))
    · exact ih c hc

@[simp] theorem length_padDigits (w n : Nat) : (padDigits w n).length = w := by
  induction w with
  | zero => rfl
  | succ w ih => simp [padDigits, ih]

namespace DateTime

/-! ## Writers -/

/-- Four digits, or a sign and at least four digits outside 0..9999. -/
def yearChars (y : Int) : List Char :=
  if 0 ≤ y ∧ y ≤ 9999 then padDigits 4 y.toNat
  else (if y < 0 then '-' else '+') :: 
    (if y.natAbs ≤ 9999 then padDigits 4 y.natAbs else (Nat.toDigits 10 y.natAbs))

/-- The second as written: a leap second is second 60. -/
def shownSecond (t : DateTime) : Nat := if t.nano < 1000000000 then t.second else t.second + 1

/-- `YYYY-MM-DDTHH:MM:SS` -/
def wholeChars (t : DateTime) : List Char :=
  yearChars t.year ++ '-' :: (padDigits 2 t.month ++ '-' :: (padDigits 2 t.day ++
    'T' :: (padDigits 2 t.hour ++ ':' :: (padDigits 2 t.minute ++
      ':' :: padDigits 2 t.shownSecond))))

/-- RFC 3339 with milliseconds and a `Z`. -/
def toRfc3339Millis (t : DateTime) : String :=
  String.ofList (t.wholeChars ++ '.' :: (padDigits 3 (t.nano % 1000000000 / 1000000) ++ ['Z']))

/-- The shortest of no fraction, milli-, micro- and nanoseconds that loses nothing. -/
def fractionChars (n : Nat) : List Char :=
  if n = 0 then []
  else if n % 1000000 = 0 then '.' :: padDigits 3 (n / 1000000)
  else if n % 1000 = 0 then '.' :: padDigits 6 (n / 1000)
  else '.' :: padDigits 9 n

/-- RFC 3339 with as many fraction digits as needed and a `Z`. -/
def toRfc3339AutoSi (t : DateTime) : String :=
  String.ofList (t.wholeChars ++ fractionChars (t.nano % 1000000000) ++ ['Z'])

/-! ## The reader -/

def expect (c : Char) : List Char → Option (List Char)
  | [] => none
  | d :: cs => if c = d then some cs else none

/-- One to nine fraction digits count; more are skipped. -/
def fraction (cs : List Char) : Option (Nat × List Char) :=
  match cs with
  | '.' :: cs =>
    let digits := (cs.takeWhile Char.isDigit).take 9
    match digits with
    | [] => none
    | _ :: _ => do
      let (n, _) ← number digits.length 0 digits
      some (n * 10 ^ (9 - digits.length), cs.dropWhile Char.isDigit)
  | _ => some (0, cs)

/-- Minutes east of UTC: `Z`, or a sign with hours to 23 and minutes to 59. U+2212 is a minus. -/
def offsetMinutes (cs : List Char) : Option (Int × List Char) :=
  match cs with
  | [] => none
  | c :: cs =>
    if c = 'Z' || c = 'z' then some (0, cs)
    else if c = '+' || c = '-' || c = '−' then do
      let (h, cs) ← number 2 0 cs
      let cs ← expect ':' cs
      let (m, cs) ← number 2 0 cs
      if m < 60 && h < 24 then
        some (if c = '+' then (h * 60 + m : Int) else -(h * 60 + m : Int), cs)
      else none
    else none

/-- The day before, on a calendar date. -/
def prevDate (y : Int) (m d : Nat) : Int × Nat × Nat :=
  if 1 < d then (y, m, d - 1)
  else if 1 < m then (y, m - 1, daysInMonth y (m - 1))
  else (y - 1, 12, 31)

/-- The day after, on a calendar date. -/
def nextDate (y : Int) (m d : Nat) : Int × Nat × Nat :=
  if d < daysInMonth y m then (y, m, d + 1)
  else if m < 12 then (y, m + 1, 1)
  else (y + 1, 1, 1)

/-- Local fields `minutes` east of UTC, as a UTC instant. -/
def toUtc (t : DateTime) (minutes : Int) : Option DateTime :=
  let m : Int := t.hour * 60 + t.minute - minutes
  let (y, mo, d) :=
    if m < 0 then prevDate t.year t.month t.day
    else if 1440 ≤ m then nextDate t.year t.month t.day
    else (t.year, t.month, t.day)
  let r := (m % 1440).toNat
  ofFields? y mo d (r / 60) (r % 60) t.second t.nano

/-- `YYYY-MM-DD` -/
def scanDate (cs : List Char) : Option ((Nat × Nat × Nat) × List Char) := do
  let (year, cs) ← number 4 0 cs
  let cs ← expect '-' cs
  let (month, cs) ← number 2 0 cs
  let cs ← expect '-' cs
  let (day, cs) ← number 2 0 cs
  some ((year, month, day), cs)

def scanSeparator : List Char → Option (List Char)
  | [] => none
  | c :: cs => if c = 'T' || c = 't' || c = ' ' then some cs else none

/-- `HH:MM:SS` -/
def scanTime (cs : List Char) : Option ((Nat × Nat × Nat) × List Char) := do
  let (hour, cs) ← number 2 0 cs
  let cs ← expect ':' cs
  let (minute, cs) ← number 2 0 cs
  let cs ← expect ':' cs
  let (second, cs) ← number 2 0 cs
  some ((hour, minute, second), cs)

/-- The fields as a wall clock shows them: second 60 is a leap second. -/
def wallClock (date time : Nat × Nat × Nat) (nano : Nat) : Option DateTime :=
  let (year, month, day) := date
  let (hour, minute, second) := time
  if second = 60 then ofFields? year month day hour minute 59 (1000000000 + nano)
  else ofFields? year month day hour minute second nano

/-- Read an RFC 3339 text and normalise it to UTC. -/
def parseFromRfc3339 (s : String) : Option DateTime := do
  let (date, cs) ← scanDate s.toList
  let cs ← scanSeparator cs
  let (time, cs) ← scanTime cs
  let (nano, cs) ← fraction cs
  let (offset, cs) ← offsetMinutes cs
  if cs = [] then
    let wall ← wallClock date time nano
    toUtc wall offset
  else none

/-! ## Reading what was written -/

def FourDigitYear (t : DateTime) : Prop := 0 ≤ t.year ∧ t.year ≤ 9999

instance (t : DateTime) : Decidable t.FourDigitYear :=
  inferInstanceAs (Decidable (_ ∧ _))

@[simp] theorem expect_cons (c : Char) (cs : List Char) : expect c (c :: cs) = some cs := by
  simp [expect]

theorem toUtc_zero (t : DateTime) : t.toUtc 0 = some t := by
  obtain ⟨_, _, hh, hmi, _⟩ := t.valid
  have hm : ((t.hour : Int) * 60 + t.minute - 0) = ((t.hour * 60 + t.minute : Nat) : Int) := by
    push_cast; ring
  have hmod : (((t.hour * 60 + t.minute : Nat) : Int) % 1440).toNat = t.hour * 60 + t.minute := by
    omega
  simp only [toUtc, hm, hmod]
  rw [if_neg (by omega), if_neg (by omega)]
  simp only [show (t.hour * 60 + t.minute) / 60 = t.hour by omega,
    show (t.hour * 60 + t.minute) % 60 = t.minute by omega]
  exact ofFields?_self t

theorem shownSecond_lt (t : DateTime) : t.shownSecond < 100 := by
  obtain ⟨_, _, _, _, hs, _⟩ := t.valid
  unfold shownSecond
  split <;> omega

theorem scanDate_padDigits {y m d : Nat} (hy : y < 10 ^ 4) (hm : m < 10 ^ 2) (hd : d < 10 ^ 2)
    (cs : List Char) :
    scanDate (padDigits 4 y ++ '-' :: (padDigits 2 m ++ '-' :: (padDigits 2 d ++ cs))) =
      some ((y, m, d), cs) := by
  simp only [scanDate, number_padDigits, expect_cons, Option.bind_eq_bind, Option.bind_some,
    Nat.zero_mul, Nat.zero_add, Nat.mod_eq_of_lt hy, Nat.mod_eq_of_lt hm, Nat.mod_eq_of_lt hd]

theorem scanTime_padDigits {h m s : Nat} (hh : h < 10 ^ 2) (hm : m < 10 ^ 2) (hs : s < 10 ^ 2)
    (cs : List Char) :
    scanTime (padDigits 2 h ++ ':' :: (padDigits 2 m ++ ':' :: (padDigits 2 s ++ cs))) =
      some ((h, m, s), cs) := by
  simp only [scanTime, number_padDigits, expect_cons, Option.bind_eq_bind, Option.bind_some,
    Nat.zero_mul, Nat.zero_add, Nat.mod_eq_of_lt hh, Nat.mod_eq_of_lt hm, Nat.mod_eq_of_lt hs]

/-- The fields of a UTC text are read back one by one; the fraction is still open. -/
theorem parse_wholeChars (t : DateTime) (ht : t.FourDigitYear) (fc : List Char) (n : Nat)
    (hf : fraction (fc ++ ['Z']) = some (n, ['Z'])) :
    parseFromRfc3339 (String.ofList (t.wholeChars ++ fc ++ ['Z'])) =
      wallClock (t.year.toNat, t.month, t.day) (t.hour, t.minute, t.shownSecond) n := by
  obtain ⟨⟨_, hmo⟩, ⟨_, hd⟩, hh, hmi, _⟩ := t.valid
  have hd31 := daysInMonth_le t.year t.month
  have hs := t.shownSecond_lt
  obtain ⟨hy0, hy1⟩ := ht
  have hyear : yearChars t.year = padDigits 4 t.year.toNat := if_pos ⟨hy0, hy1⟩
  simp only [parseFromRfc3339, wholeChars, hyear, String.toList_ofList, List.append_assoc,
    List.cons_append]
  rw [scanDate_padDigits (by omega) (by omega) (by omega)]
  simp only [Option.bind_eq_bind, Option.bind_some, scanSeparator]
  rw [if_pos (by decide), Option.bind_some,
    scanTime_padDigits (by omega) (by omega) (by omega), Option.bind_some, hf, Option.bind_some,
    show offsetMinutes ['Z'] = some (0, []) from rfl]
  simp only [Option.bind_some, if_true]
  rw [Option.bind_congr' rfl (fun w _ => toUtc_zero w), Option.bind_fun_some]

/-- An instant's own fields with another fraction of the shown second. -/
theorem wallClock_shownSecond (t : DateTime) (ht : t.FourDigitYear) {n : Nat}
    (hn : n < 1000000000) :
    ∃ u : DateTime, wallClock (t.year.toNat, t.month, t.day) (t.hour, t.minute, t.shownSecond) n =
        some u ∧ u.year = t.year ∧ u.month = t.month ∧ u.day = t.day ∧ u.hour = t.hour ∧
        u.minute = t.minute ∧ u.second = t.second ∧
        u.nano = t.nano / 1000000000 * 1000000000 + n := by
  obtain ⟨hmo, hd, hh, hmi, hs, hn2, hleap⟩ := t.valid
  have hy : ((t.year.toNat : Nat) : Int) = t.year := by have := ht.1; omega
  by_cases hlt : t.nano < 1000000000
  · have hsec : t.shownSecond = t.second := if_pos hlt
    have hvalid : ValidFields t.year t.month t.day t.hour t.minute t.second n :=
      ⟨hmo, hd, hh, hmi, hs, by omega, Or.inl hn⟩
    refine ⟨⟨t.year, t.month, t.day, t.hour, t.minute, t.second, n, hvalid⟩, ?_, ?_⟩
    · simp only [wallClock, hsec, hy]
      rw [if_neg (by omega), ofFields?, dif_pos hvalid]
    · exact ⟨rfl, rfl, rfl, rfl, rfl, rfl, by simp only; omega⟩
  · have hsec : t.shownSecond = t.second + 1 := if_neg hlt
    have h59 : t.second = 59 := hleap.resolve_left hlt
    have hvalid : ValidFields t.year t.month t.day t.hour t.minute 59 (1000000000 + n) :=
      ⟨hmo, hd, hh, hmi, by omega, by omega, Or.inr rfl⟩
    refine ⟨⟨t.year, t.month, t.day, t.hour, t.minute, 59, 1000000000 + n, hvalid⟩, ?_, ?_⟩
    · simp only [wallClock, hsec, h59, hy]
      rw [if_pos trivial, ofFields?, dif_pos hvalid]
    · exact ⟨rfl, rfl, rfl, rfl, rfl, h59.symm, by simp only; omega⟩

/-- The instant cut to whole milliseconds. -/
def truncMillis (t : DateTime) : DateTime :=
  { t with
    nano := t.nano / 1000000 * 1000000
    valid := by
      obtain ⟨hmo, hd, hh, hmi, hs, hn, hleap⟩ := t.valid
      exact ⟨hmo, hd, hh, hmi, hs, by omega, by omega⟩ }

@[simp] theorem truncMillis_nano (t : DateTime) :
    t.truncMillis.nano = t.nano / 1000000 * 1000000 := rfl

theorem shownSecond_truncMillis (t : DateTime) : t.truncMillis.shownSecond = t.shownSecond := by
  have hsec : t.truncMillis.second = t.second := rfl
  have hn := t.truncMillis_nano
  unfold shownSecond
  by_cases h : t.nano < 1000000000
  · rw [if_pos h, if_pos (by omega), hsec]
  · rw [if_neg h, if_neg (by omega), hsec]

theorem ext_fields {a b : DateTime} (h1 : a.year = b.year) (h2 : a.month = b.month)
    (h3 : a.day = b.day) (h4 : a.hour = b.hour) (h5 : a.minute = b.minute)
    (h6 : a.second = b.second) (h7 : a.nano = b.nano) : a = b := by
  cases a
  cases b
  simp_all

theorem fraction_digits {w n : Nat} (hw0 : 0 < w) (hw : w ≤ 9) (hn : n < 10 ^ w) :
    fraction ('.' :: (padDigits w n ++ ['Z'])) = some (n * 10 ^ (9 - w), ['Z']) := by
  have htake : (padDigits w n ++ ['Z']).takeWhile Char.isDigit = padDigits w n := by
    rw [List.takeWhile_append_of_pos (isDigit_of_mem_padDigits w n)]
    simp
  have hdrop : (padDigits w n ++ ['Z']).dropWhile Char.isDigit = ['Z'] := by
    rw [List.dropWhile_append_of_pos (isDigit_of_mem_padDigits w n)]
    rfl
  have hlen : (padDigits w n).take 9 = padDigits w n := List.take_of_length_le (by simpa using hw)
  have hread : number w 0 (padDigits w n) = some (n, []) := by
    have := number_padDigits w n 0 []
    rwa [List.append_nil, Nat.zero_mul, Nat.zero_add, Nat.mod_eq_of_lt hn] at this
  unfold fraction
  simp only [htake, hdrop, hlen]
  obtain ⟨c, cs, hc⟩ : ∃ c cs, padDigits w n = c :: cs := by
    cases hp : padDigits w n with
    | nil => have := length_padDigits w n; rw [hp] at this; simp at this; omega
    | cons c cs => exact ⟨c, cs, rfl⟩
  simp only [hc]
  rw [← hc, length_padDigits, hread]
  rfl

/-- The reader inverts the millisecond writer up to the milliseconds kept. -/
theorem parse_toRfc3339Millis (t : DateTime) (ht : t.FourDigitYear) :
    parseFromRfc3339 t.toRfc3339Millis = some t.truncMillis := by
  have hm : t.nano % 1000000000 / 1000000 < 10 ^ 3 := by omega
  have hf := fraction_digits (w := 3) (by decide) (by decide) hm
  obtain ⟨u, hu, e1, e2, e3, e4, e5, e6, e7⟩ := wallClock_shownSecond t ht
    (n := t.nano % 1000000000 / 1000000 * 10 ^ (9 - 3)) (by omega)
  have := parse_wholeChars t ht ('.' :: padDigits 3 (t.nano % 1000000000 / 1000000)) _ hf
  rw [hu] at this
  simp only [toRfc3339Millis, List.append_assoc, List.cons_append] at this ⊢
  rw [this]
  exact congrArg some (ext_fields e1 e2 e3 e4 e5 e6 (by rw [e7]; simp only [truncMillis]; omega))

theorem fraction_fractionChars {n : Nat} (hn : n < 1000000000) :
    fraction (fractionChars n ++ ['Z']) = some (n, ['Z']) := by
  unfold fractionChars
  split
  · next h => rw [h]; rfl
  split
  · rw [List.cons_append, fraction_digits (by decide) (by decide) (by omega)]
    exact congrArg some (congrArg (·, _) (by omega))
  split
  · rw [List.cons_append, fraction_digits (by decide) (by decide) (by omega)]
    exact congrArg some (congrArg (·, _) (by omega))
  · rw [List.cons_append, fraction_digits (by decide) (by decide) (by omega)]
    exact congrArg some (congrArg (·, _) (by omega))

/-- The reader inverts the lossless writer. -/
theorem parse_toRfc3339AutoSi (t : DateTime) (ht : t.FourDigitYear) :
    parseFromRfc3339 t.toRfc3339AutoSi = some t := by
  have hlt : t.nano % 1000000000 < 1000000000 := Nat.mod_lt _ (by decide)
  obtain ⟨u, hu, e1, e2, e3, e4, e5, e6, e7⟩ := wallClock_shownSecond t ht hlt
  have := parse_wholeChars t ht _ _ (fraction_fractionChars hlt)
  rw [toRfc3339AutoSi, this, hu]
  exact congrArg some (ext_fields e1 e2 e3 e4 e5 e6 (by rw [e7]; omega))

/-! ## Texts as keys -/

theorem ofDigitChars_padDigits (w n acc : Nat) :
    Nat.ofDigitChars 10 (padDigits w n) acc = acc * 10 ^ w + n % 10 ^ w := by
  induction w generalizing acc with
  | zero => simp [padDigits, Nat.mod_one]
  | succ w ih =>
    have hd : n / 10 ^ w % 10 < 10 := Nat.mod_lt _ (by decide)
    rw [padDigits, Nat.ofDigitChars_cons_digitChar_of_lt_ten hd, ih, Nat.mod_pow_succ]
    ring

/-- The digits of a signed year. -/
def signedYearDigits (n : Nat) : List Char :=
  if n ≤ 9999 then padDigits 4 n else Nat.toDigits 10 n

theorem isDigit_of_mem_signedYearDigits (n : Nat) :
    ∀ c ∈ signedYearDigits n, c.isDigit = true := by
  intro c hc
  unfold signedYearDigits at hc
  split at hc
  · exact isDigit_of_mem_padDigits 4 n c hc
  · exact Nat.isDigit_of_mem_toDigits (by decide) (by decide) hc

theorem ofDigitChars_signedYearDigits (n : Nat) :
    Nat.ofDigitChars 10 (signedYearDigits n) 0 = n := by
  unfold signedYearDigits
  split
  · rw [ofDigitChars_padDigits]
    omega
  · exact Nat.ofDigitChars_ten_toDigits

/-- A year outside 0..9999 is its sign and its digits. -/
theorem yearChars_signed {y : Int} (h : ¬ (0 ≤ y ∧ y ≤ 9999)) :
    yearChars y = (if y < 0 then '-' else '+') :: signedYearDigits y.natAbs := if_neg h

theorem dash_not_mem {cs : List Char} (h : ∀ c ∈ cs, c.isDigit = true) : '-' ∉ cs :=
  fun hm => absurd (h _ hm) (by decide)

/-- A year is read off the text it starts. -/
theorem yearChars_dash_inj {y z : Int} {r s : List Char}
    (h : yearChars y ++ '-' :: r = yearChars z ++ '-' :: s) : y = z ∧ r = s := by
  by_cases hy : 0 ≤ y ∧ y ≤ 9999
  · by_cases hz : 0 ≤ z ∧ z ≤ 9999
    · rw [yearChars, if_pos hy, yearChars, if_pos hz] at h
      obtain ⟨hd, hr⟩ := Text.append_cons_inj_of_free _ _ _ _
        (dash_not_mem (isDigit_of_mem_padDigits 4 _)) (dash_not_mem (isDigit_of_mem_padDigits 4 _)) h
      have hv := congrArg (fun cs => Nat.ofDigitChars 10 cs 0) hd
      simp only [ofDigitChars_padDigits] at hv
      exact ⟨by omega, hr⟩
    · rw [yearChars, if_pos hy, yearChars_signed hz] at h
      have h0 := List.head_eq_of_cons_eq h
      have := isDigit_of_mem_padDigits 4 y.toNat _ List.mem_cons_self
      rw [h0] at this
      split at this <;> exact absurd this (by decide)
  · by_cases hz : 0 ≤ z ∧ z ≤ 9999
    · rw [yearChars_signed hy, yearChars, if_pos hz] at h
      have h0 := List.head_eq_of_cons_eq h
      have := isDigit_of_mem_padDigits 4 z.toNat _ List.mem_cons_self
      rw [← h0] at this
      split at this <;> exact absurd this (by decide)
    · rw [yearChars_signed hy, yearChars_signed hz, List.cons_append, List.cons_append] at h
      obtain ⟨hsign, ht⟩ := List.cons_eq_cons.mp h
      obtain ⟨hd, hr⟩ := Text.append_cons_inj_of_free _ _ _ _
        (dash_not_mem (isDigit_of_mem_signedYearDigits _))
        (dash_not_mem (isDigit_of_mem_signedYearDigits _)) ht
      have hv := congrArg (fun cs => Nat.ofDigitChars 10 cs 0) hd
      simp only [ofDigitChars_signedYearDigits] at hv
      refine ⟨?_, hr⟩
      by_cases hyn : y < 0 <;> by_cases hzn : z < 0 <;> simp only [hyn, hzn, if_true, if_false] at hsign
      · omega
      · exact absurd hsign (by decide)
      · exact absurd hsign (by decide)
      · omega

theorem padDigits_append_inj {w m n : Nat} {r s : List Char} (hm : m < 10 ^ w) (hn : n < 10 ^ w)
    (h : padDigits w m ++ r = padDigits w n ++ s) : m = n ∧ r = s := by
  have hv := congrArg (number w 0) h
  rw [number_padDigits, number_padDigits, Nat.mod_eq_of_lt hm, Nat.mod_eq_of_lt hn] at hv
  simpa using hv

/-- The whole seconds are read off the text they start. -/
theorem wholeChars_append_inj {a b : DateTime} {r s : List Char}
    (h : a.wholeChars ++ r = b.wholeChars ++ s) :
    (a.year = b.year ∧ a.month = b.month ∧ a.day = b.day ∧ a.hour = b.hour ∧
      a.minute = b.minute ∧ a.shownSecond = b.shownSecond) ∧ r = s := by
  obtain ⟨⟨_, _⟩, ⟨_, _⟩, _, _, _, _, _⟩ := a.valid
  obtain ⟨⟨_, _⟩, ⟨_, _⟩, _, _, _, _, _⟩ := b.valid
  have hda := daysInMonth_le a.year a.month
  have hdb := daysInMonth_le b.year b.month
  have hsa := a.shownSecond_lt
  have hsb := b.shownSecond_lt
  simp only [wholeChars, List.append_assoc, List.cons_append] at h
  obtain ⟨hy, h⟩ := yearChars_dash_inj h
  obtain ⟨hmo, h⟩ := padDigits_append_inj (by omega) (by omega) h
  obtain ⟨hd, h⟩ := padDigits_append_inj (by omega) (by omega) (List.tail_eq_of_cons_eq h)
  obtain ⟨hh, h⟩ := padDigits_append_inj (by omega) (by omega) (List.tail_eq_of_cons_eq h)
  obtain ⟨hmi, h⟩ := padDigits_append_inj (by omega) (by omega) (List.tail_eq_of_cons_eq h)
  obtain ⟨hs, h⟩ := padDigits_append_inj (by omega) (by omega) (List.tail_eq_of_cons_eq h)
  exact ⟨⟨hy, hmo, hd, hh, hmi, hs⟩, h⟩

/-- Equal millisecond texts are texts of instants that agree to the millisecond. -/
theorem toRfc3339Millis_inj {a b : DateTime} (h : a.toRfc3339Millis = b.toRfc3339Millis) :
    a.truncMillis = b.truncMillis := by
  obtain ⟨-, -, -, -, _, _, hla⟩ := a.valid
  obtain ⟨-, -, -, -, _, _, hlb⟩ := b.valid
  have hl := congrArg String.toList h
  simp only [toRfc3339Millis, String.toList_ofList] at hl
  obtain ⟨⟨hy, hmo, hd, hh, hmi, hs⟩, hl⟩ := wholeChars_append_inj hl
  obtain ⟨hn, -⟩ := padDigits_append_inj (by omega) (by omega) (List.tail_eq_of_cons_eq hl)
  unfold shownSecond at hs
  refine ext_fields hy hmo hd hh hmi ?_ ?_
  · simp only [truncMillis]
    split at hs <;> split at hs <;> omega
  · simp only [truncMillis]
    split at hs <;> split at hs <;> omega

/-- The lossless text names its instant. -/
theorem toRfc3339AutoSi_inj {a b : DateTime} (h : a.toRfc3339AutoSi = b.toRfc3339AutoSi) :
    a = b := by
  obtain ⟨-, -, -, -, _, _, hla⟩ := a.valid
  obtain ⟨-, -, -, -, _, _, hlb⟩ := b.valid
  have hl := congrArg String.toList h
  simp only [toRfc3339AutoSi, String.toList_ofList, List.append_assoc] at hl
  obtain ⟨⟨hy, hmo, hd, hh, hmi, hs⟩, hl⟩ := wholeChars_append_inj hl
  have hfraction := congrArg fraction hl
  rw [fraction_fractionChars (Nat.mod_lt _ (by decide)),
    fraction_fractionChars (Nat.mod_lt _ (by decide))] at hfraction
  have hn : a.nano % 1000000000 = b.nano % 1000000000 :=
    (Prod.mk.inj (Option.some.inj hfraction)).1
  unfold shownSecond at hs
  refine ext_fields hy hmo hd hh hmi ?_ ?_
  · split at hs <;> split at hs <;> omega
  · split at hs <;> split at hs <;> omega

/-- The reader refuses a year that is written with a sign. -/
theorem parse_of_not_fourDigitYear (t : DateTime) (ht : ¬ t.FourDigitYear) :
    parseFromRfc3339 t.toRfc3339Millis = none := by
  have hsign : ∀ cs, number 4 0 ((if t.year < 0 then '-' else '+') :: cs) = none := by
    intro cs
    split <;> rfl
  simp only [parseFromRfc3339, toRfc3339Millis, wholeChars, yearChars_signed ht,
    String.toList_ofList, List.cons_append, scanDate, hsign, Option.bind_eq_bind,
    Option.bind_none]

/-- Every stored text names a four-digit year once it is read back. -/
theorem parse_toRfc3339Millis_eq_some {t u : DateTime}
    (h : parseFromRfc3339 t.toRfc3339Millis = some u) : t.FourDigitYear ∧ u = t.truncMillis := by
  by_cases ht : t.FourDigitYear
  · rw [parse_toRfc3339Millis t ht] at h
    exact ⟨ht, (Option.some.inj h).symm⟩
  · rw [parse_of_not_fourDigitYear t ht] at h
    exact absurd h (by simp)

@[simp] theorem truncMillis_truncMillis (t : DateTime) : t.truncMillis.truncMillis = t.truncMillis :=
  ext_fields rfl rfl rfl rfl rfl rfl (by simp only [truncMillis]; omega)

/-- Only whole milliseconds are written. -/
@[simp] theorem toRfc3339Millis_truncMillis (t : DateTime) :
    t.truncMillis.toRfc3339Millis = t.toRfc3339Millis := by
  have hn : t.truncMillis.nano % 1000000000 / 1000000 = t.nano % 1000000000 / 1000000 := by
    rw [truncMillis_nano]
    omega
  simp only [toRfc3339Millis, wholeChars, shownSecond_truncMillis, hn]
  rfl

theorem fourDigitYear_truncMillis (t : DateTime) : t.truncMillis.FourDigitYear ↔ t.FourDigitYear :=
  Iff.rfl

theorem truncMillis_le (t : DateTime) : t.truncMillis ≤ t := by
  rw [le_def]
  simp only [key, truncMillis]
  omega

/-- The characters of a millisecond text. -/
def isRfc3339Char (c : Char) : Bool :=
  c.isDigit || c == '-' || c == ':' || c == 'T' || c == '.' || c == 'Z' || c == '+'

theorem isRfc3339Char_toRfc3339Millis (t : DateTime) :
    ∀ c ∈ t.toRfc3339Millis.toList, isRfc3339Char c = true := by
  have hdig : ∀ cs : List Char, (∀ c ∈ cs, c.isDigit = true) → ∀ c ∈ cs, isRfc3339Char c = true :=
    fun cs h c hc => by simp [isRfc3339Char, h c hc]
  have hyear : ∀ c ∈ yearChars t.year, isRfc3339Char c = true := by
    unfold yearChars
    split
    · exact hdig _ (isDigit_of_mem_padDigits 4 _)
    · intro c hc
      rcases List.mem_cons.mp hc with rfl | hc
      · split <;> rfl
      · exact hdig _ (isDigit_of_mem_signedYearDigits _) c hc
  have hpad := fun w n => hdig _ (isDigit_of_mem_padDigits w n)
  intro c hc
  simp only [toRfc3339Millis, wholeChars, String.toList_ofList, List.append_assoc,
    List.cons_append, List.mem_append, List.mem_cons, List.not_mem_nil, or_false] at hc
  rcases hc with h | rfl | h | rfl | h | rfl | h | rfl | h | rfl | h | rfl | h | rfl
  · exact hyear c h
  all_goals first | rfl | exact hpad _ _ c h

/-- A millisecond text keeps to its line. -/
theorem free_toRfc3339Millis (t : DateTime) : Text.Free '\n' t.toRfc3339Millis :=
  Text.free_of_all t.isRfc3339Char_toRfc3339Millis (by decide)

end DateTime

end Lib
