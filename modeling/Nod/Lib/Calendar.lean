import Nod.Lib.Rfc3339

/-
  Instants so many seconds later or earlier: whole days are stepped over on the calendar, and a
  leap second is left before the seconds are counted.
  Proved: later by more is not earlier (`plusSeconds_mono`).
-/

namespace Lib

namespace DateTime

/-! ## Dates -/

/-- A date that exists. -/
def ValidDate (date : Int × Nat × Nat) : Prop :=
  (1 ≤ date.2.1 ∧ date.2.1 ≤ 12) ∧ 1 ≤ date.2.2 ∧ date.2.2 ≤ daysInMonth date.1 date.2.1

def stepDate (forward : Bool) (date : Int × Nat × Nat) : Int × Nat × Nat :=
  if forward then nextDate date.1 date.2.1 date.2.2 else prevDate date.1 date.2.1 date.2.2

/-- The date so many days later, or earlier. -/
def shiftDate (days : Int) (date : Int × Nat × Nat) : Int × Nat × Nat :=
  (stepDate (0 ≤ days))^[days.natAbs] date

/-- A number that orders dates as they follow each other. -/
def dateKey (date : Int × Nat × Nat) : Int := (date.1 * 13 + date.2.1) * 32 + date.2.2

theorem validDate_nextDate {y : Int} {m d : Nat} (h : ValidDate (y, m, d)) :
    ValidDate (nextDate y m d) := by
  obtain ⟨⟨hm, hm'⟩, hd, hd'⟩ : (1 ≤ m ∧ m ≤ 12) ∧ 1 ≤ d ∧ d ≤ daysInMonth y m := h
  have hfirst := le_daysInMonth y (m + 1)
  have hjanuary : daysInMonth (y + 1) 1 = 31 := rfl
  unfold nextDate
  split
  · show (1 ≤ m ∧ m ≤ 12) ∧ 1 ≤ d + 1 ∧ d + 1 ≤ daysInMonth y m
    omega
  · split
    · show (1 ≤ m + 1 ∧ m + 1 ≤ 12) ∧ 1 ≤ 1 ∧ 1 ≤ daysInMonth y (m + 1)
      omega
    · show (1 ≤ 1 ∧ 1 ≤ 12) ∧ 1 ≤ 1 ∧ 1 ≤ daysInMonth (y + 1) 1
      omega

theorem validDate_prevDate {y : Int} {m d : Nat} (h : ValidDate (y, m, d)) :
    ValidDate (prevDate y m d) := by
  obtain ⟨⟨hm, hm'⟩, hd, hd'⟩ : (1 ≤ m ∧ m ≤ 12) ∧ 1 ≤ d ∧ d ≤ daysInMonth y m := h
  have hlast := le_daysInMonth y (m - 1)
  have hdecember : daysInMonth (y - 1) 12 = 31 := rfl
  unfold prevDate
  split
  · show (1 ≤ m ∧ m ≤ 12) ∧ 1 ≤ d - 1 ∧ d - 1 ≤ daysInMonth y m
    omega
  · split
    · show (1 ≤ m - 1 ∧ m - 1 ≤ 12) ∧ 1 ≤ daysInMonth y (m - 1) ∧
        daysInMonth y (m - 1) ≤ daysInMonth y (m - 1)
      omega
    · show (1 ≤ 12 ∧ 12 ≤ 12) ∧ 1 ≤ 31 ∧ 31 ≤ daysInMonth (y - 1) 12
      omega

theorem validDate_stepDate (forward : Bool) {date : Int × Nat × Nat} (h : ValidDate date) :
    ValidDate (stepDate forward date) := by
  cases forward with
  | true => exact validDate_nextDate h
  | false => exact validDate_prevDate h

theorem validDate_iterate (forward : Bool) (n : Nat) {date : Int × Nat × Nat} (h : ValidDate date) :
    ValidDate ((stepDate forward)^[n] date) := by
  induction n generalizing date with
  | zero => exact h
  | succ n ih => exact ih (validDate_stepDate forward h)

theorem validDate_shiftDate (days : Int) {date : Int × Nat × Nat} (h : ValidDate date) :
    ValidDate (shiftDate days date) := validDate_iterate _ _ h

theorem dateKey_stepDate {date : Int × Nat × Nat} (h : ValidDate date) :
    dateKey date < dateKey (stepDate true date) := by
  obtain ⟨y, m, d⟩ := date
  obtain ⟨⟨hm, hm'⟩, hd, hd'⟩ : (1 ≤ m ∧ m ≤ 12) ∧ 1 ≤ d ∧ d ≤ daysInMonth y m := h
  have hlast := daysInMonth_le y m
  show (y * 13 + m) * 32 + d < dateKey (nextDate y m d)
  unfold nextDate
  split
  · show (y * 13 + m) * 32 + d < (y * 13 + m) * 32 + ((d + 1 : Nat) : Int)
    omega
  · split
    · show (y * 13 + m) * 32 + d < (y * 13 + ((m + 1 : Nat) : Int)) * 32 + ((1 : Nat) : Int)
      omega
    · show (y * 13 + m) * 32 + d < ((y + 1) * 13 + ((1 : Nat) : Int)) * 32 + ((1 : Nat) : Int)
      omega

theorem dateKey_iterate (n k : Nat) {date : Int × Nat × Nat} (h : ValidDate date) :
    dateKey ((stepDate true)^[n] date) + k ≤ dateKey ((stepDate true)^[n + k] date) := by
  induction k with
  | zero =>
    show _ + ((0 : Nat) : Int) ≤ _
    rw [Nat.add_zero]
    omega
  | succ k ih =>
    have hvalid := validDate_iterate true (n + k) h
    have hstep := dateKey_stepDate hvalid
    rw [← Nat.add_assoc, Function.iterate_succ_apply']
    omega

/-! ## Seconds -/

def dateOf (t : DateTime) : Int × Nat × Nat := (t.year, t.month, t.day)

theorem validDate_dateOf (t : DateTime) : ValidDate t.dateOf := ⟨t.valid.1, t.valid.2.1⟩

/-- The instant at a second of a day. -/
def atSecond (date : Int × Nat × Nat) (hdate : ValidDate date) (second : Nat)
    (hsecond : second < 86400) (nano : Nat) (hnano : nano < 1000000000) : DateTime where
  year := date.1
  month := date.2.1
  day := date.2.2
  hour := second / 3600
  minute := second / 60 % 60
  second := second % 60
  nano := nano
  valid := ⟨hdate.1, hdate.2, by omega, by omega, by omega, by omega, .inl hnano⟩

/-- The seconds from the start of the day that a shift ends at. -/
def shiftedSecond (t : DateTime) (n : Int) : Int :=
  t.secondOfDay + n + if n < 0 ∧ 1000000000 ≤ t.nano then 1 else 0

def plusSeconds (t : DateTime) (n : Int) : DateTime :=
  if n = 0 then t
  else
    atSecond (shiftDate (t.shiftedSecond n / 86400) t.dateOf)
      (validDate_shiftDate _ t.validDate_dateOf) (t.shiftedSecond n % 86400).toNat (by omega)
      (t.nano % 1000000000) (Nat.mod_lt _ (by decide))

example : (⟨2027, 12, 31, 23, 59, 59, 1500000000, by decide⟩ : DateTime).plusSeconds 61 =
    ⟨2028, 1, 1, 0, 1, 0, 500000000, by decide⟩ := by decide

/-! ## Order -/

theorem secondOfDay_bounds (t : DateTime) : 0 ≤ t.secondOfDay ∧ t.secondOfDay < 86400 := by
  obtain ⟨-, -, hh, hm, hs, -⟩ := t.valid
  unfold secondOfDay
  omega

theorem key_eq (t : DateTime) :
    t.key = (dateKey t.dateOf * 86400 + t.secondOfDay) * 2000000000 + t.nano := by
  unfold key dateKey dateOf secondOfDay
  dsimp only
  ring

theorem key_atSecond {date : Int × Nat × Nat} {hdate : ValidDate date} {second : Nat}
    {hsecond : second < 86400} {nano : Nat} {hnano : nano < 1000000000} :
    (atSecond date hdate second hsecond nano hnano).key =
      (dateKey date * 86400 + second) * 2000000000 + nano := by
  have hday : (atSecond date hdate second hsecond nano hnano).secondOfDay = second := by
    show (((second / 3600 : Nat) : Int) * 60 + (second / 60 % 60 : Nat)) * 60 +
      (second % 60 : Nat) = second
    omega
  rw [key_eq, hday]
  rfl

/-- Where an instant is after some seconds: a day some steps on, a second of it, a nanosecond. -/
theorem key_plusSeconds (t : DateTime) {n : Int} (hn : 0 < n) :
    (t.plusSeconds n).key =
      (dateKey ((stepDate true)^[((t.secondOfDay + n) / 86400).toNat] t.dateOf) * 86400 +
        (t.secondOfDay + n) % 86400) * 2000000000 + t.nano % 1000000000 := by
  have hbounds := t.secondOfDay_bounds
  have htotal : t.shiftedSecond n = t.secondOfDay + n := by
    unfold shiftedSecond
    rw [if_neg (by omega), add_zero]
  have hdays : 0 ≤ (t.secondOfDay + n) / 86400 := by omega
  unfold plusSeconds
  rw [if_neg (by omega), key_atSecond, htotal]
  unfold shiftDate
  rw [decide_eq_true hdays]
  have habs : ((t.secondOfDay + n) / 86400).natAbs = ((t.secondOfDay + n) / 86400).toNat := by omega
  rw [habs]
  omega

theorem le_plusSeconds (t : DateTime) {n : Int} (hn : 0 ≤ n) : t ≤ t.plusSeconds n := by
  obtain rfl | hpos := hn.eq_or_lt
  · exact le_refl t.key
  · have hbounds := t.secondOfDay_bounds
    have hnano : t.nano < 2000000000 := t.valid.2.2.2.2.2.1
    have hdays := dateKey_iterate 0 ((t.secondOfDay + n) / 86400).toNat t.validDate_dateOf
    rw [Nat.zero_add] at hdays
    rw [le_def, key_plusSeconds t hpos, key_eq]
    show (dateKey ((stepDate true)^[0] t.dateOf) * 86400 + _) * _ + _ ≤ _
    omega

theorem plusSeconds_mono (t : DateTime) {m n : Int} (hm : 0 ≤ m) (hmn : m ≤ n) :
    t.plusSeconds m ≤ t.plusSeconds n := by
  obtain rfl | hpos := hm.eq_or_lt
  · exact t.le_plusSeconds hmn
  · obtain ⟨k, hk⟩ : ∃ k : Nat, ((t.secondOfDay + n) / 86400).toNat =
        ((t.secondOfDay + m) / 86400).toNat + k := by
      refine ⟨((t.secondOfDay + n) / 86400).toNat - ((t.secondOfDay + m) / 86400).toNat, ?_⟩
      omega
    have hbounds := t.secondOfDay_bounds
    have hdays := dateKey_iterate ((t.secondOfDay + m) / 86400).toNat k t.validDate_dateOf
    rw [le_def, key_plusSeconds t hpos, key_plusSeconds t (hpos.trans_le hmn), hk]
    omega

end DateTime

end Lib
