import Mathlib.Order.Defs.LinearOrder

/-
  UTC instants with nanoseconds and leap seconds: a proleptic Gregorian date and a time of day.
  A leap second is second 59 with `nano` from 10^9 on.
  Instants are ordered as their fields are (`key`), and the order is total on them (`key_inj`).
-/

namespace Lib

/-! ## Dates -/

def isLeapYear (y : Int) : Bool := y % 4 == 0 && (y % 100 != 0 || y % 400 == 0)

def daysInMonth (y : Int) (m : Nat) : Nat :=
  if m == 2 then (if isLeapYear y then 29 else 28)
  else if m == 4 || m == 6 || m == 9 || m == 11 then 30
  else 31

theorem daysInMonth_le (y : Int) (m : Nat) : daysInMonth y m ≤ 31 := by
  unfold daysInMonth
  split
  · split <;> omega
  · split <;> omega

theorem le_daysInMonth (y : Int) (m : Nat) : 28 ≤ daysInMonth y m := by
  unfold daysInMonth
  split
  · split <;> omega
  · split <;> omega

/-- A date and a time of day that exist. -/
def ValidFields (year : Int) (month day hour minute second nano : Nat) : Prop :=
  (1 ≤ month ∧ month ≤ 12) ∧ (1 ≤ day ∧ day ≤ daysInMonth year month) ∧ hour < 24 ∧
    minute < 60 ∧ second < 60 ∧ nano < 2000000000 ∧ (nano < 1000000000 ∨ second = 59)

instance (year : Int) (month day hour minute second nano : Nat) :
    Decidable (ValidFields year month day hour minute second nano) :=
  inferInstanceAs (Decidable (_ ∧ _))

structure DateTime where
  year : Int
  month : Nat
  day : Nat
  hour : Nat
  minute : Nat
  second : Nat
  nano : Nat
  valid : ValidFields year month day hour minute second nano
  deriving DecidableEq

namespace DateTime

/-- Build an instant from fields that may not exist. -/
def ofFields? (year : Int) (month day hour minute second nano : Nat) : Option DateTime :=
  if h : ValidFields year month day hour minute second nano then
    some ⟨year, month, day, hour, minute, second, nano, h⟩
  else none

theorem ofFields?_self (t : DateTime) :
    ofFields? t.year t.month t.day t.hour t.minute t.second t.nano = some t := by
  simp [ofFields?, t.valid]

/-! ## Order -/

/-- A number that orders instants as their fields do lexicographically. -/
def key (t : DateTime) : Int :=
  (((((t.year * 13 + t.month) * 32 + t.day) * 24 + t.hour) * 60 + t.minute) * 60 + t.second) *
    2000000000 + t.nano

instance : LE DateTime := ⟨fun a b => a.key ≤ b.key⟩
instance : LT DateTime := ⟨fun a b => a.key < b.key⟩
instance (a b : DateTime) : Decidable (a ≤ b) := inferInstanceAs (Decidable (a.key ≤ b.key))
instance (a b : DateTime) : Decidable (a < b) := inferInstanceAs (Decidable (a.key < b.key))

theorem le_def (a b : DateTime) : a ≤ b ↔ a.key ≤ b.key := Iff.rfl
theorem lt_def (a b : DateTime) : a < b ↔ a.key < b.key := Iff.rfl

theorem key_inj {a b : DateTime} (h : a.key = b.key) : a = b := by
  obtain ⟨ya, moa, da, ha, mia, sa, na, ⟨_, hm2⟩, ⟨_, hd2⟩, hh, hmi, hs, hn, _⟩ := a
  obtain ⟨yb, mob, db, hb, mib, sb, nb, ⟨_, hm2'⟩, ⟨_, hd2'⟩, hh', hmi', hs', hn', _⟩ := b
  have hda := daysInMonth_le ya moa
  have hdb := daysInMonth_le yb mob
  simp only [key] at h
  have hna : na = nb := by omega
  have hsa : sa = sb := by omega
  have hma : mia = mib := by omega
  have hha : ha = hb := by omega
  have hdd : da = db := by omega
  have hmm : moa = mob := by omega
  have hyy : ya = yb := by omega
  subst hna hsa hma hha hdd hmm hyy
  rfl

/-! ## Durations -/

/-- Days from 0000-03-01, with years counted from March. -/
def dayNumber (t : DateTime) : Int :=
  let y := if t.month ≤ 2 then t.year - 1 else t.year
  let m := (t.month + 9) % 12
  365 * y + y.fdiv 4 - y.fdiv 100 + y.fdiv 400 + (153 * m + 2) / 5 + t.day - 1

def secondOfDay (t : DateTime) : Int := (t.hour * 60 + t.minute) * 60 + t.second

/-- Nanoseconds from `b` to `a`. A leap second of the earlier time of day has passed by the
    later one, so it counts. -/
def signedDurationSince (a b : DateTime) : Int :=
  let adjust : Int :=
    if a.secondOfDay > b.secondOfDay then (if b.nano ≥ 1000000000 then 1 else 0)
    else if a.secondOfDay < b.secondOfDay then (if a.nano ≥ 1000000000 then -1 else 0)
    else 0
  ((a.dayNumber - b.dayNumber) * 86400 + (a.secondOfDay - b.secondOfDay) + adjust) *
    1000000000 + ((a.nano : Int) - b.nano)

end DateTime

end Lib
