/-
Days of the proleptic Gregorian calendar and times of day.

A `Date` is a day that exists, within a fixed range of years; a `Timestamp` adds a time without zone. A leap second is
the second after second 59, held as nanoseconds from one thousand million on.
-/
import SqlTree.Decimal

namespace SqlTree

def isLeapYear (year : Int) : Bool :=
  year % 4 == 0 && (year % 100 != 0 || year % 400 == 0)

def daysInMonth (year : Int) (month : Nat) : Nat :=
  if month = 2 then (if isLeapYear year then 29 else 28)
  else if month = 4 ∨ month = 6 ∨ month = 9 ∨ month = 11 then 30
  else 31

/-- the day exists and its year is in range -/
abbrev Date.Valid (year : Int) (month day : Nat) : Prop :=
  -262143 ≤ year ∧ year ≤ 262142 ∧ 1 ≤ month ∧ month ≤ 12 ∧ 1 ≤ day ∧ day ≤ daysInMonth year month

structure Date where
  year : Int
  month : Nat
  day : Nat
  valid : Date.Valid year month day
  deriving DecidableEq

/-- the time of day exists; only second 59 has a leap second behind it -/
abbrev TimeOfDay.Valid (hour minute second nanos : Nat) : Prop :=
  hour < 24 ∧ minute < 60 ∧ second < 60 ∧ (nanos < 10 ^ 9 ∨ (second = 59 ∧ nanos < 2 * 10 ^ 9))

/-- a time of day to the nanosecond -/
structure TimeOfDay where
  hour : Nat
  minute : Nat
  second : Nat
  nanos : Nat
  valid : TimeOfDay.Valid hour minute second nanos
  deriving DecidableEq

/-- a day and a time of day, without zone -/
structure Timestamp where
  date : Date
  time : TimeOfDay
  deriving DecidableEq

/-- the day with these numbers, if it exists -/
def Date.of? (year : Int) (month day : Nat) : Option Date :=
  if h : Date.Valid year month day then some ⟨year, month, day, h⟩ else none

def TimeOfDay.of? (hour minute second nanos : Nat) : Option TimeOfDay :=
  if h : TimeOfDay.Valid hour minute second nanos then some ⟨hour, minute, second, nanos, h⟩ else none

theorem Date.of?_self (d : Date) : Date.of? d.year d.month d.day = some d :=
  dif_pos d.valid

theorem TimeOfDay.of?_self (t : TimeOfDay) : TimeOfDay.of? t.hour t.minute t.second t.nanos = some t :=
  dif_pos t.valid

end SqlTree
