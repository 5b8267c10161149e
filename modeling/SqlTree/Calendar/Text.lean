/-
Text of days and times of day.

A year from 0 to 9999 is written with four digits, any other with a sign and at least four. A fraction of a second is
left out when it is zero, else it has three, six or nine digits, the fewest that are exact. A leap second is written
as second 60. Reading allows blanks in front of every number and fewer digits than are written.
-/
import SqlTree.Calendar
import SqlTree.Text.Front

namespace SqlTree

namespace Date

/-- a year in four digits, or with a sign -/
def yearText (year : Int) : List Char :=
  if 0 ≤ year ∧ year ≤ 9999 then Decimal.padded 4 year.toNat
  else (if year < 0 then '-' else '+') :: Decimal.padded 4 year.natAbs

/-- year, month and day, hyphens between them -/
def chars (d : Date) : List Char :=
  yearText d.year ++ '-' :: Decimal.padded 2 d.month ++ '-' :: Decimal.padded 2 d.day

def toText (d : Date) : String := String.ofList d.chars

end Date

namespace TimeOfDay

/-- the fraction of a second with its point, or nothing if there is none -/
def fractionText (nanos : Nat) : List Char :=
  if nanos = 0 then []
  else if nanos % 10 ^ 6 = 0 then '.' :: Decimal.padded 3 (nanos / 10 ^ 6)
  else if nanos % 10 ^ 3 = 0 then '.' :: Decimal.padded 6 (nanos / 10 ^ 3)
  else '.' :: Decimal.padded 9 nanos

/-- hour, minute and second, colons between them, and the fraction -/
def chars (t : TimeOfDay) : List Char :=
  Decimal.padded 2 t.hour ++ ':' :: Decimal.padded 2 t.minute ++ ':' ::
    Decimal.padded 2 (t.second + t.nanos / 10 ^ 9) ++ fractionText (t.nanos % 10 ^ 9)

end TimeOfDay

def Timestamp.toText (mark : Char) (t : Timestamp) : String :=
  String.ofList (t.date.chars ++ mark :: t.time.chars)

namespace Calendar

def number? (width : Nat) (cs : List Char) : Option (Nat × List Char) :=
  let cs := Text.dropBlanks cs
  let ds := (cs.take width).takeWhile Char.isDigit
  if ds.isEmpty then none else some (Decimal.value ds, cs.drop ds.length)

/-- a year behind any blanks: up to four digits, or a sign and any number of digits -/
def year? (cs : List Char) : Option (Int × List Char) :=
  match Text.dropBlanks cs with
  | '-' :: ds =>
    let (whole, rest) := Decimal.span ds
    if whole.isEmpty then none else some (-(Decimal.value whole : Int), rest)
  | '+' :: ds =>
    let (whole, rest) := Decimal.span ds
    if whole.isEmpty then none else some ((Decimal.value whole : Int), rest)
  | ds => (number? 4 ds).map fun (n, rest) => ((n : Int), rest)

def date? (cs : List Char) : Option (Date × List Char) := do
  let (year, cs) ← year? cs
  let cs ← Text.mark? '-' cs
  let (month, cs) ← number? 2 cs
  let cs ← Text.mark? '-' cs
  let (day, cs) ← number? 2 cs
  return (← Date.of? year month day, cs)

/-- the nanoseconds of an optional fraction, digits past the ninth dropped, and what follows it -/
def fraction? : List Char → Option (Nat × List Char)
  | '.' :: cs =>
    let (ds, rest) := Decimal.span cs
    if ds.isEmpty then none
    else some (Decimal.value (ds.take 9) * 10 ^ (9 - ds.length), rest)
  | cs => some (0, cs)

/-- a time of day, second 60 being the leap second, and what follows it -/
def time? (cs : List Char) : Option (TimeOfDay × List Char) := do
  let (hour, cs) ← number? 2 cs
  let cs ← Text.mark? ':' cs
  let (minute, cs) ← number? 2 cs
  let cs ← Text.mark? ':' cs
  let (second, cs) ← number? 2 cs
  let (nanos, cs) ← fraction? cs
  let time ← if second = 60 then TimeOfDay.of? hour minute 59 (nanos + 10 ^ 9)
    else if nanos < 10 ^ 9 then TimeOfDay.of? hour minute second nanos else none
  return (time, cs)

end Calendar

/-- reads a day; nothing may follow it -/
def Date.ofText? (text : String) : Option Date := do
  let (d, rest) ← Calendar.date? text.toList
  if rest.isEmpty then some d else none

/-- reads a day, a `T` and a time of day; nothing may follow -/
def Timestamp.ofText? (text : String) : Option Timestamp := do
  let (d, cs) ← Calendar.date? text.toList
  let cs ← Text.mark? 'T' cs
  let (t, rest) ← Calendar.time? cs
  if rest.isEmpty then some ⟨d, t⟩ else none

end SqlTree
