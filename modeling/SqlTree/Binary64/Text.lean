/-
Decimal text of binary numbers.

Writing takes the fewest significant digits that read back as the same number, of those the nearest, a tie upward, and
sets them in positional notation whatever the size. Reading rounds the written number to the nearest one.
-/
import SqlTree.Binary64

namespace SqlTree.Binary64

/-- the finest decimal place considered: one part in ten to this power -/
def finestPower : Nat := 341

/-- The reals that round to a place lie between these two bounds, counted in half units; the bounds belong to them
when the place is even. -/
def roundingBounds (place : Nat) : Nat × Nat :=
  (units (place - 1) + units place, units place + units (place + 1))

/-- whether `c` steps of `10 ^ step / 10 ^ finestPower` round to `place` -/
def roundsTo (place step c : Nat) : Bool :=
  let (low, high) := roundingBounds place
  let x := c * 10 ^ step * (2 * unitsPerOne)
  let lo := low * 10 ^ finestPower
  let hi := high * 10 ^ finestPower
  if place % 2 = 0 then lo ≤ x && x ≤ hi else lo < x && x < hi

/-- The neighbour of the number at `place` among the multiples of one decimal step that rounds to it: of two the nearer,
of two equally near the larger. -/
def onStep? (place step : Nat) : Option Nat :=
  let v := units place * 10 ^ finestPower
  let grid := 10 ^ step * unitsPerOne
  let c := v / grid
  match roundsTo place step c, roundsTo place step (c + 1) with
  | true, true => some (if 2 * (v % grid) < grid then c else c + 1)
  | true, false => some c
  | false, true => some (c + 1)
  | false, false => none

/-- the coarsest decimal step, from `step` downward, with a multiple that rounds to `place`, and that multiple -/
def coarsest (place : Nat) : Nat → Nat × Nat
  | 0 => ((onStep? place 0).getD 0, 0)
  | step + 1 =>
    match onStep? place (step + 1) with
    | some c => (c, step + 1)
    | none => coarsest place step

/-- digits and decimal step of the shortest text of a place -/
def shortest (place : Nat) : Nat × Nat :=
  coarsest place (finestPower + 309)

/-- `c` steps of `10 ^ step / 10 ^ finestPower` in positional notation, without a point if the number is whole -/
def positional (c step : Nat) : List Char :=
  let ds := Decimal.digits c
  if finestPower ≤ step then ds ++ List.replicate (step - finestPower) '0'
  else
    let places := finestPower - step
    let whole := ds.length - places
    (if whole = 0 then ['0'] else ds.take whole)
      ++ '.' :: (List.replicate (places - ds.length) '0' ++ ds.drop whole)

def toText : Binary64 → String
  | .nan => "NaN"
  | .infinite negative => if negative then "-inf" else "inf"
  | .finite negative place =>
    let body := if place.val = 0 then ['0'] else
      let (c, step) := shortest place.val
      positional c step
    String.ofList (if negative then '-' :: body else body)

/-- the number `n * 10 ^ e`; far outside the range of finite numbers it is zero or infinite at once -/
def ofScientific (negative : Bool) (n : Nat) (e : Int) : Binary64 :=
  let size : Int := (Decimal.digits n).length + e
  if n = 0 ∨ size < -400 then zero negative
  else if size > 400 then .infinite negative
  else if 0 ≤ e then ofRatio negative (n * 10 ^ e.toNat) 1
  else ofRatio negative n (10 ^ (-e).toNat)

/-- the exponent at the end of a decimal text: none at all, or a mark, an optional sign and digits -/
def exponent? : List Char → Option Int
  | [] => some 0
  | c :: cs =>
    if c = 'e' ∨ c = 'E' then do
      let (negative, ds) := Decimal.sign cs
      let n ← Decimal.nat? ds
      return if negative then -n else n
    else none

/-- an unsigned decimal text: digits with an optional point, at least one digit, an optional exponent -/
def ofDecimal? (negative : Bool) (cs : List Char) : Option Binary64 := do
  let (whole, rest) := Decimal.span cs
  let (fraction, rest) := match rest with
    | '.' :: rest => Decimal.span rest
    | rest => ([], rest)
  if whole.isEmpty && fraction.isEmpty then none else
  let e ← exponent? rest
  return ofScientific negative (Decimal.value (whole ++ fraction)) (e - fraction.length)

/-- reads a number: an optional sign, then a decimal text or, in any case, a word for an infinity or for no number -/
def ofText? (text : String) : Option Binary64 :=
  let (negative, cs) := Decimal.sign text.toList
  let word := String.ofList (cs.map Char.toLower)
  if word = "inf" ∨ word = "infinity" then some (.infinite negative)
  else if word = "nan" then some .nan
  else ofDecimal? negative cs

end SqlTree.Binary64
