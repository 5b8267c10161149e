/-
Whole numbers in decimal text.

A number is written without leading zeros. Reading is more generous than writing: leading zeros and one sign are
allowed, and the caller says how large the number may be. Readers work on characters and hand back what they leave.
-/

namespace SqlTree.Decimal

/-- the power of natural numbers, the same in every module whatever algebra the module imports -/
@[default_instance high]
instance (priority := high) natPow : Pow Nat Nat := instPowNat

/-- the digits of a number, the first one not zero unless the number is -/
def digits (n : Nat) : List Char :=
  Nat.toDigits 10 n

def value (ds : List Char) : Nat :=
  Nat.ofDigitChars 10 ds 0

/-- Reading the written digits gives the number back. -/
theorem value_digits (n : Nat) : value (digits n) = n :=
  Nat.ofDigitChars_toDigits (by decide) (by decide)

def ofNat (n : Nat) : String :=
  String.ofList (digits n)

def ofUInt64 (n : UInt64) : String := ofNat n.toNat

def ofInt : Int → String
  | .ofNat n => ofNat n
  | .negSucc n => "-" ++ ofNat (n + 1)

/-- the digits of a number, filled up with leading zeros to a least width -/
def padded (width n : Nat) : List Char :=
  List.replicate (width - (digits n).length) '0' ++ digits n

/-- the longest run of digits at the front, and what follows it -/
def span (cs : List Char) : List Char × List Char :=
  (cs.takeWhile Char.isDigit, cs.dropWhile Char.isDigit)

/-- a text of one or more digits and nothing else, as its value -/
def nat? (cs : List Char) : Option Nat :=
  if cs.isEmpty || !cs.all Char.isDigit then none else some (value cs)

/-- the sign in front of a number: whether it is a minus, and what follows it -/
def sign : List Char → Bool × List Char
  | '-' :: cs => (true, cs)
  | '+' :: cs => (false, cs)
  | cs => (false, cs)

def int64? (text : String) : Option Int64 := do
  let (negative, ds) := sign text.toList
  let n ← nat? ds
  let i : Int := if negative then -n else n
  if Int64.minValue.toInt ≤ i ∧ i ≤ Int64.maxValue.toInt then some (Int64.ofInt i) else none

/-- a natural number below `bound`, an optional plus in front -/
def below? (bound : Nat) (text : String) : Option Nat := do
  let ds := match text.toList with
    | '+' :: ds => ds
    | ds => ds
  let n ← nat? ds
  if n < bound then some n else none

def uint64? (text : String) : Option UInt64 :=
  (below? UInt64.size text).map UInt64.ofNat

end SqlTree.Decimal
