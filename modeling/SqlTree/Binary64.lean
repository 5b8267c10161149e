/-
Binary floating-point numbers of 64 bits, with exact arithmetic on natural numbers behind them.

The non-negative finite numbers are counted upward from zero, and a number is stored by its place in that count: the
next place is the next larger number, and an even place has an even significand. `ofRatio` rounds a quotient to the
nearest place, a tie to the even one.
-/
import SqlTree.Decimal

namespace SqlTree

/-- the count of non-negative finite numbers -/
def Binary64.finiteCount : Nat := 2047 * 2 ^ 52

/-- a number, an infinity, or the value that is no number -/
inductive Binary64 where
  | nan
  | infinite (negative : Bool)
  | finite (negative : Bool) (place : Fin Binary64.finiteCount)
  deriving DecidableEq, Repr

namespace Binary64

/-- the number at a place, counted in units of the smallest positive number -/
def units (place : Nat) : Nat :=
  if place < 2 ^ 52 then place else (2 ^ 52 + place % 2 ^ 52) * 2 ^ (place / 2 ^ 52 - 1)

/-- the smallest positive number is one part in this many of one -/
def unitsPerOne : Nat := 2 ^ 1074

/-- a quotient rounded to the nearest whole number, a tie to the even one -/
def roundQuotient (num den : Nat) : Nat :=
  let q := num / den
  let r := num % den
  if 2 * r > den ∨ (2 * r = den ∧ q % 2 = 1) then q + 1 else q

/-- how many low bits of a count of units lie below the significand -/
def excessBits (count : Nat) : Nat :=
  Nat.log2 count - 52

/-- the place nearest to a quotient; it lies past the last finite place if the quotient is too large -/
def nearestPlace (num den : Nat) : Nat :=
  let scaled := num * unitsPerOne
  let shift := excessBits (scaled / den)
  shift * 2 ^ 52 + roundQuotient scaled (den * 2 ^ shift)

/-- the number nearest to a quotient, an infinity if that is past the last finite place -/
def ofRatio (negative : Bool) (num den : Nat) : Binary64 :=
  let place := nearestPlace num den
  if h : place < finiteCount then .finite negative ⟨place, h⟩ else .infinite negative

/-- equality of numbers: the value that is no number equals nothing, and the two zeros are equal -/
protected def beq : Binary64 → Binary64 → Bool
  | .infinite n, .infinite n' => n == n'
  | .finite n p, .finite n' p' => p == p' && (n == n' || p.val == 0)
  | _, _ => false

instance : BEq Binary64 := ⟨Binary64.beq⟩

def zero (negative : Bool) : Binary64 := .finite negative ⟨0, by decide⟩

/-- Whatever the sign, zero equals zero. -/
theorem zero_beq_zero (m n : Bool) : (zero m == zero n) = true := by
  cases m <;> cases n <;> rfl

/-- The value that is no number equals nothing, not even itself. -/
theorem nan_beq (x : Binary64) : (nan == x) = false := by
  cases x <;> rfl

end Binary64
end SqlTree
