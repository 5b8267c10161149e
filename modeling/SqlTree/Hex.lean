/-
Bytes as pairs of hexadecimal digits, the high half first.

Writing uses lower-case digits. Reading cuts the text into pieces of two bytes of its UTF-8 form and reads each as a
number in base sixteen, so either case is accepted, and so is a plus sign in front of a single digit. What is written
is read back: `bytes?_ofBytes`.
-/

namespace SqlTree.Hex

def digit (n : Nat) : Char :=
  if n < 10 then Char.ofNat ('0'.toNat + n) else Char.ofNat ('a'.toNat + (n - 10))

/-- the number a hexadecimal digit of either case denotes -/
def digit? (c : Char) : Option Nat :=
  if '0' ≤ c ∧ c ≤ '9' then some (c.toNat - '0'.toNat)
  else if 'a' ≤ c ∧ c ≤ 'f' then some (c.toNat - 'a'.toNat + 10)
  else if 'A' ≤ c ∧ c ≤ 'F' then some (c.toNat - 'A'.toNat + 10)
  else none

def pair (b : UInt8) : List Char :=
  [digit (b.toNat / 16), digit (b.toNat % 16)]

/-- the number written in two bytes of text -/
def byte? : Char → Char → Option UInt8
  | '+', c => (digit? c).map UInt8.ofNat
  | c, c' => do return UInt8.ofNat (16 * (← digit? c) + (← digit? c'))

def ofBytes (bytes : List UInt8) : String :=
  String.ofList (bytes.flatMap pair)

/-- The byte string of a hexadecimal text. A digit and a sign take one byte each, so a character of more than one byte
never leaves a readable piece. -/
def read : List Char → Option (List UInt8)
  | [] => some []
  | [_] => none
  | c :: c' :: cs => do return (← byte? c c') :: (← read cs)

def bytes? (text : String) : Option (List UInt8) :=
  read text.toList

/-! ## Reading back -/

theorem digit?_digit {n : Nat} (h : n < 16) : digit? (digit n) = some n ∧ digit n ≠ '+' := by
  have all : ∀ n : Fin 16, digit? (digit n) = some n.val ∧ digit n ≠ '+' := by decide
  exact all ⟨n, h⟩

theorem byte?_pair (b : UInt8) : byte? (digit (b.toNat / 16)) (digit (b.toNat % 16)) = some b := by
  have size := b.toNat_lt
  obtain ⟨high, unsigned⟩ := digit?_digit (n := b.toNat / 16) (by omega)
  obtain ⟨low, -⟩ := digit?_digit (n := b.toNat % 16) (by omega)
  have whole : 16 * (b.toNat / 16) + b.toNat % 16 = b.toNat := Nat.div_add_mod _ _
  unfold byte?
  split
  · next h => exact absurd h unsigned
  · show ((digit? _).bind fun h => (digit? _).bind fun l => some (UInt8.ofNat (16 * h + l))) = some b
    rw [high, low]
    show some (UInt8.ofNat (16 * (b.toNat / 16) + b.toNat % 16)) = some b
    rw [whole, UInt8.ofNat_toNat]

theorem read_flatMap_pair (bs : List UInt8) : read (bs.flatMap pair) = some bs := by
  induction bs with
  | nil => rfl
  | cons b bs ih =>
    rw [List.flatMap_cons, pair]
    show ((byte? _ _).bind fun b => (read (bs.flatMap pair)).bind fun bs => some (b :: bs)) = some (b :: bs)
    rw [byte?_pair, ih]
    rfl

theorem bytes?_ofBytes (bs : List UInt8) : bytes? (ofBytes bs) = some bs := by
  rw [bytes?, ofBytes, String.toList_ofList, read_flatMap_pair]

end SqlTree.Hex
