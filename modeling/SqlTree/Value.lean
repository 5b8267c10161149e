/-
Literal values: what a constant or a parameter carries, and their text.

`display` is the form for people, which cannot be read back; `payload?` is the form in documents, and `reader?` tells
how it is read, given the word for the sort of value.
-/
import SqlTree.Binary64.Text
import SqlTree.Calendar.Text
import SqlTree.DataType
import SqlTree.Hex

namespace SqlTree

/-- a literal value -/
inductive Value where
  | null
  | bool (b : Bool)
  | int (n : Int64)
  | float (x : Binary64)
  | string (s : String)
  | date (d : Date)
  | timestamp (t : Timestamp)
  | bytes (bs : List UInt8)
  deriving DecidableEq

namespace Value

/-- equality of values; a float that is no number equals nothing -/
protected def beq : Value → Value → Bool
  | .float x, .float y => x == y
  | .float _, _ => false
  | _, .float _ => false
  | v, w => decide (v = w)

instance : BEq Value := ⟨Value.beq⟩

/-- the type a value has by itself; null has none -/
def dataType : Value → Option DataType
  | .null => none
  | .bool _ => some .bool
  | .int _ => some .bigInt
  | .float _ => some .double
  | .string _ => some .text
  | .date _ => some .date
  | .timestamp _ => some .timestamp
  | .bytes _ => some .blob

def kind : Value → String
  | .null => "null"
  | .bool _ => "bool"
  | .int _ => "int"
  | .float _ => "float"
  | .string _ => "string"
  | .date _ => "date"
  | .timestamp _ => "timestamp"
  | .bytes _ => "bytes"

def isNull : Value → Bool
  | .null => true
  | _ => false

/-! ## Text -/

def boolText (b : Bool) : String := if b then "true" else "false"

/-- a value as people read it, strings between quotes and otherwise as they are -/
def display : Value → String
  | .null => "NULL"
  | .bool b => boolText b
  | .int n => Decimal.ofInt n.toInt
  | .float x => x.toText
  | .string s => "'" ++ s ++ "'"
  | .date d => "'" ++ d.toText ++ "'"
  | .timestamp t => "'" ++ t.toText ' ' ++ "'"
  | .bytes bs => "<" ++ Decimal.ofNat bs.length ++ " bytes>"

/-- the text that, with the sort of value, determines a value that is not null -/
def payload? : Value → Option String
  | .null => none
  | .bool b => some (boolText b)
  | .int n => some (Decimal.ofInt n.toInt)
  | .float x => some x.toText
  | .string s => some s
  | .date d => some d.toText
  | .timestamp t => some (t.toText 'T')
  | .bytes bs => some (Hex.ofBytes bs)

/-- how the text of one sort of value is read; there is no such sort for an unknown word, nor for null -/
def reader? (kind : String) : Option (String → Option Value) :=
  match kind with
  | "bool" => some fun s => if s = "true" then some (.bool true) else if s = "false" then some (.bool false) else none
  | "int" => some fun s => (Decimal.int64? s).map .int
  | "float" => some fun s => (Binary64.ofText? s).map .float
  | "string" => some fun s => some (.string s)
  | "date" => some fun s => (Date.ofText? s).map .date
  | "timestamp" => some fun s => (Timestamp.ofText? s).map .timestamp
  | "bytes" => some fun s => (Hex.bytes? s).map .bytes
  | _ => none

end Value
end SqlTree
