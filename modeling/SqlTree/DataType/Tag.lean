/-
Reading type tags.

Words are read in any case, and spaces, tabs and line ends may stand around the parentheses, the comma and the
numbers. `ofPrefix?` reads a type at the front of a text, `ofTag?` a text that holds a type and nothing else. The
name of a capability may hold such a tag; `parse` answers a name that means nothing with an error.
-/
import SqlTree.Error
import SqlTree.Text.Front

namespace SqlTree.DataType

/-- a space, a tab or a line end -/
def isGap (c : Char) : Bool :=
  c == ' ' || c == '\t' || c == '\r' || c == '\n'

def dropGap (cs : List Char) : List Char :=
  cs.dropWhile isGap

/-- what follows a word in any case -/
def word? (word : List Char) (cs : List Char) : Option (List Char) :=
  if (cs.take word.length).map Char.toLower = word then some (cs.drop word.length) else none

/-- a number below `bound`, and what follows it -/
def number? (bound : Nat) (cs : List Char) : Option (Nat × List Char) :=
  let (ds, rest) := Decimal.span cs
  if ds.isEmpty || Decimal.value ds ≥ bound then none else some (Decimal.value ds, rest)

def size? (cs : List Char) : Option (UInt32 × List Char) := do
  let cs ← Text.mark? '(' (dropGap cs)
  let (n, cs) ← number? UInt32.size (dropGap cs)
  let cs ← Text.mark? ')' (dropGap cs)
  return (UInt32.ofNat n, cs)

def precision? (cs : List Char) : Option ((UInt8 × UInt8) × List Char) := do
  let cs ← Text.mark? '(' (dropGap cs)
  let (p, cs) ← number? UInt8.size (dropGap cs)
  let cs ← Text.mark? ',' (dropGap cs)
  let (s, cs) ← number? UInt8.size (dropGap cs)
  let cs ← Text.mark? ')' (dropGap cs)
  return ((UInt8.ofNat p, UInt8.ofNat s), cs)

/-- what the word of a type asks for behind it -/
inductive Form where
  | plain (type : DataType)
  | sized (type : UInt32 → DataType)
  | scaled (type : UInt8 → UInt8 → DataType)

/-- The words of the types in the order in which they are tried; a word never stands behind one it begins with. -/
def words : List (String × Form) :=
  [("decimal", .scaled .decimal), ("varchar", .sized .varChar), ("varbinary", .sized .varBinary),
    ("char", .sized .char), ("binary", .sized .binary), ("smallint", .plain .smallInt), ("bigint", .plain .bigInt),
    ("int", .plain .int),
    ("real", .plain .real), ("double", .plain .double), ("bool", .plain .bool), ("text", .plain .text),
    ("blob", .plain .blob), ("date", .plain .date), ("timestamp", .plain .timestamp), ("time", .plain .time),
    ("guid", .plain .guid)]

/-- reads one type, with its numbers, and returns what follows it -/
def Form.read (cs : List Char) : Form → Option (DataType × List Char)
  | .plain type => some (type, cs)
  | .sized type => (size? cs).map fun (n, rest) => (type n, rest)
  | .scaled type => (precision? cs).map fun ((p, s), rest) => (type p s, rest)

/-- a type at the front of a text, and what follows it -/
def ofPrefix? (cs : List Char) : Option (DataType × List Char) :=
  words.findSome? fun (word, form) => do form.read (← word? word.toList cs)

/-- a type with nothing but gaps around it -/
def ofTag? (text : String) : Option DataType := do
  let (type, rest) ← ofPrefix? (dropGap text.toList)
  if (dropGap rest).isEmpty then some type else none

end SqlTree.DataType

/-! ## Names that may mean nothing -/

namespace SqlTree

def DataType.parse (tag : String) : Result DataType :=
  match ofTag? tag with
  | some type => .ok type
  | none => .error (.document "data-type" (.unknownDataType tag))

/-- the tag behind the mark of a data type, if the mark is there -/
def Capability.typeTag? (name : String) : Option String :=
  let mark := typeMark.toList
  if mark.isPrefixOf name.toList then some (String.ofList (name.toList.drop mark.length)) else none

def Capability.parse (name : String) : Result Capability :=
  match flags.find? (·.name == name) with
  | some flag => .ok flag
  | none =>
    match typeTag? name with
    | some tag => (DataType.parse tag).map .dataType
    | none => .error (.unknownCapability name)

end SqlTree
