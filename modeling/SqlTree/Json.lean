/-
JSON text: its values, how it is read, and how it is set, on one line without blanks or with every member and item on a
line of its own.

Blanks are spaces, tabs and line ends. A number is kept as no more than its presence, for nothing here uses one. A
string is decoded; one that holds half of a surrogate pair is well formed but has no text.
-/
import SqlTree.Hex
import SqlTree.Text.Front

namespace SqlTree

/-- a JSON value -/
inductive Json where
  | null
  | bool
  | number
  | string (text : Option String)
  | array (items : List Json)
  | object (members : List (Option String × Json))

namespace Json

/-- a space, a tab or a line end -/
def isGap (c : Char) : Bool := c == ' ' || c == '\t' || c == '\n' || c == '\r'

def dropGap (cs : List Char) : List Char := cs.dropWhile isGap

/-- the code unit of four hexadecimal digits -/
def unit? (a b c d : Char) : Option Nat := do
  return 4096 * (← Hex.digit? a) + 256 * (← Hex.digit? b) + 16 * (← Hex.digit? c) + (← Hex.digit? d)

/-- the first half of a surrogate pair -/
def isLead (u : Nat) : Bool := 0xd800 ≤ u && u < 0xdc00

/-- the second half of a surrogate pair -/
def isTrail (u : Nat) : Bool := 0xdc00 ≤ u && u < 0xe000

/-- the character of a surrogate pair -/
def paired (lead trail : Nat) : Char := Char.ofNat (0x10000 + (lead - 0xd800) * 1024 + (trail - 0xdc00))

/-- the character that a letter stands for behind a backslash -/
def escaped? : Char → Option Char
  | '"' => some '"'
  | '\\' => some '\\'
  | '/' => some '/'
  | 'b' => some '\x08'
  | 'f' => some '\x0c'
  | 'n' => some '\n'
  | 'r' => some '\r'
  | 't' => some '\t'
  | _ => none

/-- a character in front of the rest of a string -/
def before (c : Char) (r : Option (List Char) × List Char) : Option (List Char) × List Char :=
  (r.1.map (c :: ·), r.2)

/-- The characters of a string up to its closing quote, and what follows it. -/
def chars : List Char → Option (Option (List Char) × List Char)
  | [] => none
  | '"' :: rest => some (some [], rest)
  | '\\' :: 'u' :: a :: b :: c :: d :: '\\' :: 'u' :: a' :: b' :: c' :: d' :: rest => do
    let u ← unit? a b c d
    let u' ← unit? a' b' c' d'
    if isLead u && isTrail u' then
      return before (paired u u') (← chars rest)
    else
      let r ← chars ('\\' :: 'u' :: a' :: b' :: c' :: d' :: rest)
      return if isLead u || isTrail u then (none, r.2) else before (Char.ofNat u) r
  | '\\' :: 'u' :: a :: b :: c :: d :: rest => do
    let u ← unit? a b c d
    let r ← chars rest
    return if isLead u || isTrail u then (none, r.2) else before (Char.ofNat u) r
  | '\\' :: c :: rest => do
    let c ← escaped? c
    return before c (← chars rest)
  | c :: rest => do
    if c < ' ' then none else
    return before c (← chars rest)
termination_by cs => cs.length

def string? (cs : List Char) : Option (Option String × List Char) :=
  (chars cs).map fun (text, rest) => (text.map String.ofList, rest)

/-- what follows the digits of a number's whole part: no further digit follows a leading zero -/
def afterWhole : List Char → Option (List Char)
  | '0' :: cs => some cs
  | c :: cs => if c.isDigit then some (cs.dropWhile Char.isDigit) else none
  | [] => none

/-- what follows one or more digits -/
def afterDigits : List Char → Option (List Char)
  | c :: cs => if c.isDigit then some (cs.dropWhile Char.isDigit) else none
  | [] => none

/-- what follows a fraction, if there is one -/
def afterFraction : List Char → Option (List Char)
  | '.' :: cs => afterDigits cs
  | cs => some cs

/-- what follows an exponent, if there is one -/
def afterExponent : List Char → Option (List Char)
  | c :: cs =>
    if c = 'e' ∨ c = 'E' then
      match cs with
      | '+' :: cs => afterDigits cs
      | '-' :: cs => afterDigits cs
      | cs => afterDigits cs
    else some (c :: cs)
  | [] => some []

def afterNumber (cs : List Char) : Option (List Char) := do
  let cs := match cs with
    | '-' :: cs => cs
    | cs => cs
  afterExponent (← afterFraction (← afterWhole cs))

mutual

/-- a value, and what follows it; every step takes a character, so as many steps as characters suffice -/
def value : Nat → List Char → Option (Json × List Char)
  | 0, _ => none
  | steps + 1, cs =>
    match dropGap cs with
    | '\x7b' :: rest =>
      match dropGap rest with
      | '\x7d' :: rest => some (.object [], rest)
      | rest => (members steps rest).map fun (ms, rest) => (.object ms, rest)
    | '[' :: rest =>
      match dropGap rest with
      | ']' :: rest => some (.array [], rest)
      | rest => (items steps rest).map fun (vs, rest) => (.array vs, rest)
    | '"' :: rest => (string? rest).map fun (text, rest) => (.string text, rest)
    | 'n' :: rest => (Text.word? "ull".toList rest).map fun rest => (.null, rest)
    | 't' :: rest => (Text.word? "rue".toList rest).map fun rest => (.bool, rest)
    | 'f' :: rest => (Text.word? "alse".toList rest).map fun rest => (.bool, rest)
    | rest => (afterNumber rest).map fun rest => (.number, rest)

/-- the items of an array that is not empty, and what follows it -/
def items : Nat → List Char → Option (List Json × List Char)
  | 0, _ => none
  | steps + 1, cs => do
    let (v, rest) ← value steps cs
    match dropGap rest with
    | ',' :: rest => (items steps rest).map fun (vs, rest) => (v :: vs, rest)
    | ']' :: rest => some ([v], rest)
    | _ => none

/-- the members of an object that is not empty, and what follows it -/
def members : Nat → List Char → Option (List (Option String × Json) × List Char)
  | 0, _ => none
  | steps + 1, cs =>
    match dropGap cs with
    | '"' :: rest => do
      let (key, rest) ← string? rest
      match dropGap rest with
      | ':' :: rest => do
        let (v, rest) ← value steps rest
        match dropGap rest with
        | ',' :: rest => (members steps rest).map fun (ms, rest) => ((key, v) :: ms, rest)
        | '\x7d' :: rest => some ([(key, v)], rest)
        | _ => none
      | _ => none
    | _ => none

end

/-- the value that a text holds, and nothing else -/
def read? (text : String) : Option Json := do
  let cs := text.toList
  let (v, rest) ← value (cs.length + 1) cs
  if (dropGap rest).isEmpty then some v else none

/-! ## How it is set -/

/-- how a character is written inside a string -/
def escapedChars (c : Char) : List Char :=
  if c = '"' then ['\\', '"']
  else if c = '\\' then ['\\', '\\']
  else if c = '\x08' then ['\\', 'b']
  else if c = '\t' then ['\\', 't']
  else if c = '\n' then ['\\', 'n']
  else if c = '\x0c' then ['\\', 'f']
  else if c = '\r' then ['\\', 'r']
  else if c < ' ' then ['\\', 'u', '0', '0', Hex.digit (c.toNat / 16), Hex.digit (c.toNat % 16)]
  else [c]

/-- a string between quotes; quotes, backslashes and control characters are escaped, and nothing else -/
def quoted (text : String) : String :=
  String.ofList ('"' :: text.toList.flatMap escapedChars ++ ['"'])

/-- what stands between the parts of a value -/
structure Layout where
  /-- in front of a part at a level of nesting -/
  gap : Nat → String
  /-- between a key and its value -/
  colon : String

namespace Layout

/-- everything on one line, without blanks -/
def compact : Layout := ⟨fun _ => "", ":"⟩

/-- every part on a line of its own, two spaces in for each level -/
def spacious : Layout := ⟨fun level => "\n" ++ String.ofList (List.replicate (2 * level) ' '), ": "⟩

/-- the parts of an object or array that is not empty, between its brackets -/
def enclosed (l : Layout) (level : Nat) (left : String) (parts : List String) (right : String) : String :=
  left ++ l.gap (level + 1) ++ String.intercalate ("," ++ l.gap (level + 1)) parts ++ l.gap level ++ right

def member (l : Layout) (key value : String) : String := quoted key ++ l.colon ++ value

end Layout

end Json
end SqlTree
