/-
Reading TOML documents.

A document is lines: blank ones, comments, headers of tables, and definitions of keys. Arrays may run over several
lines, inline tables may not. Keys have fewer than 80 parts and values are nested less than 80 deep.
-/
import SqlTree.Toml.Scalar

namespace SqlTree.Toml

def tooDeep : Nat := 80

/-- what follows a comment and its line end, or the end of the text -/
def comment? (cs : List Char) : Option (List Char) :=
  match cs.dropWhile isPlain with
  | [] => some []
  | rest => newline? rest

/-- what follows the end of a line: a gap, an optional comment and the line end, or the end of the text -/
def lineEnd? (cs : List Char) : Option (List Char) :=
  match dropGap cs with
  | [] => some []
  | '#' :: rest => comment? rest
  | rest => newline? rest

/-- a character of a key without quotes -/
def isBareKey (c : Char) : Bool := c.isAlphanum || c == '_' || c == '-'

/-- one part of a key, and what follows it -/
def keyPart? (cs : List Char) : Option (String × List Char) :=
  match cs with
  | '"' :: rest => (line? '"' (rest.length + 1) rest).map fun (k, rest) => (String.ofList k, rest)
  | '\'' :: rest => (line? '\'' (rest.length + 1) rest).map fun (k, rest) => (String.ofList k, rest)
  | cs =>
    let k := cs.takeWhile isBareKey
    if k.isEmpty then none else some (String.ofList k, cs.drop k.length)

/-- the parts of a key with dots between them, gaps around each, and what follows -/
def keyParts? : Nat → List Char → Option (List String × List Char)
  | 0, _ => none
  | steps + 1, cs => do
    let (k, rest) ← keyPart? (dropGap cs)
    match dropGap rest with
    | '.' :: rest => (keyParts? steps rest).map fun (ks, rest) => (k :: ks, rest)
    | rest => some ([k], rest)

/-- a key as the path in front of its last part, and that part -/
def key? (cs : List Char) : Option ((List String × String) × List Char) := do
  let (ks, rest) ← keyParts? (cs.length + 1) cs
  let last ← ks.getLast?
  if ks.length < tooDeep then some ((ks.dropLast, last), rest) else none

/-- what follows gaps, line ends and comments, as they may stand in an array -/
def dropTrivia? : Nat → List Char → Option (List Char)
  | 0, _ => none
  | steps + 1, cs =>
    match dropGap cs with
    | '#' :: rest =>
      match newline? (rest.dropWhile isPlain) with
      | some rest => dropTrivia? steps rest
      | none => none
    | '\n' :: rest => dropTrivia? steps rest
    | '\r' :: '\n' :: rest => dropTrivia? steps rest
    | '\r' :: _ => none
    | rest => some rest

mutual

/-- a value, and what follows it; `depth` arrays and inline tables are open around it -/
def value? : Nat → Nat → List Char → Option (Toml × List Char)
  | 0, _, _ => none
  | steps + 1, depth, cs =>
    match cs with
    | '"' :: _ => (string? '"' cs).map fun (s, rest) => (.string s, rest)
    | '\'' :: _ => (string? '\'' cs).map fun (s, rest) => (.string s, rest)
    | '[' :: rest =>
      if depth + 1 < tooDeep then (items? steps (depth + 1) rest).map fun (vs, rest) => (.array vs, rest) else none
    | '\x7b' :: rest =>
      if depth + 1 < tooDeep then do
        let (t, rest) ← match dropGap rest with
          | '\x7d' :: rest => some (opened, rest)
          | rest => entries? steps (depth + 1) opened rest
        return (.inline t.entries, rest)
      else none
    | cs => bare? cs

/-- the items of an array up to its bracket, a comma allowed behind the last one, and what follows -/
def items? : Nat → Nat → List Char → Option (List Toml × List Char)
  | 0, _, _ => none
  | steps + 1, depth, cs => do
    let cs ← dropTrivia? (cs.length + 1) cs
    match cs with
    | ']' :: rest => some ([], rest)
    | cs => do
      let (v, rest) ← value? steps depth cs
      let rest ← dropTrivia? (rest.length + 1) rest
      match rest with
      | ',' :: rest => (items? steps depth rest).map fun (vs, rest) => (v :: vs, rest)
      | ']' :: rest => some ([v], rest)
      | _ => none

/-- an inline table with the definitions up to its brace added, and what follows -/
def entries? : Nat → Nat → Toml → List Char → Option (Toml × List Char)
  | 0, _, _, _ => none
  | steps + 1, depth, t, cs => do
    let ((path, key), rest) ← key? cs
    let rest ← Text.mark? '=' rest
    let (v, rest) ← value? steps depth (dropGap rest)
    let t ← t.define path key v
    match dropGap rest with
    | ',' :: rest => entries? steps depth t rest
    | '\x7d' :: rest => some (t, rest)
    | _ => none

end

/-- the document after a definition, and the lines that follow it -/
def definition? (d : Draft) (cs : List Char) : Option (Draft × List Char) := do
  let ((path, key), rest) ← key? cs
  let rest ← Text.mark? '=' rest
  let (v, rest) ← value? (rest.length + 1) 0 (dropGap rest)
  let rest ← lineEnd? rest
  return (← d.define path key v, rest)

/-- the document after a header, and the lines that follow it -/
def header? (d : Draft) (cs : List Char) : Option (Draft × List Char) :=
  match cs with
  | '[' :: cs => do
    let ((path, key), rest) ← key? cs
    let rest ← Text.mark? ']' rest
    let rest ← Text.mark? ']' rest
    let rest ← lineEnd? rest
    return (← d.openRepeated path key, rest)
  | cs => do
    let ((path, key), rest) ← key? cs
    let rest ← Text.mark? ']' rest
    let rest ← lineEnd? rest
    return (← d.openTable path key, rest)

/-- the document after the lines of a text; every step takes a character -/
def lines : Nat → Draft → List Char → Option Draft
  | 0, _, _ => none
  | steps + 1, d, cs =>
    match dropGap cs with
    | [] => some d
    | '#' :: rest => (comment? rest).bind (lines steps d)
    | '[' :: rest => (header? d rest).bind fun (d, rest) => lines steps d rest
    | cs =>
      match newline? cs with
      | some rest => lines steps d rest
      | none => (definition? d cs).bind fun (d, rest) => lines steps d rest

/-- the document of a text, a byte order mark in front of it allowed -/
def read? (text : String) : Option Toml := do
  let cs := match text.toList with
    | '\ufeff' :: cs => cs
    | cs => cs
  let d ← lines (cs.length + 1) .empty cs
  d.settled

end SqlTree.Toml
