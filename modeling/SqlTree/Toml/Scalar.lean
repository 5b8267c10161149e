/-
TOML values without parts: strings, numbers, truth values, dates and times.

Each reader takes the text from the first character of the value on and returns what follows the value.
-/
import SqlTree.Binary64.Text
import SqlTree.Calendar
import SqlTree.Hex
import SqlTree.Text.Front
import SqlTree.Toml

namespace SqlTree.Toml

/-- a space or a tab -/
def isGap (c : Char) : Bool := c == ' ' || c == '\t'

def dropGap (cs : List Char) : List Char := cs.dropWhile isGap

/-- a character that comments and strings may hold: a tab, or any but the controls -/
def isPlain (c : Char) : Bool := c == '\t' || (' ' ≤ c && c != '\x7f')

/-- what follows a line end -/
def newline? : List Char → Option (List Char)
  | '\n' :: cs => some cs
  | '\r' :: '\n' :: cs => some cs
  | _ => none

/-- what follows the gaps and line ends in front; every step takes a character -/
def dropLines : Nat → List Char → List Char
  | 0, cs => cs
  | steps + 1, cs =>
    let cs := dropGap cs
    match newline? cs with
    | some cs => dropLines steps cs
    | none => cs

/-- the character of a code point written in hexadecimal digits -/
def codePoint? (ds : List Char) : Option Char := do
  let n ← ds.foldlM (fun n d => do return 16 * n + (← Hex.digit? d)) 0
  if n.isValidChar then some (Char.ofNat n) else none

/-- the character of so many hexadecimal digits, and what follows it -/
def escapedCode? (width : Nat) (cs : List Char) : Option (Char × List Char) := do
  let ds := cs.take width
  if ds.length < width then none else
  return (← codePoint? ds, cs.drop width)

/-- the character that stands behind a backslash, and what follows it -/
def escaped? : List Char → Option (Char × List Char)
  | 'b' :: cs => some ('\x08', cs)
  | 't' :: cs => some ('\t', cs)
  | 'n' :: cs => some ('\n', cs)
  | 'f' :: cs => some ('\x0c', cs)
  | 'r' :: cs => some ('\r', cs)
  | '"' :: cs => some ('"', cs)
  | '\\' :: cs => some ('\\', cs)
  | 'u' :: cs => escapedCode? 4 cs
  | 'U' :: cs => escapedCode? 8 cs
  | _ => none

/-- the rest of a string on one line, behind its quote; only double quotes know escapes -/
def line? (quote : Char) : Nat → List Char → Option (List Char × List Char)
  | 0, _ => none
  | steps + 1, cs =>
    match cs with
    | [] => none
    | c :: cs =>
      if c = quote then some ([], cs)
      else if c = '\\' ∧ quote = '"' then do
        let (c, cs) ← escaped? cs
        (line? quote steps cs).map fun (text, rest) => (c :: text, rest)
      else if isPlain c then (line? quote steps cs).map fun (text, rest) => (c :: text, rest)
      else none

/-- what follows the line end behind a backslash, and all gaps and line ends behind that -/
def foldedLine? (cs : List Char) : Option (List Char) :=
  (newline? (dropGap cs)).map fun cs => dropLines cs.length cs

/-- The rest of a string of several lines, behind its three quotes. It ends at three quotes, of which up to two more may
stand in front and belong to it. -/
def lines? (quote : Char) : Nat → List Char → Option (List Char × List Char)
  | 0, _ => none
  | steps + 1, cs =>
    match cs with
    | [] => none
    | c :: rest =>
      if c = quote then
        let run := (cs.takeWhile (· = quote)).length
        if run < 3 then (lines? quote steps rest).map fun (text, rest) => (c :: text, rest)
        else
          let extra := min (run - 3) 2
          some (List.replicate extra quote, cs.drop (extra + 3))
      else if c = '\\' ∧ quote = '"' then
        match foldedLine? rest with
        | some rest => lines? quote steps rest
        | none => do
          let (c, rest) ← escaped? rest
          (lines? quote steps rest).map fun (text, rest) => (c :: text, rest)
      else
        match newline? cs with
        | some rest => (lines? quote steps rest).map fun (text, rest) => ('\n' :: text, rest)
        | none => if isPlain c then (lines? quote steps rest).map fun (text, rest) => (c :: text, rest) else none

def string? (quote : Char) (cs : List Char) : Option (String × List Char) := do
  let (text, rest) ←
    if (cs.take 3).all (· = quote) ∧ 3 ≤ cs.length then
      let body := cs.drop 3
      let body := (newline? body).getD body
      lines? quote (body.length + 1) body
    else line? quote (cs.length + 1) (cs.drop 1)
  return (String.ofList text, rest)

/-- the digits that follow a digit, an underscore allowed in front of each but not behind the last, and what follows -/
def moreDigits? (isDigit : Char → Bool) : List Char → Option (List Char × List Char)
  | '_' :: c :: cs => if isDigit c then (moreDigits? isDigit cs).map fun (ds, rest) => (c :: ds, rest) else none
  | c :: cs =>
    if isDigit c then (moreDigits? isDigit cs).map fun (ds, rest) => (c :: ds, rest)
    else if c = '_' then none
    else some ([], c :: cs)
  | [] => some ([], [])

/-- one digit or more with single underscores between them, the underscores left out, and what follows -/
def digits? (isDigit : Char → Bool) : List Char → Option (List Char × List Char)
  | c :: cs => if isDigit c then (moreDigits? isDigit cs).map fun (ds, rest) => (c :: ds, rest) else none
  | [] => none

/-- the whole part of a decimal number, no digit behind a leading zero, and what follows -/
def whole? : List Char → Option (List Char × List Char)
  | '0' :: cs => some (['0'], cs)
  | cs => digits? Char.isDigit cs

/-- an optional sign as it is written, and what follows -/
def sign : List Char → List Char × List Char
  | '+' :: cs => (['+'], cs)
  | '-' :: cs => (['-'], cs)
  | cs => ([], cs)

/-- an exponent as it is written, and what follows; none if its digits are missing -/
def exponent? : List Char → Option (List Char × List Char)
  | c :: cs =>
    if c = 'e' ∨ c = 'E' then do
      let (mark, cs) := sign cs
      let (ds, rest) ← digits? Char.isDigit cs
      return ('e' :: mark ++ ds, rest)
    else some ([], c :: cs)
  | [] => some ([], [])

/-- a fraction as it is written, and what follows; none if its digits are missing -/
def fraction? : List Char → Option (List Char × List Char)
  | '.' :: cs => (digits? Char.isDigit cs).map fun (ds, rest) => ('.' :: ds, rest)
  | cs => some ([], cs)

/-- what follows a whole number in another base, which must fit 63 bits -/
def based? (base : Nat) (isDigit : Char → Bool) (cs : List Char) : Option (List Char) := do
  let (ds, rest) ← digits? isDigit cs
  let n ← ds.foldlM (fun n d => do return base * n + (← Hex.digit? d)) 0
  if n < 2 ^ 63 then some rest else none

/-- What follows a decimal number. A whole number must fit 64 bits; one with a fraction or an exponent must not be too
large, though it may be too small. -/
def decimal? (cs : List Char) : Option (List Char) := do
  let (mark, cs) := sign cs
  let (whole, cs) ← whole? cs
  let (fraction, cs) ← fraction? cs
  let (exponent, rest) ← exponent? cs
  if fraction.isEmpty && exponent.isEmpty then
    (Decimal.int64? (String.ofList (mark ++ whole))).map fun _ => rest
  else
    let x ← Binary64.ofText? (String.ofList (mark ++ whole ++ fraction ++ exponent))
    if x = .infinite false then none else some rest

def number? : List Char → Option (List Char)
  | '0' :: 'x' :: cs => based? 16 (fun c => (Hex.digit? c).isSome) cs
  | '0' :: 'o' :: cs => based? 8 (fun c => '0' ≤ c && c ≤ '7') cs
  | '0' :: 'b' :: cs => based? 2 (fun c => c == '0' || c == '1') cs
  | cs => decimal? cs

/-- what follows a word for an infinity or for no number, with or without a sign -/
def special? (cs : List Char) : Option (List Char) :=
  let cs := (sign cs).2
  match Text.word? "inf".toList cs with
  | some rest => some rest
  | none => Text.word? "nan".toList cs

/-- a number of so many digits within bounds, and what follows it -/
def bounded? (width low high : Nat) (cs : List Char) : Option (Nat × List Char) :=
  let ds := cs.take width
  let n := Decimal.value ds
  if ds.length = width ∧ ds.all Char.isDigit ∧ low ≤ n ∧ n ≤ high then some (n, cs.drop width) else none

/-- what follows a date that exists -/
def date? (cs : List Char) : Option (List Char) := do
  let (year, cs) ← bounded? 4 0 9999 cs
  let cs ← Text.mark? '-' cs
  let (month, cs) ← bounded? 2 1 12 cs
  let cs ← Text.mark? '-' cs
  let (_, cs) ← bounded? 2 1 (daysInMonth year month) cs
  return cs

def time? (cs : List Char) : Option (List Char) := do
  let (_, cs) ← bounded? 2 0 23 cs
  let cs ← Text.mark? ':' cs
  let (_, cs) ← bounded? 2 0 59 cs
  let cs ← Text.mark? ':' cs
  let (_, cs) ← bounded? 2 0 60 cs
  match cs with
  | '.' :: c :: rest => return if c.isDigit then rest.dropWhile Char.isDigit else cs
  | cs => return cs

/-- what follows a time zone, if there is one; a wrong one is none at all -/
def zone (cs : List Char) : List Char :=
  match cs with
  | 'Z' :: rest => rest
  | 'z' :: rest => rest
  | c :: rest =>
    if c = '+' ∨ c = '-' then
      (do
        let (_, rest) ← bounded? 2 0 23 rest
        let rest ← Text.mark? ':' rest
        let (_, rest) ← bounded? 2 0 59 rest
        return rest : Option (List Char)).getD cs
    else cs
  | [] => []

/-- what follows a date, a time, or a date with a time behind it -/
def moment? (cs : List Char) : Option (List Char) :=
  match date? cs with
  | none => time? cs
  | some rest =>
    match rest with
    | c :: after =>
      if c = 'T' ∨ c = 't' ∨ c = ' ' then
        match time? after with
        | some after => some (zone after)
        | none => some rest
      else some rest
    | [] => some []

/-- a value without parts that is no string, and what follows it -/
def bare? (cs : List Char) : Option (Toml × List Char) :=
  match cs.head? with
  | some 't' => (Text.word? "true".toList cs).map fun rest => (.bool true, rest)
  | some 'f' => (Text.word? "false".toList cs).map fun rest => (.bool false, rest)
  | _ =>
    match moment? cs with
    | some rest => some (.moment, rest)
    | none =>
      match special? cs with
      | some rest => some (.number, rest)
      | none => (number? cs).map fun rest => (.number, rest)

end SqlTree.Toml
