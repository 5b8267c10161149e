/-
Dialects as data.

A dialect says how identifiers are quoted, how parameters appear, which constructs it can express and how it spells
those that differ from dialect to dialect. The hooks around a select may set its text aside and put it back inside other
text. Two dialects of one name are the same dialect.
-/
import SqlTree.Statement

namespace SqlTree

/-- how parameters appear in the text of a statement -/
inductive ParamStyle where
  /-- a question mark for each -/
  | positional
  /-- a mark and the number of the parameter, in the order of first use -/
  | numbered (mark : Char)
  /-- a mark and a name; `keepMark` says whether the mark belongs to the name that is bound, too -/
  | named (mark : Char) (keepMark : Bool)
  deriving DecidableEq, Repr

/-- which constructs a dialect can express, data types apart -/
structure Capabilities where
  rowLimitCount : Bool
  rowLimitRange : Bool
  scripts : Bool
  existenceCheck : Bool
  sequences : Bool
  booleanExpressions : Bool
  deriving DecidableEq, Repr

/-- how the name of a sequence becomes a call -/
inductive SequenceSpelling where
  /-- words and the quoted name -/
  | phrase (words : String)
  /-- a function of the name as a string literal -/
  | literal (fn : String)
  /-- a member of the quoted name -/
  | member (fn : String)
  deriving DecidableEq, Repr

/-- how the last generated key is asked for -/
inductive LastIdSpelling where
  /-- in one way, whatever the sequence -/
  | constant (text : String)
  /-- by its sequence; without one in the given way, if there is one -/
  | ofSequence (without : Option String) (spelling : SequenceSpelling)
  deriving DecidableEq, Repr

structure BuiltinSpelling where
  currentDate : String
  currentTimestamp : String
  lastId : LastIdSpelling
  nextId : SequenceSpelling
  deriving DecidableEq, Repr

/-- the marks around and between the parts of a concatenation -/
structure ConcatSpelling where
  before : String
  between : String
  after : String
  deriving DecidableEq, Repr

/-- what a hook does to the text being written -/
inductive HookAction where
  | write (text : String)
  /-- sets the text before the select aside -/
  | beginStaging
  /-- puts it back, and behind it what is made of the text of the select -/
  | endStaging (wrap : String → String)
  /-- tries to set the text before the select aside, and goes on whether or not it could -/
  | tryBegin (next : Bool → HookAction)
  /-- tries to put it back, and goes on with the text of the select, or with none if it could not -/
  | tryEnd (next : Option String → HookAction)
  /-- one action behind another -/
  | both (first second : HookAction)

/-- what is done around a select: before any of its text, behind the word SELECT, behind its last section, at its end -/
structure SelectHooks where
  opening : Select → List HookAction
  heading : Select → List HookAction
  trailing : Select → List HookAction
  closing : Select → List HookAction

/-- how the statements of a script are put together -/
inductive ScriptStyle where
  /-- one after another, each closed by a semicolon -/
  | sequence
  /-- in a block, with cursors for the statements that give rows -/
  | block
  deriving DecidableEq, Repr

inductive CallStyle where
  /-- `CALL`, or a select when the result is wanted -/
  | call
  /-- `EXEC` with unparenthesized arguments -/
  | exec
  /-- a call in a block -/
  | block
  deriving DecidableEq, Repr

/-- a dialect of the language of statements -/
structure Dialect where
  name : String
  openQuote : Char
  closeQuote : Char
  params : ParamStyle
  caps : Capabilities
  /-- whether `AS` introduces the alias of a table -/
  tableAliasAs : Bool
  /-- the table that a select without tables reads -/
  dual : Option String
  /-- the spelling of a data type, if the dialect has the type -/
  typeName : DataType → Option String
  builtins : BuiltinSpelling
  concat : ConcatSpelling
  hooks : SelectHooks
  scripts : ScriptStyle
  calls : CallStyle

instance : BEq Dialect := ⟨fun d e => d.name == e.name⟩

/-- a row limit as messages speak of it -/
def RowLimit.describe : RowLimit → String
  | .first n => "Count(" ++ Decimal.ofUInt64 n ++ ")"
  | .range offset count =>
    "Range \x7b offset: " ++ Decimal.ofUInt64 offset ++ ", count: " ++ Decimal.ofUInt64 count ++ " \x7d"

/-- what a dialect must be able to express for a row limit -/
def RowLimit.capability : RowLimit → Capability
  | .first _ => .rowLimitCount
  | .range _ _ => .rowLimitRange

namespace Dialect

def supports (d : Dialect) : Capability → Bool
  | .rowLimitCount => d.caps.rowLimitCount
  | .rowLimitRange => d.caps.rowLimitRange
  | .scripts => d.caps.scripts
  | .existenceCheck => d.caps.existenceCheck
  | .sequences => d.caps.sequences
  | .booleanExpressions => d.caps.booleanExpressions
  | .dataType t => (d.typeName t).isSome

/-- a construct is needed, and an error if the dialect lacks it -/
def require (d : Dialect) (needed : Capability) (context : String) : Result Unit :=
  if d.supports needed then .ok () else .error (.capability d.name needed context)

def nativeType (d : Dialect) (t : DataType) : Result String :=
  match d.typeName t with
  | some text => .ok text
  | none => .error (.capability d.name (.dataType t) "column type")

/-- the characters of an identifier between its quotes, the closing one doubled -/
def quotedChars (close : Char) (name : List Char) : List Char :=
  name.flatMap fun c => if c = close then [c, c] else [c]

def quote (d : Dialect) (name : String) : String :=
  String.ofList (d.openQuote :: quotedChars d.closeQuote name.toList ++ [d.closeQuote])

/-- a string literal, single quotes doubled -/
def literal (text : String) : String :=
  String.ofList ('\'' :: quotedChars '\'' text.toList ++ ['\''])

/-- a name without one leading mark -/
def dropMark (mark : Char) (name : String) : String :=
  match name.toList with
  | c :: cs => if c = mark then String.ofList cs else name
  | [] => name

/-- a name behind a mark, unless one is there already -/
def withMark (mark : Char) (name : String) : String :=
  if name.toList.head? = some mark then name else String.ofList [mark] ++ name

/-- the name that tells parameters apart: with or without the mark of the dialect it is the same -/
def canonicalName (d : Dialect) (name : String) : String :=
  match d.params with
  | .named mark _ => dropMark mark name
  | _ => name

def boundName (d : Dialect) (name : String) : String :=
  match d.params with
  | .named mark true => withMark mark name
  | .named mark false => String.ofList (name.toList.dropWhile (· = mark))
  | _ => name

/-- how the parameter at an index, bound under a name, appears in the text -/
def placeholder (d : Dialect) (index : Nat) (name : String) : String :=
  match d.params with
  | .positional => "?"
  | .numbered mark => String.ofList [mark] ++ Decimal.ofNat (index + 1)
  | .named mark _ => withMark mark name

def sequenceCall (d : Dialect) (sequence : String) : SequenceSpelling → String
  | .phrase words => words ++ " " ++ d.quote sequence
  | .literal fn => fn ++ "(" ++ literal sequence ++ ")"
  | .member fn => d.quote sequence ++ "." ++ fn

def builtinCall (d : Dialect) : Builtin → Result String
  | .currentDate => .ok d.builtins.currentDate
  | .currentTimestamp => .ok d.builtins.currentTimestamp
  | .lastId sequence =>
    match d.builtins.lastId, sequence with
    | .constant text, _ => .ok text
    | .ofSequence _ spelling, some name => .ok (d.sequenceCall name spelling)
    | .ofSequence (some text) _, none => .ok text
    | .ofSequence none _, none => .error (.render d.name .sequenceNeeded)
  | .nextId sequence => do
    d.require .sequences "next-id"
    return d.sequenceCall sequence d.builtins.nextId

end Dialect
end SqlTree
