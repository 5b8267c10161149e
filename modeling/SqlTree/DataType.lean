/-
Declared types of columns, casts and parameters, independent of any dialect, and the constructs that a dialect may or
may not be able to express; each type is one of these.

A type has a tag such as `varchar(255)` or `decimal(10,2)`, its form in documents and messages.
-/
import SqlTree.Decimal

namespace SqlTree

/-- a declared type -/
inductive DataType where
  | bool
  | smallInt
  | int
  | bigInt
  | real
  | double
  | decimal (precision scale : UInt8)
  | char (size : UInt32)
  | varChar (size : UInt32)
  /-- characters without a bound on their number -/
  | text
  | binary (size : UInt32)
  | varBinary (size : UInt32)
  /-- bytes without a bound on their number -/
  | blob
  | date
  | time
  | timestamp
  | guid
  deriving DecidableEq, Repr

def DataType.sized (word : String) (size : UInt32) : String :=
  word ++ "(" ++ Decimal.ofNat size.toNat ++ ")"

def DataType.tag : DataType → String
  | .bool => "bool"
  | .smallInt => "smallint"
  | .int => "int"
  | .bigInt => "bigint"
  | .real => "real"
  | .double => "double"
  | .decimal p s => "decimal(" ++ Decimal.ofNat p.toNat ++ "," ++ Decimal.ofNat s.toNat ++ ")"
  | .char n => sized "char" n
  | .varChar n => sized "varchar" n
  | .text => "text"
  | .binary n => sized "binary" n
  | .varBinary n => sized "varbinary" n
  | .blob => "blob"
  | .date => "date"
  | .time => "time"
  | .timestamp => "timestamp"
  | .guid => "guid"

/-! ## Constructs -/

/-- a construct a dialect may lack -/
inductive Capability where
  /-- the first rows of a query -/
  | rowLimitCount
  /-- rows of a query after skipping some -/
  | rowLimitRange
  /-- several statements at once -/
  | scripts
  /-- creating or dropping a table depending on whether it exists -/
  | existenceCheck
  | sequences
  /-- predicates as values -/
  | booleanExpressions
  | dataType (type : DataType)
  deriving DecidableEq, Repr

namespace Capability

/-- the constructs that are not data types -/
def flags : List Capability :=
  [rowLimitCount, rowLimitRange, scripts, existenceCheck, sequences, booleanExpressions]

/-- the word in front of the tag of a data type -/
def typeMark : String := "type:"

def name : Capability → String
  | .rowLimitCount => "row-limit-count"
  | .rowLimitRange => "row-limit-range"
  | .scripts => "scripts"
  | .existenceCheck => "existence-check"
  | .sequences => "sequences"
  | .booleanExpressions => "boolean-expressions"
  | .dataType t => typeMark ++ t.tag

end Capability
end SqlTree
