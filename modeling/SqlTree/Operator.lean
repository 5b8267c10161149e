/-
Operators, aggregates, joins and sort directions: their words in documents and their spelling in statements.
-/

namespace SqlTree

inductive Comparison where
  | eq | ne | gt | gte | lt | lte | like | notLike
  deriving DecidableEq, Repr

namespace Comparison

def all : List Comparison := [eq, ne, gt, gte, lt, lte, like, notLike]

def name : Comparison → String
  | .eq => "eq" | .ne => "ne" | .gt => "gt" | .gte => "gte" | .lt => "lt" | .lte => "lte"
  | .like => "like" | .notLike => "not-like"

def sql : Comparison → String
  | .eq => "=" | .ne => "<>" | .gt => ">" | .gte => ">=" | .lt => "<" | .lte => "<="
  | .like => "LIKE" | .notLike => "NOT LIKE"

def ofName? (word : String) : Option Comparison := all.find? (·.name == word)

end Comparison

/-- joining of two predicates -/
inductive Connective where
  | and | or
  deriving DecidableEq, Repr

namespace Connective

def name : Connective → String
  | .and => "and" | .or => "or"

def sql : Connective → String
  | .and => "AND" | .or => "OR"

def ofName? (word : String) : Option Connective := [and, or].find? (·.name == word)

end Connective

/-- arithmetic on two values -/
inductive Arithmetic where
  | add | sub | mul | div | mod
  deriving DecidableEq, Repr

namespace Arithmetic

def all : List Arithmetic := [add, sub, mul, div, mod]

def name : Arithmetic → String
  | .add => "add" | .sub => "sub" | .mul => "mul" | .div => "div" | .mod => "mod"

def sql : Arithmetic → String
  | .add => "+" | .sub => "-" | .mul => "*" | .div => "/" | .mod => "%"

/-- how tightly an operator binds -/
def precedence : Arithmetic → Nat
  | .add | .sub => 1
  | .mul | .div | .mod => 2

def ofName? (word : String) : Option Arithmetic := all.find? (·.name == word)

end Arithmetic

/-- a function that takes the rows of a group together -/
inductive Aggregate where
  | count | sum | avg | min | max
  deriving DecidableEq, Repr

namespace Aggregate

def all : List Aggregate := [count, sum, avg, min, max]

def name : Aggregate → String
  | .count => "count" | .sum => "sum" | .avg => "avg" | .min => "min" | .max => "max"

def sql : Aggregate → String
  | .count => "COUNT" | .sum => "SUM" | .avg => "AVG" | .min => "MIN" | .max => "MAX"

def ofName? (word : String) : Option Aggregate := all.find? (·.name == word)

end Aggregate

inductive JoinKind where
  | inner | left | right | full
  deriving DecidableEq, Repr

namespace JoinKind

def all : List JoinKind := [inner, left, right, full]

def name : JoinKind → String
  | .inner => "inner" | .left => "left" | .right => "right" | .full => "full"

def sql : JoinKind → String
  | .inner => "INNER JOIN" | .left => "LEFT JOIN" | .right => "RIGHT JOIN" | .full => "FULL JOIN"

def ofName? (word : String) : Option JoinKind := all.find? (·.name == word)

end JoinKind

inductive SortOrder where
  | ascending | descending
  deriving DecidableEq, Repr

namespace SortOrder

def name : SortOrder → String
  | .ascending => "asc" | .descending => "desc"

def ofName? (word : String) : Option SortOrder := [ascending, descending].find? (·.name == word)

end SortOrder
end SqlTree
