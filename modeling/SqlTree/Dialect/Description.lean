/-
Descriptions of dialects and registries for people who look into a program.
-/
import SqlTree.Dialect
import SqlTree.Document
import SqlTree.Text.Quoted
import SqlTree.Value

namespace SqlTree

def recordText (name : String) (fields : List (String × String)) (ending : String) : String :=
  name ++ " \x7b " ++ String.intercalate ", " (fields.map fun (k, v) => k ++ ": " ++ v) ++ ending ++ " \x7d"

def listText (items : List String) : String := "[" ++ String.intercalate ", " items ++ "]"

def ParamStyle.describe : ParamStyle → String
  | .positional => "Positional"
  | .numbered mark => "Numbered(" ++ Text.quoteChar mark ++ ")"
  | .named mark keepMark =>
    recordText "Named" [("prefix", Text.quoteChar mark), ("keep_prefix", Value.boolText keepMark)] ""

def Capabilities.describe (c : Capabilities) : String :=
  recordText "Capabilities"
    [("row_limit_count", Value.boolText c.rowLimitCount), ("row_limit_range", Value.boolText c.rowLimitRange),
      ("scripts", Value.boolText c.scripts), ("existence_check", Value.boolText c.existenceCheck),
      ("sequences", Value.boolText c.sequences), ("boolean_expressions", Value.boolText c.booleanExpressions)] ""

/-- the description of a dialect, its spellings left out -/
def Dialect.describe (d : Dialect) : String :=
  recordText "Profile"
    [("name", Text.quoteString d.name),
      ("quote", "(" ++ Text.quoteChar d.openQuote ++ ", " ++ Text.quoteChar d.closeQuote ++ ")"),
      ("params", d.params.describe), ("caps", d.caps.describe)] ", .."

/-- the description of a registry: the names that mean something -/
def Registry.describe (r : Registry) : String :=
  recordText "Registry"
    [("clauses", listText (r.clauses.keys.map Text.quoteString)),
      ("queries", listText (r.statements.keys.map Text.quoteString))] ""

end SqlTree
