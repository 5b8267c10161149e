/-
Documents as JSON text, and statements as the text of their documents.

An element is an object with its name, its attributes and its children, the last two left out where there are none. It
is read from such an object, whose other members do not matter, or from an array of the same three in order. At most 127
objects and arrays may be open at a time.
-/
import SqlTree.Document.Decoding
import SqlTree.Document.Encoding
import SqlTree.Json

namespace SqlTree

open Json

/-- a part that is left out where it is empty -/
def unlessEmpty {α : Type} (parts : List α) (text : String) : List String :=
  if parts.isEmpty then [] else [text]

mutual

/-- the text of an element at a level of nesting -/
def Element.textAt (l : Layout) (level : Nat) : Element → String
  | ⟨name, attrs, children⟩ =>
    l.enclosed level "\x7b"
      ([l.member "name" (quoted name)]
        ++ unlessEmpty attrs (l.member "attrs"
          (l.enclosed (level + 1) "\x7b" (attrs.map fun (k, v) => l.member k (quoted v)) "\x7d"))
        ++ unlessEmpty children (l.member "children"
          (l.enclosed (level + 1) "[" (Element.textsAt l (level + 2) children) "]")))
      "\x7d"

def Element.textsAt (l : Layout) (level : Nat) : List Element → List String
  | [] => []
  | e :: es => e.textAt l level :: Element.textsAt l level es

end

namespace Element

def toJson (e : Element) (l : Layout) : String := e.textAt l 0

/-- the texts of a list of strings, if each has one -/
def text? : Json → Option String
  | .string text => text
  | _ => none

/-- attributes from an object of strings, of which later ones win -/
def attrsOfJson? : Json → Option (Keyed String)
  | .object members => do
    let pairs ← members.mapM fun (key, value) => do return (← key, ← text? value)
    return Keyed.ofList pairs
  | _ => none

def childrenOfJson? (child? : Json → Option Element) : Json → Option (List Element)
  | .array items => items.mapM child?
  | _ => none

/-- The one value of a key, if there is one; two are too many. -/
def member? (key : String) (members : List (String × Json)) : Option (Option Json) :=
  match members.filter (·.1 == key) with
  | [] => some none
  | [(_, v)] => some (some v)
  | _ => none

/-- an element from its three parts, where there is room for the last two -/
def assemble? (child? : Option (Json → Option Element)) (name : Json) (attrs children : Option Json) :
    Option Element := do
  let name ← text? name
  let attrs ← match attrs with
    | none => some []
    | some j => child?.bind fun _ => attrsOfJson? j
  let children ← match children with
    | none => some []
    | some j => child?.bind fun child? => childrenOfJson? child? j
  return ⟨name, attrs, children⟩

def ofParts? (child? : Option (Json → Option Element)) : Json → Option Element
  | .object members => do
    let members ← members.mapM fun (key, value) => do return (← key, value)
    let name ← member? "name" members
    let attrs ← member? "attrs" members
    let children ← member? "children" members
    assemble? child? (← name) attrs children
  | .array [name] => assemble? child? name none none
  | .array [name, attrs] => assemble? child? name (some attrs) none
  | .array [name, attrs, children] => assemble? child? name (some attrs) (some children)
  | _ => none

/-- an element, with room for so many open objects and arrays -/
def ofJson? : Nat → Json → Option Element
  | 0, _ => none
  | 1, j => ofParts? none j
  | room + 2, j => ofParts? (some (ofJson? room)) j

/-- how many objects and arrays may be open at a time -/
def maxOpen : Nat := 127

def read (text : String) : Result Element :=
  match Json.read? text with
  | none => .error .malformedJson
  | some j =>
    match ofJson? maxOpen j with
    | none => .error .malformedJson
    | some e => .ok e

end Element

/-! ## Statements -/

namespace Query

/-- the JSON text of a query's document -/
def toJson (q : Query) (spacious : Bool) : String :=
  q.toDocument.toJson (if spacious then .spacious else .compact)

/-- the query of a JSON text, element names having their standard meaning -/
def ofJson (text : String) : Result Query := do
  Query.ofDocument .standard (← Element.read text)

end Query
end SqlTree
