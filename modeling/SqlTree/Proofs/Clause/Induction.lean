/-
Induction over clauses and selects together.

A clause may hold lists of clauses, a clause that may be absent, and whole selects. `Clause.induction` takes the two
types at once and speaks of the members of a list or of an option, not of the list or the option itself.
`Clause.operands` are the clauses right below a clause, in reading order, and `Clause.query?` is the select right
below it; a clause has the one or the other.

- `Clause.operandInduction`: what holds of a clause if it holds of what is right below it, holds of every clause.
-/
import SqlTree.Clause

namespace SqlTree

/-- what holds of every clause and of every select, if each constructor hands it on from its parts -/
theorem Clause.induction {P : Clause → Prop} {Q : Select → Prop}
    (field : ∀ of name, P (.field of name))
    (allFields : ∀ of, P (.allFields of))
    (constant : ∀ v, P (.constant v))
    (param : ∀ p, P (.param p))
    (compare : ∀ l op r, P l → P r → P (.compare l op r))
    (isNull : ∀ c negated, P c → P (.isNull c negated))
    (inList : ∀ c cs negated, P c → (∀ x ∈ cs, P x) → P (.inList c cs negated))
    (between : ∀ c l h, P c → P l → P h → P (.between c l h))
    (anyRow : ∀ s, Q s → P (.anyRow s))
    (logic : ∀ l op r, P l → P r → P (.logic l op r))
    (not : ∀ c, P c → P (.not c))
    (aggregate : ∀ fn arg distinct, (∀ x ∈ arg, P x) → P (.aggregate fn arg distinct))
    (function : ∀ name cs, (∀ x ∈ cs, P x) → P (.function name cs))
    (builtin : ∀ fn, P (.builtin fn))
    (concat : ∀ cs, (∀ x ∈ cs, P x) → P (.concat cs))
    (cast : ∀ c type, P c → P (.cast c type))
    (arith : ∀ l op r, P l → P r → P (.calc l op r))
    (aliased : ∀ c name, P c → P (.aliased c name))
    (table : ∀ ref, P (.table ref))
    (join : ∀ kind t c, P t → P c → P (.join kind t c))
    (order : ∀ c direction, P c → P (.order c direction))
    (assign : ∀ t v, P t → P v → P (.assign t v))
    (subQuery : ∀ s, Q s → P (.subQuery s))
    (select : ∀ distinct limit fields sources filter groupBy having orderBy,
      (∀ x ∈ fields, P x) → (∀ x ∈ sources, P x) → (∀ x ∈ filter, P x) → (∀ x ∈ groupBy, P x) →
        (∀ x ∈ having, P x) → (∀ x ∈ orderBy, P x) →
          Q (.mk distinct limit fields sources filter groupBy having orderBy)) :
    (∀ c, P c) ∧ ∀ s, Q s := by
  have nil : ∀ x ∈ ([] : List Clause), P x := by simp
  have cons : ∀ c cs, P c → (∀ x ∈ cs, P x) → ∀ x ∈ c :: cs, P x := fun c cs hc hcs x hx => by
    rcases List.mem_cons.1 hx with rfl | hx
    · exact hc
    · exact hcs x hx
  have absent : ∀ x ∈ (none : Option Clause), P x := by simp
  have present : ∀ c, P c → ∀ x ∈ some c, P x := fun c hc x hx => by
    obtain rfl := Option.mem_some_iff.1 hx
    exact hc
  constructor
  · exact @Clause.rec P Q (fun cs => ∀ x ∈ cs, P x) (fun o => ∀ x ∈ o, P x) field allFields constant param compare
      isNull inList between anyRow logic not aggregate function builtin concat cast arith aliased table join order
      assign subQuery select nil cons absent present
  · exact @Select.rec P Q (fun cs => ∀ x ∈ cs, P x) (fun o => ∀ x ∈ o, P x) field allFields constant param compare
      isNull inList between anyRow logic not aggregate function builtin concat cast arith aliased table join order
      assign subQuery select nil cons absent present

/-! ## What is right below a clause -/

namespace Clause

/-- the clauses right below a clause -/
def operands : Clause → List Clause
  | .field .. | .allFields .. | .constant .. | .param .. | .builtin .. | .table .. | .anyRow .. | .subQuery .. => []
  | .compare left _ right | .logic left _ right | .calc left _ right => [left, right]
  | .join _ target condition => [target, condition]
  | .assign target value => [target, value]
  | .inList subject items _ => subject :: items
  | .between subject low high => [subject, low, high]
  | .function _ args => args
  | .concat parts => parts
  | .aggregate _ arg _ => arg.toList
  | .isNull subject _ | .not subject | .cast subject _ | .aliased subject _ | .order subject _ => [subject]

def query? : Clause → Option Select
  | .anyRow query | .subQuery query => some query
  | _ => none

end Clause

/-- the clauses of a select, section by section -/
def Select.clauses : Select → List Clause
  | .mk _ _ fields sources filter groupBy having orderBy =>
    fields ++ sources ++ filter.toList ++ groupBy ++ having.toList ++ orderBy

/-- What a clause inherits from what is right below it, and a select from its clauses, holds of all of them. -/
theorem Clause.operandInduction {P : Clause → Prop} {Q : Select → Prop}
    (clause : ∀ c : Clause, (∀ x ∈ c.operands, P x) → (∀ s ∈ c.query?, Q s) → P c)
    (select : ∀ s : Select, (∀ c ∈ s.clauses, P c) → Q s) : (∀ c, P c) ∧ ∀ s, Q s := by
  have leaf : ∀ c : Clause, c.operands = [] → c.query? = none → P c := fun c ho hq =>
    clause c (by simp [ho]) (by simp [hq])
  have inner : ∀ c : Clause, c.query? = none → (∀ x ∈ c.operands, P x) → P c := fun c hq ho =>
    clause c ho (by simp [hq])
  refine Clause.induction ?field ?allFields ?constant ?param ?compare ?isNull ?inList ?between ?anyRow ?logic ?not
    ?aggregate ?function ?builtin ?concat ?cast ?arith ?aliased ?table ?join ?order ?assign ?subQuery ?select
  case field | allFields => intros; exact leaf _ rfl rfl
  case constant | param | builtin | table => intros; exact leaf _ rfl rfl
  case compare | logic | arith =>
    intro l op r hl hr
    exact inner _ rfl (by simp [operands, hl, hr])
  case isNull | cast | aliased | order =>
    intro c _ h
    exact inner _ rfl (by simp [operands, h])
  case not =>
    intro c h
    exact inner _ rfl (by simp [operands, h])
  case inList =>
    intro c cs _ h hcs
    exact inner _ rfl (List.forall_mem_cons.2 ⟨h, hcs⟩)
  case between =>
    intro c l h hc hl hh
    exact inner _ rfl (by simp [operands, hc, hl, hh])
  case aggregate =>
    intro fn arg distinct h
    exact inner _ rfl (by simpa [operands] using h)
  case function =>
    intro name cs hcs
    exact inner _ rfl hcs
  case concat =>
    intro cs hcs
    exact inner _ rfl hcs
  case join =>
    intro kind t c ht hc
    exact inner _ rfl (by simp [operands, ht, hc])
  case assign =>
    intro t v ht hv
    exact inner _ rfl (by simp [operands, ht, hv])
  case anyRow | subQuery =>
    intro s h
    exact clause _ (by simp [operands]) (by simpa [query?] using h)
  case select =>
    intro distinct limit fields sources filter groupBy having orderBy hF hS hW hG hH hO
    refine select _ fun c hc => ?_
    simp only [Select.clauses, List.mem_append, Option.mem_toList] at hc
    rcases hc with ((((hc | hc) | hc) | hc) | hc) | hc
    · exact hF c hc
    · exact hS c hc
    · exact hW c hc
    · exact hG c hc
    · exact hH c hc
    · exact hO c hc

end SqlTree
