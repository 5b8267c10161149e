/-
Words and values in documents.

What is written under a word is found under it again: directions, operators, the sorts of clauses and statements, and
the values of every sort.
-/
import Mathlib.Data.List.Induction
import SqlTree.Document
import SqlTree.Proofs.Binary64.Text
import SqlTree.Proofs.Document.Attribute
import SqlTree.Proofs.Text.Calendar
import SqlTree.Hex

namespace SqlTree

/-! ## Words -/

theorem Direction.ofName?_name (d : Direction) : ofName? d.name = some d := by
  cases d <;> rfl

theorem Comparison.ofName?_name (op : Comparison) : ofName? op.name = some op := by
  cases op <;> rfl

theorem Connective.ofName?_name (op : Connective) : ofName? op.name = some op := by
  cases op <;> rfl

theorem Arithmetic.ofName?_name (op : Arithmetic) : ofName? op.name = some op := by
  cases op <;> rfl

theorem Aggregate.ofName?_name (fn : Aggregate) : ofName? fn.name = some fn := by
  cases fn <;> rfl

theorem JoinKind.ofName?_name (kind : JoinKind) : ofName? kind.name = some kind := by
  cases kind <;> rfl

theorem SortOrder.ofName?_name (order : SortOrder) : ofName? order.name = some order := by
  cases order <;> rfl

/-- In the map of pairs with keys of their own each key stands for its partner. The last pair is inserted last, so
this is an induction from the end. -/
theorem Keyed.find?_ofList {α : Type} {pairs : List (String × α)} (distinct : (pairs.map (·.1)).Nodup) {key : String}
    {value : α} (h : (key, value) ∈ pairs) : (ofList pairs).find? key = some value := by
  induction pairs using List.reverseRecOn with
  | nil => cases h
  | append_singleton pairs last ih =>
    obtain ⟨k, v⟩ := last
    have step : ofList (pairs ++ [(k, v)]) = insert k v (ofList pairs) := by
      rw [ofList, List.foldl_append]
      rfl
    rw [List.map_append, List.nodup_append] at distinct
    rw [step]
    rcases List.mem_append.1 h with h | h
    · have other : key ≠ k := distinct.2.2 key (List.mem_map_of_mem h) k List.mem_cons_self
      rw [find?_insert_of_ne other, ih distinct.1 h]
    · obtain ⟨rfl, rfl⟩ := Prod.mk.inj (List.mem_singleton.1 h)
      exact find?_insert_self key value _

theorem Registry.standard_clause (kind : ClauseKind) : standard.clauses.find? kind.name = some kind := by
  have distinct : (ClauseKind.all.map ClauseKind.name).Nodup := by decide
  refine Keyed.find?_ofList ?_ (List.mem_map_of_mem (f := fun k : ClauseKind => (k.name, k)) ?_)
  · rwa [List.map_map]
  · cases kind <;> decide

theorem Registry.standard_statement (kind : StatementKind) : standard.statements.find? kind.name = some kind := by
  have distinct : (StatementKind.all.map StatementKind.name).Nodup := by decide
  refine Keyed.find?_ofList ?_ (List.mem_map_of_mem (f := fun k : StatementKind => (k.name, k)) ?_)
  · rwa [List.map_map]
  · cases kind <;> decide

theorem SectionKind.name_injective {kind kind' : SectionKind} (h : kind.name = kind'.name) : kind = kind' := by
  revert h
  cases kind <;> cases kind' <;> simp [name]

/-! ## Values -/

namespace Value

theorem kind_ne_null {v : Value} (h : v ≠ .null) : v.kind ≠ Value.null.kind := by
  cases v with
  | null => exact absurd rfl h
  | _ =>
    simp only [kind]
    decide

theorem reader?_payload {v : Value} (h : v ≠ .null) :
    ∃ read raw, reader? v.kind = some read ∧ v.payload? = some raw ∧ read raw = some v := by
  cases v with
  | null => exact absurd rfl h
  | bool b => exact ⟨_, _, rfl, rfl, by cases b <;> rfl⟩
  | int n => exact ⟨_, _, rfl, rfl, by rw [Decimal.int64?_ofInt]; rfl⟩
  | float x => exact ⟨_, _, rfl, rfl, by rw [Binary64.ofText?_toText]; rfl⟩
  | string s => exact ⟨_, _, rfl, rfl, rfl⟩
  | date d => exact ⟨_, _, rfl, rfl, by rw [Date.ofText?_toText]; rfl⟩
  | timestamp t => exact ⟨_, _, rfl, rfl, by rw [Timestamp.ofText?_toText]; rfl⟩
  | bytes bs => exact ⟨_, _, rfl, rfl, by rw [Hex.bytes?_ofBytes]; rfl⟩

end Value

@[simp] theorem Element.withValue_name (e : Element) (v : Value) : (e.withValue v).name = e.name := by
  rw [withValue, withAttr?_name, withAttr_name]

@[simp] theorem Element.withValue_children (e : Element) (v : Value) : (e.withValue v).children = e.children := by
  rw [withValue, withAttr?_children, withAttr_children]

@[simp] theorem Element.attr?_withValue (e : Element) (v : Value) (key : String) :
    (e.withValue v).attr? key =
      if key = "value" then v.payload? <|> e.attr? "value" else if key = "kind" then some v.kind else e.attr? key := by
  rw [withValue, attr?_withAttr?, attr?_withAttr]
  split
  · next h =>
    subst h
    rfl
  · rfl

/-- **A value is read back from the attributes that describe it**, whatever else stands in the element. -/
theorem Element.value_eq {e : Element} {v : Value} (hk : e.attr? "kind" = some v.kind)
    (hv : e.attr? "value" = v.payload?) : e.value = .ok v := by
  rw [value, require_eq hk]
  by_cases h : v = .null
  · subst h
    rfl
  · obtain ⟨read, raw, hread, hraw, back⟩ := Value.reader?_payload h
    show (if v.kind = Value.null.kind then _ else _) = _
    rw [if_neg (Value.kind_ne_null h), require_eq (hv.trans hraw), hread]
    show e.meaning "value" raw read = _
    rw [meaning, back]

/-- **Every value survives its text**: whatever stood in an element before, the value that is written into it is read
from it, days of every year and leap seconds included. -/
theorem Element.value_withValue (e : Element) (v : Value) : (e.withValue v).value = .ok v := by
  have kind : (e.withValue v).attr? "kind" = some v.kind := by simp
  by_cases h : v = .null
  · -- Null has no text of its own: an old one may still stand there, and is not looked at.
    subst h
    rw [value, require_eq kind]
    rfl
  · obtain ⟨-, raw, -, text, -⟩ := Value.reader?_payload h
    have written : (e.withValue v).attr? "value" = v.payload? := by simp [text]
    exact value_eq kind written

/-- The end of the last leap second of the first day. -/
example : Value.payload? (.timestamp ⟨⟨-262143, 1, 1, by decide⟩, ⟨23, 59, 59, 1999999999, by decide⟩⟩)
    = some "-262143-01-01T23:59:60.999999999" := by
  decide +kernel

end SqlTree
