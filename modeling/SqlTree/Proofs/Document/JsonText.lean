/-
Documents as JSON text, read back.

Every element is an object, its attributes are another one inside it, and its children an array. A reader has room for
so many objects and arrays inside each other; `Element.openDepth` says how many an element needs.

- `Element.writes_textAt`: the text of an element is read as its JSON value, however it is set.
- `Element.ofJson?_asJson`: that value is read as the element if there is room for it, and refused if not.
- `Query.ofJson_toJson`: so the JSON text of a query is as good as its document, up to the limit.
-/
import SqlTree.Document.Text
import SqlTree.Proofs.Document.Ordered
import SqlTree.Proofs.Document.Outcome
import SqlTree.Proofs.Json.Written

namespace SqlTree

open Json

/-! ## Layouts -/

namespace Json.Layout

/-- a layout that puts nothing but blanks between the marks and the parts of a value -/
structure Blank (l : Layout) : Prop where
  gap : ∀ level, Gap (l.gap level).toList
  colon : ∃ g, l.colon.toList = ':' :: g ∧ Gap g

theorem compact_blank : compact.Blank := ⟨fun _ => by simp [compact, Gap], [], rfl, by simp [Gap]⟩

theorem spacious_blank : spacious.Blank := by
  refine ⟨fun level c hc => ?_, [' '], rfl, by simp [Gap, isGap]⟩
  simp only [spacious, String.toList_append, String.toList_ofList, List.mem_append, List.mem_replicate] at hc
  rcases hc with hc | ⟨-, rfl⟩
  · obtain rfl : c = '\n' := List.mem_singleton.1 hc
    rfl
  · rfl

variable {l : Layout}

theorem enclosed_toList (level : Nat) (left : String) (parts : List String) (right : String) :
    (l.enclosed level left parts right).toList = left.toList ++ ((l.gap (level + 1)).toList
      ++ List.intercalate (',' :: (l.gap (level + 1)).toList) (parts.map String.toList) ++ (l.gap level).toList
      ++ right.toList) := by
  simp [enclosed, String.toList_append, String.toList_intercalate]

theorem Blank.member (h : l.Blank) {value : String} {j : Json} (hv : Writes value.toList j) (key : String) :
    WritesMember (l.member key value).toList (some key, j) := by
  obtain ⟨g, hg, blank⟩ := h.colon
  have text : (l.member key value).toList = (quoted key).toList ++ ':' :: (g ++ value.toList) := by
    simp [Layout.member, String.toList_append, hg]
  exact text ▸ WritesMember.of_value hv blank key

theorem Blank.object (h : l.Blank) (level : Nat) {parts : List String} {ms : List (Option String × Json)}
    (hm : List.Forall₂ (fun part m => WritesMember part.toList m) parts ms) (filled : parts ≠ []) :
    Writes (l.enclosed level "\x7b" parts "\x7d").toList (.object ms) := by
  rw [enclosed_toList]
  exact Writes.object (h.gap _) (h.gap _) (List.forall₂_map_left_iff.2 hm) (by simpa using filled)

theorem Blank.array (h : l.Blank) (level : Nat) {parts : List String} {js : List Json}
    (hj : List.Forall₂ (fun part j => Writes part.toList j) parts js) (filled : parts ≠ []) :
    Writes (l.enclosed level "[" parts "]").toList (.array js) := by
  rw [enclosed_toList]
  exact Writes.array (h.gap _) (h.gap _) (List.forall₂_map_left_iff.2 hj) (by simpa using filled)

end Json.Layout

/-! ## Elements as JSON values -/

namespace Element

def attrsAsJson (attrs : Keyed String) : Option Json :=
  if attrs.isEmpty then none else some (.object (attrs.map fun m => (some m.1, .string (some m.2))))

/-- the members of an object under their keys, those that there are -/
def membersOf (name : String) (attrs children : Option Json) : List (Option String × Json) :=
  (some "name", .string (some name)) :: (attrs.toList.map ((some "attrs", ·))
      ++ children.toList.map ((some "children", ·)))

mutual

/-- the JSON value of an element -/
def asJson : Element → Json
  | ⟨name, attrs, children⟩ =>
    .object (membersOf name (attrsAsJson attrs) (if children.isEmpty then none else some (.array (asJsons children))))

def asJsons : List Element → List Json
  | [] => []
  | e :: es => asJson e :: asJsons es

end

theorem asJsons_eq (es : List Element) : asJsons es = es.map asJson := by
  induction es with
  | nil => rw [asJsons, List.map_nil]
  | cons e es ih => rw [asJsons, ih, List.map_cons]

theorem textsAt_eq (l : Layout) (level : Nat) (es : List Element) : textsAt l level es = es.map (textAt l level) := by
  induction es with
  | nil => rw [textsAt, List.map_nil]
  | cons e es ih => rw [textsAt, ih, List.map_cons]

/-- **The text of an element is read as its JSON value**, by induction on the element. -/
theorem writes_textAt {l : Layout} (blank : l.Blank) (e : Element) :
    ∀ level, Writes (e.textAt l level).toList e.asJson := by
  induction e using Element.induction with
  | node name attrs children ih =>
    intro level
    rw [textAt, asJson, membersOf, List.append_assoc, List.singleton_append]
    refine blank.object level (.cons (blank.member (.string name) "name") (List.rel_append ?_ ?_)) (by simp)
    · rw [attrsAsJson, unlessEmpty]
      cases attrs with
      | nil => exact .nil
      | cons first rest =>
        refine .cons (blank.member (blank.object (level + 1) ?_ (by simp)) "attrs") .nil
        rw [List.forall₂_map_left_iff, List.forall₂_map_right_iff, List.forall₂_same]
        exact fun pair _ => blank.member (.string pair.2) pair.1
    · rw [unlessEmpty, textsAt_eq, asJsons_eq]
      cases children with
      | nil => exact .nil
      | cons first rest =>
        refine .cons (blank.member (blank.array (level + 1) ?_ (by simp)) "children") .nil
        rw [List.forall₂_map_left_iff, List.forall₂_map_right_iff, List.forall₂_same]
        exact fun child hc => ih child hc (level + 2)

/-! ## Room -/

mutual

/-- how many objects and arrays are open inside each other at most while an element is read -/
def openDepth : Element → Nat
  | ⟨_, attrs, children⟩ => 1 + max (if attrs.isEmpty then 0 else 1) (openDepths children)

def openDepths : List Element → Nat
  | [] => 0
  | e :: es => max (1 + openDepth e) (openDepths es)

end

theorem openDepths_le_iff {es : List Element} {room : Nat} :
    openDepths es ≤ room + 1 ↔ ∀ e ∈ es, e.openDepth ≤ room := by
  induction es with
  | nil => simp [openDepths]
  | cons e es ih =>
    rw [openDepths, List.forall_mem_cons, ← ih]
    omega

theorem openDepths_eq_zero_iff {es : List Element} : openDepths es = 0 ↔ es = [] := by
  cases es with
  | nil => simp [openDepths]
  | cons e es =>
    simp only [openDepths, reduceCtorEq, iff_false]
    omega

/-- An object with the members of an element is read from its parts. -/
theorem ofParts?_membersOf (child? : Option (Json → Option Element)) (name : String) (attrs children : Option Json) :
    ofParts? child? (.object (membersOf name attrs children))
        = assemble? child? (.string (some name)) attrs children := by
  cases attrs <;> cases children <;> simp [ofParts?, membersOf, member?]

/-- the attribute that a member of an object is -/
def attrOfMember? (m : Option String × Json) : Option (String × String) :=
  m.1.bind fun key => (text? m.2).bind fun value => some (key, value)

theorem attrsOfJson?_attrs {attrs : Keyed String} (h : attrs.Ordered) :
    attrsOfJson? (.object (attrs.map fun m => (some m.1, .string (some m.2)))) = some attrs := by
  have eq : ∀ ms, attrsOfJson? (.object ms) = (ms.mapM attrOfMember?).bind fun m => some (Keyed.ofList m) :=
    fun ms => rfl
  have pairs : ∀ ms : List (String × String),
      (ms.map fun m => (some m.1, Json.string (some m.2))).mapM attrOfMember? = some ms := by
    intro ms
    induction ms with
    | nil => rfl
    | cons m ms ih =>
      rw [List.map_cons, List.mapM_cons, ih]
      rfl
  rw [eq, pairs, Option.bind_some, Keyed.ofList_of_ordered h]

/-- Without room for anything inside it an element is read only if there is nothing. -/
theorem assemble?_none (name : String) (attrs : Keyed String) (children : List Element) (j : Json) :
    assemble? none (.string (some name)) (attrsAsJson attrs) (if children.isEmpty then none else some j)
      = if attrs.isEmpty && children.isEmpty then some ⟨name, attrs, children⟩ else none := by
  cases attrs <;> cases children <;> rfl

theorem assemble?_some {child? : Json → Option Element} {attrs : Keyed String} (h : attrs.Ordered) (name : String)
    (children : Option Json) :
    assemble? (some child?) (.string (some name)) (attrsAsJson attrs) children
      = ((children.map (childrenOfJson? child?)).getD (some [])).map fun cs => ⟨name, attrs, cs⟩ := by
  have rest : ∀ r : Option (List Element),
      (r.bind fun cs => some (Element.mk name attrs cs)) = r.map fun cs => Element.mk name attrs cs := fun r => by
    cases r <;> rfl
  cases attrs with
  | nil =>
    cases children with
    | none => rfl
    | some j => exact rest _
  | cons first others =>
    have given : ∀ f : Keyed String → Option Element,
        ((some child?).bind fun _ =>
          attrsOfJson? (.object ((first :: others).map fun m => (some m.1, .string (some m.2))))).bind f
            = f (first :: others) := fun f => by
      rw [Option.bind_some, attrsOfJson?_attrs h, Option.bind_some]
    refine (given _).trans ?_
    cases children with
    | none => rfl
    | some j => exact rest _

theorem mapM_asJsons {es : List Element} {room : Nat}
    (h : ∀ e ∈ es, ofJson? room e.asJson = if e.openDepth ≤ room then some e else none) :
    (asJsons es).mapM (ofJson? room) = if openDepths es ≤ room + 1 then some es else none := by
  simp only [openDepths_le_iff]
  induction es with
  | nil => rfl
  | cons e es ih =>
    rw [List.forall_mem_cons] at h
    rw [asJsons, List.mapM_cons, h.1, ih h.2]
    simp only [List.forall_mem_cons]
    by_cases he : e.openDepth ≤ room
    · by_cases hes : ∀ x ∈ es, x.openDepth ≤ room
      · simp only [if_pos he, if_pos hes, if_pos (And.intro he hes)]
        rfl
      · simp only [if_pos he, if_neg hes, if_neg fun h : _ ∧ _ => hes h.2]
        rfl
    · simp only [if_neg he, if_neg fun h : _ ∧ _ => he h.1]
      rfl

/-- **The JSON value of an element is read as the element if there is room for it**, and refused if there is not. The
reader counts two levels for an element with something in it, so the cases are those of its recursion. -/
theorem ofJson?_asJson {e : Element} (h : e.Ordered) :
    ∀ room, ofJson? room e.asJson = if e.openDepth ≤ room then some e else none := by
  induction e using Element.induction with
  | node name attrs children ih =>
    obtain ⟨ordered, inner⟩ := h
    intro room
    rw [asJson, openDepth]
    rcases room with _ | _ | room
    · rw [ofJson?, if_neg (by omega)]
    · rw [ofJson?, ofParts?_membersOf, assemble?_none]
      refine if_congr ?_ rfl rfl
      rw [Bool.and_eq_true, List.isEmpty_iff (l := children), ← openDepths_eq_zero_iff]
      cases attrs.isEmpty with
      | false =>
        simp only [Bool.false_eq_true, if_false, false_and, false_iff]
        omega
      | true =>
        simp only [if_true, true_and]
        omega
    · have fits : 1 + max (if attrs.isEmpty then 0 else 1) (openDepths children) ≤ room + 2
          ↔ openDepths children ≤ room + 1 := by
        split <;> omega
      have read := mapM_asJsons fun x hx => ih x hx (inner x hx) room
      rw [ofJson?, ofParts?_membersOf, assemble?_some ordered]
      simp only [fits]
      cases children with
      | nil => rfl
      | cons first others =>
        show ((asJsons (first :: others)).mapM (ofJson? room)).map _ = _
        rw [read]
        split <;> rfl

/-- **Reading the text of an element** gives the element again, however the text is set, unless too much is open at a
time: then the text is refused. -/
theorem read_toJson {e : Element} (h : e.Ordered) {l : Layout} (blank : l.Blank) :
    read (e.toJson l) = if e.openDepth ≤ maxOpen then .ok e else .error .malformedJson := by
  rw [read, toJson, (writes_textAt blank e 0).read?]
  simp only [ofJson?_asJson h]
  by_cases fits : e.openDepth ≤ maxOpen
  · simp only [if_pos fits]
  · simp only [if_neg fits]

end Element

/-- The JSON text of a query is read as its document, on one line or on many. -/
theorem Query.read_toJson (q : Query) (spacious : Bool) :
    Element.read (q.toJson spacious)
      = if q.toDocument.openDepth ≤ 127 then .ok q.toDocument else .error .malformedJson := by
  have blank : (if spacious then Layout.spacious else .compact).Blank := by
    cases spacious
    · exact Layout.compact_blank
    · exact Layout.spacious_blank
  exact Element.read_toJson q.toDocument_ordered blank

/-- **The JSON text layer loses nothing up to a depth.** From its JSON text, on one line or on many, a query is read
as from its document, with the same query or the same error, as long as no more than 127 objects and arrays are open
at a time in it; a text of more depth is refused. -/
theorem Query.ofJson_toJson (q : Query) (spacious : Bool) :
    Query.ofJson (q.toJson spacious) =
      if q.toDocument.openDepth ≤ 127 then Query.ofDocument .standard q.toDocument else .error .malformedJson := by
  rw [Query.ofJson, Query.read_toJson]
  split <;> rfl

end SqlTree
