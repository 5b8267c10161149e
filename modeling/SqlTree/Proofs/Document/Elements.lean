/-
The elements of a document, and accounting for them.

`Element.elements` are all elements of a document but the containers and the scripts, each with what it is read for.
`Decoding.AccountedFor` says of elements that each is read as a part of a statement, no two as the same one.

- `Element.elementsIn_firsts`: the elements in containers of different names are those in the first one of each name.
-/
import Mathlib.Data.List.Forall2
import Mathlib.Data.List.Perm.Basic
import Mathlib.Data.List.Perm.Subperm
import SqlTree.Proofs.Document.Reading
import SqlTree.Proofs.Statement.Parts

namespace SqlTree

/-! ## The elements of a document -/

/-- the elements that are no parts of their own: a script is the statements in it -/
def Registry.meansScript (r : Registry) (name : String) (how : Reading) : Bool :=
  how = .statement && r.statements.find? name = some .script

namespace Element

mutual

/-- all elements of an element but containers and scripts, each with what it is read for -/
def elements (r : Registry) (how : Reading) : Element → List (Reading × Element)
  | ⟨name, attrs, children⟩ =>
    (if r.meansScript name how then [] else [(how, ⟨name, attrs, children⟩)])
      ++ elementsIn r (r.childPlan name how) children

def elementsIn (r : Registry) : ChildPlan → List Element → List (Reading × Element)
  | _, [] => []
  | .nothing, e :: es => elements r .clause e ++ elementsIn r .nothing es
  | .all how, e :: es => elements r how e ++ elementsIn r (.all how) es
  | .firsts containers, ⟨name, _, children⟩ :: es =>
    elementsIn r (.all ((containers.find? name).getD .clause)) children ++ elementsIn r (.firsts containers) es

end

/-- the elements in the first container of a name -/
def inFirst (r : Registry) (name : String) (how : Reading) (es : List Element) : List (Reading × Element) :=
  (first? name es).elim [] fun e => elementsIn r (.all how) e.children

variable {r : Registry} {containers : Keyed Reading} {how : Reading}

theorem inFirst_cons_self (name : String) (attrs : Keyed String) (children es : List Element) :
    inFirst r name how (⟨name, attrs, children⟩ :: es) = elementsIn r (.all how) children := by
  rw [inFirst, first?_cons_self]
  rfl

theorem inFirst_cons_of_ne {e : Element} {name : String} (h : e.name ≠ name) (es : List Element) :
    inFirst r name how (e :: es) = inFirst r name how es := by
  rw [inFirst, first?_cons_of_ne h]
  rfl

/-- A container in front of others is found once, under its name. -/
theorem flatMap_inFirst_cons (distinct : (containers.map Prod.fst).Nodup) {e : Element}
    (found : containers.find? e.name = some how) {es : List Element} (new : e.name ∉ es.map Element.name) :
    (containers.flatMap fun c => inFirst r c.1 c.2 (e :: es)).Perm
      (elementsIn r (.all how) e.children ++ containers.flatMap fun c => inFirst r c.1 c.2 es) := by
  induction containers with
  | nil => cases found
  | cons c cs ih =>
    obtain ⟨name, how'⟩ := c
    obtain ⟨name', attrs, children⟩ := e
    rw [List.map_cons, List.nodup_cons] at distinct
    rw [List.flatMap_cons, List.flatMap_cons]
    by_cases hn : name = name'
    · subst hn
      rw [Keyed.find?, if_pos rfl] at found
      obtain rfl := Option.some.inj found
      have absent : inFirst r name how' es = [] := by
        have none : first? name es = none := List.find?_eq_none.2 fun x hx h =>
          new (List.mem_map.2 ⟨x, hx, by simpa using h⟩)
        rw [inFirst, none]
        rfl
      have others : cs.flatMap (fun c => inFirst r c.1 c.2 (⟨name, attrs, children⟩ :: es))
          = cs.flatMap fun c => inFirst r c.1 c.2 es :=
        List.flatMap_congr fun c hc => inFirst_cons_of_ne (fun h => distinct.1 (List.mem_map.2 ⟨c, hc, h.symm⟩)) es
      rw [inFirst_cons_self, absent, others]
      exact .refl _
    · rw [Keyed.find?, if_neg hn] at found
      rw [inFirst_cons_of_ne (Ne.symm hn)]
      exact ((ih distinct.2 found).append_left _).trans (List.perm_append_comm_assoc ..)

/-- **The elements in containers of different names** are those in the first container of each name. -/
theorem elementsIn_firsts (distinct : (containers.map Prod.fst).Nodup) {es : List Element}
    (once : (es.map Element.name).Nodup) (known : ∀ x ∈ es, containers.find? x.name ≠ none) :
    (elementsIn r (.firsts containers) es).Perm (containers.flatMap fun c => inFirst r c.1 c.2 es) := by
  induction es with
  | nil =>
    have nothing : containers.flatMap (fun c => inFirst r c.1 c.2 []) = [] := List.flatMap_eq_nil_iff.2 fun _ _ => rfl
    rw [elementsIn, nothing]
  | cons e es ih =>
    rw [List.map_cons, List.nodup_cons] at once
    rw [List.forall_mem_cons] at known
    obtain ⟨how, found⟩ := Option.ne_none_iff_exists'.1 known.1
    refine .trans ?_ (flatMap_inFirst_cons distinct found once.1).symm
    obtain ⟨name, attrs, children⟩ := e
    rw [elementsIn, found]
    exact (ih once.2 known.2).append_left _

end Element

/-! ## Accounting -/

namespace Decoding

/-- an element is read as a part of a statement -/
def ReadAs (r : Registry) : Reading × Element → Part → Prop
  | (.clause, e), .clause c => ∃ k k', (clause r e).run k = .ok (c, k')
  | (.statement, e), .statement s => ∃ k k', (query r e).run k = .ok (.single s, k')
  | (.column, e), .column d => columnDef e = .ok d
  | _, _ => False

/-- elements that are read as parts, each of them as one of its own -/
def AccountedFor (r : Registry) (es : List (Reading × Element)) (ps : List Part) : Prop :=
  ∃ qs, List.Forall₂ (ReadAs r) es qs ∧ qs.Subperm ps

namespace AccountedFor

variable {r : Registry} {es es' : List (Reading × Element)} {ps ps' : List Part}

theorem nil (ps : List Part) : AccountedFor r [] ps := ⟨[], .nil, List.nil_subperm⟩

theorem append (h : AccountedFor r es ps) (h' : AccountedFor r es' ps') : AccountedFor r (es ++ es') (ps ++ ps') := by
  obtain ⟨qs, read, sub⟩ := h
  obtain ⟨qs', read', sub'⟩ := h'
  exact ⟨qs ++ qs', List.rel_append read read', sub.append sub'⟩

theorem cons {e : Reading × Element} {p : Part} (first : ReadAs r e p) (h : AccountedFor r es ps) :
    AccountedFor r (e :: es) (p :: ps) := by
  obtain ⟨qs, read, sub⟩ := h
  exact ⟨p :: qs, .cons first read, (List.subperm_cons p).2 sub⟩

theorem mono (h : AccountedFor r es ps) (sub : ps.Subperm ps') : AccountedFor r es ps' := by
  obtain ⟨qs, read, sub'⟩ := h
  exact ⟨qs, read, sub'.trans sub⟩

theorem perm (same : es.Perm es') (h : AccountedFor r es' ps) : AccountedFor r es ps := by
  obtain ⟨qs, read, sub⟩ := h
  obtain ⟨qs', read', same'⟩ := List.perm_comp_forall₂ same read
  exact ⟨qs', read', same'.subperm.trans sub⟩

end AccountedFor

end Decoding

end SqlTree
