/-
What holds of whatever is read from documents.

- `Decoding.Gives`: a reader that succeeds gives a result of a kind, whatever parameters are known.
- `Element.induction`: what holds of an element if it holds of its children.
- `Decoding.gives_regular`: an insert that is read names columns, and takes its rows from one place.
-/
import SqlTree.Proofs.Document.Sharing
import SqlTree.Proofs.Rendering.Demand
import SqlTree.Proofs.Section.Push

namespace SqlTree

/-- what holds of every element, if each hands it on from its children -/
theorem Element.induction {P : Element → Prop}
    (node : ∀ name attrs children, (∀ x ∈ children, P x) → P ⟨name, attrs, children⟩) (e : Element) : P e :=
  @Element.rec P (fun es => ∀ x ∈ es, P x) node (by simp)
    (fun e es he hes x hx => by
      rcases List.mem_cons.1 hx with rfl | hx
      · exact he
      · exact hes x hx) e

namespace Decoding

variable {α β : Type} {P : α → Prop} {Q : β → Prop}

def Gives (w : Decoding α) (P : α → Prop) : Prop := ∀ k a k', w.run k = .ok (a, k') → P a

namespace Gives

theorem pure {a : α} (h : P a) : Gives (return a) P := by
  rintro k _ _ ⟨⟩
  exact h

theorem any (w : Decoding α) : Gives w fun _ => True := fun _ _ _ _ => trivial

theorem mono {P' : α → Prop} {w : Decoding α} (h : Gives w P) (imp : ∀ a, P a → P' a) : Gives w P' :=
  fun k a k' ha => imp a (h k a k' ha)

theorem ofResult {r : Result α} (h : ∀ a, r = .ok a → P a) : Gives (Decoding.ofResult r) P := by
  rintro k a k' ha
  cases r with
  | ok b =>
    cases ha
    exact h _ rfl
  | error e => cases ha

theorem bind {w : Decoding α} {f : α → Decoding β} (hw : Gives w P) (hf : ∀ a, P a → Gives (f a) Q) :
    Gives (w >>= f) Q := by
  intro k b k'' hb
  obtain ⟨a, k', ha, hb⟩ := run_bind_eq_ok hb
  exact hf a (hw k a k' ha) k' b k'' hb

theorem seq {w : Decoding α} {f : α → Decoding β} (hf : ∀ a, Gives (f a) Q) : Gives (w >>= f) Q :=
  (any w).bind fun a _ => hf a

end Gives

/-- A reader adds a clause to a section as a step that builds it does. -/
theorem apply_of_push {e : Element} {s t : Section} {c : Clause} (h : push e s c = .ok t) :
    s.apply (.push c) = .ok t := by
  rw [push] at h
  rcases ha : s.apply (.push c) with fault | t'
  · rw [ha] at h
    cases fault <;> cases h
  · rw [ha] at h
    cases h
    rfl

theorem asSelect_eq_ok {e : Element} {q : Query} {s : Select} (h : asSelect e q = .ok s) : q = .single (.select s) := by
  unfold asSelect at h
  split at h
  · cases h
    rfl
  · cases h

theorem filled_gives {r : Registry} {P : Section → Prop} (step : ∀ s c t, s.apply (.push c) = .ok t → P s → P t)
    {s : Section} (hs : P s) (es : List Element) : Gives (filled r s es) P := by
  induction es generalizing s with
  | nil =>
    rw [filled]
    exact .pure hs
  | cons e es ih =>
    rw [filled]
    refine .seq fun c => Gives.bind (P := P) (.ofResult fun t ht => ?_) fun t ht => ih ht
    exact step s c t (apply_of_push ht) hs

/-- The clauses of a section are those of a section that was filled. -/
theorem sectionItems_gives {r : Registry} {kind : SectionKind} {P : List Clause → Prop} (empty : P [])
    (filled : ∀ es, Gives (filled r (.empty kind) es) fun s => P s.items) (es : List Element) :
    Gives (sectionItems r kind es) P := by
  induction es with
  | nil =>
    rw [sectionItems]
    exact .pure empty
  | cons e es ih =>
    obtain ⟨name, attrs, children⟩ := e
    rw [sectionItems]
    split
    · exact (filled children).bind fun s hs => .pure hs
    · exact ih

end Decoding

/-! ## Inserts -/

/-- a section for columns that holds columns -/
def Section.OnlyColumns (s : Section) : Prop := s.kind = .columns ∧ ∀ c ∈ s.items, c.kind = .field

theorem Section.OnlyColumns.push {s t : Section} {c : Clause} (ht : s.apply (.push c) = .ok t) (h : s.OnlyColumns) :
    t.OnlyColumns := by
  obtain ⟨kind, items⟩ := h
  rw [apply_push] at ht
  cases hc : c.check with
  | error e =>
    rw [hc] at ht
    cases ht
  | ok _ =>
    rw [hc] at ht
    cases c <;> simp [refusal?, kind, bind, Except.bind] at ht
    subst ht
    refine ⟨by simp [taking, kind, SectionKind.isBoolean, append], fun c hc => ?_⟩
    rw [taking, kind] at hc
    rcases List.mem_append.1 hc with hc | hc
    · exact items c hc
    · rw [List.mem_singleton.1 hc]
      rfl

/-- An insert that passes its check takes its rows from one place. -/
theorem Insert.values_eq_nil {i : Insert} (h : i.check = .ok ()) (hs : i.source ≠ none) : i.values = [] := by
  have some : i.source.isSome = true := Option.isSome_iff_ne_none.2 hs
  rw [Insert.check, if_pos some] at h
  split at h
  · rename_i empty
    exact List.isEmpty_iff.1 empty
  · cases h

namespace Decoding

theorem checked_eq_ok {e : Element} {r : Result Unit} (h : checked e r = .ok ()) : r = .ok () := by
  cases r with
  | ok _ => rfl
  | error fault => cases fault <;> cases h

theorem columns_give (r : Registry) (es : List Element) :
    Gives (sectionItems r .columns es) fun cs => ∀ c ∈ cs, c.kind = .field := by
  have start : (Section.empty .columns).OnlyColumns := ⟨rfl, by simp [Section.empty]⟩
  refine sectionItems_gives (by simp) (fun es => ?_) es
  exact (filled_gives (fun _ _ _ ht h => Section.OnlyColumns.push ht h) start es).mono fun s h => h.2

/-- **Queries that are read are regular**, by induction on the element, whose children are the members of a script. -/
theorem gives_regular (r : Registry) (e : Element) : Gives (query r e) Query.Regular := by
  induction e using Element.induction with
  | node name attrs children ih =>
    rw [query]
    dsimp only
    cases r.statements.find? name with
    | none => exact .ofResult fun _ h => by cases h
    | some kind =>
      cases kind with
      | select =>
        refine .seq fun limit => .seq fun distinct => .seq fun fields => .seq fun sources => .seq fun filter => ?_
        exact .seq fun groupBy => .seq fun having => .seq fun orderBy => .pure (.of_ne fun _ => by simp)
      | insert =>
        refine .seq fun table => (columns_give r children).bind fun cs hcs => .seq fun vs => .seq fun source => ?_
        refine Gives.bind (P := fun _ => (⟨table, cs, vs, source⟩ : Insert).check = .ok ()) ?_ fun _ check => ?_
        · exact .ofResult fun _ h => checked_eq_ok h
        · refine .pure fun i hi => ?_
          cases List.mem_singleton.1 hi
          exact ⟨hcs, Insert.values_eq_nil check⟩
      | update => exact .seq fun _ => .seq fun _ => .seq fun _ => .seq fun _ => .pure (.of_ne fun _ => by simp)
      | delete => exact .seq fun _ => .seq fun _ => .pure (.of_ne fun _ => by simp)
      | exec => exact .seq fun _ => .seq fun _ => .seq fun _ => .pure (.of_ne fun _ => by simp)
      | script =>
        have members : Gives (queries r children) fun qs => ∀ q ∈ qs, q.Regular := by
          induction children with
          | nil =>
            rw [queries]
            exact .pure (by simp)
          | cons e es ihs =>
            rw [queries]
            refine (ih e List.mem_cons_self).bind fun q hq => ?_
            refine (ihs fun x hx => ih x (List.mem_cons_of_mem e hx)).bind fun qs hqs => .pure ?_
            exact List.forall_mem_cons.2 ⟨hq, hqs⟩
        refine members.bind fun qs hqs => .pure fun i hi => ?_
        obtain ⟨q, hq, hi⟩ := List.mem_flatMap.1 hi
        exact hqs q hq i hi
      | createTable => exact .seq fun _ => .seq fun _ => .seq fun _ => .seq fun _ => .pure (.of_ne fun _ => by simp)
      | dropTable => exact .seq fun _ => .seq fun _ => .pure (.of_ne fun _ => by simp)

end Decoding

theorem Query.Regular.of_document {r : Registry} {e : Element} {q : Query} (h : Query.ofDocument r e = .ok q) :
    q.Regular := by
  rw [Query.ofDocument, StateT.run'] at h
  rcases hr : Decoding.query r e {} with fault | ⟨q', k⟩
  · rw [hr] at h
    cases h
  · rw [hr] at h
    cases h
    exact Decoding.gives_regular r e {} _ k hr

end SqlTree
