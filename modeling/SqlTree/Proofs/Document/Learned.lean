/-
What a reader has learned.

While a document is read the parameters that are known only grow in number. `Learns` says of a reader that its
result is of a kind, whatever the state it starts from and whatever is learned after it; the kind may speak of
the known parameters.

- `KnownParams.Orderly`: parameters of one identity are one parameter, and none waits for a feed. Every reader keeps it.
- `Query.ofDocument_recordable`: what is read of a document can be held by one, and shares its parameters in order.
-/
import SqlTree.Proofs.Document.Reading
import SqlTree.Proofs.Section.Refill

namespace SqlTree

/-! ## Known parameters -/

namespace KnownParams

/-- a parameter that stands under some number -/
def Knows (k : KnownParams) (p : Parameter) : Prop := ∃ ref, k.byRef.find? ref = some p

/-- The known parameters are apart by identity and have fixed values; the next identity is free. -/
structure Orderly (k : KnownParams) : Prop where
  below : ∀ p, k.Knows p → p.id < k.nextId
  fixed : ∀ p, k.Knows p → p.isDeferred = false
  apart : ∀ p p', k.Knows p → k.Knows p' → p.id = p'.id → p = p'

/-- whatever is known at first is known later -/
def Grows (k k' : KnownParams) : Prop := ∀ p, k.Knows p → k'.Knows p

theorem Orderly.start : Orderly {} := by
  have nothing : ∀ p, ¬Knows {} p := by
    rintro p ⟨ref, found⟩
    cases found
  exact ⟨fun p hp => (nothing p hp).elim, fun p hp => (nothing p hp).elim, fun p _ hp => (nothing p hp).elim⟩

/-- the known parameters with one more -/
def learn (k : KnownParams) (ref : String) (p : Parameter) : KnownParams := ⟨k.byRef.insert ref p, k.nextId + 1⟩

variable {k : KnownParams} {ref : String} {p : Parameter}

theorem knows_learn_iff (new : k.byRef.find? ref = none) (q : Parameter) :
    (k.learn ref p).Knows q ↔ q = p ∨ k.Knows q := by
  constructor
  · rintro ⟨other, found⟩
    rcases eq_or_ne other ref with rfl | ne
    · exact .inl (Option.some.inj (found.symm.trans (Keyed.find?_insert_self other p k.byRef)))
    · exact .inr ⟨other, (Keyed.find?_insert_of_ne ne p k.byRef).symm.trans found⟩
  · rintro (rfl | ⟨other, found⟩)
    · exact ⟨ref, Keyed.find?_insert_self ref _ k.byRef⟩
    · refine ⟨other, (Keyed.find?_insert_of_ne ?_ p k.byRef).trans found⟩
      rintro rfl
      rw [new] at found
      cases found

/-- A parameter with the next identity and a fixed value may be learned. -/
theorem Orderly.learn (h : k.Orderly) (new : k.byRef.find? ref = none) (next : p.id = k.nextId)
    (fixed : p.isDeferred = false) : (k.learn ref p).Orderly where
  below q hq := by
    show q.id < k.nextId + 1
    rcases (knows_learn_iff new q).1 hq with rfl | hq
    · omega
    · have := h.below q hq
      omega
  fixed q hq := by
    rcases (knows_learn_iff new q).1 hq with rfl | hq
    · exact fixed
    · exact h.fixed q hq
  apart q q' hq hq' same := by
    rcases (knows_learn_iff new q).1 hq with rfl | known
    · rcases (knows_learn_iff new q').1 hq' with rfl | known'
      · rfl
      · have := h.below q' known'
        omega
    · rcases (knows_learn_iff new q').1 hq' with rfl | known'
      · have := h.below q known
        omega
      · exact h.apart q q' known known' same

end KnownParams

/-! ## Readers -/

namespace Decoding

variable {α β : Type}

/-- what a reader gives is of a kind, which may speak of all that is known then or later; order is kept -/
def Learns (w : Decoding α) (P : (Parameter → Prop) → α → Prop) : Prop :=
  ∀ k a k', k.Orderly → w.run k = .ok (a, k') → k'.Orderly ∧ k.Grows k' ∧ ∀ K : KnownParams, k'.Grows K → P K.Knows a

namespace Learns

variable {P : (Parameter → Prop) → α → Prop} {Q : (Parameter → Prop) → β → Prop}

theorem pure {a : α} (h : ∀ known, P known a) : Learns (return a) P := by
  rintro k _ _ orderly ⟨⟩
  exact ⟨orderly, fun _ hp => hp, fun K _ => h K.Knows⟩

theorem ofResult {r : Result α} (h : ∀ known a, r = .ok a → P known a) : Learns (Decoding.ofResult r) P := by
  intro k a k' orderly ha
  cases r with
  | error e => cases ha
  | ok b =>
    cases ha
    exact ⟨orderly, fun _ hp => hp, fun K _ => h K.Knows _ rfl⟩

theorem fail (fault : Error) : Learns (Decoding.ofResult (.error fault)) P := ofResult fun _ _ hc => by cases hc

theorem mono {P' : (Parameter → Prop) → α → Prop} {w : Decoding α} (h : Learns w P)
    (imp : ∀ known a, P known a → P' known a) : Learns w P' := by
  intro k a k' orderly ha
  obtain ⟨orderly', grows, hP⟩ := h k a k' orderly ha
  exact ⟨orderly', grows, fun K hK => imp K.Knows a (hP K hK)⟩

/-- What is read first is still of its kind when more is known. -/
theorem bind {w : Decoding α} {f : α → Decoding β} (hw : Learns w P)
    (hf : ∀ a, Learns (f a) fun known b => P known a → Q known b) : Learns (w >>= f) Q := by
  intro k b k'' orderly hb
  obtain ⟨a, k', ha, hb⟩ := run_bind_eq_ok hb
  obtain ⟨orderly', grows, hP⟩ := hw k a k' orderly ha
  obtain ⟨orderly'', grows', hQ⟩ := hf a k' b k'' orderly' hb
  exact ⟨orderly'', fun p hp => grows' p (grows p hp), fun K hK =>
    hQ K hK (hP K fun p hp => hK p (grows' p hp))⟩

/-- What depends on nothing known is read first and used at once. -/
theorem bindResult {r : Result α} {f : α → Decoding β} (hf : ∀ a, r = .ok a → Learns (f a) Q) :
    Learns (Decoding.ofResult r >>= f) Q := by
  intro k b k' orderly hb
  cases r with
  | error e => cases hb
  | ok a => exact hf a rfl k b k' orderly hb

end Learns

theorem describedParam_eq_ok {e : Element} {id : Nat} {p : Parameter} (h : describedParam e id = .ok p) :
    p.id = id ∧ p.isDeferred = false := by
  unfold describedParam at h
  obtain ⟨_, -, h⟩ := bind_eq_ok h
  obtain ⟨deferred, -, h⟩ := bind_eq_ok h
  cases deferred
  all_goals
    obtain ⟨_, -, h⟩ := bind_eq_ok h
    obtain ⟨_, -, h⟩ := bind_eq_ok h
    cases h
    exact ⟨rfl, rfl⟩

/-- **A parameter that is read is known from then on.** -/
theorem param_learns (e : Element) : Learns (param e) fun known p => known p := by
  rw [param]
  refine Learns.bindResult fun ref _ => ?_
  intro k p k' orderly h
  rw [StateT.run_bind, StateT.run_get, pure_bind] at h
  dsimp only at h
  cases found : k.byRef.find? ref with
  | some known =>
    rw [found] at h
    cases h
    exact ⟨orderly, fun _ hp => hp, fun K hK => hK _ ⟨ref, found⟩⟩
  | none =>
    rw [found] at h
    dsimp only at h
    split at h
    · cases h
    · rcases hd : describedParam e k.nextId with fault | described
      · rw [hd] at h
        cases h
      · rw [hd] at h
        cases h
        obtain ⟨next, fixed⟩ := describedParam_eq_ok hd
        refine ⟨orderly.learn found next fixed, fun q hq => ?_, fun K hK => hK _ ?_⟩
        · exact (KnownParams.knows_learn_iff found q).2 (.inr hq)
        · exact (KnownParams.knows_learn_iff found _).2 (.inl rfl)

end Decoding

/-! ## What is read can be held -/

section
variable (known : Parameter → Prop)

/-- a clause that a document can hold, with parameters that are known -/
def Clause.Held (c : Clause) : Prop := c.Recordable ∧ ∀ p ∈ c.parameters, known p

def Select.Held (s : Select) : Prop := s.Recordable ∧ ∀ p ∈ s.parameters, known p

/-- the clauses of a section that fit, with parameters that are known -/
def Section.Held (kind : SectionKind) (cs : List Clause) : Prop := Section.AllFit kind cs ∧ ∀ c ∈ cs, c.Held known

/-- a statement that a document can hold, with parameters that are known -/
def Statement.Held (s : Statement) : Prop := s.Recordable ∧ ∀ p ∈ s.parameters, known p

def Query.Held (q : Query) : Prop := ∀ s ∈ q.statements, s.Held known

end

/-! ### Clauses -/

namespace Clause

variable {known : Parameter → Prop} {c : Clause}

/-- A clause is held if what is right below it is. -/
theorem Held.node (hp : c.kind ≠ .param) (own : c.OperandsReadable) (operands : ∀ x ∈ c.operands, x.Held known)
    (query : ∀ s ∈ c.query?, s.Held known) : c.Held known := by
  refine ⟨.node own (fun x hx => (operands x hx).1) fun s hs => (query s hs).1, ?_⟩
  rw [c.parameters_eq hp]
  refine List.forall_mem_append.2 ⟨fun p hpc => ?_, fun p hpc => ?_⟩
  · obtain ⟨x, hx, hpx⟩ := List.mem_flatMap.1 hpc
    exact (operands x hx).2 p hpx
  · obtain ⟨s, hs, hps⟩ := List.mem_flatMap.1 hpc
    exact (query s (Option.mem_toList.1 hs)).2 p hps

theorem Node.held {sort : ClauseKind} {below : List Clause} {inner : Option Select} (h : c.Node sort below inner)
    (hp : sort ≠ .param) (operands : ∀ x ∈ below, x.Held known) (query : ∀ s ∈ inner, s.Held known) : c.Held known := by
  obtain ⟨rfl, rfl, rfl, readable⟩ := h
  exact .node hp readable operands query

end Clause

/-! ### Statements -/

section
variable {known : Parameter → Prop}

theorem Clause.parameters_of_held {cs : List Clause} (h : ∀ c ∈ cs, c.Held known) :
    ∀ p ∈ cs.flatMap Clause.parameters, known p := by
  intro p hp
  obtain ⟨c, hc, hp⟩ := List.mem_flatMap.1 hp
  exact (h c hc).2 p hp

theorem Section.Held.head {kind : SectionKind} {cs : List Clause} (h : Section.Held known kind cs)
    (boolean : kind.isBoolean = true) : Section.Held known kind cs.head?.toList := by
  rwa [h.1.head boolean]

theorem Select.Held.of_sections {s : Select} (fields : Section.Held known .fields s.fields)
    (sources : Section.Held known .sources s.sources) (filter : Section.Held known .filter s.filter.toList)
    (groupBy : Section.Held known .groupBy s.groupBy) (having : Section.Held known .having s.having.toList)
    (orderBy : Section.Held known .orderBy s.orderBy) : s.Held known := by
  have held : ∀ c ∈ s.clauses, c.Held known := by
    obtain ⟨distinct, limit, f, s, w, g, h, o⟩ := s
    simp only [Select.clauses, List.forall_mem_append]
    exact ⟨⟨⟨⟨⟨fields.2, sources.2⟩, filter.2⟩, groupBy.2⟩, having.2⟩, orderBy.2⟩
  refine ⟨?_, s.parameters_eq ▸ Clause.parameters_of_held held⟩
  exact .sections fields.1.rebuilds sources.1.rebuilds filter.1.rebuilds groupBy.1.rebuilds having.1.rebuilds
    orderBy.1.rebuilds fun c hc => (held c hc).1

theorem Statement.held_insert {i : Insert} (columns : Section.Held known .columns i.columns)
    (values : Section.Held known .values i.values) (source : ∀ s ∈ i.source, s.Held known) (check : i.check = .ok ()) :
    (Statement.insert i).Held known := by
  have held := List.forall_mem_append.2 ⟨columns.2, values.2⟩
  refine ⟨⟨columns.1.rebuilds, values.1.rebuilds, fun c hc => (held c hc).1, fun s hs => (source s hs).1, check⟩, ?_⟩
  rw [Statement.parameters, Clause.parametersAll_eq, Clause.parametersAll_eq, ← List.flatMap_append]
  refine List.forall_mem_append.2 ⟨Clause.parameters_of_held held, fun p hp => ?_⟩
  cases hs : i.source with
  | none => simp [hs] at hp
  | some s =>
    simp only [hs, Option.map_some, Option.getD_some] at hp
    exact (source s hs).2 p hp

theorem Statement.held_update {u : Update} (assignments : Section.Held known .assignments u.assignments)
    (filter : Section.Held known .filter u.filter.toList) (check : u.check = .ok ()) :
    (Statement.update u).Held known := by
  have held := List.forall_mem_append.2 ⟨assignments.2, filter.2⟩
  refine ⟨⟨assignments.1.rebuilds, filter.1.rebuilds, fun c hc => (held c hc).1, check⟩, ?_⟩
  rw [Statement.parameters, Clause.parametersAll_eq, Clause.parametersOption_eq, ← List.flatMap_append]
  exact Clause.parameters_of_held held

theorem Statement.held_delete {d : Delete} (filter : Section.Held known .filter d.filter.toList) :
    (Statement.delete d).Held known := by
  refine ⟨⟨filter.1.rebuilds, fun c hc => (filter.2 c (Option.mem_toList.2 hc)).1⟩, ?_⟩
  rw [Statement.parameters, Clause.parametersOption_eq]
  exact Clause.parameters_of_held filter.2

theorem Statement.held_exec {x : Exec} (args : ∀ c ∈ x.args, c.Held known) (returns : ∀ p ∈ x.returns, known p) :
    (Statement.exec x).Held known := by
  refine ⟨fun c hc => (args c hc).1, ?_⟩
  rw [Statement.parameters, Clause.parametersAll_eq]
  exact List.forall_mem_append.2 ⟨by simpa using returns, Clause.parameters_of_held args⟩

end

theorem Query.held_single_iff {known : Parameter → Prop} {s : Statement} : (Query.single s).Held known ↔ s.Held known :=
  List.forall_mem_singleton

/-- A select that is held makes a query that is, and the other way round. -/
theorem Query.held_select_iff {known : Parameter → Prop} {s : Select} :
    (Query.single (.select s)).Held known ↔ s.Held known := by
  simp [Query.Held, Statement.Held, Select.Held, Query.statements, Statement.Recordable, Statement.parameters]

namespace Decoding

variable {r : Registry}

theorem held_taking {known : Parameter → Prop} {s : Section} {c : Clause} (fits : Section.AllFit s.kind s.items)
    (taken : s.refusal? c = none) (held : ∀ x ∈ s.items, x.Held known)
    (hc : c.Held known) : ∀ x ∈ (s.taking c).items, x.Held known := by
  rw [Section.taking]
  split
  · rename_i boolean
    rw [Section.joinOn]
    refine List.forall_mem_append.2 ⟨fun x hx => held x (List.dropLast_subset _ hx), ?_⟩
    rw [List.forall_mem_singleton]
    cases last : s.items.getLast? with
    | none => exact hc
    | some before =>
      have member := List.mem_of_getLast? last
      obtain ⟨i, hi, rfl⟩ := List.mem_iff_getElem.1 member
      have left := (fits.each i _ (List.getElem?_eq_getElem hi)).isPredicate boolean
      have right := Section.predicate_of_taken boolean taken
      exact .node (by simp [Clause.kind]) ⟨left, right⟩ (by simpa [Clause.operands] using ⟨held _ member, hc⟩)
        (by simp [Clause.query?])
  · refine List.forall_mem_append.2 ⟨held, ?_⟩
    rw [List.forall_mem_singleton]
    rcases Section.admitted_cases s.kind c with same | same
    · rwa [same]
    · rw [same]
      exact .node (by simp [Clause.kind]) trivial (by simpa [Clause.operands] using hc) (by simp [Clause.query?])

section
variable {es : List Element} (h : ∀ x ∈ es, Learns (clause r x) fun known c => c.Held known)

include h

theorem clauses_learn : Learns (clauses r es) fun known cs => cs.length = es.length ∧ ∀ c ∈ cs, c.Held known := by
  induction es with
  | nil =>
    rw [clauses]
    exact .pure fun _ => ⟨rfl, by simp⟩
  | cons e es ih =>
    rw [List.forall_mem_cons] at h
    rw [clauses]
    refine h.1.bind fun c => (ih h.2).bind fun cs => .pure fun known hcs hc => ?_
    exact ⟨by rw [List.length_cons, List.length_cons, hcs.1], List.forall_mem_cons.2 ⟨hc, hcs.2⟩⟩

theorem filled_learns {kind : SectionKind} {s : Section} (sort : s.kind = kind) (fits : Section.AllFit kind s.items) :
    Learns (filled r s es) fun known t => (∀ c ∈ s.items, c.Held known) → Section.Held known kind t.items := by
  induction es generalizing s with
  | nil =>
    rw [filled]
    exact .pure fun known held => ⟨fits, held⟩
  | cons e es ih =>
    subst sort
    rw [List.forall_mem_cons] at h
    rw [filled]
    refine h.1.bind fun c => .bindResult fun t ht => ?_
    have pushed := apply_of_push ht
    have step := Section.apply_eq_ok pushed
    refine (ih h.2 step.kind_eq (step.kind_eq ▸ fits.push pushed)).mono fun known _ rest hc held => rest ?_
    cases step with
    | push _ taken => exact held_taking fits taken held hc

end

/-! ### Containers -/

section
variable {es : List Element} (h : ∀ x ∈ es, ∀ y ∈ x.children, Learns (clause r y) fun known c => c.Held known)

include h

theorem sectionItems_learn (kind : SectionKind) :
    Learns (sectionItems r kind es) fun known cs => Section.Held known kind cs := by
  rw [sectionItems_eq_first]
  cases he : Element.first? kind.name es with
  | none => exact .pure fun _ => ⟨.nil, by simp⟩
  | some e =>
    have filled := filled_learns (h e (List.mem_of_find?_eq_some he)) (s := .empty kind) rfl .nil
    exact filled.bind fun s => .pure fun known held => held (by simp [Section.empty])

theorem argsOf_learn : Learns (argsOf r es) fun known cs => ∀ c ∈ cs, c.Held known := by
  rw [argsOf_eq_first]
  cases he : Element.first? "args" es with
  | none => exact .pure fun _ => by simp
  | some e => exact (clauses_learn (h e (List.mem_of_find?_eq_some he))).mono fun _ _ held => held.2

theorem returnsOf_learn : Learns (returnsOf r es) fun known p => ∀ x ∈ p, known x := by
  rw [returnsOf_eq_first]
  cases he : Element.first? "returns" es with
  | none => exact .pure fun _ => by simp
  | some e =>
    have read := h e (List.mem_of_find?_eq_some he)
    obtain ⟨name, attrs, children⟩ := e
    rcases children with _ | ⟨child, _ | ⟨_, _⟩⟩
    · exact .fail _
    · refine (read child List.mem_cons_self).bind fun c => ?_
      cases c with
      | param p => exact .pure fun known held => by simpa [Clause.parameters] using held.2
      | _ => exact .fail _
    · exact .fail _

end

theorem sourceOf_learns {es : List Element}
    (h : ∀ x ∈ es, ∀ y ∈ x.children, Learns (query r y) fun known q => q.Held known) :
    Learns (sourceOf r es) fun known s => ∀ x ∈ s, x.Held known := by
  rw [sourceOf_eq_first]
  cases he : Element.first? "source" es with
  | none => exact .pure fun _ => by simp
  | some e =>
    have read := h e (List.mem_of_find?_eq_some he)
    obtain ⟨name, attrs, children⟩ := e
    rcases children with _ | ⟨child, _ | ⟨_, _⟩⟩
    · exact .fail _
    · refine (read child List.mem_cons_self).bind fun q => .bindResult fun s hs => .pure fun known held => ?_
      obtain rfl := asSelect_eq_ok hs
      simpa using Query.held_select_iff.1 held
    · exact .fail _

/-! ### Elements -/

theorem queries_learn {es : List Element} (h : ∀ x ∈ es, Learns (query r x) fun known q => q.Held known) :
    Learns (queries r es) fun known qs => ∀ q ∈ qs, q.Held known := by
  induction es with
  | nil =>
    rw [queries]
    exact .pure fun _ => by simp
  | cons e es ih =>
    rw [List.forall_mem_cons] at h
    rw [queries]
    refine h.1.bind fun q => (ih h.2).bind fun qs => .pure fun known hqs hq => ?_
    exact List.forall_mem_cons.2 ⟨hq, hqs⟩

/-- A clause is held if what is read of the children is. -/
theorem clause_learns {name : String} {attrs : Keyed String} {children : List Element}
    (clauses_ : ∀ x ∈ children, Learns (clause r x) fun known c => c.Held known)
    (queries_ : ∀ x ∈ children, Learns (query r x) fun known q => q.Held known) :
    Learns (clause r ⟨name, attrs, children⟩) fun known c => c.Held known := by
  cases hk : r.clauses.find? name with
  | none =>
    rw [clause, hk]
    exact .fail _
  | some kind =>
    by_cases hp : kind = .param
    · subst hp
      rw [clause, hk]
      exact (param_learns _).bind fun p => .pure fun known hp =>
        ⟨.leaf rfl rfl, by simpa [Clause.parameters] using hp⟩
    · rw [clause_eq_planned hk hp]
      refine .bindResult fun plan hplan => ?_
      have fits := plan_fits hplan
      cases plan with
      | complete c => exact .pure fun known => fits.2.held hp (by simp) (by simp)
      | ofClauses build =>
        refine (clauses_learn clauses_).bind fun cs => .ofResult fun known c hc held => ?_
        exact (fits.2 cs c held.1 hc).held hp held.2 (by simp)
      | ofSelect build =>
        rcases children with _ | ⟨child, _ | ⟨_, _⟩⟩
        · exact .fail _
        · refine (queries_ child List.mem_cons_self).bind fun q => .bindResult fun s hs => .pure fun known held => ?_
          obtain rfl := asSelect_eq_ok hs
          exact (fits.2 s).held hp (by simp) (by simpa using Query.held_select_iff.1 held)
        · exact .fail _

/-- A query is held if what is read of the children, and of what containers among them hold, is. -/
theorem query_learns {name : String} {attrs : Keyed String} {children : List Element}
    (queries_ : ∀ x ∈ children, Learns (query r x) fun known q => q.Held known)
    (innerClauses : ∀ x ∈ children, ∀ y ∈ x.children, Learns (clause r y) fun known c => c.Held known)
    (innerQueries : ∀ x ∈ children, ∀ y ∈ x.children, Learns (query r y) fun known q => q.Held known) :
    Learns (query r ⟨name, attrs, children⟩) fun known q => q.Held known := by
  have items := fun kind => sectionItems_learn innerClauses kind
  rw [query]
  dsimp only
  cases r.statements.find? name with
  | none => exact .fail _
  | some kind =>
    cases kind with
    | select =>
      refine .bindResult fun limit _ => .bindResult fun distinct _ => ?_
      refine (items .fields).bind fun fields => (items .sources).bind fun sources => (items .filter).bind fun filter =>
        (items .groupBy).bind fun groupBy => (items .having).bind fun having => (items .orderBy).bind fun orderBy =>
          .pure fun known hO hH hG hW hS hF => ?_
      exact Query.held_select_iff.2 (.of_sections hF hS (hW.head rfl) hG (hH.head rfl) hO)
    | insert =>
      refine .bindResult fun table _ => (items .columns).bind fun columns => (items .values).bind fun values =>
        (sourceOf_learns innerQueries).bind fun source => .bindResult fun _ check => .pure fun known hs hv hc => ?_
      exact Query.held_single_iff.2 (Statement.held_insert hc hv hs (checked_eq_ok check))
    | update =>
      refine .bindResult fun table _ => (items .assignments).bind fun assignments => (items .filter).bind fun filter =>
        .bindResult fun _ check => .pure fun known hw ha => ?_
      exact Query.held_single_iff.2 (Statement.held_update ha (hw.head rfl) (checked_eq_ok check))
    | delete =>
      refine .bindResult fun table _ => (items .filter).bind fun filter => .pure fun known hw => ?_
      exact Query.held_single_iff.2 (Statement.held_delete (hw.head rfl))
    | exec =>
      refine (returnsOf_learn innerClauses).bind fun returns => (argsOf_learn innerClauses).bind fun args =>
        .bindResult fun routine _ => .pure fun known ha hr => ?_
      exact Query.held_single_iff.2 (Statement.held_exec ha hr)
    | script =>
      refine (queries_learn queries_).bind fun qs => .pure fun known held s hs => ?_
      obtain ⟨q, hq, hs⟩ := List.mem_flatMap.1 hs
      exact held q hq s hs
    | createTable =>
      refine .bindResult fun columns _ => .bindResult fun table _ => .bindResult fun ifNotExists _ =>
        .bindResult fun _ check => .pure fun known => ?_
      exact Query.held_single_iff.2 ⟨checked_eq_ok check, by simp [Statement.parameters]⟩
    | dropTable =>
      refine .bindResult fun table _ => .bindResult fun ifExists _ => .pure fun known => ?_
      exact Query.held_single_iff.2 ⟨trivial, by simp [Statement.parameters]⟩

/-- **What is read of an element can be held by a document, and its parameters are known**, by induction on the element:
a clause is made of its children, a statement of what its containers hold. -/
theorem element_learns (r : Registry) (e : Element) :
    Learns (clause r e) (fun known c => c.Held known) ∧ Learns (query r e) fun known q => q.Held known := by
  induction e using Element.deepInduction with
  | node name attrs children ih =>
    exact ⟨clause_learns (fun x hx => (ih x hx).1.1) fun x hx => (ih x hx).1.2,
      query_learns (fun x hx => (ih x hx).1.2) (fun x hx y hy => ((ih x hx).2 y hy).1)
        fun x hx y hy => ((ih x hx).2 y hy).2⟩

end Decoding

/-- **What is read of a document** can be held by one; parameters of one identity in it are one parameter, and none of
them waits for a feed. -/
theorem Query.ofDocument_recordable {r : Registry} {e : Element} {q : Query} (h : Query.ofDocument r e = .ok q) :
    q.Recordable ∧ Coherent q.parameters ∧ ∀ p ∈ q.parameters, p.isDeferred = false := by
  rw [Query.ofDocument, StateT.run'] at h
  rcases hr : Decoding.query r e {} with fault | ⟨q', k⟩
  · rw [hr] at h
    cases h
  · rw [hr] at h
    cases h
    obtain ⟨orderly, -, held⟩ := (Decoding.element_learns r e).2 {} _ k .start hr
    have held := held k fun _ hp => hp
    have known : ∀ p ∈ q'.parameters, k.Knows p := fun p hp => by
      obtain ⟨s, hs, hp⟩ := List.mem_flatMap.1 hp
      exact (held s hs).2 p hp
    exact ⟨fun s hs => (held s hs).1, fun p hp p' hp' => orderly.apart p p' (known p hp) (known p' hp'),
      fun p hp => orderly.fixed p (known p hp)⟩

end SqlTree
