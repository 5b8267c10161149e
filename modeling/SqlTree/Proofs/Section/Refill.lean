/-
Filling a section again from its own items.

- `Section.Step.fits`: operations keep to what a section takes, four of them apart.
- `Section.Step.spoiled`: what those four make of an item stays, and no section takes it.
- `Section.refills_iff`: the items that a run of operations leaves fill a section again, unless one of the four has
  succeeded in it.
-/
import SqlTree.Proofs.Section.Edit

namespace SqlTree

/-- whether an operation that succeeds makes an item that a section of the sort does not take: arithmetic has no place
in a FROM list or a column list, an alias none in a GROUP BY or a value list -/
def SectionEdit.spoils (kind : SectionKind) : SectionEdit → Bool
  | .calc .. => kind = .sources || kind = .columns
  | .aliasAs _ => kind = .groupBy || kind = .values
  | _ => false

namespace Section

/-- a run in which an operation that spoils an item succeeds -/
def Spoiling (s : Section) : List SectionEdit → Prop
  | [] => False
  | e :: es => (e.spoils s.kind = true ∧ (outcome e s).1 = none) ∨ Spoiling (outcome e s).2 es

/-! ## Items that fit -/

/-- a clause that a section takes behind the items before it, and keeps as it is -/
structure Fits (kind : SectionKind) (before : List Clause) (c : Clause) : Prop where
  check : c.check = .ok ()
  taken : refusal? ⟨kind, before, none⟩ c = none
  kept : admitted kind c = c

/-- items each of which fits behind those before it, one at most where there can be no more -/
structure AllFit (kind : SectionKind) (items : List Clause) : Prop where
  few : kind.isBoolean = true → items.length ≤ 1
  each : ∀ i c, items[i]? = some c → Fits kind (items.take i) c

/-- What a section refuses depends on its items only by whether there is a table among them. -/
theorem refusal?_eq_of_tables {kind : SectionKind} {before before' : List Clause}
    (tables : kind = .sources → before.any Clause.isTableSource = before'.any Clause.isTableSource) (c : Clause) :
    refusal? ⟨kind, before, none⟩ c = refusal? ⟨kind, before', none⟩ c := by
  by_cases hk : kind = .sources
  · simp only [refusal?, tables hk]
  · cases kind <;> first | rfl | exact absurd rfl hk

theorem fits_congr {kind : SectionKind} {before before' : List Clause} {c : Clause}
    (tables : kind = .sources → before.any Clause.isTableSource = before'.any Clause.isTableSource)
    (h : Fits kind before c) : Fits kind before' c :=
  ⟨h.check, (refusal?_eq_of_tables tables c).symm.trans h.taken, h.kept⟩

namespace AllFit

variable {kind : SectionKind} {items : List Clause} {c c' : Clause}

theorem nil : AllFit kind [] := ⟨fun _ => Nat.zero_le 1, by simp⟩

theorem append (h : AllFit kind items) (list : kind.isBoolean = false) (fits : Fits kind items c) :
    AllFit kind (items ++ [c]) := by
  refine ⟨fun boolean => (Bool.false_ne_true (list.symm.trans boolean)).elim, fun i x hx => ?_⟩
  rcases Nat.lt_trichotomy i items.length with hi | rfl | hi
  · rw [List.getElem?_append_left hi] at hx
    rw [List.take_append_of_le_length (Nat.le_of_lt hi)]
    exact h.each i x hx
  · rw [List.getElem?_concat_length, Option.some.injEq] at hx
    subst hx
    rwa [List.take_left']
    rfl
  · rw [List.getElem?_eq_none (by simp; omega)] at hx
    cases hx

theorem single (boolean : kind.isBoolean = true) (check : c.check = .ok ()) (predicate : c.isPredicate = true) :
    AllFit kind [c] := by
  refine ⟨fun _ => Nat.le_refl 1, fun i x hx => ?_⟩
  obtain ⟨rfl, rfl⟩ : i = 0 ∧ c = x := by
    cases i with
    | zero => exact ⟨rfl, Option.some.inj hx⟩
    | succ i => cases hx
  refine ⟨check, ?_, ?_⟩ <;> cases kind <;>
    first | exact absurd boolean Bool.false_ne_true | simp [refusal?, admitted, predicate]

/-- In the place of an item another one fits that fits behind the same items and is a table if that one is. -/
theorem set (h : AllFit kind items) {i : Nat} (found : items[i]? = some c)
    (tables : kind = .sources → c'.isTableSource = c.isTableSource)
    (fits : Fits kind (items.take i) c → Fits kind (items.take i) c') : AllFit kind (items.set i c') := by
  have same : kind = .sources → ∀ n,
      (items.take n).any Clause.isTableSource = ((items.set i c').take n).any Clause.isTableSource := by
    intro hk n
    have mapped : (items.set i c').map Clause.isTableSource = items.map Clause.isTableSource := by
      obtain ⟨hi, rfl⟩ := List.getElem?_eq_some_iff.1 found
      rw [List.map_set, tables hk, ← List.getElem_map Clause.isTableSource, List.set_getElem_self]
      rwa [List.length_map]
    have flags : ∀ xs : List Clause, xs.any Clause.isTableSource = (xs.map Clause.isTableSource).any id := by simp
    rw [flags, flags, List.map_take, List.map_take, mapped]
  refine ⟨fun boolean => (List.length_set ..).symm ▸ h.few boolean, fun j x hx => ?_⟩
  refine fits_congr (fun hk => same hk j) ?_
  by_cases hj : i = j
  · subst hj
    rw [List.getElem?_set_self (List.getElem?_eq_some_iff.1 found).1, Option.some.injEq] at hx
    subst hx
    exact fits (h.each i c found)
  · rw [List.getElem?_set_ne hj] at hx
    exact h.each j x hx

end AllFit

/-! ## Operations that keep to what a section takes -/

section
variable {kind : SectionKind} {before : List Clause} {c : Clause}

/-- A GROUP BY and a value list take the same: expressions without an alias. -/
theorem refusal?_plain (h : kind = .groupBy ∨ kind = .values) :
    refusal? ⟨kind, before, none⟩ c = none ↔ c.isExpression = true ∧ c.isAliased = false := by
  rcases h with rfl | rfl <;> cases he : c.isExpression <;> cases ha : c.isAliased <;> simp [refusal?, he, ha]

/-- A predicate is the only thing that a boolean section takes. -/
theorem predicate_of_taken {s : Section} (boolean : s.kind.isBoolean = true) (taken : s.refusal? c = none) :
    c.isPredicate = true := by
  obtain ⟨kind, items, cursor⟩ := s
  cases kind <;> first
    | exact absurd boolean Bool.false_ne_true
    | exact of_not_not fun no => by simp [refusal?, no] at taken

theorem Fits.isPredicate (h : Fits kind before c) (boolean : kind.isBoolean = true) : c.isPredicate = true :=
  predicate_of_taken (s := ⟨kind, before, none⟩) boolean h.taken

/-- What a section lets be given an alias is taken under the alias, except where no alias may stand. -/
theorem fits_aliased (spared : kind ≠ .groupBy ∧ kind ≠ .values) (allowed : takesAlias kind c = true) (name : String)
    (h : Fits kind before c) :
    Fits kind before (.aliased c name)
      ∧ (kind = .sources → (Clause.aliased c name).isTableSource = c.isTableSource) := by
  obtain ⟨check, taken, kept⟩ := h
  have checked : (Clause.aliased c name).check = .ok () := by rwa [Clause.check]
  cases kind with
  | fields => exact ⟨⟨checked, taken, rfl⟩, by simp⟩
  | sources =>
    -- A query is taken under an alias only, so what is given one is a table.
    cases c <;> first | exact ⟨⟨checked, rfl, rfl⟩, fun _ => rfl⟩ | trivial
  | groupBy => exact absurd rfl spared.1
  | values => exact absurd rfl spared.2
  | filter | having | orderBy | columns | assignments =>
    cases c <;> trivial

/-- Arithmetic that extends a clause obeys the rules for operands. -/
theorem check_withArithmeticPart {op : Arithmetic} {operand : Clause} (check : c.check = .ok ())
    (checked : operand.check = .ok ()) (left : (arithmeticPart c).isArithmetic = true)
    (right : operand.isArithmetic = true) :
    (withArithmeticPart c (.calc (arithmeticPart c) op operand)).check = .ok () := by
  have made : ∀ x : Clause, x.check = .ok () → x.isArithmetic = true → (Clause.calc x op operand).check = .ok () :=
    fun x hx arithmetic => (Clause.check_eq_ok_iff _).2 ⟨⟨arithmetic, right⟩, by simp [Clause.operands, hx, checked]⟩
  cases c with
  | assign target value =>
    obtain ⟨ht, hv⟩ := Clause.then_eq_ok_iff.1 check
    exact Clause.then_eq_ok_iff.2 ⟨ht, made value hv left⟩
  | order subject _ | aliased subject _ => exact made subject check left
  | _ => exact made _ check left

/-- What is taken is taken when arithmetic extends it, except where no arithmetic may stand. -/
theorem fits_extended {op : Arithmetic} {operand : Clause} (spared : kind ≠ .sources ∧ kind ≠ .columns)
    (checked : operand.check = .ok ()) (left : (arithmeticPart c).isArithmetic = true)
    (right : operand.isArithmetic = true) (h : Fits kind before c) :
    Fits kind before (withArithmeticPart c (.calc (arithmeticPart c) op operand)) := by
  obtain ⟨check, taken, kept⟩ := h
  refine ⟨check_withArithmeticPart check checked left right, ?_, ?_⟩
  all_goals
    cases kind with
    | sources => exact absurd rfl spared.1
    | columns => exact absurd rfl spared.2
    | groupBy | values =>
      obtain ⟨expression, plain⟩ := (refusal?_plain (by simp)).1 taken
      cases c <;> first | rfl | trivial
    | filter | having | fields | orderBy =>
      cases c <;> first | rfl | trivial
    | assignments =>
      cases c with
      | assign target value => cases target <;> first | rfl | trivial
      | _ => trivial

end

variable {s t : Section} {e : SectionEdit}

/-- A predicate joined onto that of a boolean section makes one predicate. -/
theorem AllFit.joinOn (h : AllFit s.kind s.items) (boolean : s.kind.isBoolean = true) {c : Clause}
    (checked : c.check = .ok ()) (predicate : c.isPredicate = true) (op : Connective) :
    AllFit s.kind (s.joinOn op c).items := by
  have few := h.few boolean
  obtain ⟨kind, items, cursor⟩ := s
  rcases items with _ | ⟨before, _ | ⟨_, _⟩⟩
  · exact .single boolean checked predicate
  · have fits : Fits kind [] before := h.each 0 before rfl
    refine AllFit.single boolean ((Clause.check_eq_ok_iff _).2 ⟨⟨fits.isPredicate boolean, predicate⟩, ?_⟩) rfl
    simp [Clause.operands, fits.check, checked]
  · simp only [List.length_cons] at few
    omega

/-- What a section takes, it takes again as it keeps it. -/
theorem fits_admitted {c : Clause} (checked : c.check = .ok ()) (taken : s.refusal? c = none) :
    Fits s.kind s.items (admitted s.kind c) := by
  obtain ⟨kind, items, cursor⟩ := s
  by_cases sorted : kind = .orderBy
  · subst sorted
    cases c <;> exact ⟨checked, rfl, rfl⟩
  · rw [admitted_of_ne sorted]
    exact ⟨checked, taken, admitted_of_ne sorted c⟩

/-- **What fits goes on fitting**, as long as no operation spoils an item. -/
theorem Step.fits (step : Step s e t) (spared : e.spoils s.kind = false) (h : AllFit s.kind s.items) :
    AllFit t.kind t.items := by
  have joined : ∀ {c : Clause} {op : Connective}, s.kind.isBoolean = true → c.check = .ok () → s.refusal? c = none →
      AllFit s.kind (s.joinOn op c).items := fun {_ op} boolean checked taken =>
    h.joinOn boolean checked (predicate_of_taken boolean taken) op
  rw [step.kind_eq]
  cases step with
  | push checked taken =>
    rw [taking]
    split
    · exact joined ‹_› checked taken
    · exact h.append (Bool.eq_false_iff.2 ‹_›) (fits_admitted checked taken)
  | combine boolean checked taken => exact joined boolean checked taken
  | @aliasAs name i c here found allowed =>
    simp only [SectionEdit.spoils, Bool.or_eq_false_iff, decide_eq_false_iff_not] at spared
    have fits := fits_aliased spared allowed name (h.each i c found)
    exact h.set found fits.2 fun _ => fits.1
  | «calc» checked here found left right =>
    simp only [SectionEdit.spoils, Bool.or_eq_false_iff, decide_eq_false_iff_not] at spared
    exact h.set found (fun hk => absurd hk spared.1) (fits_extended spared checked left right)
  | finish => exact h

theorem AllFit.push {c : Clause} (h : AllFit s.kind s.items) (pushed : s.apply (.push c) = .ok t) :
    AllFit t.kind t.items :=
  (apply_eq_ok pushed).fits rfl h

/-- The clauses of a boolean section are the one that it holds, if it holds one. -/
theorem AllFit.head {kind : SectionKind} {items : List Clause} (h : AllFit kind items)
    (boolean : kind.isBoolean = true) :
    items.head?.toList = items := by
  have few := h.few boolean
  rcases items with _ | ⟨c, _ | ⟨_, _⟩⟩
  · rfl
  · rfl
  · simp only [List.length_cons] at few
    omega

/-! ## Operations that spoil an item -/

/-- what an operation that spoils makes of an item -/
def Spoiled : SectionKind → Clause → Prop
  | .sources, .aliased (.calc ..) _ | .columns, .calc .. | .groupBy, .aliased .. | .values, .aliased .. => True
  | _, _ => False

/-- a section with an item that was spoiled -/
def HasSpoiled (s : Section) : Prop := ∃ i : Nat, ∃ c, s.items[i]? = some c ∧ Spoiled s.kind c

section
variable {kind : SectionKind} {c : Clause}

/-- No section takes an item that was spoiled. -/
theorem refusal?_of_spoiled {before : List Clause} (h : Spoiled kind c) : refusal? ⟨kind, before, none⟩ c ≠ none := by
  have plain : kind = .groupBy ∨ kind = .values → c.isAliased = true →
      refusal? ⟨kind, before, none⟩ c ≠ none := fun hk aliased taken =>
    Bool.false_ne_true (((refusal?_plain hk).1 taken).2.symm.trans aliased)
  cases kind with
  | sources =>
    cases c with
    | aliased subject _ =>
      cases subject <;> first | exact h.elim | simp [refusal?, Clause.isTableSource, Clause.isTableLike]
    | _ => exact h.elim
  | columns => cases c <;> first | exact h.elim | simp [refusal?]
  | groupBy | values => cases c <;> first | exact h.elim | exact plain (by simp) rfl
  | _ => cases c <;> exact h.elim

theorem takesAlias_of_spoiled (h : Spoiled kind c) : takesAlias kind c = false := by
  cases kind <;> cases c <;> first | exact h.elim | rfl

theorem spoiled_extended (h : Spoiled kind c) (op : Arithmetic) (operand : Clause) :
    Spoiled kind (withArithmeticPart c (.calc (arithmeticPart c) op operand)) := by
  cases kind <;> cases c <;> first | exact h.elim | trivial

/-- What stands in a FROM list or a column list and has a part for arithmetic is spoiled by arithmetic: in the one it is
an aliased query, in the other a column. -/
theorem spoiled_of_fits {before : List Clause} (place : kind = .sources ∨ kind = .columns) (h : Fits kind before c)
    (left : (arithmeticPart c).isArithmetic = true) (op : Arithmetic) (operand : Clause) :
    Spoiled kind (withArithmeticPart c (.calc (arithmeticPart c) op operand)) := by
  have taken := h.taken
  rcases place with rfl | rfl <;> cases c <;> trivial

end

/-- **An operation that spoils leaves an item that is spoiled.** -/
theorem Step.spoils (step : Step s e t) (spoils : e.spoils s.kind = true) (h : AllFit s.kind s.items) :
    t.HasSpoiled := by
  cases step with
  | push | combine | finish => cases spoils
  | @aliasAs name i c here found allowed =>
    simp only [SectionEdit.spoils, Bool.or_eq_true, decide_eq_true_eq] at spoils
    refine ⟨i, .aliased c name, List.getElem?_set_self (List.getElem?_eq_some_iff.1 found).1, ?_⟩
    show Spoiled s.kind _
    rcases spoils with hk | hk <;> rw [hk] <;> trivial
  | @«calc» op operand c i checked here found left right =>
    simp only [SectionEdit.spoils, Bool.or_eq_true, decide_eq_true_eq] at spoils
    exact ⟨i, _, List.getElem?_set_self (List.getElem?_eq_some_iff.1 found).1,
      spoiled_of_fits spoils (h.each i c found) left op operand⟩

/-- **An item that is spoiled stays spoiled**, whatever is done to the section. -/
theorem Step.spoiled (step : Step s e t) (h : s.HasSpoiled) : t.HasSpoiled := by
  obtain ⟨i, c, found, spoiled⟩ := h
  have inside : i < s.items.length := (List.getElem?_eq_some_iff.1 found).1
  have list : s.kind.isBoolean = false := by
    generalize s.kind = kind at spoiled
    cases kind <;> first | rfl | exact spoiled.elim
  cases step with
  | push =>
    rw [taking, list]
    exact ⟨i, c, (List.getElem?_append_left inside).trans found, spoiled⟩
  | combine boolean => exact (Bool.false_ne_true (list.symm.trans boolean)).elim
  | @aliasAs name j x here found' allowed =>
    rcases eq_or_ne j i with rfl | hj
    · obtain rfl : x = c := Option.some.inj (found'.symm.trans found)
      exact (Bool.false_ne_true ((takesAlias_of_spoiled spoiled).symm.trans allowed)).elim
    · exact ⟨i, c, (List.getElem?_set_ne hj).trans found, spoiled⟩
  | @«calc» op operand x j checked here found' left right =>
    rcases eq_or_ne j i with rfl | hj
    · obtain rfl : x = c := Option.some.inj (found'.symm.trans found)
      exact ⟨j, _, List.getElem?_set_self inside, spoiled_extended spoiled op operand⟩
    · exact ⟨i, c, (List.getElem?_set_ne hj).trans found, spoiled⟩
  | finish => exact ⟨i, c, found, spoiled⟩

/-! ## Whole runs -/

section
variable {edits : List SectionEdit}

/-- What every operation that succeeds keeps, a run keeps. -/
theorem run_keeps {P : Section → Prop} (step : ∀ s e t, Step s e t → P s → P t) (h : P s) : P (run s edits) := by
  induction edits generalizing s with
  | nil => exact h
  | cons e edits ih =>
    rw [run, List.foldl_cons]
    rcases outcome_cases e s with ⟨t, ho, he⟩ | ⟨fault, ho⟩
    · rw [ho]
      exact ih (step s e t he h)
    · rw [ho]
      exact ih h

theorem run_kind (s : Section) (edits : List SectionEdit) : (run s edits).kind = s.kind :=
  run_keeps (P := fun t => t.kind = s.kind) (fun _ _ _ step h => step.kind_eq.trans h) rfl

/-- The items of a run fit as long as none is spoiled. -/
theorem run_fits (h : AllFit s.kind s.items) (spared : ¬Spoiling s edits) :
    AllFit (run s edits).kind (run s edits).items := by
  induction edits generalizing s with
  | nil => exact h
  | cons e edits ih =>
    rw [Spoiling, not_or, not_and] at spared
    rw [run, List.foldl_cons]
    rcases outcome_cases e s with ⟨t, ho, step⟩ | ⟨fault, ho⟩
    · rw [ho] at spared ⊢
      exact ih (step.fits (Bool.eq_false_iff.2 fun spoils => spared.1 spoils rfl) h) spared.2
    · rw [ho] at spared ⊢
      exact ih h spared.2

/-- An item that is spoiled on the way is there at the end. -/
theorem run_spoils (h : AllFit s.kind s.items) (spoiling : Spoiling s edits) : (run s edits).HasSpoiled := by
  induction edits generalizing s with
  | nil => exact spoiling.elim
  | cons e edits ih =>
    rw [Spoiling] at spoiling
    rw [run, List.foldl_cons]
    rcases outcome_cases e s with ⟨t, ho, step⟩ | ⟨fault, ho⟩
    · rw [ho] at spoiling ⊢
      cases spoils : e.spoils s.kind with
      | true => exact run_keeps (fun _ _ _ => Step.spoiled) (step.spoils spoils h)
      | false =>
        rw [spoils] at spoiling
        exact ih (step.fits spoils h) (spoiling.resolve_left fun first => Bool.false_ne_true first.1)
    · rw [ho] at spoiling ⊢
      exact ih h (spoiling.resolve_left fun first => by cases first.2)

end

/-! ## Filling again -/

/-- Adding a clause that fits and is kept as it is. -/
theorem apply_push_of_fits {c : Clause} (fits : Fits s.kind s.items c) : s.apply (.push c) = .ok (s.taking c) := by
  have taken : s.refusal? c = none := fits.taken
  rw [apply_push, fits.check, taken]
  rfl

/-- Items that fit fill an empty section, by induction on those still to be added. -/
theorem AllFit.pushAll {kind : SectionKind} {items : List Clause} (h : AllFit kind items) :
    ∃ t, (Section.empty kind).pushAll items = .ok t ∧ t.kind = kind ∧ t.items = items := by
  have listed : kind.isBoolean = false → ∀ (rest : List Clause) (s : Section), s.kind = kind →
      AllFit kind (s.items ++ rest) → ∃ t, s.pushAll rest = .ok t ∧ t.kind = kind ∧ t.items = s.items ++ rest := by
    intro list rest
    induction rest with
    | nil => exact fun s hs _ => ⟨s, rfl, hs, (List.append_nil _).symm⟩
    | cons c rest ih =>
      intro s hs all
      have fits : Fits kind s.items c := by
        have here := all.each s.items.length c (by simp)
        rwa [List.take_left'] at here
        rfl
      have taken : (s.taking c).items = s.items ++ [c] := by
        rw [taking, hs, list]
        exact congrArg (fun x => s.items ++ [x]) fits.kept
      have kind : (s.taking c).kind = kind := by
        rw [taking, hs, list]
        exact hs
      obtain ⟨t, ht, hk, items⟩ := ih (s.taking c) kind (by rwa [taken, List.append_assoc])
      refine ⟨t, ?_, hk, by rw [items, taken, List.append_assoc]; rfl⟩
      rw [Section.pushAll, apply_push_of_fits (hs ▸ fits)]
      exact ht
  cases hb : kind.isBoolean with
  | false => exact listed hb items (.empty kind) rfl h
  | true =>
    have few := h.few hb
    rcases items with _ | ⟨c, _ | ⟨_, _⟩⟩
    · exact ⟨_, rfl, rfl, rfl⟩
    · refine ⟨(Section.empty kind).taking c, ?_, ?_, ?_⟩
      · rw [Section.pushAll, apply_push_of_fits (h.each 0 c rfl)]
        rfl
      all_goals
        rw [taking, show (Section.empty kind).kind.isBoolean = true from hb]
        rfl
    · simp only [List.length_cons] at few
      omega

theorem AllFit.rebuilds {kind : SectionKind} {items : List Clause} (h : AllFit kind items) : Rebuilds kind items := by
  obtain ⟨t, filled, -, same⟩ := h.pushAll
  exact ⟨t, filled, same⟩

theorem taken_of_pushAll {cs : List Clause} (h : s.pushAll cs = .ok t) :
    ∀ c ∈ cs, ∃ before, refusal? ⟨s.kind, before, none⟩ c = none := by
  induction cs generalizing s with
  | nil => nofun
  | cons c cs ih =>
    obtain ⟨u, hu, h⟩ := pushAll_cons_eq_ok h
    have step := apply_eq_ok hu
    refine List.forall_mem_cons.2 ⟨?_, step.kind_eq ▸ ih h⟩
    cases step with
    | push _ taken => exact ⟨s.items, taken⟩

/-- **Filling a section again.** Whatever is done to a section that was empty at first, whether it succeeds or fails,
pushing the items in order onto an empty section of the same sort succeeds and gives the same items, unless arithmetic
has succeeded in a FROM list or a column list, or an alias in a GROUP BY or a value list. -/
theorem refills_iff (kind : SectionKind) (edits : List SectionEdit) :
    (∃ t, (empty kind).pushAll (run (empty kind) edits).items = .ok t ∧ t.kind = (run (empty kind) edits).kind
        ∧ t.items = (run (empty kind) edits).items)
      ↔ ¬Spoiling (empty kind) edits := by
  have start : AllFit (empty kind).kind (empty kind).items := AllFit.nil
  rw [run_kind]
  constructor
  · rintro ⟨t, filled, -⟩ spoiling
    obtain ⟨i, c, found, spoiled⟩ := run_spoils start spoiling
    obtain ⟨before, taken⟩ := taken_of_pushAll filled c (List.mem_of_getElem? found)
    rw [run_kind] at spoiled
    exact refusal?_of_spoiled spoiled taken
  · intro spared
    have fits := run_fits start spared
    rw [run_kind] at fits
    exact fits.pushAll

/-- A query that rows are grouped by may be given an alias, and under it the section does not take the query again. -/
theorem aliased_group_not_refilled :
    (outcome (.aliasAs "x") (run (empty .groupBy) [.push (.subQuery .empty)])).1 = none
      ∧ (empty .groupBy).pushAll (run (empty .groupBy) [.push (.subQuery .empty), .aliasAs "x"]).items
        = .error (.construction (.refused .groupBy .aliased .isAlias)) := ⟨rfl, rfl⟩

end Section
end SqlTree
