/-
The order in which the sections of a select are filled.

A select is built of blocks: a clause that is added to a section, and what changes it there. Steps that change an item
act on the section that was added to last, so the steps of a block stay together; but blocks of different sections do
not see one another, and neither do the steps that ask for different rows or for some of them.

- `SelectStep.editsOn`: what a run of steps does to one section.
- `SelectDraft.run_cases`: a run succeeds if all that it does to sections succeeds, and gives what that gives.
- `SelectDraft.build_of_blocks`: so runs of the same blocks, in one order for each section, build one select, or none.
-/
import SqlTree.Draft.Select
import SqlTree.Proofs.Rendering.Added

namespace SqlTree

/-! ## What steps do to sections -/

/-- the section of a select that a kind stands for -/
def SectionKind.inSelect : SectionKind → SectionKind
  | .sources => .sources
  | .filter => .filter
  | .groupBy => .groupBy
  | .having => .having
  | .orderBy => .orderBy
  | .fields | .assignments | .columns | .values => .fields

namespace SelectStep

/-- the section that is current behind a step -/
def after (kind : SectionKind) : SelectStep → SectionKind
  | .add kind _ => kind
  | _ => kind

/-- the operation that a step carries out on the section that is current behind it -/
def edit? : SelectStep → Option SectionEdit
  | .add _ c => some (.push c)
  | .combine op c => some (.combine op c)
  | .aliasAs name => some (.aliasAs name)
  | .calc op operand => some (.calc op operand)
  | .distinct | .limit _ => none

def limit? : SelectStep → Option RowLimit
  | .limit l => some l
  | _ => none

def isDistinct : SelectStep → Bool
  | .distinct => true
  | _ => false

/-- what steps do to one section, if another is current before them -/
def editsOn (part : SectionKind) : SectionKind → List SelectStep → List SectionEdit
  | _, [] => []
  | kind, b :: rest =>
    (if (b.after kind).inSelect = part.inSelect then b.edit?.toList else []) ++ editsOn part (b.after kind) rest

end SelectStep

/-- the section after operations that must succeed -/
def Section.applyAll (s : Section) (edits : List SectionEdit) : Result Section := edits.foldlM (fun s e => s.apply e) s

theorem Section.applyAll_append (s : Section) (edits edits' : List SectionEdit) :
    s.applyAll (edits ++ edits') = (s.applyAll edits >>= fun s => s.applyAll edits') := List.foldlM_append

namespace SelectDraft

theorem sectionOf_inSelect (d : SelectDraft) {kind part : SectionKind} (h : kind.inSelect = part.inSelect) :
    d.sectionOf kind = d.sectionOf part := by
  cases kind <;> cases part <;> first | rfl | cases h

/-- the draft with a section that an operation gives, which becomes current -/
def moved (d : SelectDraft) (kind : SectionKind) (s : Section) : SelectDraft :=
  { d.withSection kind s with current := kind }

theorem sectionOf_moved (d : SelectDraft) (kind part : SectionKind) (s : Section) :
    (d.moved kind s).sectionOf part = if kind.inSelect = part.inSelect then s else d.sectionOf part := by
  cases kind <;> cases part <;> rfl

theorem distinct_moved (d : SelectDraft) (kind : SectionKind) (s : Section) :
    (d.moved kind s).distinct = d.distinct := by
  cases kind <;> rfl

theorem limit_moved (d : SelectDraft) (kind : SectionKind) (s : Section) : (d.moved kind s).limit = d.limit := by
  cases kind <;> rfl

/-- A step acts on the section that is current behind it, or on none. -/
theorem apply_eq (d : SelectDraft) (b : SelectStep) :
    d.apply b = match b.edit? with
      | some e => ((d.sectionOf (b.after d.current)).apply e).map (d.moved (b.after d.current))
      | none => .ok { d with distinct := d.distinct || b.isDistinct, limit := b.limit?.or d.limit } := by
  have stays : ∀ e, d.edit d.current e = ((d.sectionOf d.current).apply e).map (d.moved d.current) := by
    intro e
    have same : d.withSection d.current = d.moved d.current := by
      funext s
      obtain ⟨_, _, _, _, _, _, _, _, kind⟩ := d
      cases kind <;> rfl
    rw [edit, same]
  cases b with
  | add kind c =>
    show _ = ((d.sectionOf kind).apply (.push c)).map (d.moved kind)
    rw [apply, edit]
    cases (d.sectionOf kind).apply (.push c) <;> rfl
  | combine op c => exact stays _
  | aliasAs name => exact stays _
  | «calc» op operand => exact stays _
  | distinct => simp [apply, SelectStep.edit?, SelectStep.isDistinct, SelectStep.limit?]
  | limit l => simp [apply, SelectStep.edit?, SelectStep.isDistinct, SelectStep.limit?]

/-- a draft behind steps: each section is what was done to it, and the rest is what was asked for -/
structure Reached (d : SelectDraft) (steps : List SelectStep) (d' : SelectDraft) : Prop where
  sections : ∀ part, (d.sectionOf part).applyAll (SelectStep.editsOn part d.current steps) = .ok (d'.sectionOf part)
  distinct : d'.distinct = (d.distinct || steps.any SelectStep.isDistinct)
  limit : d'.limit = (steps.filterMap SelectStep.limit?).getLast?.or d.limit

/-- **The step of a run.** A step does to one section what its operation does, and fails if that fails. -/
theorem apply_cases (d : SelectDraft) (b : SelectStep) :
    (∃ d', d.apply b = .ok d' ∧ d'.current = b.after d.current ∧ d.Reached [b] d')
      ∨ ∃ e part, d.apply b = .error e
        ∧ (d.sectionOf part).applyAll (SelectStep.editsOn part d.current [b]) = .error e := by
  have settings : ∀ e, b.edit? = some e → b.isDistinct = false ∧ b.limit? = none := by
    intro e he
    cases b <;> first | exact ⟨rfl, rfl⟩ | cases he
  rw [apply_eq]
  rcases he : b.edit? with _ | e
  · have stays : d.current = b.after d.current := by cases b <;> first | rfl | cases he
    refine .inl ⟨_, rfl, stays, fun part => ?_, ?_, ?_⟩
    · simp only [SelectStep.editsOn, he, Option.toList_none, ite_self, List.append_nil]
      cases part <;> rfl
    · simp
    · cases hl : b.limit? <;> simp [hl]
  · obtain ⟨notDistinct, noLimit⟩ := settings e he
    have applied : ∀ part, (d.sectionOf part).applyAll (SelectStep.editsOn part d.current [b])
        = if (b.after d.current).inSelect = part.inSelect then (d.sectionOf part).apply e
          else .ok (d.sectionOf part) := by
      intro part
      simp only [SelectStep.editsOn, he, Option.toList_some, List.append_nil]
      split
      · exact bind_pure _
      · rfl
    dsimp only
    rcases hs : (d.sectionOf (b.after d.current)).apply e with fault | s
    · refine .inr ⟨fault, b.after d.current, rfl, ?_⟩
      rw [applied, if_pos rfl, hs]
    · refine .inl ⟨d.moved (b.after d.current) s, rfl, rfl, fun part => ?_, ?_, ?_⟩
      · rw [applied, sectionOf_moved]
        split
        · rename_i same
          rw [← d.sectionOf_inSelect same, hs]
        · rfl
      · simp [distinct_moved, notDistinct]
      · simp [limit_moved, noLimit]

/-- **A run succeeds or fails as what it does to sections**, by induction on the steps. -/
theorem run_cases (d : SelectDraft) (steps : List SelectStep) :
    (∃ d', steps.foldlM apply d = .ok d' ∧ d.Reached steps d')
      ∨ ∃ e part, steps.foldlM apply d = .error e
        ∧ (d.sectionOf part).applyAll (SelectStep.editsOn part d.current steps) = .error e := by
  induction steps generalizing d with
  | nil => exact .inl ⟨d, rfl, fun _ => rfl, (Bool.or_false _).symm, rfl⟩
  | cons b rest ih =>
    have first : ∀ part, (d.sectionOf part).applyAll (SelectStep.editsOn part d.current (b :: rest))
        = ((d.sectionOf part).applyAll (SelectStep.editsOn part d.current [b])
          >>= fun s => s.applyAll (SelectStep.editsOn part (b.after d.current) rest)) := fun part => by
      rw [← Section.applyAll_append, SelectStep.editsOn, SelectStep.editsOn, SelectStep.editsOn, List.append_nil]
    rw [List.foldlM_cons]
    rcases d.apply_cases b with ⟨d₁, applied, current, step⟩ | ⟨e, part, failed, edits⟩
    · rw [applied]
      rcases ih d₁ with ⟨d', run, rest'⟩ | ⟨e, part, failed, edits⟩
      · refine .inl ⟨d', run, fun part => ?_, ?_, ?_⟩
        · rw [first, step.sections part, ← current]
          exact rest'.sections part
        · rw [rest'.distinct, step.distinct]
          simp [Bool.or_assoc]
        · have both : (b :: rest).filterMap SelectStep.limit?
              = [b].filterMap SelectStep.limit? ++ rest.filterMap SelectStep.limit? := by
            rw [← List.filterMap_append]
            rfl
          rw [rest'.limit, step.limit, both, List.getLast?_append, Option.or_assoc]
      · refine .inr ⟨e, part, failed, ?_⟩
        rw [first, step.sections part, ← current]
        exact edits
    · refine .inr ⟨e, part, by rw [failed]; rfl, ?_⟩
      rw [first, edits]
      rfl

/-- Runs that do the same to each section and ask for the same build one select, or none. -/
theorem build_of_edits {steps steps' : List SelectStep}
    (edits : ∀ part, SelectStep.editsOn part .fields steps = SelectStep.editsOn part .fields steps')
    (distinct : steps.any SelectStep.isDistinct = steps'.any SelectStep.isDistinct)
    (limits : steps.filterMap SelectStep.limit? = steps'.filterMap SelectStep.limit?) :
    (∃ s, build steps = .ok s ∧ build steps' = .ok s)
      ∨ ∃ e e', build steps = .error e ∧ build steps' = .error e' := by
  rw [build, build]
  rcases run_cases {} steps with ⟨d, run, reached⟩ | ⟨e, part, failed, edited⟩
  · rcases run_cases {} steps' with ⟨d', run', reached'⟩ | ⟨e, part, -, edited⟩
    · have sections : ∀ part, d.sectionOf part = d'.sectionOf part := fun part => by
        have same := reached.sections part
        rw [edits part, reached'.sections part] at same
        exact (Except.ok.inj same).symm
      have finished : d.finish = d'.finish := by
        have distinct : d.distinct = d'.distinct := by rw [reached.distinct, reached'.distinct, distinct]
        have limit : d.limit = d'.limit := by rw [reached.limit, reached'.limit, limits]
        have fields : d.fields = d'.fields := sections .fields
        have sources : d.sources = d'.sources := sections .sources
        have filter : d.filter = d'.filter := sections .filter
        have groupBy : d.groupBy = d'.groupBy := sections .groupBy
        have having : d.having = d'.having := sections .having
        have orderBy : d.orderBy = d'.orderBy := sections .orderBy
        rw [finish, finish, distinct, limit, fields, sources, filter, groupBy, having, orderBy]
      refine .inl ⟨d.finish, by rw [run]; rfl, ?_⟩
      rw [run', finished]
      rfl
    · have same := reached.sections part
      rw [edits part, edited] at same
      cases same
  · rcases run_cases {} steps' with ⟨d', -, reached'⟩ | ⟨e', -, failed', -⟩
    · rw [edits part, reached'.sections part] at edited
      cases edited
    · exact .inr ⟨e, e', by rw [failed]; rfl, by rw [failed']; rfl⟩

end SelectDraft

/-! ## Blocks -/

namespace SelectStep

/-- whether a step asks for different rows or for some of them, and changes no section -/
def isSetting (b : SelectStep) : Bool := b.isDistinct || b.limit?.isSome

/-- whether a step changes what was added last, or joins a predicate onto it -/
def isModifier : SelectStep → Bool
  | .combine .. | .aliasAs _ | .calc .. => true
  | .add .. | .distinct | .limit _ => false

end SelectStep

/-- a clause that is added to a section of a select, and what changes it there -/
structure SelectBlock where
  kind : SectionKind
  clause : Clause
  modifiers : List SelectStep
  isPart : kind.inSelect = kind
  modify : ∀ b ∈ modifiers, b.isModifier

namespace SelectStep

/-- What is asked of the rows does nothing to a section. -/
theorem editsOn_filter (part kind : SectionKind) (steps : List SelectStep) :
    editsOn part kind (steps.filter (!·.isSetting)) = editsOn part kind steps := by
  induction steps generalizing kind with
  | nil => rfl
  | cons b rest ih =>
    rcases h : b.isSetting with _ | _
    · rw [List.filter_cons_of_pos (by simp [h]), editsOn, editsOn, ih]
    · have skipped : b.after kind = kind ∧ b.edit? = none := by
        cases b <;> first | exact ⟨rfl, rfl⟩ | cases h
      rw [List.filter_cons_of_neg (by simp [h]), editsOn, skipped.1, skipped.2, ih]
      simp

theorem editsOn_modifiers (part kind : SectionKind) {modifiers : List SelectStep}
    (modify : ∀ b ∈ modifiers, b.isModifier) (rest : List SelectStep) :
    editsOn part kind (modifiers ++ rest)
      = (if kind.inSelect = part.inSelect then modifiers.filterMap edit? else []) ++ editsOn part kind rest := by
  induction modifiers with
  | nil => simp
  | cons b modifiers ih =>
    have stays : b.after kind = kind ∧ ∃ e, b.edit? = some e := by
      have h := modify b List.mem_cons_self
      cases b <;> first | exact ⟨rfl, _, rfl⟩ | cases h
    obtain ⟨stays, e, he⟩ := stays
    rw [List.cons_append, editsOn, stays, ih fun b' hb' => modify b' (List.mem_cons_of_mem b hb'), he]
    split <;> simp [he]

end SelectStep

namespace SelectBlock

/-- the steps of a block -/
def steps (x : SelectBlock) : List SelectStep := .add x.kind x.clause :: x.modifiers

/-- what a block does to its section -/
def edits (x : SelectBlock) : List SectionEdit := .push x.clause :: x.modifiers.filterMap SelectStep.edit?

/-- **Blocks of other sections are not seen.** What blocks do to one section is what its own blocks do to it. -/
theorem editsOn_steps (part kind : SectionKind) (blocks : List SelectBlock) :
    SelectStep.editsOn part kind (blocks.flatMap steps)
      = (blocks.filter (·.kind = part.inSelect)).flatMap edits := by
  induction blocks generalizing kind with
  | nil => rfl
  | cons x blocks ih =>
    have own : SelectStep.editsOn part kind (x.steps ++ blocks.flatMap steps)
        = (if x.kind = part.inSelect then x.edits else [])
          ++ SelectStep.editsOn part x.kind (blocks.flatMap steps) := by
      rw [steps, List.cons_append, SelectStep.editsOn, SelectStep.after,
        SelectStep.editsOn_modifiers part x.kind x.modify, x.isPart]
      split <;> rfl
    rw [List.flatMap_cons, own, ih, List.filter_cons]
    by_cases h : x.kind = part.inSelect <;> simp [h]

end SelectBlock

/-! ## The text -/

/-- a text that holds the parts of a select in the order of the grammar, inside what the dialect puts around them -/
def Select.WrittenInOrder (d : Dialect) (s : Select) (text : String) : Prop :=
  ∃ texts wrap, List.Forall₂ Writing.Gives (s.inOrder d) texts
    ∧ (wrap = id ∨ d.hooks.closing s = [.endStaging wrap]) ∧ text = wrap (String.join texts)

theorem render_select_inOrder {d : Dialect} (hooks : d.hooks.Orderly) {s : Select} {supply : Supply} {r : Rendered}
    (h : (render d (.single (.select s)) supply).result = .ok r) : s.WrittenInOrder d r.sql := by
  rw [render] at h
  rcases written : (Writing.query d (.single (.select s))).run ((Pass.start supply).reserve d _) with ⟨_ | _, p⟩
  · rw [written] at h
    cases h
  · rw [written] at h
    obtain ⟨texts, wrap, given, closing, text⟩ := select_adds_inOrder hooks written
    cases h
    exact ⟨texts, wrap, given, closing, text.trans (String.empty_append ..)⟩

/-! ## Order -/

/-- **The order across sections does not matter.** Runs of steps that hold the same blocks in one order for each
section, and ask for the same rows in one order wherever they do, both fail, or build one select; its text holds the
sections in the order of the grammar. -/
theorem SelectDraft.build_of_blocks {steps steps' : List SelectStep} {blocks blocks' : List SelectBlock}
    (made : steps.filter (!·.isSetting) = blocks.flatMap SelectBlock.steps)
    (made' : steps'.filter (!·.isSetting) = blocks'.flatMap SelectBlock.steps)
    (sections : ∀ kind, blocks.filter (·.kind = kind) = blocks'.filter (·.kind = kind))
    (distinct : steps.any SelectStep.isDistinct = steps'.any SelectStep.isDistinct)
    (limits : steps.filterMap SelectStep.limit? = steps'.filterMap SelectStep.limit?) :
    (∃ s, build steps = .ok s ∧ build steps' = .ok s
        ∧ ∀ d ∈ Dialect.all, ∀ supply r, (render d (.single (.select s)) supply).result = .ok r →
          s.WrittenInOrder d r.sql)
      ∨ ∃ e e', build steps = .error e ∧ build steps' = .error e' := by
  have edits : ∀ part, SelectStep.editsOn part .fields steps = SelectStep.editsOn part .fields steps' := fun part => by
    rw [← SelectStep.editsOn_filter, ← SelectStep.editsOn_filter part .fields steps', made, made',
      SelectBlock.editsOn_steps, SelectBlock.editsOn_steps, sections]
  rcases build_of_edits edits distinct limits with ⟨s, built, built'⟩ | failed
  · exact .inl ⟨s, built, built', fun d hd supply r h =>
      render_select_inOrder (Dialect.readable_of_mem hd).hooks.orderly h⟩
  · exact .inr failed

def SelectBlock.total : SelectBlock where
  kind := .fields
  clause := .field none "net"
  modifiers := [.calc .add (.field none "tax"), .aliasAs "total"]
  isPart := rfl
  modify := by simp [SelectStep.isModifier]

def SelectBlock.invoices : SelectBlock := ⟨.sources, .ofTable "invoice", [], rfl, nofun⟩

def SelectBlock.overdue : SelectBlock where
  kind := .filter
  clause := .isNull (.field none "paid") false
  modifiers := [.combine .and (.compare (.field none "due") .lt (.constant (.int 20)))]
  isPart := rfl
  modify := by simp [SelectStep.isModifier]

/-- a run of steps that fills the select list first and asks for some of the rows in the middle of it -/
def SelectStep.listFirst : List SelectStep :=
  .add .fields (.field none "net") :: .calc .add (.field none "tax") :: .limit (.first 5) :: .aliasAs "total"
    :: (SelectBlock.invoices.steps ++ SelectBlock.overdue.steps ++ [.distinct])

/-- a run of the same blocks that fills the select list last -/
def SelectStep.listLast : List SelectStep :=
  .distinct :: (SelectBlock.overdue.steps ++ SelectBlock.invoices.steps ++ SelectBlock.total.steps
      ++ [.limit (.first 5)])

/-- The select list can be filled first or last. -/
theorem SelectDraft.build_of_blocks_overdue :
    (∀ kind, [SelectBlock.total, .invoices, .overdue].filter (·.kind = kind)
        = [SelectBlock.overdue, .invoices, .total].filter (·.kind = kind))
      ∧ ∃ s, build SelectStep.listFirst = .ok s ∧ build SelectStep.listLast = .ok s
        ∧ ∀ d ∈ Dialect.all, ∀ supply r, (render d (.single (.select s)) supply).result = .ok r →
          s.WrittenInOrder d r.sql := by
  have made : SelectStep.listFirst.filter (!·.isSetting)
      = [SelectBlock.total, .invoices, .overdue].flatMap SelectBlock.steps := rfl
  have made' : SelectStep.listLast.filter (!·.isSetting)
      = [SelectBlock.overdue, .invoices, .total].flatMap SelectBlock.steps := rfl
  have sections : ∀ kind, [SelectBlock.total, .invoices, .overdue].filter (·.kind = kind)
      = [SelectBlock.overdue, .invoices, .total].filter (·.kind = kind) := by
    intro kind
    cases kind <;> rfl
  have succeeds : (build SelectStep.listLast).toOption.isSome = true := by decide +kernel
  rcases build_of_blocks made made' sections rfl rfl with built | ⟨e, e', -, failed⟩
  · exact ⟨sections, built⟩
  · rw [failed] at succeeds
    cases succeeds

end SqlTree
