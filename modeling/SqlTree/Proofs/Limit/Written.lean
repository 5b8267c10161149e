/-
What a row limit does to the text of a select.

A dialect puts words in front of the columns of a limited select, words behind its last section, or queries around it.
In between it writes what it writes without the limit, so a select ends alike with its limit and without it, and both
texts are made of the same body.

- `Select.Around`: what the hooks of a dialect put around the sections of a select.
- `Select.forms_limitForm`: what the dialects of the library put around a select makes a form of its row limit.
- `select_limited`: a select and the same select without its limit, written from the same state.
- `select_keeps_rows`: the text of a limited select is a form of its limit, and keeps the rows that the limit asks for.
-/
import SqlTree.Proofs.Limit.Form
import SqlTree.Proofs.Rendering.Staging

namespace SqlTree

open Writing (Added Splices Gives)

/-! ## Hooks around sections -/

namespace Writing

theorem actAll_none (d : Dialect) : actAll d [] = emit "" := by
  funext p
  show (Except.ok (), p) = (Except.ok (), { p with text := p.text ++ "" })
  rw [String.append_empty]

theorem actAll_write (d : Dialect) (text : String) : actAll d [.write text] = emit text := by
  show (do emit text; pure () : Writing Unit) = emit text
  exact bind_pure_unit

end Writing

/-- what a dialect puts around the sections of a select: words in front of its columns, words behind its last section,
and what the whole text is put into -/
structure Select.Around (d : Dialect) (s : Select) (head tail : String) (wrap : String → String) : Prop where
  asked : Writing.requireLimit d s.limit = pure ()
  heading : Writing.actAll d (d.hooks.heading s) = Writing.emit head
  trailing : Writing.actAll d (d.hooks.trailing s) = Writing.emit tail
  frame : d.hooks.opening s = [] ∧ d.hooks.closing s = [] ∧ wrap = id
    ∨ d.hooks.opening s = [.beginStaging] ∧ d.hooks.closing s = [.endStaging wrap]

namespace Select.Around

variable {d : Dialect} {s : Select} {head tail : String} {wrap : String → String}

/-- In front of its sections stands the beginning of the select, in place or with the text before it set aside. -/
theorem front_run (h : s.Around d head tail wrap) (p : Pass) :
    ∃ q, (s.front d).run { p with frames := none :: p.frames } = (.ok (), q) ∧ q.tables = p.tables
      ∧ (q.text = p.text ++ plainSelect s.distinct head ∧ q.frames = none :: p.frames
          ∧ d.hooks.closing s = [] ∧ wrap = id
        ∨ q.text = plainSelect s.distinct head ∧ q.frames = some p.text :: p.frames
          ∧ d.hooks.closing s = [.endStaging wrap]) := by
  unfold Select.front plainSelect
  rw [h.heading]
  rcases h.frame with ⟨opening, closing, rfl⟩ | ⟨opening, closing⟩
  · rw [opening]
    refine ⟨_, rfl, rfl, .inl ⟨?_, rfl, closing, rfl⟩⟩
    simp only [String.append_assoc]
  · rw [opening, Writing.run_bind, Writing.run_setAside d rfl]
    refine ⟨_, rfl, rfl, .inr ⟨?_, rfl, closing⟩⟩
    simp only [String.append_assoc, String.empty_append]

theorem select_eq (h : s.Around d head tail wrap) :
    Writing.select d s = Writing.inFrame d (do s.front d; (s.sections d).forM id; s.back d) := by
  rw [Writing.select_eq_sections, h.asked, pure_bind]

theorem fails (h : s.Around d head tail wrap) {p : Pass} {e : Error}
    (sections : ∀ q : Pass, q.tables = p.tables → (((s.sections d).forM id).run q).1 = .error e) :
    ((Writing.select d s).run p).1 = .error e := by
  obtain ⟨q, front, tables, -⟩ := h.front_run p
  have failed := sections q tables
  rw [h.select_eq, Writing.run_inFrame, Writing.run_bind, front]
  dsimp only
  rw [Writing.run_bind]
  rcases hr : ((s.sections d).forM id).run q with ⟨e' | _, t⟩
  · rw [hr] at failed
    exact failed
  · rw [hr] at failed
    cases failed

/-- A select adds what its sections add, inside what is put around them. -/
theorem adds (h : s.Around d head tail wrap) {p : Pass} {body : String}
    (sections : ∀ q : Pass, q.tables = p.tables → ∃ t, ((s.sections d).forM id).Added q t body) :
    ∃ t, (Writing.select d s).Added p t (wrap (plainSelect s.distinct (head ++ body ++ tail))) := by
  obtain ⟨q, front, tables, begun⟩ := h.front_run p
  obtain ⟨t, written⟩ := sections q tables
  have spelled : plainSelect s.distinct (head ++ body ++ tail) = plainSelect s.distinct head ++ body ++ tail := by
    simp only [plainSelect, String.append_assoc]
  have run : (do s.front d; (s.sections d).forM id; s.back d : Writing Unit).run { p with frames := none :: p.frames }
      = (Writing.actAll d (d.hooks.closing s)).run { t with text := t.text ++ tail } := by
    rw [Writing.run_bind, front]
    dsimp only
    rw [Writing.run_bind, written.ran]
    dsimp only
    rw [Select.back, h.trailing]
    rfl
  rcases begun with ⟨text, frames, closing, rfl⟩ | ⟨text, frames, closing⟩
  · have ended := written.frames.trans frames
    refine ⟨{ t with text := t.text ++ tail, frames := p.frames }, ?_, ?_, rfl⟩
    · rw [h.select_eq, Writing.run_inFrame, run, closing]
      simp [Writing.actAll, ended]
    · simp only [id, spelled, written.text, text]
      simp only [String.append_assoc]
  · have ended := written.frames.trans frames
    refine ⟨{ t with text := p.text ++ wrap (t.text ++ tail), frames := p.frames }, ?_, ?_, rfl⟩
    · rw [h.select_eq, Writing.run_inFrame, run, closing,
        Writing.run_putBack d wrap (s := { t with text := t.text ++ tail }) ended]
      simp
    · simp only [written.text, text, spelled]

end Select.Around

/-! ## Select lists -/

/-- the items of a select list as they are written; a select list without items is a star -/
def Select.items (d : Dialect) (s : Select) : List (Writing Unit) :=
  if s.fields.isEmpty then [.emit "*"] else s.fields.map (Writing.clause d)

theorem Select.fields_eq (d : Dialect) (s : Select) :
    Writing.fields d s.fields = Writing.separated ", " (s.items d) := by
  unfold Writing.fields Select.items
  split
  · exact bind_pure_unit.symm
  · rw [Writing.values, Writing.nodes_eq_map, List.zipWith_map_right, List.zipWith_self]
    rfl

/-- What the sections of a select add begins with its select list. -/
theorem Select.sections_list {d : Dialect} (hooks : d.hooks.Orderly) {s : Select} {p t : Pass} {body : String}
    (h : ((s.sections d).forM id).Added p t body) :
    ∃ items rest, List.Forall₂ Gives (s.items d) items ∧ body = ", ".intercalate items ++ rest := by
  have inTurn : (s.sections d).forM id = (do Writing.fields d s.fields; (s.sections d).tail.forM id) := rfl
  have ran := h.ran
  rw [inTurn, s.fields_eq] at ran
  obtain ⟨_, u, list, behind⟩ := Writing.run_bind_ok ran
  have itemsAdd : ∀ w ∈ s.items d, w.Adds := by
    unfold Select.items
    split
    · simpa using Writing.Adds.emit "*"
    · simpa using fun c _ => clause_adds hooks c
  have restAdd : ∀ w ∈ (s.sections d).tail, w.Adds := by
    simp only [Select.sections, List.tail_cons, List.forall_mem_cons]
    exact ⟨fromSection_adds hooks _, optional_adds hooks _ _, listed_adds hooks _ _, optional_adds hooks _ _,
      listed_adds hooks _ _, List.forall_mem_nil _⟩
  obtain ⟨items, given, text, -⟩ := Writing.Adds.separated itemsAdd list
  obtain ⟨texts, -, more, -⟩ := Writing.Adds.inTurn restAdd behind
  refine ⟨items, String.join texts, given, (String.append_right_inj p.text).1 ?_⟩
  rw [← h.text, more, text, String.append_assoc]

/-! ## With a row limit and without -/

def Select.unlimited : Select → Select
  | .mk distinct _ fields sources filter groupBy having orderBy =>
    .mk distinct none fields sources filter groupBy having orderBy

namespace Select

@[simp] theorem unlimited_limit (s : Select) : s.unlimited.limit = none := by cases s; rfl

@[simp] theorem unlimited_distinct (s : Select) : s.unlimited.distinct = s.distinct := by cases s; rfl

@[simp] theorem unlimited_sections (d : Dialect) (s : Select) : s.unlimited.sections d = s.sections d := by cases s; rfl

variable {d : Dialect} {s : Select}

/-- Around a select without a row limit the dialects of the library put nothing. -/
theorem unlimited_around (hd : d ∈ Dialect.all) (unlimited : s.limit = none) : s.Around d "" "" id := by
  have plain : d.hooks.opening s = [] ∧ d.hooks.heading s = [] ∧ d.hooks.trailing s = [] ∧ d.hooks.closing s = [] := by
    refine Dialect.of_mem_all (P := fun d => d.hooks.opening s = [] ∧ d.hooks.heading s = [] ∧ d.hooks.trailing s = []
      ∧ d.hooks.closing s = []) ?_ hd
    simp [Dialect.ansi, Dialect.postgres, Dialect.mysql, Dialect.sqlite, Dialect.sqlServer, Dialect.oracle,
      SelectHooks.limitClause, SelectHooks.topOrFetch, SelectHooks.rowNumbers, SelectHooks.none, unlimited]
  obtain ⟨opening, heading, trailing, closing⟩ := plain
  exact ⟨by rw [unlimited]; rfl, by rw [heading, Writing.actAll_none], by rw [trailing, Writing.actAll_none],
    .inl ⟨opening, closing, rfl⟩⟩

/-- What a dialect puts around a select makes of its text a form of a row limit. -/
def Forms (d : Dialect) (s : Select) (form : LimitForm) : Prop :=
  ∃ head tail wrap, s.Around d head tail wrap
    ∧ ∀ body, wrap (plainSelect s.distinct (head ++ body ++ tail)) = form.text s.distinct body

/-- Words in front of the columns and words behind the last section make a form, where nothing is put around them. -/
theorem forms_beside (head tail : String) {form : LimitForm} (asked : Writing.requireLimit d s.limit = pure ())
    (around : d.hooks.opening s = [] ∧ d.hooks.closing s = [])
    (heading : Writing.actAll d (d.hooks.heading s) = Writing.emit head)
    (trailing : Writing.actAll d (d.hooks.trailing s) = Writing.emit tail)
    (spelled : ∀ body, plainSelect s.distinct (head ++ body ++ tail) = form.text s.distinct body) : s.Forms d form :=
  ⟨head, tail, id, ⟨asked, heading, trailing, .inl ⟨around.1, around.2, rfl⟩⟩, spelled⟩

section
variable {l : RowLimit} (hl : s.limit = some l) (able : d.supports l.capability = true)

include hl able

theorem requireLimit_able : Writing.requireLimit d s.limit = pure () := by
  rw [hl, Writing.requireLimit, Dialect.require, if_pos able]
  rfl

theorem forms_ofClause (hooks : d.hooks = .limitClause) : s.Forms d (.ofClause l) := by
  have asked := requireLimit_able hl able
  have around : d.hooks.opening s = [] ∧ d.hooks.closing s = [] := by rw [hooks]; exact ⟨rfl, rfl⟩
  have heading : Writing.actAll d (d.hooks.heading s) = Writing.emit "" := by rw [hooks]; exact Writing.actAll_none d
  cases l with
  | first n =>
    refine forms_beside "" (" LIMIT " ++ Decimal.ofUInt64 n) asked around heading ?_ fun body => ?_
    · simp only [hooks, SelectHooks.limitClause, hl, Writing.actAll_write]
    · simp only [LimitForm.ofClause, LimitForm.text, plainSelect, Decimal.ofUInt64, String.empty_append,
        String.append_empty, String.append_assoc]
  | range offset count =>
    refine forms_beside "" (" LIMIT " ++ Decimal.ofUInt64 count ++ " OFFSET " ++ Decimal.ofUInt64 offset) asked
      around heading ?_ fun body => ?_
    · simp only [hooks, SelectHooks.limitClause, hl, Writing.actAll_write]
    · simp only [LimitForm.ofClause, LimitForm.text, plainSelect, Decimal.ofUInt64, String.empty_append,
        String.append_assoc]

theorem forms_ofTopOrFetch (hooks : d.hooks = .topOrFetch) : s.Forms d (.ofTopOrFetch (!s.orderBy.isEmpty) l) := by
  have asked := requireLimit_able hl able
  have around : d.hooks.opening s = [] ∧ d.hooks.closing s = [] := by rw [hooks]; exact ⟨rfl, rfl⟩
  cases l with
  | first n =>
    refine forms_beside ("TOP " ++ Decimal.ofUInt64 n ++ " ") "" asked around ?_ ?_ fun body => ?_
    · simp only [hooks, SelectHooks.topOrFetch, hl, Writing.actAll_write]
    · simp only [hooks, SelectHooks.topOrFetch, hl, Writing.actAll_none]
    · simp only [LimitForm.ofTopOrFetch, LimitForm.text, Decimal.ofUInt64, String.append_empty]
  | range offset count =>
    refine forms_beside "" ((if s.orderBy.isEmpty then " ORDER BY (SELECT NULL)" else "")
      ++ (" OFFSET " ++ Decimal.ofUInt64 offset ++ " ROWS FETCH NEXT " ++ Decimal.ofUInt64 count ++ " ROWS ONLY")) asked
      around ?_ ?_ fun body => ?_
    · simp only [hooks, SelectHooks.topOrFetch, hl, Writing.actAll_none]
    · simp only [hooks, SelectHooks.topOrFetch, hl]
      by_cases unordered : s.orderBy.isEmpty
      · rw [if_pos unordered, if_pos unordered, List.singleton_append, Writing.actAll_cons, Writing.actAll_write]
        exact (Writing.emit_append " ORDER BY (SELECT NULL)" _).symm
      · rw [if_neg unordered, if_neg unordered, List.nil_append, Writing.actAll_write, String.empty_append]
    · simp only [LimitForm.ofTopOrFetch, LimitForm.text, plainSelect, Decimal.ofUInt64, String.empty_append,
        String.append_assoc]
      cases s.orderBy.isEmpty <;> rfl

theorem forms_ofRowNumbers (hooks : d.hooks = .rowNumbers) : s.Forms d (.ofRowNumbers l) := by
  have asked := requireLimit_able hl able
  refine ⟨"", "", SelectHooks.numberedRows l, ⟨asked, ?_, ?_, .inr ⟨?_, ?_⟩⟩, fun body => ?_⟩
  · rw [hooks]; exact Writing.actAll_none d
  · rw [hooks]; exact Writing.actAll_none d
  · simp only [hooks, SelectHooks.rowNumbers, hl, Option.isSome_some, if_true]
  · simp only [hooks, SelectHooks.rowNumbers, hl]
  · rw [String.empty_append, String.append_empty, LimitForm.text_ofRowNumbers]

/-- **The dialects of the library make of a limited select a form of its limit**, where they support the limit. -/
theorem forms_limitForm (hd : d ∈ Dialect.all) : s.Forms d (d.limitForm (!s.orderBy.isEmpty) l) := by
  refine Dialect.of_mem_all (P := fun d => d.supports l.capability = true →
    s.Forms d (d.limitForm (!s.orderBy.isEmpty) l)) ⟨fun able => ?_, ?_, ?_, ?_, ?_, ?_⟩ hd able
  · cases l <;> cases able
  · exact fun able => forms_ofClause hl able rfl
  · exact fun able => forms_ofClause hl able rfl
  · exact fun able => forms_ofClause hl able rfl
  · exact fun able => forms_ofTopOrFetch hl able rfl
  · exact fun able => forms_ofRowNumbers hl able rfl

end

end Select

/-- **A select with its row limit and without it**, written from the same state: both fail in the same way, or both are
written, and their texts are made of the same body, which begins with the select list. -/
theorem select_limited {d : Dialect} (hd : d ∈ Dialect.all) {s : Select} {l : RowLimit} (hl : s.limit = some l)
    (able : d.supports l.capability = true) (p : Pass) :
    (∃ e, ((Writing.select d s).run p).1 = .error e ∧ ((Writing.select d s.unlimited).run p).1 = .error e)
      ∨ ∃ items rest t u, List.Forall₂ Gives (s.items d) items
        ∧ (Writing.select d s.unlimited).Added p u (plainSelect s.distinct (", ".intercalate items ++ rest))
        ∧ (Writing.select d s).Added p t
            ((d.limitForm (!s.orderBy.isEmpty) l).text s.distinct (", ".intercalate items ++ rest)) := by
  have hooks : d.hooks.Orderly := (Dialect.readable_of_mem hd).hooks.orderly
  obtain ⟨head, tail, wrap, around, form⟩ := Select.forms_limitForm hl able hd
  have plain := Select.unlimited_around hd s.unlimited_limit
  rcases Splices.fails_or_adds (s.sections_splice d) p.tables with ⟨e, failed⟩ | ⟨body, written⟩
  · exact .inl ⟨e, around.fails failed, plain.fails (by rwa [s.unlimited_sections])⟩
  · obtain ⟨_, list⟩ := written p rfl
    obtain ⟨items, rest, given, rfl⟩ := Select.sections_list hooks list
    obtain ⟨t, limited⟩ := around.adds written
    obtain ⟨u, unlimited⟩ := plain.adds (by rwa [s.unlimited_sections])
    rw [form] at limited
    rw [s.unlimited_distinct, String.empty_append, String.append_empty] at unlimited
    exact .inr ⟨items, rest, t, u, given, unlimited, limited⟩

/-- **A row limit keeps the rows that it asks for, in whatever form it is written.** On a dialect that supports the
limit of a select, the select ends as it does without the limit. If it is written, it stands there in a form of the
limit around the text that it has without; and of every list of fewer than 2⁶⁴ rows this form keeps the first ones, or
those behind the offset, in order, whatever the numbers of the limit are. -/
theorem select_keeps_rows {d : Dialect} (hd : d ∈ Dialect.all) {s : Select} {l : RowLimit} (hl : s.limit = some l)
    (able : d.supports l.capability = true) (p : Pass) :
    ((Writing.select d s).run p).1 = ((Writing.select d s.unlimited).run p).1
      ∧ (∀ t, (Writing.select d s).run p = (.ok (), t) → ∃ body u,
          (Writing.select d s.unlimited).run p = (.ok (), u) ∧ u.text = p.text ++ plainSelect s.distinct body
            ∧ t.text = p.text ++ (d.limitForm (!s.orderBy.isEmpty) l).text s.distinct body)
      ∧ ∀ {α : Type} (rows : List α), rows.length < 2 ^ 64 →
          (d.limitForm (!s.orderBy.isEmpty) l).keep rows = l.kept rows := by
  refine ⟨?_, fun t ran => ?_, fun rows few => d.keep_limitForm _ l few⟩
  · rcases select_limited hd hl able p with ⟨e, limited, unlimited⟩ | ⟨items, rest, t, u, -, unlimited, limited⟩
    · rw [limited, unlimited]
    · rw [limited.ran, unlimited.ran]
  · rcases select_limited hd hl able p with ⟨e, limited, -⟩ | ⟨items, rest, t', u, -, unlimited, limited⟩
    · rw [ran] at limited
      cases limited
    · obtain rfl : t = t' := (Prod.mk.inj (ran.symm.trans limited.ran)).2
      exact ⟨_, u, unlimited.ran, unlimited.text, limited.text⟩

/-- the orders behind the second, as many as can be counted -/
def ordersBehind : Select :=
  .mk false (some (.range 2 0xffffffffffffffff)) [.field none "id"] [.ofTable "orders"] none [] none []

/-- On Oracle the last row asked for is beyond the numbers of 64 bits, and the rows behind the second are kept. -/
theorem select_keeps_rows_ordersBehind :
    Dialect.oracle ∈ Dialect.all ∧ ordersBehind.limit = some (.range 2 0xffffffffffffffff)
      ∧ Dialect.oracle.supports (RowLimit.range 2 0xffffffffffffffff).capability = true
      ∧ ((Writing.select .oracle ordersBehind).run (Pass.start fun _ _ => .null)).2.text
        = "SELECT * FROM (SELECT q_.*, ROWNUM rn_ FROM (SELECT \"id\" FROM \"orders\") q_ "
          ++ "WHERE ROWNUM <= 18446744073709551615) WHERE rn_ > 2"
      ∧ (Dialect.oracle.limitForm false (.range 2 0xffffffffffffffff)).keep [5, 6, 7, 8] = [7, 8] := by
  have known : Dialect.oracle ∈ Dialect.all := by simp [Dialect.all]
  have able : Dialect.oracle.supports (RowLimit.range 2 0xffffffffffffffff).capability = true := rfl
  obtain ⟨-, -, keeps⟩ := select_keeps_rows known (s := ordersBehind) rfl able (Pass.start fun _ _ => .null)
  exact ⟨known, rfl, able, by decide +kernel, keeps [5, 6, 7, 8] (by decide)⟩

end SqlTree
