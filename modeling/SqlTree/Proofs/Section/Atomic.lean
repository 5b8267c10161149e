/-
An operation on a section that fails changes nothing, and none loses an item.

Aliases and arithmetic take the current item out of the section while they make another one of it, and a connective
takes the predicate out. What is out is never left out: what could fail has been looked at before.

- `Section.Step.inBounds`: the place of the current item stays that of an item.
- `Section.Step.keeps`: an operation leaves every item where it is, as it was or within what is made of it.
- `Section.outcome_atomic`: whatever has been done to a section, an operation that fails leaves it exactly as it was.
-/
import SqlTree.Proofs.Section.Refill
import Mathlib.Logic.Relation

namespace SqlTree

/-- what an operation may make of an item: it stays, a predicate is joined onto it, or it is given an alias or extended
by arithmetic -/
inductive Clause.Kept (c : Clause) : Clause → Prop
  | same : Kept c c
  | joined (op : Connective) (predicate : Clause) : Kept c (.logic c op predicate)
  | named (name : String) : Kept c (.aliased c name)
  | extended (op : Arithmetic) (operand : Clause) :
    Kept c (Section.withArithmeticPart c (.calc (Section.arithmeticPart c) op operand))

namespace Section

/-- the place of the current item is that of an item -/
def InBounds (s : Section) : Prop := ∀ i, s.cursor = some i → i < s.items.length

/-- at the place of every item of one section another has something that the item is related to -/
def KeepsItems (R : Clause → Clause → Prop) (s t : Section) : Prop :=
  ∀ (i : Nat) (c : Clause), s.items[i]? = some c → ∃ c', t.items[i]? = some c' ∧ R c c'

variable {s t : Section} {e : SectionEdit} {c : Clause}

theorem inBounds_empty (kind : SectionKind) : (empty kind).InBounds := by
  intro i here
  cases here

theorem inBounds_joinOn (s : Section) (op : Connective) (c : Clause) : (s.joinOn op c).InBounds := by
  intro i here
  obtain rfl : 0 = i := Option.some.inj here
  simp [joinOn]

theorem inBounds_append (s : Section) (c : Clause) : (s.append c).InBounds := by
  intro i here
  obtain rfl : s.items.length = i := Option.some.inj here
  simp [append]

/-- **The place of the current item stays that of an item**: an item may be replaced, but none goes. -/
theorem Step.inBounds (step : Step s e t) (h : s.InBounds) : t.InBounds := by
  cases step with
  | push =>
    rw [taking]
    split
    · exact inBounds_joinOn s _ _
    · exact inBounds_append s _
  | combine => exact inBounds_joinOn s _ _
  | aliasAs | «calc» =>
    intro i here
    simpa using h i here
  | finish =>
    intro i here
    cases here

/-- Joining a predicate on keeps every item, the last one within what is made of it. -/
theorem keepsItems_joinOn (s : Section) (op : Connective) (c : Clause) : KeepsItems Clause.Kept s (s.joinOn op c) := by
  intro i x found
  obtain ⟨hi, rfl⟩ := List.getElem?_eq_some_iff.1 found
  obtain ⟨before, last, items⟩ : ∃ before last, s.items = before ++ [last] :=
    ⟨_, _, (List.dropLast_append_getLast (List.ne_nil_of_length_pos (Nat.zero_lt_of_lt hi))).symm⟩
  simp only [joinOn, items, List.getLast?_concat, List.dropLast_concat] at found ⊢
  rcases Nat.lt_or_ge i before.length with inside | outside
  · exact ⟨_, by rw [List.getElem?_append_left inside] at found ⊢; exact found, .same⟩
  · obtain rfl : i = before.length := by
      rw [items, List.length_append, List.length_singleton] at hi
      omega
    rw [List.getElem?_concat_length] at found ⊢
    exact ⟨_, rfl, Option.some.inj found ▸ .joined op c⟩

theorem keepsItems_append (s : Section) (c : Clause) : KeepsItems Clause.Kept s (s.append c) := fun _ x found =>
  ⟨x, (List.getElem?_append_left (List.getElem?_eq_some_iff.1 found).1).trans found, .same⟩

/-- Replacing an item keeps every item if what comes in its place keeps that one. -/
theorem keepsItems_set {i : Nat} {c' : Clause} (found : s.items[i]? = some c) (kept : c.Kept c') :
    KeepsItems Clause.Kept s { s with items := s.items.set i c' } := by
  intro j x there
  rcases eq_or_ne i j with rfl | apart
  · obtain rfl : c = x := Option.some.inj (found.symm.trans there)
    exact ⟨c', List.getElem?_set_self (List.getElem?_eq_some_iff.1 found).1, kept⟩
  · exact ⟨x, (List.getElem?_set_ne apart).trans there, .same⟩

/-- **No operation loses an item.** -/
theorem Step.keeps (step : Step s e t) : KeepsItems Clause.Kept s t := by
  cases step with
  | push =>
    rw [taking]
    split
    · exact keepsItems_joinOn s _ _
    · exact keepsItems_append s _
  | combine => exact keepsItems_joinOn s _ _
  | @aliasAs name _ _ _ found _ => exact keepsItems_set found (.named name)
  | @«calc» op operand _ _ _ _ found _ _ => exact keepsItems_set found (.extended op operand)
  | finish => exact fun _ c found => ⟨c, found, .same⟩

/-- A run, whatever fails on the way, loses no item either. -/
theorem keepsItems_run (s : Section) (edits : List SectionEdit) :
    KeepsItems (Relation.ReflTransGen Clause.Kept) s (s.run edits) := by
  refine run_keeps (P := KeepsItems (Relation.ReflTransGen Clause.Kept) s) (fun t e u step h i c found => ?_)
    fun _ c found => ⟨c, found, .refl⟩
  obtain ⟨c', found', kept⟩ := h i c found
  obtain ⟨c'', found'', kept'⟩ := step.keeps i c' found'
  exact ⟨c'', found'', kept.tail kept'⟩

theorem inBounds_run (h : s.InBounds) (edits : List SectionEdit) : (s.run edits).InBounds :=
  run_keeps (P := InBounds) (fun _ _ _ => Step.inBounds) h

/-- **A failing operation changes nothing.** In every section that operations lead to, the current item is an item. An
operation that fails there leaves the section exactly as it was; one that succeeds takes its step. Either way every item
is still at its place, or within what the operation made of it, and stays so whatever is done next. -/
theorem outcome_atomic (kind : SectionKind) (edits : List SectionEdit) (e : SectionEdit) :
    ((empty kind).run edits).InBounds
      ∧ (∀ fault t, outcome e ((empty kind).run edits) = (some fault, t) → t = (empty kind).run edits)
      ∧ (∀ t, outcome e ((empty kind).run edits) = (none, t) →
          Step ((empty kind).run edits) e t ∧ KeepsItems Clause.Kept ((empty kind).run edits) t)
      ∧ ∀ more, KeepsItems (Relation.ReflTransGen Clause.Kept) ((empty kind).run edits)
          (((empty kind).run edits).run (e :: more)) := by
  generalize hs : (empty kind).run edits = s
  have bounded : s.InBounds := hs ▸ inBounds_run (inBounds_empty kind) edits
  refine ⟨bounded, ?_⟩
  rcases outcome_cases e s with ⟨u, done, step⟩ | ⟨why, failed⟩
  · rw [done]
    refine ⟨fun _ _ h => ?_, fun t h => ?_, fun more => keepsItems_run s (e :: more)⟩
    · cases h
    · obtain rfl : u = t := (Prod.mk.inj h).2
      exact ⟨step, step.keeps⟩
  · rw [failed]
    refine ⟨fun _ t h => (Prod.mk.inj h).2.symm, fun _ h => ?_, fun more => keepsItems_run s (e :: more)⟩
    cases h

end Section
end SqlTree
