/-
Exactly when a query cannot be written.

- `render_fails_iff`: a query that the library gives fails on one of its dialects if and only if it asks for something
  that the dialect cannot give. The error speaks of the first such thing; it never speaks of names or of staged text.
-/
import SqlTree.Proofs.Scanning.Readable
import SqlTree.Proofs.Statement.Given

namespace SqlTree

/-! ## What the dialects of the library refuse -/

namespace Demand

/-- whether a construct is asked for, which dialects have or lack -/
def IsConstruct : Demand → Prop
  | .construct _ _ => True
  | .lastKey | .assignment _ => False

/-- what a dialect of the library cannot give: a construct that it lacks, on Oracle a key without the name of its
sequence, and an assignment to anything but a column -/
def Unmet (d : Dialect) : Demand → Prop
  | .construct needed _ => d.supports needed = false
  | .lastKey => d.name = Dialect.oracle.name
  | .assignment target => target ≠ .field

theorem refusal?_ne_none_iff {d : Dialect} (hd : d ∈ Dialect.all) (x : Demand) : x.refusal? d ≠ none ↔ x.Unmet d := by
  cases x with
  | construct needed context => cases hs : d.supports needed <;> simp [refusal?, Unmet, hs]
  | lastKey =>
    have asked : (lastKey.refusal? d).isSome ↔ d.name = Dialect.oracle.name := by
      refine Dialect.of_mem_all (P := fun d => (lastKey.refusal? d).isSome ↔ d.name = Dialect.oracle.name) ?_ hd
      refine ⟨?_, ?_, ?_, ?_, ?_, ?_⟩ <;> decide
    rw [← Option.isSome_iff_ne_none]
    exact asked
  | assignment target => by_cases ht : target = .field <;> simp [refusal?, Unmet, ht]

/-- What is refused is reported as a missing construct if it is one, and as a fault in writing if it is not. -/
theorem refusal?_eq_some {d : Dialect} {x : Demand} {e : Error} (h : x.refusal? d = some e) :
    (∃ needed context, x = .construct needed context ∧ e = .capability d.name needed context)
      ∨ (x = .lastKey ∧ e = .render d.name .sequenceNeeded)
      ∨ ∃ target, x = .assignment target ∧ e = .render d.name (.notColumn target) := by
  cases x with
  | construct needed context =>
    rw [refusal?] at h
    split at h <;> cases h
    exact .inl ⟨needed, context, rfl, rfl⟩
  | lastKey =>
    rw [refusal?] at h
    split at h <;> cases h
    exact .inr (.inl ⟨rfl, rfl⟩)
  | assignment target =>
    rw [refusal?] at h
    split at h <;> cases h
    exact .inr (.inr ⟨target, rfl, rfl⟩)

end Demand

/-- a fault of names or of staged text, which no statement asks for -/
def RenderFault.IsInternal : RenderFault → Prop
  | .nameInUse _ | .stagingOutsideSelect | .alreadyStaged | .notStaged | .neverFlushed => True
  | .notColumn _ | .sequenceNeeded => False

theorem SelectHooks.Readable.orderly {hooks : SelectHooks} (h : hooks.Readable) : hooks.Orderly := by
  have writes : ∀ (fit : String → Bool) (a : HookAction), a.Writes fit → ∃ t, a = .write t := by
    intro fit a ha
    cases a with
    | write t => exact ⟨t, rfl⟩
    | _ => exact ha.elim
  refine ⟨fun s a ha => writes _ a (h.heading s a ha), fun s a ha => writes _ a (h.trailing s a ha), fun s => ?_⟩
  exact (h.frame s).imp id fun ⟨opening, wrap, _, _, closing, _⟩ => ⟨opening, wrap, closing⟩

/-- **Exactly when rendering fails.** A query that the library gives fails on one of its dialects if and only if it asks
for something that the dialect cannot give. If that is a construct wherever it is, the error names a missing construct;
if it is none wherever it is, the error is one of writing. Names in use and staged text are never its cause. -/
theorem render_fails_iff {d : Dialect} (hd : d ∈ Dialect.all) {q : Query} (given : q.Given) (supply : Supply) :
    ((∃ e, (render d q supply).result = .error e) ↔ ∃ x ∈ q.demands, x.Unmet d)
      ∧ ∀ e, (render d q supply).result = .error e →
        ((∀ x ∈ q.demands, x.Unmet d → x.IsConstruct) → ∃ needed context, e = .capability d.name needed context)
        ∧ ((∀ x ∈ q.demands, x.Unmet d → ¬ x.IsConstruct) → ∃ fault, e = .render d.name fault)
        ∧ ∀ name fault, e = .render name fault → ¬ fault.IsInternal := by
  have outcome := render_eq_refused (Dialect.readable_of_mem hd).hooks.orderly given.regular supply
  rcases hr : q.demands.findSome? (Demand.refusal? d) with _ | e
  · rw [hr] at outcome
    obtain ⟨r, written⟩ := outcome
    have met : ∀ x ∈ q.demands, ¬ x.Unmet d := fun x hx unmet =>
      (Demand.refusal?_ne_none_iff hd x).2 unmet (List.findSome?_eq_none_iff.1 hr x hx)
    constructor
    · constructor
      · rintro ⟨e, failed⟩
        rw [written] at failed
        cases failed
      · rintro ⟨x, hx, unmet⟩
        exact absurd unmet (met x hx)
    · intro e failed
      rw [written] at failed
      cases failed
  · rw [hr] at outcome
    obtain ⟨x, hx, refused⟩ := List.exists_of_findSome?_eq_some hr
    have unmet : x.Unmet d := (Demand.refusal?_ne_none_iff hd x).1 (by simp [refused])
    refine ⟨⟨fun _ => ⟨x, hx, unmet⟩, fun _ => ⟨e, outcome⟩⟩, fun e' failed => ?_⟩
    obtain rfl : e = e' := Except.error.inj (outcome.symm.trans failed)
    rcases Demand.refusal?_eq_some refused with ⟨needed, context, rfl, rfl⟩ | ⟨rfl, rfl⟩ | ⟨target, rfl, rfl⟩
    · refine ⟨fun _ => ⟨needed, context, rfl⟩, fun none => absurd trivial (none _ hx unmet), ?_⟩
      rintro name fault ⟨⟩
    · refine ⟨fun all => (all _ hx unmet).elim, fun _ => ⟨_, rfl⟩, ?_⟩
      rintro name fault ⟨⟩
      exact id
    · refine ⟨fun all => (all _ hx unmet).elim, fun _ => ⟨_, rfl⟩, ?_⟩
      rintro name fault ⟨⟩
      exact id

def timeOfDay : Query := .single (.select (.mk false none [.cast (.constant (.int 7)) .time] [] none [] none []))

/-- Where there is no time of day, the only thing asked for is refused as a construct. -/
theorem render_fails_iff_timeOfDay :
    Dialect.oracle ∈ Dialect.all ∧ timeOfDay.Given ∧ (∃ x ∈ timeOfDay.demands, x.Unmet .oracle)
      ∧ ∀ supply, ∃ needed context, (render .oracle timeOfDay supply).result
          = .error (.capability "oracle" needed context) := by
  have known : Dialect.oracle ∈ Dialect.all := by simp [Dialect.all]
  have built : SelectDraft.build [.expr (.cast (.constant (.int 7)) .time)]
      = .ok (.mk false none [.cast (.constant (.int 7)) .time] [] none [] none []) := rfl
  have unmet : ∃ x ∈ timeOfDay.demands, x.Unmet .oracle := ⟨.construct (.dataType .time) "column type", by decide, rfl⟩
  refine ⟨known, .select built, unmet, fun supply => ?_⟩
  obtain ⟨fails, kinds⟩ := render_fails_iff known (.select built) supply
  obtain ⟨e, failed⟩ := fails.2 unmet
  obtain ⟨needed, context, rfl⟩ := (kinds e failed).1 (by simp [Query.demands, Statement.demands, Select.demands,
    Clause.demandsAll, Clause.demandsOption, Clause.demands, Demand.IsConstruct])
  exact ⟨needed, context, failed⟩

end SqlTree
