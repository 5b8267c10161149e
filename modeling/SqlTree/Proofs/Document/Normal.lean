/-
Reading a document puts it into normal form.

A document may be written loosely: several predicates in one container, sort items without a direction, scripts inside
scripts, numbers with zeros in front, any words for references. What is read of it is written in one way only, and
that is read as the same query.

- `Query.ofDocument_normalizes`: writing what was read and reading it again changes nothing.
-/
import SqlTree.Proofs.Document.Learned
import SqlTree.Proofs.Document.Renumbered

namespace SqlTree

/-- **Reading is a normalization.** The query that any document is read as has a document that is read without an error,
as the same query with the same sharing of parameters; that query has the same document again. -/
theorem Query.ofDocument_normalizes {e : Element} {q : Query} (h : Query.ofDocument .standard e = .ok q) :
    ∃ q', Query.ofDocument .standard q.toDocument = .ok q' ∧ q.Recovered q' ∧ q.Same q' ∧ (q' == q) = (q == q)
      ∧ q'.toDocument = q.toDocument := by
  obtain ⟨recordable, coherent, fixed⟩ := Query.ofDocument_recordable h
  obtain ⟨e', q', ps, k, written, read, synced, -, like⟩ :=
    Survives.recordable coherent recordable (fun _ hp => hp) [] {} (Synced.start q.parameters)
  have one : OneToOne (numberedIn ps) := numberedIn_oneToOne synced.distinct
  have copied : ∀ (n : Nat) (p : Parameter), ps[n]? = some p → p.copy n = { p with id := n } := fun n p hn =>
    p.copy_eq (fixed p (synced.mem p (List.mem_of_getElem? hn))) n
  have document : q.toDocument = e' := congrArg (fun r : Id (Element × List Nat) => r.1) written
  have recovered : q.Recovered q' := ⟨numberedIn ps, one, like _ fun n p hn => ⟨⟨p, hn, rfl⟩, rfl⟩⟩
  have same : q.Same q' := like _ copied
  have renumbered : q.Like (.renumbering (numberedIn ps)) q' := like _ fun n p hn => ⟨⟨p, hn, rfl⟩, copied n p hn⟩
  refine ⟨q', ?_, recovered, same, same.beq_eq, renumbered.toDocument_eq one⟩
  rw [document]
  show (·.1) <$> (Decoding.query .standard e').run {} = _
  rw [read]
  rfl

/-- a comparison of a column with the parameter of a word, described by some attributes -/
def looseComparison (column word : String) (described : List (String × String)) : Element :=
  ⟨"compare", [("op", "ne")],
    [⟨"field", [("name", column)], []⟩, ⟨"param", described ++ [("ref", word)], []⟩]⟩

/-- a script inside a script, with two predicates of one parameter in one container and a sort item without direction -/
def looseScript : Element :=
  ⟨"script", [], [⟨"script", [], [⟨"select", [], [
    ⟨"order-by", [], [⟨"field", [("name", "a")], []⟩]⟩,
    ⟨"where", [], [looseComparison "a" "it" [("kind", "int"), ("value", "+007")], looseComparison "b" "it" []]⟩,
    ⟨"from", [], [⟨"table", [("table", "t")], []⟩]⟩]⟩]⟩]⟩

/-- what the loose script says: the rows whose a and whose b differ from one parameter, upward by a -/
def looseSelect : Select :=
  let seven : Clause := .param (.fixed 0 (.int 7))
  .mk false none [] [.ofTable "t"]
    (some (.logic (.compare (.field none "a") .ne seven) .and (.compare (.field none "b") .ne seven))) [] none
    [.order (.field none "a") .ascending]

/-- The loose script is read as a script of one select, whose document is read as that script. -/
theorem ofDocument_normalizes_looseScript :
    Query.ofDocument .standard looseScript = .ok (.script [.select looseSelect])
      ∧ ∃ q', Query.ofDocument .standard (Query.script [.select looseSelect]).toDocument = .ok q'
        ∧ (Query.script [.select looseSelect]).Same q'
        ∧ q'.toDocument = (Query.script [.select looseSelect]).toDocument := by
  have read : Query.ofDocument .standard looseScript = .ok (.script [.select looseSelect]) := rfl
  obtain ⟨q', again, -, same, -, document⟩ := Query.ofDocument_normalizes read
  exact ⟨read, q', again, same, document⟩

end SqlTree
