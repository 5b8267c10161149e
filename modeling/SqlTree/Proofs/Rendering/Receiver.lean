/-
The parameter that receives the result of a call.

A call registers it as a result, but a parameter that is registered already keeps the direction it has. So it is bound
as a result unless it occurs before: in an earlier statement of a script, or among the arguments of the call itself
where these are written before the result is registered.

- `render_binds_receiver`: what the parameter is bound as, whatever else occurs in the query.
- `receiver_bound_as_argument`: a parameter that a routine both takes and returns.
-/
import SqlTree.Dialect.Catalogue
import SqlTree.Proofs.Rendering.First

namespace SqlTree

/-- whether the parameter that receives the result of a call has a placeholder -/
def Dialect.placesResults (d : Dialect) : Bool :=
  match d.calls with
  | .call => false
  | .exec | .block => true

namespace Exec

/-- what a call registers before the parameter that receives its result -/
def ahead (d : Dialect) (e : Exec) : List Occurrence :=
  if d.placesResults then [] else Clause.occurrencesAll e.args

/-- where a parameter occurs before a call registers it for its result, behind earlier statements -/
def earlier? (d : Dialect) (before : List Statement) (e : Exec) (p : Parameter) : Option Occurrence :=
  (before.flatMap (Statement.occurrences d) ++ e.ahead d).find? (Occurrence.isOf d (p.key d))

/-- A call registers the parameter for its result behind what is ahead of it. -/
theorem occurrences_ahead (d : Dialect) {e : Exec} {p : Parameter} (hp : e.returns = some p) :
    ∃ rest, (Statement.exec e).occurrences d = e.ahead d ++ .param p .result d.placesResults :: rest := by
  have receiver : ∀ placed, e.receiver placed = [.param p .result placed] := fun placed => by rw [receiver, hp]; rfl
  rw [Statement.occurrences, ahead, Dialect.placesResults]
  cases d.calls with
  | call => exact ⟨[], by simp [receiver]⟩
  | exec | block => exact ⟨Clause.occurrencesAll e.args, by simp [receiver]⟩

end Exec

/-- **A result is bound as one, unless its parameter occurs before.** The parameter that receives the result of a call
has a number in the rendering. What is bound there is bound for an earlier occurrence of the parameter, if there is
one, and for the result otherwise; so it is bound as a result if and only if no earlier occurrence goes another way. -/
theorem render_binds_receiver {d : Dialect} {q : Query} {supply : Supply} {r : Rendered}
    (h : (render d q supply).result = .ok r) {before after : List Statement} {e : Exec} {p : Parameter}
    (he : q.statements = before ++ .exec e :: after) (hp : e.returns = some p) :
    ∃ n b, q.numberOf? d (p.key d) = some n ∧ r.params[n]? = some b
      ∧ b.From supply ((firstOccurrences d (q.occurrences d)).take n)
        ((e.earlier? d before p).getD (.param p .result d.placesResults))
      ∧ (b.direction = .result ↔ ∀ o ∈ e.earlier? d before p, o.direction = .result) := by
  obtain ⟨rest, own⟩ := e.occurrences_ahead d hp
  have occurrences : q.occurrences d = (before.flatMap (Statement.occurrences d) ++ e.ahead d)
      ++ .param p .result d.placesResults :: (rest ++ after.flatMap (Statement.occurrences d)) := by
    rw [Query.occurrences, he, List.flatMap_append, List.flatMap_cons, own]
    simp only [List.append_assoc, List.cons_append]
  have first : q.firstOf? d (p.key d) = some ((e.earlier? d before p).getD (.param p .result d.placesResults)) := by
    rw [Query.firstOf?, occurrences, List.find?_append, List.find?_cons_of_pos (Occurrence.isOf_iff.2 rfl),
      ← Exec.earlier?]
    cases e.earlier? d before p <;> rfl
  obtain ⟨n, b, number, bound, from_⟩ := render_numberOf h first
  refine ⟨n, b, number, bound, from_, ?_⟩
  rw [from_.direction]
  rcases e.earlier? d before p with _ | o
  · exact ⟨fun _ o ho => (by cases ho), fun _ => rfl⟩
  · exact ⟨fun direction _ ho => Option.some.inj ho ▸ direction, fun all => all o rfl⟩

/-- a call that is given an amount and returns a rounded one into another parameter -/
def roundInto (amount total : Parameter) : Exec := ⟨"billing.round", [.param amount], some total⟩

/-- two calls that return into one parameter -/
def roundTwice : Query :=
  .script [.exec (roundInto (.fixed 0 (.int 7)) (.output 1 .int)),
    .exec (roundInto (.fixed 2 (.int 8)) (.output 1 .int))]

/-- The second call finds the parameter bound as a result. -/
theorem render_binds_receiver_roundTwice :
    ∃ r, ∃ n : Nat, ∃ b : BoundParam, (render .postgres roundTwice fun _ _ => .null).result = .ok r
        ∧ r.params.length = 3
      ∧ r.params[n]? = some b ∧ b.direction = .result := by
  have shown : (render .postgres roundTwice fun _ _ => .null).result.toOption.map (·.params.length) = some 3 := by
    decide +kernel
  rcases hr : (render .postgres roundTwice fun _ _ => .null).result with e | r
  · rw [hr] at shown
    cases shown
  · rw [hr] at shown
    have second : roundTwice.statements = [.exec (roundInto (.fixed 0 (.int 7)) (.output 1 .int))]
      ++ .exec (roundInto (.fixed 2 (.int 8)) (.output 1 .int)) :: [] := rfl
    obtain ⟨n, b, -, bound, -, direction⟩ := render_binds_receiver hr second rfl
    exact ⟨r, n, b, rfl, Option.some.inj shown, bound, direction.2 (by decide)⟩

/-- A parameter that a routine writes to and also returns into is bound as a result only where the call names it for the
result first. -/
theorem receiver_bound_as_argument :
    let directions := fun d => (render d (.single (.exec (roundInto (.output 0 .int) (.output 0 .int))))
      fun _ _ => .null).result.toOption.map (·.params.map BoundParam.direction)
    directions .ansi = some [.output] ∧ directions .postgres = some [.output] ∧ directions .mysql = some [.output]
      ∧ directions .sqlServer = some [.result] ∧ directions .oracle = some [.result] := by
  decide +kernel

end SqlTree
