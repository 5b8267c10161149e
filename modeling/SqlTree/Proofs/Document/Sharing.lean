/-
Parameters that several places of a document share.

The writer knows which parameters it has written, the reader which it has read, and both number them in the order of
their first places. `Synced` says that the two know the same; every writer with its reader keeps it.

- `Survives`: the reader reads what the writer wrote, and the two stay in step.
- `Survives.both`: what is written part by part survives if its parts do.
- `Survives.param`: a parameter survives as its copy, however often it occurs.
-/
import SqlTree.Document.Decoding
import SqlTree.Document.Encoding
import SqlTree.Proofs.DataType.Tag
import SqlTree.Proofs.Document.Word
import SqlTree.Proofs.Statement.Built

namespace SqlTree

/-- a parameter as it comes back from a document: under a number, and with null for what a feed would give -/
def Parameter.copy (n : Nat) (p : Parameter) : Parameter :=
  { p with id := n, source := .fixed (match p.source with | .fixed v => v | .deferred _ => .null) }

/-- how the parameters of two trees are related -/
abbrev ParamRel := Parameter → Parameter → Prop

/-- literals that are equal, and parameters that are related -/
def Likeness.params (R : ParamRel) : Likeness where
  value := Eq
  param := R

/-- parameters that are related to their copies under the numbers of a list -/
def Copied (ps : List Parameter) (R : ParamRel) : Prop := ∀ n p, ps[n]? = some p → R p (p.copy n)

/-- What is written and what is read agree after the parameters `ps`, which are some of `F`: the reader knows their
copies under the numbers that the writer gave them. -/
structure Synced (F ps : List Parameter) (k : KnownParams) : Prop where
  mem : ∀ p ∈ ps, p ∈ F
  distinct : (ps.map Parameter.id).Nodup
  next : k.nextId = ps.length
  found : ∀ n, k.byRef.find? (Decimal.ofNat (n + 1)) = ps[n]?.map (Parameter.copy n)

variable {F : List Parameter} {α β γ δ : Type}

/-- From agreement on, what `write` gives is read by `read`, and they agree after it; what is read is related to what
was written by every relation of parameters that holds of the copies known by then. -/
def Survives (F : List Parameter) (write : Encoding α) (read : α → Decoding β) (related : ParamRel → β → Prop) : Prop :=
  ∀ ps k, Synced F ps k → ∃ a b ps' k', write.run (ps.map Parameter.id) = pure (a, ps'.map Parameter.id)
    ∧ (read a).run k = .ok (b, k') ∧ Synced F ps' k' ∧ ps <+: ps' ∧ ∀ R, Copied ps' R → related R b

theorem Copied.of_prefix {ps ps' : List Parameter} {R : ParamRel} (h : Copied ps' R) (begins : ps <+: ps') :
    Copied ps R := by
  intro n p hn
  obtain ⟨rest, rfl⟩ := begins
  refine h n p ?_
  rw [List.getElem?_append_left (List.getElem?_eq_some_iff.1 hn).1, hn]

namespace Decoding

theorem run_bind {r : Decoding α} {f : α → Decoding β} {k k' : KnownParams} {a : α} (h : r.run k = .ok (a, k')) :
    (r >>= f).run k = (f a).run k' := by
  rw [StateT.run_bind, h]
  rfl

theorem run_bind_eq_ok {r : Decoding α} {f : α → Decoding β} {k k'' : KnownParams} {b : β}
    (h : (r >>= f).run k = .ok (b, k'')) : ∃ a k', r.run k = .ok (a, k') ∧ (f a).run k' = .ok (b, k'') := by
  rw [StateT.run_bind] at h
  rcases hr : r.run k with e | ⟨a, k'⟩
  · rw [hr] at h
    cases h
  · rw [hr] at h
    exact ⟨a, k', rfl, h⟩

theorem run_map {r : Decoding α} {f : α → β} {k k' : KnownParams} {a : α} (h : r.run k = .ok (a, k')) :
    (do let a ← r; return f a : Decoding β).run k = .ok (f a, k') :=
  run_bind h

@[simp] theorem ofResult_ok_bind (a : α) (f : α → Decoding β) : ofResult (.ok a) >>= f = f a := rfl

theorem run_ofResult {r : Result α} {f : α → Decoding β} {k : KnownParams} {a : α} (h : r = .ok a) :
    (ofResult r >>= f).run k = (f a).run k := by
  subst h
  rfl

end Decoding

namespace Survives

theorem of_pure {a : α} {read : α → Decoding β} {related : ParamRel → β → Prop} {b : β}
    (hread : ∀ k, (read a).run k = .ok (b, k)) (h : ∀ R, related R b) :
    Survives F (return a) read related :=
  fun ps k synced => ⟨a, b, ps, k, rfl, hread k, synced, List.prefix_rfl, fun R _ => h R⟩

/-- What survives one reader survives another that does what the first does and goes on from there. -/
theorem imp {write : Encoding α} {read : α → Decoding β} {related : ParamRel → β → Prop}
    (h : Survives F write read related) (read' : α → Decoding γ) (related' : ParamRel → γ → Prop)
    (step : ∀ a b k k', (read a).run k = .ok (b, k') → (∃ R, related R b) →
      ∃ c, (read' a).run k = .ok (c, k') ∧ ∀ R, related R b → related' R c) : Survives F write read' related' := by
  intro ps k synced
  obtain ⟨a, b, ps', k', hw, hr, synced', begins, hb⟩ := h ps k synced
  obtain ⟨c, hc, hrel⟩ := step a b k k' hr ⟨fun _ _ => True, hb _ fun _ _ _ => trivial⟩
  exact ⟨a, c, ps', k', hw, hc, synced', begins, fun R hR => hrel R (hb R hR)⟩

/-- What is read through the shape it is given survives in that shape. -/
theorem shaped {write : Encoding α} {shape : α → γ} {read : γ → Decoding β} {related : ParamRel → β → Prop}
    (h : Survives F write (fun a => read (shape a)) related) :
    Survives F (do let a ← write; return shape a) read related := by
  intro ps k synced
  obtain ⟨a, b, ps', k', hw, hr, rest⟩ := h ps k synced
  refine ⟨shape a, b, ps', k', ?_, hr, rest⟩
  rw [StateT.run_bind, hw]
  rfl

theorem both {write : Encoding α} {read : α → Decoding β} {related : ParamRel → β → Prop}
    (h : Survives F write read related) {write' : Encoding γ} {read' : γ → Decoding δ}
    {related' : ParamRel → δ → Prop} (h' : Survives F write' read' related') :
    Survives F (do let a ← write; let c ← write'; return (a, c))
      (fun a => do let b ← read a.1; let d ← read' a.2; return (b, d))
      (fun R b => related R b.1 ∧ related' R b.2) := by
  intro ps k synced
  obtain ⟨a, b, ps₁, k₁, hw, hr, synced₁, begins, hb⟩ := h ps k synced
  obtain ⟨c, d, ps₂, k₂, hw', hr', synced₂, begins', hd⟩ := h' ps₁ k₁ synced₁
  refine ⟨(a, c), (b, d), ps₂, k₂, ?_, ?_, synced₂, begins.trans begins', fun R hR =>
    ⟨hb R (hR.of_prefix begins'), hd R hR⟩⟩
  · rw [StateT.run_bind, hw, pure_bind, StateT.run_bind, hw']
    rfl
  · rw [Decoding.run_bind hr, Decoding.run_map hr']

end Survives

/-! ## Parameters -/

namespace Synced

variable {ps : List Parameter} {k : KnownParams} {p : Parameter}

theorem start (F : List Parameter) : Synced F [] {} where
  mem _ hp := absurd hp List.not_mem_nil
  distinct := List.nodup_nil
  next := rfl
  found n := by rw [List.getElem?_nil, Option.map_none]; rfl

theorem add (h : Synced F ps k) (hp : p ∈ F) (hnew : p.id ∉ ps.map Parameter.id) :
    Synced F (ps ++ [p])
      ⟨k.byRef.insert (Decimal.ofNat (ps.length + 1)) (p.copy k.nextId), k.nextId + 1⟩ where
  mem q hq := by
    rcases List.mem_append.1 hq with hq | hq
    · exact h.mem q hq
    · rwa [List.mem_singleton.1 hq]
  distinct := by
    rw [List.map_append, List.map_singleton, List.nodup_append]
    refine ⟨h.distinct, List.pairwise_singleton _ _, fun a ha b hb => ?_⟩
    rw [List.mem_singleton.1 hb]
    rintro rfl
    exact hnew ha
  next := by rw [h.next, List.length_append, List.length_singleton]
  found n := by
    by_cases hn : n = ps.length
    · subst hn
      rw [Keyed.find?_insert_self, List.getElem?_concat_length, Option.map_some, h.next]
    · have other : Decimal.ofNat (n + 1) ≠ Decimal.ofNat (ps.length + 1) := fun he =>
        hn (Nat.succ.inj (Decimal.ofNat_injective he))
      rw [Keyed.find?_insert_of_ne other, h.found]
      by_cases hl : n < ps.length
      · rw [List.getElem?_append_left hl]
      · rw [List.getElem?_eq_none (by omega), List.getElem?_eq_none (by simp; omega)]

end Synced

def Encoding.numbered (n : Nat) : Element :=
  { name := ClauseKind.param.name, attrs := [("ref", Decimal.ofNat (n + 1))] }

namespace Encoding

variable {ps : List Parameter} {p : Parameter} {known : List Nat}

theorem run_param_known {n : Nat} (h : known.idxOf? p.id = some n) :
    (param p).run known = pure (numbered n, known) := by
  simp only [param, reference, StateT.run_bind, StateT.run_get, pure_bind, h]
  rfl

theorem run_param_new (h : known.idxOf? p.id = none) :
    (param p).run known = pure (described (numbered known.length) p, known ++ [p.id]) := by
  simp only [param, reference, StateT.run_bind, StateT.run_get, pure_bind, h]
  rfl

theorem attr?_numbered (n : Nat) (key : String) :
    (numbered n).attr? key = if key = "ref" then some (Decimal.ofNat (n + 1)) else none :=
  Element.attr?_single ..

end Encoding

namespace Decoding

theorem describedParam_eq (n id : Nat) (p : Parameter) :
    describedParam (Encoding.described (Encoding.numbered n) p) id = .ok (p.copy id) := by
  obtain ⟨own, name, type, direction, source⟩ := p
  generalize he : Encoding.described (Encoding.numbered n) ⟨own, name, type, direction, source⟩ = e
  have hname : e.attr? "name" = name := by
    subst he
    cases source <;> cases direction <;> simp [Encoding.described, Encoding.attr?_numbered]
  have htype : e.allowed "type" DataType.ofTag? = .ok type := by
    refine Element.allowed_eq DataType.ofTag?_tag ?_
    subst he
    cases source <;> cases direction <;> simp [Encoding.described, Encoding.attr?_numbered]
  have hdirection : e.allowed "direction" Direction.ofName?
      = .ok (if direction = .input then none else some direction) := by
    refine Element.allowed_eq Direction.ofName?_name ?_
    subst he
    cases source <;> cases direction <;> simp [Encoding.described, Encoding.attr?_numbered]
  have given : (if direction = .input then none else some direction).getD .input = direction := by
    cases direction <;> rfl
  unfold describedParam
  rw [hdirection, htype, hname]
  cases source with
  | fixed v =>
    have hdeferred : e.flag "deferred" = .ok false := by
      refine Element.flag_eq ?_
      subst he
      cases direction <;> simp [Encoding.described, Encoding.attr?_numbered]
    have hvalue : e.value = .ok v := by
      refine Element.value_eq ?_ ?_ <;> subst he <;> cases direction <;>
        simp [Encoding.described, Encoding.attr?_numbered]
    rw [hdeferred, hvalue]
    show Except.ok (Parameter.mk id name type _ (.fixed v)) = _
    rw [given]
    rfl
  | deferred feed =>
    have hdeferred : e.flag "deferred" = .ok true := by
      refine Element.flag_eq ?_
      subst he
      cases direction <;> simp [Encoding.described]
    rw [hdeferred]
    show Except.ok (Parameter.mk id name type _ (.fixed .null)) = _
    rw [given]
    rfl

/-- An element that gives a value, or that says there is none to give, describes a parameter. -/
theorem isNone_described (n : Nat) (p : Parameter) :
    (((Encoding.described (Encoding.numbered n) p).attr? "kind").isNone
      && ((Encoding.described (Encoding.numbered n) p).attr? "deferred").isNone) = false := by
  obtain ⟨own, name, type, direction, source⟩ := p
  cases source <;> cases direction <;> simp [Encoding.described]

theorem described_name (n : Nat) (p : Parameter) :
    (Encoding.described (Encoding.numbered n) p).name = ClauseKind.param.name := by
  obtain ⟨own, name, type, direction, source⟩ := p
  cases source <;> cases direction <;> simp [Encoding.described, Encoding.numbered]

theorem require_ref (n : Nat) (p : Parameter) :
    (Encoding.described (Encoding.numbered n) p).require "ref" = .ok (Decimal.ofNat (n + 1)) := by
  refine Element.require_eq ?_
  obtain ⟨own, name, type, direction, source⟩ := p
  cases source <;> cases direction <;> simp [Encoding.described, Encoding.attr?_numbered]

variable {k : KnownParams} {p : Parameter} {n : Nat}

theorem run_param_known {e : Element} (href : e.require "ref" = .ok (Decimal.ofNat (n + 1)))
    (h : k.byRef.find? (Decimal.ofNat (n + 1)) = some p) : (param e).run k = .ok (p, k) := by
  unfold param
  rw [run_ofResult href, StateT.run_bind, StateT.run_get, pure_bind]
  dsimp only
  rw [h]
  rfl

theorem run_param_new (h : k.byRef.find? (Decimal.ofNat (n + 1)) = none) :
    (param (Encoding.described (Encoding.numbered n) p)).run k
      = .ok (p.copy k.nextId, ⟨k.byRef.insert (Decimal.ofNat (n + 1)) (p.copy k.nextId), k.nextId + 1⟩) := by
  unfold param
  rw [run_ofResult (require_ref n p), StateT.run_bind, StateT.run_get, pure_bind]
  dsimp only
  rw [h]
  dsimp only
  rw [isNone_described, if_neg Bool.false_ne_true]
  show StateT.run (ofResult _ >>= _) k = _
  rw [run_ofResult (describedParam_eq n k.nextId p)]
  rfl

end Decoding

theorem Decoding.clause_param {e : Element} (hn : e.name = ClauseKind.param.name) {k k' : KnownParams} {p : Parameter}
    (h : (Decoding.param e).run k = .ok (p, k')) : (Decoding.clause .standard e).run k = .ok (.param p, k') := by
  obtain ⟨name, attrs, children⟩ := e
  obtain rfl : name = _ := hn
  rw [Decoding.clause, Registry.standard_clause]
  exact run_map h

/-- **A parameter survives as its copy**, at its first place and at every other. -/
theorem Survives.param {p : Parameter} (coherent : Coherent F) (hp : p ∈ F) :
    Survives F (Encoding.param p) (Decoding.clause .standard)
      fun R c => (Clause.param p).Like (.params R) c := by
  intro ps k synced
  cases hi : (ps.map Parameter.id).idxOf? p.id with
  | none =>
    have hnew : p.id ∉ ps.map Parameter.id := List.idxOf?_eq_none_iff.1 hi
    have unknown : k.byRef.find? (Decimal.ofNat (ps.length + 1)) = none := by
      rw [synced.found, List.getElem?_eq_none (Nat.le_refl _), Option.map_none]
    have written := Encoding.run_param_new hi
    rw [List.length_map] at written
    refine ⟨_, _, ps ++ [p], _, ?_, Decoding.clause_param ?_ (Decoding.run_param_new (p := p) unknown), ?_,
      List.prefix_append _ _, ?_⟩
    · rw [written, List.map_append, List.map_singleton]
    · exact Decoding.described_name _ p
    · exact synced.add hp hnew
    · intro R hR
      show (Clause.param p).Like _ _
      rw [Clause.Like, synced.next]
      exact ⟨_, rfl, hR ps.length p (List.getElem?_concat_length ..)⟩
  | some n =>
    obtain ⟨hn, same, -⟩ := List.idxOf?_eq_some_iff.1 hi
    rw [List.length_map] at hn
    rw [List.getElem_map] at same
    have here : ps[n] = p := coherent _ (synced.mem _ (List.getElem_mem hn)) _ hp same
    have found : ps[n]? = some p := by rw [List.getElem?_eq_getElem hn, here]
    have ref : (Encoding.numbered n).require "ref" = .ok (Decimal.ofNat (n + 1)) :=
      Element.require_eq (by simp [Encoding.attr?_numbered])
    have known : k.byRef.find? (Decimal.ofNat (n + 1)) = some (p.copy n) := by rw [synced.found, found, Option.map_some]
    refine ⟨_, _, ps, k, Encoding.run_param_known hi, Decoding.clause_param rfl (Decoding.run_param_known ref known),
      synced, List.prefix_rfl, fun R hR => ?_⟩
    show (Clause.param p).Like _ _
    rw [Clause.Like]
    exact ⟨_, rfl, hR n p found⟩

end SqlTree
