/-
What an occurrence of a parameter does to a pass.

- `Occurrence.Registers`: the parameter was registered before, or it is registered now, under a generated name or
  under its explicit one.
- `Occurrence.play_outcome`: an occurrence that is played does one of these, or it is refused under its explicit name
  and leaves the pass as it was.
-/
import SqlTree.Proofs.Rendering.Agreement

namespace SqlTree

theorem Pass.index?_enter (d : Dialect) (p : Parameter) (direction : Direction) (name : String) (s : Pass)
    (k : ParamKey) :
    (s.enter d p direction name).index? k = if p.key d = k then some s.params.length else s.index? k := by
  show (((p.key d, s.params.length) :: s.keys).find? (·.1 == k)).map (·.2) = _
  rw [List.find?_cons]
  by_cases hk : p.key d = k
  · simp [hk]
  · simp [beq_eq_false_iff_ne.2 hk, hk, Pass.index?]

namespace Occurrence

/-- what makes occurrences of a parameter the same under a dialect; a literal is like no other -/
def key? (d : Dialect) : Occurrence → Option ParamKey
  | .constant _ => none
  | .param p _ _ => some (p.key d)

def isPlaced : Occurrence → Bool
  | .constant _ => true
  | .param _ _ placed => placed

def param? : Occurrence → Option Parameter
  | .constant _ => none
  | .param p _ _ => some p

def explicitName : Occurrence → Option String
  | .constant _ => none
  | .param p _ _ => p.name

def entered (d : Dialect) (name : String) (s : Pass) : Occurrence → Pass
  | .constant v => s.addParam name ⟨d.boundName name, v.dataType, .input, v, false⟩
  | .param p direction _ => s.enter d p direction name

/-- the pass behind an occurrence that is registered under an index -/
def behind (d : Dialect) (i : Nat) (s : Pass) (o : Occurrence) : Pass := if o.isPlaced then s.placed d i else s

/-- what an occurrence that is written does to a pass -/
inductive Registers (d : Dialect) (o : Occurrence) (s : Pass) : Pass → Prop
  | again {k : ParamKey} {i : Nat} (key : o.key? d = some k) (known : s.index? k = some i) :
    Registers d o s (o.behind d i s)
  | generated (new : ∀ k, o.key? d = some k → s.index? k = none) (unnamed : o.explicitName = none) :
    Registers d o s
      (o.behind d s.params.length (o.entered d (generatedName s.nextNumber) { s with generated := s.nextNumber }))
  | named {name : String} (new : ∀ k, o.key? d = some k → s.index? k = none) (named : o.explicitName = some name)
    (free : d.canonicalName name ∉ s.names) :
    Registers d o s (o.behind d s.params.length (o.entered d (d.canonicalName name) s))

section
variable (d : Dialect) (name : String) (i : Nat) (s : Pass) (o : Occurrence)

@[simp] theorem names_behind : (o.behind d i s).names = s.names := by
  rw [behind]
  split <;> rfl

@[simp] theorem params_behind : (o.behind d i s).params = s.params := by
  rw [behind]
  split <;> rfl

@[simp] theorem keys_behind : (o.behind d i s).keys = s.keys := by
  rw [behind]
  split <;> rfl

@[simp] theorem reserved_behind : (o.behind d i s).reserved = s.reserved := by
  rw [behind]
  split <;> rfl

@[simp] theorem generated_behind : (o.behind d i s).generated = s.generated := by
  rw [behind]
  split <;> rfl

@[simp] theorem produced_behind : (o.behind d i s).produced = s.produced := by
  rw [behind]
  split <;> rfl

@[simp] theorem supply_behind : (o.behind d i s).supply = s.supply := by
  rw [behind]
  split <;> rfl

@[simp] theorem frames_behind : (o.behind d i s).frames = s.frames := by
  rw [behind]
  split <;> rfl

@[simp] theorem index?_behind (k : ParamKey) : (o.behind d i s).index? k = s.index? k := by
  rw [behind]
  split <;> rfl

/-- A placeholder is spelled by the name that its parameter is bound under. -/
theorem text_behind : (o.behind d i s).text
    = s.text ++ if o.isPlaced then d.placeholder i ((s.params[i]?.map BoundParam.name).getD "") else "" := by
  rw [behind]
  split
  · rfl
  · exact String.append_empty.symm

theorem slots_behind : (o.behind d i s).slots = s.slots ++ if o.isPlaced then [i] else [] := by
  rw [behind]
  split
  · rfl
  · exact (List.append_nil _).symm

@[simp] theorem names_entered : (o.entered d name s).names = name :: s.names := by cases o <;> rfl

@[simp] theorem reserved_entered : (o.entered d name s).reserved = s.reserved := by cases o <;> rfl

@[simp] theorem generated_entered : (o.entered d name s).generated = s.generated := by cases o <;> rfl

@[simp] theorem text_entered : (o.entered d name s).text = s.text := by cases o <;> rfl

@[simp] theorem frames_entered : (o.entered d name s).frames = s.frames := by cases o <;> rfl

@[simp] theorem slots_entered : (o.entered d name s).slots = s.slots := by cases o <;> rfl

@[simp] theorem supply_entered : (o.entered d name s).supply = s.supply := by cases o <;> rfl

theorem produced_entered : (o.entered d name s).produced = s.produced ++ o.param?.toList := by
  cases o
  · exact (List.append_nil _).symm
  · rfl

theorem params_entered :
    ∃ b : BoundParam, (o.entered d name s).params = s.params ++ [b] ∧ b.name = d.boundName name := by
  cases o <;> exact ⟨_, rfl, rfl⟩

theorem index?_entered (k : ParamKey) :
    (o.entered d name s).index? k = if o.key? d = some k then some s.params.length else s.index? k := by
  cases o with
  | constant v => rfl
  | param p direction placed => simp only [entered, key?, Pass.index?_enter, Option.some.injEq]

end

theorem key?_of_explicitName {d : Dialect} {o : Occurrence} {name : String} (hn : o.explicitName = some name) :
    o.key? d = some (.named (d.canonicalName name)) := by
  cases o with
  | constant v => cases hn
  | param p direction placed =>
    have named : p.name = some name := hn
    rw [key?, Parameter.key, named]

/-- **The step of registering.** An occurrence was registered before, or is now, or it is refused since another
parameter has its name. -/
theorem play_outcome (d : Dialect) (o : Occurrence) (s : Pass) :
    (∃ t, (o.play d).run s = (.ok (), t) ∧ o.Registers d s t)
      ∨ ∃ name, o.explicitName = some name ∧ d.canonicalName name ∈ s.names
        ∧ s.index? (.named (d.canonicalName name)) = none
        ∧ (o.play d).run s = (.error (.render d.name (.nameInUse (d.canonicalName name))), s) := by
  cases o with
  | constant v => exact .inl ⟨_, run_constant d v s, .generated (fun k hk => by cases hk) rfl⟩
  | param p direction placed =>
    have ends : ∀ {i : Nat} {u : Pass}, (Writing.register d p direction).run s = (.ok i, u) →
        ((param p direction placed).play d).run s = (.ok (), (param p direction placed).behind d i u) := by
      intro i u hu
      rw [play, Writing.run_bind, hu]
      cases placed <;> rfl
    rcases hi : s.index? (p.key d) with _ | i
    · have new : ∀ k, (param p direction placed).key? d = some k → s.index? k = none := fun k hk =>
        Option.some.inj hk ▸ hi
      rcases hn : p.name with _ | name
      · refine .inl ⟨_, ends ?_, .generated new hn⟩
        rw [Writing.run_register, hi, hn]
        rfl
      · by_cases used : d.canonicalName name ∈ s.names
        · refine .inr ⟨name, hn, used, new _ (key?_of_explicitName hn), ?_⟩
          rw [play, Writing.run_bind, Writing.run_register, hi, hn]
          simp only [List.contains_iff_mem.2 used, if_true]
        · refine .inl ⟨_, ends ?_, .named new hn used⟩
          rw [Writing.run_register, hi, hn]
          simp only [List.contains_iff_mem, if_neg used]
          rfl
    · exact .inl ⟨_, ends (by rw [Writing.run_register, hi]), .again rfl hi⟩

section
variable {d : Dialect} {o : Occurrence} {s t : Pass}

theorem play_registers (h : (o.play d).run s = (.ok (), t)) : o.Registers d s t := by
  rcases play_outcome d o s with ⟨t', ran, registers⟩ | ⟨name, -, -, -, refused⟩
  · rw [h] at ran
    cases ran
    exact registers
  · rw [h] at refused
    cases refused

/-- An occurrence that is refused leaves the pass as it was. -/
theorem eq_of_play_error {e : Error} (h : (o.play d).run s = (.error e, t)) : t = s := by
  rcases play_outcome d o s with ⟨t', ran, -⟩ | ⟨name, -, -, -, refused⟩
  · rw [h] at ran
    cases ran
  · rw [h] at refused
    cases refused
    rfl

namespace Registers

theorem frames (h : o.Registers d s t) : t.frames = s.frames := by cases h <;> simp

theorem reserved (h : o.Registers d s t) : t.reserved = s.reserved := by cases h <;> simp

/-- What is written is the placeholder of a slot, if the occurrence has one. -/
theorem written (h : o.Registers d s t) :
    ∃ i name, t.text = s.text ++ (if o.isPlaced then d.placeholder i name else "")
      ∧ t.slots = s.slots ++ if o.isPlaced then [i] else [] := by
  cases h with
  | again key known => exact ⟨_, _, text_behind .., slots_behind ..⟩
  | generated new unnamed => exact ⟨_, _, by rw [text_behind, text_entered], by rw [slots_behind, slots_entered]⟩
  | named new named free => exact ⟨_, _, by rw [text_behind, text_entered], by rw [slots_behind, slots_entered]⟩

end Registers
end

end Occurrence
end SqlTree
