/-
What stands in an element that was written attribute by attribute.

Each writer of `Element` has one lemma for every part it may change. Readers are answered from them: a mark is read as
it was written, and so is the meaning of a text that some reader gives back.
-/
import SqlTree.Document

namespace SqlTree.Element

variable {e : Element} {key key' : String}

/-! ## Writers -/

section
variable (e) (key) (value : String) (value? : Option String) (holds : Bool) (children : List Element)

@[simp] theorem withAttr_name : (e.withAttr key value).name = e.name := rfl

@[simp] theorem withAttr_children : (e.withAttr key value).children = e.children := rfl

@[simp] theorem withAttr?_name : (e.withAttr? key value?).name = e.name := by cases value? <;> rfl

@[simp] theorem withAttr?_children : (e.withAttr? key value?).children = e.children := by cases value? <;> rfl

@[simp] theorem withFlag_name : (e.withFlag key holds).name = e.name := by cases holds <;> rfl

@[simp] theorem withFlag_children : (e.withFlag key holds).children = e.children := by cases holds <;> rfl

@[simp] theorem withChildren_name : (e.withChildren children).name = e.name := rfl

@[simp] theorem withChildren_children : (e.withChildren children).children = children := rfl

@[simp] theorem attr?_withChildren : (e.withChildren children).attr? key = e.attr? key := rfl

@[simp] theorem attr?_empty (name : String) : attr? { name } key = none := rfl

@[simp] theorem attr?_single (name : String) :
    attr? { name, attrs := [(key', value)] } key = if key = key' then some value else none := by
  simp [attr?, Keyed.find?, eq_comm]

@[simp] theorem attr?_withAttr :
    (e.withAttr key' value).attr? key = if key = key' then some value else e.attr? key := by
  split
  · next h =>
    subst h
    exact Keyed.find?_insert_self key value e.attrs
  · next h => exact Keyed.find?_insert_of_ne h value e.attrs

@[simp] theorem attr?_withAttr? :
    (e.withAttr? key' value?).attr? key = if key = key' then value? <|> e.attr? key else e.attr? key := by
  cases value? with
  | none => simp [withAttr?]
  | some value => rw [withAttr?, attr?_withAttr]; rfl

@[simp] theorem attr?_withFlag :
    (e.withFlag key' holds).attr? key = if key = key' ∧ holds then some "true" else e.attr? key := by
  cases holds <;> simp [withFlag]

/-- An element without children is not changed by giving it none. -/
theorem withChildren_nil (h : e.children = []) : e.withChildren [] = e := by
  cases e
  subst h
  rfl

end

/-! ## Readers -/

theorem require_eq {value : String} (h : e.attr? key = some value) : e.require key = .ok value := by
  rw [require, h]

theorem flag_eq {holds : Bool} (h : e.attr? key = if holds then some "true" else none) : e.flag key = .ok holds := by
  cases holds <;> rw [flag, h] <;> rfl

theorem required_eq {α : Type} {read : String → Option α} {value : String} {a : α} (h : e.attr? key = some value)
    (hread : read value = some a) : e.required key read = .ok a := by
  rw [required, require_eq h]
  show e.meaning key value read = _
  rw [meaning, hread]

theorem allowed_eq {α : Type} {read : String → Option α} {write : α → String} {a : Option α}
    (hread : ∀ a, read (write a) = some a) (h : e.attr? key = a.map write) : e.allowed key read = .ok a := by
  cases a with
  | none => rw [allowed, h]; rfl
  | some a =>
    rw [allowed, h]
    show (e.meaning key (write a) read).map some = _
    rw [meaning, hread]
    rfl

theorem requireChildren_eq {n : Nat} (h : e.children.length = n) : e.requireChildren n = .ok () := if_pos h

end SqlTree.Element
