/-
The grammar of type tags.

A tag is the word of a type in any case, with the numbers of the type behind it in parentheses if it has any. Gaps may
stand at the ends and around the parentheses, the commas and the numbers, and numbers may have zeros in front.
`DataType.Tagged` says so without a reader.

- `size?_eq_some_iff`, `precision?_eq_some_iff`: the numbers in parentheses are read exactly where they are written.
- `ofPrefix?_of_word`: the first word that fits is the right one, for no word stands behind one that it begins with.
- `ofTag?_eq_some_iff`: a text is read as a type if and only if it is a tag of this type.
- `DataType.parse_eq_ok_iff`: so every type is read from its own tag, and every capability from its name.
-/
import Mathlib.Data.List.TakeWhile
import SqlTree.DataType.Tag
import SqlTree.Proofs.Text.Decimal

namespace SqlTree.DataType

/-! ## Tags -/

def keyword : DataType → String
  | .bool => "bool"
  | .smallInt => "smallint"
  | .int => "int"
  | .bigInt => "bigint"
  | .real => "real"
  | .double => "double"
  | .decimal _ _ => "decimal"
  | .char _ => "char"
  | .varChar _ => "varchar"
  | .text => "text"
  | .binary _ => "binary"
  | .varBinary _ => "varbinary"
  | .blob => "blob"
  | .date => "date"
  | .time => "time"
  | .timestamp => "timestamp"
  | .guid => "guid"

/-- the numbers of a type: a size of 32 bits, or precision and scale of 8 bits each -/
def numbers : DataType → List Nat
  | .decimal p s => [p.toNat, s.toNat]
  | .char n | .varChar n | .binary n | .varBinary n => [n.toNat]
  | _ => []

def Gap (cs : List Char) : Prop := ∀ c ∈ cs, isGap c

/-- a run of digits and the number it denotes -/
structure Numeral (n : Nat) (ds : List Char) : Prop where
  filled : ds ≠ []
  digits : ∀ c ∈ ds, c.isDigit
  value : Decimal.value ds = n

/-- numbers with commas between them and gaps around each -/
inductive Listed : List Nat → List Char → Prop
  | last {n : Nat} {before ds behind : List Char} (front : Gap before) (numeral : Numeral n ds) (back : Gap behind) :
    Listed [n] (before ++ ds ++ behind)
  | cons {n : Nat} {ns : List Nat} {before ds behind cs : List Char} (front : Gap before) (numeral : Numeral n ds)
    (back : Gap behind) (rest : Listed ns cs) : Listed (n :: ns) (before ++ ds ++ behind ++ ',' :: cs)

/-- numbers in parentheses, or nothing where there are none -/
inductive Enclosed : List Nat → List Char → Prop
  | nothing : Enclosed [] []
  | parentheses {ns : List Nat} {before cs : List Char} (front : Gap before) (listed : Listed ns cs) :
    Enclosed ns (before ++ '(' :: cs ++ [')'])

/-- a text that is a tag of a type -/
def Tagged (t : DataType) (text : List Char) : Prop :=
  ∃ before word enclosed behind, text = before ++ word ++ enclosed ++ behind ∧ Gap before
    ∧ word.map Char.toLower = t.keyword.toList ∧ Enclosed t.numbers enclosed ∧ Gap behind

/-! ## Gaps and numbers -/

theorem not_isGap_of_isDigit {c : Char} (h : c.isDigit) : isGap c = false := by
  cases hg : isGap c with
  | false => rfl
  | true =>
    simp only [isGap, Bool.or_eq_true, beq_iff_eq] at hg
    rcases hg with ((rfl | rfl) | rfl) | rfl <;> exact absurd h (by decide)

/-- A gap in front is dropped whole, if no gap follows it. -/
theorem dropGap_append {gap rest : List Char} (hg : Gap gap) (hr : ∀ c ∈ rest.head?, isGap c = false) :
    dropGap (gap ++ rest) = rest := by
  rw [dropGap, List.dropWhile_append_of_pos hg]
  cases rest with
  | nil => rfl
  | cons c rest => rw [List.dropWhile_cons_of_neg (by rw [hr c rfl]; decide)]

theorem dropGap_cons {c : Char} (hc : isGap c = false) {gap : List Char} (hg : Gap gap) (rest : List Char) :
    dropGap (gap ++ c :: rest) = c :: rest := by
  refine dropGap_append hg ?_
  rintro _ ⟨⟩
  exact hc

theorem exists_gap (cs : List Char) : ∃ gap, Gap gap ∧ cs = gap ++ dropGap cs :=
  ⟨cs.takeWhile isGap, fun _ hc => List.mem_takeWhile_imp hc, List.takeWhile_append_dropWhile.symm⟩

theorem dropGap_eq_nil_iff {cs : List Char} : dropGap cs = [] ↔ Gap cs := by
  rw [dropGap, List.dropWhile_eq_nil_iff, Gap]

theorem Numeral.head {n : Nat} {ds : List Char} (h : Numeral n ds) (rest : List Char) :
    ∀ c ∈ (ds ++ rest).head?, isGap c = false := by
  cases ds with
  | nil => exact absurd rfl h.filled
  | cons d ds =>
    rintro _ ⟨⟩
    exact not_isGap_of_isDigit (h.digits d List.mem_cons_self)

/-- A number is read exactly where a run of digits denotes it and ends. -/
theorem number?_eq_some_iff {bound n : Nat} {cs rest : List Char} :
    number? bound cs = some (n, rest)
      ↔ n < bound ∧ ∃ ds, Numeral n ds ∧ cs = ds ++ rest ∧ ∀ c ∈ rest.head?, c.isDigit = false := by
  constructor
  · intro h
    rw [number?] at h
    dsimp only [Decimal.span] at h
    split at h
    · cases h
    · rename_i read
      simp only [Bool.or_eq_true, List.isEmpty_iff, decide_eq_true_eq, not_or, ge_iff_le, not_le] at read
      cases h
      have digits : ∀ c ∈ cs.takeWhile Char.isDigit, c.isDigit := fun _ hc => List.mem_takeWhile_imp hc
      refine ⟨read.2, _, ⟨read.1, digits, rfl⟩, List.takeWhile_append_dropWhile.symm, ?_⟩
      intro c hc
      have stopped := List.head?_dropWhile_not Char.isDigit cs
      rw [Option.mem_def.1 hc] at stopped
      simpa using stopped
  · rintro ⟨below, ds, ⟨filled, digits, rfl⟩, rfl, stop⟩
    have few : decide (Decimal.value ds ≥ bound) = false := decide_eq_false (by omega)
    have some : ds.isEmpty = false := List.isEmpty_eq_false_iff.2 filled
    rw [number?, Decimal.span_append digits stop]
    dsimp only
    rw [some, few]
    rfl

/-! ## Numbers in parentheses -/

/-- The reader of a number behind a gap, and of a mark behind another one. -/
theorem exists_numeral {bound n : Nat} {cs rest : List Char} {mark : Char}
    (number : number? bound (dropGap cs) = some (n, rest)) {more : List Char} (hm : dropGap rest = mark :: more) :
    ∃ before ds behind, Gap before ∧ Numeral n ds ∧ Gap behind ∧ n < bound
      ∧ cs = before ++ ds ++ behind ++ mark :: more := by
  obtain ⟨below, ds, numeral, text, -⟩ := number?_eq_some_iff.1 number
  obtain ⟨before, front, gap⟩ := exists_gap cs
  obtain ⟨behind, back, gap'⟩ := exists_gap rest
  refine ⟨before, ds, behind, front, numeral, back, below, ?_⟩
  rw [gap, text, gap', hm]
  simp only [List.append_assoc]

theorem number?_append {bound n : Nat} {before ds behind : List Char} {c : Char} (front : Gap before)
    (numeral : Numeral n ds) (back : Gap behind) (below : n < bound) (hc : c.isDigit = false) (rest : List Char) :
    number? bound (dropGap (before ++ ds ++ behind ++ c :: rest)) = some (n, behind ++ c :: rest) := by
  have stop : ∀ x ∈ (behind ++ c :: rest).head?, x.isDigit = false := by
    cases behind with
    | nil =>
      rintro _ ⟨⟩
      exact hc
    | cons x behind =>
      rintro _ ⟨⟩
      cases digit : x.isDigit with
      | false => rfl
      | true => exact absurd (back x List.mem_cons_self) (by rw [not_isGap_of_isDigit digit]; decide)
  rw [List.append_assoc, List.append_assoc, dropGap_append front (numeral.head _)]
  exact number?_eq_some_iff.2 ⟨below, ds, numeral, rfl, stop⟩

/-- **A size is read exactly where it stands in parentheses.** -/
theorem size?_eq_some_iff {n : UInt32} {cs rest : List Char} :
    size? cs = some (n, rest) ↔ ∃ enclosed, Enclosed [n.toNat] enclosed ∧ cs = enclosed ++ rest := by
  constructor
  · intro h
    simp only [size?, Option.bind_eq_bind, Option.bind_eq_some_iff, Text.mark?_eq_some_iff, Prod.exists] at h
    obtain ⟨_, opening, m, _, number, _, closing, ⟨⟩⟩ := h
    obtain ⟨gap, front, text⟩ := exists_gap cs
    obtain ⟨before, ds, behind, front', numeral, back, below, inner⟩ := exists_numeral number closing
    have same : (UInt32.ofNat m).toNat = m := UInt32.toNat_ofNat_of_lt below
    refine ⟨_, .parentheses front (.last front' (same.symm ▸ numeral) back), ?_⟩
    rw [text, opening, inner]
    simp
  · rintro ⟨_, _ | @⟨_, gap, _, front, listed⟩, rfl⟩
    cases listed with
    | last front' numeral back =>
      have number := number?_append front' numeral back n.toNat_lt (c := ')') (by decide) rest
      have closing := dropGap_cons (c := ')') (by decide) back rest
      have opening := dropGap_cons (c := '(') (by decide) front
      simp only [List.append_assoc, List.cons_append, List.nil_append] at number ⊢
      simp [size?, opening, Text.mark?, number, closing]
    | cons _ _ _ rest => cases rest

/-- **Precision and scale are read exactly where they stand in parentheses.** -/
theorem precision?_eq_some_iff {p s : UInt8} {cs rest : List Char} :
    precision? cs = some ((p, s), rest)
      ↔ ∃ enclosed, Enclosed [p.toNat, s.toNat] enclosed ∧ cs = enclosed ++ rest := by
  constructor
  · intro h
    simp only [precision?, Option.bind_eq_bind, Option.bind_eq_some_iff, Text.mark?_eq_some_iff, Prod.exists] at h
    obtain ⟨_, opening, m, _, first, _, comma, k, _, second, _, closing, ⟨⟩⟩ := h
    obtain ⟨gap, front, text⟩ := exists_gap cs
    obtain ⟨before, ds, behind, front', numeral, back, below, inner⟩ := exists_numeral first comma
    obtain ⟨before', ds', behind', front'', numeral', back', below', inner'⟩ := exists_numeral second closing
    have same : (UInt8.ofNat m).toNat = m := UInt8.toNat_ofNat_of_lt below
    have same' : (UInt8.ofNat k).toNat = k := UInt8.toNat_ofNat_of_lt below'
    have listed : Listed [(UInt8.ofNat m).toNat, (UInt8.ofNat k).toNat] _ :=
      .cons front' (same.symm ▸ numeral) back (.last front'' (same'.symm ▸ numeral') back')
    refine ⟨_, .parentheses front listed, ?_⟩
    rw [text, opening, inner, inner']
    simp
  · rintro ⟨_, _ | @⟨_, gap, _, front, listed⟩, rfl⟩
    cases listed with
    | @cons _ _ before ds behind _ front' numeral back listed =>
      cases listed with
      | @last _ before' ds' behind' front'' numeral' back' =>
        have first := number?_append front' numeral back p.toNat_lt (c := ',') (by decide)
          (before' ++ ds' ++ behind' ++ ')' :: rest)
        have second := number?_append front'' numeral' back' s.toNat_lt (c := ')') (by decide) rest
        have comma := dropGap_cons (c := ',') (by decide) back (before' ++ ds' ++ behind' ++ ')' :: rest)
        have closing := dropGap_cons (c := ')') (by decide) back' rest
        have opening := dropGap_cons (c := '(') (by decide) front
        simp only [List.append_assoc, List.cons_append, List.nil_append] at first second comma ⊢
        simp [precision?, opening, Text.mark?, first, comma, second, closing]
      | cons _ _ _ rest => cases rest

/-! ## Words -/

/-- what the word of a type asks for behind it -/
def form : DataType → Form
  | .decimal _ _ => .scaled .decimal
  | .char _ => .sized .char
  | .varChar _ => .sized .varChar
  | .binary _ => .sized .binary
  | .varBinary _ => .sized .varBinary
  | t => .plain t

theorem mem_words (t : DataType) : (t.keyword, t.form) ∈ words := by
  cases t <;> simp [words, keyword, form]

theorem read_form (t : DataType) {enclosed : List Char} (h : Enclosed t.numbers enclosed) (rest : List Char) :
    t.form.read (enclosed ++ rest) = some (t, rest) := by
  have sized : ∀ {n : UInt32}, Enclosed [n.toNat] enclosed → size? (enclosed ++ rest) = some (n, rest) :=
    fun h => size?_eq_some_iff.2 ⟨_, h, rfl⟩
  cases t with
  | decimal p s => simp [form, Form.read, precision?_eq_some_iff.2 ⟨_, h, rfl⟩]
  | char n | varChar n | binary n | varBinary n => simp [form, Form.read, sized h]
  | _ => cases h with
    | nothing => rfl
    | parentheses _ listed => cases listed

/-- what a word asks for gives types of this word -/
def Form.Of (w : String) : Form → Prop
  | .plain type => type.keyword = w ∧ type.numbers = []
  | .sized type => ∀ n, (type n).keyword = w ∧ (type n).numbers = [n.toNat]
  | .scaled type => ∀ p s, (type p s).keyword = w ∧ (type p s).numbers = [p.toNat, s.toNat]

theorem form_of_mem_words : ∀ x ∈ words, x.2.Of x.1 := by
  simp [words, Form.Of, keyword, numbers]

/-- What is read behind a word is a type of this word, with its numbers. -/
theorem Form.Of.read {w : String} {f : Form} (hf : f.Of w) {cs rest : List Char} {t : DataType}
    (h : f.read cs = some (t, rest)) :
    t.keyword = w ∧ ∃ enclosed, Enclosed t.numbers enclosed ∧ cs = enclosed ++ rest := by
  cases f with
  | plain type =>
    cases h
    exact ⟨hf.1, [], hf.2 ▸ .nothing, rfl⟩
  | sized type =>
    simp only [Form.read, Option.map_eq_some_iff, Prod.exists, Prod.mk.injEq] at h
    obtain ⟨n, _, read, rfl, rfl⟩ := h
    exact ⟨(hf n).1, (hf n).2 ▸ size?_eq_some_iff.1 read⟩
  | scaled type =>
    simp only [Form.read, Option.map_eq_some_iff, Prod.exists, Prod.mk.injEq] at h
    obtain ⟨p, s, _, read, rfl, rfl⟩ := h
    exact ⟨(hf p s).1, (hf p s).2 ▸ precision?_eq_some_iff.1 read⟩

theorem word?_eq_some_iff {word cs rest : List Char} :
    word? word cs = some rest ↔ ∃ spelt, spelt.map Char.toLower = word ∧ cs = spelt ++ rest := by
  constructor
  · intro h
    rw [word?] at h
    split at h
    · next same =>
      cases h
      exact ⟨_, same, (List.take_append_drop ..).symm⟩
    · cases h
  · rintro ⟨spelt, rfl, rfl⟩
    simp [word?]

/-- No word stands behind one that it begins with. -/
theorem words_apart : words.Pairwise fun x y => ¬ x.1.toList <+: y.1.toList := by decide +kernel

theorem isLower_of_mem_word : ∀ x ∈ words, ∀ c ∈ x.1.toList, c.isLower := by
  have all : words.all fun x => x.1.toList.all Char.isLower := by decide +kernel
  simpa only [List.all_eq_true] using all

theorem toList_ne_nil_of_mem_words : ∀ x ∈ words, x.1.toList ≠ [] := by decide +kernel

theorem toLower_of_mem_words : ∀ x ∈ words, x.1.toList.map Char.toLower = x.1.toList := by decide +kernel

theorem toLower_of_isGap {c : Char} (h : isGap c ∨ c = '(') : c.toLower.isLower = false := by
  simp only [isGap, Bool.or_eq_true, beq_iff_eq] at h
  rcases h with (((rfl | rfl) | rfl) | rfl) | rfl <;> decide

theorem Enclosed.head {ns : List Nat} {enclosed behind : List Char} (h : Enclosed ns enclosed) (back : Gap behind) :
    ∀ c ∈ (enclosed ++ behind).head?, c.toLower.isLower = false := by
  have gap : ∀ {gap rest : List Char}, Gap gap → (∀ c ∈ rest.head?, c.toLower.isLower = false) →
      ∀ c ∈ (gap ++ rest).head?, c.toLower.isLower = false := by
    intro gap rest hg hr
    cases gap with
    | nil => exact hr
    | cons c gap =>
      rintro _ ⟨⟩
      exact toLower_of_isGap (.inl (hg c List.mem_cons_self))
  cases h with
  | nothing =>
    rw [List.nil_append, ← List.append_nil behind]
    exact gap back nofun
  | @parentheses _ _ cs front _ =>
    simp only [List.append_assoc, List.cons_append]
    refine gap front ?_
    rintro _ ⟨⟩
    decide

/-- A word that fits where another one stands is the front of this one, if no letter stands behind. -/
theorem prefix_of_word? {w other : List Char} (ho : ∀ c ∈ other, c.isLower) {spelt rest rest' : List Char}
    (hs : spelt.map Char.toLower = w) (hr : ∀ c ∈ rest.head?, c.toLower.isLower = false)
    (read : word? other (spelt ++ rest) = some rest') : other <+: w := by
  obtain ⟨spelt', hs', same⟩ := word?_eq_some_iff.1 read
  have lower : w ++ rest.map Char.toLower = other ++ rest'.map Char.toLower := by
    rw [← hs, ← hs', ← List.map_append, ← List.map_append, same]
  rcases List.prefix_or_prefix_of_prefix (lower ▸ List.prefix_append _ _) (List.prefix_append other _) with h | h
  · obtain ⟨_ | ⟨c, more⟩, rfl⟩ := h
    · exact (List.append_nil w).symm ▸ List.prefix_refl w
    · -- what is left of the other word would stand behind the first
      rw [List.append_assoc, List.append_cancel_left_eq] at lower
      cases rest with
      | nil => cases lower
      | cons d rest =>
        have letter := ho c (List.mem_append_right _ List.mem_cons_self)
        have none := hr d rfl
        rw [(List.cons.inj lower).1, letter] at none
        cases none
  · exact h

/-- **The first word that fits is the word that stands there**, with what it asks for behind it. -/
theorem ofPrefix?_of_word {w : String} {f : Form} (hw : (w, f) ∈ words) {spelt rest : List Char}
    (hs : spelt.map Char.toLower = w.toList) (hr : ∀ c ∈ rest.head?, c.toLower.isLower = false)
    {r : DataType × List Char} (read : f.read rest = some r) : ofPrefix? (spelt ++ rest) = some r := by
  obtain ⟨before, behind, split⟩ := List.append_of_mem hw
  have apart := words_apart
  rw [split, List.pairwise_append] at apart
  have skipped : ∀ x ∈ before, (word? x.1.toList (spelt ++ rest)).bind x.2.read = none := by
    intro x hx
    rcases fits : word? x.1.toList (spelt ++ rest) with _ | rest'
    · rfl
    · have lower := isLower_of_mem_word x (split ▸ List.mem_append_left _ hx)
      exact absurd (prefix_of_word? lower hs hr fits) (apart.2.2 x hx _ List.mem_cons_self)
  have here : word? w.toList (spelt ++ rest) = some rest := word?_eq_some_iff.2 ⟨spelt, hs, rfl⟩
  rw [ofPrefix?, split, List.findSome?_append]
  refine (congrArg (Option.or · _) (List.findSome?_eq_none_iff.2 skipped)).trans ?_
  rw [Option.none_or, List.findSome?_cons]
  simp only [here, Option.bind_eq_bind, Option.bind_some, read]

/-! ## Tags are read -/

/-- **A text is read as a type if and only if it is a tag of this type.** -/
theorem ofTag?_eq_some_iff {text : String} {t : DataType} : ofTag? text = some t ↔ t.Tagged text.toList := by
  constructor
  · intro h
    simp only [ofTag?, Option.bind_eq_bind, Option.bind_eq_some_iff, Prod.exists] at h
    obtain ⟨type, rest, first, whole⟩ := h
    split at whole
    · next ended =>
      cases whole
      simp only [ofPrefix?, List.findSome?_eq_some_iff, Prod.exists, Option.bind_eq_bind,
        Option.bind_eq_some_iff] at first
      obtain ⟨before, w, f, behind, split, ⟨cs, fits, read⟩, -⟩ := first
      have among : (w, f) ∈ words := split ▸ List.mem_append_right _ List.mem_cons_self
      obtain ⟨rfl, enclosed, listed, rfl⟩ := (form_of_mem_words _ among).read read
      obtain ⟨spelt, lower, inner⟩ := word?_eq_some_iff.1 fits
      obtain ⟨gap, front, outer⟩ := exists_gap text.toList
      refine ⟨gap, spelt, enclosed, rest, ?_, front, lower, listed, dropGap_eq_nil_iff.1 (List.isEmpty_iff.1 ended)⟩
      rw [outer, inner]
      simp only [List.append_assoc]
    · cases whole
  · rintro ⟨before, spelt, enclosed, behind, whole, front, lower, listed, back⟩
    have letter : ∀ c ∈ (spelt ++ (enclosed ++ behind)).head?, isGap c = false := by
      cases spelt with
      | nil => exact absurd lower.symm (toList_ne_nil_of_mem_words _ t.mem_words)
      | cons c spelt =>
        rintro _ ⟨⟩
        have letter : c.toLower.isLower := isLower_of_mem_word _ t.mem_words _ (lower ▸ List.mem_cons_self)
        cases hg : isGap c with
        | false => rfl
        | true => exact absurd letter (by rw [toLower_of_isGap (.inl hg)]; decide)
    have first := ofPrefix?_of_word t.mem_words lower (listed.head back) (t.read_form listed behind)
    have gapless : dropGap text.toList = spelt ++ (enclosed ++ behind) := by
      rw [whole, List.append_assoc, List.append_assoc, dropGap_append front letter]
    rw [ofTag?, gapless, first]
    simp [dropGap_eq_nil_iff.2 back]

theorem numeral_digits (n : Nat) : Numeral n (Decimal.digits n) :=
  ⟨Decimal.digits_ne_nil n, fun _ => Decimal.isDigit_of_mem_digits, Decimal.value_digits n⟩

theorem gap_nil : Gap [] := nofun

/-- The tag of a type is its word, with its numbers in parentheses behind it. -/
theorem toList_tag (t : DataType) :
    ∃ enclosed, Enclosed t.numbers enclosed ∧ t.tag.toList = t.keyword.toList ++ enclosed := by
  have last : ∀ n, Listed [n] (Decimal.digits n) := fun n => by
    simpa using Listed.last gap_nil (numeral_digits n) gap_nil
  have sized : ∀ (w : String) (n : UInt32),
      ∃ enclosed, Enclosed [n.toNat] enclosed ∧ (sized w n).toList = w.toList ++ enclosed :=
    fun w n => ⟨_, .parentheses gap_nil (last n.toNat), by simp [DataType.sized, Decimal.toList_ofNat]⟩
  cases t with
  | decimal p s =>
    refine ⟨_, .parentheses gap_nil (.cons gap_nil (numeral_digits _) gap_nil (last _)), ?_⟩
    simp [tag, keyword, Decimal.toList_ofNat]
  | char n | varChar n | binary n | varBinary n => exact sized _ n
  | _ => exact ⟨[], .nothing, (List.append_nil _).symm⟩

/-- **Every tag is read back as its type.** -/
theorem ofTag?_tag (t : DataType) : ofTag? t.tag = some t := by
  obtain ⟨enclosed, listed, text⟩ := t.toList_tag
  refine ofTag?_eq_some_iff.2 ⟨[], t.keyword.toList, enclosed, [], ?_, gap_nil, ?_, listed, gap_nil⟩
  · rw [text, List.nil_append, List.append_nil]
  · exact toLower_of_mem_words _ t.mem_words

theorem parse_eq_ok {text : String} {t : DataType} : DataType.parse text = .ok t ↔ ofTag? text = some t := by
  rw [DataType.parse]
  cases ofTag? text <;> simp

end DataType

theorem Capability.parse_name (c : Capability) : Capability.parse c.name = .ok c := by
  cases c with
  | dataType t =>
    have text : (Capability.dataType t).name.toList = typeMark.toList ++ t.tag.toList := by
      rw [Capability.name, String.toList_append]
    have marked : typeTag? (Capability.dataType t).name = some t.tag := by
      simp [typeTag?, text]
    have other : flags.find? (·.name == (Capability.dataType t).name) = none := by
      rw [List.find?_eq_none]
      intro flag hf same
      have first := congrArg (fun name => name.toList.take typeMark.toList.length) (eq_of_beq same)
      simp only [text, List.take_left] at first
      exact absurd first ((by decide +kernel : ∀ flag ∈ flags,
        flag.name.toList.take typeMark.toList.length ≠ typeMark.toList) flag hf)
    rw [Capability.parse, other, marked]
    exact congrArg (Except.map _) (DataType.parse_eq_ok.2 (DataType.ofTag?_tag t))
  | _ => decide +kernel

/-- **A type is read from its tags and from nothing else**, however they are written. So it is from the tag that it is
written with, and every capability from its name. -/
theorem DataType.parse_eq_ok_iff : (∀ text t, DataType.parse text = .ok t ↔ t.Tagged text.toList)
    ∧ (∀ t : DataType, DataType.parse t.tag = .ok t) ∧ ∀ c : Capability, Capability.parse c.name = .ok c :=
  ⟨fun _ _ => parse_eq_ok.trans ofTag?_eq_some_iff, fun t => parse_eq_ok.2 (ofTag?_tag t), Capability.parse_name⟩

/-- Case, gaps and zeros in front do not matter, what a type cannot hold does. -/
example : DataType.ofTag? " VarChar\t( 0255 )\n" = some (.varChar 255)
    ∧ DataType.ofTag? "decimal(10,256)" = none := by
  decide +kernel

end SqlTree
