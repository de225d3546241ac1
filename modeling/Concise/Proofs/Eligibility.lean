import Concise.Proofs.Shortening

/-!
Which properties are simplified.

* `Property.eligible?`: the simplification of a plain property by its key and value; a property of
  another form has none.
* `Property.classify?_eq_shorthand` and `Property.classify?_eq_method`: everything that a
  classification tells about a property. In particular eligibility is an apt choice
  (`apt_eligible?`).
* `Property.shortenedBy_eq_shorthand` and `Property.shortenedBy_eq_method`: what an eligible property
  becomes.
* `Property.eligible?_shortenedBy`: shortening makes a property ineligible that was itself
  simplified, and changes nothing about the others.
-/

namespace Concise

variable {choice : Property → Option Simplification}

/-! ### Classification -/

namespace Key

/-- Whether a key can be written bare, without quotes. -/
def isBare : Key → Bool
  | plain _ => true
  | quoted text => Identifier.isPropertyName text

/-- A key with an identifier gives shorthand exactly if both are the same text, which must not be
the one that sets the prototype. -/
lemma simplification?_reference (key : Key) (name : String) :
    key.simplification? (.reference name) =
      if key.text ≠ prototypeText ∧ key.text = name then some .shorthand else none := by
  unfold simplification?
  by_cases hproto : key.text = prototypeText
  · simp [hproto]
  · by_cases hname : key.text = name <;> simp [hproto, hname]

/-- A key with a function gives a method exactly if the function does not refer to itself and the
key can be written bare. -/
lemma simplification?_function (key : Key) (name : Option Name) (parameters body : Tree) :
    key.simplification? (.function name parameters body) =
      if key.text ≠ prototypeText ∧ Tree.refersToSelf name parameters body = false ∧
          key.isBare = true then
        some .method
      else none := by
  unfold simplification?
  by_cases hproto : key.text = prototypeText
  · simp [hproto]
  · by_cases hself : Tree.refersToSelf name parameters body = true
    · cases key <;> simp [hproto, hself]
    · cases key <;> simp [hproto, hself, isBare]

end Key

namespace Property

/-- A property becomes shorthand if its value is the identifier that its key spells. -/
lemma classify?_eq_shorthand {p : Property} (h : p.classify? = some .shorthand) :
    ∃ key span, p.keyView? = some key ∧ p.value = .reference span key.text ∧
      key.text ≠ Key.prototypeText := by
  simp only [classify?, bind, Option.bind_eq_some_iff] at h
  obtain ⟨key, hkey, value, hvalue, h⟩ := h
  unfold valueView? Value.ofTree? at hvalue
  split at hvalue
  · rename_i span name hname
    cases hvalue
    rw [Key.simplification?_reference] at h
    split_ifs at h with hfits
    exact ⟨key, span, hkey, by rw [hname, hfits.2], hfits.1⟩
  · split_ifs at hvalue
    cases hvalue
    rw [Key.simplification?_function] at h
    split_ifs at h
    cases h
  · cases hvalue

/-- A property becomes a method if its value is a plain function that does not refer to itself; its
key must be one that can be written bare. -/
lemma classify?_eq_method {p : Property} (h : p.classify? = some .method) :
    ∃ key span head typeParameters this parameters returned body, p.keyView? = some key ∧
      p.value = .function span head typeParameters this parameters returned body ∧
      head.isAsync = false ∧ head.isGenerator = false ∧
      Tree.refersToSelf head.name parameters body = false ∧ key.text ≠ Key.prototypeText ∧
      key.isBare = true := by
  simp only [classify?, bind, Option.bind_eq_some_iff] at h
  obtain ⟨key, hkey, value, hvalue, h⟩ := h
  unfold valueView? Value.ofTree? at hvalue
  split at hvalue
  · cases hvalue
    rw [Key.simplification?_reference] at h
    split_ifs at h
    cases h
  · rename_i span head typeParameters this parameters returned body hfunction
    split_ifs at hvalue with hplain
    cases hvalue
    simp only [Bool.or_eq_true, not_or, Bool.not_eq_true] at hplain
    rw [Key.simplification?_function] at h
    split_ifs at h with hfits
    exact ⟨key, span, head, typeParameters, this, parameters, returned, body, hkey, hfunction,
      hplain.1, hplain.2, hfits.2.1, hfits.1, hfits.2.2⟩
  · cases hvalue

/-- What is classified has a view of its key. -/
lemma exists_keyView? {p : Property} {s : Simplification} (h : p.classify? = some s) :
    ∃ key, p.keyView? = some key := by
  simp only [classify?, bind, Option.bind_eq_some_iff] at h
  obtain ⟨key, hkey, -⟩ := h
  exact ⟨key, hkey⟩

/-- What is classified has a leaf as its key, and is not refused. -/
lemma isLeaf_of_classify? {p : Property} {s : Simplification} (h : p.classify? = some s) :
    p.key.IsLeaf ∧ (p.simplified? s).isSome := by
  cases s with
  | shorthand =>
      obtain ⟨key, span, hkey, hvalue, -⟩ := classify?_eq_shorthand h
      exact ⟨Key.isLeaf_of_ofTree? hkey, by simp [simplified?, hvalue]⟩
  | method =>
      obtain ⟨key, _, _, _, _, _, _, _, hkey, hvalue, -⟩ := classify?_eq_method h
      exact ⟨Key.isLeaf_of_ofTree? hkey, by simp [simplified?, hvalue]⟩

end Property

/-! ### Eligible properties -/

/-- What a plain property is not. -/
lemma PropertyForm.isPlain_iff (form : PropertyForm) :
    form.isPlain = true ↔ form.isMethod = false ∧ form.isShorthand = false ∧
      form.isComputed = false ∧ form.isAccessor = false := by
  simp [isPlain, and_assoc]

namespace Property

/-- The simplification of a plain property by its key and value. Properties of another form have
none. -/
def eligible? (p : Property) : Option Simplification :=
  if p.form.isPlain then p.classify? else none

lemma eligible?_eq_some {p : Property} {s : Simplification} :
    p.eligible? = some s ↔ p.form.isPlain ∧ p.classify? = some s := by
  unfold eligible?
  split_ifs with h <;> simp [h]

end Property

/-- Choosing only what is eligible is apt. -/
lemma apt_of_eligible? {ps : List Property}
    (h : ∀ p ∈ ps, ∀ s, choice p = some s → p.eligible? = some s) : Apt choice ps :=
  fun p hp s hs => Property.isLeaf_of_classify? (Property.eligible?_eq_some.mp (h p hp s hs)).2

lemma apt_eligible? (ps : List Property) : Apt Property.eligible? ps :=
  apt_of_eligible? fun _ _ _ h => h

namespace Property

/-- **What becomes of a property with an identifier**: the key is the identifier too, at its
place. -/
lemma shortenedBy_eq_shorthand {p : Property} (h : p.eligible? = some .shorthand) {span : Span}
    {name : String} (hvalue : p.value = .reference span name) :
    p.shortenedBy eligible? = ⟨p.span, { p.form with isShorthand := true },
      .node (.staticName name) span [], .reference span name⟩ := by
  simp [shortenedBy, h, simplifiedBy, simplified?, shortenedInside, hvalue, Tree.shortenedBy]

/-- **What becomes of a property with a function**: the key is without quotes and the function
without a name. -/
lemma shortenedBy_eq_method {p : Property} (h : p.eligible? = some .method) :
    p.shortenedBy eligible? = ⟨p.span, { p.form with isMethod := true }, p.key.unquoted,
      (p.value.shortenedBy eligible?).unnamed⟩ := by
  obtain ⟨key, _, _, _, _, _, _, _, hkey, hvalue, -⟩ :=
    classify?_eq_method (eligible?_eq_some.mp h).2
  simp [shortenedBy, h, simplifiedBy, simplified?, shortenedInside, hvalue, Tree.shortenedBy,
    Tree.unnamed, (Key.isLeaf_of_ofTree? hkey).shortenedBy_eq]

end Property

/-! ### Eligibility after shortening -/

/-- Whether a tree has a view as a key, and which, is not changed by shortening. -/
lemma Key.ofTree?_shortenedBy (t : Tree) : Key.ofTree? (t.shortenedBy choice) = Key.ofTree? t := by
  cases t with
  | node kind span parts =>
      rw [Tree.shortenedBy_node]
      cases parts with
      | nil => rfl
      | cons part parts => simp [Key.ofTree?]
  | reference | property | function => rfl

namespace Property

/-- The classification of a property does not see what is shortened inside it: the key is a leaf,
and the mentions of the function's own name are the same. -/
lemma classify?_shortenedInside {p : Property} (h : Apt choice p.value.properties) :
    (p.shortenedInside choice).classify? = p.classify? := by
  obtain ⟨span, form, key, value⟩ := p
  simp only [classify?, keyView?, valueView?, shortenedInside, Key.ofTree?_shortenedBy]
  cases Key.ofTree? key with
  | none => rfl
  | some key =>
      cases value with
      | reference | property | node => rfl
      | function span head typeParameters this parameters returned body =>
          have hparameters := fun name => Tree.mentions_shortenedBy (t := parameters)
            (h.part (by simp [Tree.parts])) name
          have hbody := fun name => Tree.mentions_shortenedBy (t := body)
            (h.part (by simp [Tree.parts])) name
          have hself : Tree.refersToSelf head.name (parameters.shortenedBy choice)
              (body.shortenedBy choice) = Tree.refersToSelf head.name parameters body := by
            cases hname : head.name with
            | none => rfl
            | some name => simp only [Tree.refersToSelf, hparameters, hbody]
          simp only [Tree.shortenedBy, Value.ofTree?]
          split_ifs with hplain
          · rfl
          · simp [Key.simplification?_function, hself]

/-- What has been simplified is not plain any more. -/
lemma isPlain_simplifiedBy {p : Property} {s : Simplification} (h : (p.simplified? s).isSome) :
    (p.simplifiedBy (some s)).form.isPlain = false := by
  obtain ⟨q, hq⟩ := Option.isSome_iff_exists.mp h
  have hform : q.form.isPlain = false := by
    unfold simplified? at hq
    split at hq <;> split at hq <;> cases hq <;> simp [PropertyForm.isPlain]
  rwa [simplifiedBy, hq]

lemma isPlain_shortenedBy {p : Property} (h : Apt choice p.tree.properties) :
    (p.shortenedBy choice).form.isPlain = (p.form.isPlain && (choice p).isNone) := by
  cases hp : choice p with
  | none =>
      rw [shortenedBy_of_eq_none hp, Option.isNone_none, Bool.and_true]
      rfl
  | some s =>
      have hsome : ((p.shortenedInside choice).simplified? s).isSome := by
        rw [isSome_simplified?_shortenedInside]
        exact (h p p.mem_properties s hp).2
      rw [shortenedBy, hp, isPlain_simplifiedBy hsome, Option.isNone_some, Bool.and_false]

/-- **Shortening and eligibility**: a property that was itself simplified is not eligible any more;
every other one is eligible as before. -/
lemma eligible?_shortenedBy {p : Property} (h : Apt choice p.tree.properties) :
    (p.shortenedBy choice).eligible? = if (choice p).isSome then none else p.eligible? := by
  rw [eligible?, isPlain_shortenedBy h]
  cases hp : choice p with
  | none =>
      have hvalue : Apt choice p.value.properties := h.part p.value_mem_parts
      simp [shortenedBy_of_eq_none hp, classify?_shortenedInside hvalue, eligible?]
  | some s => simp

/-- The candidate that a property becomes is the same afterwards, unless it was itself
simplified. -/
lemma candidate_shortenedBy {p : Property} (h : choice p = none) (s : Simplification) :
    (p.shortenedBy choice).candidate s = p.candidate s := by
  simp [shortenedBy_of_eq_none h, candidate, keyView?, shortenedInside, Key.ofTree?_shortenedBy]

end Property

end Concise
