import Mathlib.Data.List.Forall2
import Concise.Proofs.InPlace
import Concise.Proofs.StaticName

/-!
Object literals keep their meaning.

* `Tree.IsRegular`: what the parser promises of a tree.
* `Property.Keeps`: a property has become another one that has the same name and the same value, and
  that sets the prototype exactly if the first one does.
* `Tree.MemberKept`: the same for any member of an object literal.
* `Tree.members_simplify` (**object literals keep their meaning**): every object literal is still
  there after simplification, with as many members in the same order, each of them kept.
-/

namespace Concise

/-! ### Regular trees -/

/-- What the parser promises of a tree: properties have different spans, references are identifier
names, and numbers that stand as keys begin as numbers do. -/
structure Tree.IsRegular (t : Tree) : Prop where
  distinct : t.HasDistinctSpans
  names : ∀ r ∈ t.references, Identifier.isPropertyName r.text = true
  numbers : ∀ p ∈ t.properties, ∀ raw ∈ p.key.numeral?, Numeral.beginsNumber raw = true

namespace Tree

lemma IsRegular.part {t part : Tree} (h : t.IsRegular) (hpart : part ∈ t.parts) :
    part.IsRegular where
  distinct := h.distinct.sublist ((properties_sublist_of_mem_parts hpart).map Property.span)
  names r hr := h.names r (references_subset_of_mem_parts hpart hr)
  numbers p hp := h.numbers p ((properties_sublist_of_mem_parts hpart).subset hp)

/-- The tree at an address is as regular as the whole. -/
lemma IsRegular.at? {path : List Nat} : ∀ {t u : Tree}, t.IsRegular → t.at? path = some u →
    u.IsRegular := by
  induction path with
  | nil =>
      intro t u h hu
      cases hu
      exact h
  | cons index rest ih =>
      intro t u h hu
      obtain ⟨part, hpart, hrest⟩ := Option.bind_eq_some_iff.mp hu
      exact ih (h.part (List.mem_of_getElem? hpart)) hrest

/-- The parts of a regular tree can be simplified by themselves. -/
lemma IsRegular.simplify_part {t part : Tree} (h : t.IsRegular) (hpart : part ∈ t.parts) :
    part.simplify.tree = part.shortenedBy Property.eligible? :=
  simplify_tree (h.part hpart).distinct

end Tree

/-! ### Properties -/

/-- The second property means what the first one does: it defines the same name, or has the same key
if that is to be evaluated; it is of the same kind; it sets the prototype exactly if the first one
does; and its value is the same but for simplifications inside it and for the name of the function
that a method is. -/
structure Property.Keeps (p q : Property) : Prop where
  staticName : q.staticName? = p.staticName?
  key : p.staticName? = none → q.key = p.key.simplify.tree
  accessor : q.form.accessor = p.form.accessor
  computed : q.form.isComputed = p.form.isComputed
  prototype : q.SetsPrototype ↔ p.SetsPrototype
  value : q.value = p.value.simplify.tree ∨
    q.form.isMethod = true ∧ q.value = p.value.simplify.tree.unnamed

namespace Property

variable {p : Property}

/-- The value of a regular property is an identifier name if it is a reference. -/
lemma isPropertyName_of_value (h : p.tree.IsRegular) {span : Span} {name : String}
    (hvalue : p.value = .reference span name) : Identifier.isPropertyName name = true := by
  have hregular := h.part p.value_mem_parts
  rw [hvalue] at hregular
  exact hregular.names ⟨name, span⟩ (by simp [Tree.references])

/-- A regular property that is simplified has a name, the same before and after. -/
lemma exists_staticName? (h : p.tree.IsRegular) {s : Simplification}
    (heligible : p.eligible? = some s) :
    ∃ text, text ≠ Key.prototypeText ∧ p.staticName? = some (.ofText text) ∧
      (p.shortenedBy eligible?).staticName? = some (.ofText text) :=
  staticName?_of_eligible? heligible (fun _ _ => isPropertyName_of_value h)
    (h.numbers p p.mem_properties)

/-- What becomes of the name: nothing, or it belongs to a property that is simplified, which does
not set the prototype before and cannot afterwards. -/
lemma staticName?_shortenedBy (h : p.tree.IsRegular) :
    (p.shortenedBy eligible?).staticName? = p.staticName? ∧
      ((p.shortenedBy eligible?).SetsPrototype ↔ p.SetsPrototype) := by
  cases heligible : p.eligible? with
  | none =>
      have hname : (p.shortenedBy eligible?).staticName? = p.staticName? := by
        rw [shortenedBy_of_eq_none heligible, staticName?, staticName?]
        exact congrArg (ite _ none) (Tree.staticName?_shortenedBy p.key)
      refine ⟨hname, ?_⟩
      rw [SetsPrototype, SetsPrototype, hname, shortenedBy_of_eq_none heligible]
      rfl
  | some s =>
      obtain ⟨text, hproto, hname, hname'⟩ := exists_staticName? h heligible
      have hnot : ∀ {q : Property}, q.staticName? = some (.ofText text) → ¬ q.SetsPrototype := by
        rintro q hq ⟨-, hset⟩
        exact hproto (StaticName.ofText_injective (Option.some.inj (hq.symm.trans hset)))
      exact ⟨hname'.trans hname.symm, iff_of_false (hnot hname') (hnot hname)⟩

/-- A regular property is kept by simplification. -/
lemma keeps_shortenedBy (h : p.tree.IsRegular) : p.Keeps (p.shortenedBy eligible?) := by
  obtain ⟨hname, hproto⟩ := staticName?_shortenedBy h
  have hkey : p.key.simplify.tree = p.key.shortenedBy eligible? :=
    h.simplify_part p.key_mem_parts
  have hvalue : p.value.simplify.tree = p.value.shortenedBy eligible? :=
    h.simplify_part p.value_mem_parts
  obtain ⟨haccessor, hcomputed⟩ := form_simplifiedBy (p.shortenedInside eligible?) p.eligible?
  refine ⟨hname, ?_, haccessor, hcomputed, hproto, ?_⟩
  · intro hnone
    rw [hkey]
    cases heligible : p.eligible? with
    | none => exact congrArg Property.key (shortenedBy_of_eq_none heligible)
    | some s =>
        -- a property that is simplified has a name
        obtain ⟨text, -, hsome, -⟩ := exists_staticName? h heligible
        cases hsome.symm.trans hnone
  · rw [value_shortenedBy, hvalue]
    split_ifs with hmethod
    · refine Or.inr ⟨?_, rfl⟩
      rw [shortenedBy_eq_method hmethod]
    · exact Or.inl rfl

end Property

/-! ### Members -/

namespace Tree

/-- What a member of an object literal becomes: a property one that means the same, and a spread the
same spread with what is inside it simplified. -/
def MemberKept : Tree → Tree → Prop
  | property span form key value, u => ∃ q, u = q.tree ∧ Property.Keeps ⟨span, form, key, value⟩ q
  | node kind span parts, u => u = node kind span (parts.map fun part => part.simplify.tree)
  | t, u => u = t.simplify.tree

lemma memberKept_shortenedBy {t : Tree} (h : t.IsRegular) :
    t.MemberKept (t.shortenedBy Property.eligible?) := by
  cases t with
  | reference span name => exact (simplify_tree h.distinct).symm
  | property span form key value =>
      exact ⟨_, shortenedBy_property span form key value, Property.keeps_shortenedBy h⟩
  | function span head typeParameters this parameters returned body =>
      exact (simplify_tree h.distinct).symm
  | node kind span parts =>
      rw [shortenedBy_node]
      exact congrArg (node kind span)
        (List.map_congr_left fun part hpart => (h.simplify_part hpart).symm)

/-- An object literal becomes an object literal: it is no key of a property that is simplified, and
no function. -/
lemma Becomes.eq_object {ps : List Property} {span : Span} {members : List Tree} {u : Tree}
    (h : Becomes Property.eligible? ps (node .object span members) u) :
    u = node .object span (members.map (shortenedBy Property.eligible?)) := by
  generalize ho : node .object span members = o at h
  cases h with
  | shortened => rw [← ho, shortenedBy_node]
  | @key p hp hsome =>
      obtain ⟨s, hs⟩ := Option.isSome_iff_exists.mp hsome
      obtain ⟨key, hkey⟩ := Property.exists_keyView? (Property.eligible?_eq_some.mp hs).2
      rw [Property.keyView?, ← ho] at hkey
      cases hkey
  | @unnamed p hp hmethod =>
      rw [← ho, shortenedBy_node]
      rfl

/-- **Object literals keep their meaning**: simplifying a regular tree leaves every object literal
at its place, with as many members in the same order, spreads at theirs. Each property defines the
name that it did, is of the kind that it was, sets the prototype exactly if it did, and has the same
value, but for properties simplified inside it and for the name of a function that has become a
method. -/
theorem members_simplify (t : Tree) (h : t.IsRegular) (path : List Nat) (span : Span)
    (members : List Tree) (hat : t.at? path = some (node .object span members)) :
    ∃ members', t.simplify.tree.at? path = some (node .object span members') ∧
      List.Forall₂ MemberKept members members' := by
  obtain ⟨u, hu, hbecomes⟩ := at?_shortenedBy (apt_eligible? t.properties) hat
  refine ⟨members.map (shortenedBy Property.eligible?), ?_, ?_⟩
  · rw [simplify_tree h.distinct, hu, hbecomes.eq_object]
  · rw [List.forall₂_map_right_iff, List.forall₂_same]
    intro member hmember
    exact memberKept_shortenedBy ((h.at? hat).part hmember)

/-- The nested literal keeps its five members: a method whose key was quoted, a spread, a number,
the prototype, and a shorthand. -/
theorem members_nestedLiteral :
    nestedLiteral.IsRegular ∧ ∃ members members',
      nestedLiteral.at? [0, 0] = some (node .object ⟨1, 75⟩ members) ∧ members.length = 5 ∧
      nestedLiteral.simplify.tree.at? [0, 0] = some (node .object ⟨1, 75⟩ members') ∧
      List.Forall₂ MemberKept members members' := by
  have hregular : nestedLiteral.IsRegular := ⟨by decide, by decide, by decide⟩
  obtain ⟨members', hat, hkept⟩ := members_simplify nestedLiteral hregular [0, 0] ⟨1, 75⟩ _ rfl
  exact ⟨hregular, _, members', rfl, rfl, hat, hkept⟩

end Tree

end Concise
