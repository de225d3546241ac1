import Concise.Proofs.Bindings
import Concise.Proofs.ObjectLiterals

/-!
The shape of properties.

A simplification writes the key, the form and the name of the function of a property, each by
itself. That the three still fit together rests on what the classification has ruled out.

* `Property.IsWellShaped`: the parts of a property fit together as they do where it is read from a
  source. `Tree.IsWellShaped`: all properties of a tree do, at every depth.
* `Property.isWellShaped_shortenedBy`: the step, for one property; `shape_of_shorthand` and
  `shape_of_method` are its cases.
* `Tree.isWellShaped_simplify` (**simplification keeps trees well-shaped**), with what the methods
  that it makes look like and what remains of every function.
-/

namespace Concise

/-! ### Well-shaped properties -/

namespace Tree

/-- Whether a tree may be a key that is not computed: a literal, or a bare name that may be one. -/
def isStaticKey : Tree → Bool
  | node (.staticName name) _ [] => Identifier.isPropertyName name
  | node (.string _ _) _ [] => true
  | node (.number _) _ [] => true
  | node (.bigInteger _) _ [] => true
  | _ => false

/-- What a function is apart from its parts, if a tree is one. -/
def functionHead? : Tree → Option FunctionHead
  | function _ head _ _ _ _ _ => some head
  | _ => none

/-- The text and the span of a directive. -/
def directive? : Tree → Option (String × Span)
  | node (.directive raw) span _ => some (raw, span)
  | _ => none

/-- The directives of a body. -/
def directives : Tree → List (String × Span)
  | node _ _ parts => parts.filterMap directive?
  | _ => []

end Tree

/-- The parts of a property fit together. A shorthand is no method, its key is not computed, and key
and value are one name at one place. The value of a method or an accessor is a function without a
name of its own. A key that is not computed is a literal or a bare name. A function that stands as a
value is an expression. -/
structure Property.IsWellShaped (p : Property) : Prop where
  exclusive : p.form.isShorthand = true → p.form.isMethod = false
  shorthand : p.form.isShorthand = true → p.form.isComputed = false ∧ p.form.accessor = .init ∧
    ∃ span name, p.value = .reference span name ∧ p.key = .node (.staticName name) span []
  function : p.form.isMethod = true ∨ p.form.isAccessor = true →
    ∃ head, p.value.functionHead? = some head ∧ head.name = none
  key : p.form.isComputed = false → p.key.isStaticKey = true
  role : ∀ head ∈ p.value.functionHead?, head.role = .expression

/-- All properties of a tree are well-shaped, and its references are identifier names. -/
structure Tree.IsWellShaped (t : Tree) : Prop where
  properties : ∀ p ∈ t.properties, p.IsWellShaped
  names : ∀ r ∈ t.references, Identifier.isPropertyName r.text = true

variable {choice : Property → Option Simplification}

namespace Tree

@[simp] lemma functionHead?_shortenedBy (t : Tree) :
    (t.shortenedBy choice).functionHead? = t.functionHead? := by
  cases t with
  | property span form key value =>
      rw [shortenedBy_property]
      rfl
  | reference | function | node => rfl

lemma functionHead?_unnamed (t : Tree) :
    t.unnamed.functionHead? = t.functionHead?.map fun head => { head with name := none } := by
  cases t <;> rfl

lemma isLeaf_of_isStaticKey {t : Tree} (h : t.isStaticKey = true) : t.IsLeaf := by
  unfold isStaticKey at h
  split at h <;> trivial

/-- A key that can be written bare is one afterwards. -/
lemma exists_unquoted {t : Tree} {key : Key} (hkey : Key.ofTree? t = some key)
    (hbare : key.isBare = true) (hstatic : t.isStaticKey = true)
    (hnumeral : ∀ raw ∈ t.numeral?, Numeral.beginsNumber raw = true) :
    ∃ name span, t.unquoted = node (.staticName name) span [] ∧
      Identifier.isPropertyName name = true := by
  unfold Key.ofTree? at hkey
  split at hkey
  · exact ⟨_, _, rfl, hstatic⟩
  · cases hkey
    exact ⟨_, _, rfl, hbare⟩
  · -- a number cannot be written bare
    cases hkey
    have hname := Numeral.isPropertyName_of_beginsNumber (hnumeral _ rfl)
    exact absurd (hname.symm.trans hbare) (by decide)
  · cases hkey

end Tree

namespace Property

variable {p : Property}

/-- The shape of a plain property is that of its key, whatever its value is. -/
lemma isWellShaped_of_isPlain (hplain : p.form.isPlain = true) (hkey : p.key.isStaticKey = true)
    (hrole : ∀ head ∈ p.value.functionHead?, head.role = .expression) : p.IsWellShaped := by
  obtain ⟨hmethod, hshorthand, -, haccessor⟩ := p.form.isPlain_iff.mp hplain
  refine ⟨fun _ => hmethod, ?_, ?_, fun _ => hkey, hrole⟩
  · intro hshorthand'
    cases hshorthand.symm.trans hshorthand'
  · rintro (hmethod' | haccessor')
    · cases hmethod.symm.trans hmethod'
    · cases haccessor.symm.trans haccessor'

/-- The key and the value of a property that becomes a method. -/
structure IsPlainMethod (p : Property) : Prop where
  key : ∃ name span, p.key = .node (.staticName name) span [] ∧
    Identifier.isPropertyName name = true
  value : ∃ head, p.value.functionHead? = some head ∧ head.name = none ∧ head.isAsync = false ∧
    head.isGenerator = false

/-- What a property becomes that is not itself simplified: all that its shape is about stays. -/
lemma shape_of_none (h : p.IsWellShaped) (heligible : p.eligible? = none) :
    (p.shortenedBy eligible?).IsWellShaped := by
  rw [shortenedBy_of_eq_none heligible]
  refine ⟨h.exclusive, ?_, ?_, ?_, ?_⟩
  · intro hshorthand
    obtain ⟨hcomputed, haccessor, span, name, hvalue, hkey⟩ := h.shorthand hshorthand
    refine ⟨hcomputed, haccessor, span, name, ?_, ?_⟩
    · rw [shortenedInside, hvalue]
      rfl
    · rw [shortenedInside, hkey]
      exact Tree.IsLeaf.shortenedBy_eq trivial
  · intro hform
    rw [shortenedInside, Tree.functionHead?_shortenedBy]
    exact h.function hform
  · intro hcomputed
    have hkey := h.key hcomputed
    rw [shortenedInside, (Tree.isLeaf_of_isStaticKey hkey).shortenedBy_eq]
    exact hkey
  · rw [shortenedInside, Tree.functionHead?_shortenedBy]
    exact h.role

/-- What a property becomes that is made shorthand. -/
lemma shape_of_shorthand (heligible : p.eligible? = some .shorthand)
    (hname : ∀ span name, p.value = .reference span name → Identifier.isPropertyName name = true) :
    (p.shortenedBy eligible?).IsWellShaped := by
  obtain ⟨hplain, hclassify⟩ := eligible?_eq_some.mp heligible
  obtain ⟨hmethod, -, hcomputed, haccessor⟩ := p.form.isPlain_iff.mp hplain
  obtain ⟨key, span, -, hvalue, -⟩ := classify?_eq_shorthand hclassify
  rw [shortenedBy_eq_shorthand heligible hvalue]
  refine ⟨fun _ => hmethod, fun _ => ⟨hcomputed, ?_, span, key.text, rfl, rfl⟩, ?_, ?_, ?_⟩
  · simpa [PropertyForm.isAccessor] using haccessor
  · rintro (hmethod' | haccessor')
    · cases hmethod.symm.trans hmethod'
    · cases haccessor.symm.trans haccessor'
  · exact fun _ => hname span key.text hvalue
  · rintro head ⟨⟩

/-- What a property becomes that is made a method. -/
lemma shape_of_method (h : p.IsWellShaped) (heligible : p.eligible? = some .method)
    (hnumeral : ∀ raw ∈ p.key.numeral?, Numeral.beginsNumber raw = true) :
    (p.shortenedBy eligible?).IsWellShaped ∧ (p.shortenedBy eligible?).IsPlainMethod := by
  obtain ⟨hplain, hclassify⟩ := eligible?_eq_some.mp heligible
  obtain ⟨-, hshorthand, hcomputed, haccessor⟩ := p.form.isPlain_iff.mp hplain
  obtain ⟨key, span, head, typeParameters, this, parameters, returned, body, hkey, hvalue, hasync,
    hgenerator, -, -, hbare⟩ := classify?_eq_method hclassify
  obtain ⟨name, place, hunquoted, hname⟩ :=
    Tree.exists_unquoted hkey hbare (h.key hcomputed) hnumeral
  have hhead : (p.value.shortenedBy eligible?).unnamed.functionHead? =
      some { head with name := none } := by
    rw [Tree.functionHead?_unnamed, Tree.functionHead?_shortenedBy, hvalue]
    rfl
  rw [shortenedBy_eq_method heligible, hunquoted]
  refine ⟨⟨?_, ?_, fun _ => ⟨_, hhead, rfl⟩, fun _ => hname, ?_⟩, ⟨⟨name, place, rfl, hname⟩, ?_⟩⟩
  · intro hshorthand'
    cases hshorthand.symm.trans hshorthand'
  · intro hshorthand'
    cases hshorthand.symm.trans hshorthand'
  · rw [hhead]
    rintro _ ⟨⟩
    exact h.role head (by rw [hvalue]; rfl)
  · exact ⟨_, hhead, rfl, hasync, hgenerator⟩

/-- **The step**: a well-shaped property is well-shaped afterwards, and if it has become a method,
it is one under a bare name and with a plain function. -/
lemma isWellShaped_shortenedBy (h : p.IsWellShaped)
    (hname : ∀ span name, p.value = .reference span name → Identifier.isPropertyName name = true)
    (hnumeral : ∀ raw ∈ p.key.numeral?, Numeral.beginsNumber raw = true) :
    (p.shortenedBy eligible?).IsWellShaped ∧
      (p.form.isMethod = false → (p.shortenedBy eligible?).form.isMethod = true →
        (p.shortenedBy eligible?).IsPlainMethod) := by
  match heligible : p.eligible? with
  | none =>
      refine ⟨shape_of_none h heligible, fun hbefore hafter => ?_⟩
      rw [shortenedBy_of_eq_none heligible] at hafter
      cases hbefore.symm.trans hafter
  | some .shorthand =>
      have hshape := shape_of_shorthand heligible hname
      refine ⟨hshape, fun _ hafter => ?_⟩
      have hshorthand : (p.shortenedBy eligible?).form.isShorthand = true := by
        obtain ⟨_, _, -, hvalue, -⟩ := classify?_eq_shorthand (eligible?_eq_some.mp heligible).2
        rw [shortenedBy_eq_shorthand heligible hvalue]
      cases (hshape.exclusive hshorthand).symm.trans hafter
  | some .method =>
      obtain ⟨hshape, hplain⟩ := shape_of_method h heligible hnumeral
      exact ⟨hshape, fun _ _ => hplain⟩

end Property

/-! ### Well-shaped trees -/

namespace Tree

/-- The value of a property of a tree is an identifier name if it is a reference. -/
lemma IsWellShaped.isPropertyName_of_value {t : Tree} (h : t.IsWellShaped) {p : Property}
    (hp : p ∈ t.properties) {span : Span} {name : String} (hvalue : p.value = .reference span name) :
    Identifier.isPropertyName name = true := by
  refine h.names ⟨name, span⟩ (references_subset_of_mem_properties hp ?_)
  simp [Property.tree, references, hvalue]

lemma directive?_shortenedBy (t : Tree) : (t.shortenedBy choice).directive? = t.directive? := by
  cases t with
  | node kind span parts =>
      rw [shortenedBy_node]
      cases kind <;> rfl
  | property span form key value =>
      rw [shortenedBy_property]
      rfl
  | reference | function => rfl

/-- Shortening leaves the directives of a body as they are. -/
lemma directives_shortenedBy (body : Tree) :
    (body.shortenedBy choice).directives = body.directives := by
  cases body with
  | node kind span parts =>
      rw [shortenedBy_node, directives, directives, List.filterMap_map]
      exact List.filterMap_congr fun part _ => directive?_shortenedBy part
  | property span form key value =>
      rw [shortenedBy_property]
      rfl
  | reference | function => rfl

/-- **Simplification keeps trees well-shaped**: it makes no property out of parts that do not fit
together. A property that it makes a method has a bare name as its key and a function that is
neither asynchronous nor a generator. Every function keeps its place and its parts, each of them
simplified by itself, and its directives; it loses at most its name. -/
theorem isWellShaped_simplify (t : Tree) (h : t.IsWellShaped) (hdistinct : t.HasDistinctSpans)
    (hnumbers : ∀ p ∈ t.properties, ∀ raw ∈ p.key.numeral?, Numeral.beginsNumber raw = true) :
    t.simplify.tree.IsWellShaped ∧
      List.Forall₂ (fun p q => p.form.isMethod = false → q.form.isMethod = true →
        q.IsPlainMethod) t.properties t.simplify.tree.properties ∧
      ∀ path span head typeParameters this parameters returned body,
        t.at? path = some (function span head typeParameters this parameters returned body) →
          ∃ head', (head' = head ∨ head' = { head with name := none }) ∧
            t.simplify.tree.at? path =
              some (function span head' typeParameters.simplify.tree this.simplify.tree
                parameters.simplify.tree returned.simplify.tree body.simplify.tree) ∧
            body.simplify.tree.directives = body.directives := by
  have hregular : t.IsRegular := ⟨hdistinct, h.names, hnumbers⟩
  have hstep : ∀ p ∈ t.properties, _ := fun p hp => Property.isWellShaped_shortenedBy
    (h.properties p hp) (fun _ _ => h.isPropertyName_of_value hp) (hnumbers p hp)
  rw [simplify_tree hdistinct]
  refine ⟨⟨?_, ?_⟩, ?_, ?_⟩
  · rw [properties_shortenedBy (apt_eligible? _)]
    intro q hq
    obtain ⟨p, hp, rfl⟩ := List.mem_map.mp hq
    exact (hstep p hp).1
  · rw [references_shortenedBy (apt_eligible? _)]
    exact h.names
  · rw [properties_shortenedBy (apt_eligible? _), List.forall₂_map_right_iff, List.forall₂_same]
    exact fun p hp => (hstep p hp).2
  · intro path span head typeParameters this parameters returned body hat
    obtain ⟨u, hu, hbecomes⟩ := at?_shortenedBy (apt_eligible? t.properties) hat
    obtain ⟨head', rfl, hhead⟩ := hbecomes.eq_function
    have hpart : ∀ part ∈ [typeParameters, this, parameters, returned, body],
        part.simplify.tree = part.shortenedBy Property.eligible? :=
      fun part hmem => (hregular.at? hat).simplify_part hmem
    refine ⟨head', hhead.imp_right And.left, ?_, ?_⟩
    · rw [hu, hpart _ (by simp), hpart _ (by simp), hpart _ (by simp), hpart _ (by simp),
        hpart _ (by simp)]
    · rw [hpart _ (by simp)]
      exact directives_shortenedBy body

/-- The nested literal is well-shaped, and remains so. Its method is made of a quoted key and of a
function with a name, which keeps its parts. -/
theorem isWellShaped_nestedLiteral :
    (nestedLiteral.IsWellShaped ∧ nestedLiteral.HasDistinctSpans) ∧
      nestedLiteral.simplify.tree.IsWellShaped ∧
      (∃ p ∈ nestedLiteral.properties, p.form.isMethod = false ∧
        (p.shortenedBy Property.eligible?).form.isMethod = true) ∧
      ∃ head parameters body,
        nestedLiteral.simplify.tree.at? [0, 0, 0, 1] =
          some (function ⟨8, 41⟩ head absent.simplify.tree absent.simplify.tree
            parameters absent.simplify.tree body) ∧ body.directives = [] := by
  have hdistinct : nestedLiteral.HasDistinctSpans := by decide
  have hshape : nestedLiteral.IsWellShaped := by
    refine ⟨?_, by decide⟩
    have hplain : ∀ p ∈ nestedLiteral.properties, p.form.isPlain = true ∧
        p.key.isStaticKey = true ∧ ∀ head ∈ p.value.functionHead?, head.role = .expression := by
      decide
    intro p hp
    obtain ⟨hform, hkey, hrole⟩ := hplain p hp
    exact Property.isWellShaped_of_isPlain hform hkey hrole
  obtain ⟨hshape', -, hfunctions⟩ :=
    isWellShaped_simplify nestedLiteral hshape hdistinct (by decide)
  obtain ⟨head, -, hat, hdirectives⟩ := hfunctions [0, 0, 0, 1] _ _ _ _ _ _ _ rfl
  refine ⟨⟨hshape, hdistinct⟩, hshape', ?_, head, _, _, hat, hdirectives⟩
  exact ⟨_, List.mem_cons_self, rfl, rfl⟩

end Tree

end Concise
