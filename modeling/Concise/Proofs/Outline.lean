import Concise.Proofs.Places
import Concise.Proofs.Confluence
import Concise.Proofs.StaticName

/-!
Trees up to the places where they stand.

* `Tree.outline`: a tree without its spans, the spelling of its numbers, the parentheses that stood
  around a function and the commas after spreads. A text that is printed from a tree and read again
  agrees with it in its outline at best.
* `Tree.properties_outline` and `Tree.mentions_outline`: the outline has the same properties and
  mentions the same names.
* `Property.eligible?_of_outline`: eligibility depends on the outline alone. Only a number as a key
  is judged by its spelling, and a legible number is never eligible, however it is spelt.
* `Tree.IsSimple.of_outline`: so whether anything is left to simplify depends on the outline alone.
-/

namespace Concise

/-! ### Outlines -/

/-- The kind without the spelling of a number, without the parentheses around an arrow function and
without the comma after a spread. -/
def Kind.outline : Kind → Kind
  | number _ => number ""
  | bigInteger _ => bigInteger ""
  | arrow isAsync isExpression _ => arrow isAsync isExpression false
  | spread _ => spread false
  | kind => kind

/-- The name without its place. -/
def Name.outline (name : Name) : Name := { name with span := .zero }

/-- The head of a function without the place of its name and the parentheses around it. -/
def FunctionHead.outline (head : FunctionHead) : FunctionHead :=
  { head with name := head.name.map Name.outline, wasParenthesized := false }

namespace Tree

mutual

/-- The tree without what depends on how it is written: spans, the spelling of numbers, the
parentheses that stood around a function, and the commas after spreads. -/
def outline : Tree → Tree
  | reference _ name => reference .zero name
  | property _ form key value => property .zero form key.outline value.outline
  | function _ head typeParameters this parameters returned body =>
      function .zero head.outline typeParameters.outline this.outline parameters.outline
        returned.outline body.outline
  | node kind _ parts => node kind.outline .zero (outlineAll parts)

/-- The outlines of some trees. -/
def outlineAll : List Tree → List Tree
  | [] => []
  | t :: ts => t.outline :: outlineAll ts

end

@[simp] lemma outlineAll_eq (ts : List Tree) : outlineAll ts = ts.map outline := by
  induction ts with
  | nil => rfl
  | cons t ts ih => rw [outlineAll, ih, List.map_cons]

-- trees are compared so that two outlines can be
mutual

/-- Equality of trees is decided part by part. -/
def decEq : (t u : Tree) → Decidable (t = u)
  | reference span name, reference span' name' =>
      decidable_of_iff (span = span' ∧ name = name') (by simp)
  | property span form key value, property span' form' key' value' =>
      have := key.decEq key'
      have := value.decEq value'
      decidable_of_iff (span = span' ∧ form = form' ∧ key = key' ∧ value = value') (by simp)
  | function span head a b c d e, function span' head' a' b' c' d' e' =>
      have := a.decEq a'
      have := b.decEq b'
      have := c.decEq c'
      have := d.decEq d'
      have := e.decEq e'
      decidable_of_iff (span = span' ∧ head = head' ∧ a = a' ∧ b = b' ∧ c = c' ∧ d = d' ∧ e = e')
        (by simp)
  | node kind span parts, node kind' span' parts' =>
      have := decEqAll parts parts'
      decidable_of_iff (kind = kind' ∧ span = span' ∧ parts = parts') (by simp)
  | reference .., property .. | reference .., function .. | reference .., node ..
  | property .., reference .. | property .., function .. | property .., node ..
  | function .., reference .. | function .., property .. | function .., node ..
  | node .., reference .. | node .., property .. | node .., function .. => isFalse nofun

/-- Equality of lists of trees is decided member by member. -/
def decEqAll : (ts us : List Tree) → Decidable (ts = us)
  | [], [] => isTrue rfl
  | t :: ts, u :: us =>
      have := t.decEq u
      have := decEqAll ts us
      decidable_of_iff (t = u ∧ ts = us) (by simp)
  | [], _ :: _ | _ :: _, [] => isFalse nofun

end

instance : DecidableEq Tree := decEq

end Tree

/-- The property without its span, with the outlines of its key and its value. -/
def Property.outline (p : Property) : Property :=
  ⟨.zero, p.form, p.key.outline, p.value.outline⟩

namespace Tree

variable {t u : Tree}

/-- The outline of a tree has the outlines of its properties. -/
lemma properties_outline (t : Tree) : t.outline.properties = t.properties.map Property.outline := by
  induction t with
  | reference span name => rfl
  | property span form key value ihKey ihValue =>
      simp [outline, properties, ihKey, ihValue, Property.outline]
  | function span head typeParameters this parameters returned body ih₁ ih₂ ih₃ ih₄ ih₅ =>
      simp [outline, properties, ih₁, ih₂, ih₃, ih₄, ih₅]
  | node kind span parts ih =>
      simp only [outline, properties, outlineAll_eq, propertiesAll_eq, List.flatMap_map,
        List.map_flatMap]
      exact List.flatMap_congr ih

/-- The outline of a tree mentions what the tree mentions. -/
lemma mentions_outline (name : String) (t : Tree) : t.outline.mentions name = t.mentions name := by
  induction t with
  | reference span text => rfl
  | property span form key value ihKey ihValue => simp only [outline, mentions, ihKey, ihValue]
  | function span head typeParameters this parameters returned body ih₁ ih₂ ih₃ ih₄ ih₅ =>
      simp only [outline, mentions, ih₁, ih₂, ih₃, ih₄, ih₅]
  | node kind span parts ih =>
      simp only [outline, mentions, outlineAll_eq, anyMentions_eq, List.any_map]
      rw [Bool.eq_iff_iff, List.any_eq_true, List.any_eq_true]
      exact exists_congr fun t => and_congr_right fun ht => by rw [Function.comp_apply, ih t ht]

/-- A tree with the outline of a leaf is a leaf. -/
lemma eq_leaf_of_outline {kind : Kind} {span : Span}
    (h : t.outline = (node kind span []).outline) :
    ∃ kind' span', t = node kind' span' [] ∧ kind'.outline = kind.outline := by
  cases t with
  | node kind' span' parts =>
      simp only [outline, outlineAll_eq, node.injEq, List.map_nil, List.map_eq_nil_iff] at h
      obtain ⟨hkind, -, rfl⟩ := h
      exact ⟨kind', span', rfl, hkind⟩
  | reference | property | function => cases h

/-- Whether a function refers to itself depends on the outlines. -/
lemma refersToSelf_outline (name : Option Name) (parameters body : Tree) :
    refersToSelf (name.map Name.outline) parameters.outline body.outline =
      refersToSelf name parameters body := by
  cases name with
  | none => rfl
  | some name => simp only [refersToSelf, Option.map_some, Name.outline, mentions_outline]

end Tree

/-! ### Eligibility -/

/-- Where the outline of a kind is no number, arrow function or spread, the kind is the outline. -/
lemma Kind.eq_of_outline {kind kind' : Kind} (h : kind'.outline = kind)
    (hnumber : kind ≠ number "") (hbig : kind ≠ bigInteger "")
    (harrow : ∀ isAsync isExpression, kind ≠ arrow isAsync isExpression false)
    (hspread : kind ≠ spread false) : kind' = kind := by
  unfold outline at h
  split at h
  · exact absurd h.symm hnumber
  · exact absurd h.symm hbig
  · exact absurd h.symm (harrow _ _)
  · exact absurd h.symm hspread
  · exact h

/-- A legible key that can be written bare is no number, so its view depends on the outline. -/
lemma Key.ofTree?_of_outline {t u : Tree} {key : Key} (h : t.outline = u.outline)
    (hlegible : u.IsLegible) (hkey : Key.ofTree? u = some key) (hbare : key.isBare = true) :
    Key.ofTree? t = some key := by
  obtain ⟨kind, span, rfl⟩ := Tree.isLeaf_iff.mp (Key.isLeaf_of_ofTree? hkey)
  obtain ⟨kind', span', rfl, hkind⟩ := Tree.eq_leaf_of_outline h
  unfold Key.ofTree? at hkey
  split at hkey
  · rename_i heq
    cases heq
    obtain rfl := Kind.eq_of_outline hkind nofun nofun nofun nofun
    exact hkey
  · rename_i heq
    cases heq
    obtain rfl := Kind.eq_of_outline hkind nofun nofun nofun nofun
    exact hkey
  · -- a number cannot be written bare
    rename_i heq
    cases heq
    cases hkey
    have hname := Numeral.isPropertyName_of_beginsNumber (Tree.isLegible_node.mp hlegible)
    exact absurd (hname.symm.trans hbare) (by decide)
  · cases hkey

namespace Value

/-- The view of a value, with the outlines of what it shows of a function. -/
def outline : Value → Value
  | reference name => reference name
  | function name parameters body =>
      function (name.map Name.outline) parameters.outline body.outline

lemma ofTree?_outline (t : Tree) : Value.ofTree? t.outline = (Value.ofTree? t).map outline := by
  cases t with
  | reference | property | node => rfl
  | function span head typeParameters this parameters returned body =>
      simp only [Tree.outline, FunctionHead.outline, ofTree?]
      split_ifs <;> rfl

end Value

/-- A key judges a value by its outline. -/
lemma Key.simplification?_outline (key : Key) (value : Value) :
    key.simplification? value.outline = key.simplification? value := by
  cases value with
  | reference name => rfl
  | function name parameters body =>
      simp only [Value.outline, simplification?_function, Tree.refersToSelf_outline]

namespace Property

variable {p q : Property} {s : Simplification}

/-- What is classified has a key that can be written bare. -/
lemma exists_isBare (hvalue : p.value.IsLegible) (h : p.classify? = some s) :
    ∃ key, p.keyView? = some key ∧ key.isBare = true := by
  cases s with
  | shorthand =>
      obtain ⟨key, span, hkey, href, -⟩ := classify?_eq_shorthand h
      rw [href, Tree.isLegible_reference] at hvalue
      exact ⟨key, hkey, Key.isBare_of_isPropertyName hvalue.isPropertyName⟩
  | method =>
      obtain ⟨key, _, _, _, _, _, _, _, hkey, -, -, -, -, -, hbare⟩ := classify?_eq_method h
      exact ⟨key, hkey, hbare⟩

/-- **Eligibility depends on the outline** of a legible property. -/
lemma eligible?_of_outline (h : p.outline = q.outline) (hkey : q.key.IsLegible)
    (hvalue : q.value.IsLegible) (hq : q.eligible? = some s) : p.eligible? = some s := by
  obtain ⟨hform, hkeys, hvalues⟩ : p.form = q.form ∧ p.key.outline = q.key.outline ∧
      p.value.outline = q.value.outline := by
    simpa [outline] using h
  obtain ⟨hplain, hclassify⟩ := eligible?_eq_some.mp hq
  obtain ⟨key, hview, hbare⟩ := exists_isBare hvalue hclassify
  have hview' : p.keyView? = some key := Key.ofTree?_of_outline hkeys hkey hview hbare
  have hvalueViews : p.valueView?.map Value.outline = q.valueView?.map Value.outline := by
    rw [valueView?, valueView?, ← Value.ofTree?_outline, hvalues, Value.ofTree?_outline]
  have hsimplification : ∀ r : Property, r.keyView? = some key →
      r.classify? = (r.valueView?.map Value.outline).bind key.simplification? := by
    intro r hr
    simp only [classify?, hr, bind, Option.bind_some, Option.bind_map, Function.comp_def,
      Key.simplification?_outline]
  refine eligible?_eq_some.mpr ⟨hform ▸ hplain, ?_⟩
  rw [hsimplification p hview', hvalueViews, ← hsimplification q hview]
  exact hclassify

end Property

namespace Tree

variable {t u : Tree}

lemma map_outline_properties (h : t.outline = u.outline) :
    t.properties.map Property.outline = u.properties.map Property.outline := by
  rw [← properties_outline, h, properties_outline]

/-- Trees with the same outline have the same number of plain properties. -/
lemma countP_isPlain_of_outline (h : t.outline = u.outline) :
    t.properties.countP (·.form.isPlain) = u.properties.countP (·.form.isPlain) := by
  have hform : ∀ ps : List Property,
      ps.countP (·.form.isPlain) = (ps.map Property.outline).countP (·.form.isPlain) := by
    intro ps
    rw [List.countP_map]
    rfl
  rw [hform, map_outline_properties h, ← hform]

/-- A legible tree with the outline of a simple tree is simple. -/
lemma IsSimple.of_outline (hsimple : t.IsSimple) (h : t.outline = u.outline)
    (hlegible : ∀ p ∈ u.properties, p.key.IsLegible ∧ p.value.IsLegible) : u.IsSimple := by
  intro q hq
  have hmem : q.outline ∈ t.properties.map Property.outline := by
    rw [map_outline_properties h]
    exact List.mem_map_of_mem hq
  obtain ⟨p, hp, houtline⟩ := List.mem_map.mp hmem
  refine Option.eq_none_iff_forall_not_mem.mpr fun s hs => ?_
  have heligible := Property.eligible?_of_outline houtline (hlegible q hq).1 (hlegible q hq).2 hs
  rw [hsimple p hp] at heligible
  exact nomatch heligible

end Tree

end Concise
