import Mathlib.Data.List.Nodup
import Mathlib.Tactic.Lemma
import Concise.Property.Plan

/-!
The structure of trees, as the statements about simplification need it.

* `Tree.ind`: the induction principle, one case for each of the four constructs. What a function of
  a tree does on a list of trees is said once, by a function of lists (`propertiesAll_eq` and its
  companions), so that no later induction is mutual.
* `Tree.IsLeaf`: names and literals. A leaf holds no property and no reference, and only leaves
  have a view as keys (`Key.isLeaf_of_ofTree?`).
* `Tree.at?`: the tree at an address. An address tells the parts of a tree apart by where they
  stand, also when their spans are equal.
* `Tree.HasDistinctSpans`: no two properties of a tree have the same span.
* `Tree.mentions_iff`: the search for a name finds exactly the names of the references.
-/

namespace Concise

namespace Tree

/-! ### Induction -/

/-- The induction principle of trees: a statement holds of every tree once every construct inherits
it from its parts. -/
@[elab_as_elim, induction_eliminator]
theorem ind {P : Tree → Prop}
    (reference : ∀ span name, P (reference span name))
    (property : ∀ span form key value, P key → P value → P (property span form key value))
    (function : ∀ span head typeParameters this parameters returned body,
      P typeParameters → P this → P parameters → P returned → P body →
        P (function span head typeParameters this parameters returned body))
    (node : ∀ kind span parts, (∀ t ∈ parts, P t) → P (node kind span parts))
    (t : Tree) : P t :=
  @Tree.rec P (fun ts => ∀ t ∈ ts, P t) reference property function node
    (fun t ht => absurd ht (by simp))
    (fun _ _ ihHead ihTail t ht => by
      rcases List.mem_cons.mp ht with rfl | ht
      · exact ihHead
      · exact ihTail t ht)
    t

/-- Induction over the parts, for statements that need not tell the constructs apart. -/
theorem indParts {P : Tree → Prop} (h : ∀ t : Tree, (∀ part ∈ t.parts, P part) → P t) (t : Tree) :
    P t := by
  induction t with
  | reference span name => exact h _ (by simp [parts])
  | property span form key value ihKey ihValue => exact h _ (by simp [parts, ihKey, ihValue])
  | function span head typeParameters this parameters returned body ih₁ ih₂ ih₃ ih₄ ih₅ =>
      exact h _ (by simp [parts, ih₁, ih₂, ih₃, ih₄, ih₅])
  | node kind span parts ih => exact h _ ih

/-! ### Lists of trees -/

@[simp] lemma propertiesAll_eq (ts : List Tree) : propertiesAll ts = ts.flatMap properties := by
  induction ts with
  | nil => rfl
  | cons t ts ih => rw [propertiesAll, ih, List.flatMap_cons]

@[simp] lemma referencesAll_eq (ts : List Tree) : referencesAll ts = ts.flatMap references := by
  induction ts with
  | nil => rfl
  | cons t ts ih => rw [referencesAll, ih, List.flatMap_cons]

@[simp] lemma anyMentions_eq (name : String) (ts : List Tree) :
    anyMentions name ts = ts.any (mentions name) := by
  induction ts with
  | nil => rfl
  | cons t ts ih => rw [anyMentions, ih, List.any_cons]

/-- Scanning some trees is scanning one after the other. -/
lemma scanAllFrom_eq {σ : Type} (select : Selector σ) (ts : List Tree) (seen : Findings × σ) :
    scanAllFrom select ts seen = ts.foldl (fun seen t => t.scanFrom select seen) seen := by
  induction ts generalizing seen with
  | nil => rfl
  | cons t ts ih => rw [scanAllFrom, ih, List.foldl_cons]

/-! ### Leaves -/

/-- Names and literals: nodes without parts. -/
def IsLeaf : Tree → Prop
  | node _ _ [] => True
  | _ => False

lemma isLeaf_iff {t : Tree} : t.IsLeaf ↔ ∃ kind span, t = node kind span [] := by
  constructor
  · intro h
    match t with
    | node kind span [] => exact ⟨kind, span, rfl⟩
  · rintro ⟨kind, span, rfl⟩
    trivial

lemma IsLeaf.parts_eq {t : Tree} (h : t.IsLeaf) : t.parts = [] := by
  obtain ⟨kind, span, rfl⟩ := isLeaf_iff.mp h
  rfl

lemma IsLeaf.properties_eq {t : Tree} (h : t.IsLeaf) : t.properties = [] := by
  obtain ⟨kind, span, rfl⟩ := isLeaf_iff.mp h
  simp [properties]

lemma IsLeaf.references_eq {t : Tree} (h : t.IsLeaf) : t.references = [] := by
  obtain ⟨kind, span, rfl⟩ := isLeaf_iff.mp h
  simp [references]

/-- Unquoting a leaf gives a leaf. -/
lemma IsLeaf.unquoted {t : Tree} (h : t.IsLeaf) : t.unquoted.IsLeaf := by
  obtain ⟨kind, span, rfl⟩ := isLeaf_iff.mp h
  unfold Tree.unquoted
  split
  · trivial
  · trivial

end Tree

/-- Only a leaf has a view as a key. -/
lemma Key.isLeaf_of_ofTree? {t : Tree} {key : Key} (h : Key.ofTree? t = some key) :
    t.IsLeaf := by
  unfold Key.ofTree? at h
  split at h
  · trivial
  · trivial
  · trivial
  · cases h

namespace Tree

/-! ### Functions without their names -/

@[simp] lemma parts_unnamed (t : Tree) : t.unnamed.parts = t.parts := by
  cases t <;> rfl

@[simp] lemma properties_unnamed (t : Tree) : t.unnamed.properties = t.properties := by
  cases t <;> simp [unnamed, properties]

@[simp] lemma references_unnamed (t : Tree) : t.unnamed.references = t.references := by
  cases t <;> simp [unnamed, references]

/-! ### Addresses -/

/-- The tree at an address, which gives the index of a part for each step away from the root. -/
def at? : Tree → List Nat → Option Tree
  | t, [] => some t
  | t, index :: rest => t.parts[index]?.bind fun part => part.at? rest

lemma at?_cons (t : Tree) (index : Nat) (rest : List Nat) :
    t.at? (index :: rest) = t.parts[index]?.bind fun part => part.at? rest := rfl

/-- The property that a tree is. -/
def toProperty? : Tree → Option Property
  | property span form key value => some ⟨span, form, key, value⟩
  | _ => none

lemma toProperty?_eq_some {t : Tree} {p : Property} : t.toProperty? = some p ↔ t = p.tree := by
  constructor
  · intro h
    cases t with
    | property => cases h; rfl
    | reference | function | node => cases h
  · rintro rfl
    rfl

/-- The properties of a tree are the properties of its parts, after the tree itself if it is one. -/
lemma properties_eq (t : Tree) :
    t.properties = t.toProperty?.toList ++ t.parts.flatMap properties := by
  cases t <;> simp [properties, parts, toProperty?]

/-- The properties of a part are properties of the whole, in the same order. -/
lemma properties_sublist_of_mem_parts {t part : Tree} (h : part ∈ t.parts) :
    part.properties.Sublist t.properties := by
  rw [properties_eq t]
  exact (List.sublist_flatten_of_mem (List.mem_map_of_mem h)).trans (List.sublist_append_right _ _)

end Tree

namespace Property

/-- A property is the first of its own properties. -/
lemma mem_properties (p : Property) : p ∈ p.tree.properties := by
  simp [tree, Tree.properties]

lemma key_mem_parts (p : Property) : p.key ∈ p.tree.parts := by
  simp [tree, Tree.parts]

lemma value_mem_parts (p : Property) : p.value ∈ p.tree.parts := by
  simp [tree, Tree.parts]

end Property

namespace Tree

/-- What stands in a property of a tree stands in the tree. -/
lemma properties_subset_of_mem {t : Tree} {p : Property} (hp : p ∈ t.properties) :
    p.tree.properties ⊆ t.properties := by
  induction t using indParts with
  | h t ih =>
      rw [properties_eq, List.mem_append, Option.mem_toList, toProperty?_eq_some,
        List.mem_flatMap] at hp
      rcases hp with rfl | ⟨part, hpart, hp⟩
      · exact List.Subset.refl _
      · exact List.Subset.trans (ih part hpart hp) (properties_sublist_of_mem_parts hpart).subset

/-! ### Spans of properties -/

/-- No two properties of a tree have the same span. -/
def HasDistinctSpans (t : Tree) : Prop := (t.properties.map Property.span).Nodup

instance (t : Tree) : Decidable t.HasDistinctSpans :=
  inferInstanceAs (Decidable (List.Nodup _))

/-- Where spans are distinct, a span tells the property. -/
lemma HasDistinctSpans.eq_of_span_eq {t : Tree} (h : t.HasDistinctSpans) {p q : Property}
    (hp : p ∈ t.properties) (hq : q ∈ t.properties) (hspan : p.span = q.span) : p = q :=
  List.inj_on_of_nodup_map h hp hq hspan

/-! ### References -/

/-- The references in a part are references in the whole. -/
lemma references_subset_of_mem_parts {t part : Tree} (h : part ∈ t.parts) :
    part.references ⊆ t.references := by
  intro r hr
  cases t with
  | reference span name => simp [parts] at h
  | property span form key value =>
      simp only [parts, List.mem_cons, List.not_mem_nil, or_false] at h
      rcases h with rfl | rfl <;> simp [references, hr]
  | function span head typeParameters this parameters returned body =>
      simp only [parts, List.mem_cons, List.not_mem_nil, or_false] at h
      rcases h with rfl | rfl | rfl | rfl | rfl <;> simp [references, hr]
  | node kind span parts =>
      rw [references, referencesAll_eq]
      exact List.mem_flatMap.mpr ⟨part, h, hr⟩

/-- What a property of a tree refers to, the tree refers to. -/
lemma references_subset_of_mem_properties {t : Tree} {p : Property} (hp : p ∈ t.properties) :
    p.tree.references ⊆ t.references := by
  induction t using indParts with
  | h t ih =>
      rw [properties_eq, List.mem_append, Option.mem_toList, toProperty?_eq_some,
        List.mem_flatMap] at hp
      rcases hp with rfl | ⟨part, hpart, hp⟩
      · exact List.Subset.refl _
      · exact List.Subset.trans (ih part hpart hp) (references_subset_of_mem_parts hpart)

/-- The search for a name finds exactly the names of the references. -/
lemma mentions_iff (name : String) (t : Tree) :
    t.mentions name = true ↔ ∃ r ∈ t.references, r.text = name := by
  induction t with
  | reference span text => simp [mentions, references]
  | property span form key value ihKey ihValue =>
      simp only [mentions, references, Bool.or_eq_true, ihKey, ihValue, List.mem_append,
        or_and_right, exists_or]
  | function span head typeParameters this parameters returned body ih₁ ih₂ ih₃ ih₄ ih₅ =>
      simp only [mentions, references, Bool.or_eq_true, ih₁, ih₂, ih₃, ih₄, ih₅, List.mem_append,
        or_and_right, exists_or, or_assoc]
  | node kind span parts ih =>
      simp only [mentions, references, anyMentions_eq, referencesAll_eq, List.any_eq_true,
        List.mem_flatMap]
      constructor
      · rintro ⟨t, ht, hname⟩
        obtain ⟨r, hr, htext⟩ := (ih t ht).mp hname
        exact ⟨r, ⟨t, ht, hr⟩, htext⟩
      · rintro ⟨r, ⟨t, ht, hr⟩, htext⟩
        exact ⟨t, ht, (ih t ht).mpr ⟨r, hr, htext⟩⟩

/-- Trees with the same references mention the same names. -/
lemma mentions_congr {t u : Tree} (h : t.references = u.references) (name : String) :
    t.mentions name = u.mentions name := by
  rw [Bool.eq_iff_iff, mentions_iff, mentions_iff, h]

end Tree

end Concise
