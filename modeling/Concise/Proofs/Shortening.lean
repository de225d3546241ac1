import Concise.Proofs.Structure

/-!
Shortening a tree in place, without a plan and without a state.

* `Tree.shortenedBy`: the tree in which every property, at every depth, has been simplified as a
  choice says. The choice is asked about the property as it stands in the given tree, before
  anything inside it is changed.
* `Apt`: a choice that asks only for what can be carried out, at properties whose key is a leaf.
  For such a choice shortening keeps the list of properties (`properties_shortenedBy`) and the
  references with their spans (`references_shortenedBy`).
* `shortenedBy_shortenedBy`: shortening twice is shortening once by both choices.
* `Tree.Becomes` and `at?_shortenedBy`: what stands at an address afterwards.
-/

namespace Concise

namespace Tree

mutual

/-- The tree in which every property has been simplified as a choice says. The choice is asked
about the property as it stands in the tree that is given. -/
def shortenedBy (choice : Property → Option Simplification) : Tree → Tree
  | reference span name => reference span name
  | property span form key value =>
      (Property.simplifiedBy ⟨span, form, key.shortenedBy choice, value.shortenedBy choice⟩
        (choice ⟨span, form, key, value⟩)).tree
  | function span head typeParameters this parameters returned body =>
      function span head (typeParameters.shortenedBy choice) (this.shortenedBy choice)
        (parameters.shortenedBy choice) (returned.shortenedBy choice) (body.shortenedBy choice)
  | node kind span parts => node kind span (shortenedAllBy choice parts)

/-- The trees in which every property has been simplified as a choice says. -/
def shortenedAllBy (choice : Property → Option Simplification) : List Tree → List Tree
  | [] => []
  | t :: ts => t.shortenedBy choice :: shortenedAllBy choice ts

end

end Tree

/-- The property of which only the key and the value are shortened. -/
def Property.shortenedInside (p : Property) (choice : Property → Option Simplification) :
    Property :=
  ⟨p.span, p.form, p.key.shortenedBy choice, p.value.shortenedBy choice⟩

/-- The property as it stands in the shortened tree. -/
def Property.shortenedBy (p : Property) (choice : Property → Option Simplification) : Property :=
  (p.shortenedInside choice).simplifiedBy (choice p)

variable {choice : Property → Option Simplification}

namespace Tree

@[simp] lemma shortenedAllBy_eq (ts : List Tree) :
    shortenedAllBy choice ts = ts.map (shortenedBy choice) := by
  induction ts with
  | nil => rfl
  | cons t ts ih => rw [shortenedAllBy, ih, List.map_cons]

@[simp] lemma shortenedBy_property (span : Span) (form : PropertyForm) (key value : Tree) :
    (property span form key value).shortenedBy choice =
      (Property.shortenedBy ⟨span, form, key, value⟩ choice).tree := by
  rw [shortenedBy]
  rfl

@[simp] lemma shortenedBy_node (kind : Kind) (span : Span) (parts : List Tree) :
    (node kind span parts).shortenedBy choice =
      node kind span (parts.map (shortenedBy choice)) := by
  rw [shortenedBy, shortenedAllBy_eq]

lemma IsLeaf.shortenedBy_eq {t : Tree} (h : t.IsLeaf) : t.shortenedBy choice = t := by
  obtain ⟨kind, span, rfl⟩ := isLeaf_iff.mp h
  simp

end Tree

/-! ### One property -/

namespace Property

@[simp] lemma span_simplifiedBy (p : Property) (chosen : Option Simplification) :
    (p.simplifiedBy chosen).span = p.span := by
  unfold simplifiedBy simplified?
  grind

/-- Neither the kind of a property nor whether its key is computed changes. -/
lemma form_simplifiedBy (p : Property) (chosen : Option Simplification) :
    (p.simplifiedBy chosen).form.accessor = p.form.accessor ∧
      (p.simplifiedBy chosen).form.isComputed = p.form.isComputed := by
  unfold simplifiedBy simplified?
  grind

/-- A value changes only by losing the name of a function, and only where a method is made. -/
lemma value_simplifiedBy (p : Property) (chosen : Option Simplification) :
    (p.simplifiedBy chosen).value =
      if chosen = some .method then p.value.unnamed else p.value := by
  obtain ⟨span, form, key, value⟩ := p
  rcases chosen with _ | _ | _
  · rfl
  · cases value <;> rfl
  · cases value <;> rfl

/-- A leaf remains a leaf, whatever is made of it. -/
lemma isLeaf_key_simplifiedBy {p : Property} (h : p.key.IsLeaf) (chosen : Option Simplification) :
    (p.simplifiedBy chosen).key.IsLeaf := by
  obtain ⟨span, form, key, value⟩ := p
  rcases chosen with _ | _ | _
  · exact h
  · cases value with
    | reference => trivial
    | property | function | node => exact h
  · cases value with
    | function => exact Tree.IsLeaf.unquoted h
    | reference | property | node => exact h

@[simp] lemma span_shortenedBy (p : Property) : (p.shortenedBy choice).span = p.span :=
  span_simplifiedBy _ _

lemma value_shortenedBy (p : Property) :
    (p.shortenedBy choice).value =
      if choice p = some .method then (p.value.shortenedBy choice).unnamed
      else p.value.shortenedBy choice :=
  value_simplifiedBy _ _

lemma shortenedBy_of_eq_none {p : Property} (h : choice p = none) :
    p.shortenedBy choice = p.shortenedInside choice := by
  rw [shortenedBy, h]
  rfl

/-- Whether a simplification can be carried out is not changed by carrying one out. -/
lemma isSome_simplified?_simplifiedBy (p : Property) (chosen : Option Simplification)
    (s : Simplification) :
    ((p.simplifiedBy chosen).simplified? s).isSome = (p.simplified? s).isSome := by
  obtain ⟨span, form, key, value⟩ := p
  rcases chosen with _ | _ | _
  · rfl
  · cases value <;> cases s <;> rfl
  · cases value <;> cases s <;> rfl

/-- Nor is it changed by shortening inside the property. -/
lemma isSome_simplified?_shortenedInside (p : Property) (s : Simplification) :
    ((p.shortenedInside choice).simplified? s).isSome = (p.simplified? s).isSome := by
  obtain ⟨span, form, key, value⟩ := p
  cases value <;> cases s <;> rfl

lemma isSome_simplified?_shortenedBy (p : Property) (s : Simplification) :
    ((p.shortenedBy choice).simplified? s).isSome = (p.simplified? s).isSome := by
  rw [shortenedBy, isSome_simplified?_simplifiedBy, isSome_simplified?_shortenedInside]

end Property

/-! ### Choices that lose nothing -/

/-- A choice is *apt* for some properties if it chooses for them only what can be carried out, and
only where the key is a leaf, so that nothing is lost with the key. -/
def Apt (choice : Property → Option Simplification) (ps : List Property) : Prop :=
  ∀ p ∈ ps, ∀ s, choice p = some s → p.key.IsLeaf ∧ (p.simplified? s).isSome

lemma Apt.mono {ps qs : List Property} (h : Apt choice qs) (hsub : ps ⊆ qs) : Apt choice ps :=
  fun p hp => h p (hsub hp)

lemma Apt.part {t part : Tree} (h : Apt choice t.properties) (hpart : part ∈ t.parts) :
    Apt choice part.properties :=
  h.mono (Tree.properties_sublist_of_mem_parts hpart).subset

/-- A leaf as a key is replaced by a leaf. -/
lemma Property.isLeaf_key_shortenedBy {p : Property} (h : p.key.IsLeaf) :
    (p.shortenedBy choice).key.IsLeaf := by
  refine isLeaf_key_simplifiedBy ?_ _
  show (p.key.shortenedBy choice).IsLeaf
  rwa [h.shortenedBy_eq]

/-- Apart from what is shortened inside it, a key is only ever replaced by one that holds as little:
both are leaves. -/
lemma Property.key_shortenedBy {p : Property} (h : ∀ s, choice p = some s → p.key.IsLeaf) :
    (p.shortenedBy choice).key = p.key.shortenedBy choice ∨
      (choice p).isSome ∧ p.key.IsLeaf ∧ (p.shortenedBy choice).key.IsLeaf := by
  cases hp : choice p with
  | none => exact Or.inl (congrArg Property.key (shortenedBy_of_eq_none hp))
  | some s => exact Or.inr ⟨rfl, h s hp, isLeaf_key_shortenedBy (h s hp)⟩

/-- What a property holds is not changed by what becomes of the property itself: the key gives way
only to another leaf, and the value loses at most a name. -/
lemma Property.inside_shortenedBy {α : Type} {p : Property} (h : Apt choice p.tree.properties)
    {f : Tree → List α} (hleaf : ∀ t : Tree, t.IsLeaf → f t = []) (hname : ∀ t, f t.unnamed = f t) :
    f (p.shortenedBy choice).key = f (p.key.shortenedBy choice) ∧
      f (p.shortenedBy choice).value = f (p.value.shortenedBy choice) := by
  have hp := p.mem_properties
  constructor
  · rcases key_shortenedBy fun s hs => (h p hp s hs).1 with hk | ⟨-, hk, hk'⟩
    · rw [hk]
    · rw [hleaf _ hk', hk.shortenedBy_eq, hleaf _ hk]
  · rw [value_shortenedBy]
    split_ifs
    · rw [hname]
    · rfl

namespace Tree

/-- **Shortening keeps the list of properties**: each property is where it was, with its span,
and none appears or disappears. -/
lemma properties_shortenedBy {t : Tree} (h : Apt choice t.properties) :
    (t.shortenedBy choice).properties = t.properties.map (·.shortenedBy choice) := by
  induction t with
  | reference span name => simp [shortenedBy, properties]
  | property span form key value ihKey ihValue =>
      obtain ⟨hkey, hvalue⟩ := Property.inside_shortenedBy (p := ⟨span, form, key, value⟩) h
        (fun _ => IsLeaf.properties_eq) properties_unnamed
      rw [shortenedBy_property, Property.tree, properties, properties, hkey, hvalue,
        ihKey (h.part (by simp [parts])), ihValue (h.part (by simp [parts])), List.map_cons,
        List.map_append]
  | function span head typeParameters this parameters returned body ih₁ ih₂ ih₃ ih₄ ih₅ =>
      rw [shortenedBy, properties, properties, ih₁ (h.part (by simp [parts])),
        ih₂ (h.part (by simp [parts])), ih₃ (h.part (by simp [parts])),
        ih₄ (h.part (by simp [parts])), ih₅ (h.part (by simp [parts]))]
      simp only [List.map_append]
  | node kind span parts ih =>
      rw [shortenedBy_node, properties, properties, propertiesAll_eq, propertiesAll_eq,
        List.flatMap_map, List.map_flatMap]
      exact List.flatMap_congr fun t ht => ih t ht (h.part ht)

/-- **Shortening keeps every reference**: the names and spans of the references are the same, in the
same order. -/
lemma references_shortenedBy {t : Tree} (h : Apt choice t.properties) :
    (t.shortenedBy choice).references = t.references := by
  induction t with
  | reference span name => simp [shortenedBy]
  | property span form key value ihKey ihValue =>
      obtain ⟨hkey, hvalue⟩ := Property.inside_shortenedBy (p := ⟨span, form, key, value⟩) h
        (fun _ => IsLeaf.references_eq) references_unnamed
      rw [shortenedBy_property, Property.tree, references, references, hkey, hvalue,
        ihKey (h.part (by simp [parts])), ihValue (h.part (by simp [parts]))]
  | function span head typeParameters this parameters returned body ih₁ ih₂ ih₃ ih₄ ih₅ =>
      rw [shortenedBy, references, references, ih₁ (h.part (by simp [parts])),
        ih₂ (h.part (by simp [parts])), ih₃ (h.part (by simp [parts])),
        ih₄ (h.part (by simp [parts])), ih₅ (h.part (by simp [parts]))]
  | node kind span parts ih =>
      rw [shortenedBy_node, references, references, referencesAll_eq, referencesAll_eq,
        List.flatMap_map]
      exact List.flatMap_congr fun t ht => ih t ht (h.part ht)

/-- Shortening changes no mention of a name. -/
lemma mentions_shortenedBy {t : Tree} (h : Apt choice t.properties) (name : String) :
    (t.shortenedBy choice).mentions name = t.mentions name :=
  mentions_congr (references_shortenedBy h) name

/-- Choices that agree on the properties of a tree shorten it in the same way. -/
lemma shortenedBy_congr {choice' : Property → Option Simplification} {t : Tree}
    (h : ∀ p ∈ t.properties, choice p = choice' p) :
    t.shortenedBy choice = t.shortenedBy choice' := by
  have hpart : ∀ {u part : Tree}, (∀ p ∈ u.properties, choice p = choice' p) → part ∈ u.parts →
      ∀ p ∈ part.properties, choice p = choice' p :=
    fun hu hmem p hp => hu p ((properties_sublist_of_mem_parts hmem).subset hp)
  induction t with
  | reference span name => rfl
  | property span form key value ihKey ihValue =>
      rw [shortenedBy, shortenedBy, ihKey (hpart h (by simp [parts])),
        ihValue (hpart h (by simp [parts])), h _ (Property.mem_properties ⟨span, form, key, value⟩)]
  | function span head typeParameters this parameters returned body ih₁ ih₂ ih₃ ih₄ ih₅ =>
      rw [shortenedBy, shortenedBy, ih₁ (hpart h (by simp [parts])),
        ih₂ (hpart h (by simp [parts])), ih₃ (hpart h (by simp [parts])),
        ih₄ (hpart h (by simp [parts])), ih₅ (hpart h (by simp [parts]))]
  | node kind span parts ih =>
      rw [shortenedBy_node, shortenedBy_node]
      congr 1
      exact List.map_congr_left fun t ht => ih t ht (hpart h ht)

lemma shortenedBy_none (t : Tree) : t.shortenedBy (fun _ => none) = t := by
  induction t with
  | reference span name => rfl
  | property span form key value ihKey ihValue =>
      rw [shortenedBy, ihKey, ihValue]
      rfl
  | function span head typeParameters this parameters returned body ih₁ ih₂ ih₃ ih₄ ih₅ =>
      rw [shortenedBy, ih₁, ih₂, ih₃, ih₄, ih₅]
  | node kind span parts ih =>
      rw [shortenedBy_node, List.map_congr_left ih, List.map_id']

/-- Where nothing is chosen, nothing changes. -/
lemma shortenedBy_eq_self {t : Tree} (h : ∀ p ∈ t.properties, choice p = none) :
    t.shortenedBy choice = t :=
  (shortenedBy_congr h).trans (shortenedBy_none t)

end Tree

/-! ### Shortening twice -/

namespace Property

/-- Two simplifications of one property are one, if they do not contradict each other. -/
lemma simplifiedBy_simplifiedBy (p : Property) {first second : Option Simplification}
    (h : first = none ∨ second = none ∨ second = first) :
    (p.simplifiedBy first).simplifiedBy second = p.simplifiedBy (first.or second) := by
  obtain ⟨span, form, key, value⟩ := p
  rcases h with rfl | rfl | rfl
  · rfl
  · rw [Option.or_none]
    rfl
  · rcases second with _ | _ | _
    · rfl
    · cases value <;> rfl
    · cases value with
      | function =>
          have hkey : key.unquoted.unquoted = key.unquoted := by
            unfold Tree.unquoted
            grind
          simp [simplifiedBy, simplified?, Tree.unnamed, hkey]
      | reference | property | node => rfl

/-- Shortening inside a property can wait until the property itself has been simplified. -/
lemma shortenedInside_simplifiedBy {p : Property} {chosen : Option Simplification}
    (h : chosen.isSome → p.key.IsLeaf) :
    (p.simplifiedBy chosen).shortenedInside choice =
      (p.shortenedInside choice).simplifiedBy chosen := by
  obtain ⟨span, form, key, value⟩ := p
  rcases chosen with _ | _ | _
  · rfl
  · cases value <;> rfl
  · cases value with
    | function =>
        have hkey : key.IsLeaf := h rfl
        simp [shortenedInside, simplifiedBy, simplified?, Tree.shortenedBy, Tree.unnamed,
          hkey.shortenedBy_eq, hkey.unquoted.shortenedBy_eq]
    | reference | property | node => rfl

end Property

/-- The second of two choices is *consistent* with the first one if it makes no property into
something else than the first one did. It is asked about the properties as the first one left
them. -/
def Consistent (first second : Property → Option Simplification) (ps : List Property) : Prop :=
  ∀ p ∈ ps, first p = none ∨ second (p.shortenedBy first) = none ∨
    second (p.shortenedBy first) = first p

lemma Consistent.part {first second : Property → Option Simplification} {t part : Tree}
    (h : Consistent first second t.properties) (hpart : part ∈ t.parts) :
    Consistent first second part.properties :=
  fun p hp => h p ((Tree.properties_sublist_of_mem_parts hpart).subset hp)

/-- Shortening one property twice, if what is inside it can be shortened twice: the first
simplification and the second shortening inside change places. -/
lemma Property.shortenedBy_shortenedBy {first second : Property → Option Simplification}
    {p : Property} (h : Apt first p.tree.properties)
    (hcons : Consistent first second p.tree.properties)
    (hinside : (p.shortenedInside first).shortenedInside second =
      p.shortenedInside fun p => (first p).or (second (p.shortenedBy first))) :
    (p.shortenedBy first).shortenedBy second =
      p.shortenedBy fun p => (first p).or (second (p.shortenedBy first)) := by
  have hleaf : (first p).isSome → (p.shortenedInside first).key.IsLeaf := by
    intro hsome
    obtain ⟨s, hs⟩ := Option.isSome_iff_exists.mp hsome
    have hkey := (h p p.mem_properties s hs).1
    show (p.key.shortenedBy first).IsLeaf
    rwa [hkey.shortenedBy_eq]
  calc (p.shortenedBy first).shortenedBy second
      = (((p.shortenedInside first).simplifiedBy (first p)).shortenedInside second).simplifiedBy
          (second (p.shortenedBy first)) := rfl
    _ = (((p.shortenedInside first).shortenedInside second).simplifiedBy (first p)).simplifiedBy
          (second (p.shortenedBy first)) := by
        rw [shortenedInside_simplifiedBy hleaf]
    _ = ((p.shortenedInside first).shortenedInside second).simplifiedBy
          ((first p).or (second (p.shortenedBy first))) :=
        simplifiedBy_simplifiedBy _ (hcons p p.mem_properties)
    _ = p.shortenedBy fun p => (first p).or (second (p.shortenedBy first)) := by
        rw [hinside]
        rfl

/-- **Shortening twice is shortening once** by both choices. -/
lemma Tree.shortenedBy_shortenedBy {first second : Property → Option Simplification} {t : Tree}
    (h : Apt first t.properties) (hcons : Consistent first second t.properties) :
    (t.shortenedBy first).shortenedBy second =
      t.shortenedBy fun p => (first p).or (second (p.shortenedBy first)) := by
  induction t with
  | reference span name => rfl
  | property span form key value ihKey ihValue =>
      have hkey := ihKey (h.part (by simp [parts])) (hcons.part (by simp [parts]))
      have hvalue := ihValue (h.part (by simp [parts])) (hcons.part (by simp [parts]))
      rw [shortenedBy_property, shortenedBy_property]
      refine congrArg Property.tree (Property.shortenedBy_shortenedBy h hcons ?_)
      simp only [Property.shortenedInside, hkey, hvalue]
  | function span head typeParameters this parameters returned body ih₁ ih₂ ih₃ ih₄ ih₅ =>
      rw [shortenedBy, shortenedBy, shortenedBy,
        ih₁ (h.part (by simp [parts])) (hcons.part (by simp [parts])),
        ih₂ (h.part (by simp [parts])) (hcons.part (by simp [parts])),
        ih₃ (h.part (by simp [parts])) (hcons.part (by simp [parts])),
        ih₄ (h.part (by simp [parts])) (hcons.part (by simp [parts])),
        ih₅ (h.part (by simp [parts])) (hcons.part (by simp [parts]))]
  | node kind span parts ih =>
      rw [shortenedBy_node, shortenedBy_node, shortenedBy_node, List.map_map]
      congr 1
      exact List.map_congr_left fun t ht => ih t ht (h.part ht) (hcons.part ht)

/-! ### What stands at an address -/

/-- What becomes of a tree that stands somewhere among some properties: it is shortened; or it is
the key of a property that was simplified, and has become the new key; or it is the value of a
property that became a method, and has lost its name besides. -/
inductive Tree.Becomes (choice : Property → Option Simplification) (ps : List Property) :
    Tree → Tree → Prop
  | shortened (t : Tree) : Becomes choice ps t (t.shortenedBy choice)
  | key {p : Property} (hp : p ∈ ps) (hsome : (choice p).isSome) :
      Becomes choice ps p.key (p.shortenedBy choice).key
  | unnamed {p : Property} (hp : p ∈ ps) (hmethod : choice p = some .method) :
      Becomes choice ps p.value (p.value.shortenedBy choice).unnamed

lemma Tree.Becomes.mono {ps qs : List Property} {t u : Tree} (h : t.Becomes choice ps u)
    (hsub : ps ⊆ qs) : t.Becomes choice qs u := by
  cases h with
  | shortened => exact .shortened t
  | key hp hsome => exact .key (hsub hp) hsome
  | unnamed hp hmethod => exact .unnamed (hsub hp) hmethod

/-- What becomes of the parts of a property, below its key and its value too. -/
lemma Property.at?_shortenedBy {p : Property} (h : Apt choice p.tree.properties) {index : Nat}
    {rest : List Nat} {part u u' : Tree} (hpart : p.tree.parts[index]? = some part)
    (hu : part.at? rest = some u) (hu' : (part.shortenedBy choice).at? rest = some u')
    (hbecomes : u.Becomes choice p.tree.properties u') :
    ∃ u', (p.shortenedBy choice).tree.at? (index :: rest) = some u' ∧
      u.Becomes choice p.tree.properties u' := by
  have hp := p.mem_properties
  match index with
  | 0 =>
      cases hpart
      show ∃ u', (p.shortenedBy choice).key.at? rest = some u' ∧ _
      rcases key_shortenedBy fun s hs => (h p hp s hs).1 with hkey | ⟨hsome, hleaf, -⟩
      · exact ⟨u', by rw [hkey, hu'], hbecomes⟩
      · -- a leaf has no parts, so the address ends here
        cases rest with
        | nil =>
            cases hu
            exact ⟨_, rfl, .key hp hsome⟩
        | cons i rest => simp [Tree.at?_cons, hleaf.parts_eq] at hu
  | 1 =>
      cases hpart
      show ∃ u', (p.shortenedBy choice).value.at? rest = some u' ∧ _
      rw [value_shortenedBy]
      split_ifs with hmethod
      · cases rest with
        | nil =>
            cases hu
            exact ⟨_, rfl, .unnamed hp hmethod⟩
        | cons i rest =>
            -- losing its name leaves a function its parts
            rw [Tree.at?_cons, Tree.parts_unnamed, ← Tree.at?_cons]
            exact ⟨u', hu', hbecomes⟩
      · exact ⟨u', hu', hbecomes⟩

/-- **What stands at an address afterwards**: no tree changes its place. -/
lemma Tree.at?_shortenedBy {path : List Nat} : ∀ {t u : Tree}, Apt choice t.properties →
    t.at? path = some u →
      ∃ u', (t.shortenedBy choice).at? path = some u' ∧ u.Becomes choice t.properties u' := by
  induction path with
  | nil =>
      intro t u _ hu
      cases hu
      exact ⟨t.shortenedBy choice, rfl, .shortened t⟩
  | cons index rest ih =>
      intro t u h hu
      obtain ⟨part, hpart, hrest⟩ := Option.bind_eq_some_iff.mp hu
      have hmem : part ∈ t.parts := List.mem_of_getElem? hpart
      obtain ⟨u', hu', hbecomes⟩ := ih (h.part hmem) hrest
      have hbecomes := hbecomes.mono (properties_sublist_of_mem_parts hmem).subset
      -- only the parts of a property can differ from the shortened parts
      have hother : (t.shortenedBy choice).parts = t.parts.map (shortenedBy choice) →
          ∃ u', (t.shortenedBy choice).at? (index :: rest) = some u' ∧
            u.Becomes choice t.properties u' := by
        intro hparts
        refine ⟨u', ?_, hbecomes⟩
        rw [at?_cons, hparts, List.getElem?_map, hpart]
        exact hu'
      cases t with
      | reference span name => simp [parts] at hmem
      | property span form key value =>
          rw [shortenedBy_property]
          exact Property.at?_shortenedBy (p := ⟨span, form, key, value⟩) h hpart hrest hu' hbecomes
      | function span head typeParameters this parameters returned body =>
          exact hother (by simp [shortenedBy, parts])
      | node kind span parts => exact hother (by simp [Tree.parts])

end Concise
