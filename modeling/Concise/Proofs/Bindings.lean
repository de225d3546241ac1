import Concise.Proofs.InPlace

/-!
References and the names that functions bind.

A function expression knows its own name, a method does not. Simplification takes a name away only
after looking through the parameters and the body of the function in the tree before; the promise is
about the tree afterwards, in which properties inside that very function may have been simplified
too.

* `Property.not_mentions_of_method`: a function that is to lose its name is not referred to by it.
* `Tree.Becomes.eq_function`: what becomes of a function.
* `Tree.references_simplify` (**no reference is lost, added or cut off**): the references are the
  same, and every function keeps its name or has no reference to it.
-/

namespace Concise

/-- A property that becomes a method holds a function whose parameters and body do not refer to its
own name. -/
lemma Property.not_mentions_of_method {p : Property} (h : p.classify? = some .method) {span : Span}
    {head : FunctionHead} {typeParameters this parameters returned body : Tree}
    (hvalue : p.value = .function span head typeParameters this parameters returned body)
    {name : Name} (hname : head.name = some name) :
    parameters.mentions name.text = false ∧ body.mentions name.text = false := by
  obtain ⟨_, _, _, _, _, _, _, _, -, hvalue', -, -, hself, -⟩ := classify?_eq_method h
  rw [hvalue, Tree.function.injEq] at hvalue'
  obtain ⟨-, rfl, -, -, rfl, -, rfl⟩ := hvalue'
  simpa [Tree.refersToSelf, hname] using hself

namespace Tree

section Functions

variable {ps : List Property} {span : Span} {head : FunctionHead}
  {typeParameters this parameters returned body u : Tree}

/-- A function keeps its parts, but for what is shortened inside them. It loses at most its name,
and only as the value of a property that becomes a method. -/
lemma Becomes.eq_function
    (h : Becomes Property.eligible? ps
      (function span head typeParameters this parameters returned body) u) :
    ∃ head', u = function span head' (typeParameters.shortenedBy Property.eligible?)
        (this.shortenedBy Property.eligible?) (parameters.shortenedBy Property.eligible?)
        (returned.shortenedBy Property.eligible?) (body.shortenedBy Property.eligible?) ∧
      (head' = head ∨ head' = { head with name := none } ∧ ∃ p : Property, p.classify? = some .method ∧
        p.value = function span head typeParameters this parameters returned body) := by
  generalize hf : function span head typeParameters this parameters returned body = f at h
  cases h with
  | shortened =>
      subst hf
      exact ⟨head, rfl, Or.inl rfl⟩
  | @key p hp hsome =>
      -- the key of an eligible property is a leaf, and no function
      obtain ⟨s, hs⟩ := Option.isSome_iff_exists.mp hsome
      have hleaf := (apt_eligible? ps p hp s hs).1
      rw [← hf] at hleaf
      cases hleaf
  | @unnamed p hp hmethod =>
      refine ⟨{ head with name := none }, ?_, Or.inr ⟨rfl, p, ?_, rfl⟩⟩
      · rw [← hf]
        rfl
      · exact (Property.eligible?_eq_some.mp hmethod).2

/-- A function loses at most its name, and only if nothing in its shortened parameters and body
refers to it. -/
lemma Becomes.exists_function
    (h : Becomes Property.eligible? ps
      (function span head typeParameters this parameters returned body) u) :
    ∃ head' typeParameters' this' parameters' returned' body',
      u = function span head' typeParameters' this' parameters' returned' body' ∧
      (head' = head ∨ head' = { head with name := none } ∧
        ∀ name ∈ head.name, ∀ r ∈ parameters'.references ++ body'.references,
          r.text ≠ name.text) := by
  obtain ⟨head', hu, hhead⟩ := h.eq_function
  refine ⟨head', _, _, _, _, _, hu, hhead.imp_right ?_⟩
  rintro ⟨hunnamed, p, hclassify, hvalue⟩
  refine ⟨hunnamed, ?_⟩
  intro name hname r hr htext
  obtain ⟨hparameters, hbody⟩ :=
    Property.not_mentions_of_method hclassify hvalue (Option.mem_def.mp hname)
  rw [references_shortenedBy (apt_eligible? _), references_shortenedBy (apt_eligible? _)] at hr
  rcases List.mem_append.mp hr with hr | hr
  · rw [(mentions_iff name.text parameters).mpr ⟨r, hr, htext⟩] at hparameters
    cases hparameters
  · rw [(mentions_iff name.text body).mpr ⟨r, hr, htext⟩] at hbody
    cases hbody

end Functions

/-- **No reference is lost, added or cut off from its binder**: simplifying a tree keeps its
references, by name and span and in their order. The function at an address is still a function
there; it keeps its name, or it has lost it and no reference in its parameters or its body, as they
are afterwards, has that name. -/
theorem references_simplify (t : Tree) (hdistinct : t.HasDistinctSpans) :
    t.simplify.tree.references = t.references ∧
      ∀ path span head typeParameters this parameters returned body,
        t.at? path = some (function span head typeParameters this parameters returned body) →
          ∃ head' typeParameters' this' parameters' returned' body',
            t.simplify.tree.at? path =
              some (function span head' typeParameters' this' parameters' returned' body') ∧
            (head' = head ∨ head' = { head with name := none } ∧
              ∀ name ∈ head.name, ∀ r ∈ parameters'.references ++ body'.references,
                r.text ≠ name.text) := by
  rw [simplify_tree hdistinct]
  refine ⟨references_shortenedBy (apt_eligible? _), ?_⟩
  intro path span head typeParameters this parameters returned body hat
  obtain ⟨u, hu, hbecomes⟩ := at?_shortenedBy (apt_eligible? t.properties) hat
  obtain ⟨head', typeParameters', this', parameters', returned', body', rfl, hhead⟩ :=
    hbecomes.exists_function
  exact ⟨head', typeParameters', this', parameters', returned', body', hu, hhead⟩

/-- The function of the nested literal loses its name; the references, those of the property that is
simplified inside it among them, remain. -/
theorem references_nestedLiteral :
    nestedLiteral.HasDistinctSpans ∧
      nestedLiteral.simplify.tree.references = [⟨"b", ⟨35, 36⟩⟩, ⟨"c", ⟨46, 47⟩⟩,
        ⟨"c", ⟨52, 53⟩⟩, ⟨"c", ⟨66, 67⟩⟩, ⟨"c", ⟨72, 73⟩⟩] ∧
      ∃ head typeParameters this parameters returned body,
        nestedLiteral.simplify.tree.at? [0, 0, 0, 1] =
          some (function ⟨8, 41⟩ head typeParameters this parameters returned body) ∧
        head.name = none ∧ ∀ r ∈ parameters.references ++ body.references, r.text ≠ "g" := by
  have hdistinct : nestedLiteral.HasDistinctSpans := by decide
  obtain ⟨hreferences, hfunctions⟩ := references_simplify nestedLiteral hdistinct
  obtain ⟨head, _, _, _, _, _, hat, hhead⟩ := hfunctions [0, 0, 0, 1] _ _ _ _ _ _ _ rfl
  have hunnamed : head.name = none := by
    cases hat.symm.trans (by rfl)
    rfl
  refine ⟨hdistinct, hreferences.trans (by decide), head, _, _, _, _, _, hat, hunnamed, ?_⟩
  rcases hhead with rfl | ⟨-, habsent⟩
  · cases hunnamed
  · exact habsent ⟨"g", ⟨17, 18⟩⟩ rfl

end Tree

end Concise
