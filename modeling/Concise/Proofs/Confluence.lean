import Mathlib.Data.List.Dedup
import Concise.Proofs.InPlace

/-!
Carrying out some of the candidates of a scan.

* `Tree.carriedOut`: the tree after some candidates have been carried out.
* `Tree.candidates_carriedOut` and `Tree.visited_carriedOut`: a second scan finds exactly the
  candidates that were left out, as they were. So nothing that is carried out creates, changes or
  destroys another candidate, however they are nested.
* `Tree.carriedOut_carriedOut`: carrying out some candidates and then others is carrying them all
  out at once, in whatever order they are listed.
* `Tree.carriedOut_confluent` (**confluence**): the statements together, with what follows for
  simplifying a tree twice.
-/

namespace Concise.Tree

variable {t : Tree} {choice : Property → Option Simplification}

/-- The tree after some candidates have been carried out. -/
def carriedOut (t : Tree) (candidates : List Candidate) : Tree :=
  (t.carryOut (.ofCandidates candidates)).1

/-! ### Scanning again -/

lemma map_span_shortenedBy (h : Apt choice t.properties) :
    (t.shortenedBy choice).properties.map Property.span = t.properties.map Property.span := by
  rw [properties_shortenedBy h, List.map_map]
  exact List.map_congr_left fun p _ => Property.span_shortenedBy p

/-- Shortening keeps spans distinct. -/
lemma HasDistinctSpans.shortenedBy (hdistinct : t.HasDistinctSpans)
    (h : Apt choice t.properties) : (t.shortenedBy choice).HasDistinctSpans := by
  unfold HasDistinctSpans
  rwa [map_span_shortenedBy h]

/-- **A scan of a shortened tree** finds the eligible properties that were not chosen, as they
were before. -/
lemma candidates_shortenedBy (h : Apt choice t.properties) :
    ((t.shortenedBy choice).scan Property.classify?).candidates =
      t.properties.filterMap fun p =>
        if (choice p).isSome then none else p.eligible?.map p.candidate := by
  rw [scan_classify?]
  show (t.shortenedBy choice).properties.filterMap _ = _
  rw [properties_shortenedBy h, List.filterMap_map]
  refine List.filterMap_congr fun p hp => ?_
  have hp : Apt choice p.tree.properties := h.mono (properties_subset_of_mem hp)
  show (p.shortenedBy choice).eligible?.map _ = _
  rw [Property.eligible?_shortenedBy hp]
  cases hchoice : choice p with
  | none => simp [funext (Property.candidate_shortenedBy hchoice)]
  | some s => rfl

/-- Every property that was chosen is missing from the plain ones afterwards. -/
lemma visited_shortenedBy (h : ∀ p ∈ t.properties, ∀ s, choice p = some s → p.eligible? = some s) :
    ((t.shortenedBy choice).scan Property.classify?).visited +
      t.properties.countP (fun p => (choice p).isSome) = (t.scan Property.classify?).visited := by
  have hcount : ∀ ps : List Property, ps ⊆ t.properties →
      ps.countP (fun p => (p.shortenedBy choice).form.isPlain) +
        ps.countP (fun p => (choice p).isSome) = ps.countP (fun p => p.form.isPlain) := by
    intro ps
    induction ps with
    | nil => simp
    | cons p ps ih =>
        intro hsub
        have hp : p ∈ t.properties := hsub (by simp)
        have hapt := (apt_of_eligible? h).mono (properties_subset_of_mem hp)
        have hrest := ih (List.Subset.trans (List.subset_cons_self p ps) hsub)
        simp only [List.countP_cons, Property.isPlain_shortenedBy hapt]
        cases hchoice : choice p with
        | none => simp; omega
        | some s =>
            have hplain := (Property.eligible?_eq_some.mp (h p hp s hchoice)).1
            simp [hplain]
            omega
  rw [scan_classify?, scan_classify?]
  show (t.shortenedBy choice).properties.countP _ + _ = t.properties.countP _
  rw [properties_shortenedBy (apt_of_eligible? h), List.countP_map]
  exact hcount t.properties (List.Subset.refl _)

/-! ### Parts of the candidates -/

/-- A scan finds no two candidates with the same span. -/
lemma nodup_candidates_span (hdistinct : t.HasDistinctSpans)
    (select : Property → Option Simplification) :
    ((t.scan select).candidates.map Candidate.span).Nodup := by
  rw [scan_eq]
  show (List.map _ (List.filterMap _ _)).Pairwise _
  rw [List.pairwise_map, List.pairwise_filterMap]
  refine (List.pairwise_map.mp hdistinct).imp fun {p q} hspan c hc d hd => ?_
  have hfrom : ∀ {p : Property} {c : Candidate},
      (if p.form.isPlain then (select p).map p.candidate else none) = some c →
        c.span = p.span := by
    intro p c hc
    split_ifs at hc
    obtain ⟨s, -, rfl⟩ := Option.map_eq_some_iff.mp hc
    rfl
  rwa [hfrom hc, hfrom hd]

section Parts

variable {first second both : List Candidate}

/-- What some candidates plan for a property is nothing exactly if its candidate is not among
them. -/
lemma isSome_asChoice (hdistinct : t.HasDistinctSpans)
    (hsub : first ⊆ (t.scan Property.classify?).candidates) {p : Property}
    (hp : p ∈ t.properties) :
    ((Plan.ofCandidates first).asChoice p).isSome =
      (p.eligible?.map p.candidate).any fun c => c ∈ first := by
  rw [asChoice_ofCandidates hdistinct hsub hp]
  cases p.eligible? with
  | none => rfl
  | some s => by_cases hmem : p.candidate s ∈ first <;> simp [Option.filter, hmem]

/-- **Scanning again** finds the candidates that were not carried out. -/
lemma candidates_carriedOut (hdistinct : t.HasDistinctSpans)
    (hsub : first ⊆ (t.scan Property.classify?).candidates) :
    ((t.carriedOut first).scan Property.classify?).candidates =
      (t.scan Property.classify?).candidates.filter fun c => c ∉ first := by
  have hapt := apt_of_eligible? (eligible?_of_asChoice hdistinct hsub)
  rw [carriedOut, carryOut_ofCandidates hdistinct hsub, candidates_shortenedBy hapt, scan_classify?]
  show _ = List.filter _ (t.properties.filterMap _)
  rw [List.filter_filterMap]
  refine List.filterMap_congr fun p hp => ?_
  rw [isSome_asChoice hdistinct hsub hp]
  cases p.eligible? with
  | none => rfl
  | some s => by_cases hmem : p.candidate s ∈ first <;> simp [Option.filter, hmem]

/-- Scanning again, the properties that were carried out are not counted any more. -/
lemma visited_carriedOut (hdistinct : t.HasDistinctSpans)
    (hsub : first ⊆ (t.scan Property.classify?).candidates) :
    ((t.carriedOut first).scan Property.classify?).visited + first.dedup.length =
      (t.scan Property.classify?).visited := by
  have helig := eligible?_of_asChoice hdistinct hsub
  -- the candidates that were carried out, each once
  have hperm : List.Perm ((t.scan Property.classify?).candidates.filter fun c => c ∈ first)
      first.dedup := by
    have hnodup := (nodup_candidates_span hdistinct Property.classify?).of_map
    refine (List.perm_ext_iff_of_nodup (hnodup.filter _) first.nodup_dedup).mpr fun c => ?_
    simp only [List.mem_filter, decide_eq_true_eq, List.mem_dedup]
    exact ⟨fun h => h.2, fun h => ⟨hsub h, h⟩⟩
  have hlength : t.properties.countP (fun p => ((Plan.ofCandidates first).asChoice p).isSome) =
      first.dedup.length := by
    rw [← hperm.length_eq, ← List.countP_eq_length_filter, scan_classify?]
    show _ = List.countP _ (t.properties.filterMap _)
    rw [List.countP_filterMap]
    refine List.countP_congr fun p hp => ?_
    rw [isSome_asChoice hdistinct hsub hp]
    cases p.eligible? <;> simp
  rw [carriedOut, carryOut_ofCandidates hdistinct hsub, ← hlength]
  exact visited_shortenedBy helig

/-- The other candidates can still be carried out after shortening, as if nothing had happened. -/
lemma carriedOut_shortenedBy (hdistinct : t.HasDistinctSpans) (hapt : Apt choice t.properties)
    (hsub : second ⊆ (t.scan Property.classify?).candidates) :
    (t.shortenedBy choice).carriedOut second =
      (t.shortenedBy choice).shortenedBy (Plan.ofCandidates second).asChoice := by
  refine (carryOut_eq (pursues_ofCandidates (hdistinct.shortenedBy hapt) ?_ ?_)).1
  · intro q hq s hs
    rw [properties_shortenedBy hapt] at hq
    obtain ⟨p, hp, rfl⟩ := List.mem_map.mp hq
    rw [Plan.asChoice_shortenedBy] at hs
    obtain ⟨hleaf, hsome⟩ :=
      apt_of_eligible? (eligible?_of_asChoice hdistinct hsub) p hp s hs
    exact ⟨Property.isLeaf_key_shortenedBy hleaf,
      by rwa [Property.isSome_simplified?_shortenedBy]⟩
  · intro c hc
    obtain ⟨p, hp, hspan⟩ := exists_of_mem_candidates hsub c hc
    rw [properties_shortenedBy hapt]
    exact ⟨p.shortenedBy choice, List.mem_map_of_mem hp, by rw [Property.span_shortenedBy, hspan]⟩

/-- **Carrying out candidates in two portions** is carrying them out at once. -/
lemma carriedOut_carriedOut (hdistinct : t.HasDistinctSpans)
    (hfirst : first ⊆ (t.scan Property.classify?).candidates)
    (hsecond : second ⊆ (t.scan Property.classify?).candidates)
    (hboth : ∀ c, c ∈ both ↔ c ∈ first ∨ c ∈ second) :
    (t.carriedOut first).carriedOut second = t.carriedOut both := by
  have hsub : both ⊆ (t.scan Property.classify?).candidates := fun c hc =>
    ((hboth c).mp hc).elim (fun h => hfirst h) (fun h => hsecond h)
  have heligible₁ := eligible?_of_asChoice hdistinct hfirst
  have heligible₂ := eligible?_of_asChoice hdistinct hsecond
  have hapt := apt_of_eligible? heligible₁
  have hcons : Consistent (Plan.ofCandidates first).asChoice
      (Plan.ofCandidates second).asChoice t.properties := by
    intro p hp
    rw [Plan.asChoice_shortenedBy]
    cases h₁ : (Plan.ofCandidates first).asChoice p with
    | none => exact Or.inl rfl
    | some s₁ =>
        cases h₂ : (Plan.ofCandidates second).asChoice p with
        | none => exact Or.inr (Or.inl rfl)
        | some s₂ =>
            exact Or.inr (Or.inr ((heligible₂ p hp s₂ h₂).symm.trans (heligible₁ p hp s₁ h₁)))
  have hfirst' : t.carriedOut first = t.shortenedBy (Plan.ofCandidates first).asChoice :=
    carryOut_ofCandidates hdistinct hfirst
  rw [hfirst', carriedOut_shortenedBy hdistinct hapt hsecond, shortenedBy_shortenedBy hapt hcons,
    carriedOut, carryOut_ofCandidates hdistinct hsub]
  refine shortenedBy_congr fun p hp => ?_
  rw [Plan.asChoice_shortenedBy, asChoice_ofCandidates hdistinct hfirst hp,
    asChoice_ofCandidates hdistinct hsecond hp, asChoice_ofCandidates hdistinct hsub hp]
  cases p.eligible? with
  | none => rfl
  | some s =>
      by_cases h₁ : p.candidate s ∈ first <;> by_cases h₂ : p.candidate s ∈ second <;>
        simp [Option.filter, hboth, h₁, h₂]

end Parts

/-! ### Simplifying again -/

/-- Nothing in the tree is left to simplify. -/
def IsSimple (t : Tree) : Prop := ∀ p ∈ t.properties, p.eligible? = none

/-- A simplified tree is simple, at every depth. -/
lemma isSimple_simplify (hdistinct : t.HasDistinctSpans) : t.simplify.tree.IsSimple := by
  have hapt := apt_eligible? t.properties
  rw [simplify_tree hdistinct]
  intro q hq
  rw [properties_shortenedBy hapt] at hq
  obtain ⟨p, hp, rfl⟩ := List.mem_map.mp hq
  rw [Property.eligible?_shortenedBy (hapt.mono (properties_subset_of_mem hp))]
  cases p.eligible? <;> rfl

/-- Simplifying a simple tree does nothing. -/
lemma IsSimple.simplify (hsimple : t.IsSimple) (hdistinct : t.HasDistinctSpans) :
    t.simplify.tree = t ∧ t.simplify.counts.simplified = 0 := by
  refine ⟨?_, ?_⟩
  · rw [simplify_tree hdistinct]
    exact shortenedBy_eq_self hsimple
  · have hnone : ∀ s, t.properties.countP (fun p => p.eligible? = some s) = 0 := by
      intro s
      refine List.countP_eq_zero.mpr fun p hp => ?_
      simp [hsimple p hp]
    rw [(simplify_report hdistinct).2]
    simp only [Counts.simplified, hnone]

/-- **Confluence**: where spans are distinct,

* after some of the candidates have been carried out, a scan finds exactly the others, as they
  were, and counts as many properties fewer as were carried out; so a tree that has been simplified
  stays as it is when it is simplified again;
* candidates may be carried out in two portions, in either order of the portions, or at once, with
  the same tree as a result. -/
theorem carriedOut_confluent (t : Tree) (hdistinct : t.HasDistinctSpans) :
    (∀ first, first ⊆ (t.scan Property.classify?).candidates →
      ((t.carriedOut first).scan Property.classify?).candidates =
          (t.scan Property.classify?).candidates.filter (fun c => c ∉ first) ∧
        ((t.carriedOut first).scan Property.classify?).visited + first.dedup.length =
          (t.scan Property.classify?).visited) ∧
      (t.simplify.tree.simplify.tree = t.simplify.tree ∧
        t.simplify.tree.simplify.counts.simplified = 0) ∧
      ∀ first second both, first ⊆ (t.scan Property.classify?).candidates →
        second ⊆ (t.scan Property.classify?).candidates →
          (∀ c, c ∈ both ↔ c ∈ first ∨ c ∈ second) →
            (t.carriedOut first).carriedOut second = t.carriedOut both ∧
              (t.carriedOut second).carriedOut first = t.carriedOut both := by
  refine ⟨?_, ?_, ?_⟩
  · intro first hsub
    exact ⟨candidates_carriedOut hdistinct hsub, visited_carriedOut hdistinct hsub⟩
  · have hdistinct' : t.simplify.tree.HasDistinctSpans := by
      rw [simplify_tree hdistinct]
      exact hdistinct.shortenedBy (apt_eligible? _)
    exact (isSimple_simplify hdistinct).simplify hdistinct'
  · intro first second both hfirst hsecond hboth
    refine ⟨carriedOut_carriedOut hdistinct hfirst hsecond hboth,
      carriedOut_carriedOut hdistinct hsecond hfirst fun c => ?_⟩
    rw [hboth, or_comm]

/-- The method of the nested literal can be made before or after the shorthand inside it and the
one beside it, or together with them. -/
theorem carriedOut_nestedLiteral :
    let outer : Candidate := ⟨⟨3, 41⟩, "f", .method⟩
    let inner : Candidate := ⟨⟨32, 36⟩, "b", .shorthand⟩
    let beside : Candidate := ⟨⟨69, 73⟩, "c", .shorthand⟩
    nestedLiteral.HasDistinctSpans ∧
      (nestedLiteral.scan Property.classify?).candidates = [outer, inner, beside] ∧
      ((nestedLiteral.carriedOut [outer]).scan Property.classify?).candidates =
        [inner, beside] ∧
      ((nestedLiteral.carriedOut [outer]).scan Property.classify?).visited + 1 = 5 ∧
      (nestedLiteral.carriedOut [outer]).carriedOut [beside, inner] =
        nestedLiteral.carriedOut [inner, outer, beside] ∧
      (nestedLiteral.carriedOut [beside, inner]).carriedOut [outer] =
        nestedLiteral.carriedOut [inner, outer, beside] := by
  intro outer inner beside
  have hdistinct : nestedLiteral.HasDistinctSpans := by decide
  have hcandidates :
      (nestedLiteral.scan Property.classify?).candidates = [outer, inner, beside] := by decide
  have houter : [outer] ⊆ (nestedLiteral.scan Property.classify?).candidates := by
    rw [hcandidates]
    simp
  have hothers : [beside, inner] ⊆ (nestedLiteral.scan Property.classify?).candidates := by
    rw [hcandidates]
    simp
  obtain ⟨hscan, -, hportions⟩ := carriedOut_confluent nestedLiteral hdistinct
  obtain ⟨hleft, hvisited⟩ := hscan [outer] houter
  obtain ⟨hthen, hbefore⟩ := hportions [outer] [beside, inner] [inner, outer, beside] houter hothers
    (by intro c; simp only [List.mem_cons, List.not_mem_nil, or_false]; tauto)
  refine ⟨hdistinct, hcandidates, ?_, hvisited.trans (by decide), hthen, hbefore⟩
  rw [hleft, hcandidates]
  decide

end Concise.Tree
