import Concise.Proofs.Planning

/-!
Simplifying a whole tree.

A tree is first scanned, which changes nothing, and then passed over with a plan that knows the
scanned properties only by their spans. Where spans are distinct, the two passes together do what a
single map does that has no plan and no state.

* `Tree.simplify_tree`: the simplified tree is the tree shortened by eligibility.
* `Tree.simplify_report`: the counts are those of the eligible and of the plain properties of the
  tree before, and no entry of the plan is left.
* `Tree.simplify_eq_shortenedBy` (**simplification is the in-place map**): both, and that no
  property refuses what is planned for it.
-/

namespace Concise.Tree

/-- All candidates of a scan together plan what every property is eligible for. -/
lemma asChoice_candidates {t : Tree} (hdistinct : t.HasDistinctSpans) {p : Property}
    (hp : p ∈ t.properties) :
    (Plan.ofCandidates (t.scan Property.classify?).candidates).asChoice p = p.eligible? := by
  rw [asChoice_ofCandidates hdistinct (List.Subset.refl _) hp]
  cases heligible : p.eligible? with
  | none => rfl
  | some s =>
      have hmem : p.candidate s ∈ (t.scan Property.classify?).candidates :=
        mem_candidates.mpr ⟨p, hp, s, heligible, rfl⟩
      simp [Option.filter, hmem]

/-- The simplified tree is the tree shortened by eligibility. -/
lemma simplify_tree {t : Tree} (hdistinct : t.HasDistinctSpans) :
    t.simplify.tree = t.shortenedBy Property.eligible? :=
  (carryOut_ofCandidates hdistinct (List.Subset.refl _)).trans
    (shortenedBy_congr fun _ hp => asChoice_candidates hdistinct hp)

/-- The report on a simplified tree counts properties of the tree before, and no entry of the plan
is left over. -/
lemma simplify_report {t : Tree} (hdistinct : t.HasDistinctSpans) :
    t.simplify.pending = 0 ∧
      t.simplify.counts =
        { visited := t.properties.countP (·.form.isPlain)
          shorthand := t.properties.countP fun p => p.eligible? = some .shorthand
          methods := t.properties.countP fun p => p.eligible? = some .method } := by
  have hsub := List.Subset.refl (t.scan Property.classify?).candidates
  obtain ⟨hpending, hshorthand, hmethods⟩ := (carryOut_eq (pursues_ofCandidates hdistinct
    (apt_of_eligible? (eligible?_of_asChoice hdistinct hsub))
    (exists_of_mem_candidates hsub))).2.finish
  have hcount : ∀ s, t.properties.countP (fun p =>
      (Plan.ofCandidates (t.scan Property.classify?).candidates).asChoice p = some s) =
        t.properties.countP fun p => p.eligible? = some s := by
    intro s
    refine List.countP_congr fun p hp => ?_
    rw [asChoice_candidates hdistinct hp]
  have hvisited : (t.scan Property.classify?).visited = t.properties.countP (·.form.isPlain) := by
    rw [scan_classify?]
  refine ⟨hpending, ?_⟩
  show Counts.mk _ _ _ = Counts.mk _ _ _
  rw [Counts.mk.injEq]
  exact ⟨hvisited, hshorthand.trans (hcount _), hmethods.trans (hcount _)⟩

/-- The number of simplifications is the number of eligible properties. -/
lemma simplified_simplify {t : Tree} (hdistinct : t.HasDistinctSpans) :
    t.simplify.counts.simplified = t.properties.countP (·.eligible?.isSome) := by
  have hsplit : ∀ ps : List Property, ps.countP (fun p => p.eligible? = some .shorthand) +
      ps.countP (fun p => p.eligible? = some .method) = ps.countP (·.eligible?.isSome) := by
    intro ps
    induction ps with
    | nil => rfl
    | cons p ps ih =>
        simp only [List.countP_cons, ← ih]
        cases p.eligible? with
        | none => simp
        | some s => cases s <;> simp <;> omega
  rw [(simplify_report hdistinct).2]
  exact hsplit t.properties

/-- **Simplification is the in-place map**: where spans are distinct, the simplified tree is the
tree in which every plain property, at every depth, has been replaced by what its classification in
the tree before makes of it, and all else is as it was. No property refuses its simplification, no
entry of the plan is left over, and the counts are the numbers of these properties and of all plain
ones. -/
theorem simplify_eq_shortenedBy (t : Tree) (hdistinct : t.HasDistinctSpans) :
    t.simplify.tree = t.shortenedBy Property.eligible? ∧
      (∀ p ∈ t.properties, ∀ s, p.eligible? = some s → (p.simplified? s).isSome) ∧
      t.simplify.pending = 0 ∧
      t.simplify.counts.shorthand =
        t.properties.countP (fun p => p.eligible? = some .shorthand) ∧
      t.simplify.counts.methods = t.properties.countP (fun p => p.eligible? = some .method) ∧
      t.simplify.counts.visited = t.properties.countP (fun p => p.form.isPlain) := by
  obtain ⟨hpending, hcounts⟩ := simplify_report hdistinct
  refine ⟨simplify_tree hdistinct, fun p hp s hs => (apt_eligible? t.properties p hp s hs).2,
    hpending, ?_, ?_, ?_⟩
  all_goals rw [hcounts]

/-- `({ "f": function g() { return { b: b }; }, ...c, 1: c, __proto__: c, c: c })`, with its
spans. -/
def nestedLiteral : Tree :=
  node (.program none) ⟨0, 76⟩ [node .expressionStatement ⟨0, 76⟩ [node .object ⟨1, 75⟩ [
    property ⟨3, 41⟩ {} (node (.string "f" false) ⟨3, 6⟩ [])
      (function ⟨8, 41⟩ { name := some ⟨"g", ⟨17, 18⟩⟩ } absent absent
        (node .parameters ⟨18, 20⟩ []) absent
        (node .functionBody ⟨21, 41⟩ [node .returnValue ⟨23, 39⟩ [node .object ⟨30, 38⟩ [
          property ⟨32, 36⟩ {} (node (.staticName "b") ⟨32, 33⟩ []) (reference ⟨35, 36⟩ "b")]]])),
    node (.spread true) ⟨43, 47⟩ [reference ⟨46, 47⟩ "c"],
    property ⟨49, 53⟩ {} (node (.number "1") ⟨49, 50⟩ []) (reference ⟨52, 53⟩ "c"),
    property ⟨55, 67⟩ {} (node (.staticName "__proto__") ⟨55, 64⟩ []) (reference ⟨66, 67⟩ "c"),
    property ⟨69, 73⟩ {} (node (.staticName "c") ⟨69, 70⟩ []) (reference ⟨72, 73⟩ "c")]]]

/-- Of the five plain properties of the literal, one inside another, two become shorthand and one a
method. -/
theorem simplify_nestedLiteral :
    nestedLiteral.HasDistinctSpans ∧
      nestedLiteral.simplify.tree = nestedLiteral.shortenedBy Property.eligible? ∧
      nestedLiteral.simplify.pending = 0 ∧ nestedLiteral.simplify.counts.shorthand = 2 ∧
      nestedLiteral.simplify.counts.methods = 1 ∧ nestedLiteral.simplify.counts.visited = 5 := by
  have hdistinct : nestedLiteral.HasDistinctSpans := by decide
  obtain ⟨htree, -, hpending, hshorthand, hmethods, hvisited⟩ :=
    simplify_eq_shortenedBy nestedLiteral hdistinct
  exact ⟨hdistinct, htree, hpending, hshorthand.trans (by decide), hmethods.trans (by decide),
    hvisited.trans (by decide)⟩

end Concise.Tree
