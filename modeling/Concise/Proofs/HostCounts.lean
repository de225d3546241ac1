import Mathlib.Data.List.Nodup
import Concise.Proofs.FrontEnds
import Concise.Proofs.InPlace
import Concise.Proofs.Parsing

/-!
Counts for a host program.

A host program is told counts as 32-bit words, and a count that did not fit would be told wrongly
without an error. None is too large: there are no more properties than offsets at which they begin.

* `Property.length_le_of_run`: properties that begin one after the other, all before an offset, are
  at most as many as there are offsets before it.
* `Tree.simplified_le_visited`: a property that is simplified has been counted as a plain one, and
  it is simplified in one way only.
* **`Transformer.counts_exact`**: the counts are at most the number of bytes of the source, so the
  words tell them exactly.
-/

namespace Concise

/-- Properties that begin one after the other before an offset are at most as many as the offset
says. -/
lemma Property.length_le_of_run {first last size : Nat} {ps : List Property}
    (h : Run first last ps) (hinside : ∀ p ∈ ps, p.span.start < size) : ps.length ≤ size := by
  have hnodup : (ps.map (·.span.start)).Nodup :=
    List.pairwise_map.mpr (h.increasing.imp Nat.ne_of_lt)
  have hsub : ps.map (·.span.start) ⊆ List.range size := by
    intro start hstart
    obtain ⟨p, hp, rfl⟩ := List.mem_map.mp hstart
    exact List.mem_range.mpr (hinside p hp)
  have hlength := (hnodup.subperm hsub).length_le
  rwa [List.length_map, List.length_range] at hlength

/-- Every simplified property has been visited, and is simplified in one way. -/
lemma Tree.simplified_le_visited {t : Tree} (hdistinct : t.HasDistinctSpans) :
    t.simplify.counts.shorthand + t.simplify.counts.methods ≤ t.simplify.counts.visited := by
  have hsimplified := simplified_simplify hdistinct
  rw [Counts.simplified] at hsimplified
  rw [hsimplified, (simplify_report hdistinct).2]
  refine List.countP_mono_left fun p _ hsome => ?_
  obtain ⟨s, hs⟩ := Option.isSome_iff_exists.mp hsome
  exact (Property.eligible?_eq_some.mp hs).1

namespace Transformer

/-- **The counts that a host program is told are exact.** Let the name of a source tell the dialect,
let the source be read, with every property inside it, and let it have fewer bytes than there are
32-bit words. Then a transformation has a result and so has the host program's call, be it of a
transformer or a single one; of the properties that were visited, which are at most as many as the
source has bytes, some became shorthand and others methods; and the two words are these numbers. -/
theorem counts_exact {source : String} {name quote : Option String} {t : Transformer}
    {dialect : Dialect} {program : Program} (hquote : ofQuote quote = .ok t)
    (hdialect : Dialect.ofPath? (name.getD defaultName) = some dialect)
    (hparse : Program.parse? dialect false source = some program)
    (hinside : ∀ p ∈ program.tree.properties, p.span.start < source.utf8ByteSize)
    (hsize : source.utf8ByteSize < UInt32.size) :
    ∃ result answer,
      transformFile (name.getD defaultName) t.options source = .ok result ∧
      t.transform source name = .ok answer ∧ transformOnce source name quote = .ok answer ∧
      result.counts.shorthand + result.counts.methods ≤ result.counts.visited ∧
      result.counts.visited ≤ source.utf8ByteSize ∧
      answer.shorthand.toNat = result.counts.shorthand ∧
      answer.methods.toNat = result.counts.methods := by
  obtain ⟨last, hrun⟩ := Program.run_of_parse? hparse
  have hdistinct := Program.hasDistinctSpans_of_parse? hparse
  have hsimplified := Tree.simplified_le_visited hdistinct
  have hvisited : program.tree.simplify.counts.visited ≤ source.utf8ByteSize := by
    rw [(Tree.simplify_report hdistinct).2]
    exact List.countP_le_length.trans (Property.length_le_of_run hrun hinside)
  obtain ⟨result, hresult, hcounts⟩ : ∃ result,
      transformFile (name.getD defaultName) t.options source = .ok result ∧
        result.counts = program.tree.simplify.counts := by
    simp only [transformFile, Dialect.ofPath, hdialect, bind, Except.bind, transformAs,
      Program.parse, hparse]
    exact ⟨_, rfl, rfl⟩
  rw [← hcounts] at hsimplified hvisited
  have htransform : t.transform source name = .ok
      { code := result.code, isChanged := result.isChanged
        shorthand := result.counts.shorthand.toUInt32
        methods := result.counts.methods.toUInt32 } := by
    rw [transform, hresult]
    rfl
  refine ⟨result, _, hresult, htransform, ?_, hsimplified, hvisited, ?_, ?_⟩
  · rw [transformOnce, hquote]
    exact htransform
  · exact UInt32.toNat_ofNat_of_lt' (by omega)
  · exact UInt32.toNat_ofNat_of_lt' (by omega)

/-- `f({a: a, b: function () { return {c: c}; }, d: e})` -/
def countedSource : String :=
  "f(\x7ba: a, b: function () \x7b return \x7bc: c\x7d; \x7d, d: e\x7d)"

/-- Of four properties, one of them in another, two become shorthand and one a method. -/
theorem counts_exact_countedSource : ∃ t answer, ofQuote none = .ok t ∧
    countedSource.utf8ByteSize < UInt32.size ∧ t.transform countedSource none = .ok answer ∧
      transformOnce countedSource none none = .ok answer ∧ answer.shorthand.toNat = 2 ∧
      answer.methods.toNat = 1 := by
  have hstarts : (Program.parse? .moduleWithMarkup false countedSource).map (fun program =>
      program.tree.properties.map (·.span.start)) = some [3, 9, 34, 44] := by
    decide +kernel
  obtain ⟨program, hparse, hstarts⟩ := Option.map_eq_some_iff.mp hstarts
  have hinside : ∀ p ∈ program.tree.properties, p.span.start < countedSource.utf8ByteSize := by
    intro p hp
    have hstart := List.mem_map_of_mem (f := (·.span.start)) hp
    rw [hstarts] at hstart
    revert hstart
    generalize p.span.start = start
    revert start
    decide
  have hquote : ofQuote none = .ok ⟨.withQuote .single⟩ := rfl
  obtain ⟨result, answer, hresult, htransform, honce, -, -, hshorthand, hmethods⟩ :=
    @counts_exact countedSource none none _ _ program hquote rfl hparse hinside (by decide)
  have hcounts : (transformFile defaultName (.withQuote .single) countedSource).map (·.counts) =
      .ok ⟨4, 2, 1⟩ := by
    decide +kernel
  rw [show transformFile defaultName (.withQuote .single) countedSource = .ok result from hresult]
    at hcounts
  have hcounts : result.counts = ⟨4, 2, 1⟩ := Except.ok.inj hcounts
  refine ⟨_, answer, hquote, by decide, htransform, honce, ?_, ?_⟩
  · rw [hshorthand, hcounts]
  · rw [hmethods, hcounts]

end Transformer

end Concise
