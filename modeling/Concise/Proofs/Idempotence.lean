import Concise.Proofs.Outline
import Concise.Proofs.Parsing
import Concise.Proofs.Transforming

/-!
Transforming a source that has been transformed.

* `Tree.simplified_eq_zero_iff` and `Tree.visited_simplify`: what the counts of a simplification say
  about the tree before and the tree after.
* `Program.RoundTrips`: what is printed is read again with the same outline. This is all that is
  asked of the printer.
* `transformSource_of_isSimple`: a source in which nothing is left to simplify is kept as it is,
  whatever the options.
* `transformSource_idempotent` (**a second transformation changes nothing**): whatever the options
  of the first and of the second one.
-/

namespace Concise

/-! ### Counts -/

namespace Tree

variable {t : Tree}

/-- A tree is simple exactly if simplifying it does nothing. -/
lemma simplified_eq_zero_iff (hdistinct : t.HasDistinctSpans) :
    t.simplify.counts.simplified = 0 ↔ t.IsSimple := by
  rw [simplified_simplify hdistinct, List.countP_eq_zero]
  simp [IsSimple]

/-- A simplified tree has as many plain properties fewer as were simplified. -/
lemma visited_simplify (hdistinct : t.HasDistinctSpans) :
    t.simplify.tree.properties.countP (·.form.isPlain) + t.simplify.counts.simplified =
      t.simplify.counts.visited := by
  have h := @visited_shortenedBy t Property.eligible? fun _ _ _ h => h
  rw [scan_classify?, scan_classify?] at h
  rw [simplified_simplify hdistinct, simplify_tree hdistinct, (simplify_report hdistinct).2]
  exact h

end Tree

/-! ### Transforming -/

/-- The printed text of a program is read again, in the same dialect, with the same outline. -/
def Program.RoundTrips (options : PrintOptions) (program : Program) : Prop :=
  ∃ again, Program.parse? program.dialect false (program.print options) = some again ∧
    again.tree.outline = program.tree.outline

instance (options : PrintOptions) (program : Program) : Decidable (program.RoundTrips options) :=
  match h : Program.parse? program.dialect false (program.print options) with
  | none => isFalse fun ⟨_, hagain, _⟩ => nomatch h.symm.trans hagain
  | some again =>
      decidable_of_iff (again.tree.outline = program.tree.outline)
        ⟨fun houtline => ⟨again, h, houtline⟩, fun ⟨_, hagain, houtline⟩ =>
          Option.some.inj (h.symm.trans hagain) ▸ houtline⟩

section Transforming

variable {dialect : Dialect} {source : String} {program : Program}

/-- A source in which nothing is left to simplify is kept as it is, whatever the options. -/
lemma transformSource_of_isSimple (hparse : Program.parse? dialect false source = some program)
    (hsimple : program.tree.IsSimple) (options : TransformOptions) :
    ∃ out, transformSource dialect options source = .ok out ∧ out.isChanged = false ∧
      out.code = source ∧ out.counts.simplified = 0 ∧
      out.counts.visited = program.tree.properties.countP (·.form.isPlain) := by
  have hdistinct := Program.hasDistinctSpans_of_parse? hparse
  have hzero := (Tree.simplified_eq_zero_iff hdistinct).mpr hsimple
  refine ⟨_, transformAs_eq_ok_iff.mpr ⟨program, hparse, rfl⟩, ?_, ?_, hzero, ?_⟩
  · simp [hzero]
  · simp [hzero]
  · exact congrArg Counts.visited (Tree.simplify_report hdistinct).2

/-- **A second transformation changes nothing**: if a source is transformed, and what is printed for
it is read again with the same outline, then the result can be transformed again, with any options,
and is then kept as it is. The second transformation passes over the properties that the first one
has simplified. A source that was changed is not its own result. -/
theorem transformSource_idempotent (dialect : Dialect) (first second : TransformOptions)
    (source : String) (out : Transformed) (hout : transformSource dialect first source = .ok out)
    (hround : ∀ program, Program.parse? dialect false source = some program →
      { program with tree := program.tree.simplify.tree }.RoundTrips first.printOptions) :
    (∃ again, transformSource dialect second out.code = .ok again ∧ again.isChanged = false ∧
      again.code = out.code ∧ again.counts.simplified = 0 ∧
      again.counts.visited + out.counts.simplified = out.counts.visited) ∧
      (out.isChanged = true → out.code ≠ source) := by
  obtain ⟨program, hparse, rfl⟩ := transformAs_eq_ok_iff.mp hout
  have hdistinct := Program.hasDistinctSpans_of_parse? hparse
  have hvisited := Tree.visited_simplify hdistinct
  by_cases hzero : program.tree.simplify.counts.simplified = 0
  · -- nothing was simplified, so the second transformation reads the same source
    have hsimple := (Tree.simplified_eq_zero_iff hdistinct).mp hzero
    obtain ⟨again, hagain, hchanged, hcode, hnone, hcount⟩ :=
      transformSource_of_isSimple hparse hsimple second
    refine ⟨⟨again, ?_⟩, by simp [hzero]⟩
    simp only [hzero, bne_self_eq_false, Bool.false_eq_true, if_false, add_zero] at hvisited ⊢
    refine ⟨hagain, hchanged, hcode, hnone, ?_⟩
    rw [hcount, ← hvisited, (hsimple.simplify hdistinct).1]
  · obtain rfl := Program.dialect_of_parse? hparse
    obtain ⟨reread, hreread, houtline⟩ := hround program hparse
    obtain ⟨last, hrun⟩ := Program.run_of_parse? hreread
    have hsimple := (Tree.isSimple_simplify hdistinct).of_outline houtline.symm hrun.legible
    have hplain := Tree.countP_isPlain_of_outline houtline
    obtain ⟨again, hagain, hchanged, hcode, hnone, hcount⟩ :=
      transformSource_of_isSimple hreread hsimple second
    simp only [bne_iff_ne, ne_eq, hzero, not_false_eq_true, if_true]
    refine ⟨⟨again, hagain, hchanged, hcode, hnone, ?_⟩, fun _ hsame => ?_⟩
    · rw [hcount, hplain, hvisited]
    · -- otherwise the tree would have lost none of its plain properties
      rw [hsame, hparse] at hreread
      obtain rfl := Option.some.inj hreread
      have hcounts := congrArg Counts.visited (Tree.simplify_report hdistinct).2
      dsimp only at hcounts hplain
      omega

/-- A literal whose method holds another one, with a quoted key, a string in double quotes and a
number in base sixteen:
```
({a: a, 'f': function g() { return {b: b} }, s: "t", n: 0x1f})
```
-/
def nestedSource : String :=
  "(\x7ba: a, 'f': function g() \x7b return \x7bb: b\x7d \x7d, s: \"t\", n: 0x1f\x7d)"

/-- The nested source with its properties simplified, as it is printed with single quotes. -/
def nestedResult : String :=
  "(\x7b\n\ta,\n\tf() \x7b\n\t\treturn \x7b b \x7d;\n\t\x7d,\n\ts: 't',\n\tn: 31\n\x7d);\n"

/-- The nested source is transformed with single quotes and then kept when double quotes are asked
for; printing has changed the spelling of the number and of the string. -/
theorem transformSource_nestedSource :
    ∃ out, transformSource .moduleWithMarkup (.withQuote .single) nestedSource = .ok out ∧
      out.code = nestedResult ∧
      (∀ program, Program.parse? .moduleWithMarkup false nestedSource = some program →
        { program with tree := program.tree.simplify.tree }.RoundTrips ⟨.single⟩) ∧
      (∃ again, transformSource .moduleWithMarkup (.withQuote .double) out.code = .ok again ∧
        again.isChanged = false ∧ again.code = out.code ∧ again.counts.simplified = 0 ∧
        again.counts.visited + out.counts.simplified = out.counts.visited) ∧
      out.code ≠ nestedSource := by
  have hround : ∀ program ∈ Program.parse? .moduleWithMarkup false nestedSource,
      { program with tree := program.tree.simplify.tree }.RoundTrips ⟨.single⟩ := by
    decide +kernel
  have hcode : ((transformSource .moduleWithMarkup (.withQuote .single) nestedSource).map
      fun out => (out.code, out.isChanged)).toOption = some (nestedResult, true) := by
    decide +kernel
  cases hout : transformSource .moduleWithMarkup (.withQuote .single) nestedSource with
  | error error =>
      rw [hout] at hcode
      cases hcode
  | ok out =>
      rw [hout] at hcode
      obtain ⟨hcode, hchanged⟩ := Prod.mk.inj (Option.some.inj hcode)
      obtain ⟨hagain, hne⟩ := transformSource_idempotent .moduleWithMarkup (.withQuote .single)
        (.withQuote .double) nestedSource out hout hround
      exact ⟨out, rfl, hcode, hround, hagain, hne hchanged⟩

end Transforming

end Concise
