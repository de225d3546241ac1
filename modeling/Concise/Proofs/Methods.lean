import Concise.Dialect
import Concise.Proofs.Parsing
import Concise.Proofs.Shape

/-!
What becomes of a function that is made a method.

A function expression knows its own name everywhere in its signature and body, and outside strict
code it may repeat the name of a parameter. A method does neither.

* `Property.eligible?_of_function`: which plain functions become methods. The own name counts if it
  is referred to from the parameters or the body, not if it is referred to from the rest of the
  signature.
* `Program.signature_simplify`: what becomes of a function whose signature refers to its own name.
* `Tree.boundNames`: the names that patterns bind; shortening keeps them
  (`Tree.boundNames_shortenedBy`).
* `Program.parameterNames_simplify`: methods have the parameters of the functions that they were, so
  their names are distinct exactly if those of the functions were.
-/

namespace Concise

/-! ### Which functions become methods -/

/-- The property becomes a method if its value is a plain function that does not refer to itself: it
is plain, and its key can be written bare and does not set the prototype. -/
def Property.takesMethod (p : Property) : Bool :=
  p.form.isPlain && p.keyView?.any fun key => key.text != Key.prototypeText && key.isBare

namespace Tree

/-- The references in the type parameters, the `this` parameter and the return type of a
function. -/
def signatureReferences : Tree → List Name
  | function _ _ typeParameters this _ returned _ =>
      typeParameters.references ++ (this.references ++ returned.references)
  | _ => []

/-- The references in the parameters and the body of a function. -/
def innerReferences : Tree → List Name
  | function _ _ _ _ parameters _ body => parameters.references ++ body.references
  | _ => []

lemma eq_function_of_functionHead? {t : Tree} {head : FunctionHead}
    (h : t.functionHead? = some head) : ∃ span typeParameters this parameters returned body,
      t = function span head typeParameters this parameters returned body := by
  cases t with
  | function span other typeParameters this parameters returned body =>
      obtain rfl := Option.some.inj h
      exact ⟨span, typeParameters, this, parameters, returned, body, rfl⟩
  | reference | property | node => cases h

/-- Only the parameters and the body are searched for the own name of a function. -/
lemma refersToSelf_eq_false_iff {name : Name} {parameters body : Tree} :
    refersToSelf (some name) parameters body = false ↔
      ∀ r ∈ parameters.references ++ body.references, r.text ≠ name.text := by
  rw [refersToSelf, Bool.or_eq_false_iff, ← Bool.not_eq_true, ← Bool.not_eq_true, mentions_iff,
    mentions_iff]
  simp only [List.mem_append, or_imp, forall_and, not_exists, not_and, ne_eq]

lemma signatureReferences_unnamed (t : Tree) :
    t.unnamed.signatureReferences = t.signatureReferences := by
  cases t <;> rfl

lemma signatureReferences_shortenedBy (t : Tree) :
    (t.shortenedBy Property.eligible?).signatureReferences = t.signatureReferences := by
  cases t with
  | function span head typeParameters this parameters returned body =>
      simp only [shortenedBy, signatureReferences, references_shortenedBy (apt_eligible? _)]
  | property span form key value =>
      rw [shortenedBy_property]
      rfl
  | reference | node => rfl

/-- The properties of a simplified tree are those of the tree, one by one. -/
lemma getElem?_properties_simplify {t : Tree} (hdistinct : t.HasDistinctSpans) (i : Nat) :
    t.simplify.tree.properties[i]? = t.properties[i]?.map (·.shortenedBy Property.eligible?) := by
  rw [simplify_tree hdistinct, properties_shortenedBy (apt_eligible? _), List.getElem?_map]

end Tree

namespace Property

variable {p : Property} {head : FunctionHead}

/-- **Which plain functions become methods.** -/
lemma eligible?_of_function {name : Name} (hhead : p.value.functionHead? = some head)
    (hplain : head.isAsync = false ∧ head.isGenerator = false) (hname : head.name = some name) :
    p.eligible? =
      if p.takesMethod = true ∧ ∀ r ∈ p.value.innerReferences, r.text ≠ name.text then some .method
      else none := by
  obtain ⟨span, typeParameters, this, parameters, returned, body, hvalue⟩ :=
    Tree.eq_function_of_functionHead? hhead
  have hview : p.valueView? = some (.function (some name) parameters body) := by
    rw [valueView?, hvalue, Value.ofTree?, hplain.1, hplain.2, hname]
    rfl
  simp only [hvalue, Tree.innerReferences, ← Tree.refersToSelf_eq_false_iff]
  rw [eligible?, classify?, hview, takesMethod]
  cases p.form.isPlain with
  | false => simp
  | true =>
      cases p.keyView? with
      | none => simp
      | some key => simp [Key.simplification?_function, and_comm, and_left_comm, and_assoc]

/-- A property whose function becomes a method. -/
lemma shortenedBy_of_method (h : p.eligible? = some .method) :
    (p.shortenedBy eligible?).form = { p.form with isMethod := true } ∧
      (p.shortenedBy eligible?).value.functionHead? =
        p.value.functionHead?.map fun head => { head with name := none } := by
  rw [shortenedBy_eq_method h, Tree.functionHead?_unnamed, Tree.functionHead?_shortenedBy]
  exact ⟨rfl, rfl⟩

/-- A property that is not simplified. -/
lemma shortenedBy_of_none (h : p.eligible? = none) :
    (p.shortenedBy eligible?).form = p.form ∧
      (p.shortenedBy eligible?).value.functionHead? = p.value.functionHead? := by
  rw [shortenedBy_of_eq_none h]
  exact ⟨rfl, Tree.functionHead?_shortenedBy p.value⟩

/-- What neither shortening nor the loss of a name changes about a function is the same about the
value of a property, whatever becomes of the property. -/
lemma apply_value_shortenedBy {α : Type} {f : Tree → α} {choice : Property → Option Simplification}
    (hname : ∀ t : Tree, f t.unnamed = f t) (hshort : ∀ t : Tree, f (t.shortenedBy choice) = f t)
    (p : Property) : f (p.shortenedBy choice).value = f p.value := by
  rw [value_shortenedBy]
  split_ifs
  · rw [hname, hshort]
  · exact hshort p.value

end Property

/-- **A function whose signature refers to its own name** keeps it, and is not made a method, if the
key does not allow a method or if the name is also referred to from the parameters or the body.
Otherwise the property becomes a method, the name is dropped, and the reference in the signature is
left without it. -/
theorem Program.signature_simplify (dialect : Dialect) (keepsParentheses : Bool) (source : String)
    (program : Program) (hparse : Program.parse? dialect keepsParentheses source = some program)
    (i : Nat) (p : Property) (hp : program.tree.properties[i]? = some p) (head : FunctionHead)
    (hhead : p.value.functionHead? = some head)
    (hplain : head.isAsync = false ∧ head.isGenerator = false) (name : Name)
    (hname : head.name = some name)
    (hsignature : ∃ r ∈ p.value.signatureReferences, r.text = name.text) :
    ∃ q, program.tree.simplify.tree.properties[i]? = some q ∧
      (∃ r ∈ q.value.signatureReferences, r.text = name.text) ∧
      (q.form = p.form ∧ q.value.functionHead? = some head ∧
          (p.takesMethod = false ∨ ∃ r ∈ p.value.innerReferences, r.text = name.text) ∨
        q.form = { p.form with isMethod := true } ∧
          q.value.functionHead? = some { head with name := none } ∧
          p.takesMethod = true ∧ ∀ r ∈ p.value.innerReferences, r.text ≠ name.text) := by
  have hdistinct := Program.hasDistinctSpans_of_parse? hparse
  have heligible := Property.eligible?_of_function hhead hplain hname
  refine ⟨p.shortenedBy Property.eligible?, ?_, ?_, ?_⟩
  · rw [Tree.getElem?_properties_simplify hdistinct, hp]
    rfl
  · rwa [Property.apply_value_shortenedBy Tree.signatureReferences_unnamed
      Tree.signatureReferences_shortenedBy]
  · by_cases hmade : p.takesMethod = true ∧ ∀ r ∈ p.value.innerReferences, r.text ≠ name.text
    · rw [if_pos hmade] at heligible
      obtain ⟨hform, hhead'⟩ := Property.shortenedBy_of_method heligible
      rw [hhead] at hhead'
      exact .inr ⟨hform, hhead', hmade⟩
    · rw [if_neg hmade] at heligible
      obtain ⟨hform, hhead'⟩ := Property.shortenedBy_of_none heligible
      rw [hhead] at hhead'
      refine .inl ⟨hform, hhead', ?_⟩
      simpa [imp_iff_not_or] using hmade

/-- What a property shows of its function: whether it is written as a method, what it is apart from
its parts, and the references in its signature and inside it. -/
structure Heading where
  isMethod : Bool
  head? : Option FunctionHead
  signature : List Name
  inner : List Name
deriving DecidableEq

/-- What a property shows of its function. -/
def Property.heading (p : Property) : Heading :=
  ⟨p.form.isMethod, p.value.functionHead?, p.value.signatureReferences, p.value.innerReferences⟩

/-- The first property of a source and what it becomes, from what a view shows of them. -/
lemma Program.exists_first {α : Type} {view : Property → α} {dialect : Dialect} {source : String}
    {before after : α}
    (h : (Program.parse? dialect false source).map (fun program =>
        (program.tree.properties[0]?.map view,
          program.tree.simplify.tree.properties[0]?.map view)) =
      some (some before, some after)) :
    ∃ (program : Program) (p q : Property), Program.parse? dialect false source = some program ∧
      program.tree.properties[0]? = some p ∧ program.tree.simplify.tree.properties[0]? = some q ∧
      view p = before ∧ view q = after := by
  obtain ⟨program, hparse, hviews⟩ := Option.map_eq_some_iff.mp h
  obtain ⟨hbefore, hafter⟩ := Prod.mk.inj hviews
  obtain ⟨p, hp, hview⟩ := Option.map_eq_some_iff.mp hbefore
  obtain ⟨q, hq, hview'⟩ := Option.map_eq_some_iff.mp hafter
  exact ⟨program, p, q, hparse, hp, hq, hview, hview'⟩

/-- `var o = {g: function f(): typeof f { return f; }};` -/
def recursiveSource : String :=
  "var o = \x7bg: function f(): typeof f \x7b return f; \x7d\x7d;"

/-- The recursive source keeps its function: the body refers to the name, as the return type
does. -/
theorem Program.signature_simplify_returned : ∃ (program : Program) (p q : Property),
    Program.parse? .typeScript false recursiveSource = some program ∧
      program.tree.properties[0]? = some p ∧ program.tree.simplify.tree.properties[0]? = some q ∧
      (∃ r ∈ p.value.signatureReferences, r.text = "f") ∧ q.form = p.form ∧
      q.value.functionHead? = some { name := some ⟨"f", ⟨21, 22⟩⟩ } := by
  have hviews : (Program.parse? .typeScript false recursiveSource).map (fun program =>
        (program.tree.properties[0]?.map Property.heading,
          program.tree.simplify.tree.properties[0]?.map Property.heading)) =
      some (some ⟨false, some { name := some ⟨"f", ⟨21, 22⟩⟩ }, [⟨"f", ⟨33, 34⟩⟩],
          [⟨"f", ⟨44, 45⟩⟩]⟩,
        some ⟨false, some { name := some ⟨"f", ⟨21, 22⟩⟩ }, [⟨"f", ⟨33, 34⟩⟩],
          [⟨"f", ⟨44, 45⟩⟩]⟩) := by
    decide +kernel
  obtain ⟨program, p, q, hparse, hp, hq, hbefore, -⟩ := Program.exists_first hviews
  simp only [Property.heading, Heading.mk.injEq] at hbefore
  obtain ⟨-, hhead, hsignature, hinner⟩ := hbefore
  have hmention : ∃ r ∈ p.value.signatureReferences, r.text = "f" := by simp [hsignature]
  obtain ⟨q', hq', -, hkept | hmade⟩ := signature_simplify .typeScript false recursiveSource program
    hparse 0 p hp _ hhead ⟨rfl, rfl⟩ ⟨"f", ⟨21, 22⟩⟩ rfl hmention
  · obtain rfl := Option.some.inj (hq.symm.trans hq')
    exact ⟨program, p, q, hparse, hp, hq, hmention, hkept.1, hkept.2.1⟩
  · exact absurd rfl (hmade.2.2.2 ⟨"f", ⟨44, 45⟩⟩ (by simp [hinner]))

/-- `var o = {g: function f(): typeof f { return null; }};` -/
def typedSource : String :=
  "var o = \x7bg: function f(): typeof f \x7b return null; \x7d\x7d;"

/-- The function of the typed source becomes a method, although its return type refers to its name,
which is dropped. -/
theorem Program.signature_losesName : ∃ (program : Program) (p q : Property),
    Program.parse? .typeScript false typedSource = some program ∧
      program.tree.properties[0]? = some p ∧ program.tree.simplify.tree.properties[0]? = some q ∧
      p.form.isMethod = false ∧ p.value.functionHead? = some { name := some ⟨"f", ⟨21, 22⟩⟩ } ∧
      (∃ r ∈ p.value.signatureReferences, r.text = "f") ∧
      q.form.isMethod = true ∧ q.value.functionHead? = some { name := none } ∧
      ∃ r ∈ q.value.signatureReferences, r.text = "f" := by
  have hviews : (Program.parse? .typeScript false typedSource).map (fun program =>
        (program.tree.properties[0]?.map Property.heading,
          program.tree.simplify.tree.properties[0]?.map Property.heading)) =
      some (some ⟨false, some { name := some ⟨"f", ⟨21, 22⟩⟩ }, [⟨"f", ⟨33, 34⟩⟩], []⟩,
        some ⟨true, some { name := none }, [⟨"f", ⟨33, 34⟩⟩], []⟩) := by
    decide +kernel
  obtain ⟨program, p, q, hparse, hp, hq, hbefore, hafter⟩ := Program.exists_first hviews
  simp only [Property.heading, Heading.mk.injEq] at hbefore hafter
  exact ⟨program, p, q, hparse, hp, hq, hbefore.1, hbefore.2.1, by simp [hbefore.2.2.1], hafter.1,
    hafter.2.1, by simp [hafter.2.2.1]⟩

/-! ### The names of parameters -/

/-- The name that is bound by a construct itself. -/
def Kind.ownNames : Kind → List String
  | .binding name => [name]
  | _ => []

/-- The parts of a pattern in which further names are bound. A type, a key or an initialiser is none
of them. -/
def Kind.patterns {α : Type} (kind : Kind) (parts : List α) : List α :=
  match kind with
  | .parameters | .objectPattern | .arrayPattern | .restPattern => parts
  | .typedPattern _ | .defaultPattern => parts.take 1
  | .patternProperty _ _ | .parameter _ => parts.drop 1
  | _ => []

namespace Tree

mutual

/-- The names that a pattern binds, in document order, each as often as it is bound. -/
def boundNames : Tree → List String
  | node kind _ parts => kind.ownNames ++ (kind.patterns (boundNamesOfEach parts)).flatten
  | _ => []

/-- The names that some patterns bind. -/
def boundNamesOfEach : List Tree → List (List String)
  | [] => []
  | t :: ts => t.boundNames :: boundNamesOfEach ts

end

/-- The names that the parameters of a function bind. -/
def parameterNames : Tree → List String
  | function _ _ _ _ parameters _ _ => parameters.boundNames
  | _ => []

/-- Simplifying a tree makes a method of one of its properties. -/
def MakesMethod (t : Tree) (p q : Property) : Prop :=
  ∃ i : Nat, t.properties[i]? = some p ∧ t.simplify.tree.properties[i]? = some q ∧
    p.form.isMethod = false ∧ q.form.isMethod = true

variable {choice : Property → Option Simplification}

lemma boundNamesOfEach_eq (ts : List Tree) : boundNamesOfEach ts = ts.map boundNames := by
  induction ts with
  | nil => rfl
  | cons t ts ih => rw [boundNamesOfEach, ih, List.map_cons]

/-- **Shortening keeps the names that are bound**, whatever is simplified in initialisers and
computed keys. -/
lemma boundNames_shortenedBy (t : Tree) : (t.shortenedBy choice).boundNames = t.boundNames := by
  induction t with
  | reference span name => rfl
  | property span form key value =>
      rw [shortenedBy_property]
      rfl
  | function span head typeParameters this parameters returned body => rfl
  | node kind span parts ih =>
      have heach : boundNamesOfEach (parts.map (shortenedBy choice)) = boundNamesOfEach parts := by
        rw [boundNamesOfEach_eq, boundNamesOfEach_eq, List.map_map]
        exact List.map_congr_left ih
      rw [shortenedBy_node, boundNames, boundNames, heach]

lemma parameterNames_shortenedBy (t : Tree) :
    (t.shortenedBy choice).parameterNames = t.parameterNames := by
  cases t with
  | function span head typeParameters this parameters returned body =>
      exact boundNames_shortenedBy parameters
  | property span form key value =>
      rw [shortenedBy_property]
      rfl
  | reference | node => rfl

lemma parameterNames_unnamed (t : Tree) : t.unnamed.parameterNames = t.parameterNames := by
  cases t <;> rfl

end Tree

namespace Property

/-- A property becomes a method exactly if it is eligible for that. -/
lemma isMethod_shortenedBy_iff (p : Property) :
    p.form.isMethod = false ∧ (p.shortenedBy eligible?).form.isMethod = true ↔
      p.eligible? = some .method := by
  constructor
  · rintro ⟨hbefore, hafter⟩
    cases heligible : p.eligible? with
    | none =>
        rw [(shortenedBy_of_none heligible).1, hbefore] at hafter
        cases hafter
    | some s =>
        cases s with
        | method => rfl
        | shorthand =>
            obtain ⟨_, _, -, hvalue, -⟩ :=
              classify?_eq_shorthand (eligible?_eq_some.mp heligible).2
            rw [shortenedBy_eq_shorthand heligible hvalue] at hafter
            cases hbefore.symm.trans hafter
  · intro heligible
    rw [(shortenedBy_of_method heligible).1]
    exact ⟨(p.form.isPlain_iff.mp (eligible?_eq_some.mp heligible).1).1, rfl⟩

end Property

/-- What methods are made of. -/
lemma Tree.makesMethod_iff {t : Tree} (hdistinct : t.HasDistinctSpans) {p q : Property} :
    t.MakesMethod p q ↔ p ∈ t.properties ∧ p.eligible? = some .method ∧
      q = p.shortenedBy Property.eligible? := by
  constructor
  · rintro ⟨i, hp, hq, hmethod⟩
    rw [getElem?_properties_simplify hdistinct, hp] at hq
    obtain rfl := Option.some.inj hq
    exact ⟨List.mem_of_getElem? hp, p.isMethod_shortenedBy_iff.mp hmethod, rfl⟩
  · rintro ⟨hp, heligible, rfl⟩
    obtain ⟨i, hp⟩ := List.mem_iff_getElem?.mp hp
    refine ⟨i, hp, ?_, p.isMethod_shortenedBy_iff.mpr heligible⟩
    rw [getElem?_properties_simplify hdistinct, hp]
    rfl

/-- **A method has the parameters of the function that it was**: the names that they bind are the
same, through all patterns. So the methods that are made bind distinct names exactly if the eligible
functions do; nothing else keeps a function with a repeated name from being made a method. -/
theorem Program.parameterNames_simplify (dialect : Dialect) (keepsParentheses : Bool)
    (source : String) (program : Program)
    (hparse : Program.parse? dialect keepsParentheses source = some program) :
    (∀ p q, program.tree.MakesMethod p q →
      p.eligible? = some .method ∧ q.value.parameterNames = p.value.parameterNames) ∧
    ((∀ p q, program.tree.MakesMethod p q → q.value.parameterNames.Nodup) ↔
      ∀ p ∈ program.tree.properties, p.eligible? = some .method →
        p.value.parameterNames.Nodup) := by
  have hdistinct := Program.hasDistinctSpans_of_parse? hparse
  have hnames : ∀ p q, program.tree.MakesMethod p q →
      p.eligible? = some .method ∧ q.value.parameterNames = p.value.parameterNames := by
    intro p q hmade
    obtain ⟨-, heligible, rfl⟩ := (Tree.makesMethod_iff hdistinct).mp hmade
    exact ⟨heligible, Property.apply_value_shortenedBy Tree.parameterNames_unnamed
      Tree.parameterNames_shortenedBy p⟩
  refine ⟨hnames, ?_, ?_⟩
  · intro h p hp heligible
    have hmade := (Tree.makesMethod_iff hdistinct).mpr ⟨hp, heligible, rfl⟩
    rw [← (hnames _ _ hmade).2]
    exact h _ _ hmade
  · intro h p q hmade
    obtain ⟨hp, heligible, -⟩ := (Tree.makesMethod_iff hdistinct).mp hmade
    rw [(hnames p q hmade).2]
    exact h p hp heligible

/-- `({f: function ({a, b: [c,, ...d], [k]: l, e = {x: x}}, g = a, ...h) {}})` -/
def patternSource : String :=
  "(\x7bf: function (\x7ba, b: [c,, ...d], [k]: l, e = \x7bx: x\x7d\x7d, g = a, ...h) \x7b\x7d\x7d)"

/-- Whether a property is written as a method, and the names that the parameters of its function
bind. -/
def Property.binding (p : Property) : Bool × List String :=
  (p.form.isMethod, p.value.parameterNames)

/-- The function with patterns becomes a method with the same seven names. -/
theorem Program.parameterNames_simplify_patterns : ∃ (program : Program) (p q : Property),
    Program.parse? .script false patternSource = some program ∧ program.tree.MakesMethod p q ∧
      p.eligible? = some .method ∧
      q.value.parameterNames = ["a", "c", "d", "l", "e", "g", "h"] := by
  have hviews : (Program.parse? .script false patternSource).map (fun program =>
        (program.tree.properties[0]?.map Property.binding,
          program.tree.simplify.tree.properties[0]?.map Property.binding)) =
      some (some (false, ["a", "c", "d", "l", "e", "g", "h"]),
        some (true, ["a", "c", "d", "l", "e", "g", "h"])) := by
    decide +kernel
  obtain ⟨program, p, q, hparse, hp, hq, hbefore, hafter⟩ := Program.exists_first hviews
  obtain ⟨hmethod, hnames⟩ := Prod.mk.inj hbefore
  have hmade : program.tree.MakesMethod p q := ⟨0, hp, hq, hmethod, (Prod.mk.inj hafter).1⟩
  obtain ⟨heligible, hsame⟩ :=
    (parameterNames_simplify .script false patternSource program hparse).1 p q hmade
  exact ⟨program, p, q, hparse, hmade, heligible, hsame.trans hnames⟩

/-- `var o = {f: function (a, a) {}};` -/
def repeatedSource : String := "var o = \x7bf: function (a, a) \x7b\x7d\x7d;"

/-- A script may repeat the name of a parameter in a function; the method that is made of it repeats
the name too, which no method may. -/
theorem Program.parameterNames_repeated : ∃ (program : Program) (p q : Property),
    Program.parse? .script false repeatedSource = some program ∧ program.tree.MakesMethod p q ∧
      ¬ q.value.parameterNames.Nodup := by
  have hviews : (Program.parse? .script false repeatedSource).map (fun program =>
        (program.tree.properties[0]?.map Property.binding,
          program.tree.simplify.tree.properties[0]?.map Property.binding)) =
      some (some (false, ["a", "a"]), some (true, ["a", "a"])) := by
    decide +kernel
  obtain ⟨program, p, q, hparse, hp, hq, hbefore, hafter⟩ := Program.exists_first hviews
  obtain ⟨hmethod, -⟩ := Prod.mk.inj hbefore
  obtain ⟨hmethod', hnames⟩ := Prod.mk.inj hafter
  refine ⟨program, p, q, hparse, ⟨0, hp, hq, hmethod, hmethod'⟩, ?_⟩
  rw [hnames]
  decide

end Concise
