import Concise.Dialect
import Concise.Proofs.Applying
import Concise.Proofs.Parsing

/-!
What operations on a program leave as it is.

A simplification is carried out whatever the form of a property is: nothing but the shape of the
value is looked at. So that a property becomes a shorthand or a method, at most one of them, and
remains it, rests on the values: they keep their shape, whatever is done around them and inside
them.

* `Tree.settled` leaves out of every property what a simplification may change. A pass keeps the
  rest (`settled_simplifyWith`).
* `Tree.Lasts`: a value is what it was, up to properties inside it and the name of a function.
* `Property.Persists`: what a property and a later one at the same place have in common. It holds
  after a step (`Tree.exists_persists_of_pass`), and it is transitive, hence it holds after a run of
  operations (`Tree.exists_persists_of_performAll`).
* **`Program.follows_performAll`**: whatever is done with a program, in any order, every state
  follows on every earlier one.
-/

namespace Concise

/-! ### What a pass keeps -/

namespace Tree

mutual

/-- The tree without what a simplification may change: of a property, its key, whether it is a
shorthand or a method, and the name of a function that is its value. -/
def settled : Tree → Tree
  | reference span name => reference span name
  | property span form _ value =>
      property span { accessor := form.accessor, isComputed := form.isComputed } absent
        value.settled.unnamed
  | function span head typeParameters this parameters returned body =>
      function span head typeParameters.settled this.settled parameters.settled returned.settled
        body.settled
  | node kind span parts => node kind span (settledAll parts)

/-- The trees without what a simplification may change. -/
def settledAll : List Tree → List Tree
  | [] => []
  | t :: ts => t.settled :: settledAll ts

end

@[simp] lemma settledAll_eq (ts : List Tree) : settledAll ts = ts.map settled := by
  induction ts with
  | nil => rfl
  | cons t ts ih => rw [settledAll, ih, List.map_cons]

@[simp] lemma unnamed_unnamed (t : Tree) : t.unnamed.unnamed = t.unnamed := by
  cases t <;> rfl

lemma settled_unnamed (t : Tree) : t.unnamed.settled = t.settled.unnamed := by
  cases t <;> rfl

/-- A simplification changes nothing but what is left out. -/
lemma settled_simplifiedBy (p : Property) (chosen : Option Simplification) :
    (p.simplifiedBy chosen).tree.settled = p.tree.settled := by
  have hvalue : (p.simplifiedBy chosen).value.settled.unnamed = p.value.settled.unnamed := by
    rw [Property.value_simplifiedBy]
    split_ifs
    · rw [settled_unnamed, unnamed_unnamed]
    · rfl
  obtain ⟨haccessor, hcomputed⟩ := p.form_simplifiedBy chosen
  rw [Property.tree, Property.tree, settled, settled, hvalue, haccessor, hcomputed,
    Property.span_simplifiedBy]

section Pass

variable {σ : Type} {choose : Property → σ → Option Simplification × σ}

lemma settled_simplifyAllWith {ts : List Tree}
    (h : ∀ t ∈ ts, ∀ s, (t.simplifyWith choose s).1.settled = t.settled) (s : σ) :
    (simplifyAllWith choose ts s).1.map settled = ts.map settled := by
  induction ts generalizing s with
  | nil => rfl
  | cons t ts ih =>
      obtain ⟨ht, hts⟩ := List.forall_mem_cons.mp h
      simp only [simplifyAllWith, List.map_cons, ht, ih hts]

/-- **A pass changes nothing but what is left out.** -/
lemma settled_simplifyWith (t : Tree) : ∀ s, (t.simplifyWith choose s).1.settled = t.settled := by
  induction t with
  | reference span name => exact fun s => rfl
  | property span form key value ihKey ihValue =>
      intro s
      rw [simplifyWith_property]
      refine (settled_simplifiedBy _ _).trans ?_
      rw [Property.tree, settled, settled, ihValue]
  | function span head typeParameters this parameters returned body ih₁ ih₂ ih₃ ih₄ ih₅ =>
      intro s
      simp only [simplifyWith, settled, ih₁, ih₂, ih₃, ih₄, ih₅]
  | node kind span parts ih =>
      intro s
      simp only [simplifyWith, settled, settledAll_eq, settled_simplifyAllWith ih]

end Pass

/-! ### Values -/

/-- A value is what it was, up to properties inside it and the name of a function. -/
inductive Lasts : Tree → Tree → Prop
  | reference {span : Span} {name : String} : Lasts (reference span name) (reference span name)
  | property {span : Span} {form form' : PropertyForm} {key key' value value' : Tree}
      (haccessor : form'.accessor = form.accessor) (hcomputed : form'.isComputed = form.isComputed)
      (hvalue : value'.settled.unnamed = value.settled.unnamed) :
      Lasts (property span form key value) (property span form' key' value')
  | function {span : Span} {head : FunctionHead} {name : Option Name}
      {typeParameters typeParameters' this this' parameters parameters' returned returned' body
        body' : Tree}
      (htypeParameters : typeParameters'.settled = typeParameters.settled)
      (hthis : this'.settled = this.settled)
      (hparameters : parameters'.settled = parameters.settled)
      (hreturned : returned'.settled = returned.settled) (hbody : body'.settled = body.settled) :
      Lasts (function span head typeParameters this parameters returned body)
        (function span { head with name } typeParameters' this' parameters' returned' body')
  | node {kind : Kind} {span : Span} {parts parts' : List Tree}
      (hparts : parts'.map settled = parts.map settled) :
      Lasts (node kind span parts) (node kind span parts')

lemma Lasts.of_settled {t u : Tree} (h : u.settled.unnamed = t.settled.unnamed) : t.Lasts u := by
  cases t with
  | reference span name =>
      cases u with
      | reference => cases h; exact .reference
      | property | function | node => cases h
  | property span form key value =>
      cases u with
      | property =>
          simp only [settled, unnamed, Tree.property.injEq, PropertyForm.mk.injEq] at h
          obtain ⟨rfl, ⟨haccessor, -, -, hcomputed⟩, -, hvalue⟩ := h
          exact .property haccessor hcomputed hvalue
      | reference | function | node => cases h
  | function span head typeParameters this parameters returned body =>
      cases u with
      | function span' head' =>
          simp only [settled, unnamed, Tree.function.injEq, FunctionHead.mk.injEq] at h
          obtain ⟨rfl, ⟨hrole, -, hasync, hgenerator, hdeclare, hparenthesized⟩, h₁, h₂, h₃, h₄,
            h₅⟩ := h
          have hhead : head' = { head with name := head'.name } := by
            cases head; cases head'; simp_all
          rw [hhead]
          exact .function h₁ h₂ h₃ h₄ h₅
      | reference | property | node => cases h
  | node kind span parts =>
      cases u with
      | node =>
          simp only [settled, unnamed, settledAll_eq, Tree.node.injEq] at h
          obtain ⟨rfl, rfl, hparts⟩ := h
          exact .node hparts
      | reference | property | function => cases h

lemma Lasts.settled {t u : Tree} (h : t.Lasts u) : u.settled.unnamed = t.settled.unnamed := by
  cases h with
  | reference => rfl
  | property haccessor hcomputed hvalue =>
      rw [Tree.settled, Tree.settled, haccessor, hcomputed, hvalue]
  | function h₁ h₂ h₃ h₄ h₅ => simp [Tree.settled, unnamed, h₁, h₂, h₃, h₄, h₅]
  | node hparts => simp [Tree.settled, unnamed, hparts]

lemma Lasts.refl (t : Tree) : t.Lasts t := .of_settled rfl

lemma Lasts.trans {t u v : Tree} (h : t.Lasts u) (h' : u.Lasts v) : t.Lasts v :=
  .of_settled (h'.settled.trans h.settled)

lemma Lasts.unnamed (t : Tree) : t.Lasts t.unnamed := by
  refine .of_settled ?_
  rw [settled_unnamed, unnamed_unnamed]

/-- What a value is decides whether it fits a form. -/
lemma Lasts.fits {t u : Tree} {form : PropertyForm} (h : t.Lasts u) (hfits : t.Fits form) :
    u.Fits form := by
  cases h <;> exact hfits

end Tree

/-! ### Properties -/

/-- What a property and a later one have in common. A shorthand or a method remains one, and it
becomes one only if the value fits. -/
structure Property.Persists (p q : Property) : Prop where
  span : q.span = p.span
  accessor : q.form.accessor = p.form.accessor
  isComputed : q.form.isComputed = p.form.isComputed
  isMethod : p.form.isMethod = true → q.form.isMethod = true
  isShorthand : p.form.isShorthand = true → q.form.isShorthand = true
  fits : p.value.Fits p.form → q.value.Fits q.form
  value : p.value.Lasts q.value

namespace Property

variable {p q r : Property}

lemma Persists.refl (p : Property) : p.Persists p := ⟨rfl, rfl, rfl, id, id, id, .refl _⟩

lemma Persists.trans (h : p.Persists q) (h' : q.Persists r) : p.Persists r where
  span := h'.span.trans h.span
  accessor := h'.accessor.trans h.accessor
  isComputed := h'.isComputed.trans h.isComputed
  isMethod := h'.isMethod ∘ h.isMethod
  isShorthand := h'.isShorthand ∘ h.isShorthand
  fits := h'.fits ∘ h.fits
  value := h.value.trans h'.value

/-- A property persists if something is changed inside it. -/
lemma persists_inside (p : Property) (key : Tree) {value : Tree} (h : p.value.Lasts value) :
    p.Persists ⟨p.span, p.form, key, value⟩ :=
  ⟨rfl, rfl, rfl, id, id, h.fits, h⟩

/-- A property persists if it is simplified, whatever its form. -/
lemma persists_simplifiedBy (p : Property) (chosen : Option Simplification) :
    p.Persists (p.simplifiedBy chosen) := by
  obtain ⟨span, form, key, value⟩ := p
  rcases chosen with _ | _ | _
  · exact .refl _
  · cases value with
    | reference => exact ⟨rfl, rfl, rfl, id, fun _ => rfl, id, .refl _⟩
    | property | function | node => exact .refl _
  · cases value with
    | function => exact ⟨rfl, rfl, rfl, fun _ => rfl, id, id, .unnamed _⟩
    | reference | property | node => exact .refl _

/-- A property that fits its form is not both a shorthand and a method. -/
lemma not_both_of_fits (h : p.value.Fits p.form) :
    ¬ (p.form.isShorthand = true ∧ p.form.isMethod = true) := by
  rintro ⟨hshorthand, hmethod⟩
  unfold Tree.Fits at h
  split at h
  · cases h.symm.trans hmethod
  · cases h.symm.trans hshorthand
  · cases h.1.symm.trans hmethod

end Property

namespace Pass

variable {σ : Type} {choose : Property → σ → Option Simplification × σ} {P : σ → Prop}

lemma Turns.persists {offer : Property × Option Simplification} {q : Property}
    (h : Turns choose P offer q) : offer.1.Persists q := by
  obtain ⟨inKey, inValue, -, -, rfl⟩ := h
  refine (offer.1.persists_inside _ ?_).trans (Property.persists_simplifiedBy _ _)
  exact .of_settled (congrArg Tree.unnamed (Tree.settled_simplifyWith _ inValue))

end Pass

/-! ### Operations -/

/-- What can be done with a tree. -/
inductive Operation where
  /-- A simplification of the property with an index in document order, whatever its form. -/
  | apply (index : Nat) (simplification : Simplification)
  /-- What is left of a plan is carried out. -/
  | carryOut (progress : Progress)

namespace Tree

/-- The tree after an operation. -/
def perform (t : Tree) : Operation → Tree
  | .apply index s => (t.applyAt index s).1
  | .carryOut progress => (t.carryOut progress).1

/-- The tree after some operations, one after the other. -/
def performAll (t : Tree) (operations : List Operation) : Tree := operations.foldl perform t

section Step

variable {σ : Type} (choose : Property → σ → Option Simplification × σ) (s : σ) (t : Tree)

/-- Every property after a pass was there before. -/
lemma exists_persists_of_pass :
    ∀ q ∈ (t.simplifyWith choose s).1.properties, ∃ p ∈ t.properties, p.Persists q := by
  have hmet : Pass.Met choose (fun _ => True) s t.properties (t.met choose s) _ _ :=
    met_met (fun _ _ _ => trivial) t trivial
  intro q hq
  obtain ⟨i, hq⟩ := List.getElem?_of_mem hq
  have hspan : ((t.met choose s).map Property.span)[i]? = some q.span := by
    rw [← hmet.map_span, List.getElem?_map, hq, Option.map_some]
  obtain ⟨p, hp, -⟩ := Option.map_eq_some_iff.mp (List.getElem?_map ▸ hspan)
  exact ⟨p, hmet.sublist.subset (List.mem_of_getElem? hp), (hmet.turns hp hq).persists⟩

/-- A pass keeps the spans of the properties apart. -/
lemma HasDistinctSpans.pass {t : Tree} (h : t.HasDistinctSpans) :
    (t.simplifyWith choose s).1.HasDistinctSpans := by
  have hmet : Pass.Met choose (fun _ => True) s t.properties (t.met choose s) _ _ :=
    met_met (fun _ _ _ => trivial) t trivial
  rw [HasDistinctSpans, hmet.map_span]
  exact h.sublist (hmet.sublist.map _)

end Step

/-- Every operation is a pass. -/
lemma exists_pass (t : Tree) (operation : Operation) :
    ∃ (σ : Type) (choose : Property → σ → Option Simplification × σ) (s : σ),
      t.perform operation = (t.simplifyWith choose s).1 := by
  cases operation with
  | apply index s => exact ⟨_, Pass.pick s, (index + 1, false), rfl⟩
  | carryOut progress => exact ⟨_, Progress.choose, progress, rfl⟩

/-- Every property after some operations was there before. -/
lemma exists_persists_of_performAll (operations : List Operation) (t : Tree) :
    ∀ q ∈ (t.performAll operations).properties, ∃ p ∈ t.properties, p.Persists q := by
  induction operations generalizing t with
  | nil => exact fun q hq => ⟨q, hq, .refl q⟩
  | cons operation operations ih =>
      intro r hr
      obtain ⟨q, hq, hqr⟩ := ih (t.perform operation) r hr
      obtain ⟨σ, choose, s, heq⟩ := t.exists_pass operation
      obtain ⟨p, hp, hpq⟩ := exists_persists_of_pass choose s t q (heq ▸ hq)
      exact ⟨p, hp, hpq.trans hqr⟩

lemma HasDistinctSpans.performAll {t : Tree} (h : t.HasDistinctSpans)
    (operations : List Operation) : (t.performAll operations).HasDistinctSpans := by
  induction operations generalizing t with
  | nil => exact h
  | cons operation operations ih =>
      obtain ⟨σ, choose, s, heq⟩ := t.exists_pass operation
      exact ih (heq ▸ h.pass choose s)

/-! ### States -/

/-- A state of a tree that is reached from an earlier one. A property is known by its span. -/
structure Follows (earlier t : Tree) : Prop where
  /-- No property is both a shorthand and a method. -/
  exclusive : ∀ q ∈ t.properties, ¬ (q.form.isShorthand = true ∧ q.form.isMethod = true)
  /-- Every property is what exactly one of the earlier ones has become. -/
  persistent : ∀ q ∈ t.properties, ∃! p, p ∈ earlier.properties ∧ p.Persists q
  /-- A simplification that is refused changes nothing. -/
  refusal : ∀ index s, (t.applyAt index s).2 = false → (t.applyAt index s).1 = t
  /-- A simplification that is accepted has been carried out on the property with the index, and to
  repeat it there changes nothing. -/
  repetition : ∀ index s, (t.applyAt index s).2 = true →
    (∃ p q, t.properties[index]? = some p ∧ p.simplified? s = some q ∧
      (t.applyAt index s).1.properties[index]? = some q) ∧
    (t.applyAt index s).1.applyAt index s = ((t.applyAt index s).1, true)

/-- A state follows on an earlier one if spans are distinct and values fit forms. -/
lemma follows_of_fits {t : Tree} (hdistinct : t.HasDistinctSpans)
    (hfits : ∀ p ∈ t.properties, p.value.Fits p.form) (operations : List Operation) :
    t.Follows (t.performAll operations) where
  exclusive q hq := by
    obtain ⟨p, hp, hpq⟩ := exists_persists_of_performAll operations t q hq
    exact Property.not_both_of_fits (hpq.fits (hfits p hp))
  persistent q hq := by
    obtain ⟨p, hp, hpq⟩ := exists_persists_of_performAll operations t q hq
    refine ⟨p, ⟨hp, hpq⟩, fun p' hp' => ?_⟩
    exact hdistinct.eq_of_span_eq hp'.1 hp (hp'.2.span.symm.trans hpq.span)
  refusal _ _ h := eq_of_applyAt_eq_false h
  repetition _ _ h := ⟨exists_of_applyAt_eq_true h, applyAt_applyAt h⟩

end Tree

namespace Program

/-- **A property makes at most one transition.** Whatever is done with a program that was read, in
whatever order: every state follows on what was read and on every state before it. So no property is
both a shorthand and a method, and what is one of them remains it; a property keeps its span, its
kind and whether its key is computed; its value is what it was up to changes to properties inside it
and the name of a function; a refusal changes nothing, and neither does a repetition. -/
theorem follows_performAll {dialect : Dialect} {keepsParentheses : Bool} {source : String}
    {program : Program} (hparse : parse? dialect keepsParentheses source = some program)
    (operations further : List Operation) :
    program.tree.Follows (program.tree.performAll operations) ∧
      (program.tree.performAll operations).Follows
        ((program.tree.performAll operations).performAll further) := by
  have hdistinct := hasDistinctSpans_of_parse? hparse
  obtain ⟨last, hrun⟩ := run_of_parse? hparse
  refine ⟨Tree.follows_of_fits hdistinct hrun.fits operations,
    Tree.follows_of_fits (hdistinct.performAll operations) (fun q hq => ?_) further⟩
  obtain ⟨p, hp, hpq⟩ := Tree.exists_persists_of_performAll operations program.tree q hq
  exact hpq.fits (hrun.fits p hp)

/-- `({[{a: a}]: b, 'c': function c() { return {d: d}; }})` -/
def layeredSource : String :=
  "(\x7b[\x7ba: a\x7d]: b, 'c': function c() \x7b return \x7bd: d\x7d; \x7d\x7d)"

/-- Operations on the layered source. The first one is refused, the third one drops a key with a
property in it, and the last one carries out a plan for the function and for the property that is
gone. -/
def layeredOperations : List Operation :=
  [.apply 0 .method, .apply 3 .shorthand, .apply 0 .shorthand,
    .carryOut { plan := [(⟨15, 51⟩, .method), (⟨4, 8⟩, .shorthand)] }]

/-- Of the four properties of the layered source three are left: a shorthand whose key counts as
computed, a method, and the shorthand in it. -/
theorem follows_performAll_layeredSource : ∃ program,
    parse? .script false layeredSource = some program ∧
      (program.tree.Follows (program.tree.performAll layeredOperations) ∧
        (program.tree.performAll layeredOperations).Follows
          ((program.tree.performAll layeredOperations).performAll [.apply 1 .shorthand])) ∧
      program.tree.properties.map (fun p => (p.span.start, p.form.bits)) =
        [(2, 4), (4, 0), (15, 0), (43, 0)] ∧
      (program.tree.performAll layeredOperations).properties.map
        (fun q => (q.span.start, q.form.bits)) = [(2, 6), (15, 1), (43, 2)] := by
  have hviews : (parse? .script false layeredSource).map (fun program =>
        (program.tree.properties.map (fun p => (p.span.start, p.form.bits)),
          (program.tree.performAll layeredOperations).properties.map
            (fun q => (q.span.start, q.form.bits)))) =
      some ([(2, 4), (4, 0), (15, 0), (43, 0)], [(2, 6), (15, 1), (43, 2)]) := by
    decide +kernel
  obtain ⟨program, hparse, hboth⟩ := Option.map_eq_some_iff.mp hviews
  obtain ⟨hbefore, hafter⟩ := Prod.mk.inj hboth
  exact ⟨program, hparse, follows_performAll hparse layeredOperations _, hbefore, hafter⟩

end Program

end Concise
