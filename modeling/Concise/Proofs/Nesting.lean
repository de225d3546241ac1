import Mathlib.Data.List.Pairwise
import Concise.Dialect
import Concise.Proofs.Confluence
import Concise.Proofs.Plans
import Concise.Proofs.Scanning

/-!
Trees whose spans nest.

A plan finds a property again by its span, so it relies on spans being different. Nothing checks
this; it follows from how the places of a construct and of its parts are related.

* `Tree.clears`: a tree keeps clear of a span if it does not overlap with it, or if it is only a
  frame around parts that keep clear of it. The parameters of a function are such a frame: the
  `this` parameter stands between their parentheses and is a part of its own.
* `Tree.IsNested`: at every address the parts lie inside, no two of them get in each other's way,
  and a property is not empty and not taken up by its key or its value alone.
* `Tree.IsNested.hasDistinctSpans`: in such a tree no two properties have the same span. A property
  in another one begins later or ends earlier; properties in different parts do not overlap.
* **`Tree.spans_identify`**: so a span tells a property, a plan has as many entries as there are
  candidates, and carrying it out moves no property.
-/

namespace Concise

/-! ### Spans -/

namespace Span

/-- Two spans do not overlap. -/
def isApart (a b : Span) : Bool := a.before b || b.before a

variable {a b c : Span}

lemma within_iff : a.within b = true ↔ b.start ≤ a.start ∧ a.stop ≤ b.stop := by
  simp [within]

lemma isApart_iff : a.isApart b = true ↔ a.stop ≤ b.start ∨ b.stop ≤ a.start := by
  simp [isApart, before]

lemma within_refl (a : Span) : a.within a = true := within_iff.mpr ⟨le_rfl, le_rfl⟩

lemma within_trans (hab : a.within b = true) (hbc : b.within c = true) : a.within c = true := by
  rw [within_iff] at *
  omega

lemma isApart_comm : a.isApart b = b.isApart a := by rw [isApart, isApart, Bool.or_comm]

/-- What lies inside a span is apart from what the span is apart from. -/
lemma isApart_of_within (hab : a.within b = true) (hbc : b.isApart c = true) :
    a.isApart c = true := by
  rw [within_iff] at hab
  rw [isApart_iff] at *
  omega

end Span

/-! ### Nested trees -/

namespace Tree

mutual

/-- Whether a tree keeps clear of a span: it does not overlap with the span, or it is no property
and its parts keep clear of the span. -/
def clears (s : Span) : Tree → Bool
  | reference _ _ => true
  | property span _ _ _ => span.isApart s
  | function span _ typeParameters this parameters returned body =>
      span.isApart s || (typeParameters.clears s && this.clears s && parameters.clears s &&
        returned.clears s && body.clears s)
  | node _ span parts => span.isApart s || allClear s parts

/-- Whether some trees keep clear of a span. -/
def allClear (s : Span) : List Tree → Bool
  | [] => true
  | t :: ts => t.clears s && allClear s ts

end

/-- Two trees that do not get in each other's way. -/
def Apart (a b : Tree) : Prop := a.clears b.span = true ∨ b.clears a.span = true

instance : DecidableRel Apart := fun a b =>
  inferInstanceAs (Decidable (a.clears b.span = true ∨ b.clears a.span = true))

end Tree

/-- Where a property stands and where what is in it stands. The property is not empty. A computed
key begins after the property does; any other key is a name or a literal, or at least ends before
the property does. The value begins after the property does, unless this is a shorthand, whose value
is a name. -/
structure Property.IsPlaced (p : Property) : Prop where
  nonempty : p.span.start < p.span.stop
  computed : p.form.isComputed = true → p.span.start < p.key.span.start
  static : p.form.isComputed = false → p.key.parts = [] ∨ p.key.span.stop < p.span.stop
  written : p.form.isShorthand = false → p.span.start < p.value.span.start
  shorthand : p.form.isShorthand = true → p.value.parts = []

instance (p : Property) : Decidable p.IsPlaced :=
  decidable_of_iff (p.span.start < p.span.stop ∧
      (p.form.isComputed = true → p.span.start < p.key.span.start) ∧
      (p.form.isComputed = false → p.key.parts = [] ∨ p.key.span.stop < p.span.stop) ∧
      (p.form.isShorthand = false → p.span.start < p.value.span.start) ∧
      (p.form.isShorthand = true → p.value.parts = []))
    ⟨fun ⟨h₁, h₂, h₃, h₄, h₅⟩ => ⟨h₁, h₂, h₃, h₄, h₅⟩,
      fun ⟨h₁, h₂, h₃, h₄, h₅⟩ => ⟨h₁, h₂, h₃, h₄, h₅⟩⟩

namespace Tree

/-- A tree encloses its parts: those that hold anything lie inside it, and all are apart from each
other. A part that is left out in the source has no place. -/
structure Encloses (t : Tree) : Prop where
  inside : ∀ part ∈ t.parts, part.parts ≠ [] → part.span.within t.span = true
  apart : t.parts.Pairwise Apart
  placed : ∀ p ∈ t.toProperty?, p.IsPlaced

instance (t : Tree) : Decidable t.Encloses :=
  decidable_of_iff
    ((∀ part ∈ t.parts, part.parts ≠ [] → part.span.within t.span = true) ∧
      t.parts.Pairwise Apart ∧ ∀ p ∈ t.toProperty?, p.IsPlaced)
    ⟨fun ⟨h₁, h₂, h₃⟩ => ⟨h₁, h₂, h₃⟩, fun ⟨h₁, h₂, h₃⟩ => ⟨h₁, h₂, h₃⟩⟩

/-- Spans nest: whatever stands in the tree encloses its parts. -/
def IsNested (t : Tree) : Prop := ∀ path u, t.at? path = some u → u.Encloses

instance (t : Tree) : Decidable t.IsNested :=
  decidable_of_iff (∀ path ∈ t.addresses, ∀ u ∈ t.at? path, u.Encloses)
    ⟨fun h path u hu => h path (mem_addresses.mpr (hu ▸ rfl)) u hu,
      fun h path _ u hu => h path u hu⟩

/-! ### Clearance -/

@[simp] lemma allClear_eq (s : Span) (ts : List Tree) : allClear s ts = ts.all (clears s) := by
  induction ts with
  | nil => rfl
  | cons t ts ih => rw [allClear, ih, List.all_cons]

/-- A tree that keeps clear of a span, but overlaps with it, is no property, and its parts keep
clear. -/
lemma clears_cases {t : Tree} {s : Span} (h : t.clears s = true) :
    t.span.isApart s = true ∨ t.toProperty? = none ∧ ∀ part ∈ t.parts, part.clears s = true := by
  cases t with
  | reference span name => exact .inr ⟨rfl, by simp [parts]⟩
  | property span form key value => exact .inl h
  | function span head typeParameters this parameters returned body =>
      simpa [clears, toProperty?, parts, Tree.span, and_assoc] using h
  | node kind span parts => simpa [clears, toProperty?, Tree.parts, Tree.span] using h

/-! ### Where properties stand -/

/-- A tree without parts holds no property. -/
lemma properties_of_parts_eq_nil {t : Tree} (h : t.parts = []) : t.properties = [] := by
  cases t with
  | property => simp [parts] at h
  | reference | function | node => simp_all [properties, parts]

namespace IsNested

variable {t : Tree} (h : t.IsNested)

include h

lemma encloses : t.Encloses := h [] t rfl

lemma part {part : Tree} (hpart : part ∈ t.parts) : part.IsNested := by
  intro path u hu
  obtain ⟨index, hindex⟩ := List.mem_iff_getElem?.mp hpart
  refine h (index :: path) u ?_
  rw [at?_cons, hindex]
  exact hu

lemma isPlaced {p : Property} (hp : p ∈ t.properties) : p.IsPlaced := by
  obtain ⟨path, u, hu, hproperty⟩ := (mem_iff_exists_at? properties_eq).mp hp
  exact (h path u hu).placed p hproperty

/-- The properties of a nested tree lie inside it. -/
lemma within {p : Property} (hp : p ∈ t.properties) : p.span.within t.span = true := by
  induction t using indParts with
  | h t ih =>
      rw [properties_eq, List.mem_append, Option.mem_toList, toProperty?_eq_some,
        List.mem_flatMap] at hp
      rcases hp with rfl | ⟨part, hpart, hp⟩
      · exact Span.within_refl p.span
      · have hparts : part.parts ≠ [] := fun hnil => by
          rw [properties_of_parts_eq_nil hnil] at hp
          cases hp
        exact Span.within_trans (ih part hpart (h.part hpart) hp)
          (h.encloses.inside part hpart hparts)

/-- The properties of a nested tree that keeps clear of a span are apart from it. -/
lemma isApart_of_clears {s : Span} (hclears : t.clears s = true) {p : Property}
    (hp : p ∈ t.properties) : p.span.isApart s = true := by
  induction t using indParts with
  | h t ih =>
      rcases clears_cases hclears with hspan | ⟨hnone, hparts⟩
      · exact Span.isApart_of_within (h.within hp) hspan
      · rw [properties_eq, hnone, Option.toList_none, List.nil_append, List.mem_flatMap] at hp
        obtain ⟨part, hpart, hp⟩ := hp
        exact ih part hpart (h.part hpart) (hparts part hpart) hp

omit h in
/-- Properties in trees that are apart do not overlap. -/
lemma isApart_of_apart {a b : Tree} (ha : a.IsNested) (hb : b.IsNested) (hapart : a.Apart b)
    {p q : Property} (hp : p ∈ a.properties) (hq : q ∈ b.properties) :
    p.span.isApart q.span = true := by
  rcases hapart with hclears | hclears
  · rw [Span.isApart_comm]
    refine Span.isApart_of_within (hb.within hq) ?_
    rw [Span.isApart_comm]
    exact ha.isApart_of_clears hclears hp
  · refine Span.isApart_of_within (ha.within hp) ?_
    rw [Span.isApart_comm]
    exact hb.isApart_of_clears hclears hq

end IsNested

/-- What stands in a property of a nested tree does not take it up: it begins later, or it ends
earlier. -/
lemma IsNested.span_ne {p q : Property} (h : p.tree.IsNested)
    (hq : q ∈ p.key.properties ++ p.value.properties) : p.span ≠ q.span := by
  have hplaced := h.isPlaced p.mem_properties
  intro hspan
  rcases List.mem_append.mp hq with hq | hq
  · have hwithin := Span.within_iff.mp ((h.part p.key_mem_parts).within hq)
    rw [← hspan] at hwithin
    cases hcomputed : p.form.isComputed with
    | true =>
        have hlater := hplaced.computed hcomputed
        omega
    | false =>
        rcases hplaced.static hcomputed with hparts | hearlier
        · rw [properties_of_parts_eq_nil hparts] at hq
          cases hq
        · omega
  · have hwithin := Span.within_iff.mp ((h.part p.value_mem_parts).within hq)
    rw [← hspan] at hwithin
    cases hshorthand : p.form.isShorthand with
    | true =>
        rw [properties_of_parts_eq_nil (hplaced.shorthand hshorthand)] at hq
        cases hq
    | false =>
        have hlater := hplaced.written hshorthand
        omega

/-- **No two properties of a nested tree have the same span.** -/
lemma IsNested.hasDistinctSpans {t : Tree} (h : t.IsNested) : t.HasDistinctSpans := by
  refine List.pairwise_map.mpr ?_
  induction t using indParts with
  | h t ih =>
      rw [properties_eq, List.pairwise_append, List.pairwise_flatMap]
      refine ⟨?_, ⟨fun part hpart => ih part hpart (h.part hpart), ?_⟩, ?_⟩
      · cases t.toProperty? <;> simp
      · -- different parts: the properties in them do not overlap, and none is empty
        refine h.encloses.apart.imp_of_mem fun {a b} ha hb hapart p hp q hq hspan => ?_
        have hspans := Span.isApart_iff.mp
          (isApart_of_apart (h.part ha) (h.part hb) hapart hp hq)
        have hnonempty := ((h.part ha).isPlaced hp).nonempty
        rw [← hspan] at hspans
        omega
      · -- the tree itself is a property, and the others stand in it
        intro p hp q hq
        obtain rfl := toProperty?_eq_some.mp (Option.mem_toList.mp hp)
        refine h.span_ne ?_
        simpa [Property.tree, parts] using hq

/-! ### Plans -/

/-- The spans of the candidates of a scan are among those of the properties, in the same order. -/
lemma spans_candidates_sublist {σ : Type} (select : Selector σ) (initial : σ) (t : Tree) :
    ((t.scanWith select initial).1.candidates.map Candidate.span).Sublist
      (t.properties.map Property.span) := by
  have hoffers : ∀ offers : List (Property × Option Simplification),
      ((Findings.ofOffers offers).candidates.map Candidate.span).Sublist
        ((offers.map Prod.fst).map Property.span) := by
    intro offers
    induction offers with
    | nil => exact .slnil
    | cons offer offers ih =>
        obtain ⟨p, chosen⟩ := offer
        cases chosen with
        | none => exact ih.cons p.span
        | some s => exact ih.cons_cons p.span
  rw [scanWith_eq]
  refine (hoffers _).trans ?_
  rw [Pass.map_fst_offers]
  exact (List.filter_sublist).map _

end Tree

/-- A plan for candidates with different spans has an entry for each of them. -/
lemma Progress.pending_ofCandidates {candidates : List Candidate}
    (h : (candidates.map Candidate.span).Nodup) :
    (Progress.ofCandidates candidates).pending = candidates.length := by
  have hlength := (Plan.spans_ofCandidates candidates).length_eq
  rw [h.dedup, List.length_map] at hlength
  rw [← hlength, Plan.spans, List.length_map]
  rfl

namespace Tree

/-- **Spans identify properties.** In a tree whose spans nest,

* two addresses at which properties with the same span stand are the same address;
* the candidates of a scan, whatever its selector is and remembers, have different spans, and the
  plan that they make has as many entries as there are candidates;
* carrying out some of the candidates found by classification leaves every property where it is. -/
theorem spans_identify {t : Tree} (h : t.IsNested) :
    (∀ (path path' : List Nat) (p q : Property), t.at? path = some p.tree →
      t.at? path' = some q.tree → p.span = q.span → path = path') ∧
    (∀ (σ : Type) (select : Selector σ) (initial : σ),
      ((t.scanWith select initial).1.candidates.map Candidate.span).Nodup ∧
        (Progress.ofCandidates (t.scanWith select initial).1.candidates).pending =
          (t.scanWith select initial).1.candidates.length) ∧
    ∀ chosen : List Candidate, chosen.Sublist (t.scan Property.classify?).candidates →
      (t.carryOut (.ofCandidates chosen)).1.properties.map Property.span =
        t.properties.map Property.span := by
  have hdistinct := h.hasDistinctSpans
  refine ⟨?_, ?_, ?_⟩
  · intro path path' p q hp hq hspan
    by_contra hne
    have hpairwise := List.pairwise_map.mp hdistinct
    rw [properties_eq_filterMap, List.pairwise_filterMap] at hpairwise
    have hsymm : Std.Symm fun path path' : List Nat => ∀ p, (t.at? path).bind toProperty? = some p →
        ∀ q, (t.at? path').bind toProperty? = some q → p.span ≠ q.span :=
      ⟨fun _ _ hspans p hp q hq => (hspans q hq p hp).symm⟩
    refine hpairwise.forall (mem_addresses.mpr (hp ▸ rfl)) (mem_addresses.mpr (hq ▸ rfl)) hne
      p ?_ q ?_ hspan
    · rw [hp]
      rfl
    · rw [hq]
      rfl
  · intro σ select initial
    have hnodup := hdistinct.sublist (spans_candidates_sublist select initial t)
    exact ⟨hnodup, Progress.pending_ofCandidates hnodup⟩
  · intro chosen hchosen
    rw [carryOut_ofCandidates hdistinct hchosen.subset]
    exact map_span_shortenedBy (apt_of_eligible? (eligible?_of_asChoice hdistinct hchosen.subset))

/-- `({a, b() { return {c: c}; }, [{d: d}]: e, 'f': function () {}})` -/
def variedSource : String :=
  "(\x7ba, b() \x7b return \x7bc: c\x7d; \x7d, [\x7bd: d\x7d]: e, 'f': function () \x7b\x7d\x7d)"

/-- A shorthand, a method with a property in it, a property in a computed key: all have spans of
their own, and however many of the three candidates are carried out, they keep them. -/
theorem spans_identify_variedSource : ∃ program,
    Program.parse? .script false variedSource = some program ∧ program.tree.IsNested ∧
      (Progress.ofCandidates
        (program.tree.scanWith (.pure Property.classify?) ()).1.candidates).pending = 3 ∧
      ∀ chosen : List Candidate,
        chosen.Sublist (program.tree.scan Property.classify?).candidates →
          (program.tree.carryOut (.ofCandidates chosen)).1.properties.map Property.span =
            [⟨2, 3⟩, ⟨5, 27⟩, ⟨19, 23⟩, ⟨29, 40⟩, ⟨31, 35⟩, ⟨42, 61⟩] := by
  have hviews : (Program.parse? .script false variedSource).map (fun program =>
        (decide program.tree.IsNested,
          (program.tree.scanWith (.pure Property.classify?) ()).1.candidates.length,
          program.tree.properties.map Property.span)) =
      some (true, 3, [⟨2, 3⟩, ⟨5, 27⟩, ⟨19, 23⟩, ⟨29, 40⟩, ⟨31, 35⟩, ⟨42, 61⟩]) := by
    decide +kernel
  obtain ⟨program, hparse, hall⟩ := Option.map_eq_some_iff.mp hviews
  obtain ⟨hnested, hcandidates, hspans⟩ : program.tree.IsNested ∧ _ ∧ _ := by
    simpa only [Prod.mk.injEq, decide_eq_true_eq] using hall
  obtain ⟨-, hscan, hcarry⟩ := spans_identify hnested
  refine ⟨program, hparse, hnested, (hscan _ _ _).2.trans hcandidates, fun chosen hchosen => ?_⟩
  exact (hcarry chosen hchosen).trans hspans

end Tree

end Concise
