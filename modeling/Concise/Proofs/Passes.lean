import Mathlib.Data.List.Forall2
import Concise.Proofs.Planning

/-!
What a pass over a tree meets.

A pass offers a property before it goes into it, and it does not go into a key that what was chosen
makes superfluous. So which properties it meets depends on what it chooses on the way, and what it
chooses depends on those that it has met.

* `Tree.met`: the properties that a pass meets, in the order in which it meets them and as they
  stand when they are offered. They are the ones that the choice is really asked about: the pass is
  run with a record.
* `Pass.Turns`: what a pass makes of a property that it meets.
* `Tree.exists_passedOver`: one induction over the tree. The state at the end is that after the
  properties that were met, one after the other, and the properties of the result are these,
  each turned as was chosen for it.
-/

namespace Concise

namespace Pass

variable {σ : Type} (choose : Property → σ → Option Simplification × σ)

/-- The choice with a record of the properties that it was asked about. -/
def recording (p : Property) (state : σ × List Property) :
    Option Simplification × (σ × List Property) :=
  ((choose p state.1).1, ((choose p state.1).2, state.2 ++ [p]))

/-- What a pass makes of a property that it meets: it goes through the key and the value, in states
of the given kind, and carries out what was chosen. -/
def Turns (P : σ → Prop) (offer : Property × Option Simplification) (q : Property) : Prop :=
  ∃ inKey inValue : σ, P inKey ∧ P inValue ∧
    q = Property.simplifiedBy
      ⟨offer.1.span, offer.1.form, (offer.1.key.simplifyWith choose inKey).1,
        (offer.1.value.simplifyWith choose inValue).1⟩ offer.2

variable {choose} {P : σ → Prop} {s mid last : σ} {p q : Property}
  {before before' ps ps' after after' : List Property}

lemma Turns.span_eq {offer : Property × Option Simplification} (h : Turns choose P offer q) :
    q.span = offer.1.span := by
  obtain ⟨_, _, -, -, rfl⟩ := h
  exact Property.span_simplifiedBy _ _

/-- A pass that begins in the state `s` and ends in the state `last` has met the properties `ps`
among `before`, and these have become `after`. -/
structure Met (choose : Property → σ → Option Simplification × σ) (P : σ → Prop) (s : σ)
    (before ps : List Property) (last : σ) (after : List Property) : Prop where
  keeps : P last
  state : last = stateAfter choose s ps
  sublist : ps.Sublist before
  turned : List.Forall₂ (Turns choose P) (offers choose s ps) after

namespace Met

lemma nil (hs : P s) : Met choose P s [] [] s [] := ⟨hs, rfl, .slnil, .nil⟩

lemma append (h : Met choose P s before ps mid after)
    (h' : Met choose P mid before' ps' last after') :
    Met choose P s (before ++ before') (ps ++ ps') last (after ++ after') where
  keeps := h'.keeps
  state := by rw [stateAfter_append, ← h.state, h'.state]
  sublist := h.sublist.append h'.sublist
  turned := by
    rw [offers_append, ← h.state]
    exact List.rel_append h.turned h'.turned

/-- A property that is met before the others. -/
lemma cons (hq : Turns choose P (p, (choose p s).1) q)
    (h : Met choose P (choose p s).2 before ps last after) :
    Met choose P s (p :: before) (p :: ps) last (q :: after) where
  keeps := h.keeps
  state := h.state
  sublist := h.sublist.cons_cons p
  turned := .cons hq h.turned

/-- Properties that are not met. -/
lemma skip (h : Met choose P s before ps last after) (skipped : List Property) :
    Met choose P s (skipped ++ before) ps last after :=
  { h with sublist := h.sublist.trans (List.sublist_append_right _ _) }

/-- The properties keep their spans. -/
lemma map_span (h : Met choose P s before ps last after) :
    after.map Property.span = ps.map Property.span := by
  have hspans : List.Forall₂ (· = ·) ((offers choose s ps).map (·.1.span))
      (after.map Property.span) :=
    List.forall₂_map_left_iff.mpr (List.forall₂_map_right_iff.mpr
      (h.turned.imp fun _ _ hturns => hturns.span_eq.symm))
  rw [List.forall₂_eq_eq_eq] at hspans
  have hmet := congrArg (List.map Property.span) (@map_fst_offers σ choose s ps)
  rw [List.map_map] at hmet
  exact hspans.symm.trans hmet

/-- The property at an index has been turned as was chosen after those before it. -/
lemma turns (h : Met choose P s before ps last after) {i : Nat} (hp : ps[i]? = some p)
    (hq : after[i]? = some q) :
    Turns choose P (p, (choose p (stateAfter choose s (ps.take i))).1) q := by
  have hoffer : (offers choose s ps)[i]? =
      some (p, (choose p (stateAfter choose s (ps.take i))).1) := by
    rw [getElem?_offers, hp]
    rfl
  obtain ⟨hi, hoffer⟩ := List.getElem?_eq_some_iff.mp hoffer
  obtain ⟨hj, hq⟩ := List.getElem?_eq_some_iff.mp hq
  rw [← hoffer, ← hq]
  exact h.turned.get hi hj

end Met

end Pass

open Pass

/-! ### One property -/

section Property

variable {σ : Type} {choose : Property → σ → Option Simplification × σ}

namespace Property

/-- Only for an identifier is a key dropped. -/
lemma exists_reference_of_dropsKey {value : Tree} {chosen : Option Simplification}
    (h : dropsKey value chosen = true) : ∃ span name, value = .reference span name := by
  unfold dropsKey at h
  split at h
  · exact ⟨_, _, rfl⟩
  · cases h

/-- A key that is dropped has no part in the result, and what replaces it holds no property. -/
lemma simplifiedBy_of_dropsKey {p : Property} {chosen : Option Simplification}
    (h : dropsKey p.value chosen = true) :
    (p.simplifiedBy chosen).key.properties = [] ∧
      ∀ key, Property.simplifiedBy { p with key } chosen = p.simplifiedBy chosen := by
  obtain ⟨span, form, key, value⟩ := p
  unfold dropsKey at h
  split at h
  · obtain rfl := ‹value = _›
    exact ⟨by simp [simplifiedBy, simplified?, Tree.properties], fun _ => rfl⟩
  · cases h

/-- Any other key holds the same properties afterwards: it is kept, or was a literal. -/
lemma properties_key_simplifiedBy {p : Property} {chosen : Option Simplification}
    (h : dropsKey p.value chosen = false) :
    (p.simplifiedBy chosen).key.properties = p.key.properties := by
  obtain ⟨span, form, key, value⟩ := p
  rcases chosen with _ | _ | _
  · rfl
  · cases value with
    | reference => cases h
    | property | function | node => rfl
  · cases value with
    | function =>
        show key.unquoted.properties = key.properties
        unfold Tree.unquoted
        split
        · simp [Tree.properties]
        · rfl
    | reference | property | node => rfl

lemma properties_value_simplifiedBy (p : Property) (chosen : Option Simplification) :
    (p.simplifiedBy chosen).value.properties = p.value.properties := by
  rw [value_simplifiedBy]
  split_ifs
  · exact Tree.properties_unnamed p.value
  · rfl

/-- The properties of a property, seen from the one it was simplified from. -/
lemma properties_tree_simplifiedBy {p : Property} {chosen : Option Simplification}
    (h : dropsKey p.value chosen = false) :
    (p.simplifiedBy chosen).tree.properties =
      p.simplifiedBy chosen :: (p.key.properties ++ p.value.properties) := by
  rw [tree, Tree.properties, properties_key_simplifiedBy h, properties_value_simplifiedBy]

end Property

namespace Tree

/-- A pass makes no identifier of a value that is none, and the other way round. -/
lemma dropsKey_simplifyWith (value : Tree) (chosen : Option Simplification) (s : σ) :
    Property.dropsKey (value.simplifyWith choose s).1 chosen = Property.dropsKey value chosen := by
  cases value with
  | property span form key value =>
      rw [simplifyWith_property]
      rcases chosen with _ | _ | _ <;> rfl
  | reference | function | node => rcases chosen with _ | _ | _ <;> rfl

/-- Nor does it give or take the name of a function that it goes through. -/
lemma functionName?_simplifyWith (t : Tree) (s : σ) :
    (t.simplifyWith choose s).1.functionName? = t.functionName? := by
  cases t with
  | property span form key value =>
      rw [simplifyWith_property]
      rfl
  | reference | function | node => rfl

end Tree

end Property

/-! ### The whole pass -/

namespace Tree

section Pass

variable {σ : Type} (choose : Property → σ → Option Simplification × σ)

/-- The properties that a pass meets, in the order in which it meets them, as they stand then. -/
def met (t : Tree) (s : σ) : List Property := (t.simplifyWith (recording choose) (s, [])).2.2

variable {choose} {P : σ → Prop}

/-- A pass from the state `s` meets the properties `ps`: they are what a record of it shows. -/
structure PassedOver (choose : Property → σ → Option Simplification × σ) (P : σ → Prop) (t : Tree)
    (s : σ) (ps : List Property) : Prop where
  recorded : ∀ log, t.simplifyWith (recording choose) (s, log) =
    ((t.simplifyWith choose s).1, (t.simplifyWith choose s).2, log ++ ps)
  met : Met choose P s t.properties ps (t.simplifyWith choose s).2
    (t.simplifyWith choose s).1.properties

/-- A pass over some trees meets what it meets in one after the other. -/
lemma exists_passedOverAll {ts : List Tree}
    (h : ∀ t ∈ ts, ∀ s, P s → ∃ ps, t.PassedOver choose P s ps) :
    ∀ s, P s → ∃ ps,
      (∀ log, simplifyAllWith (recording choose) ts (s, log) =
        ((simplifyAllWith choose ts s).1, (simplifyAllWith choose ts s).2, log ++ ps)) ∧
      Met choose P s (ts.flatMap properties) ps (simplifyAllWith choose ts s).2
        ((simplifyAllWith choose ts s).1.flatMap properties) := by
  induction ts with
  | nil => exact fun s hs => ⟨[], fun log => by simp [simplifyAllWith], .nil hs⟩
  | cons t ts ih =>
      intro s hs
      obtain ⟨ps, hrecorded, hmet⟩ := h t List.mem_cons_self s hs
      obtain ⟨ps', hrecorded', hmet'⟩ :=
        ih (fun u hu => h u (List.mem_cons_of_mem t hu)) _ hmet.keeps
      refine ⟨ps ++ ps', fun log => ?_, hmet.append hmet'⟩
      simp only [simplifyAllWith, hrecorded, hrecorded', List.append_assoc]

/-- A pass over a property whose key is dropped meets nothing else. -/
lemma exists_passedOver_of_dropsKey {p : Property} {s : σ} (hs : P (choose p s).2)
    (hdrop : Property.dropsKey p.value (choose p s).1 = true) :
    ∃ ps, p.tree.PassedOver choose P s ps := by
  obtain ⟨span, name, hvalue⟩ := Property.exists_reference_of_dropsKey hdrop
  obtain ⟨hkey, hsame⟩ := Property.simplifiedBy_of_dropsKey hdrop
  have hkept : ∀ {τ : Type} (choose : Property → τ → Option Simplification × τ) (s : τ),
      p.value.simplifyWith choose s = (p.value, s) := by
    intro τ choose s
    rw [hvalue]
    rfl
  have hresult : p.tree.simplifyWith choose s =
      ((p.simplifiedBy (choose p s).1).tree, (choose p s).2) := by
    rw [Property.tree, simplifyWith_property]
    simp only [hdrop, if_true, hkept]
  have hproperties : (p.simplifiedBy (choose p s).1).tree.properties =
      [p.simplifiedBy (choose p s).1] := by
    rw [Property.tree, properties, hkey, Property.properties_value_simplifiedBy, hvalue]
    rfl
  refine ⟨[p], fun log => ?_, ?_⟩
  · rw [hresult, Property.tree, simplifyWith_property]
    simp only [recording, hdrop, if_true, hkept]
  · rw [hresult, hproperties]
    refine .cons ⟨(choose p s).2, (choose p s).2, hs, hs, ?_⟩ ?_
    · rw [hkept]
      exact (hsame _).symm
    · have hskipped := (@Met.nil σ choose P _ hs).skip (p.key.properties ++ p.value.properties)
      rwa [List.append_nil] at hskipped

/-- A pass over a property goes through the key, if that is not dropped, and then the value. -/
lemma exists_passedOver_of_keepsKey {p : Property} {s : σ} (hs : P (choose p s).2)
    (hkeep : Property.dropsKey p.value (choose p s).1 = false)
    (h : ∀ t ∈ [p.key, p.value], ∀ s, P s → ∃ ps, t.PassedOver choose P s ps) :
    ∃ ps, p.tree.PassedOver choose P s ps := by
  obtain ⟨ps, hkey, hmet⟩ := h p.key (by simp) _ hs
  obtain ⟨ps', hvalue, hmet'⟩ := h p.value (by simp) _ hmet.keeps
  have hresult := @simplifyWith_property σ choose p.span p.form p.key p.value s
  simp only [hkeep, Bool.false_eq_true, if_false] at hresult
  refine ⟨p :: (ps ++ ps'), fun log => ?_, ?_⟩
  · rw [Property.tree, hresult, simplifyWith_property]
    simp only [recording, hkeep, Bool.false_eq_true, if_false, hkey, hvalue, List.append_assoc,
      List.cons_append, List.nil_append]
  · rw [Property.tree, hresult, Property.properties_tree_simplifiedBy]
    · exact .cons ⟨_, _, hs, hmet.keeps, rfl⟩ (hmet.append hmet')
    · rw [dropsKey_simplifyWith, hkeep]

variable (hstep : ∀ p s, P s → P (choose p s).2)

include hstep in
/-- **What a pass meets and what it makes of it.** -/
lemma exists_passedOver (t : Tree) : ∀ s, P s → ∃ ps, t.PassedOver choose P s ps := by
  induction t with
  | reference span name =>
      exact fun s hs => ⟨[], fun log => by simp [simplifyWith], .nil hs⟩
  | property span form key value ihKey ihValue =>
      intro s hs
      have hs' := hstep ⟨span, form, key, value⟩ s hs
      cases hdrop : Property.dropsKey value (choose ⟨span, form, key, value⟩ s).1 with
      | true => exact exists_passedOver_of_dropsKey (p := ⟨span, form, key, value⟩) hs' hdrop
      | false =>
          refine exists_passedOver_of_keepsKey (p := ⟨span, form, key, value⟩) hs' hdrop ?_
          simpa using ⟨ihKey, ihValue⟩
  | function span head typeParameters this parameters returned body ih₁ ih₂ ih₃ ih₄ ih₅ =>
      intro s hs
      obtain ⟨ps, hrecorded, hmet⟩ := @exists_passedOverAll σ choose P
        [typeParameters, this, parameters, returned, body]
        (by simpa using ⟨ih₁, ih₂, ih₃, ih₄, ih₅⟩) s hs
      refine ⟨ps, fun log => ?_, ?_⟩
      · have hlog := hrecorded log
        simp only [simplifyAllWith, Prod.mk.injEq, List.cons.injEq] at hlog
        simp [simplifyWith, hlog]
      · simpa [simplifyAllWith, simplifyWith, properties] using hmet
  | node kind span parts ih =>
      intro s hs
      obtain ⟨ps, hrecorded, hmet⟩ := exists_passedOverAll ih s hs
      refine ⟨ps, fun log => ?_, ?_⟩
      · simp only [simplifyWith, hrecorded]
      · simpa only [simplifyWith, properties, propertiesAll_eq] using hmet

include hstep in
/-- The properties that are met are those of the result, each turned as was chosen for it. -/
lemma met_met (t : Tree) {s : σ} (hs : P s) :
    Met choose P s t.properties (t.met choose s) (t.simplifyWith choose s).2
      (t.simplifyWith choose s).1.properties := by
  obtain ⟨ps, hrecorded, hmet⟩ := exists_passedOver hstep t s hs
  have hps : t.met choose s = ps := by rw [met, hrecorded, List.nil_append]
  rwa [hps]

end Pass

end Tree

end Concise
