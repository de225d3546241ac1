import Mathlib.Data.List.Count
import Concise.Proofs.Eligibility

/-!
What a scan finds.

A scan offers the plain properties of a tree to its selector, one after the other, and the selector
may keep a state. What it answers to each of them is a list of offers, of which the findings are a
count and a filter.

* `Pass.offers` and `Pass.stateAfter`: properties that are offered one after the other, and the
  state that they lead to.
* `Findings.foldl_offer`: a step of a scan counts a plain property and keeps it if it is accepted,
  so the scan of a list is a count and a filter over the answers.
* `Tree.scanWith_eq`: the scan of a tree, for every selector. For a selector without a state the
  findings are a filter over the properties themselves (`Tree.scan_eq`).
-/

namespace Concise

/-! ### Offers -/

namespace Pass

variable {σ : Type} (choose : Property → σ → Option Simplification × σ)

/-- The state after some properties have been offered. -/
def stateAfter (s : σ) (ps : List Property) : σ := ps.foldl (fun s p => (choose p s).2) s

/-- Properties that are offered one after the other, each with what is chosen for it. -/
def offers : σ → List Property → List (Property × Option Simplification)
  | _, [] => []
  | s, p :: ps => (p, (choose p s).1) :: offers (choose p s).2 ps

variable {choose} {s : σ} {ps ps' : List Property}

lemma offers_append : offers choose s (ps ++ ps') =
    offers choose s ps ++ offers choose (stateAfter choose s ps) ps' := by
  induction ps generalizing s with
  | nil => rfl
  | cons p ps ih => simp [offers, ih, stateAfter]

lemma stateAfter_append :
    stateAfter choose s (ps ++ ps') = stateAfter choose (stateAfter choose s ps) ps' :=
  List.foldl_append

/-- What the property at an index is offered is chosen in the state after those before it. -/
lemma getElem?_offers (i : Nat) : (offers choose s ps)[i]? =
    ps[i]?.map fun p => (p, (choose p (stateAfter choose s (ps.take i))).1) := by
  induction ps generalizing s i with
  | nil => rfl
  | cons p ps ih =>
      cases i with
      | zero => rfl
      | succ i => simp [offers, ih, stateAfter]

lemma map_fst_offers : (offers choose s ps).map Prod.fst = ps := by
  induction ps generalizing s with
  | nil => rfl
  | cons p ps ih => simp [offers, ih]

/-- Without a state every property is answered on its own. -/
lemma offers_pure (select : Property → Option Simplification) (s : Unit) (ps : List Property) :
    offers (Selector.pure select) s ps = ps.map fun p => (p, select p) := by
  induction ps with
  | nil => rfl
  | cons p ps ih => exact congrArg _ ih

end Pass

/-! ### Findings -/

/-- One step of a scan: a plain property is offered to the selector. -/
def Findings.offer {σ : Type} (select : Selector σ) (seen : Findings × σ) (p : Property) :
    Findings × σ :=
  if p.form.isPlain then
    let (chosen, s) := select p seen.2
    (seen.1.add p chosen, s)
  else seen

/-- The findings of a scan that asked some questions and got these answers. -/
def Findings.ofOffers (offers : List (Property × Option Simplification)) : Findings where
  visited := offers.length
  candidates := offers.filterMap fun offer => offer.2.map fun s =>
    { span := offer.1.span, name := (offer.1.keyView?.map Key.text).getD "", simplification := s }

/-- **A scan of a list is a count and a filter**: only plain properties are offered, and of these
the accepted ones are kept. The candidates are in reverse as long as the scan goes on. -/
lemma Findings.foldl_offer {σ : Type} (select : Selector σ) (ps : List Property)
    (findings : Findings) (s : σ) :
    ps.foldl (offer select) (findings, s) =
      let found := ofOffers (Pass.offers select s (ps.filter (·.form.isPlain)))
      ({ visited := findings.visited + found.visited
         candidates := found.candidates.reverse ++ findings.candidates },
        Pass.stateAfter select s (ps.filter (·.form.isPlain))) := by
  induction ps generalizing findings s with
  | nil => rfl
  | cons p ps ih =>
      rw [List.foldl_cons, offer]
      cases hplain : p.form.isPlain with
      | false => simp [ih, hplain]
      | true =>
          -- one more question, whose answer goes in front of those that are still to come
          cases hselect : select p s with
          | mk chosen s' =>
              cases chosen with
              | none =>
                  simp [ih, hplain, hselect, add, ofOffers, Pass.offers, Pass.stateAfter]
                  omega
              | some simplification =>
                  simp [ih, hplain, hselect, add, ofOffers, Pass.offers, Pass.stateAfter,
                    Property.candidate]
                  omega

namespace Tree

/-- **A scan offers the properties of a tree one after the other**, in document order. -/
lemma scanFrom_eq {σ : Type} (select : Selector σ) (t : Tree) :
    ∀ seen, t.scanFrom select seen = t.properties.foldl (Findings.offer select) seen := by
  induction t with
  | reference span name => intro seen; rfl
  | property span form key value ihKey ihValue =>
      rintro ⟨findings, s⟩
      rw [scanFrom, ihKey, ihValue, properties, List.foldl_cons, List.foldl_append]
      rfl
  | function span head typeParameters this parameters returned body ih₁ ih₂ ih₃ ih₄ ih₅ =>
      intro seen
      rw [scanFrom, ih₁, ih₂, ih₃, ih₄, ih₅, properties]
      simp only [List.foldl_append]
  | node kind span parts ih =>
      intro seen
      rw [scanFrom, scanAllFrom_eq, properties, propertiesAll_eq, List.foldl_flatMap]
      exact List.foldl_ext _ _ _ fun seen t ht => ih t ht seen

/-- The properties that a scan asks about. -/
def asked (t : Tree) : List Property := t.properties.filter (·.form.isPlain)

/-- What a scan finds and the last state of its selector. -/
lemma scanWith_eq {σ : Type} (select : Selector σ) (initial : σ) (t : Tree) :
    t.scanWith select initial =
      (.ofOffers (Pass.offers select initial t.asked), Pass.stateAfter select initial t.asked) := by
  rw [scanWith, scanFrom_eq, Findings.foldl_offer]
  simp [asked]

/-- **What a scan without a state finds**: the number of the plain properties, and those of them that
the selector accepts, in document order. -/
lemma scan_eq (select : Property → Option Simplification) (t : Tree) :
    t.scan select =
      { visited := t.properties.countP (·.form.isPlain)
        candidates := t.properties.filterMap fun p =>
          if p.form.isPlain then (select p).map p.candidate else none } := by
  rw [scan, scanWith_eq, Pass.offers_pure, Findings.ofOffers, asked, List.length_map,
    ← List.countP_eq_length_filter, List.filterMap_map, List.filterMap_filter]
  rfl

/-- What a scan by classification finds: the eligible properties. -/
lemma scan_classify? (t : Tree) :
    t.scan Property.classify? =
      { visited := t.properties.countP (·.form.isPlain)
        candidates := t.properties.filterMap fun p => p.eligible?.map p.candidate } := by
  rw [scan_eq]
  congr 1
  refine List.filterMap_congr fun p _ => ?_
  unfold Property.eligible?
  split_ifs <;> rfl

end Tree

end Concise
