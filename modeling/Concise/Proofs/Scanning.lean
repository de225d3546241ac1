import Concise.Proofs.Addresses
import Concise.Proofs.Passes

/-!
What a scan asks its selector, and in which order.

A selector may keep a state, so its answers depend on the questions that came before: what a scan
finds is known only once it is known which properties the selector is asked about, how often, and in
which order.

* `Tree.InOrder`: a list of the properties of a certain sort, all of them and each once, in document
  order. It is said by the addresses at which they stand, not by a walk.
* **`Tree.scanWith_inOrder`**: a scan asks about the properties without flags in document order, and
  about no others; what it finds are those that are accepted.
-/

namespace Concise

/-- A form is plain if none of the flags is set. -/
lemma PropertyForm.isPlain_eq_bits (form : PropertyForm) : form.isPlain = (form.bits == 0) := by
  obtain ⟨accessor, isMethod, isShorthand, isComputed⟩ := form
  cases accessor <;> cases isMethod <;> cases isShorthand <;> cases isComputed <;> rfl

/-! ### Document order -/

/-- The properties of a tree that are of a certain sort, all of them and each once, in document
order. The addresses at which they stand are increasing: a property comes before what is in its key,
and that before what is in its value. -/
structure Tree.InOrder (t : Tree) (sort : Property → Bool) (paths : List (List Nat))
    (ps : List Property) : Prop where
  increasing : paths.Pairwise (· < ·)
  complete : ∀ path, path ∈ paths ↔ ∃ p : Property, t.at? path = some p.tree ∧ sort p = true
  stand : List.Forall₂ (fun path p => t.at? path = some p.tree) paths ps

/-- What is kept from a list of results stands over the arguments that gave it. -/
lemma forall₂_filter_filterMap {α β : Type} (f : α → Option β) (sort : β → Bool) (as : List α) :
    List.Forall₂ (fun a b => f a = some b) (as.filter fun a => (f a).any sort)
      ((as.filterMap f).filter sort) := by
  induction as with
  | nil => exact .nil
  | cons a as ih =>
      cases hf : f a with
      | none => simpa [hf] using ih
      | some b =>
          cases hsort : sort b with
          | false => simpa [hf, hsort] using ih
          | true => simpa [hf, hsort] using ih

/-- The properties of a tree, of a certain sort, are listed in document order. -/
lemma Tree.exists_inOrder (t : Tree) (sort : Property → Bool) :
    ∃ paths, t.InOrder sort paths (t.properties.filter sort) := by
  refine ⟨t.addresses.filter fun path => ((t.at? path).bind toProperty?).any sort,
    t.pairwise_addresses.filter _, fun path => ?_, ?_⟩
  · rw [List.mem_filter, mem_addresses]
    constructor
    · rintro ⟨-, hany⟩
      cases hp : (t.at? path).bind toProperty? with
      | none => simp [hp] at hany
      | some p =>
          obtain ⟨u, hu, htree⟩ := Option.bind_eq_some_iff.mp hp
          exact ⟨p, by rw [hu, toProperty?_eq_some.mp htree], by simpa [hp] using hany⟩
    · rintro ⟨p, hp, hsort⟩
      rw [hp]
      exact ⟨rfl, hsort⟩
  · rw [properties_eq_filterMap]
    refine (forall₂_filter_filterMap _ sort _).imp fun path p hp => ?_
    obtain ⟨u, hu, htree⟩ := Option.bind_eq_some_iff.mp hp
    rw [hu, toProperty?_eq_some.mp htree]

/-! ### Questions and answers -/

namespace Pass

variable {σ : Type} (choose : Property → σ → Option Simplification × σ)

/-- The record has no influence on what is chosen. -/
lemma offers_recording (s : σ) (log ps : List Property) :
    offers (recording choose) (s, log) ps = offers choose s ps := by
  induction ps generalizing s log with
  | nil => rfl
  | cons p ps ih => rw [offers, offers, recording, ih]

/-- The record is what was asked, one after the other. -/
lemma stateAfter_recording (s : σ) (log ps : List Property) :
    stateAfter (recording choose) (s, log) ps = (stateAfter choose s ps, log ++ ps) := by
  induction ps generalizing s log with
  | nil => rw [List.append_nil]; rfl
  | cons p ps ih =>
      refine (ih (choose p s).2 (log ++ [p])).trans ?_
      rw [List.append_assoc]
      rfl

end Pass

namespace Tree

/-- **A scan is a filter in document order, for every selector.** There is one list of questions:
the properties whose flags are all unset, each once, in document order, wherever in the tree they
stand. A selector that keeps a record of what it is asked records this list and is otherwise as
without the record; the number of the questions is the number of visited properties, the candidates
are the accepted ones in the order of the questions, with their spans, the texts of their keys and
the answers; and the selector ends in the state to which the questions have brought it. -/
theorem scanWith_inOrder {σ : Type} (select : Selector σ) (initial : σ) (t : Tree) :
    ∃ paths asked, t.InOrder (fun p => p.form.bits == 0) paths asked ∧
      (t.scanWith (Pass.recording select) (initial, [])).2.2 = asked ∧
      (t.scanWith (Pass.recording select) (initial, [])).1 = (t.scanWith select initial).1 ∧
      (t.scanWith select initial).1.visited = asked.length ∧
      (t.scanWith select initial).1.candidates =
        (Pass.offers select initial asked).filterMap (fun offer => offer.2.map fun s =>
          { span := offer.1.span
            name := (offer.1.keyView?.map Key.text).getD ""
            simplification := s }) ∧
      (t.scanWith select initial).2 = Pass.stateAfter select initial asked := by
  obtain ⟨paths, hpaths⟩ := t.exists_inOrder fun p => p.form.bits == 0
  have hasked : t.properties.filter (fun p => p.form.bits == 0) = t.asked := by
    simp only [asked, PropertyForm.isPlain_eq_bits]
  have hlength : (Pass.offers select initial t.asked).length = t.asked.length := by
    rw [← List.length_map (f := Prod.fst), Pass.map_fst_offers]
  rw [hasked] at hpaths
  refine ⟨paths, t.asked, hpaths, ?_, ?_, ?_, ?_, ?_⟩
  · rw [scanWith_eq, Pass.stateAfter_recording, List.nil_append]
  · rw [scanWith_eq, scanWith_eq, Pass.offers_recording]
  · rw [scanWith_eq]
    exact hlength
  · rw [scanWith_eq]
    rfl
  · rw [scanWith_eq]

end Tree

end Concise
