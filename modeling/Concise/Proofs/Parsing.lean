import Mathlib
import Concise.Proofs.Grammar.Statements

/-!
What is read from a text.

* `Grammar.goal_spec`: every construct is read as a run of properties, by induction on the depth of
  nesting.
* `Tree.properties_unwrap`: leaving out the nodes for parentheses keeps the properties.
* `Program.run_of_parse?`: the properties of a program begin one after the other, their keys and
  values are legible, and their values fit their forms. Hence no two of them have the same span.
-/

open Std.Do

namespace Concise

/-! ### Constructs -/

namespace Grammar

open Concise.Parser

lemma goal_spec (depth : Nat) (g : Goal) (n : Nat) : ⦃At n⦄ goal depth g ⦃Reads n⦄ := by
  induction depth generalizing g n with
  | zero => exact triple_iff.mpr fun _ _ _ _ _ h => nomatch h
  | succ depth ih =>
      cases g with
      | statement => exact statement_spec ih n
      | assignment => exact assignment_spec ih n
      | binary level => exact binary_spec ih level n
      | unary => exact unary_spec ih n
      | construct => exact construct_spec ih n
      | pattern => exact pattern_spec ih n
      | type => exact type_spec ih n
      | element => exact element_spec ih n

end Grammar

/-! ### Parentheses -/

/-- The property without nodes for parentheses. -/
def Property.unwrap (p : Property) : Property :=
  { p with key := p.key.unwrap, value := p.value.unwrap }

namespace Tree

@[simp] lemma unwrapAll_eq (ts : List Tree) : unwrapAll ts = ts.map unwrap := by
  induction ts with
  | nil => rfl
  | cons t ts ih => rw [unwrapAll, ih, List.map_cons]

lemma properties_unwrap (t : Tree) : t.unwrap.properties = t.properties.map Property.unwrap := by
  induction t with
  | reference span name => rfl
  | property span form key value ihKey ihValue =>
      simp [unwrap, properties, ihKey, ihValue, Property.unwrap]
  | function span head typeParameters this parameters returned body ih₁ ih₂ ih₃ ih₄ ih₅ =>
      simp [unwrap, properties, ih₁, ih₂, ih₃, ih₄, ih₅]
  | node kind span parts ih =>
      have hparts : (parts.map unwrap).flatMap properties =
          (parts.flatMap properties).map Property.unwrap := by
        rw [List.flatMap_map, List.map_flatMap]
        exact List.flatMap_congr ih
      unfold unwrap
      split <;> simp_all [properties]

lemma isLegible_unwrap {t : Tree} (h : t.IsLegible) : t.unwrap.IsLegible := by
  induction t with
  | reference span name => exact h
  | property span form key value => exact isLegible_property
  | function span head typeParameters this parameters returned body => exact isLegible_function
  | node kind span parts ih =>
      unfold unwrap
      split
      case h_4 inner heq =>
        obtain ⟨rfl, rfl, rfl⟩ := Tree.node.inj heq
        exact ih inner List.mem_cons_self (isLegible_node.mp h)
      case h_5 inner heq =>
        obtain ⟨rfl, rfl, rfl⟩ := Tree.node.inj heq
        exact ih inner List.mem_cons_self (isLegible_node.mp h)
      all_goals grind [unwrapAll_eq, List.map_eq_singleton_iff]

lemma fits_unwrap {t : Tree} {form : PropertyForm} (h : t.Fits form) : t.unwrap.Fits form := by
  cases t with
  | reference span name => exact h
  | property span form key value => exact h
  | function span head typeParameters this parameters returned body => exact h
  | node kind span parts => exact fits_of_plain h.1 h.2

end Tree

lemma Property.Run.unwrap {first last : Nat} {ps : List Property} (h : Run first last ps) :
    Run first last (ps.map Property.unwrap) where
  increasing := List.pairwise_map.mpr h.increasing
  bounds := by
    intro q hq
    obtain ⟨p, hp, rfl⟩ := List.mem_map.mp hq
    exact h.bounds p hp
  legible := by
    intro q hq
    obtain ⟨p, hp, rfl⟩ := List.mem_map.mp hq
    exact ⟨Tree.isLegible_unwrap (h.legible p hp).1, Tree.isLegible_unwrap (h.legible p hp).2⟩
  fits := by
    intro q hq
    obtain ⟨p, hp, rfl⟩ := List.mem_map.mp hq
    exact Tree.fits_unwrap (h.fits p hp)

/-! ### Programs -/

namespace Program

variable {dialect : Dialect} {keepsParentheses : Bool} {source : String} {program : Program}

lemma dialect_of_parse? (h : parse? dialect keepsParentheses source = some program) :
    program.dialect = dialect := by
  unfold parse? at h
  simp only at h
  obtain ⟨_, -, h⟩ := Option.bind_eq_some_iff.mp h
  obtain ⟨-, h⟩ := Option.ite_none_left_eq_some.mp h
  exact congrArg Program.dialect (Option.some.inj h).symm

/-- The properties of a program begin one after the other, and what stands in them is legible. -/
theorem run_of_parse? (h : parse? dialect keepsParentheses source = some program) :
    ∃ last, Property.Run 0 last program.tree.properties := by
  unfold parse? at h
  simp only at h
  obtain ⟨⟨items, cursor⟩, hitems, h⟩ := Option.bind_eq_some_iff.mp h
  have hspec := Grammar.bodyItems_spec (Grammar.goal_spec (Grammar.depthBound source.toList.length))
    .finish (Cursor.consumed source.toList (splitHashbang source.toList).2)
  have hrun := (Parser.triple_iff.mp hspec _ _ _ _ rfl hitems).2.mono (Nat.zero_le _) le_rfl
  obtain ⟨-, h⟩ := Option.ite_none_left_eq_some.mp h
  obtain rfl := Option.some.inj h
  refine ⟨cursor.offset, ?_⟩
  cases keepsParentheses with
  | true => exact hrun
  | false =>
      refine Eq.subst (motive := Property.Run 0 cursor.offset) (Tree.properties_unwrap _).symm ?_
      exact Property.Run.unwrap hrun

/-- No two properties of a program have the same span. -/
theorem hasDistinctSpans_of_parse? (h : parse? dialect keepsParentheses source = some program) :
    program.tree.HasDistinctSpans := by
  obtain ⟨last, hrun⟩ := run_of_parse? h
  refine List.pairwise_map.mpr (hrun.increasing.imp fun hlt heq => ?_)
  exact hlt.ne (congrArg Span.start heq)

end Program

end Concise
