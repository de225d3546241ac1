import Mathlib
import Concise.Proofs.Grammar.Patterns

/-!
What the rules for functions, object literals and classes read.

The offset at which a property begins is taken before its modifiers are read, so the triples of the
rules for properties take it as a condition: if it is not after the next token, it is before all
that stands in the property.
-/

open Std.Do

set_option mvcgen.warning false

namespace Concise.Grammar

open Concise.Parser

/-! ### Words -/

@[spec]
lemma modifiesParameter_spec (text : String) (c₀ : Cursor) :
    ⦃Is c₀⦄ modifiesParameter text ⦃Stays c₀⦄ := by
  mvcgen [modifiesParameter] with grind -ring -linarith

@[spec]
lemma parameterModifiers_spec (n : Nat) : ⦃At n⦄ parameterModifiers ⦃Moves n⦄ := by
  mvcgen [parameterModifiers, loop_moves_spec] with grind -ring -linarith

@[spec]
lemma modifiesProperty_spec (text : String) (c₀ : Cursor) :
    ⦃Is c₀⦄ modifiesProperty text ⦃Stays c₀⦄ := by
  mvcgen [modifiesProperty] with grind -ring -linarith

@[spec]
lemma isAsyncMethod_spec (c₀ : Cursor) : ⦃Is c₀⦄ isAsyncMethod ⦃Stays c₀⦄ := by
  mvcgen [isAsyncMethod] with grind -ring -linarith

@[spec]
lemma modifiesClassMember_spec (text : String) (sameLine : Bool) (c₀ : Cursor) :
    ⦃Is c₀⦄ modifiesClassMember text sameLine ⦃Stays c₀⦄ := by
  mvcgen [modifiesClassMember] with grind -ring -linarith

@[spec]
lemma memberModifiers_spec (n : Nat) : ⦃At n⦄ memberModifiers ⦃Moves n⦄ := by
  mvcgen [memberModifiers, loop_moves_spec] with grind -ring -linarith

@[spec]
lemma memberAccessor_spec (n : Nat) : ⦃At n⦄ memberAccessor ⦃Moves n⦄ := by
  mvcgen [memberAccessor] with grind -ring -linarith

/-! ### Expressions in lists -/

variable {rules : Rules} (hrules : ∀ goal n, ⦃At n⦄ rules goal ⦃Reads n⦄)
include hrules

@[spec]
lemma spreadable_spec (n : Nat) : ⦃At n⦄ spreadable rules ⦃Reads n⦄ := by
  mvcgen [spreadable, hrules] with grind -ring -linarith

@[spec]
lemma arguments_spec (n : Nat) : ⦃At n⦄ arguments rules ⦃Reads n⦄ := by
  mvcgen [arguments, hrules] with grind -ring -linarith

@[spec]
lemma expression_spec (n : Nat) : ⦃At n⦄ expression rules ⦃Reads n⦄ := by
  mvcgen [expression, hrules] with grind -ring -linarith

@[spec]
lemma fullExpression_spec (n : Nat) : ⦃At n⦄ fullExpression rules ⦃Reads n⦄ := by
  mvcgen [fullExpression, hrules]

/-! ### Decorators -/

@[spec]
lemma decoratorExpression_spec (n : Nat) : ⦃At n⦄ decoratorExpression rules ⦃Reads n⦄ := by
  refine triple_of_forall fun R hR => ?_
  mvcgen [decoratorExpression, hrules] with grind -ring -linarith

@[spec]
lemma decorators_spec (n : Nat) : ⦃At n⦄ decorators rules ⦃Reads n⦄ := by
  mvcgen [decorators, hrules] with grind -ring -linarith

/-! ### Functions -/

@[spec]
lemma parameter_spec (n : Nat) : ⦃At n⦄ parameter rules ⦃Reads n⦄ := by
  refine triple_of_forall fun R hR => ?_
  mvcgen [parameter, hrules] with grind -ring -linarith

@[spec]
lemma parameters_spec (n : Nat) :
    ⦃At n⦄ parameters rules
      ⦃Ends fun r c => n ≤ c.offset ∧ Tree.AllWithin n c.offset [r.1, r.2]⦄ := by
  mvcgen [parameters, hrules] with grind -ring -linarith

@[spec]
lemma bodyItems_spec (close : Lexeme) (n : Nat) :
    ⦃At n⦄ bodyItems rules close
      ⦃Ends fun ts c => n ≤ c.offset ∧ Tree.AllWithin n c.offset ts⦄ := by
  have hloop := fun step initial => @loop_spec (List Tree × Bool) _ step initial
    (fun r c => n ≤ c.offset ∧ Tree.AllWithin n c.offset r.1.reverse)
    (fun (ts : List Tree) c => n ≤ c.offset ∧ Tree.AllWithin n c.offset ts)
  mvcgen [bodyItems, hrules, hloop] with grind -ring -linarith

@[spec]
lemma functionBody_spec (n : Nat) : ⦃At n⦄ functionBody rules ⦃Reads n⦄ := by
  mvcgen [functionBody, hrules] with grind -ring -linarith

/-- What is read is a function. -/
abbrev ReadsFunction (n : Nat) : PostCond Tree Shape :=
  Ends fun t c => n ≤ c.offset ∧ t.Within n c.offset ∧ t.isFunction = true

@[spec]
lemma functionTail_spec (start : Nat) (head : FunctionHead) (n : Nat) :
    ⦃At n⦄ functionTail rules start head ⦃ReadsFunction n⦄ := by
  mvcgen [functionTail, hrules] with grind -ring -linarith

@[spec]
lemma functionFrom_spec (role : FunctionRole) (isDeclare : Bool) (n : Nat) :
    ⦃At n⦄ functionFrom rules role isDeclare ⦃Reads n⦄ := by
  refine triple_of_forall fun R hR => ?_
  mvcgen [functionFrom, hrules] with grind -ring -linarith

@[spec]
lemma method_spec (isAsync isGenerator : Bool) (n : Nat) :
    ⦃At n⦄ method rules isAsync isGenerator ⦃ReadsFunction n⦄ := by
  refine triple_of_forall fun R hR => ?_
  mvcgen [method, hrules] with grind -ring -linarith

/-! ### Object literals -/

@[spec]
lemma accessorProperty_spec (start : Nat) (accessor : AccessorKind) (c₀ : Cursor) :
    ⦃Is c₀⦄ accessorProperty rules start accessor ⦃Ends fun t c => c₀.offset ≤ c.offset ∧
      t.IsLegible ∧ (start ≤ c₀.next → t.Within start c.offset)⦄ := by
  mvcgen [accessorProperty, hrules] with grind -ring -linarith

@[spec]
lemma methodProperty_spec (start : Nat) (isAsync isGenerator : Bool) (c₀ : Cursor) :
    ⦃Is c₀⦄ methodProperty rules start isAsync isGenerator ⦃Ends fun t c => c₀.offset ≤ c.offset ∧
      t.IsLegible ∧ (start ≤ c₀.next → t.Within start c.offset)⦄ := by
  mvcgen [methodProperty, hrules] with grind -ring -linarith

@[spec]
lemma plainProperty_spec (start : Nat) (c₀ : Cursor) :
    ⦃Is c₀⦄ plainProperty rules start ⦃Ends fun t c => c₀.offset ≤ c.offset ∧
      t.IsLegible ∧ (start ≤ c₀.next → t.Within start c.offset)⦄ := by
  mvcgen [plainProperty, shorthandProperty, hrules]
  with grind -ring -linarith [isNameable_of_nameOf]

@[spec]
lemma objectMember_spec (n : Nat) : ⦃At n⦄ objectMember rules ⦃Reads n⦄ := by
  mvcgen [objectMember, hrules] with grind -ring -linarith

@[spec]
lemma objectLiteral_spec (n : Nat) : ⦃At n⦄ objectLiteral rules ⦃Reads n⦄ := by
  mvcgen [objectLiteral, hrules] with grind -ring -linarith

@[spec]
lemma arrayLiteral_spec (n : Nat) : ⦃At n⦄ arrayLiteral rules ⦃Reads n⦄ := by
  mvcgen [arrayLiteral, hrules] with grind -ring -linarith

/-! ### Classes -/

@[spec]
lemma classMemberTail_spec (start : Nat) (applied : Tree) (modifiers : Modifiers) (n : Nat) :
    ⦃At n⦄ classMemberTail rules start applied modifiers ⦃Continues n applied⦄ := by
  mvcgen [classMemberTail, hrules] with grind -ring -linarith

@[spec]
lemma staticBlock_spec (n : Nat) : ⦃At n⦄ staticBlock rules ⦃Reads n⦄ := by
  mvcgen [staticBlock, hrules] with grind -ring -linarith

@[spec]
lemma classMember_spec (n : Nat) : ⦃At n⦄ classMember rules ⦃Reads n⦄ := by
  refine triple_of_forall fun R hR => ?_
  mvcgen [classMember, hrules] with grind -ring -linarith

@[spec]
lemma classBody_spec (n : Nat) : ⦃At n⦄ classBody rules ⦃Reads n⦄ := by
  mvcgen [classBody, hrules] with grind -ring -linarith

@[spec]
lemma heritage_spec (n : Nat) : ⦃At n⦄ heritage rules ⦃Reads n⦄ := by
  mvcgen [heritage, hrules] with grind -ring -linarith

omit hrules in
/-- Type arguments that were read with a superclass stand after it. -/
lemma within_splitSuperclass {first last : Nat} {tree : Tree} (h : tree.Within first last)
    (hle : first ≤ last) : ∃ middle, first ≤ middle ∧ middle ≤ last ∧
      (splitSuperclass tree).1.Within first middle ∧ (splitSuperclass tree).2.Within middle last := by
  unfold splitSuperclass
  split
  · obtain ⟨middle, hfirst, hlast, hsuperclass, htypes⟩ := Tree.AllWithin.uncons h hle
    exact ⟨middle, hfirst, hlast, hsuperclass, Tree.allWithin_singleton.mp htypes⟩
  · exact ⟨last, hle, le_rfl, h, .nil⟩

grind_pattern within_splitSuperclass => splitSuperclass tree, tree.Within first last

@[spec]
lemma extended_spec {superclass : Parser Tree} (hsuperclass : ∀ n, ⦃At n⦄ superclass ⦃Reads n⦄)
    (n : Nat) : ⦃At n⦄ extended rules superclass
      ⦃Ends fun r c => n ≤ c.offset ∧ Tree.AllWithin n c.offset [r.1, r.2]⦄ := by
  mvcgen [extended, hsuperclass, hrules] with grind -ring -linarith

@[spec]
lemma implemented_spec (n : Nat) : ⦃At n⦄ implemented rules ⦃Reads n⦄ := by
  mvcgen [implemented, hrules] with grind -ring -linarith

@[spec]
lemma classFrom_spec {superclass : Parser Tree} (hsuperclass : ∀ n, ⦃At n⦄ superclass ⦃Reads n⦄)
    (start : Nat) (applied : Tree) (isExpression isDeclare isAbstract : Bool) (n : Nat) :
    ⦃At n⦄ classFrom rules superclass start applied isExpression isDeclare isAbstract
      ⦃Continues n applied⦄ := by
  mvcgen [classFrom, hsuperclass, hrules] with grind -ring -linarith

end Concise.Grammar
