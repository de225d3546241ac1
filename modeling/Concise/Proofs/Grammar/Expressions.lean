import Mathlib
import Concise.Proofs.Grammar.Functions

/-!
What the rules for markup and expressions read.

Most rules for expressions go on from an operand that was read before, and `Continues` says what
they do. What stands in parentheses is read once and becomes an expression or the parameters of an
arrow function, which keep its properties.
-/

open Std.Do

set_option mvcgen.warning false

namespace Concise.Grammar

open Concise.Parser

/-! ### Markup -/

@[spec]
lemma skipTo_spec (rest : List Char) (n : Nat) : ⦃At n⦄ skipTo rest ⦃Moves n⦄ := by
  mvcgen [skipTo] with grind -ring -linarith

@[spec]
lemma hyphenatedWord_spec (c₀ : Cursor) :
    ⦃Is c₀⦄ hyphenatedWord ⦃Ends fun _ c => c₀.next < c.offset⦄ := by
  mvcgen [hyphenatedWord] with grind -ring -linarith

@[spec]
lemma tag_spec (n : Nat) :
    ⦃At n⦄ tag ⦃Ends fun r c => n ≤ c.offset ∧ r.1.Within n c.offset⦄ := by
  have hloop := fun step initial => @loop_spec (Tree × String) _ step initial
    (fun r c => n ≤ c.offset ∧ r.1.Within n c.offset)
    (fun (r : Tree × String) c => n ≤ c.offset ∧ r.1.Within n c.offset)
  mvcgen [tag, hloop] with grind -ring -linarith

@[spec]
lemma quotedAttribute?_spec (n : Nat) : ⦃At n⦄ quotedAttribute? ⦃ReadsSome n⦄ := by
  mvcgen [quotedAttribute?] with grind -ring -linarith

variable {rules : Rules} (hrules : ∀ goal n, ⦃At n⦄ rules goal ⦃Reads n⦄)

section

include hrules

@[spec]
lemma containerTail_spec (start n : Nat) : ⦃At n⦄ containerTail rules start ⦃Reads n⦄ := by
  mvcgen [containerTail, hrules] with grind -ring -linarith

@[spec]
lemma attributeValue_spec (n : Nat) : ⦃At n⦄ attributeValue rules ⦃Reads n⦄ := by
  refine triple_of_forall fun R hR => ?_
  mvcgen [attributeValue, hrules] with grind -ring -linarith

@[spec]
lemma tagAttribute_spec (n : Nat) : ⦃At n⦄ tagAttribute rules ⦃Reads n⦄ := by
  mvcgen [tagAttribute, hrules] with grind -ring -linarith

@[spec]
lemma bracedChild_spec (n : Nat) : ⦃At n⦄ bracedChild rules ⦃Reads n⦄ := by
  refine triple_of_forall fun R hR => ?_
  mvcgen [bracedChild, hrules] with grind -ring -linarith

@[spec]
lemma children_spec (n : Nat) : ⦃At n⦄ children rules ⦃ReadsAll n⦄ := by
  mvcgen [children, hrules] with grind -ring -linarith

@[spec]
lemma contents_spec (text : String) (n : Nat) :
    ⦃At n⦄ contents rules text
      ⦃Ends fun r c => n ≤ c.offset ∧ Tree.AllWithin n c.offset [r.1, r.2]⦄ := by
  mvcgen [contents, hrules] with grind -ring -linarith

@[spec]
lemma element_spec (n : Nat) : ⦃At n⦄ element rules ⦃Reads n⦄ := by
  mvcgen [element, hrules] with grind -ring -linarith

end

/-! ### Operators -/

lemma stop_le_wholeOperator (token : Token) : token.stop ≤ (wholeOperator token).stop := by
  unfold wholeOperator
  split <;> simp

grind_pattern stop_le_wholeOperator => wholeOperator token

@[spec]
lemma joinOperands_spec (operator : String) (start : Nat) (left right : Tree) (c₀ : Cursor) :
    ⦃Is c₀⦄ joinOperands operator start left right ⦃Ends fun t c => c = c₀ ∧ t.IsLegible ∧
      ∀ first last, Tree.AllWithin first last [left, right] → t.Within first last⦄ := by
  mvcgen [joinOperands] with grind -ring -linarith

/-! ### Parentheses -/

@[grind =]
lemma within_rememberParentheses {first last : Nat} {tree : Tree} :
    (rememberParentheses tree).Within first last ↔ tree.Within first last := by
  unfold rememberParentheses
  split <;> rfl

@[grind =]
lemma isLegible_rememberParentheses {tree : Tree} :
    (rememberParentheses tree).IsLegible ↔ tree.IsLegible := by
  unfold rememberParentheses
  split <;> grind

@[spec]
lemma Cover.expression_spec (cover : Cover) (c₀ : Cursor) :
    ⦃Is c₀⦄ cover.expression ⦃Ends fun t c => c = c₀ ∧
      ((∀ t ∈ cover.items, t.IsLegible) → t.IsLegible) ∧
      ∀ first last, Tree.AllWithin first last cover.items → t.Within first last⦄ := by
  mvcgen [Cover.expression] with grind -ring -linarith

@[spec]
lemma regularExpression_spec (token : Token) (c₀ : Cursor) :
    ⦃Is c₀⦄ regularExpression token
      ⦃Ends fun t c => token.start ≤ c.offset ∧ t.Within token.start c.offset ∧ t.IsLegible⦄ := by
  mvcgen [regularExpression] with grind -ring -linarith

@[spec]
lemma isAsyncFunction_spec (c₀ : Cursor) : ⦃Is c₀⦄ isAsyncFunction ⦃Stays c₀⦄ := by
  mvcgen [isAsyncFunction] with grind -ring -linarith

@[spec]
lemma memberName_spec (n : Nat) : ⦃At n⦄ memberName ⦃Reads n⦄ := by
  mvcgen [memberName] with grind -ring -linarith

@[spec]
lemma isArrow_spec (c₀ : Cursor) : ⦃Is c₀⦄ isArrow ⦃Stays c₀⦄ := by
  mvcgen [isArrow] with grind -ring -linarith

@[spec]
lemma maybeGenericArrow_spec (c₀ : Cursor) : ⦃Is c₀⦄ maybeGenericArrow ⦃Stays c₀⦄ := by
  mvcgen [maybeGenericArrow]

include hrules

@[spec]
lemma cover_spec (n : Nat) :
    ⦃At n⦄ cover rules ⦃Ends fun r c => n ≤ c.offset ∧ Tree.AllWithin n c.offset r.items ∧
      ∀ t ∈ r.items, t.IsLegible⦄ := by
  have hloop := fun step initial => @loop_spec (List Tree × Bool) _ step initial
    (fun r c => n ≤ c.offset ∧ Tree.AllWithin n c.offset r.1.reverse ∧ ∀ t ∈ r.1, t.IsLegible)
    (fun (r : List Tree × Bool) c =>
      n ≤ c.offset ∧ Tree.AllWithin n c.offset r.1 ∧ ∀ t ∈ r.1, t.IsLegible)
  mvcgen [cover, hrules, hloop] with grind -ring -linarith

@[spec]
lemma parenthesized_spec (n : Nat) : ⦃At n⦄ parenthesized rules ⦃Reads n⦄ := by
  mvcgen [parenthesized, hrules] with grind -ring -linarith

/-! ### Primary expressions -/

@[spec]
lemma templateTail_spec (start : Nat) (isTagged : Bool) (n : Nat) :
    ⦃At n⦄ templateTail rules start isTagged ⦃Reads n⦄ := by
  mvcgen [templateTail, hrules] with grind -ring -linarith

@[spec]
lemma template_spec (isTagged : Bool) (n : Nat) : ⦃At n⦄ template rules isTagged ⦃Reads n⦄ := by
  refine triple_of_forall fun R hR => ?_
  mvcgen [template, hrules] with grind -ring -linarith

@[spec]
lemma importTail_spec (start : Nat) (phase : Option String) (n : Nat) :
    ⦃At n⦄ importTail rules start phase ⦃Reads n⦄ := by
  mvcgen [importTail, hrules] with grind -ring -linarith

@[spec]
lemma importExpression_spec (n : Nat) : ⦃At n⦄ importExpression rules ⦃Reads n⦄ := by
  refine triple_of_forall fun R hR => ?_
  mvcgen [importExpression, hrules] with grind -ring -linarith

@[spec]
lemma superclass_spec (n : Nat) : ⦃At n⦄ superclass rules ⦃Reads n⦄ := hrules .unary n

@[spec]
lemma classExpression_spec (n : Nat) : ⦃At n⦄ classExpression rules ⦃Reads n⦄ := by
  mvcgen [classExpression, hrules] with grind -ring -linarith

@[spec]
lemma primary_spec (n : Nat) : ⦃At n⦄ primary rules ⦃Reads n⦄ := by
  mvcgen [primary, hrules] with grind -ring -linarith

/-! ### Members and calls -/

@[spec]
lemma bracketed_spec (n : Nat) : ⦃At n⦄ bracketed rules ⦃Reads n⦄ := by
  mvcgen [bracketed, hrules] with grind -ring -linarith

@[spec]
lemma typeArgumentsTail_spec (start : Nat) (tree : Tree) (n : Nat) :
    ⦃At n⦄ typeArgumentsTail rules start tree ⦃Continues n tree⦄ := by
  mvcgen [typeArgumentsTail, hrules] with grind -ring -linarith

@[spec]
lemma optionalLink_spec (start : Nat) (tree : Tree) (n : Nat) :
    ⦃At n⦄ optionalLink rules start tree ⦃Continues n tree⦄ := by
  mvcgen [optionalLink, hrules] with grind -ring -linarith

@[spec]
lemma links_spec (start : Nat) (head : Tree) (n : Nat) :
    ⦃At n⦄ links rules start head ⦃Continues n head⦄ := by
  have hloop := fun step initial => @loop_spec (Tree × Bool) _ step initial
    (fun r c => head.GrowsTo n r.1 c.offset) (fun t c => head.GrowsTo n t c.offset)
  mvcgen [links, hrules, hloop] with grind -ring -linarith

@[spec]
lemma construct_spec (n : Nat) : ⦃At n⦄ construct rules ⦃Reads n⦄ := by
  mvcgen [construct, hrules] with grind -ring -linarith

@[spec]
lemma postfixTail_spec (start : Nat) (head : Tree) (n : Nat) :
    ⦃At n⦄ postfixTail rules start head ⦃Continues n head⦄ := by
  mvcgen [postfixTail, hrules] with grind -ring -linarith

@[spec]
lemma castType_spec (n : Nat) : ⦃At n⦄ castType rules ⦃Reads n⦄ := by
  mvcgen [castType, hrules] with grind -ring -linarith

@[spec]
lemma unary_spec (n : Nat) : ⦃At n⦄ unary rules ⦃Reads n⦄ := by
  mvcgen [unary, hrules] with grind -ring -linarith

/-! ### Binary operators, conditionals and assignments -/

@[spec]
lemma binaryTail_spec (start level : Nat) (head : Tree) (n : Nat) :
    ⦃At n⦄ binaryTail rules start level head ⦃Continues n head⦄ := by
  mvcgen [binaryTail, hrules] with grind -ring -linarith

@[spec]
lemma binary_spec (level n : Nat) : ⦃At n⦄ binary rules level ⦃Reads n⦄ := by
  mvcgen [binary, hrules] with grind -ring -linarith

@[spec]
lemma conditionalTail_spec (start : Nat) (test : Tree) (n : Nat) :
    ⦃At n⦄ conditionalTail rules start test ⦃Continues n test⦄ := by
  mvcgen [conditionalTail, hrules] with grind -ring -linarith

@[spec]
lemma assignmentTail_spec (start : Nat) (left : Tree) (n : Nat) :
    ⦃At n⦄ assignmentTail rules start left ⦃Continues n left⦄ := by
  mvcgen [assignmentTail, hrules] with grind -ring -linarith

@[spec]
lemma assignmentFrom_spec (start : Nat) (head : Tree) (n : Nat) :
    ⦃At n⦄ assignmentFrom rules start head ⦃Continues n head⦄ := by
  refine triple_of_forall fun R hR => ?_
  mvcgen [assignmentFrom, hrules]
  rename_i hn _ _ _ hlinks _ _ _ hbinary _ _ _ hconditional _ _ _
  intro hle hlegible hwithin
  have htest := Tree.GrowsTo.trans hlinks hbinary
  have hleft := Tree.GrowsTo.trans htest hconditional
  obtain ⟨hle, hlegible, hwithin⟩ := Tree.GrowsTo.trans hleft ⟨hle, hlegible, hwithin⟩
  exact hR _ _ (hn ▸ hle) hlegible (hn ▸ hwithin)

@[spec]
lemma plainAssignment_spec (n : Nat) : ⦃At n⦄ plainAssignment rules ⦃Reads n⦄ := by
  mvcgen [plainAssignment, hrules] with grind -ring -linarith

@[spec]
lemma yieldExpression_spec (n : Nat) : ⦃At n⦄ yieldExpression rules ⦃Reads n⦄ := by
  mvcgen [yieldExpression, hrules] with grind -ring -linarith

/-! ### Arrow functions -/

@[spec]
lemma arrowTail_spec (start : Nat) (isAsync : Bool) (typeParameters parameters returned : Tree)
    (n : Nat) :
    ⦃At n⦄ arrowTail rules start isAsync typeParameters parameters returned
      ⦃Ends fun t c => n ≤ c.offset ∧ t.IsLegible ∧ ∀ first ≤ n,
        Tree.AllWithin first n [typeParameters, parameters, returned] →
          t.Within first c.offset⦄ := by
  mvcgen [arrowTail, hrules] with grind -ring -linarith

@[spec]
lemma typedArrow_spec (start : Nat) (isAsync : Bool) (n : Nat) :
    ⦃At n⦄ typedArrow rules start isAsync ⦃Reads n⦄ := by
  mvcgen [typedArrow, hrules] with grind -ring -linarith

@[spec]
lemma singleArrow_spec (start : Nat) (isAsync : Bool) (n : Nat) :
    ⦃At n⦄ singleArrow rules start isAsync ⦃Reads n⦄ := by
  have hparts (first last : Nat) (name : Name) : Tree.AllWithin first last
      [.absent, .node .parameters name.span [.node (.parameter {}) name.span
        [.absent, .node (.binding name.text) name.span []]], .absent] := .nil
  mvcgen [singleArrow, hrules] with grind -ring -linarith

@[spec]
lemma fromParenthesis_spec (n : Nat) : ⦃At n⦄ fromParenthesis rules ⦃Reads n⦄ := by
  refine triple_of_forall fun R hR => ?_
  mvcgen [fromParenthesis, hrules] with grind -ring -linarith

@[spec]
lemma fromAsync_spec (n : Nat) : ⦃At n⦄ fromAsync rules ⦃Reads n⦄ := by
  have hasync : Identifier.IsNameable "async" := ⟨by decide, by decide⟩
  refine triple_of_forall fun R hR => ?_
  mvcgen [fromAsync, hrules] with grind -ring -linarith

@[spec]
lemma assignment_spec (n : Nat) : ⦃At n⦄ assignment rules ⦃Reads n⦄ := by
  mvcgen [assignment, hrules] with grind -ring -linarith

end Concise.Grammar
