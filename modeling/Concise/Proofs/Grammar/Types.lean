import Mathlib
import Concise.Proofs.Reading

/-!
What the rules for templates and types read. The rules that look ahead leave the cursor where it is,
and the others read a run of properties if the rules for the constructs inside do.
-/

open Std.Do

set_option mvcgen.warning false

namespace Concise.Grammar

open Concise.Parser

/-! ### Words and marks -/

@[spec]
lemma modifiesTypeParameter_spec (text : String) (c₀ : Cursor) :
    ⦃Is c₀⦄ modifiesTypeParameter text ⦃Stays c₀⦄ := by
  mvcgen [modifiesTypeParameter] with grind -ring -linarith

@[spec]
lemma isIndexSignature_spec (c₀ : Cursor) : ⦃Is c₀⦄ isIndexSignature ⦃Stays c₀⦄ := holds_spec _ c₀

@[spec]
lemma modifiesMember_spec (text : String) (c₀ : Cursor) :
    ⦃Is c₀⦄ modifiesMember text ⦃Stays c₀⦄ := by
  mvcgen [modifiesMember] with grind -ring -linarith

@[spec]
lemma isTypeOperator_spec (text : String) (c₀ : Cursor) :
    ⦃Is c₀⦄ isTypeOperator text ⦃Stays c₀⦄ := by
  mvcgen [isTypeOperator] with grind -ring -linarith

@[spec]
lemma isFunctionType_spec (rules : Rules) (c₀ : Cursor) :
    ⦃Is c₀⦄ isFunctionType rules ⦃Stays c₀⦄ :=
  holds_spec _ c₀

@[spec]
lemma memberEnd_spec (n : Nat) : ⦃At n⦄ memberEnd ⦃Moves n⦄ := by
  mvcgen [memberEnd, orM] with grind -ring -linarith

@[spec]
lemma mappedModifier_spec {modifier : Parser Bool} (hmodifier : ∀ n, ⦃At n⦄ modifier ⦃Moves n⦄)
    (n : Nat) : ⦃At n⦄ mappedModifier modifier ⦃Moves n⦄ := by
  mvcgen [mappedModifier, hmodifier] with grind -ring -linarith

/-! ### Templates, chains and rests -/

@[spec]
lemma templatePieces_spec {item : Parser Tree} (hitem : ∀ n, ⦃At n⦄ item ⦃Reads n⦄)
    (allowsInvalid : Bool) (n : Nat) :
    ⦃At n⦄ templatePieces item allowsInvalid
      ⦃Ends fun pieces c => n ≤ c.offset ∧ Tree.AllWithin n c.offset pieces.2⦄ := by
  have hloop := fun step initial => @loop_spec (List String × List Tree) _ step initial
    (fun pieces c => n ≤ c.offset ∧ Tree.AllWithin n c.offset pieces.2.reverse)
    (fun (pieces : List String × List Tree) c => n ≤ c.offset ∧ Tree.AllWithin n c.offset pieces.2)
  mvcgen [templatePieces, hitem, hloop] with grind -ring -linarith

@[spec]
lemma typeName_spec (n : Nat) : ⦃At n⦄ typeName ⦃Reads n⦄ := by
  refine triple_of_forall fun R hR => ?_
  mvcgen [typeName] with grind -ring -linarith

@[spec]
lemma operatorChain_spec (symbol : String) (kind : Kind)
    (hkind : ∀ text, kind ≠ .number text ∧ kind ≠ .staticName text)
    {operand : Parser Tree} (hoperand : ∀ n, ⦃At n⦄ operand ⦃Reads n⦄) (n : Nat) :
    ⦃At n⦄ operatorChain symbol kind operand ⦃Reads n⦄ := by
  mvcgen [operatorChain, hoperand] with grind -ring -linarith

@[spec]
lemma rest_spec {target : Parser Tree} (htarget : ∀ n, ⦃At n⦄ target ⦃Reads n⦄) (start n : Nat) :
    ⦃At n⦄ rest start target ⦃Reads n⦄ := by
  mvcgen [rest, htarget] with grind -ring -linarith

/-! ### Lists in angle brackets -/

variable {rules : Rules} (hrules : ∀ goal n, ⦃At n⦄ rules goal ⦃Reads n⦄)
include hrules

@[spec]
lemma typeArguments_spec (n : Nat) : ⦃At n⦄ typeArguments rules ⦃Reads n⦄ := by
  mvcgen [typeArguments, hrules] with grind -ring -linarith

@[spec]
lemma typeArguments?_spec (n : Nat) : ⦃At n⦄ typeArguments? rules ⦃Reads n⦄ := by
  mvcgen [typeArguments?, hrules] with grind -ring -linarith

@[spec]
lemma typeParameter_spec (n : Nat) : ⦃At n⦄ typeParameter rules ⦃Reads n⦄ := by
  mvcgen [typeParameter, hrules] with grind -ring -linarith

@[spec]
lemma typeParameters_spec (n : Nat) : ⦃At n⦄ typeParameters rules ⦃Reads n⦄ := by
  mvcgen [typeParameters, hrules] with grind -ring -linarith

@[spec]
lemma typeParameters?_spec (n : Nat) : ⦃At n⦄ typeParameters? rules ⦃Reads n⦄ := by
  mvcgen [typeParameters?, hrules] with grind -ring -linarith

@[spec]
lemma annotation?_spec (n : Nat) : ⦃At n⦄ annotation? rules ⦃Reads n⦄ := by
  refine triple_of_forall fun R hR => ?_
  mvcgen [annotation?, hrules] with grind -ring -linarith

/-! ### Parameters of function types -/

@[spec]
lemma thisParameter?_spec (n : Nat) : ⦃At n⦄ thisParameter? rules ⦃Reads n⦄ := by
  mvcgen [thisParameter?, hrules] with grind -ring -linarith

@[spec]
lemma typedPattern_spec (n : Nat) : ⦃At n⦄ typedPattern rules ⦃Reads n⦄ := by
  mvcgen [typedPattern, hrules] with grind -ring -linarith

@[spec]
lemma typeLevelParameter_spec (n : Nat) : ⦃At n⦄ typeLevelParameter rules ⦃Reads n⦄ := by
  refine triple_of_forall fun R hR => ?_
  mvcgen [typeLevelParameter, hrules] with grind -ring -linarith

@[spec]
lemma typeLevelParameters_spec (n : Nat) :
    ⦃At n⦄ typeLevelParameters rules
      ⦃Ends fun r c => n ≤ c.offset ∧ Tree.AllWithin n c.offset [r.1, r.2]⦄ := by
  mvcgen [typeLevelParameters, hrules] with grind -ring -linarith

@[spec]
lemma returnedType_spec (n : Nat) : ⦃At n⦄ returnedType rules ⦃Reads n⦄ := by
  mvcgen [returnedType, hrules] with grind -ring -linarith

@[spec]
lemma returnType?_spec (n : Nat) : ⦃At n⦄ returnType? rules ⦃Reads n⦄ := by
  refine triple_of_forall fun R hR => ?_
  mvcgen [returnType?, hrules] with grind -ring -linarith

/-! ### Members of type literals -/

/-- A key begins after the place where its token begins, which is where its property begins. -/
@[spec]
lemma memberKey_spec (c₀ : Cursor) :
    ⦃Is c₀⦄ memberKey rules ⦃Ends fun r c => c₀.next < c.offset ∧
      r.1.Within (c₀.next + 1) c.offset ∧ r.1.IsLegible⦄ := by
  mvcgen [memberKey, hrules] with grind -ring -linarith

@[spec]
lemma indexSignature_spec (start : Nat) (isReadonly isStatic : Bool) (n : Nat) :
    ⦃At n⦄ indexSignature rules start isReadonly isStatic ⦃Reads n⦄ := by
  mvcgen [indexSignature, hrules] with grind -ring -linarith

@[spec]
lemma signature_spec (n : Nat) :
    ⦃At n⦄ signature rules ⦃Ends fun ts c => n ≤ c.offset ∧ Tree.AllWithin n c.offset ts⦄ := by
  mvcgen [signature, hrules] with grind -ring -linarith

@[spec]
lemma namedSignature_spec (start : Nat) (accessor : AccessorKind) (isReadonly : Bool) (n : Nat) :
    ⦃At n⦄ namedSignature rules start accessor isReadonly ⦃Reads n⦄ := by
  mvcgen [namedSignature, hrules] with grind -ring -linarith

@[spec]
lemma typeMember_spec (n : Nat) : ⦃At n⦄ typeMember rules ⦃Reads n⦄ := by
  mvcgen [typeMember, hrules] with grind -ring -linarith

@[spec]
lemma typeMembers_spec (n : Nat) : ⦃At n⦄ typeMembers rules ⦃ReadsAll n⦄ := by
  refine triple_of_forall fun R hR => ?_
  mvcgen [typeMembers, hrules] with grind -ring -linarith

/-! ### Primary types -/

@[spec]
lemma mappedType_spec (n : Nat) : ⦃At n⦄ mappedType rules ⦃Reads n⦄ := by
  mvcgen [mappedType, hrules] with grind -ring -linarith

@[spec]
lemma tupleElement_spec (n : Nat) : ⦃At n⦄ tupleElement rules ⦃Reads n⦄ := by
  mvcgen [tupleElement, hrules] with grind -ring -linarith

@[spec]
lemma importType_spec (n : Nat) : ⦃At n⦄ importType rules ⦃Reads n⦄ := by
  mvcgen [importType, hrules] with grind -ring -linarith

@[spec]
lemma primaryType_spec (n : Nat) : ⦃At n⦄ primaryType rules ⦃Reads n⦄ := by
  refine triple_of_forall fun R hR => ?_
  mvcgen [primaryType, hrules] with grind -ring -linarith

@[spec]
lemma postfixType_spec (n : Nat) : ⦃At n⦄ postfixType rules ⦃Reads n⦄ := by
  refine triple_of_forall fun R hR => ?_
  mvcgen [postfixType, hrules] with grind -ring -linarith

/-! ### Operators -/

@[spec]
lemma inferType_spec (start n : Nat) : ⦃At n⦄ inferType rules start ⦃Reads n⦄ := by
  mvcgen [inferType, hrules] with grind -ring -linarith

@[spec]
lemma operatorType_spec (n : Nat) : ⦃At n⦄ operatorType rules ⦃Reads n⦄ := by
  have hloop := fun step initial => @loop_spec (List (Nat × String)) _ step initial
    (fun _ c => n ≤ c.offset)
    (fun (r : List (Nat × String) × Tree) c => n ≤ c.offset ∧ r.2.Within n c.offset ∧ r.2.IsLegible)
  mvcgen [operatorType, hrules, hloop]
  invariants
  · Ends fun r c => n ≤ c.offset ∧ r.2.Within n c.offset ∧ r.2.IsLegible
  with grind -ring -linarith

@[spec]
lemma functionType_spec (n : Nat) : ⦃At n⦄ functionType rules ⦃Reads n⦄ := by
  mvcgen [functionType, hrules] with grind -ring -linarith

@[spec]
lemma constructorType_spec (n : Nat) : ⦃At n⦄ constructorType rules ⦃Reads n⦄ := by
  mvcgen [constructorType, hrules] with grind -ring -linarith

@[spec]
lemma type_spec (n : Nat) : ⦃At n⦄ type rules ⦃Reads n⦄ := by
  mvcgen [type, hrules] with grind -ring -linarith

end Concise.Grammar
