import Mathlib
import Concise.Proofs.Grammar.Expressions

/-!
What the rules for statements, declarations, imports and exports read.
-/

open Std.Do

set_option mvcgen.warning false

namespace Concise.Grammar

open Concise.Parser

/-! ### Words -/

@[spec]
lemma variableWord?_spec (c₀ : Cursor) : ⦃Is c₀⦄ variableWord? ⦃Stays c₀⦄ := by
  mvcgen [variableWord?] with grind -ring -linarith

@[spec]
lemma takeVariableWord_spec (word : VariableWord) (n : Nat) :
    ⦃At n⦄ takeVariableWord word ⦃Moves n⦄ := by
  mvcgen [takeVariableWord] with grind -ring -linarith

@[spec]
lemma isLoopOver_spec (c₀ : Cursor) : ⦃Is c₀⦄ isLoopOver ⦃Stays c₀⦄ := by
  mvcgen [isLoopOver] with grind -ring -linarith

@[spec]
lemma jumpStatement_spec (keyword : String) (kind : Option String → Kind)
    (hkind : ∀ label text, kind label ≠ .number text ∧ kind label ≠ .staticName text) (n : Nat) :
    ⦃At n⦄ jumpStatement keyword kind ⦃Reads n⦄ := by
  mvcgen [jumpStatement] with grind -ring -linarith

@[spec]
lemma debuggerStatement_spec (n : Nat) : ⦃At n⦄ debuggerStatement ⦃Reads n⦄ := by
  mvcgen [debuggerStatement] with grind -ring -linarith

@[spec]
lemma precedesName_spec (text : String) (c₀ : Cursor) :
    ⦃Is c₀⦄ precedesName text ⦃Stays c₀⦄ :=
  holds_spec _ c₀

@[spec]
lemma precedesString_spec (c₀ : Cursor) : ⦃Is c₀⦄ precedesString ⦃Stays c₀⦄ := holds_spec _ c₀

@[spec]
lemma isDeclare_spec (c₀ : Cursor) : ⦃Is c₀⦄ isDeclare ⦃Stays c₀⦄ := by
  mvcgen [isDeclare] with grind -ring -linarith

variable {rules : Rules} (hrules : ∀ goal n, ⦃At n⦄ rules goal ⦃Reads n⦄)

section

include hrules

/-! ### Statements -/

@[spec]
lemma substatement_spec (n : Nat) : ⦃At n⦄ substatement rules ⦃Reads n⦄ := by
  mvcgen [substatement, hrules] with grind -ring -linarith

@[spec]
lemma headExpression_spec (n : Nat) : ⦃At n⦄ headExpression rules ⦃Reads n⦄ := by
  mvcgen [headExpression, hrules] with grind -ring -linarith

@[spec]
lemma block_spec (n : Nat) : ⦃At n⦄ block rules ⦃Reads n⦄ := by
  mvcgen [block, hrules] with grind -ring -linarith

@[spec]
lemma declarator_spec (n : Nat) : ⦃At n⦄ declarator rules ⦃Reads n⦄ := by
  mvcgen [declarator, hrules] with grind -ring -linarith

@[spec]
lemma variableList_spec (word : VariableWord) (isDeclare : Bool) (n : Nat) :
    ⦃At n⦄ variableList rules word isDeclare ⦃Reads n⦄ := by
  mvcgen [variableList, hrules] with grind -ring -linarith

@[spec]
lemma variableStatement_spec (start : Nat) (word : VariableWord) (isDeclare : Bool) (n : Nat) :
    ⦃At n⦄ variableStatement rules start word isDeclare ⦃Reads n⦄ := by
  mvcgen [variableStatement, hrules] with grind -ring -linarith

@[spec]
lemma loopBody_spec (n : Nat) : ⦃At n⦄ loopBody rules ⦃Reads n⦄ := by
  refine triple_of_forall fun R hR => ?_
  mvcgen [loopBody, hrules] with grind -ring -linarith

@[spec]
lemma threeClauses_spec (start : Nat) (first : Tree) (n : Nat) :
    ⦃At n⦄ threeClauses rules start first ⦃Continues n first⦄ := by
  mvcgen [threeClauses, hrules] with grind -ring -linarith

@[spec]
lemma loopOver_spec (start : Nat) (target : Tree) (isAwait : Bool) (n : Nat) :
    ⦃At n⦄ loopOver rules start target isAwait ⦃Ends fun t c => n ≤ c.offset ∧ t.IsLegible ∧
      ∀ first ≤ n, target.Within first n → t.Within first c.offset⦄ := by
  mvcgen [loopOver, hrules] with grind -ring -linarith

@[spec]
lemma forStatement_spec (n : Nat) : ⦃At n⦄ forStatement rules ⦃Reads n⦄ := by
  mvcgen [forStatement, hrules] with grind -ring -linarith

@[spec]
lemma whileStatement_spec (n : Nat) : ⦃At n⦄ whileStatement rules ⦃Reads n⦄ := by
  mvcgen [whileStatement, hrules] with grind -ring -linarith

@[spec]
lemma doStatement_spec (n : Nat) : ⦃At n⦄ doStatement rules ⦃Reads n⦄ := by
  mvcgen [doStatement, hrules] with grind -ring -linarith

@[spec]
lemma ifStatement_spec (n : Nat) : ⦃At n⦄ ifStatement rules ⦃Reads n⦄ := by
  mvcgen [ifStatement, hrules] with grind -ring -linarith

@[spec]
lemma switchCase_spec (n : Nat) : ⦃At n⦄ switchCase rules ⦃Reads n⦄ := by
  mvcgen [switchCase, hrules] with grind -ring -linarith

@[spec]
lemma switchStatement_spec (n : Nat) : ⦃At n⦄ switchStatement rules ⦃Reads n⦄ := by
  mvcgen [switchStatement, hrules] with grind -ring -linarith

@[spec]
lemma returnStatement_spec (n : Nat) : ⦃At n⦄ returnStatement rules ⦃Reads n⦄ := by
  mvcgen [returnStatement, hrules] with grind -ring -linarith

@[spec]
lemma throwStatement_spec (n : Nat) : ⦃At n⦄ throwStatement rules ⦃Reads n⦄ := by
  mvcgen [throwStatement, hrules] with grind -ring -linarith

@[spec]
lemma catchClause_spec (n : Nat) : ⦃At n⦄ catchClause rules ⦃Reads n⦄ := by
  mvcgen [catchClause, hrules] with grind -ring -linarith

@[spec]
lemma tryStatement_spec (n : Nat) : ⦃At n⦄ tryStatement rules ⦃Reads n⦄ := by
  mvcgen [tryStatement, hrules] with grind -ring -linarith

@[spec]
lemma withStatement_spec (n : Nat) : ⦃At n⦄ withStatement rules ⦃Reads n⦄ := by
  mvcgen [withStatement, hrules] with grind -ring -linarith

@[spec]
lemma expressionOrLabel_spec (n : Nat) : ⦃At n⦄ expressionOrLabel rules ⦃Reads n⦄ := by
  mvcgen [expressionOrLabel, hrules] with grind -ring -linarith

@[spec]
lemma functionDeclaration_spec (start : Nat) (isDeclare : Bool) (n : Nat) :
    ⦃At n⦄ functionDeclaration rules start isDeclare ⦃Reads n⦄ := by
  mvcgen [functionDeclaration, hrules] with grind -ring -linarith

/-! ### Declarations -/

@[spec]
lemma typeAlias_spec (start : Nat) (isDeclare : Bool) (n : Nat) :
    ⦃At n⦄ typeAlias rules start isDeclare ⦃Reads n⦄ := by
  mvcgen [typeAlias, hrules] with grind -ring -linarith

@[spec]
lemma interfaceDeclaration_spec (start : Nat) (isDeclare : Bool) (n : Nat) :
    ⦃At n⦄ interfaceDeclaration rules start isDeclare ⦃Reads n⦄ := by
  mvcgen [interfaceDeclaration, hrules] with grind -ring -linarith

@[spec]
lemma enumMember_spec (n : Nat) : ⦃At n⦄ enumMember rules ⦃Reads n⦄ := by
  mvcgen [enumMember, hrules] with grind -ring -linarith

@[spec]
lemma enumDeclaration_spec (start : Nat) (isDeclare : Bool) (n : Nat) :
    ⦃At n⦄ enumDeclaration rules start isDeclare ⦃Reads n⦄ := by
  mvcgen [enumDeclaration, hrules] with grind -ring -linarith

@[spec]
lemma moduleBlock_spec (isDeclare : Bool) (n : Nat) :
    ⦃At n⦄ moduleBlock rules isDeclare ⦃Reads n⦄ := by
  mvcgen [moduleBlock, hrules] with grind -ring -linarith

end

/-- Namespaces inside each other hold what the names and the body hold. -/
lemma within_nestNamespaces {keyword : String} {isDeclare : Bool} {stop : Nat} {body : Tree}
    {middle last : Nat} (hbody : body.Within middle last) (hlast : middle ≤ last) :
    ∀ {names : List Tree} {first : Nat}, first ≤ middle → Tree.AllWithin first middle names →
      (nestNamespaces keyword isDeclare stop body names).Within first last
  | [], _, hfirst, _ => hbody.mono hfirst le_rfl
  | name :: names, first, hfirst, hnames => by
      obtain ⟨middle', hle, hle', hname, hnames⟩ := hnames.uncons hfirst
      exact Tree.allWithin_cons hname le_rfl hle (hle'.trans hlast)
        (Tree.allWithin_singleton.mpr (within_nestNamespaces hbody hlast hle' hnames))

lemma isLegible_nestNamespaces {keyword : String} {isDeclare : Bool} {stop : Nat} {body : Tree}
    {names : List Tree} (hbody : body.IsLegible) :
    (nestNamespaces keyword isDeclare stop body names).IsLegible := by
  cases names with
  | nil => exact hbody
  | cons name names => rw [nestNamespaces, Tree.isLegible_node]; trivial

grind_pattern within_nestNamespaces =>
  nestNamespaces keyword isDeclare stop body names, body.Within middle last,
  Tree.AllWithin first middle names
grind_pattern isLegible_nestNamespaces => nestNamespaces keyword isDeclare stop body names

section

include hrules

@[spec]
lemma namespaceDeclaration_spec (start : Nat) (keyword : String) (isDeclare : Bool) (n : Nat) :
    ⦃At n⦄ namespaceDeclaration rules start keyword isDeclare ⦃Reads n⦄ := by
  mvcgen [namespaceDeclaration, hrules] with grind -ring -linarith

@[spec]
lemma quotedModule_spec (start : Nat) (isDeclare : Bool) (n : Nat) :
    ⦃At n⦄ quotedModule rules start isDeclare ⦃Reads n⦄ := by
  mvcgen [quotedModule, hrules] with grind -ring -linarith

@[spec]
lemma globalDeclaration_spec (start : Nat) (isDeclare : Bool) (n : Nat) :
    ⦃At n⦄ globalDeclaration rules start isDeclare ⦃Reads n⦄ := by
  mvcgen [globalDeclaration, hrules] with grind -ring -linarith

@[spec]
lemma classDeclaration_spec (start : Nat) (applied : Tree) (isDeclare : Bool) (n : Nat) :
    ⦃At n⦄ classDeclaration rules start applied isDeclare ⦃Continues n applied⦄ := by
  refine triple_of_forall fun R hR => ?_
  mvcgen [classDeclaration, hrules] with grind -ring -linarith

@[spec]
lemma typeDeclaration?_spec (start : Nat) (isDeclare : Bool) (n : Nat) :
    ⦃At n⦄ typeDeclaration? rules start isDeclare ⦃ReadsSome n⦄ := by
  mvcgen [typeDeclaration?, hrules] with grind -ring -linarith

@[spec]
lemma declarationFrom?_spec (start : Nat) (isDeclare : Bool) (n : Nat) :
    ⦃At n⦄ declarationFrom? rules start isDeclare ⦃ReadsSome n⦄ := by
  mvcgen [declarationFrom?, hrules] with grind -ring -linarith

@[spec]
lemma declaration?_spec (n : Nat) : ⦃At n⦄ declaration? rules ⦃ReadsSome n⦄ := by
  refine triple_of_forall fun R hR => ?_
  mvcgen [declaration?, hrules] with grind -ring -linarith

end

/-! ### Imports -/

@[spec]
lemma clauseName_spec (n : Nat) : ⦃At n⦄ clauseName ⦃ReadsWord n⦄ := by
  mvcgen [clauseName] with grind -ring -linarith

@[spec]
lemma importAttribute_spec (n : Nat) : ⦃At n⦄ importAttribute ⦃Reads n⦄ := by
  mvcgen [importAttribute] with grind -ring -linarith

@[spec]
lemma importAttributes?_spec (n : Nat) : ⦃At n⦄ importAttributes? ⦃Reads n⦄ := by
  mvcgen [importAttributes?] with grind -ring -linarith

@[spec]
lemma moduleSource_spec (n : Nat) :
    ⦃At n⦄ moduleSource
      ⦃Ends fun r c => n ≤ c.offset ∧ Tree.AllWithin n c.offset [r.1, r.2]⦄ := by
  mvcgen [moduleSource] with grind -ring -linarith

@[spec]
lemma marksType_spec (c₀ : Cursor) : ⦃Is c₀⦄ marksType ⦃Stays c₀⦄ := by
  mvcgen [marksType] with grind -ring -linarith

lemma eq_node_of_bindingOf? {context : Context} {tree bound : Tree}
    (h : bindingOf? context tree = some bound) :
    ∃ text span, bound = .node (.binding text) span [] := by
  unfold bindingOf? at h
  split at h
  · obtain ⟨-, h⟩ := Option.ite_none_right_eq_some.mp h
    exact ⟨_, _, (Option.some.inj h).symm⟩
  · cases h

grind_pattern eq_node_of_bindingOf? => bindingOf? context tree, some bound

@[spec]
lemma importSpecifier_spec (n : Nat) : ⦃At n⦄ importSpecifier ⦃Reads n⦄ := by
  mvcgen [importSpecifier] with grind -ring -linarith

@[spec]
lemma importNamespace_spec (n : Nat) : ⦃At n⦄ importNamespace ⦃Reads n⦄ := by
  mvcgen [importNamespace] with grind -ring -linarith

@[spec]
lemma importNames_spec (n : Nat) : ⦃At n⦄ importNames ⦃ReadsAll n⦄ := by
  refine triple_of_forall fun R hR => ?_
  mvcgen [importNames] with grind -ring -linarith

@[spec]
lemma importClause_spec (start : Nat) (isType : Bool) (phase : Option String) (n : Nat) :
    ⦃At n⦄ importClause start isType phase ⦃Reads n⦄ := by
  mvcgen [importClause] with grind -ring -linarith

@[spec]
lemma aliasTarget_spec (n : Nat) : ⦃At n⦄ aliasTarget ⦃Reads n⦄ := by
  mvcgen [aliasTarget] with grind -ring -linarith

@[spec]
lemma importAlias_spec (start : Nat) (isType : Bool) (n : Nat) :
    ⦃At n⦄ importAlias start isType ⦃Reads n⦄ := by
  mvcgen [importAlias] with grind -ring -linarith

@[spec]
lemma isAlias_spec (c₀ : Cursor) : ⦃Is c₀⦄ isAlias ⦃Stays c₀⦄ := by
  mvcgen [isAlias] with grind -ring -linarith

@[spec]
lemma modifiesImport_spec (text : String) (c₀ : Cursor) :
    ⦃Is c₀⦄ modifiesImport text ⦃Stays c₀⦄ :=
  holds_spec _ c₀

@[spec]
lemma importStatement_spec (n : Nat) : ⦃At n⦄ importStatement ⦃Reads n⦄ := by
  refine triple_of_forall fun R hR => ?_
  mvcgen [importStatement] with grind -ring -linarith

/-! ### Exports -/

@[spec]
lemma exportSpecifier_spec (n : Nat) : ⦃At n⦄ exportSpecifier ⦃Reads n⦄ := by
  mvcgen [exportSpecifier] with grind -ring -linarith

/-- The names of an export keep nothing but themselves. -/
lemma allWithin_of_ownSpecifiers {context : Context} {first last : Nat} {items items' : List Tree}
    (h : items.mapM (ownSpecifier? context) = some items')
    (hitems : Tree.AllWithin first last items) : Tree.AllWithin first last items' := by
  refine (Tree.keepsAll_of_mapM (fun t u htu => ?_) h).allWithin hitems
  unfold ownSpecifier? at htu
  split at htu
  · obtain ⟨-, htu⟩ := Option.ite_none_right_eq_some.mp htu
    exact Option.some.inj htu ▸ .node (.pair .reference .refl)
  · cases htu

grind_pattern allWithin_of_ownSpecifiers =>
  items.mapM (ownSpecifier? context), some items', Tree.AllWithin first last items

@[spec]
lemma exportClause_spec (start : Nat) (isType : Bool) (n : Nat) :
    ⦃At n⦄ exportClause start isType ⦃Reads n⦄ := by
  mvcgen [exportClause] with grind -ring -linarith

@[spec]
lemma exportAll_spec (start : Nat) (isType : Bool) (n : Nat) :
    ⦃At n⦄ exportAll start isType ⦃Reads n⦄ := by
  mvcgen [exportAll] with grind -ring -linarith

include hrules

@[spec]
lemma exportDefault_spec (start : Nat) (applied : Tree) (n : Nat) :
    ⦃At n⦄ exportDefault rules start applied ⦃Continues n applied⦄ := by
  mvcgen [exportDefault, hrules] with grind -ring -linarith

@[spec]
lemma exportStatement_spec (start : Nat) (applied : Tree) (n : Nat) :
    ⦃At n⦄ exportStatement rules start applied ⦃Continues n applied⦄ := by
  refine triple_of_forall fun R hR => ?_
  mvcgen [exportStatement, hrules] with grind -ring -linarith

/-! ### Programs -/

@[spec]
lemma decorated_spec (n : Nat) : ⦃At n⦄ decorated rules ⦃Reads n⦄ := by
  mvcgen [decorated, hrules] with grind -ring -linarith

@[spec]
lemma statement_spec (n : Nat) : ⦃At n⦄ statement rules ⦃Reads n⦄ := by
  refine triple_of_forall fun R hR => ?_
  mvcgen [statement, hrules] with grind -ring -linarith

end Concise.Grammar
