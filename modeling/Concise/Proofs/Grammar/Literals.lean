import Mathlib
import Concise.Grammar.Program
import Concise.Proofs.Evaluating

/-!
An object literal with one member, in parentheses, and nothing else.

* `run_objectMember`: a word before a parenthesis or a closing brace modifies nothing, also if it is
  `get`, `set` or `async`. So the member is a method (`run_plainProperty_method`) or a shorthand
  (`run_plainProperty_shorthand`).
* `run_assignment_literal`, `run_assignment_parenthesis`: what ends an expression ends every rule
  for operators, so the literal and then the parentheses are read alone.
* `run_bodyItems_goal`: **the text of such a literal is one statement**, whatever its member is.
-/

namespace Concise.Grammar

open Concise.Parser

variable {rules : Rules} {context : Context} {c c' : Cursor} {lexeme other : Lexeme}
  {ls ls' : List Lexeme} {text : String} {isEscaped : Bool}

/-! ### Empty functions -/

lemma run_typeParameters? (h : c.Ahead (lexeme :: ls)) (hne : lexeme ≠ .mark "<") :
    typeParameters? rules context c = some (.absent, c) := by
  simp [typeParameters?, run_isMark h, beq_eq_false_iff_ne.mpr hne]

lemma run_returnType? (h : c.Ahead (lexeme :: ls)) (hne : lexeme ≠ .mark ":") :
    returnType? rules context c = some (.absent, c) := by
  cases htypes : context.dialect.isTypeScript with
  | false => simp [returnType?, htypes, andM, toBool]
  | true => simp [returnType?, run_acceptMark_of_ne h hne, htypes, andM, toBool]

lemma run_parameters (h : c.Ahead (.mark "(" :: .mark ")" :: ls)) :
    parameters rules context c = some
      ((.absent, .node .parameters ⟨c.next, c.advance.advance.offset⟩ []), c.advance.advance) := by
  have hthis : thisParameter? rules context c.advance = some (.absent, c.advance) := by
    simp [thisParameter?, run_isWord h.tail, run_position h.tail]
  simp [parameters, run_position h, run_mark h, hthis, run_delimited_nil h.tail, restComesLast]

lemma run_functionBody (h : c.Ahead (.openBrace :: .closeBrace :: ls)) :
    functionBody rules context c = some
      (.node .functionBody ⟨c.next, c.advance.advance.offset⟩ [], c.advance.advance) := by
  have hitems : bodyItems rules .closeBrace context c.advance = some ([], c.advance.advance) :=
    run_loop (by simp [run_accept h.tail])
  simp [functionBody, run_position h, run_expect h, hitems]

/-- The function `() {}` at a cursor. -/
def emptyFunction (c : Cursor) : Tree :=
  .function ⟨c.next, c.advance.advance.advance.advance.offset⟩ {} .absent .absent
    (.node .parameters ⟨c.next, c.advance.advance.offset⟩ []) .absent
    (.node .functionBody ⟨c.advance.advance.next, c.advance.advance.advance.advance.offset⟩ [])

lemma run_method (h : c.Ahead (.mark "(" :: .mark ")" :: .openBrace :: .closeBrace :: ls)) :
    method rules false false context c =
      some (emptyFunction c, c.advance.advance.advance.advance) := by
  have hbody := h.tail.tail
  simp [method, functionTail, run_position h, run_typeParameters? h, run_parameters h,
    run_returnType? hbody, run_isAt hbody, run_functionBody hbody, emptyFunction]

/-! ### Members -/

lemma run_memberKey (h : c.Ahead (.word text isEscaped :: ls)) :
    memberKey rules context c = some
      ((.node (.staticName text) ⟨c.next, c.advance.offset⟩ [], false), c.advance) := by
  obtain ⟨token, htoken, hlexeme, htake, hstart, hstop⟩ := h.exists_token
  simp [memberKey, run_peek htoken, hlexeme, htake, hstart, hstop]

/-- What may follow on a word that modifies nothing. -/
def EndsName (lexeme : Lexeme) : Prop := lexeme = .mark "(" ∨ lexeme = .closeBrace

lemma EndsName.beginsKey_eq (hname : EndsName lexeme) {token : Token} (h : token.lexeme = lexeme) :
    (beginsKey token || token.lexeme == .mark "*") = false := by
  rcases hname with rfl | rfl <;> simp [beginsKey, h]

lemma run_modifiesProperty (h : c.Ahead (lexeme :: other :: ls)) (hother : EndsName other)
    (text : String) : modifiesProperty text context c = some (false, c) := by
  obtain ⟨token, htoken, -, htake, -⟩ := h.exists_token
  obtain ⟨token', htoken', hlexeme', -⟩ := h.tail.exists_token
  have hkey := (Bool.or_eq_false_iff.mp (hother.beginsKey_eq hlexeme')).1
  rw [modifiesProperty, run_bind, run_isWord h, Option.bind_some]
  split
  · simp [holds, next, run_peek htoken, htake, run_peek htoken', hkey]
  · rfl

lemma run_isAsyncMethod (h : c.Ahead (lexeme :: other :: ls)) (hother : EndsName other) :
    isAsyncMethod context c = some (false, c) := by
  obtain ⟨token, htoken, -, htake, -⟩ := h.exists_token
  obtain ⟨token', htoken', hlexeme', -⟩ := h.tail.exists_token
  rw [isAsyncMethod, run_bind, run_isWord h, Option.bind_some]
  split
  · simp [holds, next, run_peek htoken, htake, run_peek htoken', hother.beginsKey_eq hlexeme']
  · rfl

/-- **A word before a parenthesis or a closing brace is a key**, whatever the word is. -/
lemma run_objectMember (h : c.Ahead (.word text isEscaped :: other :: ls))
    (hother : EndsName other) :
    objectMember rules context c = plainProperty rules c.next context c := by
  simp [objectMember, run_position h, run_acceptMark_of_ne h, run_isAsyncMethod h hother,
    run_modifiesProperty h hother]

lemma run_plainProperty_method
    (h : c.Ahead
      (.word text isEscaped :: .mark "(" :: .mark ")" :: .openBrace :: .closeBrace :: ls))
    (start : Nat) :
    plainProperty rules start context c = some
      (.property ⟨start, c.advance.advance.advance.advance.advance.offset⟩ { isMethod := true }
        (.node (.staticName text) ⟨c.next, c.advance.offset⟩ []) (emptyFunction c.advance),
        c.advance.advance.advance.advance.advance) := by
  obtain ⟨token, htoken, -⟩ := h.exists_token
  simp [plainProperty, run_peek htoken, run_memberKey h, run_acceptMark_of_ne h.tail,
    run_isMark h.tail, run_method h.tail]

lemma run_plainProperty_shorthand (h : c.Ahead (.word text isEscaped :: .closeBrace :: ls))
    (hname : isNameIn context text = true) (start : Nat) :
    plainProperty rules start context c = some
      (.property ⟨start, c.advance.offset⟩ { isShorthand := true }
        (.node (.staticName text) ⟨c.next, c.advance.offset⟩ [])
        (.reference ⟨c.next, c.advance.offset⟩ text), c.advance) := by
  obtain ⟨token, htoken, hlexeme, -, hstart, hstop⟩ := h.exists_token
  have htext : nameOf context token = some text := by simp [nameOf, hlexeme, hname]
  simp [plainProperty, shorthandProperty, run_peek htoken, run_memberKey h,
    run_acceptMark_of_ne h.tail, run_isMark h.tail, htext, hstart, hstop]

lemma run_objectLiteral {member : Tree} (h : c.Ahead (.openBrace :: lexeme :: ls))
    (hne : lexeme ≠ .closeBrace)
    (hmember : objectMember rules { context with inConsequent := false } c.advance =
      some (member, c'))
    (h' : c'.Ahead (.closeBrace :: ls')) :
    objectLiteral rules context c =
      some (.node .object ⟨c.next, c'.advance.offset⟩ [member], c'.advance) := by
  simp [objectLiteral, run_position h, run_expect h, run_delimited_one h.tail hne hmember h']

/-! ### The end of an expression -/

/-- What ends an expression: no operator and no part of one. -/
def EndsExpression (lexeme : Lexeme) : Prop := lexeme = .mark ")" ∨ lexeme = .finish

section End

variable (start level : Nat) (tree : Tree) (h : c.Ahead (lexeme :: ls))
  (hend : EndsExpression lexeme)
include h hend

lemma run_links : links rules start tree context c = some (tree, c) := by
  obtain ⟨token, htoken, rfl, -⟩ := h.exists_token
  refine run_loop ?_
  rcases hend with hend | hend <;> simp [run_peek htoken, hend]

lemma run_postfixTail : postfixTail rules start tree context c = some (tree, c) := by
  have hlinks := @run_links rules context c lexeme ls start tree h hend
  obtain ⟨token, htoken, rfl, -⟩ := h.exists_token
  rcases hend with hend | hend <;> simp [postfixTail, hlinks, run_peek htoken, hend]

lemma run_binaryTail : binaryTail rules start level tree context c = some (tree, c) := by
  obtain ⟨token, htoken, rfl, -⟩ := h.exists_token
  refine run_loop ?_
  rcases hend with hend | hend <;>
    simp [run_peek htoken, hend, wholeOperator, binaryOperator, operatorLevel]

lemma run_conditionalTail : conditionalTail rules start tree context c = some (tree, c) := by
  rcases hend with rfl | rfl <;> simp [conditionalTail, run_acceptMark_of_ne h]

lemma run_assignmentTail : assignmentTail rules start tree context c = some (tree, c) := by
  obtain ⟨token, htoken, rfl, -⟩ := h.exists_token
  rcases hend with hend | hend <;>
    simp [assignmentTail, run_peek htoken, hend, wholeOperator, assignmentOperators]

lemma run_assignmentFrom : assignmentFrom rules start tree context c = some (tree, c) := by
  simp [assignmentFrom, run_postfixTail _ _ h hend, run_binaryTail _ _ _ h hend,
    run_conditionalTail _ _ h hend, run_assignmentTail _ _ h hend]

end End

/-! ### Expressions -/

/-- A literal is read by the rule for assignments. -/
lemma run_assignment_literal {tree : Tree} (h : c.Ahead (.openBrace :: ls))
    (hliteral : objectLiteral rules context c = some (tree, c')) (h' : c'.Ahead (lexeme :: ls'))
    (hend : EndsExpression lexeme) : assignment rules context c = some (tree, c') := by
  obtain ⟨token, htoken, hlexeme, -⟩ := h.exists_token
  have hprimary : primary rules context c = some (tree, c') := by
    simp [primary, run_peek htoken, hlexeme, hliteral]
  have hunary : unary rules context c = some (tree, c') := by
    simp [unary, run_peek htoken, hlexeme, hprimary, run_postfixTail _ _ h' hend]
  have hbinary : binary rules 0 context c = some (tree, c') := by
    simp [binary, run_peek htoken, hlexeme, hunary, run_binaryTail _ _ _ h' hend]
  simp [assignment, run_peek htoken, hlexeme, plainAssignment, run_position h, hbinary,
    run_conditionalTail _ _ h' hend, run_assignmentTail _ _ h' hend]

lemma run_cover {tree : Tree} (h : c.Ahead (.mark "(" :: .openBrace :: ls))
    (hitem : rules .assignment { context with allowsIn := true, inConsequent := false } c.advance =
      some (tree, c'))
    (h' : c'.Ahead (.mark ")" :: ls')) :
    cover rules context c = some (⟨[tree], true, c.next, c.advance.next,
      ⟨c.next, c'.advance.offset⟩⟩, c'.advance) := by
  have hspreadable : spreadable rules { context with allowsIn := true, inConsequent := false }
      c.advance = some (tree, c') := by
    simp [spreadable, run_position h.tail, run_acceptMark_of_ne h.tail, hitem]
  simp [cover, run_position h, run_position h.tail, run_mark h, loop, loopFrom,
    run_acceptMark_of_ne h.tail, run_isMark h.tail, hspreadable, run_acceptMark_of_ne h',
    run_mark h']

/-- A literal in parentheses is no parameter if the text ends there. -/
lemma run_assignment_parenthesis {span : Span} {members : List Tree}
    (h : c.Ahead (.mark "(" :: .openBrace :: ls))
    (hitem : rules .assignment { context with allowsIn := true, inConsequent := false } c.advance =
      some (.node .object span members, c'))
    (h' : c'.Ahead (.mark ")" :: .finish :: ls')) :
    assignment rules context c = some (.node .parenthesized ⟨c.next, c'.advance.offset⟩
      [.node .object span members], c'.advance) := by
  obtain ⟨token, htoken, hlexeme, -⟩ := h.exists_token
  obtain ⟨token', htoken', hlexeme', -⟩ := h'.tail.exists_token
  have harrow : isArrow context c'.advance = some (false, c'.advance) := by
    simp [isArrow, run_peek htoken', hlexeme']
  have hfrom : fromParenthesis rules context c = some (.node .parenthesized
      ⟨c.next, c'.advance.offset⟩ [.node .object span members], c'.advance) := by
    simp [fromParenthesis, run_position h, attempt, run_cover h hitem h', harrow,
      run_isMark h'.tail, Cover.expression, rememberParentheses,
      run_assignmentFrom _ _ h'.tail (.inr rfl)]
  simp [assignment, run_peek htoken, hlexeme, hfrom]

/-! ### Statements -/

lemma run_statement {tree : Tree} (h : c.Ahead (.mark "(" :: ls))
    (hitem : rules .assignment { context with allowsIn := true, inConsequent := false } c =
      some (tree, c'))
    (h' : c'.Ahead (.finish :: ls')) :
    statement rules context c =
      some (.node .expressionStatement ⟨c.next, c'.offset⟩ [tree], c') := by
  obtain ⟨token, htoken, hlexeme, -⟩ := h.exists_token
  obtain ⟨token', htoken', hlexeme', -⟩ := h'.exists_token
  have hlabel : name context c = none := by
    simp [name, run_peek htoken, nameOf, hlexeme]
  have hexpression : expression rules { context with allowsIn := true, inConsequent := false } c =
      some (tree, c') := by
    simp [expression, run_position h, separatedBy, hitem, loop, loopFrom, run_acceptMark_of_ne h']
  have hsemicolon : semicolon context c' = some ((), c') := by
    simp [semicolon, run_peek htoken', hlexeme']
  have hlast : expressionOrLabel rules context c =
      some (.node .expressionStatement ⟨c.next, c'.offset⟩ [tree], c') := by
    simp [expressionOrLabel, run_position h, holds, hlabel, fullExpression, hexpression,
      hsemicolon]
  simp [statement, run_peek htoken, hlexeme, hlast]

lemma run_bodyItems {tree : Tree} (h : c.Ahead (.mark "(" :: ls))
    (hitem : rules .statement context c = some (tree, c')) (h' : c'.Ahead (.finish :: ls')) :
    bodyItems rules .finish context c = some ([tree], c'.advance) := by
  obtain ⟨token, htoken, hlexeme, -⟩ := h.exists_token
  refine run_loop_twice ([tree], false) c' ?_ ?_
  · simp [run_accept_of_ne h, run_peek htoken, hitem, hlexeme]
  · simp [run_accept h']

/-- A literal in parentheses is one statement. Each of the three constructs around its member takes
one step of the depth. -/
lemma run_bodyItems_goal {depth : Nat} {member : Tree}
    (h : c.Ahead (.mark "(" :: .openBrace :: lexeme :: ls)) (hne : lexeme ≠ .closeBrace)
    (hmember : objectMember (goal depth) { context with allowsIn := true, inConsequent := false }
      c.advance.advance = some (member, c'))
    (h' : c'.Ahead [.closeBrace, .mark ")", .finish]) :
    bodyItems (goal (depth + 3)) .finish context c = some
      ([.node .expressionStatement ⟨c.next, c'.advance.advance.offset⟩
        [.node .parenthesized ⟨c.next, c'.advance.advance.offset⟩
          [.node .object ⟨c.advance.next, c'.advance.offset⟩ [member]]]],
        c'.advance.advance.advance) := by
  have hliteral : objectLiteral (goal depth)
      { context with allowsIn := true, inConsequent := false } c.advance = _ :=
    run_objectLiteral h.tail hne hmember h'
  have hinner := run_assignment_literal h.tail hliteral h'.tail (.inl rfl)
  have houter : assignment (goal (depth + 1))
      { context with allowsIn := true, inConsequent := false } c = _ :=
    run_assignment_parenthesis h hinner h'.tail
  have hstatement : statement (goal (depth + 2)) context c = _ :=
    run_statement h houter h'.tail.tail
  exact run_bodyItems h hstatement h'.tail.tail

end Concise.Grammar
