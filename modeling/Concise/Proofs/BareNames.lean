import Mathlib
import Concise.Dialect
import Concise.Proofs.Grammar.Literals
import Concise.Proofs.Occurrences
import Concise.Proofs.Parsing
import Concise.Proofs.Spelling

/-!
Bare names in object literals.

A simplification writes a name bare as the key of a method, or once for the key and the value of a
property. Both must be read back as what they were written for.

* `Program.parse?_literal`: a text of the tokens of an object literal with one member, in
  parentheses, is read as that literal.
* `Program.bareNames_readBack`: **every identifier name is read back as the name of a method**, also
  `get`, `set`, `async` and the reserved words, and nothing else is read back as such a name; **a
  name that is read as a reference is read back as a shorthand**.
-/

namespace Concise

namespace Property

/-- The property is a plain method with the given name: its function is neither asynchronous nor a
generator and has no name of its own. -/
def IsMethodNamed (name : String) (p : Property) : Prop :=
  p.form = { isMethod := true } ∧ (∃ span, p.key = .node (.staticName name) span []) ∧
    ∃ span head a b c d e, p.value = .function span head a b c d e ∧ head.name = none ∧
      head.isAsync = false ∧ head.isGenerator = false

/-- The property is a shorthand of the given name, which stands once for the key and the value. -/
def IsShorthandOf (name : String) (p : Property) : Prop :=
  p.form = { isShorthand := true } ∧
    ∃ span, p.key = .node (.staticName name) span [] ∧ p.value = .reference span name

end Property

namespace Program

open Concise.Parser Concise.Grammar

variable {dialect : Dialect} {keepsParentheses : Bool} {name source : String}

/-! ### Texts -/

/-- An object literal with a method of the given name. -/
def methodText (name : String) : String := "(\x7b" ++ name ++ "()\x7b\x7d\x7d)"

/-- An object literal with a shorthand of the given name. -/
def shorthandText (name : String) : String := "(\x7b" ++ name ++ "\x7d)"

/-- An object literal with the given value. -/
def valueText (value : String) : String := "(\x7bk: " ++ value ++ "\x7d)"

/-- An object literal in parentheses, from its start to its first name. -/
lemma spells_opened {d : Char} {rest : List Char} {ls : List Lexeme} (hrest : Spells (d :: rest) ls)
    (h : Identifier.isPropertyName name = true) (hpart : Identifier.isPart d = false)
    (hescape : d ≠ '\\') :
    Spells ('(' :: '{' :: (name.toList ++ d :: rest))
      (.mark "(" :: .openBrace :: .word name false :: ls) :=
  ((hrest.word h hpart hescape).cons (by decide) rfl).cons (by decide) rfl

/-- An object literal in parentheses, at its end. -/
lemma spells_closed : Spells ['}', ')'] [.closeBrace, .mark ")", .finish] :=
  (Spells.finish.cons (by decide) rfl).cons (by decide) rfl

lemma spells_methodText (h : Identifier.isPropertyName name = true) :
    Spells (methodText name).toList [.mark "(", .openBrace, .word name false, .mark "(", .mark ")",
      .openBrace, .closeBrace, .closeBrace, .mark ")", .finish] := by
  have hbody : Spells ['{', '}', '}', ')'] _ :=
    (spells_closed.cons (by decide) rfl).cons (by decide) rfl
  have hfunction : Spells ['(', ')', '{', '}', '}', ')'] _ :=
    (hbody.cons (by decide) rfl).cons (by decide) rfl
  have htext : (methodText name).toList =
      '(' :: '{' :: (name.toList ++ ['(', ')', '{', '}', '}', ')']) := by
    simp [methodText]
  rw [htext]
  exact spells_opened hfunction h (by decide) (by decide)

lemma spells_shorthandText (h : Identifier.isPropertyName name = true) :
    Spells (shorthandText name).toList
      [.mark "(", .openBrace, .word name false, .closeBrace, .mark ")", .finish] := by
  have htext : (shorthandText name).toList = '(' :: '{' :: (name.toList ++ ['}', ')']) := by
    simp [shorthandText]
  rw [htext]
  exact spells_opened spells_closed h (by decide) (by decide)

/-! ### Literals -/

/-- The members of the object literal that a program consists of, if it is one. -/
def literal? (program : Program) : Option (List Tree) :=
  match program.tree with
  | .node (.program none) _ [.node .expressionStatement _ [tree]] =>
      match tree.withoutParentheses with
      | .node .object _ members => some members
      | _ => none
  | _ => none

/-- The cursor before a text without a line that names an interpreter. -/
def topCursor (dialect : Dialect) (text : List Char) : Cursor :=
  { Cursor.start (!dialect.isModule) text with offset := Cursor.consumed text text }

variable (keepsParentheses) in
/-- A text is read if its items are, and no shorthand with an initialiser is left in them. -/
lemma parse?_of_bodyItems {items : List Tree} {last : Cursor}
    (hsplit : splitHashbang source.toList = (none, source.toList))
    (hitems : bodyItems (goal (depthBound source.toList.length)) .finish
      (topContext dialect source.toList.length) (topCursor dialect source.toList) =
        some (items, last))
    (hcover : Tree.anyCover items = false) :
    ∃ program, parse? dialect keepsParentheses source = some program ∧ ∃ span, program.tree =
      if keepsParentheses then .node (.program none) span items
      else .node (.program none) span (Tree.unwrapAll items) := by
  have htree : ∀ span, (Tree.node (.program none) span items).hasCover = false := by
    simp [Tree.hasCover, hcover]
  refine ⟨⟨dialect, _, last.comments.reverse⟩, ?_, ⟨0, Cursor.consumed source.toList []⟩, rfl⟩
  unfold parse?
  simp only [hsplit]
  rw [topCursor] at hitems
  simp only [hitems, Option.bind_eq_bind, Option.bind_some, htree, Tree.unwrap]
  rfl

variable (keepsParentheses) in
/-- A text with the tokens of an object literal is read as that literal, if its member is read at
every depth of nesting. -/
lemma parse?_literal {lexeme : Lexeme} {ls : List Lexeme} {member : Tree} {after : Cursor}
    (hhead : source.toList.head? = some '(')
    (hsource : (topCursor dialect source.toList).Ahead (.mark "(" :: .openBrace :: lexeme :: ls))
    (hne : lexeme ≠ .closeBrace)
    (hmember : ∀ rules, objectMember rules (topContext dialect source.toList.length)
      (topCursor dialect source.toList).advance.advance = some (member, after))
    (hafter : after.Ahead [.closeBrace, .mark ")", .finish])
    (hcover : member.hasCover = false) (hunwrap : member.unwrap = member) :
    ∃ program, parse? dialect keepsParentheses source = some program ∧
      program.literal? = some [member] := by
  have hsplit : splitHashbang source.toList = (none, source.toList) := by
    obtain ⟨rest, hrest⟩ := List.head?_eq_some_iff.mp hhead
    rw [hrest]
    rfl
  have hitems : bodyItems (goal (depthBound source.toList.length)) .finish
      (topContext dialect source.toList.length) (topCursor dialect source.toList) = _ :=
    run_bodyItems_goal hsource hne (hmember (goal (8 * source.toList.length + 13))) hafter
  obtain ⟨program, hparse, span, htree⟩ := parse?_of_bodyItems keepsParentheses hsplit hitems
    (by simp [Tree.hasCover, Tree.anyCover, hcover])
  refine ⟨program, hparse, ?_⟩
  cases keepsParentheses <;>
    simp [literal?, htree, Tree.unwrap, Tree.unwrapAll, hunwrap, Tree.withoutParentheses]

/-! ### Methods -/

/-- Every identifier name is read back as the name of a method. -/
lemma exists_method (h : Identifier.isPropertyName name = true) (dialect : Dialect)
    (keepsParentheses : Bool) : ∃ program, ∃ p : Property,
      parse? dialect keepsParentheses (methodText name) = some program ∧
        program.literal? = some [p.tree] ∧ p.IsMethodNamed name := by
  have hsource := spells_methodText h (topCursor dialect (methodText name).toList) rfl
  have hmember := hsource.tail.tail
  obtain ⟨program, hparse, hliteral⟩ := parse?_literal keepsParentheses (by simp [methodText])
    hsource (by simp)
    (fun rules => (run_objectMember hmember (.inl rfl)).trans (run_plainProperty_method hmember _))
    hmember.tail.tail.tail.tail.tail rfl rfl
  exact ⟨program, ⟨_, _, _, _⟩, hparse, hliteral, rfl, ⟨_, rfl⟩, _, _, _, _, _, _, _, rfl, rfl,
    rfl, rfl⟩

/-- What is no identifier name is not read back as a name, wherever a property stands. -/
lemma key_ne_of_parse? (h : Identifier.isPropertyName name = false) {program : Program}
    (hparse : parse? dialect keepsParentheses source = some program) {p : Property}
    (hp : p ∈ program.tree.properties) (span : Span) (parts : List Tree) :
    p.key ≠ .node (.staticName name) span parts := by
  intro hkey
  obtain ⟨last, hrun⟩ := run_of_parse? hparse
  have hlegible := (hrun.legible p hp).1
  rw [hkey, Tree.isLegible_node] at hlegible
  exact Bool.eq_false_iff.mp h hlegible

/-! ### Shorthands -/

lemma exists_shorthand (h : Identifier.isPropertyName name = true)
    (hname : isNameIn (topContext dialect (shorthandText name).toList.length) name = true)
    (keepsParentheses : Bool) : ∃ program, ∃ p : Property,
      parse? dialect keepsParentheses (shorthandText name) = some program ∧
        program.literal? = some [p.tree] ∧ p.IsShorthandOf name := by
  have hsource := spells_shorthandText h (topCursor dialect (shorthandText name).toList) rfl
  have hmember := hsource.tail.tail
  obtain ⟨program, hparse, hliteral⟩ := parse?_literal keepsParentheses
    (by simp [shorthandText]) hsource (by simp)
    (fun rules =>
      (run_objectMember hmember (.inr rfl)).trans (run_plainProperty_shorthand hmember hname _))
    hmember.tail rfl rfl
  exact ⟨program, ⟨_, _, _, _⟩, hparse, hliteral, rfl, _, rfl, rfl⟩

/-- A module cannot refer to `await`: the word waits for what follows, and nothing does. -/
lemma parse?_await (h : dialect.isModule = true) (keepsParentheses : Bool) :
    parse? dialect keepsParentheses (valueText "await") = none := by
  obtain ⟨isTypeScript, hasMarkup, isModule⟩ := dialect
  obtain rfl : isModule = true := h
  rw [← Option.isNone_iff_eq_none]
  revert isTypeScript hasMarkup keepsParentheses
  decide +kernel

/-- What is read as a reference may name something at the top of a program. -/
lemma isNameIn_of_parse? {program : Program} {p : Property} {span : Span}
    (hparse : parse? dialect keepsParentheses (valueText name) = some program)
    (hp : p ∈ program.tree.properties) (hvalue : p.value = .reference span name) (size : Nat) :
    Identifier.isPropertyName name = true ∧ isNameIn (topContext dialect size) name = true := by
  obtain ⟨last, hrun⟩ := run_of_parse? hparse
  have hlegible := (hrun.legible p hp).2
  rw [hvalue, Tree.isLegible_reference] at hlegible
  refine ⟨hlegible.1, ?_⟩
  have hawait : (dialect.isModule && name == "await") = false := by
    rw [Bool.eq_false_iff]
    intro hboth
    obtain ⟨hmodule, hname⟩ := Bool.and_eq_true_iff.mp hboth
    rw [beq_iff_eq.mp hname, parse?_await hmodule] at hparse
    cases hparse
  simp only [isNameIn, topContext, hlegible.2, hawait, Bool.false_and, Bool.not_false,
    Bool.and_true]

/-- Every identifier name, and nothing else, is read back as the name of a method. A name that is
read as a reference is read back as a shorthand, in the same dialect. -/
theorem bareNames_readBack (name : String) (dialect : Dialect) (keepsParentheses : Bool) :
    (Identifier.isPropertyName name = true → ∃ program, ∃ p : Property,
      parse? dialect keepsParentheses (methodText name) = some program ∧
        program.literal? = some [p.tree] ∧ p.IsMethodNamed name) ∧
    (Identifier.isPropertyName name = false → ∀ program,
      parse? dialect keepsParentheses (methodText name) = some program →
        ∀ p ∈ program.tree.properties, ∀ span parts,
          p.key ≠ .node (.staticName name) span parts) ∧
    (∀ program, parse? dialect keepsParentheses (valueText name) = some program →
      ∀ p ∈ program.tree.properties, ∀ span, p.value = .reference span name →
        ∃ program, ∃ p : Property,
          parse? dialect keepsParentheses (shorthandText name) = some program ∧
            program.literal? = some [p.tree] ∧ p.IsShorthandOf name) := by
  refine ⟨fun h => exists_method h dialect keepsParentheses, ?_, ?_⟩
  · intro h program hparse p hp span parts
    exact key_ne_of_parse? h hparse hp span parts
  · intro program hparse p hp span hvalue
    obtain ⟨hname, hnameIn⟩ := isNameIn_of_parse? hparse hp hvalue _
    exact exists_shorthand hname hnameIn keepsParentheses

/-- The word of an accessor can name a method. A text with that word in it is read, but not as a
name. Outside modules even `await` can be a reference and a shorthand. -/
theorem bareNames_readBack_contextual :
    (Identifier.isPropertyName "get" = true ∧ ∃ program, ∃ p : Property,
      parse? .moduleWithMarkup false (methodText "get") = some program ∧
        program.literal? = some [p.tree] ∧ p.IsMethodNamed "get") ∧
    (Identifier.isPropertyName "get a" = false ∧ ∃ program,
      parse? .typeScript true (methodText "get a") = some program ∧
        ∃ p ∈ program.tree.properties, p.form.isAccessor = true ∧ ∀ span parts,
          p.key ≠ .node (.staticName "get a") span parts) ∧
    (∃ program, parse? .script true (valueText "await") = some program ∧
      ∃ p ∈ program.tree.properties, ∃ span, p.value = .reference span "await") ∧
    ∃ program, ∃ p : Property, parse? .script true (shorthandText "await") = some program ∧
      program.literal? = some [p.tree] ∧ p.IsShorthandOf "await" := by
  have haccessor : ((parse? .typeScript true (methodText "get a")).any fun program =>
      program.tree.properties.any (·.form.isAccessor)) = true := by
    decide +kernel
  have hawait : ((parse? .script true (valueText "await")).any fun program =>
      program.tree.properties.any (·.value.toReference? == some ⟨"await", ⟨5, 10⟩⟩)) = true := by
    decide +kernel
  obtain ⟨accessor, haccessor, hproperty⟩ := (Option.any_eq_true _ _).mp haccessor
  obtain ⟨p, hp, hform⟩ := List.any_eq_true.mp hproperty
  obtain ⟨program, hparse, hreference⟩ := (Option.any_eq_true _ _).mp hawait
  obtain ⟨q, hq, hvalue⟩ := List.any_eq_true.mp hreference
  replace hvalue := Tree.toReference?_eq_some.mp (beq_iff_eq.mp hvalue)
  have hget : Identifier.isPropertyName "get" = true := by decide
  have hblank : Identifier.isPropertyName "get a" = false := by decide
  exact ⟨⟨hget, (bareNames_readBack "get" .moduleWithMarkup false).1 hget⟩,
    ⟨hblank, accessor, haccessor, p, hp, hform,
      (bareNames_readBack "get a" .typeScript true).2.1 hblank accessor haccessor p hp⟩,
    ⟨program, hparse, q, hq, _, hvalue⟩,
    (bareNames_readBack "await" .script true).2.2 program hparse q hq _ hvalue⟩

end Program

end Concise
