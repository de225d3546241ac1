import Mathlib
import Concise.Proofs.Reading

/-!
What parsers give where the tokens that follow are known.

The triples of the grammar say what holds if a parser gives something. The equations here say that
it does: they follow a parser from one token to the next, whatever the characters are that spell
them.

* `Cursor.Ahead`: the tokens that follow on a cursor begin with the given ones. `Cursor.advance`
  goes on by one of them.
* `run_bind` and its companions take a parser apart, and are for the simplifier; `run_accept`,
  `run_isAt` and `run_peek` look at the next token.
* `run_loop`, `run_delimited_one`: repetitions that end after one round.
-/

namespace Concise

/-! ### Tokens ahead -/

namespace Cursor

/-- The cursor after the next token. -/
def advance (c : Cursor) : Cursor :=
  match c.token with
  | some token => c.take token
  | none => c

/-- The tokens after a cursor begin with the given ones. -/
def Ahead : Cursor → List Lexeme → Prop
  | _, [] => True
  | c, lexeme :: lexemes => c.token.map Token.lexeme = some lexeme ∧ c.advance.Ahead lexemes

variable {c : Cursor} {lexeme : Lexeme} {ls : List Lexeme}

lemma Ahead.tail (h : c.Ahead (lexeme :: ls)) : c.advance.Ahead ls := h.2

/-- The next token and its place. -/
lemma Ahead.exists_token (h : c.Ahead (lexeme :: ls)) : ∃ token, c.token = some token ∧
    token.lexeme = lexeme ∧ c.take token = c.advance ∧ token.start = c.next ∧
      token.stop = c.advance.offset := by
  obtain ⟨token, htoken, hlexeme⟩ := Option.map_eq_some_iff.mp h.1
  have hadvance : c.take token = c.advance := by rw [advance, htoken]
  exact ⟨token, htoken, hlexeme, hadvance, (next_eq htoken).symm, by rw [← hadvance, take_offset]⟩

end Cursor

namespace Parser

variable {α β : Type} {context : Context} {c c' c'' : Cursor} {lexeme other : Lexeme}
  {ls ls' : List Lexeme}

/-! ### Control -/

section Control

variable (context : Context) (c : Cursor)

@[simp] lemma run_bind (p : Parser α) (f : α → Parser β) :
    (p >>= f) context c = (p context c).bind fun r => f r.1 context r.2 := rfl

@[simp] lemma run_map (f : α → β) (p : Parser α) :
    (f <$> p) context c = (p context c).map fun r => (f r.1, r.2) := by
  rw [← bind_pure_comp, run_bind]
  cases p context c <;> rfl

@[simp] lemma run_pure (a : α) : (pure a : Parser α) context c = some (a, c) := rfl

@[simp] lemma run_failure : (failure : Parser α) context c = none := rfl

@[simp] lemma run_read : (read : Parser Context) context c = some (context, c) := rfl

@[simp] lemma run_get : (get : Parser Cursor) context c = some (c, c) := rfl

@[simp] lemma run_within (change : Context → Context) (p : Parser α) :
    within change p context c = p (change context) c := rfl

@[simp] lemma run_require_true : require true context c = some ((), c) := rfl

@[simp] lemma run_optional_false (p : Parser Tree) :
    Parser.optional false p context c = some (.absent, c) := rfl

@[simp] lemma run_skip (token : Token) : skip token context c = some ((), c.take token) := rfl

@[simp] lemma run_spanFrom (start : Nat) :
    spanFrom start context c = some (⟨start, c.offset⟩, c) := rfl

@[simp] lemma run_node (kind : Kind) (start : Nat) (parts : List Tree) :
    node kind start parts context c = some (.node kind ⟨start, c.offset⟩ parts, c) := rfl

@[simp] lemma run_isTypeScript :
    isTypeScript context c = some (context.dialect.isTypeScript, c) := rfl

end Control

/-! ### The next token -/

lemma run_peek {token : Token} (h : c.token = some token) :
    peek context c = some (token, c) := by
  have hpeek : peek context c = c.token.bind fun token => some (token, c) := rfl
  rw [hpeek, h, Option.bind_some]

lemma run_position (h : c.Ahead (lexeme :: ls)) : position context c = some (c.next, c) := by
  obtain ⟨token, htoken, -, -, hstart, -⟩ := h.exists_token
  simp [position, run_peek htoken, hstart]

lemma run_isAt (h : c.Ahead (lexeme :: ls)) (other : Lexeme) :
    isAt other context c = some (lexeme == other, c) := by
  obtain ⟨token, htoken, rfl, -⟩ := h.exists_token
  simp [isAt, run_peek htoken]

lemma run_isMark (h : c.Ahead (lexeme :: ls)) (symbol : String) :
    isMark symbol context c = some (lexeme == .mark symbol, c) :=
  run_isAt h _

lemma run_isWord (h : c.Ahead (lexeme :: ls)) (text : String) :
    isWord text context c = some (lexeme == .word text false, c) :=
  run_isAt h _

lemma run_accept (h : c.Ahead (lexeme :: ls)) :
    accept lexeme context c = some (true, c.advance) := by
  obtain ⟨token, htoken, rfl, htake, -⟩ := h.exists_token
  simp [accept, run_peek htoken, htake]

lemma run_accept_of_ne (h : c.Ahead (lexeme :: ls)) (hne : lexeme ≠ other) :
    accept other context c = some (false, c) := by
  obtain ⟨token, htoken, rfl, -⟩ := h.exists_token
  simp [accept, run_peek htoken, hne]

lemma run_acceptMark_of_ne (h : c.Ahead (lexeme :: ls)) {symbol : String}
    (hne : lexeme ≠ .mark symbol) : acceptMark symbol context c = some (false, c) :=
  run_accept_of_ne h hne

lemma run_expect (h : c.Ahead (lexeme :: ls)) :
    expect lexeme context c = some ((), c.advance) := by
  simp [expect, run_accept h]

lemma run_mark {symbol : String} (h : c.Ahead (.mark symbol :: ls)) :
    mark symbol context c = some ((), c.advance) :=
  run_expect h

/-! ### Repetition -/

/-- A repetition that ends in its first round. -/
lemma run_loop {step : α → Parser (α ⊕ β)} {a : α} {b : β}
    (h : step a context c = some (.inr b, c')) : loop step a context c = some (b, c') := by
  rw [loop, loopFrom, h]

/-- A repetition that ends in its second round. -/
lemma run_loop_twice {step : α → Parser (α ⊕ β)} {a : α} {b : β} (a' : α) (c' : Cursor)
    (h : step a context c = some (.inl a', c')) (h' : step a' context c' = some (.inr b, c'')) :
    loop step a context c = some (b, c'') := by
  rw [loop, loopFrom, h]
  dsimp only
  rw [loopFrom, h']

lemma run_delimited_nil {close : Lexeme} {item : Parser α} (h : c.Ahead (close :: ls)) :
    delimited close item context c = some ([], c.advance) :=
  run_loop (by simp [run_accept h])

lemma run_delimited_one {close : Lexeme} {item : Parser α} {a : α} (h : c.Ahead (lexeme :: ls))
    (hne : lexeme ≠ close) (hitem : item context c = some (a, c')) (h' : c'.Ahead (close :: ls'))
    (hclose : close ≠ .mark ",") :
    delimited close item context c = some ([a], c'.advance) := by
  refine run_loop ?_
  simp [run_accept_of_ne h hne, hitem, run_acceptMark_of_ne h' hclose, run_expect h']

end Parser

end Concise
