import Mathlib
import Concise.Proofs.Places

/-!
What parsers do, as Hoare triples.

A triple `⦃P⦄ p ⦃Q⦄` speaks of the cursor before a parser runs and of its result and the cursor
after; a parser that fails satisfies every postcondition here. There is one triple for every parser,
and a proof about a parser uses the triples of the parsers it calls and not their definitions.

* `Reads` is what a parser of trees does: it moves forward, and what it gives is a run of
  properties between the offsets before and after. `ReadsAll` is the same for lists of trees.
* `Continues` is what a parser does that goes on from a tree already read: wherever the run of that
  tree began, the new tree has a run from there to the new offset.
* `loop_spec` is the rule for repetition: an invariant that a round keeps.
-/

open Std.Do

set_option mvcgen.warning false

namespace Concise

namespace Cursor

/-- Where the next token begins. -/
def next (c : Cursor) : Nat :=
  match c.token with
  | some token => token.start
  | none => c.offset

lemma offset_le_next (c : Cursor) : c.offset ≤ c.next := by
  unfold next
  split
  case h_1 token h => exact (token_spec h).1
  case h_2 => exact le_rfl

lemma next_eq {c : Cursor} {token : Token} (h : c.token = some token) : c.next = token.start := by
  rw [next, h]

@[grind =]
lemma take_offset (c : Cursor) (token : Token) : (c.take token).offset = token.stop := rfl

attribute [grind] Lexeme.IsLegible
grind_pattern offset_le_next => c.next
grind_pattern next_eq => c.token, some token
grind_pattern token_spec => cursor.token, some token

end Cursor

namespace Parser

/-! ### Assertions -/

/-- Parsers see a context and a cursor and may fail. -/
abbrev Shape : PostShape := .arg Context (.arg Cursor (.except PUnit .pure))

/-- The cursor is at an offset. -/
abbrev At (n : Nat) : Assertion Shape := fun _ c => ⌜c.offset = n⌝

/-- The cursor is the given one. -/
abbrev Is (c₀ : Cursor) : Assertion Shape := fun _ c => ⌜c = c₀⌝

/-- A result and the cursor after it are so related, unless the parser fails. -/
abbrev Ends {α : Type} (Q : α → Cursor → Prop) : PostCond α Shape :=
  post⟨fun a _ c => ⌜Q a c⌝, fun _ => ⌜True⌝⟩

/-- The cursor only moves forward. -/
abbrev Moves {α : Type} (n : Nat) : PostCond α Shape := Ends fun _ c => n ≤ c.offset

/-- The cursor does not move. -/
abbrev Stays {α : Type} (c₀ : Cursor) : PostCond α Shape := Ends fun _ c => c = c₀

/-- The result is a run from where the parser began to where it ended. -/
abbrev Reads (n : Nat) : PostCond Tree Shape :=
  Ends fun t c => n ≤ c.offset ∧ t.Within n c.offset ∧ t.IsLegible

/-- A result, if there is one, is a run from where the parser began to where it ended. -/
abbrev ReadsSome (n : Nat) : PostCond (Option Tree) Shape :=
  Ends fun r c => n ≤ c.offset ∧ ∀ t, r = some t → t.Within n c.offset ∧ t.IsLegible

/-- The results are a run from where the parser began to where it ended. -/
abbrev ReadsAll (n : Nat) : PostCond (List Tree) Shape :=
  Ends fun ts c => n ≤ c.offset ∧ Tree.AllWithin n c.offset ts ∧ ∀ t ∈ ts, t.IsLegible

/-- The result takes the place of a tree that was read before. -/
abbrev Continues (n : Nat) (tree : Tree) : PostCond Tree Shape :=
  Ends fun t c => tree.GrowsTo n t c.offset

/-! ### Control -/

/-- The weakest precondition of a parser is the postcondition of its result. -/
lemma wp_apply {α : Type} (p : Parser α) (Q : PostCond α Shape) (context : Context)
    (cursor : Cursor) :
    wp⟦p⟧ Q context cursor = match p context cursor with
      | some (a, after) => Q.1 a context after
      | none => Q.2.1 () := by
  change wp⟦(p.run context).run cursor⟧ _ = _
  cases h : p context cursor <;> simp only [ReaderT.run, StateT.run, h] <;> rfl

/-- A triple says what every run of a parser does. -/
lemma triple_iff {α : Type} {p : Parser α} {P : Cursor → Prop} {Q : α → Cursor → Prop} :
    ⦃fun _ c => ⌜P c⌝⦄ p ⦃Ends Q⦄ ↔
      ∀ context cursor a after, P cursor → p context cursor = some (a, after) → Q a after := by
  rw [Triple.iff]
  constructor
  · intro h context cursor a after hP hp
    have := h context cursor hP
    rw [wp_apply, hp] at this
    exact this
  · intro h context cursor hP
    rw [wp_apply]
    split
    case h_1 a after hp => exact h context cursor a after hP hp
    case h_2 => trivial

/-- It is enough to prove every consequence of a postcondition. With the postcondition unknown, the
triple of the parser that is called last is used at the offset where that parser begins. -/
lemma triple_of_forall {α : Type} {p : Parser α} {P : Assertion Shape} {Q : α → Cursor → Prop}
    (h : ∀ R : α → Cursor → Prop, (∀ a c, Q a c → R a c) → ⦃P⦄ p ⦃Ends R⦄) : ⦃P⦄ p ⦃Ends Q⦄ :=
  h Q fun _ _ => id

@[spec]
lemma failure_spec {α : Type} : ⦃⌜True⌝⦄ (failure : Parser α) ⦃Ends fun _ _ => False⦄ :=
  triple_iff.mpr fun _ _ _ _ _ h => nomatch h

@[spec]
lemma attempt_spec {α : Type} (p : Parser α) (Q : PostCond (Option α) Shape) :
    ⦃fun context c => wp⟦p⟧ (fun a => Q.1 (some a), fun _ => Q.1 none context c, ()) context c⦄
      attempt p ⦃Q⦄ := by
  refine Triple.iff.mpr fun context c h => ?_
  rw [wp_apply] at h ⊢
  unfold attempt
  cases hp : p context c <;> rw [hp] at h <;> exact h

@[spec]
lemma holds_spec (p : Parser Bool) (c₀ : Cursor) : ⦃Is c₀⦄ holds p ⦃Stays c₀⦄ := by
  refine triple_iff.mpr fun context c b after hc h => ?_
  unfold holds at h
  split at h <;> obtain ⟨-, rfl⟩ := Prod.mk.inj (Option.some.inj h) <;> exact hc

@[spec]
lemma within_spec {α : Type} (p : Parser α) (change : Context → Context) (Q : PostCond α Shape) :
    ⦃fun context c => wp⟦p⟧ (fun a _ => Q.1 a context, Q.2) (change context) c⦄
      within change p ⦃Q⦄ := by
  refine Triple.iff.mpr fun context c h => ?_
  rw [wp_apply] at h ⊢
  exact h

/-- An invariant that a round keeps holds until the last round. -/
lemma loop_spec {α β : Type} {step : α → Parser (α ⊕ β)} {initial : α}
    (inv : α → Cursor → Prop) (post : β → Cursor → Prop)
    (hstep : ∀ a c₀, ⦃fun _ c => ⌜c = c₀ ∧ inv a c₀⌝⦄ step a ⦃Ends (Sum.elim inv post)⦄) :
    ⦃fun _ c => ⌜inv initial c⌝⦄ loop step initial ⦃Ends post⦄ := by
  refine triple_iff.mpr fun context c b after hinv h => ?_
  unfold loop at h
  generalize context.size + 2 = rounds at h
  induction rounds generalizing initial c with
  | zero => cases h
  | succ rounds ih =>
      have hround := fun r after => triple_iff.mp (hstep initial c) context c r after ⟨rfl, hinv⟩
      unfold loopFrom at h
      split at h
      case h_1 => cases h
      case h_2 a c' hs => exact ih c' (hround _ _ hs) h
      case h_3 b' c' hs =>
        obtain ⟨rfl, rfl⟩ := Prod.mk.inj (Option.some.inj h)
        exact hround _ _ hs

/-- A round that only moves forward makes a loop that does. -/
lemma loop_moves_spec {α β : Type} {step : α → Parser (α ⊕ β)} {initial : α} (n : Nat)
    (hstep : ∀ a n, ⦃At n⦄ step a ⦃Moves n⦄) : ⦃At n⦄ loop step initial ⦃Moves n⦄ := by
  refine triple_iff.mpr fun context c b after hc h => ?_
  refine triple_iff.mp (loop_spec (fun _ c => n ≤ c.offset) (fun _ c => n ≤ c.offset)
    fun a c₀ => ?_) context c b after hc.ge h
  refine triple_iff.mpr fun context c r after hinv h => ?_
  have hle := triple_iff.mp (hstep a c.offset) context c r after rfl h
  cases r <;> exact (hinv.1 ▸ hinv.2).trans hle

/-- A round that adds trees to a reversed list gives a run of trees at the end. -/
lemma loop_list_spec {step : List Tree → Parser (List Tree ⊕ List Tree)} {initial : List Tree}
    (n : Nat)
    (hstep : ∀ trees c₀, ⦃fun _ c => ⌜c = c₀ ∧ n ≤ c₀.offset ∧
        Tree.AllWithin n c₀.offset trees.reverse ∧ ∀ t ∈ trees, t.IsLegible⌝⦄ step trees
      ⦃Ends fun r c => n ≤ c.offset ∧ Tree.AllWithin n c.offset (r.elim List.reverse id) ∧
        ∀ t ∈ r.elim id id, t.IsLegible⦄) :
    ⦃fun _ c => ⌜n ≤ c.offset ∧ Tree.AllWithin n c.offset initial.reverse ∧
      ∀ t ∈ initial, t.IsLegible⌝⦄ loop step initial ⦃ReadsAll n⦄ := by
  refine loop_spec
    (fun (trees : List Tree) c =>
      n ≤ c.offset ∧ Tree.AllWithin n c.offset trees.reverse ∧ ∀ t ∈ trees, t.IsLegible)
    (fun trees c => n ≤ c.offset ∧ Tree.AllWithin n c.offset trees ∧ ∀ t ∈ trees, t.IsLegible)
    fun trees c₀ => ?_
  refine triple_iff.mpr fun context c r after hinv h => ?_
  cases r <;> exact triple_iff.mp (hstep trees c₀) context c _ after hinv h

@[spec]
lemma loop_nil_spec {step : List Tree → Parser (List Tree ⊕ List Tree)} (n : Nat)
    (hstep : ∀ trees c₀, ⦃fun _ c => ⌜c = c₀ ∧ n ≤ c₀.offset ∧
        Tree.AllWithin n c₀.offset trees.reverse ∧ ∀ t ∈ trees, t.IsLegible⌝⦄ step trees
      ⦃Ends fun r c => n ≤ c.offset ∧ Tree.AllWithin n c.offset (r.elim List.reverse id) ∧
        ∀ t ∈ r.elim id id, t.IsLegible⦄) :
    ⦃At n⦄ loop step [] ⦃ReadsAll n⦄ := by
  refine triple_iff.mpr fun context c trees after hc h => ?_
  exact triple_iff.mp (loop_list_spec n hstep) context c trees after
    ⟨hc.ge, Tree.allWithin_nil, by simp⟩ h

/-- A round that goes on from a tree makes a loop that does. -/
@[spec]
lemma loop_tree_spec {step : Tree → Parser (Tree ⊕ Tree)} (tree : Tree) (n : Nat)
    (hstep : ∀ t n, ⦃At n⦄ step t ⦃Ends fun r c => t.GrowsTo n (r.elim id id) c.offset⦄) :
    ⦃At n⦄ loop step tree ⦃Continues n tree⦄ := by
  refine triple_iff.mpr fun context c t after hc h => ?_
  refine triple_iff.mp (loop_spec (fun t c => tree.GrowsTo n t c.offset)
    (fun t c => tree.GrowsTo n t c.offset) fun t c₀ => ?_) context c t after (hc ▸ .refl) h
  refine triple_iff.mpr fun context c r after hinv h => ?_
  have hr := triple_iff.mp (hstep t c.offset) context c r after rfl h
  cases r <;> exact (hinv.1 ▸ hinv.2).trans hr

/-! ### Tokens -/

@[spec]
lemma peek_spec (c₀ : Cursor) :
    ⦃Is c₀⦄ peek ⦃Ends fun token c => c = c₀ ∧ c₀.token = some token⦄ := by
  refine triple_iff.mpr fun context c token after hc h => ?_
  obtain ⟨token', htoken, hpair⟩ := Option.bind_eq_some_iff.mp h
  obtain ⟨rfl, rfl⟩ := Prod.mk.inj (Option.some.inj hpair)
  exact ⟨hc, hc ▸ htoken⟩

@[spec]
lemma skip_spec (token : Token) (c₀ : Cursor) :
    ⦃Is c₀⦄ skip token ⦃Ends fun _ c => c = c₀.take token⦄ := by
  refine triple_iff.mpr fun context c _ after hc h => ?_
  obtain ⟨-, rfl⟩ := Prod.mk.inj (Option.some.inj h)
  rw [hc]

@[spec]
lemma require_spec (condition : Bool) (c₀ : Cursor) :
    ⦃Is c₀⦄ require condition ⦃Ends fun _ c => c = c₀ ∧ condition = true⦄ := by
  unfold require
  split
  case isTrue h => mvcgen
  case isFalse => exact triple_iff.mpr fun _ _ _ _ _ h => nomatch h

@[spec]
lemma next_spec (c₀ : Cursor) :
    ⦃Is c₀⦄ next ⦃Ends fun token c => c = c₀.take token ∧ c₀.token = some token⦄ := by
  mvcgen [next] with grind -ring -linarith

@[spec]
lemma position_spec (c₀ : Cursor) :
    ⦃Is c₀⦄ position ⦃Ends fun n c => c = c₀ ∧ n = c₀.next⦄ := by
  mvcgen [position] with grind -ring -linarith

@[spec]
lemma spanFrom_spec (start : Nat) (c₀ : Cursor) :
    ⦃Is c₀⦄ spanFrom start ⦃Ends fun span c => c = c₀ ∧ span = ⟨start, c₀.offset⟩⦄ := by
  mvcgen [spanFrom] with grind -ring -linarith

@[spec]
lemma node_spec (kind : Kind) (start : Nat) (parts : List Tree) (c₀ : Cursor) :
    ⦃Is c₀⦄ node kind start parts
      ⦃Ends fun t c => c = c₀ ∧ t = .node kind ⟨start, c₀.offset⟩ parts⦄ := by
  mvcgen [node] with grind -ring -linarith

@[spec]
lemma isAt_spec (lexeme : Lexeme) (c₀ : Cursor) : ⦃Is c₀⦄ isAt lexeme ⦃Stays c₀⦄ := by
  mvcgen [isAt] with grind -ring -linarith

@[spec]
lemma isMark_spec (symbol : String) (c₀ : Cursor) : ⦃Is c₀⦄ isMark symbol ⦃Stays c₀⦄ :=
  isAt_spec _ c₀

@[spec]
lemma isWord_spec (text : String) (c₀ : Cursor) : ⦃Is c₀⦄ isWord text ⦃Stays c₀⦄ :=
  isAt_spec _ c₀

/-- A parser that takes a token if there is a certain one. -/
abbrev Accepts (c₀ : Cursor) : PostCond Bool Shape :=
  Ends fun b c => c₀.offset ≤ c.offset ∧ (b = false → c = c₀) ∧ (b = true → c₀.next < c.offset)

@[spec]
lemma accept_spec (lexeme : Lexeme) (c₀ : Cursor) :
    ⦃Is c₀⦄ accept lexeme ⦃Ends fun b c => c₀.offset ≤ c.offset ∧ (b = false → c = c₀) ∧
      (b = true → lexeme ≠ .finish → c₀.next < c.offset)⦄ := by
  mvcgen [accept] with grind -ring -linarith

@[spec]
lemma acceptMark_spec (symbol : String) (c₀ : Cursor) :
    ⦃Is c₀⦄ acceptMark symbol ⦃Accepts c₀⦄ := by
  mvcgen [acceptMark] with grind -ring -linarith

@[spec]
lemma acceptWord_spec (text : String) (c₀ : Cursor) : ⦃Is c₀⦄ acceptWord text ⦃Accepts c₀⦄ := by
  mvcgen [acceptWord] with grind -ring -linarith

@[spec]
lemma expect_spec (lexeme : Lexeme) (c₀ : Cursor) :
    ⦃Is c₀⦄ expect lexeme
      ⦃Ends fun _ c => c₀.offset ≤ c.offset ∧ (lexeme ≠ .finish → c₀.next < c.offset)⦄ := by
  mvcgen [expect] with grind -ring -linarith

@[spec]
lemma mark_spec (symbol : String) (c₀ : Cursor) :
    ⦃Is c₀⦄ mark symbol ⦃Ends fun _ c => c₀.next < c.offset⦄ := by
  mvcgen [mark] with grind -ring -linarith

@[spec]
lemma word_spec (text : String) (c₀ : Cursor) :
    ⦃Is c₀⦄ word text ⦃Ends fun _ c => c₀.next < c.offset⦄ := by
  mvcgen [word] with grind -ring -linarith

@[spec]
lemma semicolon_spec (n : Nat) : ⦃At n⦄ semicolon ⦃Moves n⦄ := by
  mvcgen [semicolon] with grind -ring -linarith

@[spec]
lemma isTypeScript_spec (c₀ : Cursor) : ⦃Is c₀⦄ isTypeScript ⦃Stays c₀⦄ := by
  mvcgen [isTypeScript]

@[spec]
lemma andM_isTypeScript_spec {p : Parser Bool} (hp : ∀ c₀, ⦃Is c₀⦄ p ⦃Accepts c₀⦄) (c₀ : Cursor) :
    ⦃Is c₀⦄ andM isTypeScript p ⦃Accepts c₀⦄ := by
  have htoBool (b : Bool) : toBool b = b := rfl
  mvcgen [andM, hp] with grind -ring -linarith

/-! ### Names -/

@[spec]
lemma isName_spec (c₀ : Cursor) : ⦃Is c₀⦄ isName ⦃Stays c₀⦄ := by
  mvcgen [isName] with grind -ring -linarith

lemma isNameable_of_nameOf {context : Context} {token : Token} {text : String}
    (h : nameOf context token = some text) (hlegible : token.lexeme.IsLegible) :
    token.lexeme ≠ .finish ∧ Identifier.IsNameable text := by
  grind [nameOf, isNameIn, Identifier.IsNameable]

@[spec]
lemma name_spec (c₀ : Cursor) :
    ⦃Is c₀⦄ name ⦃Ends fun name c => c₀.next < c.offset ∧ Identifier.IsNameable name.text⦄ := by
  mvcgen [name] with grind -ring -linarith [isNameable_of_nameOf]

@[spec]
lemma anyWord_spec (c₀ : Cursor) :
    ⦃Is c₀⦄ anyWord
      ⦃Ends fun name c => c₀.next < c.offset ∧ Identifier.isPropertyName name.text = true⦄ := by
  mvcgen [anyWord] with grind -ring -linarith

@[spec]
lemma binding_spec (n : Nat) : ⦃At n⦄ binding ⦃Reads n⦄ := by
  mvcgen [binding] with grind -ring -linarith

@[spec]
lemma reference_spec (n : Nat) : ⦃At n⦄ reference ⦃Reads n⦄ := by
  mvcgen [reference] with grind -ring -linarith

/-- What is read is a run wherever it stands, because it holds no property. -/
abbrev ReadsWord (n : Nat) : PostCond Tree Shape :=
  Ends fun t c => n ≤ c.offset ∧ t.Within n c.offset ∧ t.IsLegible ∧
    ∀ first last, t.Within first last

@[spec]
lemma plainWord_spec (n : Nat) : ⦃At n⦄ plainWord ⦃ReadsWord n⦄ := by
  mvcgen [plainWord] with grind -ring -linarith

@[spec]
lemma string_spec (n : Nat) : ⦃At n⦄ string ⦃ReadsWord n⦄ := by
  mvcgen [string] with grind -ring -linarith

/-! ### Lists -/

@[spec]
lemma optional_spec (condition : Bool) {p : Parser Tree} (hp : ∀ n, ⦃At n⦄ p ⦃Reads n⦄) (n : Nat) :
    ⦃At n⦄ optional condition p ⦃Reads n⦄ := by
  mvcgen [optional, hp] with grind -ring -linarith

variable {item : Parser Tree} (hitem : ∀ n, ⦃At n⦄ item ⦃Reads n⦄)
include hitem

@[spec]
lemma delimited_spec (close : Lexeme) (n : Nat) : ⦃At n⦄ delimited close item ⦃ReadsAll n⦄ := by
  mvcgen [delimited, hitem] with grind -ring -linarith

@[spec]
lemma itemsUntil_spec (close : Lexeme) (n : Nat) : ⦃At n⦄ itemsUntil close item ⦃ReadsAll n⦄ := by
  mvcgen [itemsUntil, hitem] with grind -ring -linarith

@[spec]
lemma separatedBy_spec (symbol : String) (n : Nat) :
    ⦃At n⦄ separatedBy symbol item ⦃ReadsAll n⦄ := by
  have hloop := fun step initial => @loop_list_spec step initial n
  mvcgen [separatedBy, hitem, hloop] with grind -ring -linarith

end Parser

end Concise
