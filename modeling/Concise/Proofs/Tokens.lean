import Mathlib.Data.List.Basic
import Mathlib.Tactic.Lemma
import Concise.Proofs.StaticName
import Concise.Token.Basic

/-!
Tokens and their places.

* `Lexeme.read_spec`: what is read takes at least one byte unless the text ends; words are
  identifier names, and numbers begin as numbers do.
* `Cursor.token_spec`: the same for the next token, which begins at the cursor or after it.
-/

namespace Concise

/-! ### Trivia -/

/-- Blanks and comments only move forward. -/
lemma Trivia.le_of_scan {isScript opens : Bool} {mode : Mode} {seen seen' : Seen}
    {offset offset' : Nat} {cs here : List Char}
    (h : scan isScript opens mode seen offset cs = some (seen', offset', here)) :
    offset ≤ offset' := by
  fun_induction scan isScript opens mode seen offset cs <;> grind

/-! ### Words -/

lemma Quoted.length_lt_of_takeHex {n value : Nat} {cs rest : List Char} (hn : 0 < n)
    (h : takeHex n cs = some (value, rest)) : rest.length < cs.length := by
  simp only [takeHex, Option.ite_none_right_eq_some, Option.some.injEq, Prod.mk.injEq,
    Bool.and_eq_true, beq_iff_eq, List.length_take] at h
  obtain ⟨⟨hlength, -⟩, -, rfl⟩ := h
  rw [List.length_drop]
  omega

lemma Quoted.length_lt_of_takeBraced {value : Nat} {cs rest : List Char}
    (h : takeBraced cs = some (value, rest)) : rest.length < cs.length := by
  unfold takeBraced at h
  split at h
  · rename_i after hafter
    have hle := (List.dropWhile_sublist Numeral.isHexDigit (l := cs)).length_le
    rw [hafter, List.length_cons] at hle
    simp only [Option.ite_none_left_eq_some, Option.some.injEq, Prod.mk.injEq] at h
    obtain ⟨-, -, rfl⟩ := h
    omega
  · cases h

namespace Lexeme

/-- A code takes at least one character. -/
lemma length_lt_of_readCode {cs rest : List Char} {c : Char} (h : readCode cs = some (c, rest)) :
    rest.length < cs.length := by
  unfold readCode at h
  split at h
  · obtain ⟨⟨value, after⟩, hcode, hpair⟩ := Option.map_eq_some_iff.mp h
    obtain ⟨-, rfl⟩ := Prod.mk.inj hpair
    exact Nat.lt_succ_of_lt (Quoted.length_lt_of_takeBraced hcode)
  · obtain ⟨⟨value, after⟩, hcode, hpair⟩ := Option.map_eq_some_iff.mp h
    obtain ⟨-, rfl⟩ := Prod.mk.inj hpair
    exact Quoted.length_lt_of_takeHex (by decide) hcode

/-- Escapes spell characters that may follow in a name. -/
lemma readEscapes_spec {n : Nat} {cs tail rest : List Char}
    (h : readEscapes n cs = some (tail, rest)) :
    tail.all Identifier.isPart = true ∧ rest.length ≤ cs.length := by
  fun_induction readEscapes n cs generalizing tail rest with
  | case1 n code ih =>
      obtain ⟨⟨c, after⟩, hcode, h⟩ := Option.bind_eq_some_iff.mp h
      simp only [Option.ite_none_right_eq_some] at h
      obtain ⟨hpart, h⟩ := h
      obtain ⟨⟨tail', rest'⟩, hescapes, hpair⟩ := Option.bind_eq_some_iff.mp h
      obtain ⟨rfl, rfl⟩ := Prod.mk.inj (Option.some.inj hpair)
      obtain ⟨hall, hlength⟩ := ih _ hescapes
      have hcode := length_lt_of_readCode hcode
      have hle := (List.dropWhile_sublist Identifier.isPart (l := after)).length_le
      refine ⟨by simp [hpart, hall], ?_⟩
      simp only [List.length_cons]
      omega
  | case2 => cases h
  | case3 n cs =>
      obtain ⟨rfl, rfl⟩ := Prod.mk.inj (Option.some.inj h)
      exact ⟨rfl, Nat.le_refl _⟩

lemma readWordTail_spec {cs tail rest : List Char} {isEscaped : Bool}
    (h : readWordTail cs = some (tail, isEscaped, rest)) :
    tail.all Identifier.isPart = true ∧ rest.length ≤ cs.length := by
  have hrun : (cs.takeWhile Identifier.isPart).all Identifier.isPart = true :=
    List.all_takeWhile
  have hle := (List.dropWhile_sublist Identifier.isPart (l := cs)).length_le
  unfold readWordTail at h
  split at h
  · rename_i more hmore
    obtain ⟨⟨escaped, after⟩, hescapes, hpair⟩ := Option.bind_eq_some_iff.mp h
    simp only [Option.pure_def, Option.some.injEq, Prod.mk.injEq] at hpair
    obtain ⟨rfl, -, rfl⟩ := hpair
    obtain ⟨hall, hlength⟩ := readEscapes_spec hescapes
    rw [hmore] at hle
    exact ⟨by rw [List.all_append, hrun, hall]; rfl, Nat.le_trans hlength hle⟩
  · simp only [Option.some.injEq, Prod.mk.injEq] at h
    obtain ⟨rfl, -, rfl⟩ := h
    exact ⟨hrun, hle⟩

/-- A word is an identifier name, and takes at least one character. -/
lemma readWord_spec {cs rest : List Char} {text : String} {isEscaped : Bool}
    (h : readWord cs = some (text, isEscaped, rest)) :
    Identifier.isPropertyName text = true ∧ rest.length < cs.length := by
  have hname : ∀ {c : Char} {tail : List Char}, Identifier.isStart c = true →
      tail.all Identifier.isPart = true →
        Identifier.isPropertyName (String.ofList (c :: tail)) = true := by
    intro c tail hstart hall
    rw [Identifier.isPropertyName, String.toList_ofList, Identifier.isName_cons, hstart, hall]
    rfl
  unfold readWord at h
  split at h
  · cases h
  · rename_i code
    obtain ⟨⟨c, after⟩, hcode, h⟩ := Option.bind_eq_some_iff.mp h
    simp only [Option.ite_none_right_eq_some] at h
    obtain ⟨hstart, h⟩ := h
    obtain ⟨⟨tail, escaped, after'⟩, htail, hword⟩ := Option.bind_eq_some_iff.mp h
    simp only [Option.pure_def, Option.some.injEq, Prod.mk.injEq] at hword
    obtain ⟨rfl, -, rfl⟩ := hword
    obtain ⟨hall, hlength⟩ := readWordTail_spec htail
    have hcode := length_lt_of_readCode hcode
    refine ⟨hname hstart hall, ?_⟩
    simp only [List.length_cons]
    omega
  · rename_i c cs' _
    simp only [Option.ite_none_right_eq_some] at h
    obtain ⟨hstart, h⟩ := h
    obtain ⟨⟨tail, escaped, after⟩, htail, hword⟩ := Option.bind_eq_some_iff.mp h
    simp only [Option.pure_def, Option.some.injEq, Prod.mk.injEq] at hword
    obtain ⟨rfl, -, rfl⟩ := hword
    obtain ⟨hall, hlength⟩ := readWordTail_spec htail
    exact ⟨hname hstart hall, Nat.lt_succ_of_le hlength⟩

end Lexeme

/-! ### Numbers -/

namespace Numeral

lemma takeDigits_head {isDigit : Char → Bool} {cs run rest : List Char}
    (h : takeDigits isDigit cs = some (run, rest)) : ∃ d ds, run = d :: ds ∧ isDigit d = true := by
  have hall := List.all_takeWhile (p := fun c => isDigit c || c == '_') (l := cs)
  simp only [takeDigits] at h
  split at h
  · cases h
  · cases h
  · rename_i hnil hunderscore
    simp only [Option.ite_none_right_eq_some, Option.some.injEq, Prod.mk.injEq] at h
    obtain ⟨-, rfl, -⟩ := h
    obtain ⟨d, ds, hrun⟩ := List.exists_cons_of_ne_nil hnil
    rw [hrun, List.all_cons, Bool.and_eq_true] at hall
    have hd : d ≠ '_' := fun hd => hunderscore ds (by rw [hrun, hd])
    exact ⟨d, ds, hrun, by simpa [hd] using hall.1⟩

/-- A numeral in another base begins with a zero. -/
lemma takeRadix_head {mark : Char} {isDigit : Char → Bool} {cs raw rest : List Char} {isBig : Bool}
    (h : takeRadix mark isDigit cs = some (raw, isBig, rest)) : ∃ more, raw = '0' :: more := by
  obtain ⟨⟨run, after⟩, -, h⟩ := Option.bind_eq_some_iff.mp h
  dsimp only at h
  split at h <;> exact ⟨_, (Prod.mk.inj (Option.some.inj h)).1.symm⟩

/-- A numeral begins with a digit or a point. -/
lemma take_head {cs raw rest : List Char} {isBig : Bool}
    (h : take cs = some (raw, isBig, rest)) :
    ∃ c more, raw = c :: more ∧ (Identifier.isAsciiDigit c || c == '.') = true := by
  have hzero : (∃ more, raw = '0' :: more) →
      ∃ c more, raw = c :: more ∧ (Identifier.isAsciiDigit c || c == '.') = true :=
    fun ⟨more, hraw⟩ => ⟨'0', more, hraw, rfl⟩
  unfold take at h
  split at h
  · exact hzero (takeRadix_head h)
  · exact hzero (takeRadix_head h)
  · exact hzero (takeRadix_head h)
  · exact hzero (takeRadix_head h)
  · exact hzero (takeRadix_head h)
  · exact hzero (takeRadix_head h)
  · obtain ⟨⟨run, after⟩, -, h⟩ := Option.bind_eq_some_iff.mp h
    obtain ⟨⟨exponent, after'⟩, -, h⟩ := Option.bind_eq_some_iff.mp h
    exact ⟨'.', _, (Prod.mk.inj (Option.some.inj h)).1.symm, rfl⟩
  · rename_i d ds _ _ _ _ _ _
    have hrun : ('0' :: d :: ds).takeWhile Identifier.isAsciiDigit =
        '0' :: (d :: ds).takeWhile Identifier.isAsciiDigit := rfl
    refine hzero ?_
    simp only [hrun] at h
    split at h
    · split at h
      · exact ⟨_, (Prod.mk.inj (Option.some.inj h)).1.symm⟩
      · obtain ⟨⟨fraction, after⟩, -, h⟩ := Option.bind_eq_some_iff.mp h
        exact ⟨_, (Prod.mk.inj (Option.some.inj h)).1.symm⟩
    · split at h
      · exact ⟨_, (Prod.mk.inj (Option.some.inj h)).1.symm⟩
      · simp only [Option.ite_none_left_eq_some] at h
        obtain ⟨⟨fraction, after⟩, -, h⟩ := Option.bind_eq_some_iff.mp h.2
        exact ⟨_, (Prod.mk.inj (Option.some.inj h)).1.symm⟩
  · obtain ⟨⟨run, after⟩, hrun, h⟩ := Option.bind_eq_some_iff.mp h
    obtain ⟨d, ds, rfl, hd⟩ := takeDigits_head hrun
    refine ⟨d, ?_⟩
    dsimp only at h
    split at h
    · exact ⟨ds, (Prod.mk.inj (Option.some.inj h)).1.symm, by rw [hd]; rfl⟩
    · obtain ⟨⟨fraction, after'⟩, -, h⟩ := Option.bind_eq_some_iff.mp h
      exact ⟨_, (Prod.mk.inj (Option.some.inj h)).1.symm, by rw [hd]; rfl⟩

lemma read_head {cs raw rest : List Char} {isBig : Bool}
    (h : read cs = some (raw, isBig, rest)) :
    ∃ c more, raw = c :: more ∧ (Identifier.isAsciiDigit c || c == '.') = true := by
  obtain ⟨⟨raw', isBig', rest'⟩, htake, h⟩ := Option.bind_eq_some_iff.mp h
  simp only [Option.ite_none_right_eq_some] at h
  obtain ⟨rfl, -⟩ := Prod.mk.inj (Option.some.inj h.2)
  exact take_head htake

end Numeral

/-! ### Widths -/

lemma byteLength_pos {cs : List Char} (h : cs ≠ []) : 0 < byteLength cs := by
  have hle : ∀ (cs : List Char) (n : Nat), n ≤ cs.foldl (fun n c => n + c.utf8Size) n := by
    intro cs
    induction cs with
    | nil => exact fun n => Nat.le_refl n
    | cons c cs ih => exact fun n => Nat.le_trans (Nat.le_add_right n _) (ih _)
  obtain ⟨c, cs, rfl⟩ := List.exists_cons_of_ne_nil h
  exact Nat.lt_of_lt_of_le (by simpa using c.utf8Size_pos) (hle cs _)

lemma Cursor.consumed_pos {before after : List Char} (h : after.length < before.length) :
    0 < consumed before after := by
  refine byteLength_pos fun hnil => ?_
  have hlength := congrArg List.length hnil
  rw [List.length_take, List.length_nil] at hlength
  omega

namespace Lexeme

lemma readMark_size {cs rest : List Char} {symbol : String}
    (h : readMark cs = some (symbol, rest)) : 0 < symbol.utf8ByteSize := by
  have hsize : ∀ {text : String} {after : List Char}, 0 < text.utf8ByteSize →
      some (text, after) = some (symbol, rest) → 0 < symbol.utf8ByteSize := by
    rintro text after hpos heq
    obtain ⟨rfl, -⟩ := Prod.mk.inj (Option.some.inj heq)
    exact hpos
  unfold readMark at h
  split at h
  all_goals first
    | exact hsize (by decide) h
    | cases h
    | split at h <;> exact hsize (by decide) h

/-- Words are identifier names, and numbers begin as numbers do. -/
def IsLegible : Lexeme → Prop
  | .word text _ => Identifier.isPropertyName text = true
  | .number raw => Numeral.beginsNumber raw = true
  | _ => True

lemma size_pos {text : String} (h : text.toList ≠ []) : 0 < text.utf8ByteSize := by
  refine Nat.pos_of_ne_zero fun hzero => h ?_
  rw [String.utf8ByteSize_eq_zero_iff.mp hzero]
  rfl

/-- What is read is legible and takes at least one byte, unless the text ends. -/
lemma read_spec {here after : List Char} {lexeme : Lexeme}
    (h : read here = some (lexeme, after)) :
    lexeme.IsLegible ∧ (lexeme ≠ .finish → 0 < Cursor.width here after lexeme) := by
  unfold read at h
  split at h
  · obtain ⟨rfl, -⟩ := Prod.mk.inj (Option.some.inj h)
    exact ⟨trivial, fun hne => absurd rfl hne⟩
  · rename_i c cs
    split at h
    · obtain ⟨⟨text, isEscaped, rest⟩, hword, h⟩ := Option.bind_eq_some_iff.mp h
      obtain ⟨rfl, rfl⟩ := Prod.mk.inj (Option.some.inj h)
      obtain ⟨hname, hlength⟩ := readWord_spec hword
      refine ⟨hname, fun _ => ?_⟩
      cases isEscaped with
      | false =>
          refine size_pos fun hnil => ?_
          rw [Identifier.isPropertyName, hnil] at hname
          cases hname
      | true => exact Cursor.consumed_pos hlength
    split at h
    · obtain ⟨⟨raw, isBig, rest⟩, hraw, h⟩ := Option.bind_eq_some_iff.mp h
      obtain ⟨rfl, rfl⟩ := Prod.mk.inj (Option.some.inj h)
      obtain ⟨d, ds, rfl, hdigit⟩ := Numeral.read_head hraw
      cases isBig with
      | true => exact ⟨trivial, fun _ => Nat.succ_pos _⟩
      | false =>
          refine ⟨?_, fun _ => size_pos (by simp)⟩
          show Numeral.beginsNumber (String.ofList (d :: ds)) = true
          rw [Numeral.beginsNumber, String.toList_ofList]
          exact hdigit
    split at h
    · obtain ⟨⟨value, hasLone, rest⟩, -, h⟩ := Option.bind_eq_some_iff.mp h
      obtain ⟨rfl, rfl⟩ := Prod.mk.inj (Option.some.inj h)
      exact ⟨trivial, fun _ => Nat.succ_pos _⟩
    split at h
    · obtain ⟨⟨text, isEscaped, rest⟩, hword, h⟩ := Option.bind_eq_some_iff.mp h
      obtain ⟨rfl, rfl⟩ := Prod.mk.inj (Option.some.inj h)
      exact ⟨trivial, fun _ => Cursor.consumed_pos (Nat.lt_succ_of_lt (readWord_spec hword).2)⟩
    · obtain ⟨⟨symbol, rest⟩, hmark, h⟩ := Option.bind_eq_some_iff.mp h
      obtain ⟨rfl, rfl⟩ := Prod.mk.inj (Option.some.inj h)
      exact ⟨trivial, fun _ => readMark_size hmark⟩

end Lexeme

/-! ### Cursors -/

/-- The next token begins at the cursor or after it, takes at least one byte unless the text ends,
and is legible. -/
lemma Cursor.token_spec {cursor : Cursor} {token : Token} (h : cursor.token = some token) :
    cursor.offset ≤ token.start ∧ token.start ≤ token.stop ∧
      (token.lexeme ≠ .finish → token.start < token.stop) ∧ token.lexeme.IsLegible := by
  obtain ⟨⟨seen, offset, here⟩, hscan, h⟩ := Option.bind_eq_some_iff.mp h
  obtain ⟨⟨lexeme, after⟩, hread, h⟩ := Option.bind_eq_some_iff.mp h
  obtain rfl := Option.some.inj h
  obtain ⟨hlegible, hwidth⟩ := Lexeme.read_spec hread
  exact ⟨Trivia.le_of_scan hscan, Nat.le_add_right _ _,
    fun hne => Nat.lt_add_of_pos_right (hwidth hne), hlegible⟩

end Concise
