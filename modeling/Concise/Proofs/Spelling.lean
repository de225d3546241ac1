import Mathlib
import Concise.Proofs.Evaluating

/-!
From characters to tokens.

* `Trivia.scan_of_isInk`: what begins with neither a blank nor a comment is not skipped. Names begin
  so (`Trivia.isInk_of_isStart`): the letters and the blanks have no character in common.
* `Lexeme.read_word`: **a name is read as one word**, and to its end, where a character follows that
  cannot go on with it.
* `Spells`: characters after which a cursor has the given tokens ahead, wherever it stands.
  `Spells.cons` adds a token in front, `Spells.word` a name.
-/

namespace Concise

/-! ### Characters -/

/-- The characters of a name. -/
lemma Identifier.exists_cons_of_isPropertyName {text : String} (h : isPropertyName text = true) :
    ∃ c cs, text.toList = c :: cs ∧ isStart c = true ∧ cs.all isPart = true := by
  cases hchars : text.toList with
  | nil => simp [isPropertyName, hchars, isName] at h
  | cons c cs =>
    rw [isPropertyName, hchars, isName_cons, Bool.and_eq_true] at h
    exact ⟨c, cs, rfl, h⟩

namespace Trivia

/-- Neither a blank nor a comment begins with the character. -/
def isInk (c : Char) : Bool :=
  !isLineTerminator c && !isBlank c && c != '/' && c != '<' && c != '-'

lemma scan_of_isInk {c : Char} (h : isInk c = true) (isScript opens : Bool) (seen : Seen)
    (offset : Nat) (cs : List Char) :
    scan isScript opens .outside seen offset (c :: cs) = some (seen, offset, c :: cs) := by
  simp only [isInk, Bool.and_eq_true, Bool.not_eq_true', bne_iff_ne] at h
  obtain ⟨⟨⟨⟨hline, hblank⟩, hslash⟩, hless⟩, hminus⟩ := h
  unfold scan
  split <;> simp_all

/-- No name begins with a blank. -/
lemma isStart_of_isBlank {c : Char} (h : isBlank c = true) : Identifier.isStart c = false := by
  have hspaces : ∀ k < 12, Identifier.isStart (Char.ofNat (0x2000 + k)) = false := by
    decide +kernel
  simp only [isBlank, Bool.or_eq_true, beq_iff_eq, Bool.and_eq_true, decide_eq_true_eq] at h
  rcases h with ((((h | ⟨hlow, hhigh⟩) | rfl) | rfl) | rfl) | rfl
  · rcases h with (((((((rfl | rfl) | rfl) | rfl) | rfl) | rfl) | rfl) | rfl) <;> decide +kernel
  · have hle : 0x2000 ≤ c.toNat := UInt32.le_iff_toNat_le.mp (Char.le_def.mp hlow)
    have hge : c.toNat ≤ 0x200b := UInt32.le_iff_toNat_le.mp (Char.le_def.mp hhigh)
    have hspace := hspaces (c.toNat - 0x2000) (by omega)
    rwa [Nat.add_sub_cancel' hle, Char.ofNat_toNat] at hspace
  all_goals decide +kernel

lemma isInk_of_isStart {c : Char} (h : Identifier.isStart c = true) : isInk c = true := by
  have hne : ∀ {d : Char}, Identifier.isStart d = false → c ≠ d := by
    rintro d hd rfl
    rw [h] at hd
    cases hd
  have hline : isLineTerminator c = false := by
    simp only [isLineTerminator, Bool.or_eq_false_iff, beq_eq_false_iff_ne]
    exact ⟨⟨⟨hne (by decide +kernel), hne (by decide +kernel)⟩, hne (by decide +kernel)⟩,
      hne (by decide +kernel)⟩
  have hblank : isBlank c = false :=
    Bool.eq_false_iff.mpr fun hblank => by simp [isStart_of_isBlank hblank] at h
  have hslash : c ≠ '/' := hne (by decide)
  have hless : c ≠ '<' := hne (by decide)
  have hminus : c ≠ '-' := hne (by decide)
  simp [isInk, hline, hblank, hslash, hless, hminus]

end Trivia

/-! ### Words -/

namespace Lexeme

/-- A name is read as one word where something follows that cannot go on with it. -/
lemma read_word {text : String} {d : Char}
    (h : Identifier.isPropertyName text = true) (hpart : Identifier.isPart d = false)
    (hescape : d ≠ '\\') (rest : List Char) :
    read (text.toList ++ d :: rest) = some (.word text false, d :: rest) := by
  obtain ⟨c, cs, hchars, hstart, hparts⟩ := Identifier.exists_cons_of_isPropertyName h
  have htake : (cs ++ d :: rest).takeWhile Identifier.isPart = cs := by
    rw [List.takeWhile_append_of_pos (List.all_eq_true.mp hparts)]
    simp [hpart]
  have hdrop : (cs ++ d :: rest).dropWhile Identifier.isPart = d :: rest := by
    rw [List.dropWhile_append_of_pos (List.all_eq_true.mp hparts)]
    simp [hpart]
  have htail : readWordTail (cs ++ d :: rest) = some (cs, false, d :: rest) := by
    unfold readWordTail
    rw [htake, hdrop]
    split
    · rename_i heq
      exact absurd (List.cons.inj heq).1 hescape
    · rfl
  have hbackslash : c ≠ '\\' := by
    rintro rfl
    exact absurd hstart (by decide)
  have htext : String.ofList (c :: cs) = text := by rw [← hchars, String.ofList_toList]
  have hword : readWord (c :: (cs ++ d :: rest)) = some (text, false, d :: rest) := by
    unfold readWord
    split
    · contradiction
    · rename_i heq
      exact absurd (List.cons.inj heq).1 hbackslash
    · rename_i heq
      obtain ⟨rfl, rfl⟩ := List.cons.inj heq
      rw [if_pos hstart, htail]
      simp only [Option.bind_eq_bind, Option.bind_some, Option.pure_def, htext]
  rw [hchars, List.cons_append]
  simp [read, hstart, hword]

end Lexeme

/-! ### Texts -/

/-- Every cursor before the characters has the given tokens ahead. -/
def Spells (text : List Char) (lexemes : List Lexeme) : Prop :=
  ∀ c : Cursor, c.rest = text → c.Ahead lexemes

namespace Spells

variable {lexeme : Lexeme} {ls : List Lexeme} {c : Char} {cs rest : List Char}

lemma finish : Spells [] [.finish] := by
  intro cursor hrest
  refine ⟨?_, trivial⟩
  simp [Cursor.token, hrest, Trivia.scan, Lexeme.read]

/-- One token is read, and then the others. -/
lemma cons (h : Spells rest ls) (hink : Trivia.isInk c = true)
    (hread : Lexeme.read (c :: cs) = some (lexeme, rest)) : Spells (c :: cs) (lexeme :: ls) := by
  intro cursor hrest
  obtain ⟨token, htoken, rfl, rfl⟩ : ∃ token, cursor.token = some token ∧
      token.lexeme = lexeme ∧ token.after = rest := by
    simp [Cursor.token, hrest, Trivia.scan_of_isInk hink, hread]
  have hadvance : cursor.advance.rest = token.after := by
    rw [Cursor.advance, htoken]
    rfl
  exact ⟨by rw [htoken, Option.map_some], h _ hadvance⟩

lemma word {text : String} {d : Char} (h : Spells (d :: rest) ls)
    (hname : Identifier.isPropertyName text = true) (hpart : Identifier.isPart d = false)
    (hescape : d ≠ '\\') : Spells (text.toList ++ d :: rest) (.word text false :: ls) := by
  have hread := Lexeme.read_word hname hpart hescape rest
  obtain ⟨c, cs, hchars, hstart, -⟩ := Identifier.exists_cons_of_isPropertyName hname
  rw [hchars, List.cons_append] at hread ⊢
  exact h.cons (Trivia.isInk_of_isStart hstart) hread

end Spells

end Concise
