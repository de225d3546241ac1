import Concise.Token.Quoted
import Concise.Proofs.Eligibility

/-!
The names that properties define.

A key that is not computed names its property by an identifier name, by the value of a string or by
a number. The value of a string is a sequence of characters and lone surrogates, which is not how a
tree holds it; two keys that look alike in a tree could so differ in what they name.

* `Quoted.units`: the units of a string from the characters that hold them, the inverse of
  `Quoted.value` (`Quoted.units_value`).
* `Quoted.units_of_isName`: in an identifier name every character stands for itself.
* `Property.staticName?`: the name that a property defines.
* `Property.staticName?_of_eligible?` (**simplified properties are named as before**): where numbers
  and identifiers are spelled as such, a property that is simplified has an identifier name before
  and after.
-/

namespace Concise

namespace Quoted

/-! ### Units of strings -/

/-- The units that some characters hold in a string with (`true`) or without lone surrogates. With
them, U+FFFD begins the four digits of a code. -/
def units (hasLone : Bool) : List Char → List TextUnit
  | [] => []
  | '\ufffd' :: a :: b :: c :: d :: rest =>
      if hasLone then .ofCode (hexValue [a, b, c, d]) :: units hasLone rest
      else .char '\ufffd' :: units hasLone (a :: b :: c :: d :: rest)
  | c :: rest => .char c :: units hasLone rest

lemma units_cons_of_ne {c : Char} (h : c ≠ '\ufffd') (hasLone : Bool) (rest : List Char) :
    units hasLone (c :: rest) = .char c :: units hasLone rest := by
  rw [units]
  rintro _ _ _ _ _ rfl
  exact absurd rfl h

lemma units_false (cs : List Char) : units false cs = cs.map .char := by
  fun_induction units false cs with
  | case1 => rfl
  | case2 => contradiction
  | case3 a b c d rest _ ih =>
      rw [ih]
      rfl
  | case4 c rest _ ih => rw [ih, List.map_cons]

/-- Four hexadecimal digits are read as the number they write. -/
lemma hexValue_hex4 {n : Nat} (h : n < 0x10000) : hexValue (hex4 n) = n := by
  have hdigit : ∀ d < 16, Numeral.digitValue (hexChar d) = d := by decide
  have hmod : ∀ m, m % 16 < 16 := fun m => Nat.mod_lt m (by decide)
  simp only [hexValue, hex4, List.foldl_cons, List.foldl_nil, hdigit _ (hmod _)]
  omega

lemma units_hex4 {n : Nat} (h : n < 0x10000) (rest : List Char) :
    units true ('\ufffd' :: hex4 n ++ rest) = .ofCode n :: units true rest := by
  show units true ('\ufffd' :: _ :: _ :: _ :: _ :: rest) = _
  rw [units, if_pos rfl]
  exact congrArg (TextUnit.ofCode · :: units true rest) (hexValue_hex4 h)

/-- The characters of one unit are read as that unit. -/
lemma units_chars (unit : TextUnit)
    (h : ∀ code, unit = .loneSurrogate code → isSurrogate code = true) (rest : List Char) :
    units true (unit.chars true ++ rest) = unit :: units true rest := by
  cases unit with
  | char c =>
      by_cases hc : c = '\ufffd'
      · subst hc
        exact units_hex4 (by decide) rest
      · simp [TextUnit.chars, hc, units_cons_of_ne hc]
  | loneSurrogate code =>
      have hcode := h code rfl
      have hlt : code < 0x10000 := by
        simp only [isSurrogate, Bool.and_eq_true, decide_eq_true_eq] at hcode
        omega
      rw [TextUnit.chars, units_hex4 hlt, TextUnit.ofCode, if_pos hcode]

/-- **The units of a string can be read back** from its value. -/
lemma units_value (us : List TextUnit)
    (h : ∀ code, TextUnit.loneSurrogate code ∈ us → isSurrogate code = true) :
    units (value us).2 (value us).1.toList = us := by
  show units (us.any TextUnit.isLone)
    (String.ofList (us.flatMap (TextUnit.chars (us.any TextUnit.isLone)))).toList = us
  rw [String.toList_ofList]
  cases hlone : us.any TextUnit.isLone with
  | false =>
      rw [units_false, List.map_flatMap]
      refine Eq.trans (List.flatMap_congr fun unit hunit => ?_) (List.flatMap_singleton' us)
      have hchar := List.any_eq_false.mp hlone unit hunit
      cases unit with
      | char c => simp [TextUnit.chars]
      | loneSurrogate code => exact absurd rfl hchar
  | true =>
      clear hlone
      induction us with
      | nil => rfl
      | cons unit us ih =>
          rw [List.flatMap_cons, units_chars unit (fun code hcode => h code (by simp [hcode])),
            ih fun code hcode => h code (List.mem_cons_of_mem _ hcode)]

/-- In an identifier name every character stands for itself: U+FFFD is not among them. -/
lemma units_of_isName {cs : List Char} (h : Identifier.isName cs = true) (hasLone : Bool) :
    units hasLone cs = cs.map .char := by
  have hreplacement : Identifier.isPart '\ufffd' = false := by decide +kernel
  have hparts : ∀ cs : List Char, cs.all Identifier.isPart = true →
      units hasLone cs = cs.map .char := by
    intro cs
    induction cs with
    | nil => intro _; rfl
    | cons c cs ih =>
        intro hall
        simp only [List.all_cons, Bool.and_eq_true] at hall
        have hc : c ≠ '\ufffd' := by
          rintro rfl
          rw [hreplacement] at hall
          cases hall.1
        rw [units_cons_of_ne hc, ih hall.2, List.map_cons]
  cases cs with
  | nil => rfl
  | cons c cs =>
      simp only [Identifier.isName_cons, Bool.and_eq_true] at h
      exact hparts (c :: cs) (by simp [Identifier.isPart_of_isStart h.1, h.2])

end Quoted

/-! ### Static names -/

/-- A name that a key defines without being evaluated. -/
inductive StaticName where
  | text (units : List Quoted.TextUnit)
  | number (raw : String)

/-- The name whose units are the characters of a text. -/
def StaticName.ofText (text : String) : StaticName := .text (text.toList.map .char)

lemma StaticName.ofText_injective : Function.Injective StaticName.ofText := by
  intro text text' h
  have hunits : text.toList.map Quoted.TextUnit.char = text'.toList.map Quoted.TextUnit.char :=
    StaticName.text.inj h
  exact String.toList_injective
    (List.map_injective_iff.mpr (fun _ _ hc => Quoted.TextUnit.char.inj hc) hunits)

namespace Tree

/-- The name that a key spells: by an identifier name, a string or a number. -/
def staticName? : Tree → Option StaticName
  | node (.staticName name) _ [] => some (.ofText name)
  | node (.string value hasLone) _ [] => some (.text (Quoted.units hasLone value.toList))
  | node (.number raw) _ [] => some (.number raw)
  | _ => none

/-- The spelling of a number. -/
def numeral? : Tree → Option String
  | node (.number raw) _ [] => some raw
  | _ => none

end Tree

/-- Whether a text begins as numbers do, with a digit or a point. -/
def Numeral.beginsNumber (raw : String) : Bool :=
  match raw.toList with
  | c :: _ => Identifier.isAsciiDigit c || c == '.'
  | [] => false

/-- A number is no identifier name. -/
lemma Numeral.isPropertyName_of_beginsNumber {raw : String} (h : beginsNumber raw = true) :
    Identifier.isPropertyName raw = false := by
  unfold beginsNumber at h
  split at h
  · rename_i c cs hraw
    have hdigits : ∀ n < 58, 48 ≤ n → Identifier.isStart (Char.ofNat n) = false := by decide
    have hstart : Identifier.isStart c = false := by
      rcases Bool.or_eq_true_iff.mp h with hdigit | hpoint
      · simp only [Identifier.isAsciiDigit, Bool.and_eq_true, decide_eq_true_eq] at hdigit
        have hlow : 48 ≤ c.toNat := UInt32.le_iff_toNat_le.mp (Char.le_def.mp hdigit.1)
        have hhigh : c.toNat ≤ 57 := UInt32.le_iff_toNat_le.mp (Char.le_def.mp hdigit.2)
        rw [← Char.ofNat_toNat c]
        exact hdigits c.toNat (by omega) hlow
      · rw [beq_iff_eq.mp hpoint]
        decide
    rw [Identifier.isPropertyName, hraw, Identifier.isName_cons, hstart, Bool.false_and]
  · cases h

variable {choice : Property → Option Simplification}

/-- Shortening inside a key does not change the name that it spells. -/
lemma Tree.staticName?_shortenedBy (t : Tree) :
    (t.shortenedBy choice).staticName? = t.staticName? := by
  cases t with
  | node kind span parts =>
      rw [shortenedBy_node]
      cases parts with
      | nil => rfl
      | cons part parts => simp [staticName?]
  | property span form key value =>
      rw [shortenedBy_property]
      rfl
  | reference | function => rfl

/-- A key that can be written bare spells its own text, in quotes or without them. -/
lemma Tree.staticName?_of_isBare {t : Tree} {key : Key} (hkey : Key.ofTree? t = some key)
    (hbare : key.isBare = true)
    (hnumeral : ∀ raw ∈ t.numeral?, Numeral.beginsNumber raw = true) :
    t.staticName? = some (.ofText key.text) ∧ t.unquoted.staticName? = some (.ofText key.text) := by
  unfold Key.ofTree? at hkey
  split at hkey
  · cases hkey
    exact ⟨rfl, rfl⟩
  · cases hkey
    refine ⟨?_, rfl⟩
    rw [staticName?, Quoted.units_of_isName hbare]
    rfl
  · cases hkey
    have hname := Numeral.isPropertyName_of_beginsNumber (hnumeral _ rfl)
    exact absurd (hname.symm.trans hbare) (by decide)
  · cases hkey

/-! ### Names of properties -/

/-- Whatever is an identifier name can be written bare. -/
lemma Key.isBare_of_isPropertyName {key : Key} (h : Identifier.isPropertyName key.text = true) :
    key.isBare = true := by
  cases key with
  | plain name => rfl
  | quoted text => exact h

namespace Property

/-- The name that a property defines, if its key is not computed. -/
def staticName? (p : Property) : Option StaticName :=
  if p.form.isComputed then none else p.key.staticName?

/-- The property does not define anything but sets the prototype of its object. -/
def SetsPrototype (p : Property) : Prop :=
  p.form.isPlain = true ∧ p.staticName? = some (.ofText Key.prototypeText)

/-- **Simplified properties are named as before**: the name is a text, and not the one that sets the
prototype. -/
lemma staticName?_of_eligible? {p : Property} {s : Simplification} (h : p.eligible? = some s)
    (hreference : ∀ span name, p.value = .reference span name →
      Identifier.isPropertyName name = true)
    (hnumeral : ∀ raw ∈ p.key.numeral?, Numeral.beginsNumber raw = true) :
    ∃ text, text ≠ Key.prototypeText ∧ p.staticName? = some (.ofText text) ∧
      (p.shortenedBy eligible?).staticName? = some (.ofText text) := by
  obtain ⟨hplain, hclassify⟩ := eligible?_eq_some.mp h
  obtain ⟨-, -, hcomputed, -⟩ := p.form.isPlain_iff.mp hplain
  have hcomputed' : (p.shortenedBy eligible?).form.isComputed = false :=
    (form_simplifiedBy _ _).2.trans hcomputed
  rw [staticName?, staticName?, hcomputed, hcomputed', if_neg Bool.false_ne_true,
    if_neg Bool.false_ne_true]
  cases s with
  | shorthand =>
      obtain ⟨key, span, hkey, hvalue, hproto⟩ := classify?_eq_shorthand hclassify
      have hbare := Key.isBare_of_isPropertyName (hreference span key.text hvalue)
      refine ⟨key.text, hproto, (Tree.staticName?_of_isBare hkey hbare hnumeral).1, ?_⟩
      rw [shortenedBy_eq_shorthand h hvalue]
      rfl
  | method =>
      obtain ⟨key, _, _, _, _, _, _, _, hkey, -, -, -, -, hproto, hbare⟩ :=
        classify?_eq_method hclassify
      obtain ⟨hname, hname'⟩ := Tree.staticName?_of_isBare hkey hbare hnumeral
      refine ⟨key.text, hproto, hname, ?_⟩
      rw [shortenedBy_eq_method h, hname']

end Property

end Concise
