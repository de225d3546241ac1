import Mathlib.Data.List.Basic
import Mathlib.Order.Nat
import Mathlib.Tactic.Lemma
import Concise.Grammar.Program
import Concise.Proofs.Structure
import Concise.Proofs.Tokens

/-!
Where the properties of a tree stand.

* `Property.Run` says of a list of properties that they begin one after the other between two
  offsets, and that what stands in them is spelt as a text can spell it.
* `Tree.Within` says it of the properties of a tree, `Tree.AllWithin` of those of a list of trees.
  The lemmas about them are the rules by which a run is put together from the runs of the parts; a
  `grind` pattern fits each of them to the way a parser builds its tree.
-/

namespace Concise

/-! ### Spellings -/

/-- A text that may name something: it is spelt as a name and is not reserved. -/
def Identifier.IsNameable (text : String) : Prop :=
  isPropertyName text = true ∧ Parser.reservedWords.contains text = false

@[grind →]
lemma Identifier.IsNameable.isPropertyName {text : String} (h : IsNameable text) :
    isPropertyName text = true := h.1

/-- References are spelt as names and not reserved, bare keys are spelt as names, and numbers begin
as numbers do, perhaps in parentheses. -/
def Tree.IsLegible : Tree → Prop
  | .reference _ name => Identifier.IsNameable name
  | .node kind _ parts =>
      match kind, parts with
      | .number raw, _ => Numeral.beginsNumber raw = true
      | .staticName name, _ => Identifier.isPropertyName name = true
      | .parenthesized, [inner] => inner.IsLegible
      | .parenthesizedType, [inner] => inner.IsLegible
      | _, _ => True
  | _ => True

namespace Tree

variable {kind : Kind} {span : Span} {name : String} {parts : List Tree}

@[grind =]
lemma isLegible_reference :
    (reference span name).IsLegible ↔ Identifier.IsNameable name := by
  rw [IsLegible]

@[grind .]
lemma isLegible_property {form : PropertyForm} {key value : Tree} :
    (property span form key value).IsLegible := by
  simp only [IsLegible]

@[grind .]
lemma isLegible_function {head : FunctionHead} {a b c d e : Tree} :
    (function span head a b c d e).IsLegible := by
  simp only [IsLegible]

@[grind =]
lemma isLegible_node : (node kind span parts).IsLegible ↔
    match kind, parts with
    | .number raw, _ => Numeral.beginsNumber raw = true
    | .staticName name, _ => Identifier.isPropertyName name = true
    | .parenthesized, [inner] => inner.IsLegible
    | .parenthesizedType, [inner] => inner.IsLegible
    | _, _ => True := by
  split <;> rw [IsLegible] <;> assumption

/-! ### Forms -/

/-- A value fits the form of its property: only an identifier can be written as a shorthand, and
only a function as a method. -/
def Fits (form : PropertyForm) : Tree → Prop
  | reference _ _ => form.isMethod = false
  | function _ _ _ _ _ _ _ => form.isShorthand = false
  | _ => form.isMethod = false ∧ form.isShorthand = false

/-- Whether a tree is a function. -/
def isFunction : Tree → Bool
  | function _ _ _ _ _ _ _ => true
  | _ => false

/-- A form that is neither a shorthand nor a method asks nothing of a value. -/
@[grind .]
lemma fits_of_plain {form : PropertyForm} {value : Tree} (hmethod : form.isMethod = false)
    (hshorthand : form.isShorthand = false) : value.Fits form := by
  cases value with
  | reference => exact hmethod
  | function => exact hshorthand
  | property | node => exact ⟨hmethod, hshorthand⟩

@[grind =]
lemma fits_reference {form : PropertyForm} :
    (reference span name).Fits form ↔ form.isMethod = false := Iff.rfl

@[grind .]
lemma fits_of_isFunction {form : PropertyForm} {value : Tree} (h : value.isFunction = true)
    (hshorthand : form.isShorthand = false) : value.Fits form := by
  cases value with
  | function => exact hshorthand
  | reference | property | node => cases h

@[grind →]
lemma isLegible_of_isFunction {t : Tree} (h : t.isFunction = true) : t.IsLegible := by
  cases t with
  | function => exact isLegible_function
  | reference | property | node => cases h

@[grind =]
lemma isFunction_function {head : FunctionHead} {a b c d e : Tree} :
    (function span head a b c d e).isFunction = true := rfl

end Tree

/-! ### Runs of properties -/

/-- The properties begin one after the other, at or after the first offset and before the second,
their keys and values are legible, and their values fit their forms. -/
structure Property.Run (first last : Nat) (properties : List Property) : Prop where
  increasing : properties.Pairwise fun p q => p.span.start < q.span.start
  bounds : ∀ p ∈ properties, first ≤ p.span.start ∧ p.span.start < last
  legible : ∀ p ∈ properties, p.key.IsLegible ∧ p.value.IsLegible
  fits : ∀ p ∈ properties, p.value.Fits p.form

namespace Property.Run

variable {first middle middle' last : Nat} {p : Property} {ps qs : List Property}

lemma nil : Run first last [] := ⟨.nil, by simp, by simp, by simp⟩

lemma mono (h : Run middle middle' ps) (hfirst : first ≤ middle) (hlast : middle' ≤ last) :
    Run first last ps :=
  { h with bounds := fun p hp =>
      ⟨hfirst.trans (h.bounds p hp).1, (h.bounds p hp).2.trans_le hlast⟩ }

lemma sublist (h : Run first last ps) (hsub : qs.Sublist ps) : Run first last qs :=
  ⟨h.increasing.sublist hsub, fun p hp => h.bounds p (hsub.subset hp),
    fun p hp => h.legible p (hsub.subset hp), fun p hp => h.fits p (hsub.subset hp)⟩

/-- A run can be cut where its second part begins. -/
lemma of_append (h : Run first last (ps ++ qs)) (hle : first ≤ last) :
    ∃ middle, first ≤ middle ∧ middle ≤ last ∧ Run first middle ps ∧ Run middle last qs := by
  obtain ⟨hps, hqs, hlt⟩ := List.pairwise_append.mp h.increasing
  have hbounds := List.forall_mem_append.mp h.bounds
  have hlegible := List.forall_mem_append.mp h.legible
  have hfits := List.forall_mem_append.mp h.fits
  cases qs with
  | nil => exact ⟨last, hle, le_rfl, ⟨hps, hbounds.1, hlegible.1, hfits.1⟩, .nil⟩
  | cons q qs =>
      have hq := hbounds.2 q List.mem_cons_self
      refine ⟨q.span.start, hq.1, hq.2.le, ⟨hps, fun p hp => ?_, hlegible.1, hfits.1⟩,
        ⟨hqs, fun p hp => ?_, hlegible.2, hfits.2⟩⟩
      · exact ⟨(hbounds.1 p hp).1, hlt p hp q List.mem_cons_self⟩
      · refine ⟨?_, (hbounds.2 p hp).2⟩
        rcases List.mem_cons.mp hp with rfl | hp
        · exact le_rfl
        · exact (List.rel_of_pairwise_cons hqs hp).le

/-- Two runs follow each other if the second begins where the first ends. -/
lemma append (hps : Run first middle ps) (hqs : Run middle last qs) (hfirst : first ≤ middle)
    (hlast : middle ≤ last) : Run first last (ps ++ qs) := by
  have hps' := hps.mono le_rfl hlast
  have hqs' := hqs.mono hfirst le_rfl
  refine ⟨List.pairwise_append.mpr ⟨hps.increasing, hqs.increasing, fun p hp q hq => ?_⟩,
    List.forall_mem_append.mpr ⟨hps'.bounds, hqs'.bounds⟩,
    List.forall_mem_append.mpr ⟨hps'.legible, hqs'.legible⟩,
    List.forall_mem_append.mpr ⟨hps'.fits, hqs'.fits⟩⟩
  exact (hps.bounds p hp).2.trans_le (hqs.bounds q hq).1

/-- A property comes before what stands in it. -/
lemma cons (hps : Run (p.span.start + 1) last ps) (hlast : p.span.start < last)
    (hkey : p.key.IsLegible) (hvalue : p.value.IsLegible) (hfits : p.value.Fits p.form) :
    Run p.span.start last (p :: ps) := by
  refine ⟨List.pairwise_cons.mpr ⟨fun q hq => (hps.bounds q hq).1, hps.increasing⟩, ?_,
    List.forall_mem_cons.mpr ⟨⟨hkey, hvalue⟩, hps.legible⟩,
    List.forall_mem_cons.mpr ⟨hfits, hps.fits⟩⟩
  rintro q (_ | ⟨_, hq⟩)
  · exact ⟨le_rfl, hlast⟩
  · exact ⟨Nat.le_of_succ_le (hps.bounds q hq).1, (hps.bounds q hq).2⟩

end Property.Run

/-! ### Runs in trees -/

namespace Tree

/-- The properties of a tree are a run. -/
def Within (first last : Nat) (tree : Tree) : Prop := Property.Run first last tree.properties

/-- The properties of some trees are a run. -/
def AllWithin (first last : Nat) (trees : List Tree) : Prop :=
  Property.Run first last (propertiesAll trees)

variable {first middle middle' last : Nat} {kind : Kind} {span : Span} {name : String}
variable {form : PropertyForm} {head : FunctionHead} {tree key value a b c d e : Tree}
variable {trees more : List Tree}

lemma propertiesAll_append : propertiesAll (trees ++ more) =
    propertiesAll trees ++ propertiesAll more := by
  rw [propertiesAll_eq, propertiesAll_eq, propertiesAll_eq, List.flatMap_append]

lemma Within.mono (h : tree.Within middle middle') (hfirst : first ≤ middle)
    (hlast : middle' ≤ last) : tree.Within first last :=
  Property.Run.mono h hfirst hlast

lemma AllWithin.mono (h : AllWithin middle middle' trees) (hfirst : first ≤ middle)
    (hlast : middle' ≤ last) : AllWithin first last trees :=
  Property.Run.mono h hfirst hlast

@[grind .]
lemma allWithin_nil : AllWithin first last [] := .nil

/-- A tree and then some trees, the run of the first ending before that of the others begins. -/
lemma allWithin_cons (h : tree.Within middle middle') (hfirst : first ≤ middle)
    (hle : first ≤ middle') (hlast : middle' ≤ last) (hrest : AllWithin middle' last trees) :
    AllWithin first last (tree :: trees) :=
  (h.mono hfirst le_rfl).append hrest hle hlast

@[grind =]
lemma allWithin_singleton : AllWithin first last [tree] ↔ tree.Within first last := by
  rw [AllWithin, propertiesAll, propertiesAll, List.append_nil, Within]

lemma AllWithin.uncons (h : AllWithin first last (tree :: trees)) (hle : first ≤ last) :
    ∃ middle, first ≤ middle ∧ middle ≤ last ∧ tree.Within first middle ∧
      AllWithin middle last trees :=
  Property.Run.of_append h hle

lemma allWithin_append (h : AllWithin middle middle' trees) (hfirst : first ≤ middle)
    (hle : first ≤ middle') (hlast : middle' ≤ last) (hrest : AllWithin middle' last more) :
    AllWithin first last (trees ++ more) := by
  rw [AllWithin, propertiesAll_append]
  exact (h.mono hfirst le_rfl).append hrest hle hlast

@[grind =]
lemma within_node : (node kind span trees).Within first last ↔ AllWithin first last trees :=
  Iff.rfl

@[grind =]
lemma within_function : (function span head a b c d e).Within first last ↔
    AllWithin first last [a, b, c, d, e] := by
  simp only [Within, AllWithin, properties, propertiesAll, List.append_nil]

@[grind .]
lemma within_reference : (reference span name).Within first last := .nil

@[grind =]
lemma allWithin_cons_node : AllWithin first last (node kind span more :: trees) ↔
    AllWithin first last (more ++ trees) := by
  rw [AllWithin, AllWithin, propertiesAll, properties, propertiesAll_append]

@[grind =]
lemma allWithin_cons_reference :
    AllWithin first last (reference span name :: trees) ↔ AllWithin first last trees :=
  Iff.rfl

/-- A property begins before its key and its value. -/
lemma within_property (hfirst : first ≤ span.start) (hlast : span.start < last)
    (hkey : key.IsLegible) (hvalue : value.IsLegible) (hfits : value.Fits form)
    (h : AllWithin (span.start + 1) last [key, value]) :
    (property span form key value).Within first last := by
  rw [AllWithin, propertiesAll, propertiesAll, propertiesAll, List.append_nil] at h
  exact (Property.Run.cons (p := ⟨span, form, key, value⟩) h hlast hkey hvalue hfits).mono hfirst
    le_rfl

@[grind =]
lemma absent_eq : absent = node .absent .zero [] := rfl

/-! ### Growing trees -/

/-- A second tree takes the place of a first one while an offset moves forward: wherever the run of
the first began, the second has a run from there. -/
abbrev GrowsTo (tree : Tree) (n : Nat) (tree' : Tree) (n' : Nat) : Prop :=
  n ≤ n' ∧ (tree.IsLegible → tree'.IsLegible) ∧
    ∀ first ≤ n, tree.Within first n → tree'.Within first n'

lemma GrowsTo.refl {n : Nat} : tree.GrowsTo n tree n := ⟨le_rfl, id, fun _ _ => id⟩

lemma GrowsTo.trans {tree' tree'' : Tree} {n n' n'' : Nat} (h : tree.GrowsTo n tree' n')
    (h' : tree'.GrowsTo n' tree'' n'') : tree.GrowsTo n tree'' n'' :=
  ⟨h.1.trans h'.1, h'.2.1 ∘ h.2.1,
    fun first hfirst hwithin => h'.2.2 first (hfirst.trans h.1) (h.2.2 first hfirst hwithin)⟩

grind_pattern Within.mono => Within first last tree, Within middle middle' tree
grind_pattern AllWithin.mono => AllWithin first last trees, AllWithin middle middle' trees
grind_pattern AllWithin.uncons => AllWithin first last (tree :: trees)
grind_pattern allWithin_cons => AllWithin first last (tree :: trees), Within middle middle' tree
grind_pattern allWithin_append =>
  AllWithin first last (trees ++ more), AllWithin middle middle' trees
grind_pattern within_property => (property span form key value).Within first last

end Tree

end Concise
