import Mathlib
import Concise.Proofs.Grammar.Types

/-!
Patterns. What is read as an expression and turned into a pattern afterwards keeps the properties
that stand inside it in their order: `Tree.Keeps` says so, and a run of properties stays one.
-/

open Std.Do

set_option mvcgen.warning false

namespace Concise

/-! ### Conversions -/

namespace Tree

/-- A tree that is made of another keeps properties in their order and adds none. -/
def Keeps (tree tree' : Tree) : Prop := tree'.properties.Sublist tree.properties

/-- Trees that are made of others keep properties in their order and add none. -/
def KeepsAll (trees trees' : List Tree) : Prop :=
  (propertiesAll trees').Sublist (propertiesAll trees)

section

variable {t u key value : Tree} {ts us : List Tree} {span span' : Span} {form : PropertyForm}
variable {kind kind' : Kind} {first last : Nat}

lemma Keeps.refl : t.Keeps t := List.Sublist.refl _

lemma Keeps.trans {t' : Tree} (h : t.Keeps t') (h' : t'.Keeps u) : t.Keeps u :=
  List.Sublist.trans h' h

lemma Keeps.name : t.Keeps (node kind span []) := List.nil_sublist _

lemma Keeps.reference {name : String} : t.Keeps (.reference span name) := List.nil_sublist _

lemma Keeps.node (h : KeepsAll ts us) : (node kind span ts).Keeps (node kind' span' us) := h

lemma KeepsAll.nil : KeepsAll ts [] := List.nil_sublist _

lemma KeepsAll.cons (h : t.Keeps u) (hs : KeepsAll ts us) : KeepsAll (t :: ts) (u :: us) :=
  List.Sublist.append h hs

lemma KeepsAll.pair {t' u' : Tree} (h : t.Keeps u) (h' : t'.Keeps u') :
    KeepsAll [t, t'] [u, u'] :=
  .cons h (.cons h' .nil)

lemma KeepsAll.wrap (h : KeepsAll ts us) : KeepsAll ts [.node kind span us] := by
  rwa [KeepsAll, propertiesAll, properties, propertiesAll, List.append_nil]

lemma Keeps.ofAll (h : KeepsAll [t] us) : t.Keeps (.node kind span us) := by
  rwa [KeepsAll, propertiesAll, propertiesAll, List.append_nil] at h

lemma KeepsAll.name (h : KeepsAll ts us) : KeepsAll ts (.node kind span [] :: us) := h

lemma KeepsAll.drop (h : KeepsAll ts us) : KeepsAll (t :: ts) us :=
  List.Sublist.trans h (List.sublist_append_right _ _)

lemma Keeps.ofProperty (h : KeepsAll [key, value] us) :
    (property span form key value).Keeps (.node kind span' us) := by
  have hparts : propertiesAll [key, value] = key.properties ++ value.properties := by
    rw [propertiesAll, propertiesAll, propertiesAll, List.append_nil]
  exact List.Sublist.trans (hparts ▸ h) (List.sublist_cons_self _ _)

/-- What is left of a run is a run. -/
lemma Keeps.within (h : t.Keeps u) (ht : t.Within first last) : u.Within first last :=
  Property.Run.sublist ht h

lemma KeepsAll.allWithin (h : KeepsAll ts us) (hts : AllWithin first last ts) :
    AllWithin first last us :=
  Property.Run.sublist hts h

lemma Keeps.ofSimple (h : (if t.isSimpleTarget then some t else none) = some u) : t.Keeps u := by
  obtain ⟨-, h⟩ := Option.ite_none_right_eq_some.mp h
  exact Option.some.inj h ▸ .refl

lemma Keeps.ofParts {convert : List Tree → Option (List Tree)}
    (ih : ∀ us, convert ts = some us → KeepsAll ts us)
    (h : (convert ts).map (.node kind' span') = some u) : (.node kind span ts : Tree).Keeps u := by
  obtain ⟨us, hus, rfl⟩ := Option.map_eq_some_iff.mp h
  exact .node (ih us hus)

end

/-- A target keeps what the expression holds, and so do its elements and members. -/
lemma keeps_of_toTarget? :
    (∀ t u, toTarget? t = some u → t.Keeps u) ∧
    (∀ ts us, toTargetElements? ts = some us → KeepsAll ts us) ∧
    (∀ t u, toTargetWithDefault? t = some u → t.Keeps u) ∧
    (∀ ts us, toTargetMembers? ts = some us → KeepsAll ts us) := by
  apply toTarget?.mutual_induct (fun t => ∀ u, toTarget? t = some u → t.Keeps u)
    (fun ts => ∀ us, toTargetElements? ts = some us → KeepsAll ts us)
    (fun t => ∀ u, toTargetWithDefault? t = some u → t.Keeps u)
    (fun ts => ∀ us, toTargetMembers? ts = some us → KeepsAll ts us)
  -- Targets.
  case case1 | case2 => exact fun span parts ih u h => .ofParts ih h
  case case3 | case4 =>
    exact fun t hobject harray _ u h => .ofSimple (toTarget?.eq_3 t hobject harray ▸ h)
  -- Targets with a default.
  case case5 => exact fun span target initial u h => Option.some.inj h ▸ .node (.pair .refl .refl)
  case case6 | case7 => exact fun span parts ih u h => .ofParts ih h
  case case8 | case9 =>
    exact fun t hdefault hobject harray _ u h =>
      .ofSimple (toTargetWithDefault?.eq_4 t hdefault hobject harray ▸ h)
  -- Elements.
  case case10 => exact fun us h => Option.some.inj h ▸ .nil
  case case11 =>
    intro span parts elements ih us h
    obtain ⟨rest, hrest, h⟩ := Option.bind_eq_some_iff.mp h
    exact Option.some.inj h ▸ .cons .name (ih rest hrest)
  case case12 | case17 =>
    intro span argument ih us h
    obtain ⟨target, htarget, h⟩ := Option.bind_eq_some_iff.mp h
    exact Option.some.inj h ▸ .cons (.node (.cons (ih target htarget) .nil)) .nil
  case case13 =>
    intro element elements hhole hspread ihelement ihelements us h
    rw [toTargetElements?.eq_4 _ _ hhole hspread] at h
    obtain ⟨target, htarget, h⟩ := Option.bind_eq_some_iff.mp h
    obtain ⟨rest, hrest, h⟩ := Option.bind_eq_some_iff.mp h
    exact Option.some.inj h ▸ .cons (ihelement target htarget) (ihelements rest hrest)
  -- Members.
  case case14 => exact fun us h => Option.some.inj h ▸ .nil
  case case15 =>
    intro span form key value members ihmembers ihvalue us h
    obtain ⟨rest, hrest, h⟩ := Option.bind_eq_some_iff.mp h
    obtain ⟨-, h⟩ := Option.ite_none_left_eq_some.mp h
    split at h
    · exact Option.some.inj h ▸
        .cons (.ofProperty (.drop (.cons .refl (.name .nil)))) (ihmembers rest hrest)
    · obtain ⟨target, htarget, h⟩ := Option.bind_eq_some_iff.mp h
      exact Option.some.inj h ▸
        .cons (.ofProperty (.pair .refl (ihvalue target htarget))) (ihmembers rest hrest)
  case case16 =>
    intro span name initial members ih us h
    obtain ⟨rest, hrest, h⟩ := Option.bind_eq_some_iff.mp h
    exact Option.some.inj h ▸ .cons (.node (.pair .refl .refl)) (ih rest hrest)
  case case18 =>
    intro ts hnil hproperty hcover hspread us h
    rw [toTargetMembers?.eq_5 ts hnil hproperty hcover hspread] at h
    cases h

/-- A binding pattern keeps what the target holds. -/
lemma keeps_of_toBinding? :
    (∀ t u, toBinding? t = some u → t.Keeps u) ∧
    (∀ ts us, toBindings? ts = some us → KeepsAll ts us) := by
  apply toBinding?.mutual_induct (fun t => ∀ u, toBinding? t = some u → t.Keeps u)
    (fun ts => ∀ us, toBindings? ts = some us → KeepsAll ts us)
  case case1 => exact fun span name u h => Option.some.inj h ▸ .name
  case case2 | case3 => exact fun span parts ih u h => .ofParts ih h
  case case4 => exact fun span parts u h => Option.some.inj h ▸ .name
  case case5 =>
    intro span target ih u h
    obtain ⟨bound, hbound, h⟩ := Option.bind_eq_some_iff.mp h
    exact Option.some.inj h ▸ .node (.cons (ih bound hbound) .nil)
  case case6 =>
    intro span target initial ih u h
    obtain ⟨bound, hbound, h⟩ := Option.bind_eq_some_iff.mp h
    exact Option.some.inj h ▸ .node (.pair (ih bound hbound) .refl)
  case case7 =>
    intro span inner name initial hpresent u h
    rw [toBinding?, if_pos hpresent] at h
    exact Option.some.inj h ▸ .node (.cons .name (.wrap (.name (.cons .refl .nil))))
  case case8 =>
    intro span inner name initial habsent u h
    rw [toBinding?, if_neg habsent] at h
    exact Option.some.inj h ▸ .node (.pair .name .name)
  case case9 =>
    intro isComputed span key target ih u h
    obtain ⟨bound, hbound, h⟩ := Option.bind_eq_some_iff.mp h
    exact Option.some.inj h ▸ .node (.pair .refl (ih bound hbound))
  case case10 =>
    intro t hreference hobject harray hhole hrest hdefault hshorthand hproperty u h
    rw [toBinding?.eq_9 t hreference hobject harray hhole hrest hdefault hshorthand hproperty] at h
    cases h
  case case11 => exact fun us h => Option.some.inj h ▸ .nil
  case case12 =>
    intro target targets ihtarget ihtargets us h
    obtain ⟨bound, hbound, h⟩ := Option.bind_eq_some_iff.mp h
    obtain ⟨rest, hrest, h⟩ := Option.bind_eq_some_iff.mp h
    exact Option.some.inj h ▸ .cons (ihtarget bound hbound) (ihtargets rest hrest)

/-- A parameter of an arrow function keeps what its item holds. -/
lemma keeps_of_toParameter? {item parameter : Tree} (h : item.toParameter? = some parameter) :
    item.Keeps parameter := by
  unfold toParameter? at h
  split at h
  · obtain ⟨bound, hbound, h⟩ := Option.bind_eq_some_iff.mp h
    exact Option.some.inj h ▸
      .node (.name (.wrap (.pair (keeps_of_toBinding?.1 _ _ hbound) .refl)))
  · obtain ⟨target, htarget, h⟩ := Option.bind_eq_some_iff.mp h
    obtain ⟨bound, hbound, h⟩ := Option.bind_eq_some_iff.mp h
    exact Option.some.inj h ▸ .node (.cons
      (.trans (keeps_of_toTarget?.1 _ _ htarget) (keeps_of_toBinding?.1 _ _ hbound)) .nil)
  · obtain ⟨target, htarget, h⟩ := Option.bind_eq_some_iff.mp h
    obtain ⟨bound, hbound, h⟩ := Option.bind_eq_some_iff.mp h
    exact Option.some.inj h ▸ .ofAll (.name (.cons
      (.trans (keeps_of_toTarget?.1 _ _ htarget) (keeps_of_toBinding?.1 _ _ hbound)) .nil))

lemma keepsAll_of_mapM {convert : Tree → Option Tree}
    (hconvert : ∀ t u, convert t = some u → t.Keeps u) :
    ∀ {ts us : List Tree}, ts.mapM convert = some us → KeepsAll ts us
  | [], us, h => Option.some.inj h ▸ .nil
  | t :: ts, us, h => by
      rw [List.mapM_cons] at h
      obtain ⟨u, hu, h⟩ := Option.bind_eq_some_iff.mp h
      obtain ⟨rest, hrest, h⟩ := Option.bind_eq_some_iff.mp h
      exact Option.some.inj h ▸ .cons (hconvert t u hu) (keepsAll_of_mapM hconvert hrest)

/-- The parameters of an arrow function are a run where the items in parentheses are. -/
lemma within_of_toParameters? {first last : Nat} {span : Span} {items : List Tree}
    {parameters : Tree} (h : toParameters? span items = some parameters)
    (hitems : AllWithin first last items) : parameters.Within first last := by
  obtain ⟨converted, hconverted, h⟩ := Option.bind_eq_some_iff.mp h
  obtain ⟨-, h⟩ := Option.ite_none_left_eq_some.mp h
  have hkeeps := keepsAll_of_mapM (fun _ _ => keeps_of_toParameter?) hconverted
  exact Option.some.inj h ▸ hkeeps.allWithin hitems

lemma within_of_toTarget? {first last : Nat} {tree target : Tree} (h : tree.toTarget? = some target)
    (htree : tree.Within first last) : target.Within first last :=
  (keeps_of_toTarget?.1 tree target h).within htree

grind_pattern within_of_toParameters? =>
  toParameters? span items, some parameters, AllWithin first last items
grind_pattern within_of_toTarget? => tree.toTarget?, some target, tree.Within first last

end Tree

/-! ### Binding patterns -/

namespace Grammar

open Concise.Parser

variable {rules : Rules} (hrules : ∀ goal n, ⦃At n⦄ rules goal ⦃Reads n⦄)
include hrules

@[spec]
lemma initializer_spec (n : Nat) : ⦃At n⦄ initializer rules ⦃Reads n⦄ := by
  mvcgen [initializer, hrules]

@[spec]
lemma withDefault_spec {pattern : Parser Tree} (hpattern : ∀ n, ⦃At n⦄ pattern ⦃Reads n⦄) (n : Nat) :
    ⦃At n⦄ withDefault rules pattern ⦃Reads n⦄ := by
  mvcgen [withDefault, hpattern, hrules] with grind -ring -linarith

@[spec]
lemma shorthandPattern_spec (start n : Nat) :
    ⦃At n⦄ shorthandPattern rules start ⦃Reads n⦄ := by
  mvcgen [shorthandPattern, hrules] with grind -ring -linarith

@[spec]
lemma patternProperty_spec (n : Nat) : ⦃At n⦄ patternProperty rules ⦃Reads n⦄ := by
  refine triple_of_forall fun R hR => ?_
  mvcgen [patternProperty, hrules] with grind -ring -linarith

@[spec]
lemma patternElement_spec (n : Nat) : ⦃At n⦄ patternElement rules ⦃Reads n⦄ := by
  refine triple_of_forall fun R hR => ?_
  mvcgen [patternElement, hrules] with grind -ring -linarith

@[spec]
lemma pattern_spec (n : Nat) : ⦃At n⦄ pattern rules ⦃Reads n⦄ := by
  refine triple_of_forall fun R hR => ?_
  mvcgen [pattern, hrules] with grind -ring -linarith

end Grammar

end Concise
