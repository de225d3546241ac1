import Concise.Dialect
import Concise.Grammar.Program
import Concise.Proofs.Addresses

/-!
Where a name is referred to.

A name is written in a tree in many ways: it is declared, it is the key of a property, the name of
a member, a label, a tag, the own name of a function. Only a reference refers to it, and the search
for a name (`Tree.mentions`) is to find the references with that name, all of them and nothing else.

* `Tree.RefersTo`: a reference with the name stands at some address of the tree.
* `Tree.relabeled` writes all that is no reference in another way. References are what they were
  (`references_relabeled`).
* **`Tree.mentions_exact`**: the search finds a name exactly if the tree refers to it, whatever else
  is written in the tree, and a function is self-referential exactly if it has a name and its
  parameters or its body refer to it.
-/

namespace Concise.Tree

/-! ### References -/

/-- A reference with the name stands somewhere in the tree. -/
def RefersTo (t : Tree) (name : String) : Prop :=
  ∃ path span, t.at? path = some (reference span name)

/-- The name and the place of a tree that is a reference. -/
def toReference? : Tree → Option Name
  | reference span name => some ⟨name, span⟩
  | _ => none

lemma toReference?_eq_some {t : Tree} {r : Name} :
    t.toReference? = some r ↔ t = reference r.span r.text := by
  constructor
  · intro h
    cases t with
    | reference => cases h; rfl
    | property | function | node => cases h
  · rintro rfl
    rfl

/-- The references of a tree are those of its parts, after the tree itself if it is one. -/
lemma references_eq (t : Tree) :
    t.references = t.toReference?.toList ++ t.parts.flatMap references := by
  cases t <;> simp [references, parts, toReference?]

/-- **The search for a name finds the references with that name.** -/
lemma mentions_iff_refersTo {t : Tree} {name : String} :
    t.mentions name = true ↔ t.RefersTo name := by
  rw [mentions_iff]
  constructor
  · rintro ⟨r, hr, rfl⟩
    obtain ⟨path, u, hu, howned⟩ := (mem_iff_exists_at? references_eq).mp hr
    exact ⟨path, r.span, by rw [hu, toReference?_eq_some.mp howned]⟩
  · rintro ⟨path, span, hpath⟩
    exact ⟨⟨name, span⟩, (mem_iff_exists_at? references_eq).mpr ⟨path, _, hpath, rfl⟩, rfl⟩

/-! ### All else -/

/-- Another way to write what is no reference: the kinds of nodes, with the names that are declared,
selected or used as labels and tags in them, the heads of functions and the forms of properties. -/
structure Relabeling where
  kind : Kind → Kind
  head : FunctionHead → FunctionHead
  form : PropertyForm → PropertyForm

mutual

/-- The tree with all that is no reference written in another way. -/
def relabeled (labels : Relabeling) : Tree → Tree
  | reference span name => reference span name
  | property span form key value =>
      property span (labels.form form) (key.relabeled labels) (value.relabeled labels)
  | function span head typeParameters this parameters returned body =>
      function span (labels.head head) (typeParameters.relabeled labels) (this.relabeled labels)
        (parameters.relabeled labels) (returned.relabeled labels) (body.relabeled labels)
  | node kind span parts => node (labels.kind kind) span (relabeledAll labels parts)

/-- Some trees with all that is no reference written in another way. -/
def relabeledAll (labels : Relabeling) : List Tree → List Tree
  | [] => []
  | t :: ts => t.relabeled labels :: relabeledAll labels ts

end

@[simp] lemma relabeledAll_eq (labels : Relabeling) (ts : List Tree) :
    relabeledAll labels ts = ts.map (relabeled labels) := by
  induction ts with
  | nil => rfl
  | cons t ts ih => rw [relabeledAll, ih, List.map_cons]

/-- Writing the rest in another way keeps the references. -/
lemma references_relabeled (labels : Relabeling) (t : Tree) :
    (t.relabeled labels).references = t.references := by
  induction t with
  | reference span name => rfl
  | property span form key value ihKey ihValue => simp [relabeled, references, ihKey, ihValue]
  | function span head typeParameters this parameters returned body ih₁ ih₂ ih₃ ih₄ ih₅ =>
      simp [relabeled, references, ih₁, ih₂, ih₃, ih₄, ih₅]
  | node kind span parts ih =>
      rw [relabeled, relabeledAll_eq, references, references, referencesAll_eq, referencesAll_eq,
        List.flatMap_map]
      exact List.flatMap_congr ih

/-! ### The search -/

/-- A function is self-referential if it has a name and its parameters or its body refer to it. -/
lemma isSelfReferential_iff {t : Tree} :
    t.isSelfReferential = true ↔
      ∃ span head typeParameters this parameters returned body own,
        t = function span head typeParameters this parameters returned body ∧
          head.name = some own ∧ (parameters.RefersTo own.text ∨ body.RefersTo own.text) := by
  simp only [← mentions_iff_refersTo]
  constructor
  · intro h
    cases t with
    | reference | property | node => cases h
    | function span head typeParameters this parameters returned body =>
        rw [isSelfReferential] at h
        cases hname : head.name with
        | none => simp [hname, refersToSelf] at h
        | some own =>
            rw [hname, refersToSelf, Bool.or_eq_true] at h
            exact ⟨_, _, _, _, _, _, _, own, rfl, hname, h⟩
  · rintro ⟨span, head, typeParameters, this, parameters, returned, body, own, rfl, hname, h⟩
    rw [isSelfReferential, hname, refersToSelf, Bool.or_eq_true]
    exact h

/-- **The search for a name is exact.** It finds the name if and only if a reference with that name
stands somewhere in the tree, at any depth; nothing that is written in the tree besides its
references has an influence on it. So a function is self-referential if and only if it has a name
of its own and a reference with that name stands in its parameters or in its body. -/
theorem mentions_exact (t : Tree) (name : String) :
    (t.mentions name = true ↔ t.RefersTo name) ∧
      (∀ labels : Relabeling, (t.relabeled labels).mentions name = t.mentions name) ∧
        (t.isSelfReferential = true ↔
          ∃ span head typeParameters this parameters returned body own,
            t = function span head typeParameters this parameters returned body ∧
              head.name = some own ∧ (parameters.RefersTo own.text ∨ body.RefersTo own.text)) :=
  ⟨mentions_iff_refersTo, fun labels => mentions_congr (references_relabeled labels t) name,
    isSelfReferential_iff⟩

/-- Declarations, keys, members, labels and tags do not refer to the name that they are. -/
example : (Program.parse? .typeScriptWithMarkup true
    ("n: for (;;) \x7b const n = o.n, f = function n(n) \x7b break n; \x7d; " ++
      "g(\x7b n: 1, n() \x7b\x7d \x7d, <n n=\"n\" />); class n \x7b n = 1; n() \x7b\x7d \x7d " ++
      "let m: \x7b n: typeof o.n \x7d; \x7d")).map (·.tree.mentions "n") = some false := by
  decide +kernel

/-- Values, targets, defaults, shorthands, the heads of members, components and types do. -/
example : ["() => n", "class C \x7b m() \x7b return n \x7d \x7d", "function f(a = n) \x7b\x7d",
    "[n] = a", "f(\x7b n \x7d)", "f(\x7b [n]: 1 \x7d)", "n.a", "<n.a />", "let a: n", "let a: n.b",
    "let a: typeof n"].all (fun source =>
      ((Program.parse? .typeScriptWithMarkup true source).map (·.tree.mentions "n")) ==
        some true) = true := by
  decide +kernel

end Concise.Tree
