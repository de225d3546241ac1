import Mathlib.Data.List.Lex
import Concise.Proofs.Structure

/-!
The addresses of a tree, in document order.

An address gives the index of a part for each step away from the root (`Tree.at?`), so the order in
which a walk comes to the trees inside a tree is the lexicographic order of their addresses: a tree
comes before what stands inside it, and an earlier part with all that it holds before a later one.

* `Tree.addresses` lists the addresses of a tree. They are those at which something stands
  (`mem_addresses`), and they are increasing (`pairwise_addresses`); an increasing list is known
  from its members, so there is no other such list.
* `Tree.eq_filterMap_addresses`: **a list that is gathered from a tree and then from its parts is a
  list over the addresses.** The properties are such a list (`properties_eq_filterMap`). What is in
  it stands at some address (`mem_iff_exists_at?`).
-/

namespace Concise.Tree

mutual

/-- The addresses of a tree, each before those that go on from it. -/
def addresses : Tree → List (List Nat)
  | reference _ _ => [[]]
  | property _ _ key value =>
      [] :: (key.addresses.map (0 :: ·) ++ value.addresses.map (1 :: ·))
  | function _ _ typeParameters this parameters returned body =>
      [] :: (typeParameters.addresses.map (0 :: ·) ++ (this.addresses.map (1 :: ·) ++
        (parameters.addresses.map (2 :: ·) ++ (returned.addresses.map (3 :: ·) ++
          body.addresses.map (4 :: ·)))))
  | node _ _ parts => [] :: addressesFrom 0 parts

/-- The addresses in trees that are consecutive parts, the first of them at the given index. -/
def addressesFrom : Nat → List Tree → List (List Nat)
  | _, [] => []
  | index, t :: ts => t.addresses.map (index :: ·) ++ addressesFrom (index + 1) ts

end

lemma addresses_eq (t : Tree) : t.addresses = [] :: addressesFrom 0 t.parts := by
  cases t <;> simp [addresses, addressesFrom, parts]

/-! ### Where something stands -/

lemma mem_addressesFrom {path : List Nat} {first : Nat} {ts : List Tree} :
    path ∈ addressesFrom first ts ↔
      ∃ index rest, path = (first + index) :: rest ∧ ∃ t, ts[index]? = some t ∧
        rest ∈ t.addresses := by
  induction ts generalizing first with
  | nil => simp [addressesFrom]
  | cons t ts ih =>
      rw [addressesFrom, List.mem_append, List.mem_map, ih]
      constructor
      · rintro (⟨rest, hrest, rfl⟩ | ⟨index, rest, rfl, u, hu, hrest⟩)
        · exact ⟨0, rest, rfl, t, rfl, hrest⟩
        · exact ⟨index + 1, rest, by rw [Nat.add_right_comm, Nat.add_assoc], u, hu, hrest⟩
      · rintro ⟨_ | index, rest, rfl, u, hu, hrest⟩
        · obtain rfl := Option.some.inj hu
          exact .inl ⟨rest, hrest, rfl⟩
        · exact .inr ⟨index, rest, by rw [Nat.add_right_comm, Nat.add_assoc], u, hu, hrest⟩

/-- The addresses of a tree are those at which something stands. -/
lemma mem_addresses {path : List Nat} {t : Tree} :
    path ∈ t.addresses ↔ (t.at? path).isSome = true := by
  induction path generalizing t with
  | nil => simp [addresses_eq, at?]
  | cons index rest ih =>
      rw [addresses_eq, List.mem_cons, mem_addressesFrom, at?_cons]
      constructor
      · rintro (h | ⟨_, _, h, part, hpart, hrest⟩)
        · cases h
        · obtain ⟨rfl, rfl⟩ := List.cons.inj h
          rw [Nat.zero_add, hpart]
          exact ih.mp hrest
      · intro h
        obtain ⟨u, hu⟩ := Option.isSome_iff_exists.mp h
        obtain ⟨part, hpart, hat⟩ := Option.bind_eq_some_iff.mp hu
        refine .inr ⟨index, rest, by rw [Nat.zero_add], part, hpart, ih.mpr ?_⟩
        rw [hat]
        rfl

/-! ### Document order -/

lemma pairwise_addressesFrom {ts : List Tree} (h : ∀ t ∈ ts, t.addresses.Pairwise (· < ·)) :
    ∀ first, (addressesFrom first ts).Pairwise (· < ·) := by
  induction ts with
  | nil => exact fun _ => .nil
  | cons t ts ih =>
      intro first
      obtain ⟨ht, hts⟩ := List.forall_mem_cons.mp h
      rw [addressesFrom, List.pairwise_append, List.pairwise_map]
      refine ⟨ht.imp fun hlt => List.Lex.cons hlt, ih hts (first + 1), ?_⟩
      intro path hpath path' hpath'
      obtain ⟨rest, -, rfl⟩ := List.mem_map.mp hpath
      obtain ⟨index, rest', rfl, -⟩ := mem_addressesFrom.mp hpath'
      exact List.Lex.rel (by omega)

/-- The addresses of a tree are increasing. -/
lemma pairwise_addresses (t : Tree) : t.addresses.Pairwise (· < ·) := by
  induction t using indParts with
  | h t ih =>
      rw [addresses_eq, List.pairwise_cons]
      refine ⟨fun path hpath => ?_, pairwise_addressesFrom ih 0⟩
      obtain ⟨index, rest, rfl, -⟩ := mem_addressesFrom.mp hpath
      exact List.Lex.nil

/-! ### Gathering -/

section Gathering

variable {α : Type} {all : Tree → List α} {own : Tree → Option α}

/-- What is gathered from the parts of a tree is gathered over their addresses. -/
lemma filterMap_addressesFrom {ts : List Tree}
    (h : ∀ t ∈ ts, all t = t.addresses.filterMap fun path => (t.at? path).bind own)
    {first : Nat} {look : List Nat → Option α}
    (hlook : ∀ index t, ts[index]? = some t →
      ∀ rest, look ((first + index) :: rest) = (t.at? rest).bind own) :
    (addressesFrom first ts).filterMap look = ts.flatMap all := by
  induction ts generalizing first with
  | nil => rfl
  | cons t ts ih =>
      obtain ⟨ht, hts⟩ := List.forall_mem_cons.mp h
      have hhead : (look ∘ fun rest => first :: rest) = fun rest => (t.at? rest).bind own :=
        funext fun rest => hlook 0 t rfl rest
      have htail := @ih hts (first + 1) fun index u hu rest => by
        rw [Nat.add_assoc, Nat.add_comm 1]
        exact hlook (index + 1) u hu rest
      rw [addressesFrom, List.filterMap_append, List.filterMap_map, hhead, ← ht, htail,
        List.flatMap_cons]

/-- **A list that is gathered from a tree and then from its parts is a list over the addresses.** -/
lemma eq_filterMap_addresses (h : ∀ t, all t = (own t).toList ++ t.parts.flatMap all) (t : Tree) :
    all t = t.addresses.filterMap fun path => (t.at? path).bind own := by
  induction t using indParts with
  | h t ih =>
      have hparts : (addressesFrom 0 t.parts).filterMap (fun path => (t.at? path).bind own) =
          t.parts.flatMap all := by
        refine filterMap_addressesFrom ih fun index part hpart rest => ?_
        rw [Nat.zero_add, at?_cons, hpart, Option.bind_some]
      rw [h t, addresses_eq, List.filterMap_cons, hparts]
      simp only [at?, Option.bind_some]
      cases own t <;> rfl

/-- What is gathered from a tree stands at its addresses. -/
lemma mem_iff_exists_at? (h : ∀ t, all t = (own t).toList ++ t.parts.flatMap all) {t : Tree}
    {a : α} : a ∈ all t ↔ ∃ path u, t.at? path = some u ∧ own u = some a := by
  rw [eq_filterMap_addresses h, List.mem_filterMap]
  constructor
  · rintro ⟨path, -, hpath⟩
    exact ⟨path, Option.bind_eq_some_iff.mp hpath⟩
  · rintro ⟨path, u, hu, ha⟩
    exact ⟨path, mem_addresses.mpr (hu ▸ rfl), Option.bind_eq_some_iff.mpr ⟨u, hu, ha⟩⟩

end Gathering

/-- The properties of a tree stand at its addresses, in document order. -/
lemma properties_eq_filterMap (t : Tree) :
    t.properties = t.addresses.filterMap fun path => (t.at? path).bind toProperty? :=
  eq_filterMap_addresses properties_eq t

end Concise.Tree
