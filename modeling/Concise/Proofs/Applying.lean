import Concise.Proofs.Passes

/-!
Carrying a simplification out on one property, by its index in document order.

The pass that does so counts down while it goes by properties, asks for the simplification at one of
them, and then does nothing any more.

* `Tree.simplifyWith_idle`: where nothing is chosen, nothing changes.
* `Pass.Picks`: what such a pass makes of the properties of a tree. Either there are too few of
  them, or the one with the index is offered the simplification, and that is all that can change.
* `Tree.applyAt_of_none`, `Tree.applyAt_of_some`: what the application gives.
* `Tree.eq_of_applyAt_eq_false`, `Tree.applyAt_applyAt`: **a refusal changes nothing, and neither
  does a repetition.**
-/

namespace Concise

/-! ### Where nothing is chosen -/

namespace Tree

section Idle

variable {σ : Type} {choose : Property → σ → Option Simplification × σ} {s : σ}

lemma simplifyAllWith_idle {ts : List Tree} (h : ∀ t ∈ ts, t.simplifyWith choose s = (t, s)) :
    simplifyAllWith choose ts s = (ts, s) := by
  induction ts with
  | nil => rfl
  | cons t ts ih =>
      obtain ⟨ht, hts⟩ := List.forall_mem_cons.mp h
      simp only [simplifyAllWith, ht, ih hts]

/-- A pass that chooses nothing, and whose state stays as it is, changes nothing. -/
lemma simplifyWith_idle (h : ∀ p, choose p s = (none, s)) (t : Tree) :
    t.simplifyWith choose s = (t, s) := by
  induction t with
  | reference span name => rfl
  | property span form key value ihKey ihValue =>
      rw [simplifyWith_property]
      simp only [h, Property.dropsKey, Bool.false_eq_true, if_false, ihKey, ihValue]
      rfl
  | function span head typeParameters this parameters returned body ih₁ ih₂ ih₃ ih₄ ih₅ =>
      simp only [simplifyWith, ih₁, ih₂, ih₃, ih₄, ih₅]
  | node kind span parts ih => simp only [simplifyWith, simplifyAllWith_idle ih]

end Idle

end Tree

/-! ### One among many -/

namespace Pass

/-- The choice that lets a number of properties go by and asks for a simplification of the next. The
flag says whether that property took it. -/
def pick (simplification : Simplification) (p : Property) :
    Nat × Bool → Option Simplification × (Nat × Bool)
  | (0, taken) => (none, (0, taken))
  | (1, _) => (some simplification, (0, (p.simplified? simplification).isSome))
  | (left + 2, taken) => (none, (left + 1, taken))

/-- What is picked among the properties `ps`, which become `qs` if `left` of them go by. The
proposition `same` says that the trees in which they stand are what they were. -/
structure Picks (s : Simplification) (left : Nat) (ps qs : List Property) (same : Prop)
    (last : Nat × Bool) : Prop where
  past : ps.length ≤ left → same ∧ last = (left - ps.length + 1, false)
  hit : ∀ p, ps[left]? = some p → last = (0, (p.simplified? s).isSome) ∧
    qs[left]? = some (p.simplifiedBy (some s)) ∧ (p.simplifiedBy (some s) = p → same)

variable {s : Simplification} {left : Nat} {ps qs : List Property} {same same' : Prop}
  {last : Nat × Bool}

/-- What is picked among the first properties is picked among all of them. -/
lemma Picks.append_right (h : Picks s left ps qs same last) (hsame : same → same')
    (hlt : left < ps.length) (rs : List Property) :
    Picks s left (ps ++ rs) (qs ++ rs) same' last where
  past hle := absurd hle (by rw [List.length_append]; omega)
  hit p hp := by
    rw [List.getElem?_append_left hlt] at hp
    obtain ⟨hlast, hq, himp⟩ := h.hit p hp
    have hlt' := (List.getElem?_eq_some_iff.mp hq).1
    exact ⟨hlast, by rw [List.getElem?_append_left hlt', hq], fun heq => hsame (himp heq)⟩

/-- Properties that go by have no part in what is picked, though something inside them may be. -/
lemma Picks.append_left (h : Picks s left ps qs same last) (hsame : same → same')
    (rs rs' : List Property) (hlength : rs'.length = rs.length) :
    Picks s (rs.length + left) (rs ++ ps) (rs' ++ qs) same' last where
  past hle := by
    rw [List.length_append] at hle ⊢
    obtain ⟨hsame', rfl⟩ := h.past (by omega)
    exact ⟨hsame hsame', by rw [Nat.add_sub_add_left]⟩
  hit p hp := by
    rw [List.getElem?_append_right (Nat.le_add_right _ _), Nat.add_sub_cancel_left] at hp
    obtain ⟨hlast, hq, himp⟩ := h.hit p hp
    rw [← hlength, List.getElem?_append_right (Nat.le_add_right _ _), Nat.add_sub_cancel_left]
    exact ⟨hlast, hq, fun heq => hsame (himp heq)⟩

lemma Picks.cons (h : Picks s left ps qs same last) (hsame : same → same') {p q : Property} :
    Picks s (left + 1) (p :: ps) (q :: qs) same' last := by
  have happend := h.append_left hsame [p] [q] rfl
  rwa [List.length_singleton, Nat.add_comm] at happend

end Pass

open Pass

namespace Tree

variable {s : Simplification}

/-- Once a property has been picked, the pass is idle. -/
lemma simplifyWith_picked (t : Tree) (taken : Bool) :
    t.simplifyWith (pick s) (0, taken) = (t, (0, taken)) :=
  simplifyWith_idle (fun _ => by rw [pick]) t

/-- In some trees, one after the other. -/
lemma picksAll (ts : List Tree)
    (h : ∀ t ∈ ts, ∀ left, Picks s left t.properties
      (t.simplifyWith (pick s) (left + 1, false)).1.properties
      ((t.simplifyWith (pick s) (left + 1, false)).1 = t)
      (t.simplifyWith (pick s) (left + 1, false)).2) (left : Nat) :
    Picks s left (ts.flatMap properties)
      ((simplifyAllWith (pick s) ts (left + 1, false)).1.flatMap properties)
      ((simplifyAllWith (pick s) ts (left + 1, false)).1 = ts)
      (simplifyAllWith (pick s) ts (left + 1, false)).2 := by
  induction ts generalizing left with
  | nil => exact ⟨fun _ => ⟨rfl, rfl⟩, fun p hp => nomatch hp⟩
  | cons t ts ih =>
      obtain ⟨ht, hts⟩ := List.forall_mem_cons.mp h
      rw [simplifyAllWith]
      simp only [List.flatMap_cons]
      rcases Nat.lt_or_ge left t.properties.length with hlt | hle
      · -- the property stands in the first tree, so the pass is idle in the others
        obtain ⟨hlast, -⟩ := (ht left).hit _ (List.getElem?_eq_getElem hlt)
        rw [hlast, simplifyAllWith_idle fun u _ => simplifyWith_picked u _, ← hlast]
        exact (ht left).append_right (fun heq => by rw [heq]) hlt _
      · obtain ⟨later, rfl⟩ := Nat.exists_eq_add_of_le hle
        obtain ⟨heq, hlast⟩ := (ht _).past hle
        rw [heq, hlast, Nat.add_sub_cancel_left]
        exact (ih hts later).append_left (fun heq => by rw [heq]) _ _ rfl

/-- **What picking one property does to a tree.** -/
lemma picks (t : Tree) : ∀ left, Picks s left t.properties
    (t.simplifyWith (pick s) (left + 1, false)).1.properties
    ((t.simplifyWith (pick s) (left + 1, false)).1 = t)
    (t.simplifyWith (pick s) (left + 1, false)).2 := by
  induction t with
  | reference span name => exact fun left => ⟨fun _ => ⟨rfl, rfl⟩, fun p hp => nomatch hp⟩
  | property span form key value ihKey ihValue =>
      intro left
      rw [simplifyWith_property]
      cases left with
      | zero =>
          -- the property itself is picked; its key and its value stay
          simp only [pick, simplifyWith_picked, ite_self, properties]
          refine ⟨fun hle => absurd hle (by simp), fun p hp => ?_⟩
          obtain rfl := Option.some.inj hp
          exact ⟨rfl, rfl, fun heq => by rw [heq]; rfl⟩
      | succ left =>
          have hinside := picksAll [key, value] (by simpa using ⟨ihKey, ihValue⟩) left
          simp only [simplifyAllWith, List.flatMap_cons, List.flatMap_nil, List.append_nil]
            at hinside
          simp only [pick, Property.dropsKey, Bool.false_eq_true, if_false, Property.simplifiedBy,
            Property.tree, properties]
          exact hinside.cons fun heq => by simpa using heq
  | function span head typeParameters this parameters returned body ih₁ ih₂ ih₃ ih₄ ih₅ =>
      intro left
      have hparts := picksAll [typeParameters, this, parameters, returned, body]
        (by simpa using ⟨ih₁, ih₂, ih₃, ih₄, ih₅⟩) left
      simpa [simplifyAllWith, simplifyWith, properties] using hparts
  | node kind span parts ih =>
      intro left
      simpa [simplifyWith, properties] using picksAll parts ih left

/-! ### Application -/

variable {t : Tree} {index : Nat} {p q : Property}

lemma applyAt_eq (t : Tree) (index : Nat) (s : Simplification) :
    t.applyAt index s = ((t.simplifyWith (pick s) (index + 1, false)).1,
      (t.simplifyWith (pick s) (index + 1, false)).2.2) := rfl

/-- Where there is no such property, there is nothing to simplify. -/
lemma applyAt_of_none (h : t.properties[index]? = none) : t.applyAt index s = (t, false) := by
  obtain ⟨heq, hlast⟩ := (t.picks index).past (List.getElem?_eq_none_iff.mp h)
  rw [applyAt_eq, heq, hlast]

/-- The property with the index is simplified, if it can be, and keeps its index. -/
lemma applyAt_of_some (h : t.properties[index]? = some p) :
    (t.applyAt index s).2 = (p.simplified? s).isSome ∧
      (t.applyAt index s).1.properties[index]? = some (p.simplifiedBy (some s)) ∧
        (p.simplifiedBy (some s) = p → (t.applyAt index s).1 = t) := by
  obtain ⟨hlast, hq, himp⟩ := (t.picks index).hit p h
  rw [applyAt_eq, hlast]
  exact ⟨rfl, hq, himp⟩

/-- **A refusal changes nothing.** -/
lemma eq_of_applyAt_eq_false (h : (t.applyAt index s).2 = false) : (t.applyAt index s).1 = t := by
  cases hp : t.properties[index]? with
  | none => rw [applyAt_of_none hp]
  | some p =>
      obtain ⟨htaken, -, himp⟩ := applyAt_of_some hp
      have hnone : p.simplified? s = none := by
        rw [← Option.not_isSome_iff_eq_none, ← htaken, h]
        exact Bool.false_ne_true
      exact himp (by rw [Property.simplifiedBy, hnone, Option.getD_none])

/-- What was accepted has been carried out on the property with the index. -/
lemma exists_of_applyAt_eq_true (h : (t.applyAt index s).2 = true) :
    ∃ p q, t.properties[index]? = some p ∧ p.simplified? s = some q ∧
      (t.applyAt index s).1.properties[index]? = some q := by
  cases hp : t.properties[index]? with
  | none => simp [applyAt_of_none hp] at h
  | some p =>
      obtain ⟨htaken, hq, -⟩ := applyAt_of_some hp
      obtain ⟨q, hsimplified⟩ := Option.isSome_iff_exists.mp (htaken ▸ h)
      rw [Property.simplifiedBy, hsimplified, Option.getD_some] at hq
      exact ⟨p, q, rfl, hsimplified, hq⟩

/-- **A repetition changes nothing**, and it is accepted again. -/
lemma applyAt_applyAt (h : (t.applyAt index s).2 = true) :
    (t.applyAt index s).1.applyAt index s = ((t.applyAt index s).1, true) := by
  obtain ⟨p, q, -, hsimplified, hq⟩ := exists_of_applyAt_eq_true h
  have hself : q = p.simplifiedBy (some s) := by
    rw [Property.simplifiedBy, hsimplified, Option.getD_some]
  obtain ⟨htaken, -, himp⟩ := applyAt_of_some (s := s) hq
  have hsame : q.simplifiedBy (some s) = q := by
    rw [hself, Property.simplifiedBy_simplifiedBy p (.inr (.inr rfl))]
    rfl
  rw [hself, Property.isSome_simplified?_simplifiedBy, hsimplified] at htaken
  exact Prod.ext (himp hsame) htaken

end Tree

end Concise
