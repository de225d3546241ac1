import Mathlib.Data.List.Induction
import Concise.Proofs.Findings

/-!
Carrying out a plan.

* `Plan.get?_insert`, `Plan.get?_erase`: a plan is a map from spans to simplifications, and
  `Plan.get?_ofCandidates` reads the map off the candidates: the last one with a span counts.
* `Tree.shortens`: a pass with a state does what shortening by a choice does, as long as the state
  answers for the properties that are still ahead as the choice does. The invariant speaks of the
  list of the properties ahead, so that one induction over the tree serves every state.
* `Progress.Pursues`: that invariant for a plan being carried out, with the accounts of what has
  been done. `Progress.Pursues.step` is the step, `Tree.carryOut_eq` the whole pass.
* `Tree.pursues_ofCandidates`: where spans are distinct, every part of the candidates of a scan
  gives such a plan.
-/

namespace Concise

variable {choice : Property → Option Simplification}

/-! ### Plans as maps -/

namespace Plan

@[simp] lemma get?_nil (span : Span) : get? [] span = none := rfl

@[simp] lemma get?_cons (plan : Plan) (first other : Span) (s : Simplification) :
    get? ((first, s) :: plan) other = if other = first then some s else plan.get? other := by
  rw [get?, List.lookup_cons]
  by_cases hother : other = first
  · simp [hother]
  · rw [beq_eq_false_iff_ne.mpr hother, if_neg hother]
    rfl

@[simp] lemma get?_erase (plan : Plan) (span other : Span) :
    (plan.erase span).get? other = if other = span then none else plan.get? other := by
  induction plan with
  | nil => simp [erase]
  | cons entry plan ih =>
      obtain ⟨first, s⟩ := entry
      rw [erase] at ih ⊢
      by_cases hfirst : first = span
      · subst hfirst
        rw [List.filter_cons_of_neg (by simp), ih, get?_cons]
        split_ifs <;> rfl
      · rw [List.filter_cons_of_pos (by simpa using hfirst), get?_cons, get?_cons, ih]
        by_cases hother : other = first
        · rw [if_pos hother, if_neg (by rwa [hother]), if_pos hother]
        · rw [if_neg hother, if_neg hother]

@[simp] lemma get?_insert (plan : Plan) (span other : Span) (s : Simplification) :
    (plan.insert span s).get? other = if other = span then some s else plan.get? other := by
  show get? ((span, s) :: plan.erase span) other = _
  rw [get?_cons, get?_erase]
  split_ifs <;> rfl

/-- A planned span has an entry. -/
lemma get?_isSome_of_mem {plan : Plan} {entry : Span × Simplification} (h : entry ∈ plan) :
    (plan.get? entry.1).isSome := by
  rw [Option.isSome_iff_ne_none, get?, ne_eq, List.lookup_eq_none_iff]
  exact fun hnone => by simpa using hnone entry h

/-- **The plan that candidates make**: for every span the last candidate counts. -/
lemma get?_ofCandidates (candidates : List Candidate) (span : Span) :
    (ofCandidates candidates).get? span =
      ((candidates.filter fun c => c.span = span).getLast?).map Candidate.simplification := by
  induction candidates using List.reverseRecOn with
  | nil => rfl
  | append_singleton candidates c ih =>
      have hlast : ofCandidates (candidates ++ [c]) =
          (ofCandidates candidates).insert c.span c.simplification := by
        simp [ofCandidates, List.foldl_append]
      rw [hlast, get?_insert, ih, List.filter_append]
      by_cases hspan : span = c.span
      · simp [hspan]
      · simp [hspan, Ne.symm hspan]

/-- What is planned comes from a candidate. -/
lemma exists_of_get?_ofCandidates {candidates : List Candidate} {span : Span} {s : Simplification}
    (h : (ofCandidates candidates).get? span = some s) :
    ∃ c ∈ candidates, c.span = span ∧ c.simplification = s := by
  rw [get?_ofCandidates, Option.map_eq_some_iff] at h
  obtain ⟨c, hc, rfl⟩ := h
  have hmem := List.mem_filter.mp (List.mem_of_getLast? hc)
  exact ⟨c, hmem.1, by simpa using hmem.2, rfl⟩

/-- The span of every candidate is planned. -/
lemma isSome_get?_ofCandidates {candidates : List Candidate} {c : Candidate}
    (h : c ∈ candidates) : ((ofCandidates candidates).get? c.span).isSome := by
  have hne : (candidates.filter fun d => d.span = c.span) ≠ [] :=
    List.ne_nil_of_mem (List.mem_filter.mpr ⟨h, by simp⟩)
  rw [get?_ofCandidates, Option.isSome_map, List.getLast?_eq_some_getLast hne]
  rfl

/-- The choice that a plan is: every property gets what is planned for its span. -/
def asChoice (plan : Plan) (p : Property) : Option Simplification := plan.get? p.span

/-- A plan finds a property again after it has been shortened. -/
@[simp] lemma asChoice_shortenedBy (plan : Plan) (p : Property) :
    plan.asChoice (p.shortenedBy choice) = plan.asChoice p := by
  rw [asChoice, Property.span_shortenedBy]
  rfl

end Plan

/-! ### Passes with a state -/

section Pass

variable {σ : Type} {choose : Property → σ → Option Simplification × σ}

namespace Tree

/-- A pass over a property: the property is offered, then its key unless that is dropped, then its
value. -/
lemma simplifyWith_property (span : Span) (form : PropertyForm) (key value : Tree) (s : σ) :
    (property span form key value).simplifyWith choose s =
      let p : Property := ⟨span, form, key, value⟩
      let chosen := (choose p s).1
      let keyed :=
        if Property.dropsKey value chosen then (key, (choose p s).2)
        else key.simplifyWith choose (choose p s).2
      let valued := value.simplifyWith choose keyed.2
      ((Property.simplifiedBy ⟨span, form, keyed.1, valued.1⟩ chosen).tree, valued.2) := by
  rw [simplifyWith]

/-- A key that is dropped need not be shortened. -/
lemma simplifiedBy_of_dropsKey {value : Tree} {chosen : Option Simplification}
    (h : Property.dropsKey value chosen) (span : Span) (form : PropertyForm) (key key' : Tree) :
    Property.simplifiedBy ⟨span, form, key, value.shortenedBy choice⟩ chosen =
      Property.simplifiedBy ⟨span, form, key', value.shortenedBy choice⟩ chosen := by
  unfold Property.dropsKey at h
  split at h
  · rfl
  · cases h

/-- A pass shortens a tree by a choice, if `Inv` relates the properties that are still ahead to the
state at the beginning; then it relates those after the tree to the state at the end. -/
def Shortens (choose : Property → σ → Option Simplification × σ)
    (choice : Property → Option Simplification) (Inv : List Property → σ → Prop) (t : Tree) : Prop :=
  ∀ ahead s, Inv (t.properties ++ ahead) s →
    (t.simplifyWith choose s).1 = t.shortenedBy choice ∧ Inv ahead (t.simplifyWith choose s).2

variable {Inv : List Property → σ → Prop}

/-- Trees are shortened one after the other. -/
lemma simplifyAllWith_eq {ts : List Tree} (h : ∀ t ∈ ts, t.Shortens choose choice Inv) :
    ∀ ahead s, Inv (ts.flatMap properties ++ ahead) s →
      (simplifyAllWith choose ts s).1 = ts.map (shortenedBy choice) ∧
        Inv ahead (simplifyAllWith choose ts s).2 := by
  induction ts with
  | nil => exact fun _ _ hinv => ⟨rfl, hinv⟩
  | cons t ts ih =>
      intro ahead s hinv
      obtain ⟨ht, hts⟩ := List.forall_mem_cons.mp h
      rw [List.flatMap_cons, List.append_assoc] at hinv
      obtain ⟨hhead, hinv⟩ := ht _ s hinv
      obtain ⟨htail, hinv⟩ := ih hts ahead _ hinv
      rw [simplifyAllWith, List.map_cons, ← hhead, ← htail]
      exact ⟨rfl, hinv⟩

variable (hstep : ∀ p ahead s, Inv (p :: ahead) s →
  (choose p s).1 = choice p ∧ Inv ahead (choose p s).2)

include hstep

/-- A property is offered, and then its key and its value are shortened. -/
lemma shortens_property {p : Property} (h : Apt choice p.tree.properties)
    (hkey : p.key.Shortens choose choice Inv) (hvalue : p.value.Shortens choose choice Inv) :
    p.tree.Shortens choose choice Inv := by
  intro ahead s hinv
  rw [Property.tree, properties, List.cons_append, List.append_assoc] at hinv
  obtain ⟨hchosen, hinv⟩ := hstep p _ s hinv
  rw [Property.tree, simplifyWith_property, shortenedBy_property]
  simp only [hchosen]
  split_ifs with hdrop
  · -- only leaves are dropped, so nothing ahead is skipped
    have hnone : p.key.properties = [] := by
      cases hchoice : choice p with
      | none => simp [hchoice, Property.dropsKey] at hdrop
      | some x => exact (h p p.mem_properties x hchoice).1.properties_eq
    rw [hnone, List.nil_append] at hinv
    obtain ⟨hvalue, hinv⟩ := hvalue _ _ hinv
    refine ⟨?_, hinv⟩
    rw [hvalue, simplifiedBy_of_dropsKey hdrop p.span p.form p.key (p.key.shortenedBy choice)]
    rfl
  · obtain ⟨hkey, hinv⟩ := hkey _ _ hinv
    obtain ⟨hvalue, hinv⟩ := hvalue _ _ hinv
    refine ⟨?_, hinv⟩
    rw [hkey, hvalue]
    rfl

/-- **A pass with a state is shortening by a choice**, if the state keeps answering as the choice
does. -/
lemma shortens {t : Tree} (h : Apt choice t.properties) : t.Shortens choose choice Inv := by
  induction t with
  | reference span name => exact fun _ _ hinv => ⟨rfl, hinv⟩
  | property span form key value ihKey ihValue =>
      exact shortens_property hstep (p := ⟨span, form, key, value⟩) h
        (ihKey (h.part (by simp [parts]))) (ihValue (h.part (by simp [parts])))
  | function span head typeParameters this parameters returned body ih₁ ih₂ ih₃ ih₄ ih₅ =>
      intro ahead s hinv
      have hall := @simplifyAllWith_eq choice σ choose Inv
        [typeParameters, this, parameters, returned, body]
        (by simpa using ⟨ih₁ (h.part (by simp [parts])), ih₂ (h.part (by simp [parts])),
          ih₃ (h.part (by simp [parts])), ih₄ (h.part (by simp [parts])),
          ih₅ (h.part (by simp [parts]))⟩) ahead s (by simpa [properties] using hinv)
      simpa [simplifyAllWith, simplifyWith, shortenedBy] using hall
  | node kind span parts ih =>
      intro ahead s hinv
      rw [properties, propertiesAll_eq] at hinv
      obtain ⟨hparts, hinv⟩ := simplifyAllWith_eq (fun t ht => ih t ht (h.part ht)) ahead s hinv
      rw [simplifyWith, shortenedBy_node, ← hparts]
      exact ⟨rfl, hinv⟩

end Tree

end Pass

/-! ### A plan being carried out -/

/-- A plan being carried out *pursues* a choice on the properties that are still ahead: it plans for
them what the choice says, everything it plans lies ahead, and what has been counted makes up, with
what is chosen ahead, the same total. -/
structure Progress.Pursues (choice : Property → Option Simplification) (total : Counts)
    (ahead : List Property) (progress : Progress) : Prop where
  apt : Apt choice ahead
  distinct : (ahead.map Property.span).Nodup
  planned : ∀ p ∈ ahead, progress.plan.get? p.span = choice p
  ahead_of_mem : ∀ entry ∈ progress.plan, ∃ p ∈ ahead, p.span = entry.1
  shorthand : progress.counts.shorthand + ahead.countP (fun p => choice p = some .shorthand) =
    total.shorthand
  methods : progress.counts.methods + ahead.countP (fun p => choice p = some .method) =
    total.methods

namespace Progress.Pursues

variable {total : Counts} {ahead : List Property} {progress : Progress}

/-- **The step**: a property is offered what the choice says, and the rest is pursued further. -/
lemma step {p : Property} (h : progress.Pursues choice total (p :: ahead)) :
    (choose p progress).1 = choice p ∧ (choose p progress).2.Pursues choice total ahead := by
  have hplanned := h.planned p (by simp)
  have hdistinct := List.nodup_cons.mp h.distinct
  have hapt : Apt choice ahead := h.apt.mono (by simp)
  have hrest : ∀ q ∈ ahead, q.span ≠ p.span := by
    intro q hq hspan
    exact hdistinct.1 (List.mem_map.mpr ⟨q, hq, hspan⟩)
  have hshorthand := h.shorthand
  have hmethods := h.methods
  rw [List.countP_cons] at hshorthand hmethods
  unfold choose
  rw [hplanned]
  cases hchoice : choice p with
  | none =>
      refine ⟨rfl, hapt, hdistinct.2, fun q hq => h.planned q (by simp [hq]), ?_, ?_, ?_⟩
      · intro entry hentry
        obtain ⟨q, hq, hspan⟩ := h.ahead_of_mem entry hentry
        rcases List.mem_cons.mp hq with rfl | hq
        · -- the property that was offered nothing has no entry
          have hsome := Plan.get?_isSome_of_mem hentry
          rw [← hspan, hplanned, hchoice] at hsome
          cases hsome
        · exact ⟨q, hq, hspan⟩
      · simpa [hchoice] using hshorthand
      · simpa [hchoice] using hmethods
  | some s =>
      have hfits : (p.simplified? s).isSome := (h.apt p (by simp) s hchoice).2
      simp only [hfits, if_true]
      refine ⟨trivial, hapt, hdistinct.2, ?_, ?_, ?_, ?_⟩
      · intro q hq
        rw [Plan.get?_erase, if_neg (hrest q hq), h.planned q (by simp [hq])]
      · intro entry hentry
        obtain ⟨hentry, hspan⟩ := List.mem_filter.mp hentry
        obtain ⟨q, hq, hqspan⟩ := h.ahead_of_mem entry hentry
        rcases List.mem_cons.mp hq with rfl | hq
        · simp [hqspan] at hspan
        · exact ⟨q, hq, hqspan⟩
      · cases s <;> simp [hchoice] at hshorthand <;> simp [Counts.record] <;> omega
      · cases s <;> simp [hchoice] at hmethods <;> simp [Counts.record] <;> omega

/-- Once nothing is ahead, no entry is left and the account is complete. -/
lemma finish (h : progress.Pursues choice total []) :
    progress.pending = 0 ∧ progress.counts.shorthand = total.shorthand ∧
      progress.counts.methods = total.methods := by
  refine ⟨?_, by simpa using h.shorthand, by simpa using h.methods⟩
  rw [pending, List.length_eq_zero_iff, List.eq_nil_iff_forall_not_mem]
  intro entry hentry
  obtain ⟨p, hp, -⟩ := h.ahead_of_mem entry hentry
  cases hp

end Progress.Pursues

namespace Tree

/-- **The whole pass**: carrying out a plan that pursues a choice is shortening by that choice, and
uses the plan up. -/
lemma carryOut_eq {t : Tree} {total : Counts} {progress : Progress}
    (h : progress.Pursues choice total t.properties) :
    (t.carryOut progress).1 = t.shortenedBy choice ∧
      (t.carryOut progress).2.Pursues choice total [] :=
  shortens (fun _ _ _ hpursues => hpursues.step) h.apt [] progress (by rwa [List.append_nil])

/-- Candidates whose spans are those of properties make a plan that pursues what it plans. -/
lemma pursues_ofCandidates {t : Tree} {candidates : List Candidate} (hdistinct : t.HasDistinctSpans)
    (hapt : Apt (Plan.ofCandidates candidates).asChoice t.properties)
    (hspans : ∀ c ∈ candidates, ∃ p ∈ t.properties, p.span = c.span) :
    (Progress.ofCandidates candidates).Pursues (Plan.ofCandidates candidates).asChoice
      { shorthand := t.properties.countP fun p =>
          (Plan.ofCandidates candidates).asChoice p = some .shorthand
        methods := t.properties.countP fun p =>
          (Plan.ofCandidates candidates).asChoice p = some .method }
      t.properties where
  apt := hapt
  distinct := hdistinct
  planned := fun _ _ => rfl
  ahead_of_mem := by
    intro entry hentry
    obtain ⟨s, hs⟩ := Option.isSome_iff_exists.mp (Plan.get?_isSome_of_mem hentry)
    obtain ⟨c, hc, hspan, -⟩ := Plan.exists_of_get?_ofCandidates hs
    rw [← hspan]
    exact hspans c hc
  shorthand := Nat.zero_add _
  methods := Nat.zero_add _

/-! ### The candidates of a scan -/

lemma mem_candidates {t : Tree} {c : Candidate} :
    c ∈ (t.scan Property.classify?).candidates ↔
      ∃ p ∈ t.properties, ∃ s, p.eligible? = some s ∧ p.candidate s = c := by
  simp [scan_classify?, List.mem_filterMap]

variable {t : Tree} {candidates : List Candidate}

/-- **What some of the candidates plan**: for each of them the simplification that its property is
eligible for, and nothing for the other properties. -/
lemma asChoice_ofCandidates (hdistinct : t.HasDistinctSpans)
    (hsub : candidates ⊆ (t.scan Property.classify?).candidates) {p : Property}
    (hp : p ∈ t.properties) :
    (Plan.ofCandidates candidates).asChoice p =
      p.eligible?.filter fun s => p.candidate s ∈ candidates := by
  have hplanned : ∀ {s}, (Plan.ofCandidates candidates).asChoice p = some s →
      p.eligible? = some s ∧ p.candidate s ∈ candidates := by
    intro s hs
    obtain ⟨c, hc, hspan, hsimplification⟩ := Plan.exists_of_get?_ofCandidates hs
    obtain ⟨q, hq, x, hx, rfl⟩ := mem_candidates.mp (hsub hc)
    -- the candidate is the one of this very property
    obtain rfl : q = p := hdistinct.eq_of_span_eq hq hp hspan
    obtain rfl : x = s := hsimplification
    exact ⟨hx, hc⟩
  refine Option.ext fun s => ?_
  rw [Option.filter_eq_some_iff]
  constructor
  · intro hs
    obtain ⟨heligible, hmem⟩ := hplanned hs
    exact ⟨heligible, by simpa using hmem⟩
  · rintro ⟨heligible, hmem⟩
    obtain ⟨x, hx⟩ := Option.isSome_iff_exists.mp
      (Plan.isSome_get?_ofCandidates (decide_eq_true_eq.mp hmem))
    have hx : (Plan.ofCandidates candidates).asChoice p = some x := hx
    rwa [← Option.some.inj (heligible.symm.trans (hplanned hx).1)] at hx

/-- Every candidate stands for a property. -/
lemma exists_of_mem_candidates (hsub : candidates ⊆ (t.scan Property.classify?).candidates) :
    ∀ c ∈ candidates, ∃ p ∈ t.properties, p.span = c.span := by
  intro c hc
  obtain ⟨p, hp, s, -, rfl⟩ := mem_candidates.mp (hsub hc)
  exact ⟨p, hp, rfl⟩

/-- Some of the candidates choose only what is eligible. -/
lemma eligible?_of_asChoice (hdistinct : t.HasDistinctSpans)
    (hsub : candidates ⊆ (t.scan Property.classify?).candidates) :
    ∀ p ∈ t.properties, ∀ s, (Plan.ofCandidates candidates).asChoice p = some s →
      p.eligible? = some s := by
  intro p hp s hs
  rw [asChoice_ofCandidates hdistinct hsub hp, Option.filter_eq_some_iff] at hs
  exact hs.1

/-- **Carrying out some of the candidates** shortens the tree by what they plan. -/
lemma carryOut_ofCandidates (hdistinct : t.HasDistinctSpans)
    (hsub : candidates ⊆ (t.scan Property.classify?).candidates) :
    (t.carryOut (.ofCandidates candidates)).1 =
      t.shortenedBy (Plan.ofCandidates candidates).asChoice :=
  (carryOut_eq (pursues_ofCandidates hdistinct
    (apt_of_eligible? (eligible?_of_asChoice hdistinct hsub))
    (exists_of_mem_candidates hsub))).1

end Tree

end Concise
