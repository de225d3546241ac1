import Mathlib.Data.List.Dedup
import Mathlib.Logic.Function.Iterate
import Concise.Proofs.Passes

/-!
Carrying out any plan.

Candidates may be made up: their spans may be those of no property, one span may occur several
times, and several properties of a tree may have one span. An entry of the plan goes to the first
property with its span that the pass meets, and is used up even if the property refuses.

* `Plan.spans_ofCandidates`: a plan has one entry for each span of its candidates.
* `Progress.spans_stateAfter`, `Progress.fst_choose_stateAfter` and `Progress.account_stateAfter`:
  what is left of a plan after some properties have been met, what the next one is offered, and that
  every entry is carried out, refused or left.
* `Tree.carryOut_of_unplanned`: where nothing is planned, nothing happens.
* `Tree.carryOut_once` (**a plan is carried out exactly once**).
-/

namespace Concise

open Pass

/-! ### The spans of a plan -/

namespace Plan

/-- The spans that are planned for. -/
def spans (plan : Plan) : List Span := plan.map Prod.fst

lemma get?_eq_none_iff {plan : Plan} {span : Span} : plan.get? span = none ↔ span ∉ plan.spans := by
  simp only [get?, List.lookup_eq_none_iff, spans, List.mem_map, not_exists, not_and]
  constructor
  · rintro h entry hentry rfl
    simpa using h entry hentry
  · intro h entry hentry
    simpa using fun hspan => h entry hentry hspan.symm

lemma spans_erase (plan : Plan) (span : Span) :
    (plan.erase span).spans = plan.spans.filter fun other => other ≠ span := by
  simp only [spans, erase, List.filter_map]
  congr 1
  exact List.filter_congr fun entry _ => by simp [bne, Bool.beq_eq_decide_eq]

lemma erase_of_get?_eq_none {plan : Plan} {span : Span} (h : plan.get? span = none) :
    plan.erase span = plan := by
  refine List.filter_eq_self.mpr fun entry hentry => ?_
  rw [bne_iff_ne]
  rintro rfl
  exact get?_eq_none_iff.mp h (List.mem_map_of_mem hentry)

/-- An entry that is taken out is the only one for its span. -/
lemma length_erase {plan : Plan} (hnodup : plan.spans.Nodup) {span : Span} {s : Simplification}
    (h : plan.get? span = some s) : (plan.erase span).length + 1 = plan.length := by
  have hmem : span ∈ plan.spans := by
    by_contra hnot
    rw [get?_eq_none_iff.mpr hnot] at h
    cases h
  have hlength : (plan.erase span).spans.length = (plan.spans.erase span).length := by
    rw [spans_erase, hnodup.erase_eq_filter]
    congr 1
    exact List.filter_congr fun other _ => by simp [bne, Bool.beq_eq_decide_eq]
  rw [List.length_erase_of_mem hmem] at hlength
  have hpos := List.length_pos_of_mem hmem
  simp only [spans, List.length_map] at hlength hpos
  omega

/-- No span is planned for twice. -/
lemma nodup_spans_ofCandidates (candidates : List Candidate) :
    (ofCandidates candidates).spans.Nodup := by
  induction candidates using List.reverseRecOn with
  | nil => exact List.nodup_nil
  | append_singleton candidates c ih =>
      have hlast : (ofCandidates (candidates ++ [c])).spans =
          c.span :: ((ofCandidates candidates).erase c.span).spans := by
        simp [ofCandidates, List.foldl_append, insert, spans, erase]
      rw [hlast, spans_erase]
      exact (ih.filter _).cons (by simp)

/-- **A plan has one entry for each span of its candidates.** -/
lemma spans_ofCandidates (candidates : List Candidate) :
    (ofCandidates candidates).spans.Perm (candidates.map Candidate.span).dedup := by
  refine (List.perm_ext_iff_of_nodup (nodup_spans_ofCandidates candidates)
    (List.nodup_dedup _)).mpr fun span => ?_
  rw [List.mem_dedup, List.mem_map]
  constructor
  · intro hspan
    obtain ⟨s, hs⟩ := Option.ne_none_iff_exists'.mp fun hnone => get?_eq_none_iff.mp hnone hspan
    obtain ⟨c, hc, hspan, -⟩ := exists_of_get?_ofCandidates hs
    exact ⟨c, hc, hspan⟩
  · rintro ⟨c, hc, rfl⟩
    by_contra hnot
    have hsome := isSome_get?_ofCandidates hc
    rw [get?_eq_none_iff.mpr hnot] at hsome
    cases hsome

/-- A property is planned for, and cannot be simplified like that. -/
def refuses (plan : Plan) (p : Property) : Bool :=
  (plan.get? p.span).any fun s => (p.simplified? s).isNone

lemma refuses_erase (plan : Plan) (span : Span) (p : Property) :
    (plan.erase span).refuses p = (decide (p.span ≠ span) && plan.refuses p) := by
  rw [refuses, get?_erase, refuses]
  by_cases h : p.span = span <;> simp [h]

end Plan

/-- The properties that have a span before any other one has it. -/
def Property.firsts : List Property → List Property
  | [] => []
  | p :: ps => p :: (firsts ps).filter fun q => q.span ≠ p.span

lemma Counts.simplified_record (counts : Counts) (s : Simplification) :
    (counts.record s).simplified = counts.simplified + 1 := by
  cases s <;> simp [record, simplified] <;> omega

/-! ### The step and the run -/

namespace Progress

variable {progress : Progress} {p : Property} {ps : List Property}

/-- **The step**: a property uses up the entry for its span, whether or not it refuses. -/
lemma plan_choose : (choose p progress).2.plan = progress.plan.erase p.span := by
  unfold choose
  split
  · rename_i hnone
    exact (Plan.erase_of_get?_eq_none hnone).symm
  · split <;> rfl

/-- What is planned is chosen, if the property does not refuse. -/
lemma fst_choose : (choose p progress).1 =
    (progress.plan.get? p.span).filter fun s => (p.simplified? s).isSome := by
  unfold choose
  split
  · rename_i hnone
    rw [hnone]
    rfl
  · rename_i s hs
    rw [hs, Option.filter_some]
    split <;> rfl

/-- An entry that is used up is carried out or refused. -/
lemma account_choose (hnodup : progress.plan.spans.Nodup) :
    (choose p progress).2.counts.simplified + (progress.plan.refuses p).toNat +
      (choose p progress).2.pending = progress.counts.simplified + progress.pending := by
  rw [pending, plan_choose, pending]
  cases hplanned : progress.plan.get? p.span with
  | none =>
      rw [Plan.erase_of_get?_eq_none hplanned]
      simp [choose, hplanned, Plan.refuses]
  | some s =>
      have hlength := Plan.length_erase hnodup hplanned
      cases hfits : p.simplified? s with
      | none =>
          simp only [choose, hplanned, hfits, Plan.refuses, Option.any_some, Option.isNone_none,
            Option.isSome_none, Bool.false_eq_true, if_false, Bool.toNat_true]
          omega
      | some q =>
          simp only [choose, hplanned, hfits, Plan.refuses, Option.any_some, Option.isNone_some,
            Option.isSome_some, if_true, Bool.toNat_false, Counts.simplified_record]
          omega

/-- **The run**: what is left of a plan is planned for spans that have not been met. -/
lemma spans_stateAfter : (stateAfter choose progress ps).plan.spans =
    progress.plan.spans.filter fun span => span ∉ ps.map Property.span := by
  induction ps generalizing progress with
  | nil => simp [stateAfter]
  | cons p ps ih =>
      have hcons : stateAfter choose progress (p :: ps) =
          stateAfter choose (choose p progress).2 ps := rfl
      rw [hcons, ih, plan_choose, Plan.spans_erase, List.filter_filter]
      refine List.filter_congr fun span _ => ?_
      by_cases hp : span = p.span <;> simp [hp]

lemma get?_stateAfter (span : Span) : (stateAfter choose progress ps).plan.get? span =
    if span ∈ ps.map Property.span then none else progress.plan.get? span := by
  induction ps generalizing progress with
  | nil => rfl
  | cons p ps ih =>
      have hcons : stateAfter choose progress (p :: ps) =
          stateAfter choose (choose p progress).2 ps := rfl
      rw [hcons, ih, plan_choose, Plan.get?_erase]
      by_cases hp : span = p.span <;> simp [hp]

/-- The first property with a span gets what is planned for it unless it refuses, any other one gets
nothing. -/
lemma fst_choose_stateAfter : (choose p (stateAfter choose progress ps)).1 =
    if p.span ∈ ps.map Property.span then none
    else (progress.plan.get? p.span).filter fun s => (p.simplified? s).isSome := by
  rw [fst_choose, get?_stateAfter]
  split <;> rfl

/-- **The account of a run**: what has been carried out, what has been refused by the first property
with a span, and what is left. -/
lemma account_stateAfter (hnodup : progress.plan.spans.Nodup) (ps : List Property) :
    (stateAfter choose progress ps).counts.simplified +
          (Property.firsts ps).countP progress.plan.refuses +
        (stateAfter choose progress ps).pending =
      progress.counts.simplified + progress.pending := by
  induction ps generalizing progress with
  | nil => rfl
  | cons p ps ih =>
      have hcons : stateAfter choose progress (p :: ps) =
          stateAfter choose (choose p progress).2 ps := rfl
      have hnodup' : (choose p progress).2.plan.spans.Nodup := by
        rw [plan_choose, Plan.spans_erase]
        exact hnodup.filter _
      -- a later property with the same span finds the entry used up, and refuses nothing
      have hrefusals : (Property.firsts ps).countP (choose p progress).2.plan.refuses =
          ((Property.firsts ps).filter fun q => q.span ≠ p.span).countP progress.plan.refuses := by
        rw [plan_choose, List.countP_filter]
        refine List.countP_congr fun q _ => ?_
        rw [Plan.refuses_erase, Bool.and_comm]
      have hstep := @account_choose progress p hnodup
      have hrest := ih hnodup'
      rw [hrefusals] at hrest
      rw [hcons, Property.firsts, List.countP_cons]
      cases hrefuses : progress.plan.refuses p
      · simp only [hrefuses, Bool.toNat_false, Bool.false_eq_true, if_false] at hstep ⊢
        omega
      · simp only [hrefuses, Bool.toNat_true, if_true] at hstep ⊢
        omega

end Progress

/-! ### The whole pass -/

namespace Tree

/-- **Where nothing is planned, nothing happens.** -/
lemma carryOut_of_unplanned {t : Tree} {progress : Progress}
    (h : ∀ p ∈ t.properties, progress.plan.get? p.span = none) :
    t.carryOut progress = (t, progress) := by
  -- the state is still the first one, and nothing ahead is planned
  let Inv (ahead : List Property) (s : Progress) : Prop :=
    s = progress ∧ ∀ p ∈ ahead, progress.plan.get? p.span = none
  have hstep : ∀ p ahead s, Inv (p :: ahead) s →
      (Progress.choose p s).1 = none ∧ Inv ahead (Progress.choose p s).2 := by
    rintro p ahead s ⟨rfl, hahead⟩
    have hchoose : Progress.choose p s = (none, s) := by
      simp [Progress.choose, hahead p List.mem_cons_self]
    rw [hchoose]
    exact ⟨rfl, rfl, fun q hq => hahead q (List.mem_cons_of_mem p hq)⟩
  have hpass := @shortens (fun _ => none) _ Progress.choose Inv hstep t
    (fun _ _ _ hnone => by cases hnone) [] progress ⟨rfl, by simpa using h⟩
  rw [shortenedBy_none] at hpass
  exact Prod.ext hpass.1 hpass.2.1

/-- A property for which nothing was chosen keeps its form, the name of its function, and its key up
to what is carried out inside it. -/
lemma keeps_of_turns {plan : Plan} {p q : Property}
    (h : Turns Progress.choose (fun progress => progress.plan ⊆ plan) (p, none) q) :
    q.form = p.form ∧ q.value.functionName? = p.value.functionName? ∧
      (∃ inKey, inKey.plan ⊆ plan ∧ q.key = (p.key.carryOut inKey).1) ∧
      ((∀ r ∈ p.key.properties, plan.get? r.span = none) → q.key = p.key) := by
  obtain ⟨inKey, inValue, hkey, -, rfl⟩ := h
  refine ⟨rfl, functionName?_simplifyWith p.value inValue, ⟨inKey, hkey, rfl⟩, fun hnone => ?_⟩
  refine congrArg Prod.fst (carryOut_of_unplanned fun r hr => ?_)
  rw [Plan.get?_eq_none_iff]
  exact fun hspan => Plan.get?_eq_none_iff.mp (hnone r hr) (List.map_subset Prod.fst hkey hspan)

/-- What it means that a tree became the tree `after`, and that `rest` is left, by carrying out what
the candidates plan, each entry once. The properties that were met are those of the result, one by
one: the pass offers a property before it goes into it, and what stands in a key that is dropped is
never met. -/
structure CarriedOut (t : Tree) (candidates : List Candidate) (met : List Property) (after : Tree)
    (rest : Progress) : Prop where
  /-- There is one entry for each span of the candidates. -/
  pending_start :
    (Progress.ofCandidates candidates).pending = (candidates.map Candidate.span).dedup.length
  /-- The last candidate with a span counts. -/
  planned : ∀ span, (Plan.ofCandidates candidates).get? span =
    ((candidates.filter fun c => c.span = span).getLast?).map Candidate.simplification
  /-- The entries that are left are those whose span no property of the result has. -/
  pending : rest.pending = ((candidates.map Candidate.span).dedup.filter
    fun span => span ∉ after.properties.map Property.span).length
  /-- The properties are met in document order, as they stood before the pass. -/
  sublist : met.Sublist t.properties
  /-- The properties of the result are those that were met. -/
  spans : after.properties.map Property.span = met.map Property.span
  /-- The first property that is met with a span gets what is planned for it unless it refuses; any
  other one gets nothing. -/
  turns : ∀ (i : Nat) (p q : Property), met[i]? = some p → after.properties[i]? = some q →
    Turns Progress.choose (fun progress => progress.plan ⊆ Plan.ofCandidates candidates)
      (p, if p.span ∈ (met.take i).map Property.span then none
        else ((Plan.ofCandidates candidates).get? p.span).filter
          fun s => (p.simplified? s).isSome) q
  /-- Every entry is carried out, refused by the first property with its span, or left. -/
  account : rest.counts.simplified +
      (Property.firsts met).countP (Plan.ofCandidates candidates).refuses + rest.pending =
    (Progress.ofCandidates candidates).pending
  /-- A property that nothing is planned for keeps its form, the name of its function, and its key
  up to what is carried out inside it. -/
  unplanned : ∀ (i : Nat) (p q : Property), met[i]? = some p → after.properties[i]? = some q →
    (Plan.ofCandidates candidates).get? q.span = none →
      q.form = p.form ∧ q.value.functionName? = p.value.functionName? ∧
      (∃ inKey, inKey.plan ⊆ Plan.ofCandidates candidates ∧ q.key = (p.key.carryOut inKey).1) ∧
      ((∀ r ∈ p.key.properties, (Plan.ofCandidates candidates).get? r.span = none) → q.key = p.key)
  /-- Carrying out what is left, however often, changes neither the tree nor what is left. -/
  again : ∀ n, (fun state : Tree × Progress => state.1.carryOut state.2)^[n] (after, rest) =
    (after, rest)

/-- **A plan is carried out exactly once.** The tree and the candidates are arbitrary: spans may
occur several times in either, and candidates may ask for what cannot be done. -/
theorem carryOut_once (t : Tree) (candidates : List Candidate) :
    t.CarriedOut candidates (t.met Progress.choose (.ofCandidates candidates))
      (t.carryOut (.ofCandidates candidates)).1 (t.carryOut (.ofCandidates candidates)).2 := by
  have hmet : Met Progress.choose (fun progress => progress.plan ⊆ Plan.ofCandidates candidates)
      (.ofCandidates candidates) t.properties (t.met Progress.choose (.ofCandidates candidates))
      (t.carryOut (.ofCandidates candidates)).2
      (t.carryOut (.ofCandidates candidates)).1.properties := by
    refine met_met (fun p progress hsub => ?_) t (List.Subset.refl _)
    rw [Progress.plan_choose]
    exact fun _ hentry => hsub (List.mem_of_mem_filter hentry)
  generalize t.met Progress.choose (.ofCandidates candidates) = met at hmet
  generalize (t.carryOut (.ofCandidates candidates)).1 = after at hmet
  generalize (t.carryOut (.ofCandidates candidates)).2 = rest at hmet
  -- the properties of the result have the spans of those that were met, so they tell what is left
  have hleft : rest.plan.spans = (Plan.ofCandidates candidates).spans.filter
      fun span => span ∉ after.properties.map Property.span := by
    rw [hmet.state, Progress.spans_stateAfter, hmet.map_span]
    rfl
  have hoffered : ∀ (i : Nat) (p q : Property), met[i]? = some p → after.properties[i]? = some q →
      Turns Progress.choose (fun progress => progress.plan ⊆ Plan.ofCandidates candidates)
        (p, if p.span ∈ (met.take i).map Property.span then none
          else ((Plan.ofCandidates candidates).get? p.span).filter
            fun s => (p.simplified? s).isSome) q := by
    intro i p q hp hq
    have hturns := hmet.turns hp hq
    rwa [Progress.fst_choose_stateAfter] at hturns
  have hspans := Plan.spans_ofCandidates candidates
  refine ⟨?_, Plan.get?_ofCandidates candidates, ?_, hmet.sublist, hmet.map_span, hoffered, ?_, ?_,
    ?_⟩
  · rw [← hspans.length_eq, Plan.spans, List.length_map]
    rfl
  · rw [← (hspans.filter _).length_eq, ← hleft, Plan.spans, List.length_map]
    rfl
  · have haccount := @Progress.account_stateAfter (.ofCandidates candidates)
      (Plan.nodup_spans_ofCandidates candidates) met
    rw [← hmet.state] at haccount
    exact haccount.trans (Nat.zero_add _)
  · intro i p q hp hq hnone
    have hturns := hoffered i p q hp hq
    rw [hturns.span_eq] at hnone
    rw [hnone, Option.filter_none, ite_self] at hturns
    exact keeps_of_turns hturns
  · refine fun n => Function.iterate_fixed (carryOut_of_unplanned fun p hp => ?_) n
    rw [Plan.get?_eq_none_iff, hleft, List.mem_filter]
    rintro ⟨-, hnot⟩
    exact of_decide_eq_true hnot (List.mem_map_of_mem hp)

/-- `({ [{ b: c }]: a, 0: 1, 0: function f() {}, [{ d: d }]: 1 })`, where the second and the third
property have the same span. -/
def collidingLiteral : Tree :=
  node .object ⟨0, 60⟩ [
    property ⟨3, 16⟩ { isComputed := true }
      (node .object ⟨4, 12⟩ [
        property ⟨6, 10⟩ {} (node (.staticName "b") ⟨6, 7⟩ []) (reference ⟨9, 10⟩ "c")])
      (reference ⟨15, 16⟩ "a"),
    property ⟨18, 22⟩ {} (node (.number "0") ⟨18, 19⟩ []) (node (.number "1") ⟨21, 22⟩ []),
    property ⟨18, 22⟩ {} (node (.number "0") ⟨18, 19⟩ [])
      (function ⟨27, 42⟩ { name := some ⟨"f", ⟨36, 37⟩⟩ } absent absent
        (node .parameters ⟨37, 39⟩ []) absent (node .functionBody ⟨40, 42⟩ [])),
    property ⟨44, 57⟩ { isComputed := true }
      (node .object ⟨45, 53⟩ [
        property ⟨47, 51⟩ {} (node (.staticName "d") ⟨47, 48⟩ []) (reference ⟨50, 51⟩ "d")])
      (node (.number "1") ⟨56, 57⟩ [])]

/-- Candidates for the literal. The first one is replaced by the last. -/
def collidingCandidates : List Candidate :=
  [⟨⟨3, 16⟩, "", .method⟩, ⟨⟨6, 10⟩, "b", .shorthand⟩, ⟨⟨18, 22⟩, "0", .method⟩,
    ⟨⟨47, 51⟩, "d", .shorthand⟩, ⟨⟨3, 16⟩, "", .shorthand⟩]

/-- Of the four entries two are carried out. One is refused by a number, and the function with the
same span is not offered it; the one for a property in a key that is dropped is left. -/
theorem carryOut_collidingLiteral :
    (Progress.ofCandidates collidingCandidates).pending = 4 ∧
      collidingLiteral.CarriedOut collidingCandidates
        (collidingLiteral.met Progress.choose (.ofCandidates collidingCandidates))
        (collidingLiteral.carryOut (.ofCandidates collidingCandidates)).1
        (collidingLiteral.carryOut (.ofCandidates collidingCandidates)).2 ∧
      (collidingLiteral.carryOut (.ofCandidates collidingCandidates)).2.plan =
        [(⟨6, 10⟩, .shorthand)] ∧
      (collidingLiteral.carryOut (.ofCandidates collidingCandidates)).2.counts.simplified = 2 ∧
      (collidingLiteral.carryOut (.ofCandidates collidingCandidates)).1.properties.map
          (fun q => (q.span, q.form.bits, q.value.functionName?)) =
        [(⟨3, 16⟩, 6, none), (⟨18, 22⟩, 0, none), (⟨18, 22⟩, 0, some "f"), (⟨44, 57⟩, 4, none),
          (⟨47, 51⟩, 2, none)] :=
  ⟨by decide, carryOut_once collidingLiteral collidingCandidates, by decide, by decide, by decide⟩

end Tree

end Concise
