import CityPods.Discovery.Bracket
import Mathlib.Data.List.Induction

/-! # What a bracket has learned

The bounds of a bracket are the extreme counts that it has seen since the last
contradiction.
-/

namespace CityPods.Discovery

open Foundation

/-! ## The observations that count -/

section

variable (axis : Axis) (observations : List DiscoveryObservation)

def DiscoveryObservation.Counts (axis : Axis) (observation : DiscoveryObservation) : Prop :=
  observation.isBoundary = true ∧ observation.countBasis ∈ axis.countBases

instance (observation : DiscoveryObservation) : Decidable (observation.Counts axis) :=
  inferInstanceAs (Decidable (_ ∧ _))

/-- How the first boundary was counted, and under which control. -/
def commonKey : Option (String × String) :=
  (observations.find? fun observation => decide (observation.Counts axis)).map
    DiscoveryObservation.key

/-- The boundaries that are counted like the first. -/
def comparable : List DiscoveryObservation :=
  observations.filter fun observation =>
    decide (observation.Counts axis ∧ commonKey axis observations = some observation.key)

end

/-- One of the sizes was admitted, and one that is no larger was refused. -/
def Contradicts (first second : DiscoveryObservation) : Prop :=
  (first.outcome = .admitted ∧ second.outcome = .refused ∧ second.count ≤ first.count) ∨
    (first.outcome = .refused ∧ second.outcome = .admitted ∧ first.count ≤ second.count)

instance (first second : DiscoveryObservation) : Decidable (Contradicts first second) :=
  inferInstanceAs (Decidable (_ ∨ _))

/-- What is left of the observations after the last one that contradicts another. -/
def sinceContradiction (observations : List DiscoveryObservation) : List DiscoveryObservation :=
  observations.foldl
    (fun kept observation =>
      if ∃ other ∈ kept, Contradicts observation other then [observation]
      else kept ++ [observation])
    []

theorem sinceContradiction_append (observations : List DiscoveryObservation)
    (observation : DiscoveryObservation) :
    sinceContradiction (observations ++ [observation]) =
      if ∃ other ∈ sinceContradiction observations, Contradicts observation other then
        [observation]
      else sinceContradiction observations ++ [observation] := by
  rw [sinceContradiction, List.foldl_append]
  rfl

theorem commonKey_append (axis : Axis) (observations : List DiscoveryObservation)
    (observation : DiscoveryObservation) :
    commonKey axis (observations ++ [observation]) =
      (commonKey axis observations).or
        (if observation.Counts axis then some observation.key else none) := by
  simp only [commonKey, List.find?_append, Option.map_or]
  congr 1
  by_cases counts : observation.Counts axis <;> simp [counts]

theorem comparable_append (axis : Axis) (observations : List DiscoveryObservation)
    (observation : DiscoveryObservation) :
    comparable axis (observations ++ [observation]) =
      comparable axis observations ++
        if observation.Counts axis ∧
            commonKey axis (observations ++ [observation]) = some observation.key then
          [observation]
        else [] := by
  have same : ∀ other ∈ observations, other.Counts axis →
      commonKey axis (observations ++ [observation]) = commonKey axis observations := by
    intro other member counts
    rw [commonKey_append]
    have found : (observations.find? fun entry => decide (entry.Counts axis)).isSome :=
      List.find?_isSome.mpr ⟨other, member, decide_eq_true counts⟩
    obtain ⟨first, found⟩ := Option.isSome_iff_exists.mp found
    simp [commonKey, found]
  rw [comparable, List.filter_append, comparable]
  congr 1
  · refine List.filter_congr fun other member => decide_eq_decide.mpr ?_
    exact and_congr_right fun counts => by rw [same other member counts]
  · simp only [List.filter_cons, List.filter_nil, decide_eq_true_eq]

/-! ## The bounds are the extreme counts -/

structure Bracket.Explained (kept : List DiscoveryObservation) (bracket : Bracket) : Prop where
  lower : ∀ lower ∈ bracket.lower, ∃ observation ∈ kept,
    observation.outcome = .admitted ∧ observation.count = lower
  upper : ∀ upper ∈ bracket.upper, ∃ observation ∈ kept,
    observation.outcome = .refused ∧ observation.count = upper
  admitted : ∀ observation ∈ kept, observation.outcome = .admitted →
    ∃ lower ∈ bracket.lower, observation.count ≤ lower
  refused : ∀ observation ∈ kept, observation.outcome = .refused →
    ∃ upper ∈ bracket.upper, upper ≤ observation.count
  apart : ∀ lower ∈ bracket.lower, ∀ upper ∈ bracket.upper, lower < upper

theorem orElse_of_pos {value : Option Nat} (positive : ∀ number ∈ value, 0 < number)
    (fallback : Nat) : orElse value fallback = value.getD fallback := by
  match value with
  | none => rfl
  | some 0 => exact absurd (positive 0 rfl) (Nat.lt_irrefl 0)
  | some (number + 1) => rfl

namespace Bracket

variable {bracket : Bracket} {kept : List DiscoveryObservation} {observation : DiscoveryObservation}

theorem contradicted_iff : bracket.contradicted observation = true ↔
    (observation.outcome = .admitted ∧ ∃ upper ∈ bracket.upper, upper ≤ observation.count) ∨
      (observation.outcome = .refused ∧ ∃ lower ∈ bracket.lower, observation.count ≤ lower) := by
  simp [contradicted, Option.any_eq_true]

theorem explained_rebaseline : bracket.rebaseline.Explained [] where
  lower := by rintro _ ⟨⟩
  upper := by rintro _ ⟨⟩
  admitted := by rintro _ ⟨⟩
  refused := by rintro _ ⟨⟩
  apart := by rintro _ ⟨⟩

theorem Explained.contradicts_iff (explained : bracket.Explained kept) :
    bracket.contradicted observation = true ↔ ∃ other ∈ kept, Contradicts observation other := by
  rw [contradicted_iff]
  constructor
  · rintro (⟨admitted, upper, known, beyond⟩ | ⟨refused, lower, known, beyond⟩)
    · obtain ⟨other, member, outcome, rfl⟩ := explained.upper upper known
      exact ⟨other, member, .inl ⟨admitted, outcome, beyond⟩⟩
    · obtain ⟨other, member, outcome, rfl⟩ := explained.lower lower known
      exact ⟨other, member, .inr ⟨refused, outcome, beyond⟩⟩
  · rintro ⟨other, member, ⟨admitted, outcome, beyond⟩ | ⟨refused, outcome, beyond⟩⟩
    · obtain ⟨upper, known, least⟩ := explained.refused other member outcome
      exact .inl ⟨admitted, upper, known, least.trans beyond⟩
    · obtain ⟨lower, known, greatest⟩ := explained.admitted other member outcome
      exact .inr ⟨refused, lower, known, beyond.trans greatest⟩

theorem Explained.upper_pos (explained : bracket.Explained kept) :
    ∀ upper ∈ bracket.upper, 0 < upper := by
  intro upper known
  obtain ⟨other, _, outcome, rfl⟩ := explained.upper upper known
  exact DiscoveryObservation.count_pos (DiscoveryObservation.isBoundary_iff.mpr (.inr outcome))

theorem Explained.bound_admitted (explained : bracket.Explained kept)
    (unopposed : bracket.contradicted observation = false)
    (admitted : observation.outcome = .admitted) :
    (bracket.bound observation).Explained (kept ++ [observation]) := by
  have below : ∀ upper ∈ bracket.upper, observation.count < upper := by
    intro upper known
    by_contra beyond
    have opposed : bracket.contradicted observation = true :=
      contradicted_iff.mpr (.inl ⟨admitted, upper, known, Nat.le_of_not_lt beyond⟩)
    rw [unopposed] at opposed
    cases opposed
  have raised : bracket.bound observation =
      { bracket with lower := some (max (bracket.lower.getD 0) observation.count) } := by
    rw [bound, if_pos admitted]
    congr 3
    cases bracket.lower with
    | none => rfl
    | some lower => cases lower <;> rfl
  rw [raised]
  constructor
  case lower =>
    rintro _ ⟨⟩
    rcases Nat.le_total (bracket.lower.getD 0) observation.count with less | more
    · exact ⟨observation, by simp, admitted, (max_eq_right less).symm⟩
    · rw [max_eq_left more]
      cases known : bracket.lower with
      | none =>
          rw [known, Option.getD_none, Nat.le_zero] at more
          exact ⟨observation, by simp, admitted, more⟩
      | some lower =>
          obtain ⟨other, member, outcome, same⟩ := explained.lower lower known
          exact ⟨other, List.mem_append_left _ member, outcome, same⟩
  case upper =>
    intro upper known
    obtain ⟨other, member, outcome, same⟩ := explained.upper upper known
    exact ⟨other, List.mem_append_left _ member, outcome, same⟩
  case admitted =>
    intro other member outcome
    refine ⟨_, rfl, ?_⟩
    rcases List.mem_append.mp member with old | new
    · obtain ⟨lower, known, greatest⟩ := explained.admitted other old outcome
      rw [Option.mem_def.mp known]
      exact greatest.trans (le_max_left _ _)
    · rw [List.mem_singleton.mp new]
      exact le_max_right _ _
  case refused =>
    intro other member outcome
    rcases List.mem_append.mp member with old | new
    · exact explained.refused other old outcome
    · rw [List.mem_singleton.mp new, admitted] at outcome
      cases outcome
  case apart =>
    rintro _ ⟨⟩ upper known
    refine max_lt ?_ (below upper known)
    cases known' : bracket.lower with
    | none => exact explained.upper_pos upper known
    | some lower => exact explained.apart lower known' upper known

theorem Explained.bound_refused (explained : bracket.Explained kept)
    (unopposed : bracket.contradicted observation = false)
    (refused : observation.outcome = .refused) :
    (bracket.bound observation).Explained (kept ++ [observation]) := by
  have above : ∀ lower ∈ bracket.lower, lower < observation.count := by
    intro lower known
    by_contra beyond
    have opposed : bracket.contradicted observation = true :=
      contradicted_iff.mpr (.inr ⟨refused, lower, known, Nat.le_of_not_lt beyond⟩)
    rw [unopposed] at opposed
    cases opposed
  have lowered : bracket.bound observation = { bracket with
      upper := some (min (bracket.upper.getD observation.count) observation.count) } := by
    rw [bound, if_neg (by rw [refused]; decide), orElse_of_pos explained.upper_pos]
  rw [lowered]
  constructor
  case lower =>
    intro lower known
    obtain ⟨other, member, outcome, same⟩ := explained.lower lower known
    exact ⟨other, List.mem_append_left _ member, outcome, same⟩
  case upper =>
    rintro _ ⟨⟩
    cases known : bracket.upper with
    | none => exact ⟨observation, by simp, refused, (min_self _).symm⟩
    | some upper =>
        rw [Option.getD_some]
        rcases Nat.le_total upper observation.count with less | more
        · obtain ⟨other, member, outcome, same⟩ := explained.upper upper known
          exact ⟨other, List.mem_append_left _ member, outcome, same.trans (min_eq_left less).symm⟩
        · exact ⟨observation, by simp, refused, (min_eq_right more).symm⟩
  case admitted =>
    intro other member outcome
    rcases List.mem_append.mp member with old | new
    · exact explained.admitted other old outcome
    · rw [List.mem_singleton.mp new, refused] at outcome
      cases outcome
  case refused =>
    intro other member outcome
    refine ⟨_, rfl, ?_⟩
    rcases List.mem_append.mp member with old | new
    · obtain ⟨upper, known, least⟩ := explained.refused other old outcome
      rw [Option.mem_def.mp known]
      exact (min_le_left _ _).trans least
    · rw [List.mem_singleton.mp new]
      exact min_le_right _ _
  case apart =>
    rintro lower known _ ⟨⟩
    refine lt_min ?_ (above lower known)
    cases known' : bracket.upper with
    | none => exact above lower known
    | some upper => exact explained.apart lower known upper known'

theorem Explained.of_bounds {other : Bracket} (explained : bracket.Explained kept)
    (lower : other.lower = bracket.lower) (upper : other.upper = bracket.upper) :
    other.Explained kept := by
  obtain ⟨axis, seed, low, high, basis, control, nonprogress, reason, history⟩ := other
  cases lower
  cases upper
  exact ⟨explained.lower, explained.upper, explained.admitted, explained.refused, explained.apart⟩

theorem Explained.bound (explained : bracket.Explained kept)
    (unopposed : bracket.contradicted observation = false)
    (boundary : observation.isBoundary = true) :
    (bracket.bound observation).Explained (kept ++ [observation]) := by
  rcases DiscoveryObservation.isBoundary_iff.mp boundary with admitted | refused
  · exact explained.bound_admitted unopposed admitted
  · exact explained.bound_refused unopposed refused

theorem Explained.compare (explained : bracket.Explained kept)
    (boundary : observation.isBoundary = true) :
    (bracket.compare observation).Explained
      (if ∃ other ∈ kept, Contradicts observation other then [observation]
        else kept ++ [observation]) := by
  cases opposed : bracket.contradicted observation with
  | true =>
      rw [if_pos (explained.contradicts_iff.mp opposed)]
      have rebased : (bracket.rebaseline.bound observation).Explained ([] ++ [observation]) :=
        explained_rebaseline.bound (by simp [contradicted, rebaseline]) boundary
      refine rebased.of_bounds ?_ ?_ <;> simp only [Bracket.compare, opposed, if_true]
  | false =>
      have unopposed : ¬ ∃ other ∈ kept, Contradicts observation other := by
        rw [← explained.contradicts_iff, opposed]
        exact Bool.false_ne_true
      rw [if_neg unopposed]
      refine (explained.bound opposed boundary).of_bounds ?_ ?_ <;>
        simp only [Bracket.compare, opposed, Bool.false_eq_true, if_false]

/-! ## Runs of observations -/

/-- What a bracket holds after the observations it was given. -/
structure Learned (axis : Axis) (observations : List DiscoveryObservation) (bracket : Bracket) :
    Prop where
  sameAxis : bracket.axis = axis
  sameHistory : bracket.history = observations
  sameBasis : bracket.basis = (commonKey axis observations).map Prod.fst
  sameControl : bracket.control = (commonKey axis observations).map Prod.snd
  explained : bracket.Explained (sinceContradiction (comparable axis observations))

theorem learned_start (axis : Axis) (seed : Nat) :
    Learned axis [] ({ axis := axis, seed := seed } : Bracket) where
  sameAxis := rfl
  sameHistory := rfl
  sameBasis := rfl
  sameControl := rfl
  explained := ⟨by rintro _ ⟨⟩, by rintro _ ⟨⟩, by rintro _ ⟨⟩, by rintro _ ⟨⟩, by rintro _ ⟨⟩⟩

section

variable {axis : Axis} {observations : List DiscoveryObservation} {after : Bracket}

/-- An observation that is not counted like the bounds leaves them. -/
theorem Learned.stalled (learned : Learned axis observations bracket)
    (unlike : ¬ (observation.Counts axis ∧
      commonKey axis (observations ++ [observation]) = some observation.key))
    (same : commonKey axis (observations ++ [observation]) = commonKey axis observations)
    (reason : Option String) :
    Learned axis (observations ++ [observation])
      { bracket with
        history := bracket.history ++ [observation]
        nonprogress := bracket.nonprogress + 1
        reason := reason } where
  sameAxis := learned.sameAxis
  sameHistory := by rw [learned.sameHistory]
  sameBasis := by rw [same]; exact learned.sameBasis
  sameControl := by rw [same]; exact learned.sameControl
  explained := by
    rw [comparable_append, if_neg unlike, List.append_nil]
    exact learned.explained.of_bounds rfl rfl

theorem Learned.compared (learned : Learned axis observations bracket)
    (counts : observation.Counts axis)
    (same : commonKey axis (observations ++ [observation]) = some observation.key) :
    Learned axis (observations ++ [observation])
      ({ bracket with
        history := bracket.history ++ [observation]
        basis := some observation.countBasis
        control := some observation.request.control }.compare observation) where
  sameAxis := by
    rw [Bracket.compare]
    split <;> unfold bound <;> split <;> exact learned.sameAxis
  sameHistory := by
    rw [Bracket.compare, ← learned.sameHistory]
    split <;> unfold bound <;> split <;> rfl
  sameBasis := by
    rw [same, Bracket.compare]
    split <;> unfold bound <;> split <;> rfl
  sameControl := by
    rw [same, Bracket.compare]
    split <;> unfold bound <;> split <;> rfl
  explained := by
    rw [comparable_append, if_pos ⟨counts, same⟩, sinceContradiction_append]
    refine Explained.compare ?_ counts.1
    exact learned.explained.of_bounds rfl rfl

theorem Learned.observe (learned : Learned axis observations bracket)
    (observed : bracket.observe observation = .ok after) :
    Learned axis (observations ++ [observation]) after := by
  obtain rfl := learned.sameAxis
  unfold Bracket.observe at observed
  split at observed
  · cases observed
  dsimp only at observed
  split at observed
  next inner =>
    cases observed
    have uncounted : ¬ observation.Counts bracket.axis := fun counts => by
      rw [counts.1] at inner
      cases inner
    exact learned.stalled (fun like => uncounted like.1)
      (by rw [commonKey_append, if_neg uncounted, Option.or_none]) _
  split at observed
  next foreign =>
    cases observed
    have uncounted : ¬ observation.Counts bracket.axis := fun counts => foreign counts.2
    exact learned.stalled (fun like => uncounted like.1)
      (by rw [commonKey_append, if_neg uncounted, Option.or_none]) _
  next boundary allowed =>
  have counts : observation.Counts bracket.axis := ⟨by simpa using boundary, by simpa using allowed⟩
  have basis := learned.sameBasis
  have control := learned.sameControl
  cases known : commonKey bracket.axis observations with
  | none =>
      rw [known] at basis
      rw [if_neg (by simp [basis])] at observed
      cases observed
      exact learned.compared counts (by rw [commonKey_append, known, if_pos counts]; rfl)
  | some key =>
      rw [known] at basis control
      split at observed
      next incomparable =>
        cases observed
        have other : commonKey bracket.axis (observations ++ [observation]) = some key := by
          rw [commonKey_append, known, Option.some_or]
        refine learned.stalled (fun like => incomparable.2 ?_) (other.trans known.symm) _
        rw [basis, control, Option.some.inj (other.symm.trans like.2)]
        rfl
      next comparable =>
        cases observed
        refine learned.compared counts ?_
        have alike : (some observation.countBasis, some observation.request.control) =
            (bracket.basis, bracket.control) := by
          by_contra unlike
          exact comparable ⟨by simp [basis], unlike⟩
        rw [basis, control] at alike
        obtain ⟨first, second⟩ := Prod.mk.inj alike
        rw [commonKey_append, known, Option.some_or]
        exact congrArg some (Prod.ext (Option.some.inj first).symm (Option.some.inj second).symm)

theorem Learned.observeAll (learned : Learned axis observations bracket)
    {later : List DiscoveryObservation} (observed : later.foldlM Bracket.observe bracket = .ok after) :
    Learned axis (observations ++ later) after := by
  induction later generalizing bracket observations with
  | nil =>
      cases observed
      rwa [List.append_nil]
  | cons observation later induction =>
      rw [List.foldlM_cons] at observed
      cases first : bracket.observe observation with
      | error problem =>
          rw [first] at observed
          cases observed
      | ok next =>
          rw [first] at observed
          rw [List.append_cons]
          exact induction (learned.observe first) observed

theorem observe_isOk (same : observation.request.axis = bracket.axis) :
    ∃ after, bracket.observe observation = .ok after ∧ after.axis = bracket.axis := by
  unfold Bracket.observe
  rw [if_neg (not_not_intro same)]
  dsimp only
  split
  · exact ⟨_, rfl, rfl⟩
  split
  · exact ⟨_, rfl, rfl⟩
  split
  · exact ⟨_, rfl, rfl⟩
  · refine ⟨_, rfl, ?_⟩
    rw [Bracket.compare]
    split <;> unfold bound <;> split <;> rfl

theorem observeAll_isOk {later : List DiscoveryObservation}
    (same : ∀ observation ∈ later, observation.request.axis = bracket.axis) :
    ∃ after, later.foldlM Bracket.observe bracket = .ok after := by
  induction later generalizing bracket with
  | nil => exact ⟨bracket, rfl⟩
  | cons observation later induction =>
      obtain ⟨next, observed, axis⟩ := observe_isOk (same observation List.mem_cons_self)
      obtain ⟨after, rest⟩ := @induction next fun other member =>
        (same other (List.mem_cons_of_mem _ member)).trans axis.symm
      exact ⟨after, by rw [List.foldlM_cons, observed]; exact rest⟩

end

end Bracket

end CityPods.Discovery
