import CityPods.Discovery.BracketBounds

/-! # The search for a capacity

A bracket that probes its own target, and is told of a threshold, finds it.
-/

namespace CityPods.Discovery

open Foundation

/-! ## The targets -/

theorem nearest_div_pos {numerator denominator : Nat} (above : 0 < numerator)
    (below : 0 < denominator) : (0 : ℚ) < numerator / denominator :=
  div_pos (by exact_mod_cast above) (by exact_mod_cast below)

theorem lt_ceilQuotient {lower : Nat} (positive : 0 < lower) (within : lower ≤ maxCount) :
    lower < ceilQuotient (lower * 3) 2 := by
  have large : (lower : ℚ) < Doubles.nearest ((lower * 3 : Nat) / (2 : Nat)) := by
    rcases Nat.lt_or_ge 1 lower with more | one
    · have next : ((lower + 1 : Nat) : ℚ) ≤ (lower * 3 : Nat) / (2 : Nat) := by
        rw [le_div_iff₀ (by norm_num)]
        exact_mod_cast (by omega : (lower + 1) * 2 ≤ lower * 3)
      have reached := Doubles.natCast_le_nearest (by rw [maxCount] at within; omega)
        (nearest_div_pos (by omega) (by decide)) next
      push_cast at reached ⊢
      linarith
    · have single : lower = 1 := by omega
      have log : Int.log 2 (3 / 2 : ℚ) = 0 := by
        have floor : ⌊(3 / 2 : ℚ)⌋₊ = 1 := (Nat.floor_eq_iff (by norm_num)).mpr (by norm_num)
        rw [Int.log_of_one_le_right _ (by norm_num), floor]
        norm_num
      have grid : Doubles.OnGrid (3 / 2) (3 / 2) :=
        ⟨3 * 2 ^ 51, by rw [Doubles.spacing, log]; norm_num⟩
      have reached := grid.le_nearest (le_refl _)
      subst single
      push_cast
      norm_num at reached ⊢
      linarith
  have rounded := Nat.le_ceil (Doubles.nearest ((lower * 3 : Nat) / (2 : Nat)))
  exact_mod_cast large.trans_le rounded

/-- The width that is wide enough is no more than it is exactly. -/
theorem ceilQuotient_le {lower : Nat} (positive : 0 < lower) (within : lower ≤ maxCount) :
    ceilQuotient lower 200 ≤ ⌈(lower : ℚ) / 200⌉₊ := by
  have above : (lower : ℚ) / (200 : Nat) ≤ ⌈(lower : ℚ) / 200⌉₊ := by
    push_cast
    exact Nat.le_ceil _
  have small : ⌈(lower : ℚ) / 200⌉₊ ≤ 2 ^ 53 := by
    refine Nat.ceil_le.mpr ?_
    rw [div_le_iff₀ (by norm_num)]
    rw [maxCount] at within
    exact_mod_cast (by omega : lower ≤ 2 ^ 53 * 200)
  exact Nat.ceil_le.mpr
    (Doubles.nearest_le_natCast small (nearest_div_pos positive (by decide)) above)

/-! ## Searching with the targets -/

namespace Bracket

def searching (bracket : Bracket) : Bool := !bracket.converged && decide (bracket.nonprogress < 3)

/-- The target is probed, unless the search is over. -/
def advance (answer : Nat → DiscoveryObservation) (bracket : Bracket) : Except String Bracket :=
  if bracket.searching then bracket.observe (answer bracket.target) else .ok bracket

def search (answer : Nat → DiscoveryObservation) (bracket : Bracket) : Nat → Except String Bracket
  | 0 => .ok bracket
  | steps + 1 => search answer bracket steps >>= advance answer

def Asks (answer : Nat → DiscoveryObservation) (start : Bracket) (target : Nat) : Prop :=
  ∃ steps bracket, search answer start steps = .ok bracket ∧ bracket.searching = true ∧
    bracket.target = target

end Bracket

/-- The observation of a probe of a system with a threshold. -/
structure Answers (axis : Axis) (basis control : String) (threshold target : Nat)
    (observation : DiscoveryObservation) : Prop where
  onAxis : observation.request.axis = axis
  likeControl : observation.request.control = control
  likeBasis : observation.countBasis = basis
  coordinate : observation.coordinate = some target
  outcome : observation.outcome = if target ≤ threshold then .admitted else .refused

section

variable {axis : Axis} {basis control : String} {threshold size : Nat}
  {observation : DiscoveryObservation}

theorem Answers.isBoundary (answers : Answers axis basis control threshold size observation) :
    observation.isBoundary = true := by
  rw [DiscoveryObservation.isBoundary_iff, answers.outcome]
  split
  · exact .inl rfl
  · exact .inr rfl

theorem Answers.inRange (answers : Answers axis basis control threshold size observation) :
    0 < size ∧ size ≤ maxCount := by
  obtain ⟨⟨count, same, positive, within⟩, _⟩ :=
    observation.counted (DiscoveryObservation.isBoundary_iff.mp answers.isBoundary)
  cases answers.coordinate.symm.trans same
  exact ⟨positive, within⟩

theorem Answers.count (answers : Answers axis basis control threshold size observation) :
    observation.count = size := by
  rw [DiscoveryObservation.count, answers.coordinate]
  rfl

namespace Bracket

/-- A search that has moved with every probe. -/
structure Tracks (axis : Axis) (seed : Nat) (basis control : String) (bounds : Bounds)
    (bracket : Bracket) : Prop where
  onAxis : bracket.axis = axis
  fromSeed : bracket.seed = seed
  lower : bracket.lower = bounds.lower
  upper : bracket.upper = bounds.upper
  counted : bracket.basis = none ∨ bracket.basis = some basis ∧ bracket.control = some control
  progress : bracket.nonprogress = 0
  lowers : ∀ lower ∈ bounds.lower, 0 < lower ∧ lower ≤ maxCount
  uppers : ∀ upper ∈ bounds.upper, 0 < upper

variable {seed : Nat} {bounds : Bounds} {bracket : Bracket}

/-- The probe for known bounds, and whether they are narrow enough. -/
def ofBounds (axis : Axis) (seed : Nat) (bounds : Bounds) : Bracket where
  axis := axis
  seed := seed
  lower := bounds.lower
  upper := bounds.upper

theorem Tracks.target (tracks : bracket.Tracks axis seed basis control bounds) :
    bracket.target = (ofBounds axis seed bounds).target := by
  unfold Bracket.target
  rw [tracks.lower, tracks.upper, tracks.fromSeed]
  rfl

theorem Tracks.converged (tracks : bracket.Tracks axis seed basis control bounds) :
    bracket.converged = (ofBounds axis seed bounds).converged := by
  unfold Bracket.converged
  rw [tracks.lower, tracks.upper]
  rfl

/-- An open search probes strictly between its bounds. -/
theorem Tracks.splits (tracks : bracket.Tracks axis seed basis control bounds)
    (around : bounds.Around threshold) (threshold_pos : 1 ≤ threshold)
    (unsettled : (ofBounds axis seed bounds).converged = false) :
    bounds.Splits (ofBounds axis seed bounds).target := by
  obtain ⟨lower, upper⟩ := bounds
  match lower, upper with
  | none, none => constructor <;> rintro _ ⟨⟩
  | none, some upper =>
      have above : threshold < upper := around.2 upper rfl
      refine ⟨by rintro _ ⟨⟩, ?_⟩
      rintro _ ⟨⟩
      show max 1 (upper / 2) < upper
      omega
  | some 0, none => exact absurd (tracks.lowers 0 rfl).1 (Nat.lt_irrefl 0)
  | some (lower + 1), none =>
      refine ⟨?_, by rintro _ ⟨⟩⟩
      rintro _ ⟨⟩
      exact lt_ceilQuotient (Nat.succ_pos lower) (tracks.lowers _ rfl).2
  | some lower, some upper =>
      have ordered : lower < upper :=
        Nat.lt_of_le_of_lt (around.1 lower rfl) (around.2 upper rfl)
      have wide : width lower < upper - lower := by
        by_contra narrow
        have settled : (ofBounds axis seed ⟨some lower, some upper⟩).converged = true :=
          decide_eq_true ⟨ordered, Nat.le_of_not_lt narrow⟩
        rw [unsettled] at settled
        cases settled
      have least : 1 ≤ width lower := le_max_left _ _
      constructor
      · rintro _ ⟨⟩
        show lower < lower + (upper - lower) / 2
        omega
      · rintro _ ⟨⟩
        show lower + (upper - lower) / 2 < upper
        omega

theorem compare_between (splits : Bounds.Splits size ⟨bracket.lower, bracket.upper⟩)
    (answers : Answers axis basis control threshold size observation) :
    (bracket.compare observation).lower =
        (Bounds.learn threshold size ⟨bracket.lower, bracket.upper⟩).lower ∧
      (bracket.compare observation).upper =
        (Bounds.learn threshold size ⟨bracket.lower, bracket.upper⟩).upper ∧
      (bracket.compare observation).nonprogress = 0 := by
  have unopposed : bracket.contradicted observation = false := by
    rw [Bool.eq_false_iff]
    intro opposed
    rw [contradicted_iff, answers.count] at opposed
    rcases opposed with ⟨_, upper, known, beyond⟩ | ⟨_, lower, known, beyond⟩
    · exact absurd (splits.2 upper known) (Nat.not_lt.mpr beyond)
    · exact absurd (splits.1 lower known) (Nat.not_lt.mpr beyond)
  have raised : max (orElse bracket.lower 0) size = size := by
    refine max_eq_right ?_
    match known : bracket.lower with
    | none | some 0 => exact Nat.zero_le _
    | some (lower + 1) => exact (splits.1 _ known).le
  have lowered : min (orElse bracket.upper size) size = size := by
    refine min_eq_right ?_
    match known : bracket.upper with
    | none | some 0 => exact le_refl _
    | some (upper + 1) => exact (splits.2 _ known).le
  have newLower : bracket.lower ≠ some size := fun same => Nat.lt_irrefl _ (splits.1 size same)
  have newUpper : bracket.upper ≠ some size := fun same => Nat.lt_irrefl _ (splits.2 size same)
  simp only [Bracket.compare, unopposed, Bool.false_eq_true, if_false, bound, answers.outcome,
    Bounds.learn, answers.count]
  by_cases reached : size ≤ threshold
  · simp [reached, raised, newLower]
  · simp [reached, lowered, newUpper]

theorem compare_kept (bracket : Bracket) (observation : DiscoveryObservation) :
    (bracket.compare observation).axis = bracket.axis ∧
      (bracket.compare observation).seed = bracket.seed ∧
      (bracket.compare observation).basis = bracket.basis ∧
      (bracket.compare observation).control = bracket.control := by
  rw [Bracket.compare]
  split <;> unfold bound <;> split <;> exact ⟨rfl, rfl, rfl, rfl⟩

theorem Tracks.observe (tracks : bracket.Tracks axis seed basis control bounds)
    (splits : bounds.Splits size) (known : basis ∈ axis.countBases)
    (answers : Answers axis basis control threshold size observation) :
    ∃ after, bracket.observe observation = .ok after ∧
      after.Tracks axis seed basis control (bounds.learn threshold size) := by
  obtain ⟨positive, within⟩ := answers.inRange
  have observed : bracket.observe observation = .ok ({ bracket with
      history := bracket.history ++ [observation]
      basis := some basis
      control := some control }.compare observation) := by
    unfold Bracket.observe
    have comparable : ¬ (bracket.basis ≠ none ∧ (some basis, some control) ≠
        (bracket.basis, bracket.control)) := by
      rintro ⟨counted, unlike⟩
      rcases tracks.counted with fresh | ⟨likeBasis, likeControl⟩
      · exact counted fresh
      · exact unlike (by rw [likeBasis, likeControl])
    rw [if_neg (by rw [answers.onAxis, tracks.onAxis]; exact not_not_intro rfl)]
    simp only [answers.isBoundary, answers.likeBasis, answers.likeControl, tracks.onAxis, known,
      Bool.true_eq_false, if_false, not_true_eq_false, if_neg comparable]
  have same : (⟨bracket.lower, bracket.upper⟩ : Bounds) = bounds := by
    rw [tracks.lower, tracks.upper]
  refine ⟨_, observed, ?_⟩
  obtain ⟨lower, upper, progress⟩ := @compare_between axis basis control threshold size observation
    { bracket with
      history := bracket.history ++ [observation]
      basis := some basis
      control := some control }
    (same ▸ splits) answers
  obtain ⟨sameAxis, sameSeed, sameBasis, sameControl⟩ := compare_kept { bracket with
    history := bracket.history ++ [observation]
    basis := some basis
    control := some control } observation
  refine ⟨sameAxis.trans tracks.onAxis, sameSeed.trans tracks.fromSeed,
    lower.trans (congrArg (fun known => (Bounds.learn threshold size known).lower) same),
    upper.trans (congrArg (fun known => (Bounds.learn threshold size known).upper) same),
    .inr ⟨sameBasis, sameControl⟩, progress, ?_, ?_⟩
  · intro other member
    unfold Bounds.learn at member
    split at member
    · cases member
      exact ⟨positive, within⟩
    · exact tracks.lowers other member
  · intro other member
    unfold Bounds.learn at member
    split at member
    · exact tracks.uppers other member
    · cases member
      exact positive

/-- As long as a search is open, its bracket holds what its probes have told. -/
theorem search_tracks {answer : Nat → DiscoveryObservation} (threshold_pos : 1 ≤ threshold)
    (known : basis ∈ axis.countBases)
    (answered : ∀ target, Asks answer { axis := axis, seed := seed } target →
      Answers axis basis control threshold target (answer target)) (steps : Nat)
    (unsettled : ∀ earlier < steps, (ofBounds axis seed (Bounds.search threshold
      (fun bounds => (ofBounds axis seed bounds).target) earlier {})).converged = false) :
    ∃ bracket, search answer { axis := axis, seed := seed } steps = .ok bracket ∧
      bracket.Tracks axis seed basis control (Bounds.search threshold
        (fun bounds => (ofBounds axis seed bounds).target) steps {}) := by
  induction steps with
  | zero =>
      exact ⟨_, rfl, rfl, rfl, rfl, rfl, .inl rfl, rfl, by rintro _ ⟨⟩, by rintro _ ⟨⟩⟩
  | succ steps induction =>
      obtain ⟨bracket, searched, tracks⟩ := induction fun earlier less =>
        unsettled earlier (Nat.lt_succ_of_lt less)
      have unconverged := unsettled steps (Nat.lt_succ_self steps)
      have around := Bounds.search_around threshold
        (fun bounds => (ofBounds axis seed bounds).target) steps (Bounds.around_none threshold)
      have searching : bracket.searching = true := by
        simp [Bracket.searching, tracks.converged, unconverged, tracks.progress]
      have asks : Asks answer { axis := axis, seed := seed } bracket.target :=
        ⟨steps, bracket, searched, searching, rfl⟩
      have splits := tracks.splits around threshold_pos unconverged
      rw [← tracks.target] at splits
      obtain ⟨after, observed, follows⟩ := tracks.observe splits known (answered _ asks)
      refine ⟨after, ?_, ?_⟩
      · rw [search, searched]
        show advance answer bracket = .ok after
        rw [advance, if_pos searching, observed]
      · rw [Bounds.search_succ, ← tracks.target]
        exact follows

end Bracket

end

/-! ## The bracket is sound and finds the threshold -/

theorem bracket_sound_and_finds :
    (∀ (axis : Axis) (seed : Nat) (observations : List DiscoveryObservation),
      (∀ observation ∈ observations, observation.request.axis = axis) →
        ∃ bracket, observations.foldlM Bracket.observe { axis := axis, seed := seed } = .ok bracket ∧
          bracket.Explained (sinceContradiction (comparable axis observations))) ∧
    ∀ (axis : Axis) (seed threshold : Nat) (basis control : String)
      (answer : Nat → DiscoveryObservation),
      1 ≤ seed → 1 ≤ threshold → basis ∈ axis.countBases →
        (∀ target, Bracket.Asks answer { axis := axis, seed := seed } target →
          Answers axis basis control threshold target (answer target)) →
        ∃ steps bracket lower upper,
          Bracket.search answer { axis := axis, seed := seed } steps = .ok bracket ∧
            bracket.converged = true ∧ bracket.lower = some lower ∧ bracket.upper = some upper ∧
            lower ≤ threshold ∧ threshold < upper ∧
            upper - lower ≤ max 1 ⌈(lower : ℚ) / 200⌉₊ := by
  constructor
  · intro axis seed observations alike
    obtain ⟨bracket, observed⟩ :=
      @Bracket.observeAll_isOk { axis := axis, seed := seed } observations alike
    exact ⟨bracket, observed, ((Bracket.learned_start axis seed).observeAll observed).explained⟩
  · intro axis seed threshold basis control answer _ threshold_pos known answered
    obtain ⟨steps, settled, before⟩ := @Bounds.exists_settled threshold
      (fun bounds => (Bracket.ofBounds axis seed bounds).target)
      (fun bounds => (Bracket.ofBounds axis seed bounds).converged = true) {}
      (Bounds.around_none threshold) (fun steps unsettled => by
        obtain ⟨bracket, _, tracks⟩ := Bracket.search_tracks threshold_pos known answered steps
          fun earlier less => Bool.eq_false_iff.mpr (unsettled earlier less.le)
        exact tracks.splits (Bounds.search_around threshold _ steps (Bounds.around_none threshold))
          threshold_pos (Bool.eq_false_iff.mpr (unsettled steps (le_refl _))))
    obtain ⟨bracket, searched, tracks⟩ := Bracket.search_tracks threshold_pos known answered steps
      fun earlier less => Bool.eq_false_iff.mpr (before earlier less)
    have around := Bounds.search_around threshold
      (fun bounds => (Bracket.ofBounds axis seed bounds).target) steps
      (Bounds.around_none threshold)
    rw [← tracks.converged] at settled
    have narrow := settled
    unfold Bracket.converged at narrow
    split at narrow
    next lower upper knownLower knownUpper =>
      obtain ⟨_, near⟩ := of_decide_eq_true narrow
      have inRange := tracks.lowers lower (tracks.lower.symm.trans knownLower)
      refine ⟨steps, bracket, lower, upper, searched, settled, knownLower, knownUpper,
        around.1 lower (tracks.lower.symm.trans knownLower),
        around.2 upper (tracks.upper.symm.trans knownUpper), near.trans ?_⟩
      exact max_le_max_left 1 (ceilQuotient_le inRange.1 inRange.2)
    next => cases narrow

/-- A system with a threshold, as far as a probe can be observed. -/
def probeAnswer (basis : String) (threshold target : Nat) : DiscoveryObservation :=
  if observable : (0 < target ∧ target ≤ maxCount) ∧ basis ≠ "unknown" then
    { request := ⟨.input, target, "input:v2"⟩
      outcome := if target ≤ threshold then .admitted else .refused
      coordinate := some target
      countBasis := basis
      counted := fun _ => ⟨⟨target, rfl, observable.1⟩, observable.2⟩ }
  else
    { request := ⟨.input, target, "input:v2"⟩
      outcome := .inconclusive
      coordinate := none
      countBasis := "unknown"
      counted := by rintro (impossible | impossible) <;> cases impossible }

theorem probeAnswer_answers {basis : String} {threshold target : Nat}
    (inRange : 0 < target ∧ target ≤ maxCount) (known : basis ≠ "unknown") :
    Answers .input basis "input:v2" threshold target (probeAnswer basis threshold target) := by
  rw [probeAnswer, dif_pos ⟨inRange, known⟩]
  exact ⟨rfl, rfl, rfl, rfl, rfl⟩

theorem ceilQuotient_three_two : ceilQuotient (1 * 3) 2 = 2 := by
  apply Nat.le_antisymm
  · exact Nat.ceil_le.mpr (Doubles.nearest_le_natCast (n := 2) (by norm_num) (by norm_num)
      (by norm_num))
  · exact lt_ceilQuotient Nat.one_pos (by decide)

/-- The targets one and two are all that a search for the threshold one comes to. -/
theorem asks_one {target : Nat}
    (asks : Bracket.Asks (probeAnswer "input" 1) { axis := .input, seed := 1 } target) :
    target = 1 ∨ target = 2 := by
  have first : ∃ bracket, Bracket.search (probeAnswer "input" 1) { axis := .input, seed := 1 } 1 =
      .ok bracket ∧ bracket.lower = some 1 ∧ bracket.upper = none ∧ bracket.nonprogress = 0 ∧
        bracket.observe (probeAnswer "input" 1 2) =
          .ok { bracket with upper := some 2, history := bracket.history ++
            [probeAnswer "input" 1 2] } := ⟨_, rfl, rfl, rfl, rfl, rfl⟩
  obtain ⟨one, searched, lower, upper, progress, observed⟩ := first
  have next : one.target = 2 := by
    unfold Bracket.target
    rw [lower, upper]
    exact ceilQuotient_three_two
  have searching : one.searching = true := by
    simp [Bracket.searching, Bracket.converged, lower, upper, progress]
  have settled : ∀ steps, Bracket.search (probeAnswer "input" 1) { axis := .input, seed := 1 }
      (steps + 2) = .ok { one with
        upper := some 2
        history := one.history ++ [probeAnswer "input" 1 2] } := by
    intro steps
    induction steps with
    | zero =>
        rw [Bracket.search, searched]
        show Bracket.advance _ one = _
        rw [Bracket.advance, if_pos searching, next, observed]
    | succ steps induction =>
        rw [Bracket.search, induction]
        show Bracket.advance _ _ = _
        rw [Bracket.advance, if_neg]
        simp [Bracket.searching, Bracket.converged, lower, Bracket.width]
  obtain ⟨steps, bracket, reached, open_, rfl⟩ := asks
  match steps with
  | 0 =>
      cases reached
      exact .inl rfl
  | 1 =>
      rw [searched] at reached
      cases reached
      exact .inr next
  | steps + 2 =>
      rw [settled] at reached
      cases reached
      simp [Bracket.searching, Bracket.converged, lower, Bracket.width] at open_

theorem bracket_sound_and_finds_one :
    ∃ steps bracket lower upper,
      Bracket.search (probeAnswer "input" 1) { axis := .input, seed := 1 } steps = .ok bracket ∧
        bracket.converged = true ∧ bracket.lower = some lower ∧ bracket.upper = some upper ∧
        lower ≤ 1 ∧ 1 < upper ∧ upper - lower ≤ max 1 ⌈(lower : ℚ) / 200⌉₊ :=
  bracket_sound_and_finds.2 .input 1 1 "input" "input:v2" (probeAnswer "input" 1) (le_refl _)
    (le_refl _) (by decide) fun target asks => probeAnswer_answers
      (by rcases asks_one asks with rfl | rfl <;> decide) (by decide)

/-- Counts of another axis are not compared, and the search gives up. -/
theorem foreign_basis_not_found :
    ¬ ∀ (axis : Axis) (seed threshold : Nat) (basis control : String)
      (answer : Nat → DiscoveryObservation),
      1 ≤ seed → 1 ≤ threshold →
        (∀ target, Bracket.Asks answer { axis := axis, seed := seed } target →
          Answers axis basis control threshold target (answer target)) →
        ∃ steps bracket, Bracket.search answer { axis := axis, seed := seed } steps = .ok bracket ∧
          bracket.converged = true := by
  intro claim
  have unbounded : ∀ steps bracket, Bracket.search (probeAnswer "output" 1)
      { axis := .input, seed := 1 } steps = .ok bracket →
        bracket.axis = .input ∧ bracket.seed = 1 ∧ bracket.lower = none ∧ bracket.upper = none := by
    intro steps
    induction steps with
    | zero =>
        rintro _ ⟨⟩
        exact ⟨rfl, rfl, rfl, rfl⟩
    | succ steps induction =>
        intro bracket searched
        rw [Bracket.search] at searched
        cases before : Bracket.search (probeAnswer "output" 1) { axis := .input, seed := 1 } steps with
        | error problem =>
            rw [before] at searched
            cases searched
        | ok earlier =>
            obtain ⟨axis, seed, lower, upper⟩ := induction earlier before
            have target : earlier.target = 1 := by
              unfold Bracket.target
              rw [lower, upper]
              exact seed
            rw [before] at searched
            change Bracket.advance _ earlier = _ at searched
            rw [Bracket.advance, target] at searched
            split at searched
            · unfold Bracket.observe at searched
              rw [if_neg (by rw [axis]; decide)] at searched
              simp only [axis] at searched
              cases searched
              exact ⟨rfl, seed, lower, upper⟩
            · cases searched
              exact ⟨axis, seed, lower, upper⟩
  obtain ⟨steps, bracket, searched, converged⟩ := claim .input 1 1 "output" "input:v2"
    (probeAnswer "output" 1) (le_refl _) (le_refl _) (by
      rintro target ⟨steps, bracket, searched, _, rfl⟩
      obtain ⟨_, seed, lower, upper⟩ := unbounded steps bracket searched
      have target : bracket.target = 1 := by
        unfold Bracket.target
        rw [lower, upper]
        exact seed
      rw [target]
      exact probeAnswer_answers (by decide) (by decide))
  obtain ⟨_, _, lower, _⟩ := unbounded steps bracket searched
  unfold Bracket.converged at converged
  rw [lower] at converged
  cases converged

end CityPods.Discovery
