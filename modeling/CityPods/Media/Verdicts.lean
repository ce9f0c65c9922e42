import CityPods.Media.Availability

/-! # The verdict and its evidence

The stored verdict read off the history of observations and overrides. A history
has its latest event first.
-/

namespace CityPods.Media

open Foundation

/-! ## Evidence -/

def observed : Event → Option Observation
  | .observe obs => if obs.kind = "transport_failed" then none else some obs
  | .override .. => none

/-- The fingerprint of the source bytes that the history is about by now. -/
def storedFingerprint : List Event → Option String
  | [] => none
  | event :: earlier =>
      match observed event with
      | none => storedFingerprint earlier
      | some obs => fingerprintOr obs.fingerprint (storedFingerprint earlier)

/-- The observations of the present source bytes, the latest one first. -/
def aboutSource : List Event → List Observation
  | [] => []
  | event :: earlier =>
      match observed event with
      | none => aboutSource earlier
      | some obs =>
          if differs (storedFingerprint earlier) obs.fingerprint then [obs]
          else obs :: aboutSource earlier

/-- How many observations of this kind end the history in a row, all of them about
the same source bytes. -/
def consecutive (kind : String) (history : List Event) : Nat :=
  ((aboutSource history).takeWhile fun obs => obs.kind = kind).length

/-- The override that was set last, unless the media has changed since. -/
def overrideInForce : List Event → Option State
  | [] => none
  | .override state _ _ :: _ => state.bind overrideStates.get?
  | .observe obs :: earlier =>
      match observed (.observe obs) with
      | none => overrideInForce earlier
      | some obs =>
          if differs (storedFingerprint earlier) obs.fingerprint then none
          else overrideInForce earlier

def lastObservation : List Event → Option (Observation × List Event)
  | [] => none
  | event :: earlier =>
      match observed event with
      | none => lastObservation earlier
      | some obs => some (obs, earlier)

def Recovers (history : List Event) : Prop :=
  ∃ obs earlier prior, lastObservation history = some (obs, earlier) ∧ obs.kind = "playable" ∧
    differs (storedFingerprint earlier) obs.fingerprint = false ∧
    fold earlier.reverse = some (some prior) ∧ prior.isWithheld = true

structure Determined (history : List Event) (verdict : MediaAvailability) : Prop where
  fingerprint : verdict.sourceFingerprint = storedFingerprint history
  silent : verdict.silentConfirmations = consecutive "silent" history
  shortened : verdict.partialConfirmations = consecutive "partial" history
  override : verdict.operatorOverride = overrideInForce history
  empty : verdict.state = .confirmedEmpty ↔ 2 ≤ consecutive "silent" history
  incomplete : verdict.state = .confirmedPartial ↔ 2 ≤ consecutive "partial" history
  recovered : verdict.state = .recovered ↔ Recovers history

/-- A history that has left no verdict has no evidence. -/
structure Unexamined (history : List Event) : Prop where
  fingerprint : storedFingerprint history = none
  observations : aboutSource history = []
  override : overrideInForce history = none
  last : lastObservation history = none

def Judged (history : List Event) : Option MediaAvailability → Prop
  | none => Unexamined history
  | some verdict => Determined history verdict

/-! ## Reading a history -/

theorem fold_cons (event : Event) (earlier : List Event) :
    fold (event :: earlier).reverse = (fold earlier.reverse).bind fun prior => apply prior event := by
  rw [fold, List.reverse_cons, List.foldlM_append]
  simp [fold]

section

variable {event : Event} {earlier : List Event}

theorem storedFingerprint_unseen (seen : observed event = none) :
    storedFingerprint (event :: earlier) = storedFingerprint earlier := by
  rw [storedFingerprint, seen]

theorem consecutive_unseen (seen : observed event = none) (kind : String) :
    consecutive kind (event :: earlier) = consecutive kind earlier := by
  rw [consecutive, consecutive, aboutSource, seen]

theorem recovers_unseen (seen : observed event = none) :
    Recovers (event :: earlier) ↔ Recovers earlier := by
  rw [Recovers, Recovers, lastObservation, seen]

variable {obs : Observation}

theorem storedFingerprint_obs (seen : observed event = some obs) :
    storedFingerprint (event :: earlier) =
      fingerprintOr obs.fingerprint (storedFingerprint earlier) := by
  rw [storedFingerprint, seen]

variable {kind : String}

theorem consecutive_other (seen : observed event = some obs)
    (other : obs.kind ≠ kind) : consecutive kind (event :: earlier) = 0 := by
  rw [consecutive, aboutSource, seen]
  simp only []
  split <;> simp [other]

theorem consecutive_same (seen : observed event = some obs) (same : obs.kind = kind) :
    consecutive kind (event :: earlier) =
      (if differs (storedFingerprint earlier) obs.fingerprint then 0
        else consecutive kind earlier) + 1 := by
  rw [consecutive, aboutSource, seen]
  simp only []
  split <;> simp [same, consecutive]

theorem recovers_obs (seen : observed event = some obs) :
    Recovers (event :: earlier) ↔
      obs.kind = "playable" ∧ differs (storedFingerprint earlier) obs.fingerprint = false ∧
        ∃ prior, fold earlier.reverse = some (some prior) ∧ prior.isWithheld = true := by
  rw [Recovers, lastObservation, seen]
  constructor
  · rintro ⟨found, before, prior, same, playable, known, folded, withheld⟩
    cases same
    exact ⟨playable, known, prior, folded, withheld⟩
  · rintro ⟨playable, known, prior, folded, withheld⟩
    exact ⟨obs, earlier, prior, rfl, playable, known, folded, withheld⟩

/-! ## What a verdict is built on -/

variable {history : List Event} {prior : Option MediaAvailability}

theorem Judged.fingerprint (judged : Judged history prior) :
    prior.bind (·.sourceFingerprint) = storedFingerprint history := by
  cases prior with
  | none => exact (Unexamined.fingerprint judged).symm
  | some verdict => exact Determined.fingerprint judged

theorem Judged.silent (judged : Judged history prior) :
    (prior.map (·.silentConfirmations)).getD 0 = consecutive "silent" history := by
  cases prior with
  | none => rw [consecutive, Unexamined.observations judged]; rfl
  | some verdict => exact Determined.silent judged

theorem Judged.shortened (judged : Judged history prior) :
    (prior.map (·.partialConfirmations)).getD 0 = consecutive "partial" history := by
  cases prior with
  | none => rw [consecutive, Unexamined.observations judged]; rfl
  | some verdict => exact Determined.shortened judged

theorem Judged.override (judged : Judged history prior) :
    prior.bind (·.operatorOverride) = overrideInForce history := by
  cases prior with
  | none => exact (Unexamined.override judged).symm
  | some verdict => exact Determined.override judged

theorem Judged.freshSource (judged : Judged history prior) (obs : Observation) :
    freshSource prior obs = differs (storedFingerprint history) obs.fingerprint := by
  cases prior with
  | none => rw [Media.freshSource, Unexamined.fingerprint judged]; rfl
  | some verdict => rw [Media.freshSource, Determined.fingerprint judged]

/-! ## Steps -/

theorem baseOf_silent (judged : Judged history prior) (obs : Observation) :
    ((baseOf prior obs).map (·.silentConfirmations)).getD 0 =
      if differs (storedFingerprint history) obs.fingerprint then 0
      else consecutive "silent" history := by
  rw [baseOf, judged.freshSource]
  split
  · rfl
  · exact judged.silent

theorem baseOf_shortened (judged : Judged history prior) (obs : Observation) :
    ((baseOf prior obs).map (·.partialConfirmations)).getD 0 =
      if differs (storedFingerprint history) obs.fingerprint then 0
      else consecutive "partial" history := by
  rw [baseOf, judged.freshSource]
  split
  · rfl
  · exact judged.shortened

theorem baseOf_withheld (judged : Judged history prior)
    (folded : fold history.reverse = some prior) (obs : Observation) :
    ((baseOf prior obs).map (·.isWithheld)).getD false = true ↔
      differs (storedFingerprint history) obs.fingerprint = false ∧
        ∃ verdict, fold history.reverse = some (some verdict) ∧ verdict.isWithheld = true := by
  rw [baseOf, judged.freshSource, folded]
  cases differs (storedFingerprint history) obs.fingerprint with
  | true => simp
  | false => cases prior <;> simp

theorem determined_build (judged : Judged history prior)
    (seen : observed (.observe obs) = some obs) {state : State} {silent shortened : Nat}
    (reason : String) (recoveredAt : Option String)
    (silentHolds : silent = consecutive "silent" (.observe obs :: history))
    (shortenedHolds : shortened = consecutive "partial" (.observe obs :: history))
    (empty : state = .confirmedEmpty ↔ 2 ≤ silent)
    (incomplete : state = .confirmedPartial ↔ 2 ≤ shortened)
    (recovered : state = .recovered ↔ Recovers (.observe obs :: history)) :
    Determined (.observe obs :: history)
      (build prior (baseOf prior obs) obs state silent shortened reason recoveredAt) where
  fingerprint := by rw [storedFingerprint_obs seen, ← judged.fingerprint]; rfl
  silent := silentHolds
  shortened := shortenedHolds
  override := by
    have inForce : overrideInForce (.observe obs :: history) =
        if differs (storedFingerprint history) obs.fingerprint then none
        else overrideInForce history := by simp only [overrideInForce, seen]
    change (baseOf prior obs).bind _ = _
    rw [inForce, baseOf, judged.freshSource]
    cases differs (storedFingerprint history) obs.fingerprint with
    | true => rfl
    | false => exact judged.override
  empty := silentHolds ▸ empty
  incomplete := shortenedHolds ▸ incomplete
  recovered := recovered

theorem kind_cases {name : String} {kind : Kind} (found : kinds.get? name = some kind) :
    (name = "silent" ∧ kind = .silent) ∨ (name = "playable" ∧ kind = .playable) ∨
      (name = "partial" ∧ kind = .shortened) ∨
      (name = "transport_failed" ∧ kind = .transportFailed) ∨ (name = "dead" ∧ kind = .dead) ∨
      (name = "missing" ∧ kind = .absent) := by
  simpa [kinds] using Dict.get?_eq_some_mem found

theorem judged_observe (judged : Judged history prior) (folded : fold history.reverse = some prior)
    {next : Option MediaAvailability} (returned : classify prior obs = some next) :
    Judged (.observe obs :: history) next := by
  obtain ⟨kind, found, same⟩ := Option.map_eq_some_iff.mp returned
  subst same
  rcases kind_cases found with ⟨name, equal⟩ | ⟨name, equal⟩ | ⟨name, equal⟩ | ⟨name, equal⟩ |
    ⟨name, equal⟩ | ⟨name, equal⟩ <;> subst equal
  · -- silent
    have seen : observed (.observe obs) = some obs := by simp [observed, name]
    have counted : consecutive "silent" (.observe obs :: history) = _ :=
      consecutive_same seen name
    rw [← baseOf_silent judged obs] at counted
    apply determined_build judged seen _ _ counted.symm
    · rw [consecutive_other seen (by simp [name])]
    · split
      · next confirmed => simpa [confirmThreshold] using confirmed
      · next suspected => simpa [confirmThreshold] using suspected
    · split <;> simp
    · rw [recovers_obs seen]
      split <;> simp [name]
  · -- playable
    have seen : observed (.observe obs) = some obs := by simp [observed, name]
    have silent : 0 = consecutive "silent" (.observe obs :: history) :=
      (consecutive_other seen (by simp [name])).symm
    have shortened : 0 = consecutive "partial" (.observe obs :: history) :=
      (consecutive_other seen (by simp [name])).symm
    have withheld := baseOf_withheld judged folded obs
    rw [judge]
    split
    · next before =>
        apply determined_build judged seen _ _ silent shortened (by simp) (by simp)
        simpa [recovers_obs seen, name] using withheld.mp before
    · next before =>
        apply determined_build judged seen _ _ silent shortened (by simp) (by simp)
        rw [recovers_obs seen, ← withheld]
        simp [before]
  · -- a short source
    have seen : observed (.observe obs) = some obs := by simp [observed, name]
    have counted : consecutive "partial" (.observe obs :: history) = _ :=
      consecutive_same seen name
    rw [← baseOf_shortened judged obs] at counted
    refine determined_build judged seen _ _ ?_ counted.symm ?_ ?_ ?_
    · rw [consecutive_other seen (by simp [name])]
    · split <;> simp
    · split
      · next confirmed => simpa [confirmThreshold] using confirmed
      · next suspected => simpa [confirmThreshold] using suspected
    · rw [recovers_obs seen]
      split <;> simp [name]
  · -- a transport failure
    have seen : observed (.observe obs) = none := by simp [observed, name]
    have override : overrideInForce (.observe obs :: history) = overrideInForce history := by
      rw [overrideInForce, seen]
    cases prior with
    | none =>
        exact ⟨(storedFingerprint_unseen seen).trans (Unexamined.fingerprint judged),
          by rw [aboutSource, seen]; exact Unexamined.observations judged,
          override.trans (Unexamined.override judged),
          by rw [lastObservation, seen]; exact Unexamined.last judged⟩
    | some verdict =>
        have held : Determined history verdict := judged
        refine ⟨?_, ?_, ?_, ?_, ?_, ?_, ?_⟩
        · rw [storedFingerprint_unseen seen]
          exact held.fingerprint
        · rw [consecutive_unseen seen]
          exact held.silent
        · rw [consecutive_unseen seen]
          exact held.shortened
        · rw [override]
          exact held.override
        · rw [consecutive_unseen seen]
          exact held.empty
        · rw [consecutive_unseen seen]
          exact held.incomplete
        · rw [recovers_unseen seen]
          exact held.recovered
  · -- dead
    have seen : observed (.observe obs) = some obs := by simp [observed, name]
    apply determined_build judged seen
    · rw [consecutive_other seen (by simp [name])]
    · rw [consecutive_other seen (by simp [name])]
    · simp
    · simp
    · simp [recovers_obs seen, name]
  · -- absent
    have seen : observed (.observe obs) = some obs := by simp [observed, name]
    apply determined_build judged seen
    · rw [consecutive_other seen (by simp [name])]
    · rw [consecutive_other seen (by simp [name])]
    · simp
    · simp
    · simp [recovers_obs seen, name]

theorem judged_override (judged : Judged history prior) {state : Option String}
    {reason now : String} {next : MediaAvailability}
    (returned : withOperatorOverride prior state reason now = some next) :
    Determined (.override state reason now :: history) next := by
  have seen : observed (.override state reason now) = none := rfl
  have evidence : next.sourceFingerprint = storedFingerprint history ∧
      next.silentConfirmations = consecutive "silent" history ∧
      next.partialConfirmations = consecutive "partial" history ∧
      next.operatorOverride = state.bind overrideStates.get? ∧
      (next.state = .confirmedEmpty ↔ 2 ≤ consecutive "silent" history) ∧
      (next.state = .confirmedPartial ↔ 2 ≤ consecutive "partial" history) ∧
      (next.state = .recovered ↔ Recovers history) := by
    cases prior with
    | none =>
        have blank : Unexamined history := judged
        have counts : ∀ kind, consecutive kind history = 0 := by
          intro kind
          rw [consecutive, blank.observations]
          rfl
        have unrecovered : ¬ Recovers history := by
          rintro ⟨obs, earlier, verdict, last, -⟩
          rw [blank.last] at last
          cases last
        cases state with
        | none => cases returned
        | some name =>
            obtain ⟨forced, found, same⟩ := Option.map_eq_some_iff.mp returned
            subst same
            simp [counts, unrecovered, blank.fingerprint, found]
    | some verdict =>
        have held : Determined history verdict := judged
        cases state with
        | none =>
            cases returned
            exact ⟨held.fingerprint, held.silent, held.shortened, rfl, held.empty, held.incomplete,
              held.recovered⟩
        | some name =>
            obtain ⟨forced, found, same⟩ := Option.map_eq_some_iff.mp returned
            subst same
            exact ⟨held.fingerprint, held.silent, held.shortened, found.symm, held.empty,
              held.incomplete, held.recovered⟩
  obtain ⟨fingerprint, silent, shortened, override, empty, incomplete, recovered⟩ := evidence
  refine ⟨?_, ?_, ?_, override, ?_, ?_, ?_⟩
  · rw [storedFingerprint_unseen seen]
    exact fingerprint
  · rw [consecutive_unseen seen]
    exact silent
  · rw [consecutive_unseen seen]
    exact shortened
  · rw [consecutive_unseen seen]
    exact empty
  · rw [consecutive_unseen seen]
    exact incomplete
  · rw [recovers_unseen seen]
    exact recovered

end

/-! ## Every history -/

theorem judged_fold (history : List Event) {verdict : Option MediaAvailability}
    (folded : fold history.reverse = some verdict) : Judged history verdict := by
  induction history generalizing verdict with
  | nil =>
      cases folded
      exact ⟨rfl, rfl, rfl, rfl⟩
  | cons event earlier induction =>
      rw [fold_cons] at folded
      obtain ⟨prior, before, applied⟩ := Option.bind_eq_some_iff.mp folded
      cases event with
      | observe obs => exact judged_observe (induction before) before applied
      | override state reason now =>
          obtain ⟨next, returned, same⟩ := Option.map_eq_some_iff.mp applied
          subst same
          exact judged_override (induction before) returned

/-- The verdict after any sequence of observations and overrides is what its evidence
determines, and a transport failure is no evidence. -/
theorem verdict_determined {events : List Event} {verdict : MediaAvailability}
    (folded : fold events = some (some verdict)) :
    Determined events.reverse verdict ∧
      ∀ obs, obs.kind = "transport_failed" →
        classify (some verdict) obs = some (some { verdict with lastCheck := some obs.now }) := by
  constructor
  · rw [← List.reverse_reverse events] at folded
    exact judged_fold events.reverse folded
  · intro obs failed
    simp [classify, failed, kinds, Dict.get?, judge]

/-! Two silent fetches, of which the second does not name its source. -/

def silentTwice : List Event :=
  [.observe { kind := "silent", fingerprint := some "a", profile := "", reason := "", now := "1" },
    .observe { kind := "silent", fingerprint := none, profile := "", reason := "", now := "2" }]

def confirmedSilent : MediaAvailability where
  state := .confirmedEmpty
  reason := "near-total silence confirmed on 2 independent fetches"
  detectorVersion := "1"
  sourceFingerprint := some "a"
  profile := ""
  lastCheck := some "2"
  silentConfirmations := 2
  partialConfirmations := 0
  evidenceRef := none
  operatorOverride := none
  operatorReason := ""
  recoveredAt := none

theorem verdict_determined_silent :
    Determined silentTwice.reverse confirmedSilent ∧
      ∀ obs, obs.kind = "transport_failed" →
        classify (some confirmedSilent) obs =
          some (some { confirmedSilent with lastCheck := some obs.now }) :=
  verdict_determined (show fold silentTwice = some (some confirmedSilent) by decide)

end CityPods.Media
