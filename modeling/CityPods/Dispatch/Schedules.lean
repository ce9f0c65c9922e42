import CityPods.Dispatch.Reservation

/-! # Schedules of a route

The starts that runs of claims schedule on one route. Each claim opens a lane at
its own time; a job of the lane is admitted where the ledger lets it start, and
the lane goes on after the spacing of the route.
-/

namespace CityPods.Dispatch

open Foundation

/-- A job that was admitted, with its scheduled start and its charge. -/
structure Admission where
  entry : LaneJob
  notBeforeAt : ℚ
  reservation : ℚ

structure Schedule where
  ledger : RouteLedger
  laneTime : ℚ
  admitted : List Admission := []

section

variable (calendar : Calendar) (route : CatalogRoute) (window : ClaimWindow)

def Schedule.charge (entry : LaneJob) (wait : LaneWait) (schedule : Schedule) : Schedule where
  ledger := applyProvisionalReservation calendar route schedule.ledger wait.reservation
    wait.notBeforeAt (some entry.leaseToken)
  laneTime := wait.notBeforeAt + wait.minInterRequestGapMs
  admitted := schedule.admitted ++ [⟨entry, wait.notBeforeAt, wait.reservation⟩]

def Schedule.waitOf (entry : LaneJob) (schedule : Schedule) : Option LaneWait :=
  match computeRouteLaneWait calendar route schedule.ledger entry.job schedule.laneTime window.now
      entry.options with
  | .error _ => none
  | .ok wait =>
      if window.dispatchWindowEnd < wait.notBeforeAt + window.callDurationCeilingMs then none
      else some wait

def Schedule.offer (schedule : Schedule) (entry : LaneJob) : Schedule :=
  match schedule.waitOf calendar route window entry with
  | none => schedule
  | some wait => schedule.charge calendar route entry wait

def Schedule.claim (jobs : List LaneJob) (schedule : Schedule) : Schedule :=
  jobs.foldl (Schedule.offer calendar route window) { schedule with laneTime := window.now }

end

/-- What is asked of a run: of a claim before it opens its lane, of each job as it is
admitted, and of what else changes the ledger between claims. -/
structure Regime where
  opens : Schedule → ClaimWindow → Prop := fun _ _ => True
  admits : Schedule → ClaimWindow → LaneJob → Prop := fun _ _ _ => True
  changes : RouteLedger → RouteLedger → Prop := fun _ _ => False

section

variable (calendar : Calendar) (route : CatalogRoute) (regime : Regime)

def Regime.Sequences (window : ClaimWindow) : List LaneJob → Schedule → Prop
  | [], _ => True
  | entry :: later, schedule =>
      ((schedule.waitOf calendar route window entry).isSome →
        regime.admits schedule window entry) ∧
      Sequences window later (schedule.offer calendar route window entry)

/-- The schedules that claims with a non-decreasing clock reach from a ledger. A claim
has a lane on the route where it has jobs for it. -/
inductive ScheduleRun (start : RouteLedger) (opened : ℚ) : Schedule → (clock : ℚ) → Prop
  | start : ScheduleRun start opened ⟨start, opened, []⟩ opened
  | claim {schedule : Schedule} {clock : ℚ} (run : ScheduleRun start opened schedule clock)
      (window : ClaimWindow) (jobs : List LaneJob) (offered : jobs ≠ [])
      (later : clock ≤ window.now) (opens : regime.opens schedule window)
      (sequences : regime.Sequences calendar route window jobs
        { schedule with laneTime := window.now }) :
      ScheduleRun start opened (schedule.claim calendar route window jobs) window.now
  | other {schedule : Schedule} {clock : ℚ} (run : ScheduleRun start opened schedule clock)
      (ledger : RouteLedger) (changes : regime.changes schedule.ledger ledger) :
      ScheduleRun start opened { schedule with ledger := ledger } clock

variable {calendar route regime}

theorem ScheduleRun.invariant {Invariant : Schedule → ℚ → Prop} {start : RouteLedger} {opened : ℚ}
    (initial : Invariant ⟨start, opened, []⟩ opened)
    (opening : ∀ schedule clock window, Invariant schedule clock → clock ≤ window.now →
      regime.opens schedule window → Invariant { schedule with laneTime := window.now } window.now)
    (admission : ∀ schedule window entry wait, Invariant schedule window.now →
      schedule.waitOf calendar route window entry = some wait →
        regime.admits schedule window entry →
          Invariant (schedule.charge calendar route entry wait) window.now)
    (changed : ∀ schedule clock ledger, Invariant schedule clock →
      regime.changes schedule.ledger ledger → Invariant { schedule with ledger := ledger } clock)
    {schedule : Schedule} {clock : ℚ}
    (run : ScheduleRun calendar route regime start opened schedule clock) :
    Invariant schedule clock := by
  have lane (window : ClaimWindow) (jobs : List LaneJob) (schedule : Schedule)
      (holds : Invariant schedule window.now)
      (sequences : regime.Sequences calendar route window jobs schedule) :
      Invariant (jobs.foldl (Schedule.offer calendar route window) schedule) window.now := by
    induction jobs generalizing schedule with
    | nil => exact holds
    | cons entry rest induction =>
        refine induction _ ?_ sequences.2
        unfold Schedule.offer
        cases waited : schedule.waitOf calendar route window entry with
        | none => exact holds
        | some wait =>
            exact admission schedule window entry wait holds waited
              (sequences.1 (by rw [waited]; rfl))
  induction run with
  | start => exact initial
  | claim run window jobs offered later opens sequences induction =>
      exact lane window jobs _ (opening _ _ window induction later opens) sequences
  | other run ledger changes induction => exact changed _ _ ledger induction changes

theorem computeRouteLaneWait_gap {ledger : RouteLedger} {job : SizedJob} {laneTime now : ℚ}
    {options : PacingOptions} {wait : LaneWait}
    (waited : computeRouteLaneWait calendar route ledger job laneTime now options = .ok wait) :
    wait.minInterRequestGapMs = minInterRequestGapMs route := by
  unfold computeRouteLaneWait at waited
  cases safe : earliestSafeStart calendar route ledger job laneTime now options with
  | error refusal =>
      rw [safe] at waited
      cases waited
  | ok start =>
      rw [safe] at waited
      cases waited
      rfl

/-- A start in the lane is one that the pacing allows. -/
theorem Schedule.waitOf_eq_some {schedule : Schedule} {window : ClaimWindow} {entry : LaneJob}
    {wait : LaneWait} (waited : schedule.waitOf calendar route window entry = some wait) :
    computeRouteLaneWait calendar route schedule.ledger entry.job schedule.laneTime window.now
      entry.options = .ok wait := by
  unfold Schedule.waitOf at waited
  split at waited
  · cases waited
  · next found safe =>
    split at waited
    · cases waited
    · cases waited
      exact safe

end

end CityPods.Dispatch
