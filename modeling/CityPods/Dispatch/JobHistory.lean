import CityPods.Dispatch.ConcurrencyCaps
import CityPods.Dispatch.RetryBounds
import Mathlib.Logic.Relation

/-! # The life of a job

Where an operation may take a job, as edges between the states of its row; what
follows for a job over whole runs, from its acceptance to the discard of its result.
-/

namespace CityPods.Dispatch

open Foundation

/-- A run that goes on from a state by permitted steps. -/
inductive Coordinator.Continues (permitted : Coordinator → Operation → Coordinator → Prop)
    (start : Coordinator) : Coordinator → Prop
  | refl : Continues permitted start start
  | step {middle after : Coordinator} (earlier : Continues permitted start middle)
      (operation : Operation) (fresh : operation.Fresh middle)
      (ran : operation.run middle = some after) (allowed : permitted middle operation after) :
      Continues permitted start after

def Coordinator.stateOf (jobId : String) (state : Coordinator) : Option JobState :=
  (state.tables.jobs.get? jobId).map JobRow.state

/-- The edges of an operation. -/
def Operation.Turns : Operation → Option JobState → Option JobState → Prop
  | .enqueueBatch .., before, after | .schemaRetry .., before, after =>
      before ∉ [some .leased, some .unknownAttempt] ∧ after = some .queued
  | .cancelBatch .., before, after =>
      before ∈ [some .queued, some .completed, some .retryable, some .failed] ∧
        after = some .purgePending
  | .claimDispatchWindow .., before, after =>
      before = some .leased ∧ after = some .queued ∨
        before = some .queued ∧ after ∈ [some .queued, some .leased, some .failed]
  | .completeBatch .., before, after =>
      before = some .leased ∧ after ∈ [some .queued, some .completed, some .failed]
  | .ackResults .., before, after => before = some .completed ∧ after = some .purgePending
  | .retireConsumed .., before, after => before = some .completed ∧ after = none
  | .purgePendingBatch .., before, after =>
      before ∈ [some .completed, some .failed] ∧ after = some .purgePending
  | .confirmPurge .., before, after => before = some .purgePending ∧ after = none
  | _, before, after => after = before

section

variable {operation : Operation} {change : Change} {start state after : Coordinator}
  {jobId : String}

theorem Operation.Allows.turns (allows : operation.Allows change) :
    operation.Turns (change.before.map JobRow.state) (change.after.map JobRow.state) := by
  cases operation with
  | enqueueBatch | schemaRetry =>
      refine ⟨fun running => ?_, List.mem_singleton.mp allows.target⟩
      have source := allows.source
      generalize change.before.map JobRow.state = before at source running
      revert before
      decide
  | cancelBatch => exact ⟨allows.2.source, List.mem_singleton.mp allows.2.target⟩
  | claimDispatchWindow =>
      rcases allows with requeued | reconciled | leased
      · exact .inl ⟨List.mem_singleton.mp requeued.source, List.mem_singleton.mp requeued.target⟩
      · refine .inr ⟨List.mem_singleton.mp reconciled.source, ?_⟩
        exact (by decide : [some JobState.queued, some .failed] ⊆ _) reconciled.target
      · refine .inr ⟨leased.source, ?_⟩
        rw [leased.target]
        decide
  | completeBatch => exact ⟨List.mem_singleton.mp allows.source, allows.target⟩
  | ackResults =>
      obtain ⟨row, found⟩ := Option.isSome_iff_exists.mp allows.present
      refine ⟨?_, allows.target⟩
      rw [found, Option.map_some, (allows.held row found).2]
  | purgePendingBatch =>
      obtain ⟨row, found⟩ := Option.isSome_iff_exists.mp allows.present
      refine ⟨?_, allows.target⟩
      rw [found, Option.map_some]
      rcases (allows.held row found).1 with same | same <;> rw [same] <;> decide
  | retireConsumed =>
      obtain ⟨row, found⟩ := Option.isSome_iff_exists.mp allows.present
      rw [found, Option.map_some, (allows.held row found).1, allows.target]
      exact ⟨rfl, rfl⟩
  | confirmPurge =>
      obtain ⟨row, found⟩ := Option.isSome_iff_exists.mp allows.present
      rw [found, Option.map_some, allows.held row found, allows.target]
      exact ⟨rfl, rfl⟩
  | authorizeRetry | setPriority =>
      obtain ⟨row, priority, attempts, before, after⟩ := allows
      rw [before, after]
      rfl
  | reserveRouteRequests | admitContext => exact allows.elim

def Passage (edges : Option JobState → Option JobState → Prop) (before after : Option JobRow) :
    Prop :=
  Relation.ReflTransGen edges (before.map JobRow.state) (after.map JobRow.state)

theorem Operation.passage (sound : state.Sound) (fresh : operation.Fresh state)
    (ran : operation.run state = some after) (jobId : String) :
    Relation.ReflTransGen operation.Turns (state.stateOf jobId) (after.stateOf jobId) := by
  have passed : Passage operation.Turns _ _ := (Operation.sound sound fresh ran).2.relates
    (fun _ => .refl) (fun _ _ _ => .trans) jobId fun _ allows _ => .single allows.turns
  exact passed

abbrev ownedStates : List (Option JobState) :=
  [some .queued, some .leased, some .completed, some .failed]

def Operation.LetsGo : Operation → Prop
  | .cancelBatch .. | .ackResults .. | .retireConsumed .. | .purgePendingBatch ..
  | .confirmPurge .. => True
  | _ => False

theorem Operation.Turns.target {before after : Option JobState}
    (turns : operation.Turns before after) : after = before ∨ after ∈ ownedStates ∨
      operation.LetsGo ∧ after ∈ [none, some .purgePending] := by
  cases operation with
  | enqueueBatch | schemaRetry =>
      rw [turns.2]
      exact .inr (.inl (by decide))
  | cancelBatch | ackResults | retireConsumed | purgePendingBatch | confirmPurge =>
      rw [turns.2]
      exact .inr (.inr ⟨trivial, by decide⟩)
  | claimDispatchWindow =>
      rcases turns with ⟨_, target⟩ | ⟨_, target⟩
      · rw [target]
        exact .inr (.inl (by decide))
      · exact .inr (.inl ((by decide : [some .queued, some .leased, some .failed] ⊆ _) target))
  | completeBatch =>
      exact .inr (.inl ((by decide : [some .queued, some .completed, some .failed] ⊆ _) turns.2))
  | _ => exact .inl turns

theorem Coordinator.Reaches.arises (unused : start.Unused) (reached : start.Reaches state)
    (jobId : String) : state.stateOf jobId ∈ none :: some .purgePending :: ownedStates := by
  induction reached with
  | refl => cases unused <;> exact List.mem_cons_self
  | @step _ after earlier operation fresh ran induction =>
      have passed := Operation.passage (earlier.sound (.of_unused unused)) fresh ran jobId
      generalize after.stateOf jobId = last at passed ⊢
      induction passed with
      | refl => exact induction
      | tail _ turns held =>
          rcases turns.target with same | owned | ⟨_, gone⟩
          · rwa [same]
          · exact List.mem_cons_of_mem _ (List.mem_cons_of_mem _ owned)
          · exact List.mem_append_left ownedStates gone

/-- In every run each operation takes each job along its edges only, and no job is ever
in an unknown attempt or merely retryable. -/
theorem jobs_follow_lifecycle (start state after : Coordinator) (unused : start.Unused)
    (reached : start.Reaches state) (operation : Operation) (fresh : operation.Fresh state)
    (ran : operation.run state = some after) (jobId : String) :
    Relation.ReflTransGen operation.Turns (state.stateOf jobId) (after.stateOf jobId) ∧
      after.stateOf jobId ≠ some .unknownAttempt ∧ after.stateOf jobId ≠ some .retryable := by
  have arises := (Coordinator.Reaches.step reached operation fresh ran).arises unused jobId
  refine ⟨Operation.passage (reached.sound (.of_unused unused)) fresh ran jobId, ?_, ?_⟩ <;>
    (intro same; rw [same] at arises; exact absurd arises (by decide))

/-! ## Jobs that nobody lets go of -/

/-- The operation lets go neither of the job by name nor of the jobs of its age. -/
def Operation.Spares (jobId : String) (state : Coordinator) : Operation → Prop
  | .cancelBatch _ _ jobIds | .ackResults _ _ jobIds => jobId ∉ jobIds
  | .retireConsumed _ items => jobId ∉ items.map Prod.fst
  | .purgePendingBatch _ now retentionMs _ _ =>
      ∀ row ∈ state.tables.jobs.get? jobId, retentionOver now retentionMs row = false
  | _ => True

def StaysAs (row : JobRow) (before after : Option JobRow) : Prop :=
  before = some row → after = some row

theorem Operation.owned (sound : state.Sound) (fresh : operation.Fresh state)
    (ran : operation.run state = some after) (spares : operation.Spares jobId state)
    (held : state.stateOf jobId ∈ ownedStates) : after.stateOf jobId ∈ ownedStates := by
  have moves := (Operation.sound sound fresh ran).2
  -- what names the job, or is past its age, does not touch a row that is spared
  have kept (apart : ∀ row, state.tables.jobs.get? jobId = some row → ∀ change,
      operation.Allows change → change.jobId = jobId → change.before ≠ some row) :
      after.stateOf jobId ∈ ownedStates := by
    cases found : state.tables.jobs.get? jobId with
    | none =>
        rw [Coordinator.stateOf, found] at held
        exact absurd held (by decide)
    | some row =>
        have stays : StaysAs row _ _ := moves.relates (fun _ same => same)
          (fun _ _ _ left right same => right (left same)) jobId
          fun change allows named same => absurd same (apart row found change allows named)
        have same : after.tables.jobs.get? jobId = some row := stays found
        rwa [Coordinator.stateOf, same, ← found]
  have walks (stays : operation.LetsGo → ∀ before after, before ∈ ownedStates →
      ¬ operation.Turns before after) : after.stateOf jobId ∈ ownedStates := by
    have passed := Operation.passage sound fresh ran jobId
    generalize after.stateOf jobId = last at passed
    induction passed with
    | refl => exact held
    | tail _ turns inside =>
        rcases turns.target with same | owned | ⟨lets, _⟩
        · rwa [same]
        · exact owned
        · exact absurd turns (stays lets _ _ inside)
  cases operation with
  | cancelBatch => exact kept fun _ _ _ cancelled named => absurd (named ▸ cancelled.1) spares
  | ackResults =>
      exact kept fun row _ _ purged named same =>
        absurd (named ▸ (purged.held row same).1) spares
  | retireConsumed =>
      exact kept fun row _ _ removed named same =>
        absurd (List.mem_map.mpr ⟨_, (removed.held row same).2, named⟩) spares
  | purgePendingBatch =>
      refine kept fun row found _ purged _ same => ?_
      have elapsed := (purged.held row same).2
      rw [spares row found] at elapsed
      cases elapsed
  | confirmPurge =>
      refine walks fun _ before _ inside turns => ?_
      rw [turns.1] at inside
      exact absurd inside (by decide)
  | _ => exact walks fun lets => lets.elim

/-- In every run a job that is queued, leased, completed or failed stays so, and its row
stays, for as long as no operation lets go of it by name or by age. -/
theorem owned_jobs_stay (start state later : Coordinator) (unused : start.Unused)
    (reached : start.Reaches state) (jobId : String) (held : state.stateOf jobId ∈ ownedStates)
    (continued : state.Continues (fun before operation _ => operation.Spares jobId before) later) :
    later.stateOf jobId ∈ ownedStates := by
  have both : later.Sound ∧ later.stateOf jobId ∈ ownedStates := by
    induction continued with
    | refl => exact ⟨reached.sound (.of_unused unused), held⟩
    | step _ operation fresh ran spares induction =>
        exact ⟨(Operation.sound induction.1 fresh ran).1,
          Operation.owned induction.1 fresh ran spares induction.2⟩
  exact both.2

/-! ## Results that a client was told of -/

def resultOf (row : Option JobRow) : Option (Option String) :=
  row.bind fun job => if job.state = .completed then some job.resultKey else none

def KeepsResult (before after : Option JobRow) : Prop :=
  ∀ key, resultOf before = some key → resultOf after = some key

theorem KeepsResult.of_ne {before : Option JobRow} (after : Option JobRow)
    (other : before.map JobRow.state ≠ some .completed) : KeepsResult before after := by
  intro key held
  obtain ⟨row, rfl, read⟩ := Option.bind_eq_some_iff.mp held
  rw [if_neg fun completed => other (congrArg some completed)] at read
  cases read

/-- An operation keeps a job's result, or it gives the job none. -/
theorem Operation.keepsResult (sound : state.Sound) (fresh : operation.Fresh state)
    (ran : operation.run state = some after) (jobId : String) :
    KeepsResult (state.tables.jobs.get? jobId) (after.tables.jobs.get? jobId) ∨
      KeepsResult (after.tables.jobs.get? jobId) (state.tables.jobs.get? jobId) := by
  have moves := (Operation.sound sound fresh ran).2
  have keeps (each : ∀ change, operation.Allows change →
      KeepsResult change.before change.after) : KeepsResult _ _ :=
    moves.relates (fun _ _ held => held) (fun _ _ _ left right key held => right key (left key held))
      jobId fun change allows _ => each change allows
  have drops (each : ∀ before after, operation.Turns before after → after ≠ some .completed) :
      flip KeepsResult _ _ :=
    moves.relates (fun _ _ held => held) (fun _ _ _ left right key held => left key (right key held))
      jobId fun change allows _ => .of_ne _ (each _ _ allows.turns)
  cases operation with
  | claimDispatchWindow =>
      refine .inl (keeps fun change allows => .of_ne _ fun completed => ?_)
      have turns := allows.turns
      rw [completed] at turns
      rcases turns with ⟨source, _⟩ | ⟨source, _⟩ <;> cases source
  | completeBatch =>
      refine .inl (keeps fun change allows => .of_ne _ fun completed => ?_)
      have source := allows.turns.1
      rw [completed] at source
      cases source
  | authorizeRetry | setPriority =>
      refine .inl (keeps fun change allows key held => ?_)
      obtain ⟨row, priority, attempts, before, after⟩ := allows
      rw [before] at held
      rw [after]
      exact held
  | reserveRouteRequests | admitContext => exact .inl (keeps fun _ impossible => impossible.elim)
  | _ =>
      refine .inr (drops fun before after turns same => ?_)
      rw [turns.2] at same
      cases same

/-- A poll or a page of the feed says that the job is completed with this result. -/
def Coordinator.Tells (jobId : String) (key : Option String) (state : Coordinator) : Prop :=
  (∃ ids, ∃ status ∈ pollBatch ids state,
    status.id = jobId ∧ status.state = .completed ∧ status.resultKey = key) ∨
  ∃ localeCompare cursor limit, ∃ entry ∈ (terminalFeed localeCompare cursor limit state).1,
    entry.id = jobId ∧ entry.state = .completed ∧ entry.resultKey = key

theorem Coordinator.Tells.holds {key : Option String} (coherent : state.tables.Coherent)
    (tells : state.Tells jobId key) : resultOf (state.tables.jobs.get? jobId) = some key := by
  rcases tells with ⟨ids, status, member, rfl, completed, rfl⟩ |
    ⟨localeCompare, cursor, limit, entry, member, rfl, completed, rfl⟩
  · obtain ⟨row, listed, rfl⟩ := List.mem_map.mp member
    obtain ⟨named, _, found⟩ := List.mem_filterMap.mp listed
    rw [← coherent.named _ _ found] at found
    replace completed : row.state = .completed := completed
    show resultOf (state.tables.jobs.get? row.id) = some (whenState _ _ _)
    rw [found, whenState, if_pos completed]
    exact if_pos completed
  · obtain ⟨row, listed, rfl⟩ := List.mem_map.mp member
    show resultOf (state.tables.jobs.get? row.id) = some row.resultKey
    rw [coherent.get?_of_mem_values (mem_oldestTerminal listed).1]
    exact if_pos completed

/-- In every run, from the moment at which a client is told of a completed job until the
job leaves that state, its row holds the result told: an acknowledgement or a retirement
that comes in between discards no other. -/
theorem told_result_stays (start told state : Coordinator) (unused : start.Unused)
    (reached : start.Reaches told) (jobId : String) (key : Option String)
    (tells : told.Tells jobId key)
    (continued : told.Continues (fun _ _ after => after.stateOf jobId = some .completed) state) :
    resultOf (state.tables.jobs.get? jobId) = some key := by
  have both : state.Sound ∧ resultOf (state.tables.jobs.get? jobId) = some key := by
    induction continued with
    | refl =>
        have sound := reached.sound (.of_unused unused)
        exact ⟨sound, tells.holds sound.coherent⟩
    | @step _ after _ operation fresh ran completed induction =>
        refine ⟨(Operation.sound induction.1 fresh ran).1, ?_⟩
        rcases Operation.keepsResult induction.1 fresh ran jobId with keeps | drops
        · exact keeps key induction.2
        · obtain ⟨row, found, done⟩ := Option.map_eq_some_iff.mp completed
          have holds : resultOf (after.tables.jobs.get? jobId) = some row.resultKey := by
            rw [found]
            exact if_pos done
          rw [holds, ← drops _ holds, induction.2]
  exact both.2

end

/-! ### One job, from its submission -/

theorem submitted_isSome : (afterSubmit ["a"]).isSome = true := by decide +kernel

def submitted : Coordinator := (afterSubmit ["a"]).get submitted_isSome

theorem submitted_run : (submitJobs ["a"]).run emptyCoordinator = some submitted :=
  (Option.some_get submitted_isSome).symm

theorem jobs_follow_lifecycle_submitted :
    Relation.ReflTransGen (submitJobs ["a"]).Turns none (submitted.stateOf "a") :=
  (jobs_follow_lifecycle emptyCoordinator emptyCoordinator submitted (.legacy none (.inl rfl) 0)
    .refl (submitJobs ["a"]) trivial submitted_run "a").1

theorem owned_jobs_stay_submitted : (confirmPurge ["a"] submitted).stateOf "a" ∈ ownedStates :=
  owned_jobs_stay emptyCoordinator submitted (confirmPurge ["a"] submitted)
    (.legacy none (.inl rfl) 0) (.step .refl (submitJobs ["a"]) trivial submitted_run) "a"
    (by decide +kernel) (.step .refl (.confirmPurge ["a"]) trivial rfl trivial)

def succeedOnce : Operation :=
  .completeBatch {} oneRouteCompletion 3000 "bundle" "execution"
    [{ result := { jobId := "a", leaseToken := "lease-a", outcome := .success,
                   resultKey := some "result" } }]

def afterSuccess : Option Coordinator :=
  (afterClaim singleCallWorker.claimLimits ["a"]).bind fun state => succeedOnce.run state

theorem afterSuccess_tells : afterSuccess.any (fun state =>
    decide (∃ status ∈ pollBatch ["a"] state, status.id = "a" ∧ status.state = .completed ∧
      status.resultKey = some "result")) = true := by
  unfold afterSuccess afterClaim claimOnce Operation.run claimDispatchWindow reconcileAndClaim
    claimWithin dispatchJobs selectJobs offerModel
  rw [readCandidates_eq]
  decide +kernel

theorem told_result_stays_polled : ∃ told, afterSuccess = some told ∧
    resultOf (told.tables.jobs.get? "a") = some (some "result") := by
  obtain ⟨told, ran, passed⟩ := (Option.any_eq_true _ _).mp afterSuccess_tells
  obtain ⟨claimed, claims, succeeds⟩ := Option.bind_eq_some_iff.mp ran
  obtain ⟨state, submits, leases⟩ := Option.bind_eq_some_iff.mp claims
  have unbundled : (afterSubmit ["a"]).all (fun state => decide (state.bundles = [])) = true := by
    decide +kernel
  rw [submits, Option.all_some, decide_eq_true_iff] at unbundled
  have fresh : (claimOnce singleCallWorker.claimLimits).Fresh state := by
    show firstClaim.bundleId ∉ state.bundles.keys
    rw [unbundled]
    exact List.not_mem_nil
  exact ⟨told, ran, told_result_stays emptyCoordinator told told (.legacy none (.inl rfl) 0)
    (.step (.step (.step .refl (submitJobs ["a"]) trivial submits) (claimOnce _) fresh leases)
      succeedOnce trivial succeeds)
    "a" (some "result") (.inl ⟨["a"], of_decide_eq_true passed⟩) .refl⟩

end CityPods.Dispatch
