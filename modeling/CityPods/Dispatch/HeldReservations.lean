import CityPods.Dispatch.ConcurrencyCaps
import Mathlib.Algebra.Order.Pi

/-! # Held reservations

A claim adds what each of its leases reserves to the provisional reservation of the
route, and a settlement or the recovery of a dead lease takes it off again. Over every
run a route holds what the jobs leased on it reserve, and no more is ever taken off
than it holds, so that the clamp at zero never shows.
-/

namespace CityPods.Dispatch

open Foundation

/-! ## Edits of ledgers -/

section

variable {routes : Dict String RouteLedger} {routeId : String} {edit : RouteLedger → RouteLedger}

theorem provisionalReservations_of_get? {row : RouteLedger}
    (found : routes.get? routeId = some row) :
    provisionalReservations routes routeId = row.provisionalReservation := by
  unfold provisionalReservations
  rw [found]
  rfl

theorem updateRoute_keeps
    (keeps : ∀ row, (edit row).provisionalReservation = row.provisionalReservation) :
    provisionalReservations (updateRoute routeId edit routes) = provisionalReservations routes := by
  unfold updateRoute
  cases found : routes.get? routeId with
  | none => rfl
  | some row =>
      dsimp only
      rw [provisionalReservations_set, keeps, ← provisionalReservations_of_get? found,
        Function.update_eq_self]

/-- A release of no more than a route holds takes off all of it. -/
theorem updateRoute_releases {amount : ℚ} (releases : ∀ row, (edit row).provisionalReservation =
      max 0 (row.provisionalReservation - amount))
    (nonneg : 0 ≤ amount) (within : amount ≤ provisionalReservations routes routeId) :
    provisionalReservations (updateRoute routeId edit routes) =
      provisionalReservations routes - Pi.single routeId amount := by
  unfold updateRoute
  cases found : routes.get? routeId with
  | none =>
      have nothing : provisionalReservations routes routeId = 0 := by
        unfold provisionalReservations
        rw [found]
        rfl
      rw [nothing] at within
      rw [le_antisymm within nonneg, Pi.single_zero, sub_zero]
  | some row =>
      dsimp only
      have held := provisionalReservations_of_get? found
      rw [held] at within
      rw [provisionalReservations_set, releases, max_eq_right (sub_nonneg.mpr within)]
      funext other
      rw [Function.update_apply, Pi.sub_apply, Pi.single_apply]
      split
      · next same => rw [same, held]
      · exact (sub_zero _).symm

theorem ensureRoute_keeps (now : ℚ) (routeId : String) (tpm : Option ℚ)
    (routes : Dict String RouteLedger) :
    provisionalReservations (ensureRoute now routeId tpm routes) =
      provisionalReservations routes := by
  unfold ensureRoute
  cases found : routes.get? routeId with
  | some row => rfl
  | none =>
      have nothing : provisionalReservations routes routeId = 0 := by
        unfold provisionalReservations
        rw [found]
        rfl
      dsimp only
      rw [provisionalReservations_set]
      show Function.update _ routeId 0 = _
      rw [← nothing, Function.update_eq_self]

theorem foldl_keeps {α : Type} {step : Dict String RouteLedger → α → Dict String RouteLedger}
    (keeps : ∀ routes item, provisionalReservations (step routes item) =
      provisionalReservations routes) (items : List α) (routes : Dict String RouteLedger) :
    provisionalReservations (items.foldl step routes) = provisionalReservations routes := by
  induction items generalizing routes with
  | nil => rfl
  | cons item rest induction => exact (induction (step routes item)).trans (keeps routes item)

/-! ### Settlement -/

variable {config : Config} {catalog : CompletionCatalog} {now : ℚ}

theorem backOff_keeps (route : CatalogRoute) (rejectedInput : ℚ) (job : JobRow)
    (result : CallResult) (draws : Draws) (row : RouteLedger) :
    (backOff config route rejectedInput job result draws now row).provisionalReservation =
      row.provisionalReservation := by
  unfold backOff
  split
  · rfl
  split
  · rfl
  split
  · rfl
  split
  · rfl
  split
  · rfl
  split
  · rfl
  split <;> rfl

theorem backOffRoutes_keeps (rejectedInput : ℚ) (job : JobRow) (report : Report) :
    provisionalReservations (backOffRoutes config catalog now routeId rejectedInput job report
      routes) = provisionalReservations routes := by
  unfold backOffRoutes
  dsimp only
  split
  · refine foldl_keeps (fun routes other => ?_) _ routes
    refine (updateRoute_keeps ?_).trans (ensureRoute_keeps now other none routes)
    exact fun row => rfl
  · rw [updateRoute_keeps (backOff_keeps _ _ _ _ _)]
    split
    · exact ensureRoute_keeps now routeId none routes
    · rfl

theorem releaseCall_releases (route : CatalogRoute) (job : JobRow) (result : CallResult)
    (row : RouteLedger) :
    (releaseCall now route job result row).provisionalReservation =
      max 0 (row.provisionalReservation - settledReservation job result) := by
  unfold releaseCall
  dsimp only
  split
  · unfold refundClaim
    dsimp only
    split <;> rfl
  · rfl

theorem sizeJob_keeps (job : JobRow) (result : CallResult) (routes : Dict String RouteLedger) :
    provisionalReservations (sizeJob catalog now job result routes) =
      provisionalReservations routes := by
  unfold sizeJob
  split
  · exact foldl_keeps (fun routes routeId => ensureRoute_keeps now routeId _ routes) _ routes
  · rfl

end

/-! ### Retries and calls outside the queue -/

theorem learnRefusal_keeps (calendar : Calendar) (config : Config) (retryLimits : RetryLimits)
    (catalog : RetryCatalog) (now draw : ℚ) (routeId : String) (request : RetryRequest)
    (routes : Dict String RouteLedger) :
    provisionalReservations (learnRefusal calendar config retryLimits catalog now draw routeId
      request routes) = provisionalReservations routes := by
  unfold learnRefusal
  dsimp only
  split
  case h_5 =>
    unfold limitProvider
    dsimp only
    split
    · exact updateRoute_keeps fun row => rfl
    · refine foldl_keeps (fun routes other => ?_) _ routes
      refine (updateRoute_keeps ?_).trans (ensureRoute_keeps now other none routes)
      exact fun row => rfl
  all_goals exact updateRoute_keeps fun row => rfl

theorem authorizeRetry_keeps (calendar : Calendar) (config : Config) (retryLimits : RetryLimits)
    (catalog : RetryCatalog) (now draw : ℚ) (request : RetryRequest) (state : Coordinator) :
    provisionalReservations (authorizeRetry calendar config retryLimits catalog now draw request
      state).1.routes = provisionalReservations state.routes := by
  unfold authorizeRetry
  split
  · rfl
  · split
    · split
      · next bundle routeId _ _ =>
        have learned : provisionalReservations (learnRefusal calendar config retryLimits catalog
            now draw routeId request (ensureRoute now routeId none state.routes)) =
              provisionalReservations state.routes :=
          (learnRefusal_keeps calendar config retryLimits catalog now draw routeId request _).trans
            (ensureRoute_keeps now routeId none state.routes)
        unfold decideRetry
        dsimp only
        split
        · exact learned
        · unfold grantRetry
          split <;> exact learned
      · rfl
    · rfl

variable {routeId : String}

theorem set_keeps {routes : Dict String RouteLedger} {row : RouteLedger}
    (same : row.provisionalReservation = provisionalReservations routes routeId) :
    provisionalReservations (routes.set routeId row) = provisionalReservations routes := by
  rw [provisionalReservations_set, same, Function.update_eq_self]

theorem reserveRouteRequests_keeps (calendar : Calendar) (route : CatalogRoute) (routeId : String)
    (now : ℚ) (requests : Nat) (state : Coordinator) :
    provisionalReservations (reserveRouteRequests calendar route routeId now requests
      state).routes = provisionalReservations state.routes := by
  refine set_keeps ?_
  rw [← getOrCreateRouteLedger_provisional state.routes routeId now route.tpm]
  generalize getOrCreateRouteLedger state.routes routeId now route.tpm = ledger
  generalize List.range requests = calls
  induction calls generalizing ledger with
  | nil => rfl
  | cons call rest induction =>
      rw [List.foldl_cons, induction, applyProvisionalReservation_provisional, add_zero]

variable {now : ℚ} {state after : Coordinator}

theorem admitContext_keeps {calendar : Calendar} {route : CatalogRoute} {job : SizedJob}
    (step : admitContext calendar route routeId now job state = some after) :
    provisionalReservations after.routes = provisionalReservations state.routes := by
  unfold admitContext at step
  dsimp only at step
  split at step
  · cases step
  · split at step <;> cases step
    exact set_keeps (getOrCreateRouteLedger_provisional state.routes routeId now route.tpm)

/-! ## Held tokens -/

def JobTables.Reserves (tables : JobTables) : Prop :=
  ∀ job ∈ tables.jobs.values, job.state = .leased → 0 < job.tokenReservation

instance (tables : JobTables) : Decidable tables.Reserves := List.decidableBAll _ _

variable {tables : JobTables} {job : JobRow}

theorem JobTables.Reserves.of_get? (reserves : tables.Reserves)
    {jobId : String} (found : tables.jobs.get? jobId = some job)
    (leased : job.state = .leased) : 0 < job.tokenReservation :=
  reserves job (List.mem_map_of_mem (Dict.get?_eq_some_mem found)) leased

theorem JobRow.holds_nonneg
    (reserves : job.state = .leased → 0 < job.tokenReservation) : 0 ≤ job.holds := by
  intro routeId
  show 0 ≤ job.holds routeId
  unfold holds
  split
  · next both => exact (reserves both.1).le
  · exact le_refl 0

theorem JobRow.holds_of_routeless (route : job.leaseRouteId = none) :
    job.holds = 0 :=
  funext fun routeId => if_neg fun both => by
    rw [route] at both
    cases both.2

theorem JobTables.Reserves.nonneg (reserves : tables.Reserves) :
    0 ≤ tables.held := by
  refine List.sum_nonneg fun held member => ?_
  obtain ⟨entry, stored, rfl⟩ := List.mem_map.mp member
  exact entry.2.holds_nonneg (reserves entry.2 (List.mem_map_of_mem stored))

def StaysLeased (before after : Option JobRow) : Prop :=
  ∀ row ∈ after, row.state = .leased → row ∈ before

theorem JobTables.Edits.reserves {changes : List Change} {before after : JobTables}
    (edits : JobTables.Edits changes before after) (coherent : before.Coherent)
    (reserves : before.Reserves)
    (idle : ∀ change ∈ changes, change.after.map JobRow.state ≠ some .leased) :
    after.Reserves := by
  intro job member leased
  have found := (edits.coherent coherent).get?_of_mem_values member
  have kept : StaysLeased (before.jobs.get? job.id) (after.jobs.get? job.id) := by
    refine edits.relates (fun _ row member _ => member) ?_ job.id fun change listed _ => ?_
    · exact fun first second third left right row member leased =>
        left row (right row member leased) leased
    · intro row member leased
      refine absurd ?_ (idle change listed)
      rw [Option.mem_def.mp member, Option.map_some, leased]
  exact reserves.of_get? (kept job found leased) leased

theorem holds_of_state {row : Option JobRow} (idle : row.map JobRow.state ≠ some .leased) :
    row.elim 0 JobRow.holds = 0 := by
  cases row with
  | none => rfl
  | some job => exact JobRow.holds_of_ne fun leased => idle (congrArg some leased)

/-! ## Completion -/

/-- What the successes that are not yet written will release. -/
def CompletionProgress.unwritten (progress : CompletionProgress) (routeId : String) : ℚ :=
  (progress.pending.get? routeId).elim 0 PendingSuccess.reservation

/-- The routes hold what the leases reserve and the unwritten successes will release, and
beyond it what the result at hand still owes. -/
structure CompletionProgress.Owes (owed : String → ℚ) (progress : CompletionProgress) : Prop where
  coherent : progress.tables.Coherent
  reserves : progress.tables.Reserves
  unwritten : 0 ≤ progress.unwritten
  exact : provisionalReservations progress.routes =
    progress.tables.held + progress.unwritten + owed

section

variable {config : Config} {catalog : CompletionCatalog} {now : ℚ} {owed : String → ℚ}
  {progress : CompletionProgress}

theorem flushRoute_pending (routeId : String) (progress : CompletionProgress) :
    (flushRoute catalog now routeId progress).pending = progress.pending.erase routeId := by
  unfold flushRoute
  cases found : progress.pending.get? routeId with
  | none => exact (Dict.erase_of_none found).symm
  | some pending => rfl

namespace CompletionProgress.Owes

/-- Writing the successes of a route releases what they reserved. -/
theorem flushRoute (owes : progress.Owes owed) (nonneg : 0 ≤ owed) (routeId : String) :
    (flushRoute catalog now routeId progress).Owes owed := by
  unfold Dispatch.flushRoute
  cases found : progress.pending.get? routeId with
  | none => exact owes
  | some pending =>
      have amount : progress.unwritten routeId = pending.reservation := by
        unfold CompletionProgress.unwritten
        rw [found]
        rfl
      have positive : 0 ≤ pending.reservation := by
        rw [← amount]
        exact owes.unwritten routeId
      have within : pending.reservation ≤ provisionalReservations progress.routes routeId := by
        rw [owes.exact, Pi.add_apply, Pi.add_apply, amount]
        have held := owes.reserves.nonneg routeId
        have more := nonneg routeId
        rw [Pi.zero_apply] at held more
        linarith
      have left : (fun other => ((progress.pending.erase routeId).get? other).elim 0
          PendingSuccess.reservation) =
            progress.unwritten - Pi.single routeId pending.reservation := by
        funext other
        rw [Dict.get?_erase, Pi.sub_apply, Pi.single_apply]
        by_cases same : routeId = other
        · subst same
          rw [if_pos rfl, if_pos rfl, amount, sub_self]
          rfl
        · rw [if_neg same, if_neg (Ne.symm same), sub_zero]
          rfl
      refine ⟨owes.coherent, owes.reserves, ?_, ?_⟩
      · show 0 ≤ fun other => ((progress.pending.erase routeId).get? other).elim 0
          PendingSuccess.reservation
        intro other
        show 0 ≤ ((progress.pending.erase routeId).get? other).elim 0 PendingSuccess.reservation
        rw [Dict.get?_erase]
        split
        · exact le_refl 0
        · exact owes.unwritten other
      · show provisionalReservations (updateRoute routeId _ progress.routes) =
          progress.tables.held + (fun other => _) + owed
        rw [updateRoute_releases (fun row => rfl) positive within, owes.exact]
        refine Eq.trans ?_ (congrArg (progress.tables.held + · + owed) left).symm
        abel

variable {report : Report}

/-- The result of a lease that is over takes off what the lease held. -/
theorem settleOnRoute
    (owes : progress.Owes (Pi.single routeId (settledReservation job report.result)))
    (positive : 0 ≤ settledReservation job report.result) :
    (settleOnRoute config catalog now routeId job report progress).Owes 0 := by
  unfold Dispatch.settleOnRoute
  split
  · let added := ((progress.pending.get? routeId).getD {}).add (catalog.route routeId) job
      report.result
    have grown : added.reservation =
        progress.unwritten routeId + settledReservation job report.result := by
      unfold CompletionProgress.unwritten
      show ((progress.pending.get? routeId).getD {}).reservation + _ = _
      cases progress.pending.get? routeId <;> rfl
    have later : (fun other => ((progress.pending.set routeId added).get? other).elim 0
        PendingSuccess.reservation) =
          progress.unwritten + Pi.single routeId (settledReservation job report.result) := by
      funext other
      rw [Dict.get?_set, Pi.add_apply, Pi.single_apply]
      by_cases same : routeId = other
      · subst same
        rw [if_pos rfl, if_pos rfl]
        exact grown
      · rw [if_neg same, if_neg (Ne.symm same), add_zero]
        rfl
    refine ⟨owes.coherent, owes.reserves, ?_, ?_⟩
    · refine le_of_le_of_eq ?_ later.symm
      exact add_nonneg owes.unwritten (Pi.single_nonneg.mpr positive)
    · refine owes.exact.trans ?_
      rw [add_zero, add_assoc]
      exact congrArg (progress.tables.held + ·) later.symm
  · have flushed : (Dispatch.flushRoute catalog now routeId progress).Owes _ :=
      owes.flushRoute (Pi.single_nonneg.mpr positive) routeId
    dsimp only
    generalize Dispatch.flushRoute catalog now routeId progress = written at flushed
    have within : settledReservation job report.result ≤
        provisionalReservations written.routes routeId := by
      rw [flushed.exact, Pi.add_apply, Pi.add_apply, Pi.single_eq_same]
      have held := flushed.reserves.nonneg routeId
      have more := flushed.unwritten routeId
      rw [Pi.zero_apply] at held more
      linarith
    refine ⟨flushed.coherent, flushed.reserves, flushed.unwritten, ?_⟩
    show provisionalReservations (settleFailureOn config catalog now routeId _ job report
      written.routes) = written.tables.held + written.unwritten + 0
    unfold settleFailureOn
    rw [backOffRoutes_keeps, updateRoute_releases (releaseCall_releases _ job report.result)
      positive within, flushed.exact, add_sub_cancel_right, add_zero]

theorem settleRoute {row : JobRow} (owes : progress.Owes row.holds)
    (leased : row.state = .leased) (positive : 0 < row.tokenReservation) :
    (settleRoute config catalog now (countedJob row report.result) report progress).Owes 0 := by
  have columns : (countedJob row report.result).leaseRouteId = row.leaseRouteId ∧
      (countedJob row report.result).tokenReservation = row.tokenReservation := by
    unfold countedJob
    split <;> exact ⟨rfl, rfl⟩
  have amount : settledReservation (countedJob row report.result) report.result =
      row.tokenReservation := by
    unfold settledReservation
    rw [columns.2, if_pos positive]
  unfold Dispatch.settleRoute
  rw [columns.1]
  cases route : row.leaseRouteId with
  | none =>
      rwa [JobRow.holds_of_routeless route] at owes
  | some routeId =>
      rw [JobRow.holds_of_leased leased route, ← amount] at owes
      have settled : (Dispatch.settleOnRoute config catalog now routeId _ report progress).Owes 0 :=
        owes.settleOnRoute (by rw [amount]; exact positive.le)
      exact ⟨settled.coherent, settled.reserves, settled.unwritten, settled.exact⟩

end CompletionProgress.Owes

variable {row : JobRow}

/-- What a result leaves of its row is no lease. -/
theorem JobTables.Coherent.apply {outcome : JobOutcome}
    (coherent : tables.Coherent) (found : tables.jobs.get? row.id = some row)
    (leased : row.state = .leased) (moves : outcome.Moves row) :
    ∃ job, JobTables.Writes job tables (tables.apply outcome) ∧ job.id = row.id ∧
      job.state ≠ .leased := by
  cases moves with
  | @requeue job models named nonempty =>
      refine ⟨job.released.inQueue models, ?_, named, by rintro ⟨⟩⟩
      exact coherent.requeue nonempty (by rwa [named]) leased
  | @settle after named terminal =>
      have notQueued : after.state ≠ .queued := by
        rcases terminal with same | same <;> rw [same] <;> decide
      have notLeased : after.state ≠ .leased := by
        rcases terminal with same | same <;> rw [same] <;> decide
      exact ⟨after, coherent.settle (by rwa [named]) leased notQueued notLeased, named, notLeased⟩

theorem settleReport_owes {report : Report} (owes : progress.Owes 0)
    (found : progress.tables.jobs.get? row.id = some row) (leased : row.state = .leased) :
    (settleReport config catalog now row report progress).Owes 0 := by
  have sized : provisionalReservations
      (sizeJob catalog now (countedJob row report.result) report.result progress.routes) = _ :=
    (sizeJob_keeps _ report.result progress.routes).trans owes.exact
  unfold settleReport
  dsimp only
  cases decided : jobOutcome config catalog now progress.estimates
      (sizeJob catalog now (countedJob row report.result) report.result progress.routes) row
      report.result with
  | none => exact ⟨owes.coherent, owes.reserves, owes.unwritten, sized⟩
  | some outcome =>
      obtain ⟨job, writes, named, idle⟩ := owes.coherent.apply found leased
        (jobOutcome_moves decided)
      have edits := JobTables.Edits.one_of writes (by rwa [named])
      have taken : (progress.tables.apply outcome).held + row.holds = progress.tables.held := by
        have total := edits.total JobRow.holds owes.coherent
        rw [JobTables.Edits.gain_singleton, Option.elim_some, Option.elim_some,
          JobRow.holds_of_ne idle, zero_sub] at total
        unfold JobTables.held
        rw [total, neg_add_cancel_right]
      refine CompletionProgress.Owes.settleRoute ?_ leased (owes.reserves.of_get? found leased)
      refine ⟨edits.coherent owes.coherent, ?_, owes.unwritten, ?_⟩
      · refine edits.reserves owes.coherent owes.reserves fun change member => ?_
        rw [List.mem_singleton.mp member]
        exact fun same => idle (Option.some.inj same)
      · refine sized.trans ?_
        rw [← taken, add_zero]
        exact add_right_comm _ _ _

theorem completeReport_owes (report : Report) (owes : progress.Owes 0) :
    (completeReport config catalog now progress report).Owes 0 := by
  unfold completeReport
  cases found : progress.tables.jobs.get? report.result.jobId with
  | none => exact owes
  | some row =>
      dsimp only
      split
      · next live =>
        refine settleReport_owes owes ?_ live.1
        rwa [owes.coherent.named _ row found]
      · exact owes

/-- Nothing is left unwritten once the batch is over. -/
theorem flushAll_owes (owes : progress.Owes 0) :
    (flushAll catalog now progress).Owes 0 ∧
      (flushAll catalog now progress).unwritten = 0 := by
  have each (routeIds : List String) (progress : CompletionProgress) (owes : progress.Owes 0) :
      (routeIds.foldl (fun progress routeId => flushRoute catalog now routeId progress)
        progress).Owes 0 ∧
      (routeIds.foldl (fun progress routeId => flushRoute catalog now routeId progress)
        progress).pending = progress.pending.eraseAll routeIds := by
    induction routeIds generalizing progress with
    | nil => exact ⟨owes, rfl⟩
    | cons routeId rest induction =>
        obtain ⟨later, erased⟩ := induction _ (owes.flushRoute (le_refl 0) routeId)
        refine ⟨later, erased.trans ?_⟩
        rw [flushRoute_pending]
        rfl
  obtain ⟨later, erased⟩ := each progress.pending.keys progress owes
  refine ⟨later, funext fun routeId => ?_⟩
  show ((flushAll catalog now progress).pending.get? routeId).elim 0 PendingSuccess.reservation = 0
  rw [show (flushAll catalog now progress).pending = _ from erased, Dict.get?_eraseAll]
  split
  · rfl
  · next absent =>
    rw [Dict.get?_eq_none_iff.mpr absent]
    rfl

end

/-! ## The coordinator -/

/-- Every route holds what the jobs leased on it reserve. -/
def Coordinator.Exact (state : Coordinator) : Prop :=
  provisionalReservations state.routes = state.tables.held

section

variable {state after : Coordinator}

theorem Coordinator.Exact.completeBatch (exact : state.Exact) (coherent : state.tables.Coherent)
    (reserves : state.tables.Reserves) (config : Config) (catalog : CompletionCatalog) (now : ℚ)
    (bundleId executionToken : String) (reports : List Report) :
    (completeBatch config catalog now bundleId executionToken reports state).Exact := by
  unfold Dispatch.completeBatch
  split
  · have begun : (completionStart state.ensureQueuedJobCounter).Owes 0 := by
      refine ⟨by simpa [completionStart] using coherent, by simpa [completionStart] using reserves,
        le_refl 0, ?_⟩
      show provisionalReservations state.ensureQueuedJobCounter.routes =
        state.ensureQueuedJobCounter.tables.held + 0 + 0
      rw [add_zero, add_zero, Coordinator.ensureQueuedJobCounter_tables]
      unfold Coordinator.ensureQueuedJobCounter
      split <;> exact exact
    have settled : (reports.foldl (completeReport config catalog now)
        (completionStart state.ensureQueuedJobCounter)).Owes 0 := by
      generalize completionStart state.ensureQueuedJobCounter = progress at begun
      induction reports generalizing progress with
      | nil => exact begun
      | cons report rest induction => exact induction _ (completeReport_owes report begun)
    obtain ⟨flushed, written⟩ : (flushAll catalog now _).Owes 0 ∧ _ := flushAll_owes settled
    have balance := flushed.exact
    rw [written, add_zero, add_zero] at balance
    exact balance
  · exact exact

/-! ### Recovery -/

theorem reservationsByRoute_spec {expired : List JobRow}
    (leased : ∀ job ∈ expired, job.state = .leased ∧ 0 < job.tokenReservation) :
    (reservationsByRoute expired).keys.Nodup ∧
      ∀ routeId, ((reservationsByRoute expired).get? routeId).getD 0 =
        (expired.map JobRow.holds).sum routeId := by
  induction expired using List.reverseRecOn with
  | nil => exact ⟨List.nodup_nil, fun _ => rfl⟩
  | append_singleton expired job induction =>
      obtain ⟨nodup, sums⟩ := induction fun other member =>
        leased other (List.mem_append_left _ member)
      obtain ⟨own, positive⟩ := leased job (List.mem_append_right _ List.mem_cons_self)
      have last (routeId : String) : ((expired ++ [job]).map JobRow.holds).sum routeId =
          (expired.map JobRow.holds).sum routeId + job.holds routeId := by
        rw [List.map_append, List.sum_append, Pi.add_apply, List.map_singleton,
          List.sum_singleton]
      simp only [last]
      unfold reservationsByRoute at nodup sums ⊢
      rw [List.foldl_append, List.foldl_cons, List.foldl_nil]
      cases route : job.leaseRouteId with
      | none =>
          refine ⟨nodup, fun routeId => ?_⟩
          rw [JobRow.holds_of_routeless route, Pi.zero_apply, add_zero]
          exact sums routeId
      | some held =>
          dsimp only
          rw [if_pos positive]
          refine ⟨Dict.nodup_keys_set nodup _ _, fun routeId => ?_⟩
          rw [JobRow.holds_of_leased own route, Dict.get?_set, Pi.single_apply]
          by_cases same : held = routeId
          · rw [if_pos same, if_pos same.symm, ← same, Option.getD_some, sums]
          · rw [if_neg same, if_neg (Ne.symm same), add_zero]
            exact sums routeId

/-- Releases of separate routes, each of no more than its route holds. -/
theorem foldl_releases {held : Dict String ℚ} (nodup : held.keys.Nodup)
    {routes : Dict String RouteLedger}
    (within : ∀ entry ∈ held, 0 ≤ entry.2 ∧ entry.2 ≤ provisionalReservations routes entry.1) :
    provisionalReservations (held.foldl (fun routes held =>
        updateRoute held.1 (RouteLedger.releaseReservation held.2) routes) routes) =
      provisionalReservations routes - fun routeId => (held.get? routeId).getD 0 := by
  induction held generalizing routes with
  | nil => exact (sub_zero _).symm
  | cons entry rest induction =>
      obtain ⟨routeId, amount⟩ := entry
      have parts := List.nodup_cons.mp nodup
      obtain ⟨nonneg, bounded⟩ := within _ List.mem_cons_self
      have first : provisionalReservations
          (updateRoute routeId (RouteLedger.releaseReservation amount) routes) =
            provisionalReservations routes - Pi.single routeId amount :=
        updateRoute_releases (fun row => rfl) nonneg bounded
      rw [List.foldl_cons, induction parts.2, first]
      · funext other
        rw [Pi.sub_apply, Pi.sub_apply, Pi.sub_apply, Pi.single_apply, Dict.get?_cons]
        by_cases same : routeId = other
        · have absent : Dict.get? rest other = none :=
            Dict.get?_eq_none_iff.mpr fun member => parts.1 (same ▸ member)
          rw [if_pos same, if_pos same.symm, absent, Option.getD_none, sub_zero, Option.getD_some]
        · rw [if_neg same, if_neg (Ne.symm same), sub_zero]
      · intro entry member
        have different : entry.1 ≠ routeId := fun same =>
          parts.1 (List.mem_map.mpr ⟨entry, member, same⟩)
        rw [first, Pi.sub_apply, Pi.single_eq_of_ne different, sub_zero]
        exact within entry (List.mem_cons_of_mem _ member)

/-- Recovery takes off what the dead leases held. -/
theorem Coordinator.Exact.recover (exact : state.Exact) (coherent : state.tables.Coherent)
    (reserves : state.tables.Reserves) (catalog : LaneCatalog) (now : ℚ) :
    (state.recover catalog now).Exact := by
  have spec := coherent.expiredLeasedJobs now
  have edits := recover_edits catalog now coherent
  have leased (job : JobRow) (expired : job ∈ state.tables.expiredLeasedJobs now) :
      job.state = .leased ∧ 0 < job.tokenReservation :=
    ⟨(spec.2 job expired).2, reserves.of_get? (spec.2 job expired).1 (spec.2 job expired).2⟩
  obtain ⟨nodup, sums⟩ := reservationsByRoute_spec leased
  have kept : (state.recover catalog now).tables.held =
      state.tables.held - ((state.tables.expiredLeasedJobs now).map JobRow.holds).sum := by
    unfold JobTables.held
    rw [edits.total JobRow.holds coherent, sub_eq_add_neg]
    refine congrArg _ ?_
    unfold JobTables.Edits.gain
    rw [List.sum_neg, List.map_map, List.map_map]
    refine congrArg List.sum (List.map_congr_left fun job _ => ?_)
    show JobRow.holds _ - job.holds = -job.holds
    rw [JobRow.holds_of_ne (by rintro ⟨⟩), zero_sub]
  have remains : (state.recover catalog now).tables.Reserves :=
    edits.reserves coherent reserves fun change member => by
      obtain ⟨job, _, rfl⟩ := List.mem_map.mp member
      rintro ⟨⟩
  have within := remains.nonneg
  rw [kept, sub_nonneg, ← exact] at within
  have read (entry : String × ℚ)
      (member : entry ∈ reservationsByRoute (state.tables.expiredLeasedJobs now)) :
      entry.2 = ((state.tables.expiredLeasedJobs now).map JobRow.holds).sum entry.1 := by
    rw [← sums, Dict.get?_of_mem nodup member]
    rfl
  show provisionalReservations (releaseExpired _ state.routes) = _
  unfold releaseExpired
  rw [foldl_releases nodup, kept, ← exact]
  · exact congrArg _ (funext sums)
  · intro entry member
    rw [read entry member]
    refine ⟨?_, within entry.1⟩
    refine (List.sum_nonneg fun held listed => ?_ : (0 : String → ℚ) ≤ _) entry.1
    obtain ⟨job, expired, rfl⟩ := List.mem_map.mp listed
    exact job.holds_nonneg fun _ => (leased job expired).2

/-! ### Claims -/

/-- Moves of rows that no lease holds, beside ledgers whose reservations stay. -/
theorem Coordinator.Exact.of_moves {allowed : Change → Prop} {queued moved : ℤ}
    (exact : state.Exact) (coherent : state.tables.Coherent)
    (moves : CountedTables.Moves allowed ⟨state.tables, queued⟩ ⟨after.tables, moved⟩)
    (idle : ∀ change, allowed change →
      change.before.elim 0 JobRow.holds = change.after.elim 0 JobRow.holds)
    (routes : provisionalReservations after.routes = provisionalReservations state.routes) :
    after.Exact :=
  routes.trans (exact.trans (moves.total_eq coherent idle).symm)

theorem Change.Passes.holds_eq {sources targets : List (Option JobState)} {change : Change}
    (passes : change.Passes sources targets) (unleased : some JobState.leased ∉ sources)
    (idle : some JobState.leased ∉ targets) :
    change.before.elim 0 JobRow.holds = change.after.elim 0 JobRow.holds := by
  rw [holds_of_state fun same => unleased (same ▸ passes.source),
    holds_of_state fun same => idle (same ▸ passes.target)]

theorem touchLedgers_keeps (catalog : ClaimCatalog) (call : ClaimCall) (state : Coordinator) :
    provisionalReservations (touchLedgers catalog call state).routes =
      provisionalReservations state.routes := by
  refine foldl_keeps (fun routes route => ?_) call.touchedRoutes state.routes
  exact set_keeps
    (getOrCreateRouteLedger_provisional routes route.routeId call.now route.catalog.tpm)

variable {calendar : Calendar} {limits : ClaimLimits} {catalog : ClaimCatalog} {call : ClaimCall}
  {queuedDelta : ℤ} {reply : ClaimReply}

/-- Each lease adds to its route what its row holds. -/
theorem Coordinator.Exact.leaseChosen {selection : Selection} {chosen : List Chosen}
    (exact : state.Exact) (coherent : state.tables.Coherent) (distinct : (chosenIds chosen).Nodup)
    (offered : ∀ entry ∈ chosen, state.tables.Offers entry.job)
    (step : leaseChosen calendar limits catalog call queuedDelta selection chosen state =
      some (after, reply)) : after.Exact := by
  unfold Dispatch.leaseChosen at step
  split at step
  · cases step
    exact exact
  · obtain ⟨lanes, leased, recorded⟩ := Option.map_eq_some_iff.mp step
    split at recorded <;> cases recorded
    · exact exact
    · have tallied : Tallied.Moves JobRow.moved _
          ⟨state.tables, (0, provisionalReservations state.routes)⟩ (lanes.tallied 0) :=
        leaseLanes_tallied coherent distinct offered leased
      have moves : Tallied.Moves JobRow.holds _
          ⟨state.tables, provisionalReservations state.routes⟩
          ⟨lanes.tables, provisionalReservations lanes.routes⟩ :=
        tallied.map (AddMonoidHom.snd ℤ (String → ℚ))
      have balanced := moves.balanced coherent
      exact sub_eq_zero.mp (balanced.trans (sub_eq_zero.mpr exact))

variable {bundleJobLimit : Nat}

theorem Coordinator.Exact.dispatchJobs (exact : state.Exact) (coherent : state.tables.Coherent)
    (step : dispatchJobs calendar limits catalog call bundleJobLimit queuedDelta state =
      some (after, reply)) : after.Exact := by
  unfold Dispatch.dispatchJobs at step
  dsimp only at step
  have known : (touchLedgers catalog call state).tables.Coherent := coherent
  have touched : (touchLedgers catalog call state).Exact :=
    (touchLedgers_keeps catalog call state).trans exact
  generalize touchLedgers catalog call state = start at step known touched
  have sound : Selection.Sound calendar limits catalog call start _ :=
    selectJobs_sound known bundleJobLimit
  generalize selectJobs calendar limits catalog call start bundleJobLimit = selection at step sound
  obtain ⟨distinct, offered⟩ := drainPass_spec sound bundleJobLimit
  obtain ⟨tables, ran, leased⟩ := Option.bind_eq_some_iff.mp step
  have moved := failOversize_moves known sound.oversize sound.oversizeRows ran 0
  have failed : ({ start with tables := tables } : Coordinator).Exact :=
    touched.of_moves known moved (fun _ both => both.2.holds_eq (by decide) (by decide)) rfl
  refine failed.leaseChosen (moved.coherent known) distinct (fun entry member => ?_) leased
  obtain ⟨here, apart⟩ := offered entry member
  have unchanged : start.tables.jobs.get? entry.job.id = tables.jobs.get? entry.job.id :=
    moved.unchanged fun change permitted named => apart (named ▸ permitted.1)
  exact ⟨unchanged.symm.trans here.1, here.2⟩

theorem Coordinator.Exact.claimWithin (exact : state.Exact) (coherent : state.tables.Coherent)
    (step : claimWithin calendar limits catalog call bundleJobLimit queuedDelta state =
      some (after, reply)) : after.Exact := by
  unfold Dispatch.claimWithin at step
  split at step
  · cases step
    exact exact
  · split at step
    · cases step
      exact exact
    · exact exact.dispatchJobs coherent step

theorem Coordinator.Exact.reconcileAndClaim {begun : Coordinator} {reaped : Nat}
    (exact : state.Exact) (coherent : state.tables.Coherent)
    (step : reconcileAndClaim calendar limits catalog call begun reaped state =
      some (after, reply)) : after.Exact := by
  unfold Dispatch.reconcileAndClaim at step
  dsimp only at step
  split at step
  · obtain ⟨⟨middle, failed⟩, ran, claimed⟩ := Option.bind_eq_some_iff.mp step
    obtain ⟨moved, frame⟩ := reconcileUnroutableJobs_moves coherent ran 0
    have next : middle.Exact := exact.of_moves coherent moved
      (fun _ reconciled => reconciled.holds_eq (by decide) (by decide)) (by rw [frame.routes])
    exact next.claimWithin (moved.coherent coherent) claimed
  · rw [Option.bind_some] at step
    exact exact.claimWithin coherent step

/-- A claim keeps the routes exact through its recovery and its leases. -/
theorem Coordinator.Exact.claimDispatchWindow (exact : state.Exact) (sound : state.Sound)
    (reserves : state.tables.Reserves)
    (step : claimDispatchWindow calendar limits catalog call state = some (after, reply)) :
    after.Exact := by
  unfold Dispatch.claimDispatchWindow at step
  split at step
  · cases step
    exact exact
  rw [Coordinator.ensureQueuedJobCounter_eq sound.counted.initialized] at step
  dsimp only at step
  have begun := sound.rollUtcDayIfNeeded call.now
  have rolled : (state.rollUtcDayIfNeeded call.now).Exact := exact
  have holding : (state.rollUtcDayIfNeeded call.now).tables.Reserves := reserves
  generalize state.rollUtcDayIfNeeded call.now = start at step begun rolled holding
  split at step
  · cases step
    exact rolled
  split at step
  · cases step
    exact rolled
  split at step
  · cases step
    exact rolled
  have recovered : (start.recoverIfDue limits catalog.lanes call.now).1.Exact := by
    unfold Coordinator.recoverIfDue
    split
    · exact rolled.recover begun.coherent holding catalog.lanes call.now
    · exact rolled
  exact recovered.reconcileAndClaim (begun.recoverIfDue limits catalog.lanes call.now).1.coherent
    step

end

/-! ## Runs -/

section

variable {change : Change} {held : String → JobRow → Prop}

theorem Change.Purged.holds_eq (purged : change.Purged held)
    (unleased : ∀ jobId row, held jobId row → row.state ≠ .leased) :
    change.before.elim 0 JobRow.holds = change.after.elim 0 JobRow.holds := by
  obtain ⟨row, before⟩ := Option.isSome_iff_exists.mp purged.present
  have source := unleased _ row (purged.held row before)
  have target : change.after.map JobRow.state ≠ some .leased := by
    rw [purged.target]
    decide
  rw [before, Option.elim_some, JobRow.holds_of_ne source, holds_of_state target]

theorem Change.Removed.holds_eq (removed : change.Removed held)
    (unleased : ∀ jobId row, held jobId row → row.state ≠ .leased) :
    change.before.elim 0 JobRow.holds = change.after.elim 0 JobRow.holds := by
  obtain ⟨row, before⟩ := Option.isSome_iff_exists.mp removed.present
  rw [before, removed.target, Option.elim_some, Option.elim_none,
    JobRow.holds_of_ne (unleased _ row (removed.held row before))]

theorem Change.Adjusted.holds_eq (adjusted : change.Adjusted) :
    change.before.elim 0 JobRow.holds = change.after.elim 0 JobRow.holds := by
  obtain ⟨row, priority, attempts, before, after⟩ := adjusted
  rw [before, after]
  rfl

end

/-- Every operation leaves each route holding what its leased jobs reserve. -/
theorem Operation.exact {operation : Operation} (sound : state.Sound)
    (reserves : state.tables.Reserves) (exact : state.Exact) (fresh : operation.Fresh state)
    (ran : operation.run state = some after) : after.Exact := by
  have moves := (Operation.sound sound fresh ran).2
  have initialized := sound.counted.initialized
  have coherent := sound.coherent
  have framed {allowed : Change → Prop} (moves : CountedTables.Moves allowed state.counted
      after.counted) (idle : ∀ change, allowed change →
        change.before.elim 0 JobRow.holds = change.after.elim 0 JobRow.holds)
      (frames : state.Frames after) : after.Exact :=
    exact.of_moves coherent moves idle (by rw [frames.routes])
  cases operation with
  | enqueueBatch config catalog now rowBudget batch =>
      obtain ⟨⟨_, reply⟩, step, rfl⟩ := Option.map_eq_some_iff.mp ran
      exact framed moves (fun _ submitted => submitted.holds_eq (by decide) (by decide))
        (enqueueBatch_frames initialized step)
  | schemaRetry config catalog now rowBudget freshId sourceId retry =>
      obtain ⟨⟨_, reply⟩, step, rfl⟩ := Option.map_eq_some_iff.mp ran
      exact framed moves (fun _ submitted => submitted.holds_eq (by decide) (by decide))
        (schemaRetry_frames initialized step)
  | cancelBatch now rowsSpent jobIds =>
      obtain ⟨⟨_, reply⟩, step, rfl⟩ := Option.map_eq_some_iff.mp ran
      exact framed moves (fun _ cancelled => cancelled.2.holds_eq (by decide) (by decide))
        (cancelBatch_frames initialized step)
  | claimDispatchWindow calendar limits catalog call =>
      obtain ⟨⟨_, reply⟩, step, rfl⟩ := Option.map_eq_some_iff.mp ran
      exact exact.claimDispatchWindow sound reserves step
  | authorizeRetry calendar config retryLimits catalog now draw request =>
      cases ran
      exact exact.of_moves coherent moves (fun _ adjusted => adjusted.holds_eq)
        (authorizeRetry_keeps calendar config retryLimits catalog now draw request state)
  | completeBatch config catalog now bundleId executionToken reports =>
      cases ran
      exact exact.completeBatch coherent reserves config catalog now bundleId executionToken reports
  | ackResults now rowsSpent jobIds =>
      cases ran
      refine framed moves (fun _ purged => purged.holds_eq ?_)
        (ackResults_frames now rowsSpent jobIds)
      rintro jobId row ⟨_, completed⟩
      rw [completed]
      decide
  | retireConsumed rowsSpent items =>
      cases ran
      refine framed moves (fun _ removed => removed.holds_eq ?_)
        (retireConsumed_frames rowsSpent items)
      rintro jobId row ⟨completed, _⟩
      rw [completed]
      decide
  | purgePendingBatch localeCompare now retentionMs rowsSpent limit =>
      cases ran
      refine framed moves (fun _ purged => purged.holds_eq ?_)
        (purgePendingBatch_frames localeCompare now retentionMs rowsSpent limit)
      rintro jobId row ⟨completed | failed, _⟩
      · rw [completed]
        decide
      · rw [failed]
        decide
  | confirmPurge jobIds =>
      cases ran
      refine framed moves (fun _ removed => removed.holds_eq ?_) ⟨rfl, rfl, rfl⟩
      intro jobId row pending
      rw [pending]
      decide
  | setPriority jobId priority =>
      exact framed moves (fun _ adjusted => adjusted.holds_eq) (setPriority_frames ran)
  | reserveRouteRequests calendar route routeId now requests =>
      cases ran
      exact exact.of_moves coherent moves (fun _ impossible => impossible.elim)
        (reserveRouteRequests_keeps calendar route routeId now requests state)
  | admitContext calendar route routeId now job =>
      exact exact.of_moves coherent moves (fun _ impossible => impossible.elim)
        (admitContext_keeps ran)

/-- The states of a run in which every lease reserves tokens. -/
inductive Coordinator.ReachesReserving (start : Coordinator) : Coordinator → Prop
  | refl : ReachesReserving start start
  | step {middle after : Coordinator} (earlier : ReachesReserving start middle)
      (operation : Operation) (fresh : operation.Fresh middle)
      (ran : operation.run middle = some after) (reserves : after.tables.Reserves) :
      ReachesReserving start after

theorem Coordinator.ReachesReserving.exact {start : Coordinator} (unused : start.Unused)
    (reached : start.ReachesReserving state) :
    state.Sound ∧ state.tables.Reserves ∧ state.Exact := by
  induction reached with
  | refl =>
      refine ⟨.of_unused unused, ?_⟩
      cases unused <;> exact ⟨fun _ member => (by cases member), rfl⟩
  | step _ operation fresh ran reserves induction =>
      obtain ⟨sound, held, exact⟩ := induction
      exact ⟨(Operation.sound sound fresh ran).1, reserves,
        Operation.exact sound held exact fresh ran⟩

/-! ## Results that come too late -/

/-- The lease that a report is about is no longer running. -/
def JobTables.Outlives (report : Report) (tables : JobTables) : Prop :=
  ∀ row, tables.jobs.get? report.result.jobId = some row →
    ¬ (row.state = .leased ∧ row.leaseToken = some report.result.leaseToken)

theorem completeReport_outlived {config : Config} {catalog : CompletionCatalog}
    {progress : CompletionProgress} {report : Report} (outlived : progress.tables.Outlives report) :
    completeReport config catalog now progress report = progress := by
  unfold completeReport
  cases found : progress.tables.jobs.get? report.result.jobId with
  | none => rfl
  | some row => exact if_neg (outlived row found)

/-- In every state of a run each route holds what the jobs leased on it reserve; a batch
for a bundle that is gone changes nothing, nor does a result whose lease is over. -/
theorem reservations_released_once (start state : Coordinator) (unused : start.Unused)
    (reached : start.ReachesReserving state) :
    (∀ routeId, provisionalReservations state.routes routeId = state.tables.held routeId) ∧
      (∀ config catalog now bundleId executionToken reports,
        bundleIsLive bundleId executionToken state = false →
          completeBatch config catalog now bundleId executionToken reports state = state) ∧
      ∀ config catalog now bundleId executionToken earlier report later,
        (earlier.foldl (completeReport config catalog now)
            (completionStart state)).tables.Outlives report →
          completeBatch config catalog now bundleId executionToken (earlier ++ report :: later)
              state =
            completeBatch config catalog now bundleId executionToken (earlier ++ later) state := by
  obtain ⟨sound, _, exact⟩ := reached.exact unused
  refine ⟨congrFun exact, ?_, ?_⟩
  · intro config catalog now bundleId executionToken reports gone
    unfold completeBatch
    rw [gone, if_neg Bool.false_ne_true]
  · intro config catalog now bundleId executionToken earlier report later outlived
    unfold completeBatch completeReports
    rw [Coordinator.ensureQueuedJobCounter_eq sound.counted.initialized]
    dsimp only
    rw [List.foldl_append, List.foldl_append, List.foldl_cons, completeReport_outlived outlived]

/-! ### One lease of five hundred tokens -/

def reservingLimits : ClaimLimits := { singleCallWorker.claimLimits with estimateFloor := 500 }

theorem afterSubmit_reserves : (afterSubmit ["a"]).all (fun state =>
    decide (state.tables.Reserves ∧ state.bundles = [])) = true := by decide +kernel

theorem afterClaim_reserves : (afterClaim reservingLimits ["a"]).any (fun state =>
    decide (state.tables.Reserves ∧ provisionalReservations state.routes "model-a" = 500)) =
      true := by
  unfold afterClaim claimOnce Operation.run claimDispatchWindow reconcileAndClaim claimWithin
    dispatchJobs selectJobs offerModel
  rw [readCandidates_eq]
  decide +kernel

theorem reservations_released_once_claimed :
    ∃ after, afterClaim reservingLimits ["a"] = some after ∧
      after.tables.held "model-a" = 500 := by
  obtain ⟨after, ran, passed⟩ := (Option.any_eq_true _ _).mp afterClaim_reserves
  obtain ⟨reserves, holds⟩ := of_decide_eq_true passed
  obtain ⟨state, submitted, claimed⟩ := Option.bind_eq_some_iff.mp ran
  have before := afterSubmit_reserves
  rw [submitted, Option.all_some] at before
  obtain ⟨waiting, unbundled⟩ := of_decide_eq_true before
  have fresh : (claimOnce reservingLimits).Fresh state := by
    show firstClaim.bundleId ∉ state.bundles.keys
    rw [unbundled]
    exact List.not_mem_nil
  have exact := (reservations_released_once emptyCoordinator after (.legacy none (.inl rfl) 0)
    (.step (.step .refl (submitJobs ["a"]) trivial submitted waiting) (claimOnce reservingLimits)
      fresh claimed reserves)).1 "model-a"
  exact ⟨after, ran, exact.symm.trans holds⟩

end CityPods.Dispatch
