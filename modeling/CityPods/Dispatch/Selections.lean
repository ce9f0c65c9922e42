import CityPods.Dispatch.Claims
import CityPods.Dispatch.Coherence

/-! # What a claim selects

A claim offers a job once for every model it is indexed under. The jobs it
chooses, keeps aside and fails for their size are distinct rows of the queue, and
a job that it fails is in none of the other lists: what refused the job on a
route refuses it there for the rest of the selection.
-/

namespace CityPods.Dispatch

open Foundation

/-! ## Limits that only close -/

theorem atLimit_mono {limit : Option Nat} {count more : Nat} (reached : atLimit limit count = true)
    (increases : count ≤ more) : atLimit limit more = true := by
  cases limit with
  | none => cases reached
  | some limit =>
      obtain ⟨positive, bound⟩ := of_decide_eq_true reached
      exact decide_eq_true ⟨positive, bound.trans increases⟩

theorem countInBundle_le_append (chosen : List Chosen) (entry : Chosen) (routeId : String) :
    countInBundle chosen routeId ≤ countInBundle (chosen ++ [entry]) routeId := by
  unfold countInBundle
  rw [List.filter_append, List.length_append]
  exact Nat.le_add_right _ _

theorem countOfProvider_le_append (chosen : List Chosen) (entry : Chosen) (provider : String) :
    countOfProvider chosen provider ≤ countOfProvider (chosen ++ [entry]) provider := by
  unfold countOfProvider
  rw [List.filter_append, List.length_append]
  exact Nat.le_add_right _ _

theorem mem_seenRoutes_append {chosen : List Chosen} {entry : Chosen} {routeId : String} :
    routeId ∈ seenRoutes (chosen ++ [entry]) ↔
      routeId ∈ seenRoutes chosen ∨ routeId = entry.route.routeId := by
  simp [seenRoutes, List.mem_dedup]

theorem length_seenRoutes_append (chosen : List Chosen) (entry : Chosen) :
    (seenRoutes chosen).length ≤ (seenRoutes (chosen ++ [entry])).length := by
  refine (List.subperm_of_subset (List.nodup_dedup _) ?_).length_le
  intro routeId member
  exact mem_seenRoutes_append.mpr (.inl member)

section

variable {calendar : Calendar} {limits : ClaimLimits} {catalog : ClaimCatalog} {call : ClaimCall}
  {state : Coordinator} {route : ClaimRoute} {chosen : List Chosen}

theorem closedBy_eq_none_iff :
    closedBy limits catalog state chosen route = none ↔
      yieldsNow catalog state route = false ∧
        (route.routeId ∉ seenRoutes chosen →
          (seenRoutes chosen).length < limits.maxConcurrentRouteLanes) ∧
        countInBundle chosen route.routeId < limits.maxJobsPerRoutePerBundle ∧
        atLimit route.concurrency
          (state.tables.leaseCountOn route.routeId + countInBundle chosen route.routeId) = false ∧
        atLimit (providerConcurrency catalog route)
          (inFlightOfProvider catalog state route.catalog.provider +
            countOfProvider chosen route.catalog.provider) = false := by
  unfold closedBy
  split_ifs <;> simp_all

variable {entry : Chosen}

theorem closedBy_append (closed : closedBy limits catalog state chosen route ≠ none)
    (admitted : closedBy limits catalog state chosen entry.route = none) :
    closedBy limits catalog state (chosen ++ [entry]) route ≠ none := by
  intro opened
  apply closed
  obtain ⟨yields, lanes, bundle, concurrency, shared⟩ := closedBy_eq_none_iff.mp opened
  refine closedBy_eq_none_iff.mpr ⟨yields, ?_, ?_, ?_, ?_⟩
  · intro unseen
    by_contra full
    -- The new entry was admitted while every lane was taken, so its route has one.
    have known : entry.route.routeId ∈ seenRoutes chosen := by
      by_contra unknown
      exact full ((closedBy_eq_none_iff.mp admitted).2.1 unknown)
    have foreign : route.routeId ∉ seenRoutes (chosen ++ [entry]) := by
      intro member
      rcases mem_seenRoutes_append.mp member with before | same
      · exact unseen before
      · exact unseen (same ▸ known)
    have longer := length_seenRoutes_append chosen entry
    have bounded := lanes foreign
    omega
  · exact (countInBundle_le_append chosen entry route.routeId).trans_lt bundle
  · by_contra reached
    have increases := countInBundle_le_append chosen entry route.routeId
    have after := atLimit_mono (Bool.eq_true_of_not_eq_false reached)
      (Nat.add_le_add_left increases _)
    rw [concurrency] at after
    cases after
  · by_contra reached
    have increases := countOfProvider_le_append chosen entry route.catalog.provider
    have after := atLimit_mono (Bool.eq_true_of_not_eq_false reached)
      (Nat.add_le_add_left increases _)
    rw [shared] at after
    cases after

/-- Nothing on this route takes the job, now or later in the selection. -/
def RefusedOn (calendar : Calendar) (limits : ClaimLimits) (catalog : ClaimCatalog)
    (call : ClaimCall) (state : Coordinator) (chosen : List Chosen) (job : JobRow)
    (route : ClaimRoute) : Prop :=
  closedBy limits catalog state chosen route ≠ none ∨
    (fits calendar limits catalog call state job route false = false ∧
      fits calendar limits catalog call state job route true = false)

theorem RefusedOn.append {job : JobRow}
    (refused : RefusedOn calendar limits catalog call state chosen job route)
    (admitted : closedBy limits catalog state chosen entry.route = none) :
    RefusedOn calendar limits catalog call state (chosen ++ [entry]) job route :=
  refused.imp (fun closed => closedBy_append closed admitted) id

/-! ## Selections -/

def JobTables.Offers (tables : JobTables) (job : JobRow) : Prop :=
  tables.jobs.get? job.id = some job ∧ job.state = .queued

theorem JobTables.Offers.eq {tables : JobTables} {left right : JobRow} (first : tables.Offers left)
    (second : tables.Offers right) (same : left.id = right.id) : left = right := by
  have found := first.1
  rwa [same, second.1, Option.some.injEq, eq_comm] at found

structure Selection.Sound (calendar : Calendar) (limits : ClaimLimits) (catalog : ClaimCatalog)
    (call : ClaimCall) (state : Coordinator) (selection : Selection) : Prop where
  chosen : (chosenIds selection.chosen).Nodup
  drains : (chosenIds selection.drains).Nodup
  oversize : (selection.oversize.map JobRow.id).Nodup
  chosenRows : ∀ entry ∈ selection.chosen, state.tables.Offers entry.job
  drainRows : ∀ entry ∈ selection.drains, state.tables.Offers entry.job
  oversizeRows : ∀ job ∈ selection.oversize, state.tables.Offers job
  apart : ∀ job ∈ selection.oversize,
    job.id ∉ chosenIds selection.chosen ∧ job.id ∉ chosenIds selection.drains
  refused : ∀ job ∈ selection.oversize, ∀ route ∈ catalog.routesEligibleFor state.routes job,
    RefusedOn calendar limits catalog call state selection.chosen job route

theorem chosenIds_append (chosen : List Chosen) (entry : Chosen) :
    chosenIds (chosen ++ [entry]) = chosenIds chosen ++ [entry.job.id] :=
  List.map_append

theorem nodup_chosenIds_append
    (nodup : (chosenIds chosen).Nodup) (absent : entry.job.id ∉ chosenIds chosen) :
    (chosenIds (chosen ++ [entry])).Nodup := by
  rw [chosenIds_append]
  exact List.nodup_append.mpr ⟨nodup, List.nodup_singleton _, by
    intro jobId member other single same
    rw [List.mem_singleton.mp single] at same
    exact absent (same ▸ member)⟩

namespace Selection.Sound

variable {selection : Selection} {job : JobRow} {route : ClaimRoute}

theorem empty : Sound calendar limits catalog call state {} where
  chosen := List.nodup_nil
  drains := List.nodup_nil
  oversize := List.nodup_nil
  chosenRows := fun _ absent => absurd absent List.not_mem_nil
  drainRows := fun _ absent => absurd absent List.not_mem_nil
  oversizeRows := fun _ absent => absurd absent List.not_mem_nil
  apart := fun _ absent => absurd absent List.not_mem_nil
  refused := fun _ absent => absurd absent List.not_mem_nil

theorem refuse (sound : Sound calendar limits catalog call state selection) (gate : Gate) :
    Sound calendar limits catalog call state (selection.refuse gate) :=
  ⟨sound.chosen, sound.drains, sound.oversize, sound.chosenRows, sound.drainRows,
    sound.oversizeRows, sound.apart, sound.refused⟩

theorem not_oversize (sound : Sound calendar limits catalog call state selection)
    (offered : state.tables.Offers job)
    (eligible : route ∈ catalog.routesEligibleFor state.routes job)
    (admitted : closedBy limits catalog state selection.chosen route = none)
    (tolerance : Bool) (taken : fits calendar limits catalog call state job route tolerance = true) :
    job.id ∉ selection.oversize.map JobRow.id := by
  intro member
  obtain ⟨failed, listed, same⟩ := List.mem_map.mp member
  have equal := (sound.oversizeRows failed listed).eq offered same
  subst equal
  rcases sound.refused failed listed route eligible with closed | unfit
  · exact closed admitted
  · cases tolerance with
    | false => exact absurd taken (by rw [unfit.1]; decide)
    | true => exact absurd taken (by rw [unfit.2]; decide)

theorem choose (sound : Sound calendar limits catalog call state selection)
    (offered : state.tables.Offers job) (absent : job.id ∉ chosenIds selection.chosen)
    (eligible : route ∈ catalog.routesEligibleFor state.routes job)
    (admitted : closedBy limits catalog state selection.chosen route = none)
    (taken : fits calendar limits catalog call state job route false = true) :
    Sound calendar limits catalog call state (selection.choose job route) where
  chosen := nodup_chosenIds_append sound.chosen absent
  drains := sound.drains
  oversize := sound.oversize
  chosenRows := by
    intro entry member
    rcases List.mem_append.mp member with before | added
    · exact sound.chosenRows entry before
    · rw [List.mem_singleton.mp added]
      exact offered
  drainRows := sound.drainRows
  oversizeRows := sound.oversizeRows
  apart := by
    intro failed listed
    refine ⟨?_, (sound.apart failed listed).2⟩
    show failed.id ∉ chosenIds (selection.chosen ++ [⟨job, route, false⟩])
    rw [chosenIds_append]
    intro member
    rcases List.mem_append.mp member with before | added
    · exact (sound.apart failed listed).1 before
    · exact sound.not_oversize offered eligible admitted false taken
        (List.mem_map.mpr ⟨failed, listed, List.mem_singleton.mp added⟩)
  refused := fun failed listed other candidate =>
    (sound.refused failed listed other candidate).append admitted

theorem keepAside (sound : Sound calendar limits catalog call state selection)
    (offered : state.tables.Offers job)
    (eligible : route ∈ catalog.routesEligibleFor state.routes job)
    (admitted : closedBy limits catalog state selection.chosen route = none)
    (taken : fits calendar limits catalog call state job route true = true) :
    Sound calendar limits catalog call state (selection.keepAside job route) := by
  unfold Selection.keepAside
  split
  · exact sound
  next absent =>
  exact {
    sound with
    drains := nodup_chosenIds_append sound.drains absent
    drainRows := by
      intro entry member
      rcases List.mem_append.mp member with before | added
      · exact sound.drainRows entry before
      · rw [List.mem_singleton.mp added]
        exact offered
    apart := by
      intro failed listed
      refine ⟨(sound.apart failed listed).1, ?_⟩
      show failed.id ∉ chosenIds (selection.drains ++ [⟨job, route, true⟩])
      rw [chosenIds_append]
      intro member
      rcases List.mem_append.mp member with before | added
      · exact (sound.apart failed listed).2 before
      · exact sound.not_oversize offered eligible admitted true taken
          (List.mem_map.mpr ⟨failed, listed, List.mem_singleton.mp added⟩) }

theorem failOversize (sound : Sound calendar limits catalog call state selection)
    (offered : state.tables.Offers job) (unchosen : job.id ∉ chosenIds selection.chosen)
    (undrained : job.id ∉ chosenIds selection.drains)
    (absent : job.id ∉ selection.oversize.map JobRow.id)
    (refused : ∀ route ∈ catalog.routesEligibleFor state.routes job,
      RefusedOn calendar limits catalog call state selection.chosen job route) :
    Sound calendar limits catalog call state (selection.failOversize job) where
  chosen := sound.chosen
  drains := sound.drains
  oversize := by
    show ((selection.oversize ++ [job]).map JobRow.id).Nodup
    rw [List.map_append]
    exact List.nodup_append.mpr ⟨sound.oversize, List.nodup_singleton _, by
      intro jobId member other single same
      rw [List.mem_singleton.mp single] at same
      exact absent (same ▸ member)⟩
  chosenRows := sound.chosenRows
  drainRows := sound.drainRows
  oversizeRows := by
    intro failed member
    rcases List.mem_append.mp member with before | added
    · exact sound.oversizeRows failed before
    · rw [List.mem_singleton.mp added]
      exact offered
  apart := by
    intro failed member
    rcases List.mem_append.mp member with before | added
    · exact sound.apart failed before
    · rw [List.mem_singleton.mp added]
      exact ⟨unchosen, undrained⟩
  refused := by
    intro failed member
    rcases List.mem_append.mp member with before | added
    · exact sound.refused failed before
    · rw [List.mem_singleton.mp added]
      exact refused

end Selection.Sound

/-! ## Offers -/

variable {selection : Selection} {job : JobRow} {routes : List ClaimRoute}

theorem chosenIds_keepAside {entry : String} (member : entry ∈ chosenIds selection.drains) :
    entry ∈ chosenIds (selection.keepAside job route).drains := by
  unfold Selection.keepAside
  split
  · exact member
  · rw [chosenIds_append]
    exact List.mem_append_left _ member

theorem mem_chosenIds_keepAside (route : ClaimRoute) :
    job.id ∈ chosenIds (selection.keepAside job route).drains := by
  unfold Selection.keepAside
  split
  · next present =>
    exact present
  · rw [chosenIds_append]
    exact List.mem_append_right _ List.mem_cons_self

theorem keepAside_chosen (route : ClaimRoute) :
    (selection.keepAside job route).chosen = selection.chosen := by
  unfold Selection.keepAside
  split <;> rfl

theorem mem_drains_offerRoutes {jobId : String} (member : jobId ∈ chosenIds selection.drains) :
    jobId ∈ chosenIds
      (offerRoutes calendar limits catalog call state job routes selection).drains := by
  induction routes generalizing selection with
  | nil => exact member
  | cons route later induction =>
      unfold offerRoutes
      split
      · exact induction member
      · split
        · exact member
        · split
          · exact induction (chosenIds_keepAside member)
          · exact induction member

theorem offerRoutes_sound (sound : Selection.Sound calendar limits catalog call state selection)
    (offered : state.tables.Offers job) (absent : job.id ∉ chosenIds selection.chosen)
    (eligible : ∀ route ∈ routes, route ∈ catalog.routesEligibleFor state.routes job) :
    Selection.Sound calendar limits catalog call state
      (offerRoutes calendar limits catalog call state job routes selection) := by
  induction routes generalizing selection with
  | nil => exact sound
  | cons route later induction =>
      have here := eligible route List.mem_cons_self
      have rest := fun other member => eligible other (List.mem_cons_of_mem _ member)
      unfold offerRoutes
      split
      · next gate closed =>
        exact induction (sound.refuse gate) absent rest
      · next admitted =>
        split
        · next taken =>
          exact sound.choose offered absent here admitted taken
        · split
          · next near =>
            refine induction ((sound.refuse .routeCapacity).keepAside offered here admitted near)
              ?_ rest
            rw [keepAside_chosen]
            exact absent
          · exact induction (sound.refuse .routeCapacity) absent rest

theorem offerRoutes_refused (unchosen : job.id ∉ chosenIds
      (offerRoutes calendar limits catalog call state job routes selection).chosen)
    (undrained : job.id ∉ chosenIds
      (offerRoutes calendar limits catalog call state job routes selection).drains) :
    ∀ route ∈ routes, RefusedOn calendar limits catalog call state
      (offerRoutes calendar limits catalog call state job routes selection).chosen job route := by
  suffices unmoved : (offerRoutes calendar limits catalog call state job routes selection).chosen =
      selection.chosen ∧ ∀ route ∈ routes,
        RefusedOn calendar limits catalog call state selection.chosen job route by
    rw [unmoved.1]
    exact unmoved.2
  induction routes generalizing selection with
  | nil => exact ⟨rfl, fun _ absent => absurd absent List.not_mem_nil⟩
  | cons route later induction =>
      unfold offerRoutes at unchosen undrained ⊢
      cases closed : closedBy limits catalog state selection.chosen route with
      | some gate =>
          rw [closed] at unchosen undrained
          obtain ⟨same, refused⟩ := induction unchosen undrained
          refine ⟨same, List.forall_mem_cons.mpr ⟨.inl ?_, refused⟩⟩
          rw [closed]
          exact Option.some_ne_none gate
      | none =>
          rw [closed] at unchosen undrained
          dsimp only at unchosen undrained ⊢
          cases taken : fits calendar limits catalog call state job route false with
          | true =>
              rw [taken, if_pos rfl] at unchosen
              refine absurd ?_ unchosen
              show job.id ∈ chosenIds (selection.chosen ++ [⟨job, route, false⟩])
              rw [chosenIds_append]
              exact List.mem_append_right _ List.mem_cons_self
          | false =>
              simp only [taken, Bool.false_eq_true, if_false] at unchosen undrained ⊢
              cases near : fits calendar limits catalog call state job route true with
              | true =>
                  rw [near, if_pos rfl] at undrained
                  exact absurd (mem_drains_offerRoutes (mem_chosenIds_keepAside route)) undrained
              | false =>
                  simp only [near, Bool.false_eq_true, if_false] at unchosen undrained ⊢
                  obtain ⟨same, refused⟩ := induction unchosen undrained
                  exact ⟨same, List.forall_mem_cons.mpr ⟨.inr ⟨taken, near⟩, refused⟩⟩

theorem mem_routeOrder :
    route ∈ routeOrder catalog state job selection ↔
      route ∈ catalog.routesEligibleFor state.routes job := by
  unfold routeOrder
  rw [List.mem_append, List.mem_filter, List.mem_filter]
  simp only [decide_eq_true_eq]
  tauto

theorem offerJob_sound (sound : Selection.Sound calendar limits catalog call state selection)
    (offered : state.tables.Offers job) :
    Selection.Sound calendar limits catalog call state
      (offerJob calendar limits catalog call state selection job) := by
  unfold offerJob
  split
  · exact sound
  next absent =>
  have counted : Selection.Sound calendar limits catalog call state
      { selection with candidateJobs := selection.candidateJobs + 1 } :=
    ⟨sound.chosen, sound.drains, sound.oversize, sound.chosenRows, sound.drainRows,
      sound.oversizeRows, sound.apart, sound.refused⟩
  have ordered : ∀ route ∈ routeOrder catalog state job selection,
      route ∈ catalog.routesEligibleFor state.routes job :=
    fun route member => mem_routeOrder.mp member
  have tried := offerRoutes_sound counted offered absent ordered
  unfold judgeSize
  split
  · next judged =>
    refine tried.failOversize offered judged.1 judged.2.1 judged.2.2.1 ?_
    intro route eligible
    exact offerRoutes_refused judged.1 judged.2.1 route (mem_routeOrder.mpr eligible)
  · exact tried

variable {bundleJobLimit : Nat}

theorem offerJobs_sound {start : Nat} {candidates : List Candidate}
    (sound : Selection.Sound calendar limits catalog call state selection)
    (offered : ∀ candidate ∈ candidates, state.tables.Offers candidate.job) :
    Selection.Sound calendar limits catalog call state
      (offerJobs calendar limits catalog call state bundleJobLimit start selection
        candidates) := by
  unfold offerJobs
  refine List.foldlRecOn candidates _ sound fun selection sound candidate member => ?_
  split
  · exact sound
  · exact offerJob_sound sound (offered candidate member)

theorem offerModel_sound (coherent : state.tables.Coherent)
    (sound : Selection.Sound calendar limits catalog call state selection) (plan : ModelPlan) :
    Selection.Sound calendar limits catalog call state
      (offerModel calendar limits catalog call state bundleJobLimit selection plan) := by
  have offered : ∀ after limit, ∀ candidate ∈
      state.tables.queue.readCandidates state.tables.jobs plan.model after limit,
        state.tables.Offers candidate.job :=
    fun after limit candidate member =>
      (coherent.readCandidates plan.model after limit).2 _ (List.mem_map_of_mem member)
  unfold offerModel
  split
  · exact sound
  dsimp only
  have headed := offered none (limits.headLimit plan)
  split
  · exact offerJobs_sound sound headed
  · exact offerJobs_sound (offerJobs_sound sound headed) (offered _ _)

theorem selectJobs_sound (coherent : state.tables.Coherent) (bundleJobLimit : Nat) :
    Selection.Sound calendar limits catalog call state
      (selectJobs calendar limits catalog call state bundleJobLimit) := by
  unfold selectJobs
  exact List.foldlRecOn _ _ .empty fun selection sound plan _ =>
    offerModel_sound coherent sound plan

/-! ## The drain pass -/

theorem sublist_drains (bundleJobLimit : Nat) (drains chosen : List Chosen) :
    (drains.foldl (drainJob limits catalog state bundleJobLimit) chosen).Sublist
      (chosen ++ drains) := by
  induction drains generalizing chosen with
  | nil => simp
  | cons entry rest induction =>
      rw [List.foldl_cons]
      refine (induction _).trans ?_
      unfold drainJob
      split
      · exact (List.Sublist.refl chosen).append (List.sublist_cons_self entry rest)
      · rw [List.append_assoc]
        exact List.Sublist.refl _

/-- What is leased in the end are distinct queued rows, and none that is failed. -/
theorem drainPass_spec (sound : Selection.Sound calendar limits catalog call state selection)
    (bundleJobLimit : Nat) :
    (chosenIds (drainPass limits catalog state bundleJobLimit selection)).Nodup ∧
      ∀ entry ∈ drainPass limits catalog state bundleJobLimit selection,
        state.tables.Offers entry.job ∧ entry.job.id ∉ selection.oversize.map JobRow.id := by
  have apart {chosen : List Chosen}
      (separate : ∀ failed ∈ selection.oversize, failed.id ∉ chosenIds chosen)
      {entry : Chosen} (member : entry ∈ chosen) :
      entry.job.id ∉ selection.oversize.map JobRow.id := by
    intro listed
    obtain ⟨failed, inside, same⟩ := List.mem_map.mp listed
    exact separate failed inside (List.mem_map.mpr ⟨entry, member, same.symm⟩)
  unfold drainPass
  split
  · have drained : (selection.drains.foldl (drainJob limits catalog state bundleJobLimit)
        []).Sublist selection.drains := sublist_drains bundleJobLimit selection.drains []
    refine ⟨sound.drains.sublist (drained.map _), fun entry member => ?_⟩
    have kept := drained.subset member
    exact ⟨sound.drainRows entry kept, apart (fun failed inside =>
      (sound.apart failed inside).2) kept⟩
  · exact ⟨sound.chosen, fun entry member => ⟨sound.chosenRows entry member,
      apart (fun failed inside => (sound.apart failed inside).1) member⟩⟩

end

end CityPods.Dispatch
