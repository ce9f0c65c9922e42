import CityPods.Dispatch.Coherence

/-! # Tallied moves

The coordinator counts its queued jobs by differences, and holds the tokens of its
leased jobs by differences too. Job tables that move by allowed changes of single
rows, with a tally that follows them, stay coherent and keep the tally exact.
-/

namespace CityPods.Dispatch

open Foundation

/-! ## Changes -/

structure Change.Passes (sources targets : List (Option JobState)) (change : Change) : Prop where
  source : change.before.map JobRow.state ∈ sources
  target : change.after.map JobRow.state ∈ targets

namespace JobTables.Edits

variable {changes : List Change} {start after : JobTables} {jobId : String}

/-- A row that no change names is as it was. -/
theorem unchanged (edits : Edits changes start after)
    (foreign : ∀ change ∈ changes, change.jobId ≠ jobId) :
    start.jobs.get? jobId = after.jobs.get? jobId :=
  edits.relates (fun _ => rfl) (fun _ _ _ => Eq.trans) jobId
    fun change member here => absurd here (foreign change member)

/-- Where every row changes at most once, a change's row is as the change left it. -/
theorem changed (edits : Edits changes start after) (distinct : (changes.map Change.jobId).Nodup)
    {change : Change} (member : change ∈ changes) :
    after.jobs.get? change.jobId = change.after := by
  induction edits with
  | refl => cases member
  | @write changes start middle after job earlier writes induction =>
      rw [List.map_append] at distinct
      obtain ⟨before, _, apart⟩ := List.nodup_append.mp distinct
      rw [writes.jobs]
      rcases List.mem_append.mp member with old | new
      · rw [Dict.get?_set_other _ _ (apart _ (List.mem_map_of_mem old) _ List.mem_cons_self)]
        exact induction before old
      · rw [List.mem_singleton.mp new]
        exact Dict.get?_set_same _ _ _
  | @delete changes start middle removed job earlier found notQueued notLeased induction =>
      rw [List.map_append] at distinct
      obtain ⟨before, _, apart⟩ := List.nodup_append.mp distinct
      show (middle.jobs.erase removed).get? change.jobId = _
      rcases List.mem_append.mp member with old | new
      · rw [Dict.get?_erase_other _ (apart _ (List.mem_map_of_mem old) _ List.mem_cons_self)]
        exact induction before old
      · rw [List.mem_singleton.mp new]
        exact Dict.get?_erase_same _ _

theorem delete_one {job : JobRow} (found : start.jobs.get? jobId = some job)
    (notQueued : job.state ≠ .queued) (notLeased : job.state ≠ .leased) :
    Edits [⟨jobId, some job, none⟩] start (start.deleteRow jobId) :=
  .delete (.refl start) found notQueued notLeased

theorem one_of {row job : JobRow} (writes : Writes job start after)
    (found : start.jobs.get? job.id = some row) :
    Edits [⟨job.id, some row, some job⟩] start after := by
  have edits := Edits.one writes
  rwa [found] at edits

theorem of_foldlM {α : Type} {row result : α → JobRow} {step : JobTables → α → Option JobTables}
    {items : List α} (coherent : start.Coherent)
    (distinct : (items.map fun item => (row item).id).Nodup)
    (present : ∀ item ∈ items, start.jobs.get? (row item).id = some (row item))
    (named : ∀ item ∈ items, (result item).id = (row item).id)
    (writes : ∀ item ∈ items, ∀ before next : JobTables, before.Coherent →
      before.jobs.get? (row item).id = some (row item) → step before item = some next →
        Writes (result item) before next)
    (ran : items.foldlM step start = some after) :
    Edits (items.map fun item => ⟨(row item).id, some (row item), some (result item)⟩) start
      after := by
  induction items generalizing start with
  | nil =>
      cases ran
      exact .refl _
  | cons item rest induction =>
      rw [List.foldlM_cons, Option.bind_eq_bind] at ran
      obtain ⟨next, stepped, later⟩ := Option.bind_eq_some_iff.mp ran
      have found := present item List.mem_cons_self
      have written := writes item List.mem_cons_self start next coherent found stepped
      have same := named item List.mem_cons_self
      have parts := List.nodup_cons.mp distinct
      have head : Edits [⟨(result item).id, some (row item), some (result item)⟩] start next :=
        one_of written (by rwa [same])
      rw [same] at head
      refine head.trans (induction (written.coherent coherent) parts.2 ?_
        (fun other member => named other (List.mem_cons_of_mem _ member))
        (fun other member => writes other (List.mem_cons_of_mem _ member)) later)
      intro other member
      have different : (row other).id ≠ (result item).id := by
        rw [same]
        intro equal
        exact parts.1 (List.mem_map.mpr ⟨other, member, equal⟩)
      rw [written.jobs, Dict.get?_set_other _ _ different]
      exact present other (List.mem_cons_of_mem _ member)

end JobTables.Edits

/-! ## Tallied tables -/

structure Tallied (μ : Type) where
  tables : JobTables
  tally : μ

section

variable {μ : Type} [AddCommGroup μ] {weight : JobRow → μ}

def Tallied.Moves (weight : JobRow → μ) (allowed : Change → Prop) (before after : Tallied μ) :
    Prop :=
  ∃ changes, JobTables.Edits changes before.tables after.tables ∧
    (∀ change ∈ changes, allowed change) ∧
      after.tally = before.tally + JobTables.Edits.gain weight changes

namespace Tallied.Moves

variable {allowed more : Change → Prop} {before middle after : Tallied μ}

theorem refl (allowed : Change → Prop) (state : Tallied μ) :
    Moves weight allowed state state :=
  ⟨[], .refl _, fun _ absent => absurd absent List.not_mem_nil, by simp⟩

theorem trans (first : Moves weight allowed before middle)
    (second : Moves weight allowed middle after) :
    Moves weight allowed before after := by
  obtain ⟨changes, edits, permitted, counted⟩ := first
  obtain ⟨later, laterEdits, laterPermitted, laterCounted⟩ := second
  refine ⟨changes ++ later, edits.trans laterEdits, ?_, ?_⟩
  · intro change member
    exact (List.mem_append.mp member).elim (permitted change) (laterPermitted change)
  · rw [JobTables.Edits.gain_append, laterCounted, counted, add_assoc]

theorem mono (moves : Moves weight allowed before after)
    (weaker : ∀ change, allowed change → more change) :
    Moves weight more before after := by
  obtain ⟨changes, edits, permitted, counted⟩ := moves
  exact ⟨changes, edits, fun change member => weaker change (permitted change member), counted⟩

theorem coherent (moves : Moves weight allowed before after) (initial : before.tables.Coherent) :
    after.tables.Coherent := by
  obtain ⟨changes, edits, _, _⟩ := moves
  exact edits.coherent initial

/-- The tally stays as far from the total of the rows as it was. -/
theorem balanced (moves : Moves weight allowed before after) (initial : before.tables.Coherent) :
    after.tally - Dict.total weight after.tables.jobs =
      before.tally - Dict.total weight before.tables.jobs := by
  obtain ⟨changes, edits, _, counted⟩ := moves
  rw [counted, edits.total weight initial]
  exact add_sub_add_right_eq_sub _ _ _

/-- What every allowed change of a job's row keeps to, the whole history keeps to. -/
theorem relates {relation : Option JobRow → Option JobRow → Prop}
    (moves : Moves weight allowed before after) (refl : ∀ row, relation row row)
    (trans : ∀ first second third, relation first second → relation second third →
      relation first third)
    (jobId : String) (each : ∀ change, allowed change → change.jobId = jobId →
      relation change.before change.after) :
    relation (before.tables.jobs.get? jobId) (after.tables.jobs.get? jobId) := by
  obtain ⟨changes, edits, permitted, _⟩ := moves
  exact edits.relates refl trans jobId fun change member =>
    each change (permitted change member)

theorem write {job : JobRow} {tables next : JobTables} {tally moved : μ}
    (writes : JobTables.Writes job tables next)
    (permitted : allowed ⟨job.id, tables.jobs.get? job.id, some job⟩) (counts : moved =
      tally + (weight job - (tables.jobs.get? job.id).elim 0 weight)) :
    Moves weight allowed ⟨tables, tally⟩ ⟨next, moved⟩ := by
  refine ⟨_, .one writes, ?_, ?_⟩
  · intro change member
    rw [List.mem_singleton.mp member]
    exact permitted
  · rw [JobTables.Edits.gain_singleton]
    exact counts

theorem rewrite {sources targets : List (Option JobState)} {old : Option JobRow} {job : JobRow}
    {tables next : JobTables} {tally moved : μ} (writes : JobTables.Writes job tables next)
    (found : tables.jobs.get? job.id = old) (source : old.map JobRow.state ∈ sources)
    (target : some job.state ∈ targets)
    (counts : moved = tally + (weight job - old.elim 0 weight)) :
    Moves weight (fun change => change.jobId = job.id ∧ change.Passes sources targets)
      ⟨tables, tally⟩ ⟨next, moved⟩ := by
  subst found
  exact write writes ⟨rfl, source, target⟩ counts

variable {σ α : Type} {step : σ → α → Option σ} {items : List α} {start finish : σ}

theorem foldlM (view : σ → Tallied μ)
    (each : ∀ item ∈ items, ∀ state next, (view state).tables.Coherent →
      step state item = some next → Moves weight allowed (view state) (view next))
    (coherent : (view start).tables.Coherent)
    (ran : items.foldlM step start = some finish) :
    Moves weight allowed (view start) (view finish) := by
  induction items generalizing start with
  | nil =>
      cases ran
      exact refl allowed _
  | cons item rest induction =>
      rw [List.foldlM_cons, Option.bind_eq_bind] at ran
      obtain ⟨next, stepped, later⟩ := Option.bind_eq_some_iff.mp ran
      have moved := each item List.mem_cons_self start next coherent stepped
      exact moved.trans (induction (fun other member =>
        each other (List.mem_cons_of_mem _ member)) (moved.coherent coherent) later)

/-- The same for a fold that cannot fail. -/
theorem foldl (view : σ → Tallied μ) {step : σ → α → σ}
    (each : ∀ item ∈ items, ∀ state, (view state).tables.Coherent →
      Moves weight allowed (view state) (view (step state item)))
    (coherent : (view start).tables.Coherent) :
    Moves weight allowed (view start) (view (items.foldl step start)) := by
  induction items generalizing start with
  | nil => exact refl allowed _
  | cons item rest induction =>
      have moved := each item List.mem_cons_self start coherent
      exact moved.trans (induction (fun other member =>
        each other (List.mem_cons_of_mem _ member)) (moved.coherent coherent))

/-- A fold that rewrites distinct rows, each as it was at the start. -/
theorem distinct {row result : α → JobRow} {step : JobTables → α → Option JobTables}
    {start finish : JobTables} (tally : μ) (coherent : start.Coherent)
    (distinct : (items.map fun item => (row item).id).Nodup)
    (present : ∀ item ∈ items, start.jobs.get? (row item).id = some (row item))
    (named : ∀ item ∈ items, (result item).id = (row item).id)
    (writes : ∀ item ∈ items, ∀ before next : JobTables, before.Coherent →
      before.jobs.get? (row item).id = some (row item) → step before item = some next →
        JobTables.Writes (result item) before next)
    (permitted : ∀ item ∈ items, allowed ⟨(row item).id, some (row item), some (result item)⟩)
    (ran : items.foldlM step start = some finish) :
    Moves weight allowed ⟨start, tally⟩
      ⟨finish, tally + (items.map fun item =>
        weight (result item) - weight (row item)).sum⟩ := by
  refine ⟨_, .of_foldlM coherent distinct present named writes ran, ?_, ?_⟩
  · intro change member
    obtain ⟨item, listed, rfl⟩ := List.mem_map.mp member
    exact permitted item listed
  · unfold JobTables.Edits.gain
    rw [List.map_map]
    rfl

variable {ν : Type}

/-- What is read off the tally follows the rows as well. -/
theorem map [AddCommGroup ν] (read : μ →+ ν) (moves : Moves weight allowed before after) :
    Moves (fun job => read (weight job)) allowed ⟨before.tables, read before.tally⟩
      ⟨after.tables, read after.tally⟩ := by
  obtain ⟨changes, edits, permitted, counted⟩ := moves
  refine ⟨changes, edits, permitted, ?_⟩
  have each (row : Option JobRow) : read (row.elim 0 weight) =
      row.elim 0 fun job => read (weight job) := by
    cases row with
    | none => exact map_zero read
    | some job => rfl
  rw [counted, map_add]
  unfold JobTables.Edits.gain
  rw [map_list_sum, List.map_map]
  refine congrArg _ (congrArg List.sum (List.map_congr_left fun change _ => ?_))
  show read (_ - _) = _
  rw [map_sub, each, each]

theorem total_eq [AddCommGroup ν] {other : JobRow → ν}
    (moves : Moves weight allowed before after) (initial : before.tables.Coherent)
    (idle : ∀ change, allowed change → change.before.elim 0 other = change.after.elim 0 other) :
    Dict.total other after.tables.jobs = Dict.total other before.tables.jobs := by
  obtain ⟨changes, edits, permitted, _⟩ := moves
  have nothing : JobTables.Edits.gain other changes = 0 :=
    List.sum_eq_zero fun gained member => by
      obtain ⟨change, listed, rfl⟩ := List.mem_map.mp member
      exact sub_eq_zero.mpr (idle change (permitted change listed)).symm
  rw [edits.total other initial, nothing, add_zero]

theorem unchanged (moves : Moves weight allowed before after) {jobId : String}
    (foreign : ∀ change, allowed change → change.jobId ≠ jobId) :
    before.tables.jobs.get? jobId = after.tables.jobs.get? jobId :=
  moves.relates (fun _ => rfl) (fun _ _ _ => Eq.trans) jobId
    fun change permitted here => absurd here (foreign change permitted)

theorem foldlM_apart (view : σ → Tallied μ) (rows : α → List JobRow)
    (each : ∀ item ∈ items, ∀ state next, (view state).tables.Coherent →
      (∀ row ∈ rows item, (view state).tables.jobs.get? row.id = some row) →
      step state item = some next →
        Moves weight (fun change => change.jobId ∈ (rows item).map JobRow.id ∧ allowed change)
          (view state) (view next))
    (coherent : (view start).tables.Coherent)
    (separate : ((items.flatMap rows).map JobRow.id).Nodup)
    (present : ∀ row ∈ items.flatMap rows, (view start).tables.jobs.get? row.id = some row)
    (ran : items.foldlM step start = some finish) :
    Moves weight (fun change => change.jobId ∈ (items.flatMap rows).map JobRow.id ∧ allowed change)
      (view start) (view finish) := by
  induction items generalizing start with
  | nil =>
      cases ran
      exact refl _ _
  | cons item rest induction =>
      rw [List.foldlM_cons, Option.bind_eq_bind] at ran
      obtain ⟨next, stepped, later⟩ := Option.bind_eq_some_iff.mp ran
      rw [List.flatMap_cons] at separate present ⊢
      rw [List.map_append] at separate
      obtain ⟨_, restNodup, apart⟩ := List.nodup_append.mp separate
      have moved := each item List.mem_cons_self start next coherent
        (fun row member => present row (List.mem_append_left _ member)) stepped
      have remains : ∀ row ∈ rest.flatMap rows,
          (view next).tables.jobs.get? row.id = some row := by
        intro row member
        rw [← present row (List.mem_append_right _ member)]
        refine (moved.unchanged fun change permitted here => ?_).symm
        exact apart _ permitted.1 _ (List.mem_map_of_mem member) here
      refine (moved.mono ?_).trans ((induction (fun other member =>
        each other (List.mem_cons_of_mem _ member)) (moved.coherent coherent) restNodup remains
          later).mono ?_)
      · rintro change ⟨named, permitted⟩
        rw [List.map_append]
        exact ⟨List.mem_append_left _ named, permitted⟩
      · rintro change ⟨named, permitted⟩
        rw [List.map_append]
        exact ⟨List.mem_append_right _ named, permitted⟩

end Tallied.Moves

end

/-- Job tables with the count that is kept of their queued jobs. -/
abbrev CountedTables := Tallied ℤ

abbrev CountedTables.Moves (allowed : Change → Prop) (before after : CountedTables) : Prop :=
  Tallied.Moves queuedUnit allowed before after

/-! ## Counts -/

variable {job : JobRow}

theorem queuedUnit_of_eq (queued : job.state = .queued) : queuedUnit job = 1 :=
  if_pos queued

theorem queuedUnit_of_ne (other : job.state ≠ .queued) : queuedUnit job = 0 :=
  if_neg other

theorem sum_queuedUnit {α : Type} {items : List α} {unit : α → ℤ} {value : ℤ}
    (each : ∀ item ∈ items, unit item = value) : (items.map unit).sum = items.length * value := by
  rw [List.map_congr_left each, List.map_const', List.sum_replicate, nsmul_eq_mul]

theorem queuedUnit_nonneg (job : JobRow) : 0 ≤ queuedUnit job := by
  unfold queuedUnit
  split <;> decide

theorem JobTables.queuedJobs_nonneg (tables : JobTables) : 0 ≤ tables.queuedJobs := by
  unfold queuedJobs
  induction tables.jobs with
  | nil => exact le_refl 0
  | cons entry rest induction =>
      rw [Dict.total_cons]
      exact add_nonneg (queuedUnit_nonneg entry.2) induction

/-! ## Held tokens -/

def JobRow.holds (job : JobRow) (routeId : String) : ℚ :=
  if job.state = .leased ∧ job.leaseRouteId = some routeId then job.tokenReservation else 0

/-- The tokens that the jobs leased on each route hold together. -/
def JobTables.held (tables : JobTables) : String → ℚ := Dict.total JobRow.holds tables.jobs

theorem JobRow.holds_of_ne (other : job.state ≠ .leased) : job.holds = 0 :=
  funext fun _ => if_neg fun both => other both.1

theorem JobRow.holds_of_leased {routeId : String} (leased : job.state = .leased)
    (route : job.leaseRouteId = some routeId) :
    job.holds = Pi.single routeId job.tokenReservation := by
  funext other
  unfold holds
  rw [Pi.single_apply]
  by_cases same : other = routeId
  · rw [if_pos same, if_pos ⟨leased, by rw [route, same]⟩]
  · rw [if_neg same, if_neg fun both => same (Option.some.inj (both.2.symm.trans route))]

end CityPods.Dispatch
