import CityPods.Foundation.Sweep
import CityPods.Dispatch.CompactReads
import CityPods.Dispatch.DailyQuota
import CityPods.Dispatch.Operations
import CityPods.Dispatch.Reserves

/-! # Beyond a stuck head

A claim that can place nothing at the head of a model's queue reads on from a
frontier that the coordinator keeps from claim to claim. As long as the frontier
is compared with the head in the order of the queue, no job stays unread.
-/

namespace CityPods.Dispatch

open Foundation
open Foundation.Keyset (Ordered)

/-! ## The reads of a turn -/

section

variable (calendar : Calendar) (limits : ClaimLimits) (catalog : ClaimCatalog) (call : ClaimCall)
  (state : Coordinator) (bundleJobLimit : Nat) (selection : Selection) (plan : ModelPlan)

/-- The jobs of a page that the loop comes to and does not skip. -/
def examinedJobs (start : Nat) : Selection → List Candidate → List JobRow
  | _, [] => []
  | selection, candidate :: rest =>
      if fullFor limits bundleJobLimit start selection then []
      else if candidate.job.id ∈ chosenIds selection.chosen then examinedJobs start selection rest
      else
        candidate.job ::
          examinedJobs start (offerJob calendar limits catalog call state selection candidate.job)
            rest

def headOf : List Candidate :=
  state.tables.queue.readCandidates state.tables.jobs plan.model none (limits.headLimit plan)

def afterHead : Selection :=
  offerJobs calendar limits catalog call state bundleJobLimit selection.chosen.length selection
    (headOf limits state plan)

/-- Whether the turn goes on behind the head. -/
def readsOn : Bool :=
  let offered := afterHead calendar limits catalog call state bundleJobLimit selection plan
  !(fullFor limits bundleJobLimit selection.chosen.length offered ∨
    selection.oversize.length < offered.oversize.length ∨
      (headOf limits state plan).length < limits.headLimit plan)

def extensionOf : List Candidate :=
  state.tables.queue.readCandidates state.tables.jobs plan.model
    (startAfter call plan (headOf limits state plan)) (limits.extraLimit plan)

/-- The jobs that a claim examines on behalf of a model. -/
def examined : List JobRow :=
  if bundleJobLimit ≤ selection.chosen.length then []
  else
    examinedJobs calendar limits catalog call state bundleJobLimit selection.chosen.length selection
        (headOf limits state plan) ++
      if readsOn calendar limits catalog call state bundleJobLimit selection plan then
        examinedJobs calendar limits catalog call state bundleJobLimit selection.chosen.length
          (afterHead calendar limits catalog call state bundleJobLimit selection plan)
          (extensionOf limits call state plan)
      else []

/-- The frontier that the claim leaves: none after a page that is not full. -/
def nextFrontier : Option QueuePosition :=
  if bundleJobLimit ≤ selection.chosen.length then call.frontier plan.model
  else if readsOn calendar limits catalog call state bundleJobLimit selection plan then
    let extension := extensionOf limits call state plan
    if extension.length < limits.extraLimit plan then none
    else extension.getLast?.map Candidate.position
  else call.frontier plan.model

theorem offerModel_eq :
    offerModel calendar limits catalog call state bundleJobLimit selection plan =
      if bundleJobLimit ≤ selection.chosen.length then selection
      else
        let offered := afterHead calendar limits catalog call state bundleJobLimit selection plan
        if readsOn calendar limits catalog call state bundleJobLimit selection plan then
          offerJobs calendar limits catalog call state bundleJobLimit selection.chosen.length offered
            (extensionOf limits call state plan)
        else offered := by
  unfold offerModel
  split
  · rfl
  · unfold readsOn
    simp only [Bool.not_eq_true', decide_eq_false_iff_not, ite_not]
    rfl

end

/-! ## What an offer adds -/

section

variable {calendar : Calendar} {limits : ClaimLimits} {catalog : ClaimCatalog} {call : ClaimCall}
  {state : Coordinator} {bundleJobLimit start : Nat} {selection : Selection} {job : JobRow}
  {routes : List ClaimRoute} {candidates : List Candidate}

/-- A selection grows: nothing that is chosen or failed is taken back. -/
structure Selection.Grows (before after : Selection) : Prop where
  chosen : before.chosen <+: after.chosen
  oversize : before.oversize <+: after.oversize

theorem Selection.Grows.refl (selection : Selection) : selection.Grows selection :=
  ⟨List.prefix_rfl, List.prefix_rfl⟩

theorem Selection.Grows.trans {first second third : Selection} (left : first.Grows second)
    (right : second.Grows third) : first.Grows third :=
  ⟨left.chosen.trans right.chosen, left.oversize.trans right.oversize⟩

theorem Selection.grows_refuse (selection : Selection) (gate : Gate) :
    selection.Grows (selection.refuse gate) :=
  ⟨List.prefix_rfl, List.prefix_rfl⟩

theorem Selection.grows_keepAside (selection : Selection) (job : JobRow) (route : ClaimRoute) :
    selection.Grows (selection.keepAside job route) := by
  unfold keepAside
  split <;> exact ⟨List.prefix_rfl, List.prefix_rfl⟩

theorem offerRoutes_grows :
    selection.Grows (offerRoutes calendar limits catalog call state job routes selection) := by
  induction routes generalizing selection with
  | nil => exact .refl _
  | cons route later induction =>
      rw [offerRoutes]
      split
      · next gate _ =>
        exact (selection.grows_refuse gate).trans induction
      · split
        · exact ⟨List.prefix_append _ _, List.prefix_rfl⟩
        · have refused := selection.grows_refuse .routeCapacity
          split
          · exact (refused.trans (Selection.grows_keepAside _ job route)).trans induction
          · exact refused.trans induction

theorem judgeSize_grows : selection.Grows (judgeSize catalog call state job selection) := by
  unfold judgeSize
  split
  · exact ⟨List.prefix_rfl, List.prefix_append _ _⟩
  · exact .refl _

theorem offerJob_grows :
    selection.Grows (offerJob calendar limits catalog call state selection job) := by
  unfold offerJob
  split
  · exact .refl _
  · have counted : selection.Grows { selection with candidateJobs := selection.candidateJobs + 1 } :=
      ⟨List.prefix_rfl, List.prefix_rfl⟩
    exact (counted.trans offerRoutes_grows).trans judgeSize_grows

theorem offerJobs_cons (candidate : Candidate) :
    offerJobs calendar limits catalog call state bundleJobLimit start selection
        (candidate :: candidates) =
      offerJobs calendar limits catalog call state bundleJobLimit start
        (if fullFor limits bundleJobLimit start selection then selection
          else offerJob calendar limits catalog call state selection candidate.job) candidates :=
  rfl

theorem offerJobs_grows :
    selection.Grows (offerJobs calendar limits catalog call state bundleJobLimit start selection
      candidates) := by
  induction candidates generalizing selection with
  | nil => exact .refl _
  | cons candidate rest induction =>
      rw [offerJobs_cons]
      split
      · exact induction
      · exact offerJob_grows.trans induction

/-- Where nothing is chosen, the whole page is examined. -/
theorem examinedJobs_eq (room : fullFor limits bundleJobLimit start selection = false)
    (unmoved : (offerJobs calendar limits catalog call state bundleJobLimit start selection
      candidates).chosen = selection.chosen)
    (apart : ∀ candidate ∈ candidates, candidate.job.id ∉ chosenIds selection.chosen) :
    examinedJobs calendar limits catalog call state bundleJobLimit start selection candidates =
      candidates.map Candidate.job := by
  induction candidates generalizing selection with
  | nil => rfl
  | cons candidate rest induction =>
      have absent := apart candidate List.mem_cons_self
      rw [offerJobs_cons, room, if_neg Bool.false_ne_true] at unmoved
      have before : selection.Grows
          (offerJob calendar limits catalog call state selection candidate.job) := offerJob_grows
      have after : (offerJob calendar limits catalog call state selection candidate.job).Grows
          (offerJobs calendar limits catalog call state bundleJobLimit start
            (offerJob calendar limits catalog call state selection candidate.job) rest) :=
        offerJobs_grows
      have kept := after.chosen
      rw [unmoved] at kept
      have same : (offerJob calendar limits catalog call state selection candidate.job).chosen =
          selection.chosen :=
        kept.eq_of_length_le before.chosen.length_le
      rw [examinedJobs, room, if_neg Bool.false_ne_true, if_neg absent, List.map_cons]
      refine congrArg (candidate.job :: ·) (induction ?_ (unmoved.trans same.symm) ?_)
      · rw [fullFor, same]
        exact room
      · intro other member
        rw [same]
        exact apart other (List.mem_cons_of_mem _ member)

end

/-! ## The queue of a model -/

def JobTables.queueOf (model : String) (tables : JobTables) : List Candidate :=
  (candidatesOf tables.jobs none (tables.queue.scans model).flatten).mergeSort
    (Keyset.notAfter Candidate.place)

def JobTables.positionsOf (model : String) (tables : JobTables) : List QueuePosition :=
  (tables.queueOf model).map Candidate.position

section

variable {tables : JobTables} {model : String}

theorem JobTables.Coherent.ordered_queueOf (coherent : tables.Coherent) :
    Ordered Candidate.place (tables.queueOf model) :=
  (distinct_candidatesOf (QueueIndex.nodup_scans coherent.listed model)).ordered_mergeSort

theorem JobTables.Coherent.ordered_positionsOf (coherent : tables.Coherent) :
    Ordered QueuePosition.place (tables.positionsOf model) :=
  List.pairwise_map.mpr coherent.ordered_queueOf

theorem JobTables.Coherent.readCandidates_position (coherent : tables.Coherent)
    (after : Option QueuePosition) (limit : Nat) :
    (tables.queue.readCandidates tables.jobs model after limit).map Candidate.position =
      (Sweep.behind QueuePosition.place (after.map QueuePosition.place)
        (tables.positionsOf model)).take limit := by
  have page : (candidatesOf tables.jobs after (tables.queue.scans model).flatten).mergeSort
      (Keyset.notAfter Candidate.place) = (tables.queueOf model).filter fun candidate =>
        decide (∀ start ∈ after.map QueuePosition.place, start < candidate.place) := by
    refine (distinct_candidatesOf (QueueIndex.nodup_scans coherent.listed model)
      ).ordered_mergeSort.eq_of_mem_iff (coherent.ordered_queueOf.filter _) fun candidate => ?_
    rw [List.mem_mergeSort, List.mem_filter, queueOf, List.mem_mergeSort, mem_candidatesOf,
      mem_candidatesOf, decide_eq_true_iff]
    cases after with
    | none => simp
    | some start => simp [QueuePosition.precedes_iff, Candidate.place]; tauto
  rw [QueueIndex.readCandidates_eq coherent.listed, page, List.map_take, Sweep.behind, positionsOf,
    List.filter_map]
  rfl

theorem JobTables.Coherent.id_of_read (coherent : tables.Coherent) {after : Option QueuePosition}
    {limit : Nat} {candidate : Candidate}
    (member : candidate ∈ tables.queue.readCandidates tables.jobs model after limit) :
    candidate.job.id = candidate.position.jobId :=
  coherent.named _ _ (queued_of_mem_readCandidates member).1

end

/-! ## Claims that are stuck -/

/-- The turn of one model in a claim: the plans before it, its own, and the rest. -/
structure ClaimTurn where
  calendar : Calendar
  limits : ClaimLimits
  catalog : ClaimCatalog
  call : ClaimCall
  state : Coordinator
  bundleJobLimit : Nat
  earlier : List ModelPlan
  plan : ModelPlan
  later : List ModelPlan

namespace ClaimTurn

variable (turn : ClaimTurn)

def selection : Selection :=
  turn.earlier.foldl (offerModel turn.calendar turn.limits turn.catalog turn.call turn.state
    turn.bundleJobLimit) {}

def outcome : Selection :=
  offerModel turn.calendar turn.limits turn.catalog turn.call turn.state turn.bundleJobLimit
    turn.selection turn.plan

def examined : List JobRow :=
  Dispatch.examined turn.calendar turn.limits turn.catalog turn.call turn.state
    turn.bundleJobLimit turn.selection turn.plan

def nextFrontier : Option QueuePosition :=
  Dispatch.nextFrontier turn.calendar turn.limits turn.catalog turn.call turn.state
    turn.bundleJobLimit turn.selection turn.plan

/-- The claim comes to the model with room left in the bundle and in the model's
share, finds this queue, and neither chooses nor fails any of its jobs. -/
structure Stuck (model : String) (head extra : Nat) (queue : List QueuePosition) : Prop where
  coherent : turn.state.tables.Coherent
  ranked : turn.catalog.rankModelsByCapacity turn.state = turn.earlier ++ turn.plan :: turn.later
  named : turn.plan.model = model
  headed : turn.limits.headLimit turn.plan = head
  extended : turn.limits.extraLimit turn.plan = extra
  content : turn.state.tables.positionsOf model = queue
  room : turn.selection.chosen.length < turn.bundleJobLimit
  share : 0 < turn.limits.maxJobsPerModelClaim
  unchosen : turn.outcome.chosen = turn.selection.chosen
  unplaced : ∀ position ∈ queue, position.jobId ∉ chosenIds turn.selection.chosen
  unfailed : turn.outcome.oversize = turn.selection.oversize

/-- Where the frontier and the end of the head differ by their ids alone, the two
orders of texts agree on them. -/
def Comparable : Prop :=
  ∀ last frontier, (headOf turn.limits turn.state turn.plan).getLast? = some last →
    turn.call.frontier turn.plan.model = some frontier →
      last.position.priority = frontier.priority → last.position.createdAt = frontier.createdAt →
        (unitsPrecede last.position.jobId frontier.jobId = true ↔
          last.position.jobId < frontier.jobId)

end ClaimTurn

section

variable {turn : ClaimTurn} {model : String} {head extra : Nat} {queue : List QueuePosition}

theorem QueuePosition.isBefore_iff {last frontier : QueuePosition}
    (agree : last.priority = frontier.priority → last.createdAt = frontier.createdAt →
      (unitsPrecede last.jobId frontier.jobId = true ↔ last.jobId < frontier.jobId)) :
    last.isBefore frontier = true ↔ last.place < frontier.place := by
  rw [← QueuePosition.precedes_iff, isBefore, precedes, decide_eq_true_iff, decide_eq_true_iff]
  constructor
  · rintro (before | ⟨same, before | ⟨created, units⟩⟩)
    · exact .inl before
    · exact .inr ⟨same, .inl before⟩
    · exact .inr ⟨same, .inr ⟨created, (agree same created).mp units⟩⟩
  · rintro (before | ⟨same, before | ⟨created, bytes⟩⟩)
    · exact .inl before
    · exact .inr ⟨same, .inl before⟩
    · exact .inr ⟨same, .inr ⟨created, (agree same created).mpr bytes⟩⟩

/-- The further of the end of the head and the frontier, in the platform's order. -/
def further (last frontier : Option QueuePosition) : Option QueuePosition :=
  match last, frontier with
  | some last, some frontier => if last.isBefore frontier then some frontier else some last
  | some last, none => some last
  | none, frontier => frontier

theorem startAfter_eq_further (call : ClaimCall) (plan : ModelPlan) (head : List Candidate) :
    startAfter call plan head =
      further (head.getLast?.map Candidate.position) (call.frontier plan.model) := by
  unfold startAfter further
  cases head.getLast? <;> cases call.frontier plan.model <;> rfl

/-- What a stuck claim examines, of its queue and the frontier that it finds. -/
def examinedIds (head extra : Nat) (queue : List QueuePosition)
    (frontier : Option QueuePosition) : List String :=
  (queue.take head).map QueuePosition.jobId ++
    if head ≤ queue.length then
      ((Sweep.behind QueuePosition.place
        ((further (queue.take head).getLast? frontier).map QueuePosition.place) queue).take
          extra).map QueuePosition.jobId
    else []

theorem ClaimTurn.Comparable.startAfter (comparable : turn.Comparable) :
    (startAfter turn.call turn.plan (headOf turn.limits turn.state turn.plan)).map
        QueuePosition.place =
      Sweep.startAfter ((headOf turn.limits turn.state turn.plan).getLast?.map Candidate.place)
        ((turn.call.frontier turn.plan.model).map QueuePosition.place) := by
  unfold Dispatch.startAfter Sweep.startAfter
  cases ends : (headOf turn.limits turn.state turn.plan).getLast? with
  | none => rfl
  | some last =>
      cases stored : turn.call.frontier turn.plan.model with
      | none => rfl
      | some frontier =>
          have order := QueuePosition.isBefore_iff (comparable last frontier ends stored)
          dsimp only [Option.map_some]
          by_cases before : last.position.isBefore frontier = true
          · rw [if_pos before, if_pos (by exact order.mp before)]
            rfl
          · rw [if_neg before, if_neg (by exact fun less => before (order.mpr less))]
            rfl

namespace ClaimTurn.Stuck

variable (stuck : turn.Stuck model head extra queue)

include stuck

theorem headOf_position :
    (headOf turn.limits turn.state turn.plan).map Candidate.position = queue.take head := by
  rw [headOf, stuck.coherent.readCandidates_position, stuck.named, stuck.headed, stuck.content]
  have whole : Sweep.behind QueuePosition.place none queue = queue :=
    List.filter_eq_self.mpr fun _ _ => by simp
  rw [Option.map_none, whole]

theorem startAfter_eq : startAfter turn.call turn.plan (headOf turn.limits turn.state turn.plan) =
    further (queue.take head).getLast? (turn.call.frontier model) := by
  rw [startAfter_eq_further, ← List.getLast?_map, stuck.headOf_position, stuck.named]

theorem spare : fullFor turn.limits turn.bundleJobLimit turn.selection.chosen.length
    turn.selection = false := by
  have room := stuck.room
  have share := stuck.share
  rw [fullFor, decide_eq_false_iff_not]
  omega

theorem afterHead_eq :
    (afterHead turn.calendar turn.limits turn.catalog turn.call turn.state turn.bundleJobLimit
        turn.selection turn.plan).chosen = turn.selection.chosen ∧
      (afterHead turn.calendar turn.limits turn.catalog turn.call turn.state turn.bundleJobLimit
        turn.selection turn.plan).oversize = turn.selection.oversize := by
  have first : turn.selection.Grows (afterHead turn.calendar turn.limits turn.catalog turn.call
    turn.state turn.bundleJobLimit turn.selection turn.plan) := offerJobs_grows
  have rest : (afterHead turn.calendar turn.limits turn.catalog turn.call turn.state
      turn.bundleJobLimit turn.selection turn.plan).Grows turn.outcome := by
    rw [ClaimTurn.outcome, offerModel_eq, if_neg (Nat.not_le.mpr stuck.room)]
    dsimp only
    split
    · exact offerJobs_grows
    · exact .refl _
  have chosen := rest.chosen
  have oversize := rest.oversize
  rw [stuck.unchosen] at chosen
  rw [stuck.unfailed] at oversize
  exact ⟨chosen.eq_of_length_le first.chosen.length_le,
    oversize.eq_of_length_le first.oversize.length_le⟩

theorem readsOn_eq : readsOn turn.calendar turn.limits turn.catalog turn.call turn.state
    turn.bundleJobLimit turn.selection turn.plan = decide (head ≤ queue.length) := by
  have same := stuck.afterHead_eq
  have room := stuck.spare
  have length := congrArg List.length stuck.headOf_position
  rw [List.length_map, List.length_take] at length
  rw [fullFor, decide_eq_false_iff_not] at room
  rw [readsOn, fullFor, same.1, same.2, length, stuck.headed, Bool.eq_iff_iff, Bool.not_eq_true',
    decide_eq_false_iff_not, decide_eq_true_iff, decide_eq_true_iff]
  constructor
  · intro goes
    by_contra short
    exact goes (.inr (.inr (by omega)))
  · rintro long (full | failed | short)
    · exact room full
    · exact absurd failed (Nat.lt_irrefl _)
    · omega

theorem head_pos : 0 < head := by
  have share := stuck.share
  rw [← stuck.headed, ClaimLimits.headLimit]
  split
  · exact Nat.lt_of_lt_of_le share (Nat.le_max_left _ _)
  · exact share

theorem ordered : Ordered QueuePosition.place queue := by
  rw [← stuck.content]
  exact stuck.coherent.ordered_positionsOf

theorem examinedJobs_read {after : Option QueuePosition} {limit : Nat} {selection : Selection}
    (same : selection.chosen = turn.selection.chosen)
    (unmoved : (offerJobs turn.calendar turn.limits turn.catalog turn.call turn.state
      turn.bundleJobLimit turn.selection.chosen.length selection
      (turn.state.tables.queue.readCandidates turn.state.tables.jobs turn.plan.model after
        limit)).chosen = selection.chosen) :
    (examinedJobs turn.calendar turn.limits turn.catalog turn.call turn.state turn.bundleJobLimit
        turn.selection.chosen.length selection
        (turn.state.tables.queue.readCandidates turn.state.tables.jobs turn.plan.model after
          limit)).map JobRow.id =
      ((turn.state.tables.queue.readCandidates turn.state.tables.jobs turn.plan.model after
        limit).map Candidate.position).map QueuePosition.jobId := by
  have room := stuck.spare
  have named {candidate : Candidate} (member : candidate ∈ turn.state.tables.queue.readCandidates
      turn.state.tables.jobs turn.plan.model after limit) :
      candidate.job.id = candidate.position.jobId := stuck.coherent.id_of_read member
  rw [examinedJobs_eq _ unmoved]
  · rw [List.map_map, List.map_map]
    exact List.map_congr_left fun candidate member => named member
  · intro candidate member
    rw [same, named member]
    refine stuck.unplaced _ ?_
    have listed := List.mem_map_of_mem (f := Candidate.position) member
    rw [stuck.coherent.readCandidates_position, stuck.named, stuck.content] at listed
    exact (List.mem_filter.mp (List.mem_of_mem_take listed)).1
  · rw [fullFor, same]
    exact room

theorem examined_head :
    (examinedJobs turn.calendar turn.limits turn.catalog turn.call turn.state turn.bundleJobLimit
        turn.selection.chosen.length turn.selection
        (headOf turn.limits turn.state turn.plan)).map JobRow.id =
      (queue.take head).map QueuePosition.jobId := by
  rw [← stuck.headOf_position]
  exact stuck.examinedJobs_read rfl stuck.afterHead_eq.1

theorem examined_read : turn.examined.map JobRow.id = (queue.take head).map QueuePosition.jobId ++
      if head ≤ queue.length then
        ((extensionOf turn.limits turn.call turn.state turn.plan).map Candidate.position).map
          QueuePosition.jobId
      else [] := by
  rw [ClaimTurn.examined, Dispatch.examined, if_neg (Nat.not_le.mpr stuck.room), List.map_append,
    stuck.examined_head, stuck.readsOn_eq]
  by_cases long : head ≤ queue.length
  · rw [if_pos (decide_eq_true long), if_pos long]
    have same := stuck.afterHead_eq.1
    refine congrArg (_ ++ ·) (stuck.examinedJobs_read same ?_)
    have unchosen := stuck.unchosen
    rw [ClaimTurn.outcome, offerModel_eq, if_neg (Nat.not_le.mpr stuck.room), stuck.readsOn_eq,
      decide_eq_true long] at unchosen
    exact unchosen.trans same.symm
  · rw [if_neg (by simpa using long), if_neg long, List.map_nil]

theorem nextFrontier_read : turn.nextFrontier =
    if head ≤ queue.length then
      let read := (extensionOf turn.limits turn.call turn.state turn.plan).map Candidate.position
      if read.length < extra then none else read.getLast?
    else turn.call.frontier model := by
  rw [ClaimTurn.nextFrontier, Dispatch.nextFrontier, if_neg (Nat.not_le.mpr stuck.room),
    stuck.readsOn_eq, stuck.extended, stuck.named]
  by_cases long : head ≤ queue.length
  · rw [if_pos (decide_eq_true long), if_pos long]
    dsimp only
    rw [List.length_map, List.getLast?_map]
  · rw [if_neg (by simpa using long), if_neg long]

theorem extensionOf_read : (extensionOf turn.limits turn.call turn.state turn.plan).map
    Candidate.position =
      (Sweep.behind QueuePosition.place
        ((startAfter turn.call turn.plan (headOf turn.limits turn.state turn.plan)).map
          QueuePosition.place) queue).take extra := by
  rw [extensionOf, stuck.coherent.readCandidates_position, stuck.named, stuck.content,
    stuck.extended]

theorem head_first :
    (queue.take head).map QueuePosition.jobId <+: turn.examined.map JobRow.id := by
  rw [stuck.examined_read]
  exact List.prefix_append _ _

theorem comparable_of (agree : ∀ last frontier, (queue.take head).getLast? = some last →
    turn.call.frontier model = some frontier →
      (unitsPrecede last.jobId frontier.jobId = true ↔ last.jobId < frontier.jobId)) :
    turn.Comparable := by
  intro last frontier ends stored _ _
  refine agree last.position frontier ?_ (stuck.named ▸ stored)
  rw [← stuck.headOf_position, List.getLast?_map, ends]
  rfl

theorem examined_ids : turn.examined.map JobRow.id =
    examinedIds head extra queue (turn.call.frontier model) := by
  rw [stuck.examined_read, stuck.extensionOf_read, stuck.startAfter_eq]
  rfl

section

variable (comparable : turn.Comparable)

include comparable

theorem extensionOf_position :
    (extensionOf turn.limits turn.call turn.state turn.plan).map Candidate.position =
      Sweep.extension QueuePosition.place head extra queue
        ((turn.call.frontier model).map QueuePosition.place) := by
  have ends : (headOf turn.limits turn.state turn.plan).getLast?.map Candidate.place =
      (queue.take head).getLast?.map QueuePosition.place := by
    rw [← stuck.headOf_position, List.getLast?_map, Option.map_map]
    rfl
  rw [stuck.extensionOf_read, comparable.startAfter, ends, stuck.named]
  rfl

theorem examined_eq : turn.examined.map JobRow.id =
    (Sweep.reads QueuePosition.place head extra queue
      ((turn.call.frontier model).map QueuePosition.place)).map QueuePosition.jobId := by
  rw [stuck.examined_read, Sweep.reads, stuck.extensionOf_position comparable]
  by_cases long : head ≤ queue.length
  · rw [if_pos long, if_neg (Nat.not_lt.mpr long), List.map_append]
  · rw [if_neg long, if_pos (Nat.not_le.mp long), List.append_nil,
      List.take_of_length_le (Nat.not_le.mp long).le]

theorem nextFrontier_eq : turn.nextFrontier.map QueuePosition.place =
    Sweep.next QueuePosition.place head extra queue
      ((turn.call.frontier model).map QueuePosition.place) := by
  rw [stuck.nextFrontier_read, Sweep.next, stuck.extensionOf_position comparable]
  by_cases long : head ≤ queue.length
  · rw [if_pos long, if_neg (Nat.not_lt.mpr long)]
    dsimp only
    split <;> rfl
  · rw [if_neg long, if_pos (Nat.not_le.mp long)]

end

end ClaimTurn.Stuck

end

/-- Consecutive claims that are stuck at a model and compare its frontier in the
order of its queue examine every one of its jobs, and each of them the head. -/
theorem queue_examined {model : String} {head extra : Nat} {queue : List QueuePosition}
    {turns : List ClaimTurn} (stuck : ∀ turn ∈ turns, turn.Stuck model head extra queue)
    (more : 1 ≤ extra)
    (consecutive : turns.IsChain fun turn next => next.call.frontier model = turn.nextFrontier)
    (comparable : ∀ turn ∈ turns, turn.Comparable) :
    (∀ turn ∈ turns,
      (queue.take head).map QueuePosition.jobId <+: turn.examined.map JobRow.id) ∧
    (queue.length ⌈/⌉ extra + 2 ≤ turns.length → ∀ position ∈ queue,
      ∃ turn ∈ turns, position.jobId ∈ turn.examined.map JobRow.id) := by
  refine ⟨fun turn member => (stuck turn member).head_first, fun enough position member => ?_⟩
  let frontier : Nat → Option (ℕ ×ₗ ℚ ×ₗ String) := fun index =>
    (turns[index]?.bind fun turn => turn.call.frontier model).map QueuePosition.place
  have at_ {index : Nat} (within : index < turns.length) : frontier index =
      ((turns[index].call.frontier model).map QueuePosition.place) := by
    show ((turns[index]?).bind _).map _ = _
    rw [List.getElem?_eq_getElem within, Option.bind_some]
  have first : 0 < turns.length := by omega
  have begun := stuck turns[0] (List.getElem_mem first)
  suffices read : ∃ index < turns.length, position ∈ Sweep.reads QueuePosition.place head extra
      queue (frontier index) by
    obtain ⟨index, within, inside⟩ := read
    have member := List.getElem_mem within
    refine ⟨turns[index], member, ?_⟩
    rw [(stuck _ member).examined_eq (comparable _ member), ← at_ within]
    exact List.mem_map_of_mem inside
  rcases Nat.lt_or_ge queue.length head with short | long
  · refine ⟨0, first, ?_⟩
    rwa [Sweep.reads, if_pos short]
  · refine Sweep.read_all begun.ordered long begun.head_pos more (fun index later => ?_) enough member
    have member := List.getElem_mem (Nat.lt_of_succ_lt later)
    rw [at_ later, at_ (Nat.lt_of_succ_lt later),
      List.isChain_iff_getElem.mp consecutive index later]
    exact (stuck _ member).nextFrontier_eq (comparable _ member)

/-! ### Three jobs that nothing takes -/

def submittedState (submissions : List Submission) : Coordinator :=
  ((enqueueBatch twoLanes oneModelCatalog 1000 smallRows submissions
    emptyCoordinator).map Prod.fst).getD emptyCoordinator

def queuedState (ids : List String) : Coordinator :=
  submittedState (ids.map fun id => laneJob id "tagger")

def refusingCatalog : ClaimCatalog where
  lanes := oneModelCatalog
  digest := "digest"
  routesForUnroutableJob _ := []
  routesById _ := none
  providers _ := none
  rankModelsByCapacity _ := [⟨"model", false⟩]
  routesEligibleFor _ _ := []
  structuralRoutesFor _ _ := []
  calibration _ _ := {}

def stuckCall (frontier : Option QueuePosition) : ClaimCall where
  now := 2000
  wallClock := 2000
  windowSeconds := 60
  rowsWrittenToday := 0
  rowsAtReconcile := 0
  bundleId := "bundle"
  executionToken := "execution"
  leaseToken := id
  frontier _ := frontier

/-- Heads of one job and extensions of one. -/
def oneByOne : ClaimLimits where
  maxJobsPerModelClaim := 1
  maxCandidateLookahead := 2
  claimRowStop := 1000
  accountRowsStop := 1000
  enqueueRowStop := 1000

def stuckTurn (ids : List String) (frontier : Option QueuePosition) : ClaimTurn where
  calendar := utcCalendar
  limits := oneByOne
  catalog := refusingCatalog
  call := stuckCall frontier
  state := queuedState ids
  bundleJobLimit := 4
  earlier := []
  plan := ⟨"model", false⟩
  later := []

def waiting (id : String) : QueuePosition := ⟨1, 1000, id⟩

theorem submittedState_coherent (submissions : List Submission) :
    (submittedState submissions).tables.Coherent := by
  have unused := Coordinator.Sound.of_unused (.legacy none (.inl rfl) 0)
  unfold submittedState
  cases filed : enqueueBatch twoLanes oneModelCatalog 1000 smallRows submissions emptyCoordinator with
  | none => exact unused.coherent
  | some filing =>
      have ran : (Operation.enqueueBatch twoLanes oneModelCatalog 1000 smallRows submissions).run
          emptyCoordinator = some filing.1 :=
        congrArg (Option.map Prod.fst) filed
      exact (Operation.sound unused (by trivial) ran).1.coherent

theorem queuedState_coherent (ids : List String) : (queuedState ids).tables.Coherent :=
  submittedState_coherent _

/-- A catalog that gives no routes chooses and fails nothing. -/
theorem offerJobs_refusing {call : ClaimCall} {state : Coordinator} {bundleJobLimit start : Nat}
    {selection : Selection} {candidates : List Candidate} :
    let offered := offerJobs utcCalendar oneByOne refusingCatalog call state bundleJobLimit start
      selection candidates
    offered.chosen = selection.chosen ∧ offered.oversize = selection.oversize := by
  induction candidates generalizing selection with
  | nil => exact ⟨rfl, rfl⟩
  | cons candidate rest induction =>
      rw [offerJobs_cons]
      obtain ⟨chosen, oversize⟩ := @induction
        (if fullFor oneByOne bundleJobLimit start selection then selection
        else offerJob utcCalendar oneByOne refusingCatalog call state selection candidate.job)
      dsimp only at chosen oversize ⊢
      rw [chosen, oversize]
      split
      · exact ⟨rfl, rfl⟩
      · unfold offerJob
        split
        · exact ⟨rfl, rfl⟩
        · have unfailed : exceedsEveryLiveCeiling refusingCatalog call state candidate.job = false :=
            rfl
          rw [judgeSize, unfailed]
          simp [routeOrder, refusingCatalog, offerRoutes]

theorem stuckTurn_room (ids : List String) (frontier : Option QueuePosition) :
    (stuckTurn ids frontier).selection.chosen.length < (stuckTurn ids frontier).bundleJobLimit :=
  Nat.succ_pos 3

theorem stuckTurn_outcome (ids : List String) (frontier : Option QueuePosition) :
    (stuckTurn ids frontier).outcome.chosen = [] ∧
      (stuckTurn ids frontier).outcome.oversize = [] := by
  rw [ClaimTurn.outcome, offerModel_eq, if_neg (Nat.not_le.mpr (stuckTurn_room ids frontier))]
  dsimp only
  have head := @offerJobs_refusing (stuckCall frontier) (queuedState ids) 4 0 {}
  split
  · obtain ⟨chosen, oversize⟩ := @offerJobs_refusing (stuckCall frontier) (queuedState ids) 4 0
      (afterHead utcCalendar oneByOne refusingCatalog (stuckCall frontier) (queuedState ids) 4 {}
        ⟨"model", false⟩)
      (extensionOf oneByOne (stuckCall frontier) (queuedState ids) ⟨"model", false⟩)
    exact ⟨chosen.trans head.1, oversize.trans head.2⟩
  · exact head

variable {ids : List String} {frontier : Option QueuePosition} {queue : List QueuePosition}

theorem stuckTurn_stuck (content : (queuedState ids).tables.positionsOf "model" = queue) :
    (stuckTurn ids frontier).Stuck "model" 1 1 queue where
  coherent := queuedState_coherent ids
  ranked := rfl
  named := rfl
  headed := rfl
  extended := rfl
  content := content
  room := stuckTurn_room ids frontier
  share := Nat.one_pos
  unchosen := (stuckTurn_outcome ids frontier).1
  unplaced _ _ := List.not_mem_nil
  unfailed := (stuckTurn_outcome ids frontier).2

theorem positionsOf_queuedState (ordered : (candidatesOf (queuedState ids).tables.jobs none
      ((queuedState ids).tables.queue.scans "model").flatten).Pairwise fun left right =>
        Keyset.notAfter Candidate.place left right = true) :
    (queuedState ids).tables.positionsOf "model" =
      (candidatesOf (queuedState ids).tables.jobs none
        ((queuedState ids).tables.queue.scans "model").flatten).map Candidate.position := by
  rw [JobTables.positionsOf, JobTables.queueOf, List.mergeSort_of_pairwise ordered]

theorem plainQueue : (queuedState ["a", "b", "c"]).tables.positionsOf "model" =
    [waiting "a", waiting "b", waiting "c"] :=
  (positionsOf_queuedState (by decide +kernel)).trans (by decide +kernel)

theorem wideQueue : (queuedState ["～", "𐀀", "𐀁"]).tables.positionsOf "model" =
    [waiting "～", waiting "𐀀", waiting "𐀁"] :=
  (positionsOf_queuedState (by decide +kernel)).trans (by decide +kernel)

theorem nextFrontier_stuckTurn (content : (queuedState ids).tables.positionsOf "model" = queue) :
    (stuckTurn ids frontier).nextFrontier =
      if 1 ≤ queue.length then
        let read := (Sweep.behind QueuePosition.place
          ((further (queue.take 1).getLast? frontier).map QueuePosition.place) queue).take 1
        if read.length < 1 then none else read.getLast?
      else frontier := by
  have stuck : (stuckTurn ids frontier).Stuck "model" 1 1 queue := stuckTurn_stuck content
  rw [stuck.nextFrontier_read, stuck.extensionOf_read, stuck.startAfter_eq]
  rfl

def plainTurns : List ClaimTurn :=
  [none, some (waiting "b"), some (waiting "c"), none, some (waiting "b")].map
    (stuckTurn ["a", "b", "c"])

theorem plainTurns_consecutive : plainTurns.IsChain fun turn next =>
    next.call.frontier "model" = turn.nextFrontier := by
  unfold plainTurns
  simp only [List.map_cons, List.map_nil, List.isChain_cons_cons,
    nextFrontier_stuckTurn plainQueue]
  decide

theorem plainTurns_comparable : ∀ turn ∈ plainTurns, turn.Comparable := by
  have order : ∀ right ∈ [none, some (waiting "b"), some (waiting "c")], ∀ frontier ∈ right,
      (unitsPrecede "a" frontier.jobId = true ↔ "a" < frontier.jobId) := by
    decide
  intro turn member
  obtain ⟨stored, listed, rfl⟩ := List.mem_map.mp member
  refine (stuckTurn_stuck plainQueue).comparable_of fun last frontier ends found => ?_
  cases ends
  exact order stored (by simp only [List.mem_cons, List.not_mem_nil] at listed ⊢; tauto) frontier
    found

/-- Three jobs that nothing takes are examined by five claims. -/
theorem queue_examined_plain :
    (∀ turn ∈ plainTurns, ["a"] <+: turn.examined.map JobRow.id) ∧
    ∀ position ∈ [waiting "a", waiting "b", waiting "c"],
      ∃ turn ∈ plainTurns, position.jobId ∈ turn.examined.map JobRow.id := by
  have stuck : ∀ turn ∈ plainTurns,
      turn.Stuck "model" 1 1 [waiting "a", waiting "b", waiting "c"] := by
    intro turn member
    obtain ⟨frontier, _, rfl⟩ := List.mem_map.mp member
    exact stuckTurn_stuck plainQueue
  have examined := queue_examined stuck (le_refl 1) plainTurns_consecutive plainTurns_comparable
  exact ⟨examined.1, examined.2 (by decide)⟩

def wideTurns : List ClaimTurn :=
  (none :: List.replicate 4 (some (waiting "𐀀"))).map (stuckTurn ["～", "𐀀", "𐀁"])

theorem wideTurns_consecutive : wideTurns.IsChain fun turn next =>
    next.call.frontier "model" = turn.nextFrontier := by
  unfold wideTurns
  simp only [List.replicate, List.map_cons, List.map_nil, List.isChain_cons_cons,
    nextFrontier_stuckTurn wideQueue]
  decide

/-- The claims that find three jobs go on from the second, and never come to the third. -/
theorem queue_stalls : ¬ ∀ (model : String) (head extra : Nat) (queue : List QueuePosition)
    (turns : List ClaimTurn), (∀ turn ∈ turns, turn.Stuck model head extra queue) → 1 ≤ extra →
      (turns.IsChain fun turn next => next.call.frontier model = turn.nextFrontier) →
        (∀ turn ∈ turns,
          (queue.take head).map QueuePosition.jobId <+: turn.examined.map JobRow.id) ∧
        (queue.length ⌈/⌉ extra + 2 ≤ turns.length → ∀ position ∈ queue,
          ∃ turn ∈ turns, position.jobId ∈ turn.examined.map JobRow.id) := by
  intro holds
  have stuck : ∀ turn ∈ wideTurns,
      turn.Stuck "model" 1 1 [waiting "～", waiting "𐀀", waiting "𐀁"] := by
    intro turn member
    obtain ⟨frontier, _, rfl⟩ := List.mem_map.mp member
    exact stuckTurn_stuck wideQueue
  obtain ⟨turn, member, examined⟩ := (holds "model" 1 1 _ wideTurns stuck le_rfl
    wideTurns_consecutive).2 (by decide) (waiting "𐀁") (by simp)
  have read : ∀ stored ∈ [none, some (waiting "𐀀")],
      "𐀁" ∉ examinedIds 1 1 [waiting "～", waiting "𐀀", waiting "𐀁"] stored := by
    decide
  obtain ⟨stored, listed, rfl⟩ := List.mem_map.mp member
  rw [(stuckTurn_stuck wideQueue).examined_ids] at examined
  refine read stored ?_ examined
  simp only [List.replicate, List.mem_cons, List.not_mem_nil] at listed ⊢
  tauto

end CityPods.Dispatch
