import CityPods.Dispatch.Effects
import CityPods.Foundation.Keyset
import Mathlib.Data.Prod.Lex
import Mathlib.Data.String.Basic

/-! # The terminal feed over runs

A client reads terminal jobs a page at a time behind a cursor while jobs become
terminal. Where no job does at or before the cursor, and the merge of the two
states keeps their order, the feed returns every job once.
-/

namespace CityPods.Dispatch

open Foundation Keyset

/-! ## The order of updates -/

/-- The place of a key in the order of the index. -/
def RescueKey.place (key : RescueKey) : ℚ ×ₗ String := toLex (key.updatedAt, key.id)

theorem RescueKey.precedes_iff {left right : RescueKey} :
    left.precedes right = true ↔ left.place < right.place := by
  unfold precedes place
  rw [Prod.Lex.toLex_lt_toLex, decide_eq_true_iff]

theorem RescueKey.place_injective {left right : RescueKey} (same : left.place = right.place) :
    left = right := by
  cases left
  cases right
  have parts := Prod.ext_iff.mp (toLex.injective same)
  simp only at parts
  rw [parts.1, parts.2]

def JobRow.place (row : JobRow) : ℚ ×ₗ String := row.rescueKey.place

theorem notLater_eq : notLater = notAfter JobRow.place := by
  funext left right
  have order := @RescueKey.precedes_iff right.rescueKey left.rescueKey
  unfold notLater notAfter JobRow.place
  rw [Bool.eq_iff_iff, Bool.not_eq_true', Bool.eq_false_iff, Ne, order, not_lt,
    decide_eq_true_iff]

/-! ## One page -/

/-- Terminal jobs are those a client may fetch. -/
def JobRow.isTerminal (row : JobRow) : Bool := row.state = .completed ∨ row.state = .failed

def JobTables.terminalAfter (cursor : RescueKey) (tables : JobTables) : List JobRow :=
  tables.jobs.values.filter fun row => row.isTerminal && cursor.precedes row.rescueKey

/-- The merge puts completed and failed jobs of the two pages in the order of the index. -/
def LocaleCompare.Agrees (localeCompare : LocaleCompare) (cursor : RescueKey) (limit : Nat)
    (tables : JobTables) : Prop :=
  let after := fun job : JobRow => cursor.precedes job.rescueKey
  ∀ completed ∈ tables.oldest .completed after limit,
    ∀ failed ∈ tables.oldest .failed after limit, completed.updatedAt = failed.updatedAt →
      (localeCompare completed.id failed.id ≤ 0 ↔ completed.id < failed.id)

section

variable {localeCompare : LocaleCompare} {tables : JobTables} {cursor : RescueKey} {limit : Nat}

theorem JobTables.Keyed.distinct (keyed : tables.Keyed) :
    Distinct JobRow.place tables.jobs.values :=
  keyed.pairwise_id.imp fun different same =>
    different (congrArg RescueKey.id (RescueKey.place_injective same))

theorem JobTables.mem_terminalAfter {row : JobRow} :
    row ∈ tables.terminalAfter cursor ↔
      row ∈ tables.jobs.values ∧ row.isTerminal = true ∧ cursor.place < row.place := by
  unfold terminalAfter
  rw [List.mem_filter, Bool.and_eq_true, RescueKey.precedes_iff]
  exact Iff.rfl

/-- The terminal jobs behind the cursor, in the order of the index. -/
def JobTables.terminalOrder (cursor : RescueKey) (tables : JobTables) : List JobRow :=
  (tables.terminalAfter cursor).mergeSort (notAfter JobRow.place)

theorem JobTables.Keyed.ordered_terminalOrder (keyed : tables.Keyed) :
    Ordered JobRow.place (tables.terminalOrder cursor) :=
  Distinct.ordered_mergeSort (List.Pairwise.filter _ keyed.distinct)

/-- A page of the feed is the start of the terminal jobs behind the cursor. -/
theorem oldestTerminal_eq (keyed : tables.Keyed) (agrees : localeCompare.Agrees cursor limit tables) :
    tables.oldestTerminal localeCompare (fun job => cursor.precedes job.rescueKey) limit =
      (tables.terminalOrder cursor).take limit := by
  set after := fun job : JobRow => cursor.precedes job.rescueKey with after_eq
  set rows := fun state : JobState =>
    tables.jobs.values.filter fun job => decide (job.state = state) && after job with rows_eq
  have page (state : JobState) : tables.oldest state after limit =
      ((rows state).mergeSort (notAfter JobRow.place)).take limit := by
    unfold JobTables.oldest
    rw [notLater_eq]
  have mem_rows {state : JobState} {job : JobRow} (member : job ∈ rows state) :
      job ∈ tables.jobs.values ∧ job.state = state ∧ after job = true := by
    have parts := List.mem_filter.mp member
    have both := Bool.and_eq_true_iff.mp parts.2
    exact ⟨parts.1, of_decide_eq_true both.1, both.2⟩
  have on_page {state : JobState} {job : JobRow} (member : job ∈ tables.oldest state after limit) :
      job ∈ rows state := by
    rw [page] at member
    exact List.mem_mergeSort.mp (List.mem_of_mem_take member)
  -- the collation decides between rows of the two pages as the index would
  have merged : (tables.oldest .completed after limit).merge (tables.oldest .failed after limit)
      localeCompare.notLater =
        (tables.oldest .completed after limit).merge (tables.oldest .failed after limit)
          (notAfter JobRow.place) := by
    refine merge_congr fun completed here failed there => ?_
    have apart : completed.id ≠ failed.id := by
      intro same
      have equal := keyed.eq_of_id (mem_rows (on_page here)).1 (mem_rows (on_page there)).1 same
      have state := (mem_rows (on_page here)).2.1
      rw [equal, (mem_rows (on_page there)).2.1] at state
      cases state
    have ids := agrees completed here failed there
    unfold LocaleCompare.notLater notAfter JobRow.place RescueKey.place JobRow.rescueKey
    rw [Bool.eq_iff_iff, decide_eq_true_iff, decide_eq_true_iff, Prod.Lex.toLex_le_toLex]
    constructor
    · rintro (earlier | ⟨same, before⟩)
      · exact .inl earlier
      · exact .inr ⟨same, ((ids same).mp before).le⟩
    · rintro (earlier | ⟨same, before⟩)
      · exact .inl earlier
      · exact .inr ⟨same, (ids same).mpr (lt_of_le_of_ne before apart)⟩
  have distinct : Distinct JobRow.place (rows .completed ++ [rows .failed].flatten) := by
    rw [List.flatten_singleton]
    refine Distinct.append (List.Pairwise.filter _ keyed.distinct)
      (List.Pairwise.filter _ keyed.distinct) ?_
    intro completed here failed there same
    have equal := keyed.eq_of_id (mem_rows here).1 (mem_rows there).1
      (congrArg RescueKey.id (RescueKey.place_injective same))
    have state := (mem_rows here).2.1
    rw [equal, (mem_rows there).2.1] at state
    cases state
  have both : (rows .completed ++ [rows .failed].flatten).mergeSort (notAfter JobRow.place) =
      tables.terminalOrder cursor := by
    refine (Distinct.ordered_mergeSort distinct).eq_of_mem_iff keyed.ordered_terminalOrder ?_
    intro job
    unfold JobTables.terminalOrder JobTables.terminalAfter
    rw [List.mem_mergeSort, List.mem_mergeSort, List.flatten_singleton, List.mem_append]
    simp only [rows_eq, after_eq, List.mem_filter, JobRow.isTerminal, Bool.and_eq_true,
      decide_eq_true_eq]
    tauto
  unfold JobTables.oldestTerminal mergeSortedRows
  rw [merged, page, page, ← both]
  exact foldl_merge_take limit distinct

end

/-! ## Runs -/

/-- The coordinator, the cursor the reader holds, and the last time a job was written. -/
structure FeedState where
  coordinator : Coordinator
  cursor : RescueKey
  clock : ℚ

def FeedState.jobs (state : FeedState) : List JobRow := state.coordinator.tables.jobs.values

inductive FeedEvent
  | changed (written : List JobRow)
  | served (terminals : List Terminal)

/-- What is asked of a run: of a job that becomes terminal behind a cursor, and of a read. -/
structure FeedRegime where
  becomes : RescueKey → JobRow → Prop := fun _ _ => True
  serves : JobTables → RescueKey → Nat → Prop := fun _ _ _ => True

section

variable (localeCompare : LocaleCompare) (regime : FeedRegime)

/-- A transition of jobs, or a read with the cursor that the last one returned. The rows a
transition writes carry times that are not before those of earlier ones. -/
inductive FeedStep : FeedState → FeedEvent → FeedState → Prop
  | changes (before : FeedState) (after : Coordinator) (now : ℚ)
      (keyed : after.tables.Keyed)
      (timed : ∀ row ∈ after.tables.jobs.values, row ∉ before.jobs →
        before.clock ≤ row.updatedAt ∧ row.updatedAt ≤ now)
      (later : before.clock ≤ now)
      (becomes : ∀ row ∈ after.tables.jobs.values, row ∉ before.jobs → row.isTerminal = true →
        regime.becomes before.cursor row) :
      FeedStep before
        (.changed (after.tables.jobs.values.filter fun row => decide (row ∉ before.jobs)))
        ⟨after, before.cursor, now⟩
  | serves (before : FeedState) (limit : Nat) (positive : 1 ≤ limit)
      (serves : regime.serves before.coordinator.tables before.cursor limit) :
      FeedStep before (.served (terminalFeed localeCompare before.cursor limit before.coordinator).1)
        ⟨before.coordinator, (terminalFeed localeCompare before.cursor limit before.coordinator).2,
          before.clock⟩

/-- A run whose states all satisfy `keeps`. -/
inductive FeedRun (keeps : FeedState → Prop) (start : FeedState) :
    List FeedEvent → FeedState → Prop
  | start : FeedRun keeps start [] start
  | next {events : List FeedEvent} {event : FeedEvent} {middle after : FeedState}
      (run : FeedRun keeps start events middle)
      (step : FeedStep localeCompare regime middle event after) (kept : keeps after) :
      FeedRun keeps start (events ++ [event]) after

end

/-- A table whose rows are keyed and written by now, behind a cursor that is not ahead of it. -/
structure FeedState.WellTimed (state : FeedState) : Prop where
  keyed : state.coordinator.tables.Keyed
  written : ∀ row ∈ state.jobs, row.updatedAt ≤ state.clock
  reached : state.cursor.updatedAt ≤ state.clock

def FeedState.Keeps (row : JobRow) (state : FeedState) : Prop := row ∈ state.jobs

def callsReturning (jobId : String) (events : List FeedEvent) : Nat :=
  events.countP fun
    | .served terminals => terminals.any fun terminal => decide (terminal.id = jobId)
    | .changed _ => false

def callsServed (events : List FeedEvent) : Nat :=
  events.countP fun
    | .served _ => true
    | .changed _ => false

def FeedState.ahead (row : JobRow) (state : FeedState) : List JobRow :=
  (state.coordinator.tables.terminalAfter state.cursor).filter fun other =>
    decide (other.place ≤ row.place)

/-- The terminal rows written into places before a job's. -/
def overtaking (row : JobRow) (events : List FeedEvent) : Nat :=
  (events.map fun
    | .served _ => 0
    | .changed written => written.countP fun other =>
        other.isTerminal && decide (other.place < row.place)).sum

section

variable {localeCompare : LocaleCompare} {regime : FeedRegime} {row : JobRow} {limit : Nat}

theorem oldestTerminal_isTerminal {tables : JobTables} {test : JobRow → Bool}
    (member : row ∈ tables.oldestTerminal localeCompare test limit) :
    row ∈ tables.jobs.values ∧ test row = true :=
  ⟨(mem_oldestTerminal member).1, (mem_oldestTerminal member).2.2⟩

/-- The cursor never goes back, and stays among the rows. -/
theorem terminalFeed_cursor (localeCompare : LocaleCompare) (cursor : RescueKey) (limit : Nat)
    (state : Coordinator) :
    (terminalFeed localeCompare cursor limit state).2 = cursor ∨
      ∃ row ∈ state.tables.jobs.values, cursor.place < row.place ∧
        (terminalFeed localeCompare cursor limit state).2 = row.rescueKey := by
  unfold terminalFeed
  dsimp only
  cases last : (state.tables.oldestTerminal localeCompare
      (fun job => cursor.precedes job.rescueKey) limit).getLast? with
  | none => exact .inl rfl
  | some row =>
      obtain ⟨stored, after⟩ := oldestTerminal_isTerminal (List.mem_of_getLast? last)
      exact .inr ⟨row, stored, RescueKey.precedes_iff.mp after, rfl⟩

variable {before after : FeedState} {event : FeedEvent}

theorem FeedStep.wellTimed
    (step : FeedStep localeCompare regime before event after) (timed : before.WellTimed) :
    after.WellTimed := by
  cases step with
  | changes after now keyed writes later becomes =>
      refine ⟨keyed, ?_, timed.reached.trans later⟩
      intro row member
      by_cases old : row ∈ before.jobs
      · exact (timed.written row old).trans later
      · exact (writes row member old).2
  | serves limit positive serves =>
      refine ⟨timed.keyed, timed.written, ?_⟩
      rcases terminalFeed_cursor localeCompare before.cursor limit before.coordinator with
        same | ⟨row, stored, _, last⟩
      · show (terminalFeed _ _ _ _).2.updatedAt ≤ _
        rw [same]
        exact timed.reached
      · show (terminalFeed _ _ _ _).2.updatedAt ≤ _
        rw [last]
        exact timed.written row stored

variable {events : List FeedEvent}

theorem FeedRun.wellTimed {keeps : FeedState → Prop} {start : FeedState}
    (run : FeedRun localeCompare regime keeps start events after)
    (timed : start.WellTimed) : after.WellTimed := by
  induction run with
  | start => exact timed
  | next _ step _ induction => exact step.wellTimed induction

/-! ## One job -/

/-- No job becomes terminal in the millisecond of the cursor unless its id comes after
the cursor's, and every read merges its pages in the order of the index. -/
def orderlyFeed (localeCompare : LocaleCompare) : FeedRegime where
  becomes cursor row := row.updatedAt = cursor.updatedAt → cursor.id < row.id
  serves tables cursor limit := localeCompare.Agrees cursor limit tables

theorem FeedStep.cursor_lt {written : List JobRow}
    (step : FeedStep localeCompare (orderlyFeed localeCompare) before (.changed written) after)
    (timed : before.WellTimed) (new : row ∈ written) (terminal : row.isTerminal = true) :
    after.cursor.place < row.place ∧ row ∈ after.jobs := by
  cases step with
  | changes after now keyed writes later becomes =>
      obtain ⟨member, fresh⟩ := List.mem_filter.mp new
      have fresh := of_decide_eq_true fresh
      refine ⟨?_, member⟩
      have reached := timed.reached.trans (writes row member fresh).1
      show before.cursor.place < row.rescueKey.place
      rw [← RescueKey.precedes_iff]
      unfold RescueKey.precedes
      rcases reached.lt_or_eq with earlier | same
      · exact decide_eq_true (.inl earlier)
      · exact decide_eq_true (.inr ⟨same, becomes row member fresh terminal same.symm⟩)

variable {state : FeedState}

theorem FeedState.mem_ahead {other : JobRow} :
    other ∈ state.ahead row ↔ other ∈ state.jobs ∧ other.isTerminal = true ∧
      state.cursor.place < other.place ∧ other.place ≤ row.place := by
  unfold ahead
  rw [List.mem_filter, JobTables.mem_terminalAfter, decide_eq_true_iff, and_assoc, and_assoc]
  exact Iff.rfl

theorem FeedState.WellTimed.nodup_ahead (timed : state.WellTimed)
    (row : JobRow) : (state.ahead row).Nodup := by
  have distinct : state.jobs.Nodup :=
    timed.keyed.distinct.imp fun different same => different (congrArg JobRow.place same)
  exact (distinct.filter _).filter _

/-- A read returns a job that lies behind the cursor, or comes closer to it. -/
theorem serves_progress
    (timed : state.WellTimed) (kept : state.Keeps row) (terminal : row.isTerminal = true)
    (behind : state.cursor.place < row.place) (positive : 1 ≤ limit)
    (agrees : localeCompare.Agrees state.cursor limit state.coordinator.tables) :
    let read := terminalFeed localeCompare state.cursor limit state.coordinator
    let after : FeedState := ⟨state.coordinator, read.2, state.clock⟩
    ((read.1.any fun terminal => decide (terminal.id = row.id)) = true ∧
        row.place ≤ after.cursor.place) ∨
      ((read.1.any fun terminal => decide (terminal.id = row.id)) = false ∧
        after.cursor.place < row.place ∧ (after.ahead row).length < (state.ahead row).length) := by
  intro read after
  set order := state.coordinator.tables.terminalOrder state.cursor with order_eq
  have ordered : Ordered JobRow.place order := timed.keyed.ordered_terminalOrder
  have in_order {other : JobRow} : other ∈ order ↔ other ∈ state.jobs ∧
      other.isTerminal = true ∧ state.cursor.place < other.place := by
    rw [order_eq, JobTables.terminalOrder, List.mem_mergeSort, JobTables.mem_terminalAfter]
    exact Iff.rfl
  have listed : row ∈ order := in_order.mpr ⟨kept, terminal, behind⟩
  have page : read = ((order.take limit).map JobRow.terminal,
      ((order.take limit).getLast?.map JobRow.rescueKey).getD state.cursor) := by
    show terminalFeed _ _ _ _ = _
    unfold terminalFeed
    rw [oldestTerminal_eq timed.keyed agrees]
  obtain ⟨last, ends⟩ : ∃ last, (order.take limit).getLast? = some last := by
    refine Option.ne_none_iff_exists'.mp fun absent => ?_
    rcases List.take_eq_nil_iff.mp (List.getLast?_eq_none_iff.mp absent) with zero | empty
    · omega
    · rw [empty] at listed
      exact List.not_mem_nil listed
  have cursor : after.cursor.place = last.place := by
    show read.2.place = _
    rw [page, ends]
    rfl
  have onPage := List.mem_of_getLast? ends
  by_cases returned : row ∈ order.take limit
  · refine .inl ⟨?_, ?_⟩
    · rw [page]
      exact List.any_eq_true.mpr ⟨row.terminal, List.mem_map_of_mem returned, decide_eq_true rfl⟩
    · rw [cursor]
      exact (ordered.take limit).le_getLast returned ends
  · refine .inr ⟨?_, ?_, ?_⟩
    · rw [page, List.any_eq_false]
      intro found member same
      obtain ⟨other, present, rfl⟩ := List.mem_map.mp member
      have equal := timed.keyed.eq_of_id (in_order.mp (List.mem_of_mem_take present)).1 kept
        (of_decide_eq_true same)
      exact returned (equal ▸ present)
    · rw [cursor]
      exact ordered.lt_of_notMem_take listed returned onPage
    · obtain ⟨stored, lastTerminal, passed⟩ := in_order.mp (List.mem_of_mem_take onPage)
      have reached := ordered.lt_of_notMem_take listed returned onPage
      -- the last row of the page is no longer ahead
      have subset : last :: after.ahead row ⊆ state.ahead row := by
        intro other member
        rcases List.mem_cons.mp member with rfl | ahead
        · exact FeedState.mem_ahead.mpr ⟨stored, lastTerminal, passed, reached.le⟩
        · obtain ⟨present, otherTerminal, beyond, upTo⟩ := FeedState.mem_ahead.mp ahead
          rw [cursor] at beyond
          exact FeedState.mem_ahead.mpr ⟨present, otherTerminal, passed.trans beyond, upTo⟩
      have notAhead : last ∉ after.ahead row := by
        intro member
        have beyond := (FeedState.mem_ahead.mp member).2.2.1
        rw [cursor] at beyond
        exact beyond.false
      have afterTimed : after.WellTimed := by
        refine ⟨timed.keyed, timed.written, ?_⟩
        show read.2.updatedAt ≤ _
        rw [page, ends]
        exact timed.written last stored
      have nodup : (last :: after.ahead row).Nodup :=
        List.nodup_cons.mpr ⟨notAhead, afterTimed.nodup_ahead row⟩
      exact (nodup.subperm subset).length_le

/-- Once the cursor has passed a job, no read returns it. -/
theorem serves_passed
    (timed : state.WellTimed) (kept : state.Keeps row) (passed : row.place ≤ state.cursor.place) :
    ((terminalFeed localeCompare state.cursor limit state.coordinator).1.any
        fun terminal => decide (terminal.id = row.id)) = false ∧
      row.place ≤ (terminalFeed localeCompare state.cursor limit state.coordinator).2.place := by
  refine ⟨?_, ?_⟩
  · rw [List.any_eq_false]
    intro found member same
    obtain ⟨other, present, rfl⟩ := List.mem_map.mp member
    obtain ⟨stored, after⟩ := oldestTerminal_isTerminal present
    have equal := timed.keyed.eq_of_id stored kept (of_decide_eq_true same)
    rw [equal] at after
    exact absurd (RescueKey.precedes_iff.mp after) (not_lt.mpr passed)
  · rcases terminalFeed_cursor localeCompare state.cursor limit state.coordinator with
      same | ⟨other, _, beyond, last⟩
    · rw [same]
      exact passed
    · rw [last]
      exact passed.trans beyond.le

/-- A transition puts no more jobs ahead of a kept one than it writes into places before. -/
theorem changes_ahead {after : Coordinator} {now : ℚ}
    (also : FeedState.WellTimed ⟨after, before.cursor, now⟩) (here : before.Keeps row)
    (kept : FeedState.Keeps row ⟨after, before.cursor, now⟩) :
    (FeedState.ahead row ⟨after, before.cursor, now⟩).length ≤
      (before.ahead row).length + (after.tables.jobs.values.filter
        fun other => decide (other ∉ before.jobs)).countP
          fun other => other.isTerminal && decide (other.place < row.place) := by
  set state : FeedState := ⟨after, before.cursor, now⟩ with state_eq
  set written := after.tables.jobs.values.filter fun other => decide (other ∉ before.jobs)
  have subset : state.ahead row ⊆ before.ahead row ++ written.filter
      fun other => other.isTerminal && decide (other.place < row.place) := by
    intro other member
    obtain ⟨present, terminal, beyond, upTo⟩ := FeedState.mem_ahead.mp member
    by_cases old : other ∈ before.jobs
    · exact List.mem_append_left _ (FeedState.mem_ahead.mpr ⟨old, terminal, beyond, upTo⟩)
    · refine List.mem_append_right _ (List.mem_filter.mpr
        ⟨List.mem_filter.mpr ⟨present, decide_eq_true old⟩, ?_⟩)
      have different : other.place ≠ row.place := by
        intro same
        have equal := also.keyed.eq_of_id present kept
          (congrArg RescueKey.id (RescueKey.place_injective same))
        exact old (equal ▸ here)
      rw [terminal, Bool.true_and]
      exact decide_eq_true (lt_of_le_of_ne upTo different)
  have count := ((also.nodup_ahead row).subperm subset).length_le
  rw [List.length_append] at count
  rwa [List.countP_eq_length_filter]

/-- A run since a job became terminal: it is still ahead of the cursor, and each read came
closer to it, or it was returned once and lies behind. -/
inductive FeedProgress (row : JobRow) (became : FeedState) (events : List FeedEvent)
    (state : FeedState) : Prop
  | pending (unreturned : callsReturning row.id events = 0)
      (behind : state.cursor.place < row.place)
      (closer : callsServed events + (state.ahead row).length ≤
        (became.ahead row).length + overtaking row events)
  | returned (once : callsReturning row.id events = 1) (passed : row.place ≤ state.cursor.place)

variable {became : FeedState}

theorem FeedProgress.next (terminal : row.isTerminal = true)
    (timed : before.WellTimed) (here : before.Keeps row) (kept : after.Keeps row)
    (progress : FeedProgress row became events before)
    (step : FeedStep localeCompare (orderlyFeed localeCompare) before event after) :
    FeedProgress row became (events ++ [event]) after := by
  have also := step.wellTimed timed
  cases step with
  | changes state now keyed writes later becomes =>
      cases progress with
      | pending unreturned behind closer =>
          have ahead := changes_ahead also here kept
          refine .pending ?_ behind ?_
          · simpa [callsReturning] using unreturned
          · simp only [callsServed, overtaking, List.countP_append, List.map_append,
              List.sum_append] at closer ⊢
            simp only [List.countP_cons, List.countP_nil, List.map_cons, List.map_nil,
              List.sum_cons, List.sum_nil]
            simp only [Bool.false_eq_true, if_false]
            omega
      | returned once passed =>
          exact .returned (by simpa [callsReturning] using once) passed
  | serves limit positive agrees =>
      cases progress with
      | pending unreturned behind closer =>
          rcases serves_progress timed here terminal behind positive agrees with
            ⟨found, passed⟩ | ⟨missed, ahead, fewer⟩
          · refine .returned ?_ passed
            simp only [callsReturning, List.countP_append] at unreturned ⊢
            rw [unreturned]
            simp [found]
          · refine .pending ?_ ahead ?_
            · simp only [callsReturning, List.countP_append] at unreturned ⊢
              rw [unreturned]
              simp [missed]
            · simp only [callsServed, overtaking, List.countP_append, List.map_append,
                List.sum_append] at closer ⊢
              simp only [List.countP_cons, List.countP_nil, List.map_cons, List.map_nil,
                List.sum_cons, List.sum_nil]
              simp only [if_true]
              omega
      | returned once passed =>
          obtain ⟨missed, beyond⟩ := serves_passed timed here passed
          refine .returned ?_ beyond
          simp only [callsReturning, List.countP_append] at once ⊢
          rw [once]
          simp [missed]

theorem FeedRun.progress
    (terminal : row.isTerminal = true) (timed : became.WellTimed) (here : became.Keeps row)
    (behind : became.cursor.place < row.place)
    (run : FeedRun localeCompare (orderlyFeed localeCompare) (FeedState.Keeps row) became events
      after) : after.Keeps row ∧ FeedProgress row became events after := by
  induction run with
  | start => exact ⟨here, .pending rfl behind (by simp [callsServed, overtaking])⟩
  | next run step kept induction =>
      exact ⟨kept, induction.2.next terminal (run.wellTimed timed) induction.1 kept step⟩

/-- In every run in which jobs become terminal only past the cursor and the merge keeps the
order of the index, a job that became terminal and keeps its row is returned by no two later
calls, and by one once there are as many calls as jobs that came before it. -/
theorem terminal_feed_exactly_once (localeCompare : LocaleCompare)
    {start before became after : FeedState} {earlier later : List FeedEvent} {written : List JobRow} {row : JobRow}
    (timed : start.WellTimed)
    (history : FeedRun localeCompare (orderlyFeed localeCompare) (fun _ => True) start earlier
      before)
    (step : FeedStep localeCompare (orderlyFeed localeCompare) before (.changed written) became)
    (new : row ∈ written) (terminal : row.isTerminal = true)
    (rest : FeedRun localeCompare (orderlyFeed localeCompare) (FeedState.Keeps row) became later
      after) :
    callsReturning row.id later ≤ 1 ∧
      ((became.ahead row).length + overtaking row later ≤ callsServed later →
        callsReturning row.id later = 1) := by
  have beforeTimed := history.wellTimed timed
  obtain ⟨behind, here⟩ := step.cursor_lt beforeTimed new terminal
  obtain ⟨kept, progress⟩ := rest.progress terminal (step.wellTimed beforeTimed) here behind
  cases progress with
  | pending unreturned behind closer =>
      refine ⟨by omega, fun enough => ?_⟩
      have own : row ∈ after.ahead row :=
        FeedState.mem_ahead.mpr ⟨kept, terminal, behind, le_refl _⟩
      have some := List.length_pos_of_mem own
      omega
  | returned once _ => exact ⟨once.le, fun _ => once⟩

end

/-! ## Jobs of one millisecond -/

def doneRow (id : String) (state : JobState) (updatedAt : ℚ) : JobRow where
  id := id
  idempotencyKey := id
  requestDigest := "digest"
  state := state
  updatedAt := updatedAt

def withRows (rows : List JobRow) : Coordinator where
  tables := { jobs := rows.map fun row => (row.id, row) }
  scheduler := { utcDay := 0 }

variable {rows : List JobRow}

theorem keyed_withRows (distinct : (rows.map JobRow.id).Nodup) :
    (withRows rows).tables.Keyed where
  nodup := by
    show ((rows.map fun row => (row.id, row)).map Prod.fst).Nodup
    rwa [List.map_map]
  named := by
    intro jobId job found
    obtain ⟨row, _, same⟩ := List.mem_map.mp (Dict.get?_eq_some_mem found)
    cases same
    rfl

def codePointCompare : LocaleCompare := fun left right =>
  if left < right then -1 else if left = right then 0 else 1

def firstDone : JobRow := doneRow "b" .completed 100

def nextDone : JobRow := doneRow "c" .failed 100

def lateDone : JobRow := doneRow "a" .completed 100

def newReader : FeedState := ⟨withRows [], ⟨0, ""⟩, 0⟩

theorem newReader_wellTimed : newReader.WellTimed :=
  ⟨keyed_withRows List.nodup_nil, fun _ member => absurd member List.not_mem_nil, le_refl 0⟩

theorem firstCompleted :
    ((withRows [firstDone]).tables.jobs.values.filter fun job =>
      decide (job.state = .completed) && (⟨0, ""⟩ : RescueKey).precedes job.rescueKey) =
        [firstDone] := by
  decide

theorem firstFailed :
    ((withRows [firstDone]).tables.jobs.values.filter fun job =>
      decide (job.state = .failed) && (⟨0, ""⟩ : RescueKey).precedes job.rescueKey) = [] := by
  decide

theorem nextCompleted :
    ((withRows [firstDone, nextDone]).tables.jobs.values.filter fun job =>
      decide (job.state = .completed) && (⟨100, "b"⟩ : RescueKey).precedes job.rescueKey) = [] := by
  decide

theorem nextFailed :
    ((withRows [firstDone, nextDone]).tables.jobs.values.filter fun job =>
      decide (job.state = .failed) && (⟨100, "b"⟩ : RescueKey).precedes job.rescueKey) =
        [nextDone] := by
  decide

variable {tables : JobTables}

/-- A page whose rows are in order already. -/
theorem oldest_of_sorted {state : JobState} {test : JobRow → Bool}
    (found : (tables.jobs.values.filter fun job => decide (job.state = state) && test job) = rows)
    (sorted : rows.Pairwise fun earlier later => notLater earlier later = true) (limit : Nat) :
    tables.oldest state test limit = rows.take limit := by
  unfold JobTables.oldest
  rw [found, List.mergeSort_of_pairwise sorted]

/-- A read whose pages are known. -/
theorem FeedStep.reads {localeCompare : LocaleCompare} {regime : FeedRegime} {before : FeedState}
    {limit : Nat} {completed failed merged : List JobRow} (positive : 1 ≤ limit)
    (left : before.coordinator.tables.oldest .completed
      (fun job => before.cursor.precedes job.rescueKey) limit = completed)
    (right : before.coordinator.tables.oldest .failed
      (fun job => before.cursor.precedes job.rescueKey) limit = failed)
    (order : mergeSortedRows completed failed limit localeCompare.notLater = merged)
    (serves : regime.serves before.coordinator.tables before.cursor limit) :
    FeedStep localeCompare regime before (.served (merged.map JobRow.terminal))
      ⟨before.coordinator, (merged.getLast?.map JobRow.rescueKey).getD before.cursor,
        before.clock⟩ := by
  have step := @FeedStep.serves localeCompare regime before limit positive serves
  unfold terminalFeed JobTables.oldestTerminal at step
  rw [left, right, order] at step
  exact step

variable {localeCompare : LocaleCompare}

theorem LocaleCompare.agrees_of_empty {cursor : RescueKey} {limit : Nat}
    (empty : tables.oldest .completed (fun job => cursor.precedes job.rescueKey) limit = [] ∨
      tables.oldest .failed (fun job => cursor.precedes job.rescueKey) limit = []) :
    localeCompare.Agrees cursor limit tables := by
  intro completed here failed there
  rcases empty with none | none
  · rw [none] at here
    exact absurd here List.not_mem_nil
  · rw [none] at there
    exact absurd there List.not_mem_nil

variable {keeps : FeedState → Prop}

theorem firstRead {regime : FeedRegime} (kept : ∀ state, keeps state)
    (becomes : regime.becomes ⟨0, ""⟩ firstDone)
    (serves : regime.serves (withRows [firstDone]).tables ⟨0, ""⟩ 1) :
    FeedRun codePointCompare regime keeps newReader
      [.changed [firstDone], .served [firstDone.terminal]]
      ⟨withRows [firstDone], ⟨100, "b"⟩, 100⟩ := by
  have first : FeedStep codePointCompare regime newReader (.changed [firstDone])
      ⟨withRows [firstDone], ⟨0, ""⟩, 100⟩ :=
    .changes newReader (withRows [firstDone]) 100 (keyed_withRows (by decide))
      (by decide) (by decide)
      (by
        intro row member _ _
        rw [List.mem_singleton.mp member]
        exact becomes)
  have read : FeedStep codePointCompare regime ⟨withRows [firstDone], ⟨0, ""⟩, 100⟩
      (.served [firstDone.terminal]) ⟨withRows [firstDone], ⟨100, "b"⟩, 100⟩ :=
    @FeedStep.reads _ _ ⟨withRows [firstDone], ⟨0, ""⟩, 100⟩ 1 [firstDone] [] [firstDone]
      (le_refl 1) (oldest_of_sorted firstCompleted (by simp) 1)
      (oldest_of_sorted firstFailed (by simp) 1) (by simp [mergeSortedRows]) serves
  exact (FeedRun.start.next first (kept _)).next read (kept _)

/-- Two jobs of one millisecond, of which the second comes after the cursor. -/
theorem terminal_feed_exactly_once_next :
    callsReturning nextDone.id [.served [nextDone.terminal]] ≤ 1 ∧
      ((FeedState.ahead nextDone ⟨withRows [firstDone, nextDone], ⟨100, "b"⟩, 100⟩).length +
          overtaking nextDone [.served [nextDone.terminal]] ≤
            callsServed [.served [nextDone.terminal]] →
        callsReturning nextDone.id [.served [nextDone.terminal]] = 1) :=
  @terminal_feed_exactly_once codePointCompare newReader
    ⟨withRows [firstDone], ⟨100, "b"⟩, 100⟩ ⟨withRows [firstDone, nextDone], ⟨100, "b"⟩, 100⟩
    ⟨withRows [firstDone, nextDone], ⟨100, "c"⟩, 100⟩ _ _ [nextDone] nextDone newReader_wellTimed
    (firstRead (fun _ => trivial) (fun same => absurd same (by decide))
      (LocaleCompare.agrees_of_empty (.inr (oldest_of_sorted firstFailed (by simp) 1))))
    (.changes ⟨withRows [firstDone], ⟨100, "b"⟩, 100⟩ (withRows [firstDone, nextDone]) 100
      (keyed_withRows (by decide)) (by decide) (by decide)
      (by
        intro row member fresh _ _
        have both : row = firstDone ∨ row = nextDone := by simpa [withRows, Dict.values] using member
        rcases both with rfl | rfl
        · exact absurd (by decide) fresh
        · decide))
    (by decide) (by decide)
    (FeedRun.start.next
      (@FeedStep.reads _ _ ⟨withRows [firstDone, nextDone], ⟨100, "b"⟩, 100⟩ 1 [] [nextDone]
        [nextDone] (le_refl 1) (oldest_of_sorted nextCompleted (by simp) 1)
        (oldest_of_sorted nextFailed (by simp) 1) (by simp [mergeSortedRows])
        (LocaleCompare.agrees_of_empty (.inl (oldest_of_sorted nextCompleted (by simp) 1))))
      (by
        show nextDone ∈ _
        decide))

theorem lateUnread (state : JobState) :
    ((withRows [firstDone, lateDone]).tables.jobs.values.filter fun job =>
      decide (job.state = state) && (⟨100, "b"⟩ : RescueKey).precedes job.rescueKey) = [] := by
  cases state <;> decide

theorem FeedRun.nothing {start state : FeedState} {events : List FeedEvent}
    (run : FeedRun localeCompare {} keeps start events state) (kept : keeps state)
    (unread : ∀ terminal : JobState, (state.coordinator.tables.jobs.values.filter fun job =>
      decide (job.state = terminal) && state.cursor.precedes job.rescueKey) = []) (calls : Nat) :
    FeedRun localeCompare {} keeps start (events ++ List.replicate calls (.served [])) state := by
  have page (terminal : JobState) : state.coordinator.tables.oldest terminal
      (fun job => state.cursor.precedes job.rescueKey) 1 = [] :=
    oldest_of_sorted (unread terminal) List.Pairwise.nil 1
  have step : FeedStep localeCompare {} state (.served []) state :=
    @FeedStep.reads localeCompare {} state 1 [] [] [] (le_refl 1) (page .completed) (page .failed)
      (by simp [mergeSortedRows]) trivial
  induction calls with
  | zero => simpa using run
  | succ calls induction =>
      rw [List.replicate_succ', ← List.append_assoc]
      exact induction.next step kept

/-- A job of the cursor's millisecond whose id comes before the cursor's is returned by no
number of further calls. -/
theorem late_arrival_missed :
    ∃ before became, newReader.WellTimed ∧
      FeedRun codePointCompare {} (fun _ => True) newReader
        [.changed [firstDone], .served [firstDone.terminal]] before ∧
      FeedStep codePointCompare {} before (.changed [lateDone]) became ∧
        lateDone.isTerminal = true ∧
          ∀ calls, ∃ later after,
            FeedRun codePointCompare {} (FeedState.Keeps lateDone) became later after ∧
              callsServed later = calls ∧ overtaking lateDone later = 0 ∧
                callsReturning lateDone.id later = 0 := by
  refine ⟨⟨withRows [firstDone], ⟨100, "b"⟩, 100⟩,
    ⟨withRows [firstDone, lateDone], ⟨100, "b"⟩, 100⟩, newReader_wellTimed,
    firstRead (fun _ => trivial) trivial trivial,
    .changes ⟨withRows [firstDone], ⟨100, "b"⟩, 100⟩ (withRows [firstDone, lateDone]) 100
      (keyed_withRows (by decide)) (by decide) (by decide)
      (fun _ _ _ _ => trivial), by decide, ?_⟩
  intro calls
  refine ⟨_, _, FeedRun.start.nothing ?_ lateUnread calls, ?_, ?_, ?_⟩
  · show lateDone ∈ _
    decide
  · simp [callsServed, List.countP_replicate]
  · simp [overtaking]
  · simp [callsReturning]

/-! ## Ids of another case -/

end CityPods.Dispatch
