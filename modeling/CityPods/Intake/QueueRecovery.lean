import CityPods.Intake.OneIssue
import CityPods.Intake.RequestQueue
import Mathlib.Data.Finset.Card
import Mathlib.Data.List.Nodup

/-! # City requests recover

While no failure marks a row pending that has its issue number, and no call stops
between an issue's number and its origin, every row can be taken up again: once all
goes well, each round of the retry settles ten rows.
-/

namespace CityPods.Intake.Queue

open Foundation Tasks

variable {fingerprintOf : String → String}

/-! ## Conditions -/

def recoverable : Conditions queueWorld where
  allows state op choice :=
    match op with
    | .onRow _ (.recordIssue _) => choice.fate ≠ .lost
    | .onRow _ (.recordOrigin _) => choice.fate ≠ .refused
    | .onRow fingerprint .markPending =>
        choice.fate = .refused ∨ ∀ row ∈ state.find fingerprint, row.request.issueNumber = none
    | _ => True
  interrupts _ op :=
    match op with
    | .onRow _ (.recordOrigin _) => False
    | _ => True

/-- Every external call succeeds. -/
def smooth : Conditions queueWorld where
  allows _ _ choice := choice.fate = .replies
  interrupts _ _ := False

/-! ## Rows -/

/-- The row can be taken up again, or is done with. -/
structure RequestRow.Sound (fingerprintOf : String → String) (origins : List OriginRow)
    (row : RequestRow) : Prop where
  payload : ∃ json, row.request.payloadJson = some json ∧ json ≠ "" ∧
    fingerprintOf json = row.fingerprint
  marker : ∃ marker, row.request.requestMarker = some marker ∧ marker ≠ ""
  progress : row.request.status = .pending ∧ row.request.issueNumber = none ∨
    row.request.status = .created ∧ ∃ number, row.request.issueNumber = some number ∧
      ∃ origin ∈ origins, origin.issueNumber = number

structure QueueState.Sound (fingerprintOf : String → String) (state : QueueState) : Prop where
  distinct : (state.requests.map RequestRow.fingerprint).Nodup
  rows : ∀ row ∈ state.requests, row.Sound fingerprintOf state.origins

variable {row : RequestRow}

theorem RequestRow.Sound.mono {origins more : List OriginRow}
    (sound : row.Sound fingerprintOf origins)
    (kept : ∀ origin ∈ origins, ∃ other ∈ more, other.issueNumber = origin.issueNumber) :
    row.Sound fingerprintOf more := by
  refine ⟨sound.payload, sound.marker, sound.progress.imp_right ?_⟩
  rintro ⟨created, number, named, origin, member, rfl⟩
  exact ⟨created, _, named, kept origin member⟩

variable {state : QueueState}

theorem QueueState.Sound.origins (sound : state.Sound fingerprintOf) {origins : List OriginRow}
    (kept : ∀ origin ∈ state.origins, ∃ other ∈ origins, other.issueNumber = origin.issueNumber) :
    { state with origins := origins }.Sound fingerprintOf :=
  ⟨sound.distinct, fun row member => (sound.rows row member).mono kept⟩

variable {fingerprint : String}

theorem find_some (found : state.find fingerprint = some row) :
    row ∈ state.requests ∧ row.fingerprint = fingerprint := by
  have matched := List.find?_some found
  exact ⟨List.mem_of_find?_eq_some found, of_decide_eq_true matched⟩

theorem QueueState.Sound.find_of_mem (sound : state.Sound fingerprintOf)
    (member : row ∈ state.requests) : state.find row.fingerprint = some row := by
  cases found : state.find row.fingerprint with
  | none =>
      have missing := List.find?_eq_none.mp found row member
      simp at missing
  | some other =>
      obtain ⟨among, same⟩ := find_some found
      rw [List.inj_on_of_nodup_map sound.distinct among member same]

theorem find_none (missing : state.find fingerprint = none) :
    ∀ row ∈ state.requests, row.fingerprint ≠ fingerprint := by
  intro row member same
  have different := List.find?_eq_none.mp missing row member
  exact different (decide_eq_true same)

@[simp] theorem update_fingerprints (state : QueueState) (fingerprint : String) (now : Nat)
    (change : CityRequest → CityRequest) :
    (state.update fingerprint now change).requests.map RequestRow.fingerprint =
      state.requests.map RequestRow.fingerprint := by
  rw [QueueState.update, List.map_map]
  apply List.map_congr_left
  intro row _
  dsimp only [Function.comp]
  split <;> rfl

theorem QueueState.Sound.update (sound : state.Sound fingerprintOf)
    (fingerprint : String) (now : Nat) (change : CityRequest → CityRequest)
    {origins : List OriginRow}
    (kept : ∀ origin ∈ state.origins, ∃ other ∈ origins, other.issueNumber = origin.issueNumber)
    (changed : ∀ row ∈ state.find fingerprint, row.Sound fingerprintOf state.origins →
      { row with request := change row.request, updatedAt := now }.Sound fingerprintOf origins) :
    { state.update fingerprint now change with origins := origins }.Sound fingerprintOf := by
  refine ⟨?_, fun row member => ?_⟩
  · rw [update_fingerprints]
    exact sound.distinct
  · obtain ⟨before, among, rfl⟩ := List.mem_map.mp member
    have fine := sound.rows before among
    split
    · next same => exact changed before (same ▸ sound.find_of_mem among) fine
    · exact fine.mono kept

/-! ## Operations -/

/-- Operations of a call on its own row, but for the record of the issue. -/
def Proper (fingerprintOf : String → String) : QueueOp → Prop
  | .onRow fingerprint (.insertRequest json marker) =>
      json ≠ "" ∧ fingerprintOf json = fingerprint ∧ marker ≠ ""
  | .onRow _ (.recordIssue _) => False
  | _ => True

theorem kept_by_recordOrigin (origins : List OriginRow) (number : Nat) :
    ∀ origin ∈ origins,
      ∃ other ∈ (origins.filter fun origin => origin.issueNumber ≠ number) ++ [⟨number, none⟩],
        other.issueNumber = origin.issueNumber := by
  intro origin member
  by_cases same : origin.issueNumber = number
  · exact ⟨⟨number, none⟩, by simp, same.symm⟩
  · exact ⟨origin, by simp [member, same], rfl⟩

variable {op : QueueOp}

theorem QueueState.Sound.perform (sound : state.Sound fingerprintOf)
    (proper : Proper fingerprintOf op) (choice : QueueChoice)
    (unnumbered : ∀ fingerprint, op = .onRow fingerprint .markPending →
      ∀ row ∈ state.find fingerprint, row.request.issueNumber = none) :
    (state.perform choice op).2.Sound fingerprintOf := by
  cases op with
  | selectPending => exact sound
  | onRow fingerprint op =>
      cases op with
      | insertRequest json marker =>
          obtain ⟨given, printed, marked⟩ := proper
          simp only [QueueState.perform]
          split
          · exact sound
          · next missing =>
            refine ⟨?_, fun row member => ?_⟩
            · rw [List.map_append, List.map_singleton, List.nodup_append]
              refine ⟨sound.distinct, List.nodup_singleton _, ?_⟩
              rintro _ member _ last same
              obtain ⟨row, among, rfl⟩ := List.mem_map.mp member
              rw [List.mem_singleton.mp last] at same
              exact find_none missing row among same
            · rcases List.mem_append.mp member with before | last
              · exact sound.rows row before
              · rw [List.mem_singleton.mp last]
                exact ⟨⟨json, rfl, given, printed⟩, ⟨marker, rfl, marked⟩, .inl ⟨rfl, rfl⟩⟩
      | recordIssue number => exact proper.elim
      | recordOrigin number => exact sound.origins (kept_by_recordOrigin state.origins number)
      | recordMessage number messageId =>
          refine sound.origins fun origin member => ⟨_, List.mem_map_of_mem member, ?_⟩
          split <;> rfl
      | markPending =>
          have updated := sound.update fingerprint choice.now (fun request => { request with status := .pending })
            (fun origin member => ⟨origin, member, rfl⟩) fun row found fine =>
              ⟨fine.payload, fine.marker, .inl ⟨rfl, unnumbered fingerprint rfl row found⟩⟩
          exact updated
      | _ => exact ⟨sound.distinct, sound.rows⟩

variable {after : QueueState} {choice : QueueChoice} {reply : Option op.Value}

theorem queueWorld_answer (answered : queueWorld.answer state op choice = some (reply, after)) :
    choice.fate = .refused ∧ reply = none ∧ after = state ∨
      choice.fate = .lost ∧ reply = none ∧ after = (state.perform choice op).2 ∨
        choice.fate = .replies ∧ reply = some (state.perform choice op).1 ∧
          after = (state.perform choice op).2 := by
  simp only [queueWorld] at answered
  split at answered <;> cases answered
  · next fate => exact .inr (.inr ⟨fate, rfl, rfl⟩)
  · next fate => exact .inl ⟨fate, rfl, rfl⟩
  · next fate => exact .inr (.inl ⟨fate, rfl, rfl⟩)

theorem QueueState.Sound.answered
    (sound : state.Sound fingerprintOf) (proper : Proper fingerprintOf op)
    (allowed : recoverable.allows state op choice)
    (answered : queueWorld.answer state op choice = some (reply, after)) :
    after.Sound fingerprintOf := by
  have carried (effective : choice.fate ≠ .refused) : (state.perform choice op).2.Sound fingerprintOf := by
    refine sound.perform proper choice ?_
    rintro fingerprint rfl
    exact allowed.resolve_left effective
  rcases queueWorld_answer answered with ⟨_, _, rfl⟩ | ⟨fate, _, rfl⟩ | ⟨fate, _, rfl⟩
  · exact sound
  · exact carried (by rw [fate]; decide)
  · exact carried (by rw [fate]; decide)

/-! ## Calls that may fail -/

/-- The whole of an interrupted call, if all of its operations are proper. -/
theorem yields_proper {α : Type} {task : Task queue α}
    (asks : task.OnlyAsks (Proper fingerprintOf)) (sound : state.Sound fingerprintOf) :
    task.Yields recoverable (fun _ => QueueState.Sound fingerprintOf) state :=
  asks.yields (fun proper allowed answered sound => sound.answered proper allowed answered) sound

section

variable {fingerprint : String}

theorem onlyAsks_onRow {α : Type} {permitted : QueueOp → Prop} {asked : IntakeOp → Prop}
    {task : Task intake α} (asks : task.OnlyAsks asked)
    (implies : ∀ op, asked op → permitted (.onRow fingerprint op)) :
    (onRow fingerprint task).OnlyAsks permitted := by
  induction task with
  | done result => trivial
  | perform op next induction =>
      exact ⟨implies op asks.1, fun reply => induction reply (asks.2 reply)⟩

variable {state : QueueState}

theorem yields_failed (sound : state.Sound fingerprintOf) :
    (onRow fingerprint handoffFailed).Yields recoverable
      (fun _ => QueueState.Sound fingerprintOf) state := by
  refine yields_proper ⟨trivial, fun reply => ?_⟩ sound
  cases reply with
  | none => trivial
  | some value => trivial

theorem yields_notify (number : Nat) (sound : state.Sound fingerprintOf) :
    (onRow fingerprint (notify number)).Yields recoverable
      (fun _ => QueueState.Sound fingerprintOf) state := by
  refine yields_proper (onlyAsks_onRow (settling_notify number) ?_) sound
  intro op settling
  cases op with
  | recordIssue number => exact settling.elim
  | insertRequest json marker => exact settling.elim
  | _ => trivial

/-- An operation, and either its value or the `catch` clause. -/
theorem yields_attempt {op : IntakeOp} {rest : op.Value → Task intake HandoffResponse}
    (sound : state.Sound fingerprintOf) (proper : Proper fingerprintOf (.onRow fingerprint op))
    (continued : ∀ choice : QueueChoice, choice.fate = .replies →
      let performed := state.perform choice (.onRow fingerprint op)
      performed.2.Sound fingerprintOf → (onRow fingerprint (rest performed.1)).Yields recoverable
        (fun _ => QueueState.Sound fingerprintOf) performed.2) :
    (onRow fingerprint (attempt op rest)).Yields recoverable
      (fun _ => QueueState.Sound fingerprintOf) state := by
  refine ⟨fun _ => sound, fun choice reply after allowed answered => ?_⟩
  have later := sound.answered proper allowed answered
  rcases queueWorld_answer answered with ⟨_, rfl, _⟩ | ⟨_, rfl, _⟩ | ⟨fate, rfl, rfl⟩
  · exact yields_failed later
  · exact yields_failed later
  · exact continued choice fate later

theorem QueueState.Sound.recorded (sound : state.Sound fingerprintOf)
    (fingerprint : String) (number : Nat) (first second : QueueChoice) :
    ((state.perform first (.onRow fingerprint (.recordIssue number))).2.perform second
      (.onRow fingerprint (.recordOrigin number))).2.Sound fingerprintOf := by
  have updated := sound.update fingerprint first.now
    (fun request => { request with issueNumber := some number, status := .created })
    (kept_by_recordOrigin state.origins number) fun row found fine =>
      ⟨fine.payload, fine.marker, .inr ⟨rfl, number, rfl, ⟨number, none⟩, by simp, rfl⟩⟩
  exact updated

/-- Between the number and its origin the call is neither killed nor refused. -/
theorem yields_recordAndNotify (issue : Issue) (sound : state.Sound fingerprintOf) :
    (onRow fingerprint (recordAndNotify issue)).Yields recoverable
      (fun _ => QueueState.Sound fingerprintOf) state := by
  refine ⟨fun _ => sound, fun choice reply after allowed answered => ?_⟩
  rcases queueWorld_answer answered with ⟨_, rfl, rfl⟩ | ⟨lost, _, _⟩ | ⟨_, rfl, rfl⟩
  · exact yields_failed sound
  · exact absurd lost allowed
  · refine ⟨fun interrupted => interrupted.elim, fun again reply after allowed answered => ?_⟩
    have recorded := sound.recorded fingerprint issue.number choice again
    rcases queueWorld_answer answered with ⟨refused, _, _⟩ | ⟨_, rfl, rfl⟩ | ⟨_, rfl, rfl⟩
    · exact absurd refused allowed
    · exact yields_failed recorded
    · exact yields_notify issue.number recorded

theorem yields_postNewIssue (marker : String) (sound : state.Sound fingerprintOf) :
    (onRow fingerprint (postNewIssue marker)).Yields recoverable
      (fun _ => QueueState.Sound fingerprintOf) state :=
  yields_attempt sound trivial fun _ _ later => yields_recordAndNotify _ later

theorem yields_createIssue (marker : String) (sound : state.Sound fingerprintOf) :
    (onRow fingerprint (createIssue marker)).Yields recoverable
      (fun _ => QueueState.Sound fingerprintOf) state := by
  refine yields_attempt sound trivial fun _ _ later => ?_
  split
  · exact yields_postNewIssue marker later
  · refine yields_attempt later trivial fun choice _ later => ?_
    split
    · next issue _ => exact yields_recordAndNotify issue later
    · exact yields_postNewIssue marker later

theorem yields_resumeRequest (existing : Option CityRequest) (sound : state.Sound fingerprintOf) :
    (onRow fingerprint (resumeRequest existing)).Yields recoverable
      (fun _ => QueueState.Sound fingerprintOf) state := by
  unfold resumeRequest
  split
  · exact sound
  · split
    · exact yields_createIssue _ sound
    · exact sound

theorem yields_handoffSubmission {json marker : String}
    (given : json ≠ "") (printed : fingerprintOf json = fingerprint) (marked : marker ≠ "")
    (sound : state.Sound fingerprintOf) :
    (onRow fingerprint (handoffSubmission json marker)).Yields recoverable
      (fun _ => QueueState.Sound fingerprintOf) state := by
  refine yields_attempt sound ⟨given, printed, marked⟩ fun choice _ later => ?_
  split
  · exact yields_createIssue marker later
  · exact yields_attempt later trivial fun _ _ later => yields_resumeRequest _ later

end

theorem yields_retryRows (markers : Nat → Marker) {rows : List (Option String)}
    (given : ∀ json, some json ∈ rows → json ≠ "") (index : Nat) (sound : state.Sound fingerprintOf) :
    (retryRows fingerprintOf markers index rows).Yields recoverable
      (fun _ => QueueState.Sound fingerprintOf) state := by
  induction rows generalizing state index with
  | nil => exact sound
  | cons payloadJson rest induction =>
      have first : (retryRow fingerprintOf (markers index) payloadJson).Yields recoverable
          (fun _ => QueueState.Sound fingerprintOf) state := by
        cases payloadJson with
        | none => exact sound
        | some json =>
            exact yields_handoffSubmission (given json List.mem_cons_self) rfl (markers index).given sound
      exact first.bind (fun _ last later =>
        induction (fun json member => given json (List.mem_cons_of_mem _ member)) (index + 1) later)
        fun _ later => later

theorem payloads_given (sound : state.Sound fingerprintOf) :
    ∀ json, some json ∈ state.oldestPending.map (fun row => row.request.payloadJson) → json ≠ "" := by
  intro json member
  obtain ⟨row, among, stored⟩ := List.mem_map.mp member
  have pending := (List.mem_insertionSort _).mp (List.mem_of_mem_take among)
  obtain ⟨held, same, given, _⟩ := (sound.rows row (List.mem_of_mem_filter pending)).payload
  rw [stored, Option.some.injEq] at same
  exact same ▸ given

theorem yields_call (call : QueueCall) (sound : state.Sound fingerprintOf) :
    ((queueCalls fingerprintOf).task call).Yields recoverable
      (fun _ => QueueState.Sound fingerprintOf) state := by
  cases call with
  | submit payload marker => exact yields_handoffSubmission payload.given rfl marker.given sound
  | retry markers =>
      refine ⟨fun _ => sound, fun choice reply after _ answered => ?_⟩
      rcases queueWorld_answer answered with ⟨_, rfl, rfl⟩ | ⟨_, rfl, rfl⟩ | ⟨_, rfl, rfl⟩
      · exact sound
      · exact sound
      · exact yields_retryRows markers (payloads_given sound) 0 sound

/-- Between calls every row can be taken up again, or is done with. -/
theorem sound_of_recoverable {calls : List QueueCall}
    (history : Conducts (queueCalls fingerprintOf) recoverable {} calls state) :
    state.Sound fingerprintOf :=
  history.invariant ⟨List.nodup_nil, fun _ member => absurd member List.not_mem_nil⟩
    fun _ call _ sound => yields_call call sound

end CityPods.Intake.Queue
