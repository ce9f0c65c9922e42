import CityPods.Intake.QueueRecovery

/-! # Rounds of the retry

Where every external call succeeds, a call leaves its row settled and no other row
newly pending, so that each round of the retry settles ten rows.
-/

namespace CityPods.Intake.Queue

open Foundation Tasks

variable {fingerprintOf : String → String} {fingerprint : String}

/-! ## Pending rows -/

namespace QueueState

def pending (state : QueueState) : List String :=
  (state.requests.filter RequestRow.isPending).map RequestRow.fingerprint

variable {other : String}

theorem mem_pending {state : QueueState} :
    other ∈ state.pending ↔
      ∃ row ∈ state.requests, row.isPending = true ∧ row.fingerprint = other := by
  simp [pending, and_assoc]

theorem Sound.pending_nodup {state : QueueState} (sound : state.Sound fingerprintOf) :
    state.pending.Nodup :=
  sound.distinct.sublist (List.filter_sublist.map _)

theorem pending_created {state : QueueState} {now number : Nat}
    (member : other ∈ (state.update fingerprint now fun request =>
      { request with issueNumber := some number, status := .created }).pending) :
    other ∈ state.pending ∧ other ≠ fingerprint := by
  obtain ⟨row, among, waits, rfl⟩ := mem_pending.mp member
  obtain ⟨before, present, rfl⟩ := List.mem_map.mp among
  by_cases same : before.fingerprint = fingerprint
  · rw [if_pos same] at waits
    cases waits
  · rw [if_neg same] at waits ⊢
    exact ⟨mem_pending.mpr ⟨before, present, waits, rfl⟩, same⟩

end QueueState

/-- The operation changes no request. -/
def Quiet : QueueOp → Prop
  | .onRow _ (.insertRequest _ _) => False
  | .onRow _ (.recordIssue _) => False
  | .onRow _ .markPending => False
  | _ => True

variable {op : QueueOp}

theorem Quiet.proper (quiet : Quiet op) : Proper fingerprintOf op := by
  cases op with
  | selectPending => trivial
  | onRow fingerprint op => cases op <;> trivial

variable {state : QueueState}

theorem perform_requests (quiet : Quiet op)
    (choice : QueueChoice) : (state.perform choice op).2.requests = state.requests := by
  cases op with
  | selectPending => rfl
  | onRow fingerprint op => cases op <;> first | rfl | exact quiet.elim

/-- From one state to another only the row of the fingerprint may be newly pending. -/
structure Touches (fingerprintOf : String → String) (fingerprint : String)
    (before after : QueueState) : Prop where
  sound : after.Sound fingerprintOf
  pending : ∀ other ∈ after.pending, other ∈ before.pending ∨ other = fingerprint
  grows : before.requests.length ≤ after.requests.length

/-- No row is newly pending, and the row of the fingerprint is not. -/
structure Settles (fingerprintOf : String → String) (fingerprint : String)
    (before after : QueueState) : Prop where
  sound : after.Sound fingerprintOf
  pending : ∀ other ∈ after.pending, other ∈ before.pending ∧ other ≠ fingerprint
  grows : before.requests.length ≤ after.requests.length

section

variable {before state : QueueState} {op : QueueOp}

theorem sound_of_quiet (sound : state.Sound fingerprintOf) (quiet : Quiet op) (choice : QueueChoice) :
    (state.perform choice op).2.Sound fingerprintOf := by
  refine sound.perform quiet.proper choice ?_
  rintro fingerprint rfl
  exact quiet.elim

theorem Touches.perform (touches : Touches fingerprintOf fingerprint before state)
    (op : QueueOp) (quiet : Quiet op) (choice : QueueChoice) :
    Touches fingerprintOf fingerprint before (state.perform choice op).2 := by
  refine ⟨sound_of_quiet touches.sound quiet choice, ?_, ?_⟩
  · rw [QueueState.pending, perform_requests quiet]
    exact touches.pending
  · rw [perform_requests quiet]
    exact touches.grows

theorem Settles.perform (settles : Settles fingerprintOf fingerprint before state)
    (op : QueueOp) (quiet : Quiet op) (choice : QueueChoice) :
    Settles fingerprintOf fingerprint before (state.perform choice op).2 := by
  refine ⟨sound_of_quiet settles.sound quiet choice, ?_, ?_⟩
  · rw [QueueState.pending, perform_requests quiet]
    exact settles.pending
  · rw [perform_requests quiet]
    exact settles.grows

theorem Touches.recorded (touches : Touches fingerprintOf fingerprint before state) (number : Nat)
    (first second : QueueChoice) :
    Settles fingerprintOf fingerprint before
      ((state.perform first (.onRow fingerprint (.recordIssue number))).2.perform second
        (.onRow fingerprint (.recordOrigin number))).2 := by
  refine ⟨touches.sound.recorded fingerprint number first second, fun other member => ?_, ?_⟩
  · obtain ⟨waits, different⟩ := QueueState.pending_created member
    exact ⟨(touches.pending other waits).resolve_right different, different⟩
  · refine touches.grows.trans_eq ?_
    simp [QueueState.perform, QueueState.update]

end

/-! ## Calls that succeed -/

theorem yields_smooth {next : Option op.Value → Task queue HandoffResponse}
    {promise : Option HandoffResponse → QueueState → Prop} (continued : ∀ choice : QueueChoice,
      (next (some (state.perform choice op).1)).Yields smooth promise (state.perform choice op).2) :
    (Task.perform (I := queue) op next).Yields smooth promise state := by
  refine ⟨fun interrupted => interrupted.elim, fun choice reply after allowed answered => ?_⟩
  rcases queueWorld_answer answered with ⟨refused, _, _⟩ | ⟨lost, _, _⟩ | ⟨_, rfl, rfl⟩
  · exact absurd (refused.symm.trans allowed) (by decide)
  · exact absurd (lost.symm.trans allowed) (by decide)
  · exact continued choice

section

variable {before state : QueueState}

theorem smooth_notify (settles : Settles fingerprintOf fingerprint before state) (number : Nat) :
    (onRow fingerprint (notify number)).Yields smooth
      (fun _ => Settles fingerprintOf fingerprint before) state := by
  refine yields_smooth fun choice => yields_smooth fun again => ?_
  have later := (settles.perform (.onRow fingerprint (.notifyDiscord number)) trivial choice).perform
    (.onRow fingerprint (.sendEmail number)) trivial again
  cases sent : choice.messageId with
  | none =>
      simp only [QueueState.perform, sent]
      exact later
  | some messageId =>
      simp only [QueueState.perform, sent]
      exact yields_smooth fun last =>
        later.perform (.onRow fingerprint (.recordMessage number messageId)) trivial last

theorem smooth_recordAndNotify (touches : Touches fingerprintOf fingerprint before state)
    (issue : Issue) : (onRow fingerprint (recordAndNotify issue)).Yields smooth
      (fun _ => Settles fingerprintOf fingerprint before) state :=
  yields_smooth fun choice => yields_smooth fun again =>
    smooth_notify (touches.recorded issue.number choice again) issue.number

theorem smooth_postNewIssue (touches : Touches fingerprintOf fingerprint before state)
    (marker : String) : (onRow fingerprint (postNewIssue marker)).Yields smooth
      (fun _ => Settles fingerprintOf fingerprint before) state :=
  yields_smooth fun choice =>
    smooth_recordAndNotify (touches.perform (.onRow fingerprint (.postIssue marker)) trivial choice) _

theorem smooth_createIssue (touches : Touches fingerprintOf fingerprint before state)
    (marker : String) : (onRow fingerprint (createIssue marker)).Yields smooth
      (fun _ => Settles fingerprintOf fingerprint before) state := by
  refine yields_smooth fun choice => ?_
  have later := touches.perform (.onRow fingerprint .githubAppToken) trivial choice
  simp only [orElse]
  split
  · exact smooth_postNewIssue later marker
  · refine yields_smooth fun again => ?_
    have found := later.perform (.onRow fingerprint (.searchIssues marker)) trivial again
    simp only [orElse]
    split
    · next issue _ => exact smooth_recordAndNotify found issue
    · exact smooth_postNewIssue found marker

/-- A row that is not taken up again is not pending. -/
theorem smooth_resumeRequest (touches : Touches fingerprintOf fingerprint before state)
    {row : RequestRow} (found : state.find fingerprint = some row) :
    (onRow fingerprint (resumeRequest (some row.request))).Yields smooth
      (fun _ => Settles fingerprintOf fingerprint before) state := by
  obtain ⟨member, same⟩ := find_some found
  obtain ⟨⟨json, stored, given, _⟩, ⟨marker, marked, drawn⟩, progress⟩ := touches.sound.rows row member
  have payload : row.request.payloadJson.filter (· ≠ "") = some json := by
    simp [stored, given]
  have token : row.request.requestMarker.filter (· ≠ "") = some marker := by
    simp [marked, drawn]
  rw [resumeRequest]
  rcases progress with ⟨waits, unnumbered⟩ | ⟨created, number, named, _⟩
  · simp only [unnumbered, waits, payload, token]
    exact smooth_createIssue touches marker
  · simp only [named, created]
    refine ⟨touches.sound, fun other among => ?_, touches.grows⟩
    have different : other ≠ fingerprint := by
      rintro rfl
      obtain ⟨again, present, waits, also⟩ := QueueState.mem_pending.mp among
      have unique := touches.sound.find_of_mem present
      rw [also, found, Option.some.injEq] at unique
      subst unique
      rw [RequestRow.isPending, created] at waits
      cases waits
    exact ⟨(touches.pending other among).resolve_right different, different⟩

end

theorem smooth_handoffSubmission (sound : state.Sound fingerprintOf)
    {json marker : String} (given : json ≠ "") (printed : fingerprintOf json = fingerprint)
    (marked : marker ≠ "") :
    (onRow fingerprint (handoffSubmission json marker)).Yields smooth
      (fun _ => Settles fingerprintOf fingerprint state) state := by
  refine yields_smooth fun choice => ?_
  have proper : Proper fingerprintOf (.onRow fingerprint (.insertRequest json marker)) :=
    ⟨given, printed, marked⟩
  have later := sound.perform proper choice fun _ other => (by cases other)
  cases found : state.find fingerprint with
  | some row =>
      have still : Touches fingerprintOf fingerprint state state :=
        ⟨sound, fun _ member => .inl member, le_rfl⟩
      simp only [QueueState.perform, found, orElse, Bool.false_eq_true, if_false]
      refine yields_smooth fun again => ?_
      simp only [QueueState.perform, found, Option.map_some, orElse]
      exact smooth_resumeRequest still found
  | none =>
      simp only [QueueState.perform, found] at later
      simp only [QueueState.perform, found, orElse, if_true]
      refine smooth_createIssue ⟨later, fun other member => ?_, ?_⟩ marker
      · obtain ⟨row, among, waits, rfl⟩ := QueueState.mem_pending.mp member
        rcases List.mem_append.mp among with old | new
        · exact .inl (QueueState.mem_pending.mpr ⟨row, old, waits, rfl⟩)
        · rw [List.mem_singleton.mp new]
          exact .inr rfl
      · simp

/-! ## Rounds -/

/-- No row is newly pending, and none of those served is. -/
structure Advances (fingerprintOf : String → String) (served : List String)
    (before after : QueueState) : Prop where
  sound : after.Sound fingerprintOf
  pending : ∀ other ∈ after.pending, other ∈ before.pending ∧ other ∉ served
  grows : before.requests.length ≤ after.requests.length

theorem smooth_retryRows (markers : Nat → Marker)
    (sound : state.Sound fingerprintOf) {rows : List RequestRow}
    (payloads : ∀ row ∈ rows, ∃ json, row.request.payloadJson = some json ∧ json ≠ "" ∧
      fingerprintOf json = row.fingerprint) (index : Nat) :
    (retryRows fingerprintOf markers index (rows.map fun row => row.request.payloadJson)).Yields
      smooth (fun _ => Advances fingerprintOf (rows.map RequestRow.fingerprint) state) state := by
  induction rows generalizing state index with
  | nil => exact ⟨sound, fun _ member => ⟨member, List.not_mem_nil⟩, le_rfl⟩
  | cons row rest induction =>
      obtain ⟨json, stored, given, printed⟩ := payloads row List.mem_cons_self
      have first : (retryRow fingerprintOf (markers index) row.request.payloadJson).Yields smooth
          (fun _ => Settles fingerprintOf row.fingerprint state) state := by
        rw [stored]
        exact printed ▸ smooth_handoffSubmission sound given rfl (markers index).given
      refine (first.ended fun _ _ => id).bind ?_ fun _ killed => absurd rfl killed.1
      rintro result middle ⟨_, settles⟩
      have others := induction settles.sound
        (fun other member => payloads other (List.mem_cons_of_mem _ member)) (index + 1)
      refine others.weaken fun _ last advances => ⟨advances.sound, fun other member => ?_, ?_⟩
      · obtain ⟨waits, unserved⟩ := advances.pending other member
        obtain ⟨waited, different⟩ := settles.pending other waits
        exact ⟨waited, fun among => (List.mem_cons.mp among).elim different unserved⟩
      · exact settles.grows.trans advances.grows

theorem mem_oldestPending {row : RequestRow} (member : row ∈ state.oldestPending) :
    row ∈ state.requests ∧ row.isPending = true := by
  have among := (List.mem_insertionSort _).mp (List.mem_of_mem_take member)
  exact List.mem_filter.mp among

/-- A round settles ten rows, or all that are pending. -/
theorem smooth_retry (markers : Nat → Marker) (sound : state.Sound fingerprintOf) :
    (retryPendingSubmissions fingerprintOf markers).Yields smooth
      (fun _ => Advances fingerprintOf (state.oldestPending.map RequestRow.fingerprint) state)
      state := by
  refine yields_smooth fun choice => smooth_retryRows markers sound (fun row member => ?_) 0
  exact (sound.rows row (mem_oldestPending member).1).payload

theorem oldestPending_perm (state : QueueState) :
    ((state.requests.filter RequestRow.isPending).insertionSort fun first second =>
      first.updatedAt ≤ second.updatedAt).Perm (state.requests.filter RequestRow.isPending) :=
  List.perm_insertionSort _ _

theorem oldestPending_served (sound : state.Sound fingerprintOf) :
    (state.oldestPending.map RequestRow.fingerprint).Nodup ∧
      (state.oldestPending.map RequestRow.fingerprint).length = min 10 state.pending.length ∧
      state.oldestPending.map RequestRow.fingerprint ⊆ state.pending := by
  have sorted := oldestPending_perm state
  refine ⟨?_, ?_, ?_⟩
  · have distinct := (sorted.map RequestRow.fingerprint).nodup_iff.mpr sound.pending_nodup
    exact distinct.sublist ((List.take_sublist _ _).map _)
  · rw [List.length_map, QueueState.oldestPending, List.length_take, sorted.length_eq,
      QueueState.pending, List.length_map]
  · intro other member
    obtain ⟨row, among, rfl⟩ := List.mem_map.mp member
    obtain ⟨present, waits⟩ := mem_oldestPending among
    exact QueueState.mem_pending.mpr ⟨row, present, waits, rfl⟩

theorem Advances.fewer {before after : QueueState} {served : List String}
    (advances : Advances fingerprintOf served before after)
    (distinct : served.Nodup) (known : served ⊆ before.pending) :
    after.pending.length + served.length ≤ before.pending.length := by
  rw [← List.length_append]
  refine List.Nodup.length_le_of_subset ?_ ?_
  · refine List.nodup_append.mpr ⟨advances.sound.pending_nodup, distinct, ?_⟩
    rintro other member _ also rfl
    exact (advances.pending other member).2 also
  · exact List.append_subset.mpr ⟨fun other member => (advances.pending other member).1, known⟩

/-! ## The result -/

def QueueState.Recovered (state : QueueState) : Prop :=
  ∀ row ∈ state.requests, row.request.status ≠ .pending ∧
    ∃ number, row.request.issueNumber = some number ∧
      ∃ origin ∈ state.origins, origin.issueNumber = number

theorem QueueState.Sound.recovered (sound : state.Sound fingerprintOf)
    (none : state.pending = []) : state.Recovered := by
  intro row member
  have settled : row.request.status ≠ .pending := by
    intro waits
    have among : row.fingerprint ∈ state.pending :=
      QueueState.mem_pending.mpr ⟨row, member, decide_eq_true waits, rfl⟩
    rw [none] at among
    cases among
  obtain ⟨_, _, ⟨waits, _⟩ | ⟨_, numbered⟩⟩ := sound.rows row member
  · exact absurd waits settled
  · exact ⟨settled, numbered⟩

/-- Each round leaves ten pending rows less. -/
theorem pending_after {calls : List QueueCall} {last : QueueState}
    (sound : state.Sound fingerprintOf)
    (recovery : Conducts (queueCalls fingerprintOf) smooth state calls last) :
    last.Sound fingerprintOf ∧ state.requests.length ≤ last.requests.length ∧
      last.pending.length ≤ state.pending.length - 10 * calls.countP QueueCall.isRetry := by
  induction calls generalizing state with
  | nil =>
      rw [recovery.of_nil]
      exact ⟨sound, le_rfl, by simp⟩
  | cons call later induction =>
      obtain ⟨middle, result, conducted, conducts⟩ := recovery.of_cons
      cases call with
      | submit payload marker =>
          have settles := conducted.yields (smooth_handoffSubmission sound payload.given rfl marker.given)
          obtain ⟨ends, grows, fewer⟩ := induction settles.sound conducts
          have kept := settles.sound.pending_nodup.length_le_of_subset fun other member =>
            (settles.pending other member).1
          refine ⟨ends, settles.grows.trans grows, ?_⟩
          rw [List.countP_cons_of_neg Bool.false_ne_true]
          omega
      | retry markers =>
          have advances := conducted.yields (smooth_retry markers sound)
          obtain ⟨ends, grows, fewer⟩ := induction advances.sound conducts
          obtain ⟨distinct, length, known⟩ := oldestPending_served sound
          have less := advances.fewer distinct known
          refine ⟨ends, advances.grows.trans grows, ?_⟩
          rw [List.countP_cons_of_pos (by rfl)]
          omega

/-- After any recoverable history, as many successful rounds as ten rows each take for all
requests leave none pending, whatever else is submitted meanwhile. -/
theorem requests_recover (fingerprintOf : String → String) {earlier later : List QueueCall}
    {state last : QueueState}
    (history : Conducts (queueCalls fingerprintOf) recoverable {} earlier state)
    (recovery : Conducts (queueCalls fingerprintOf) smooth state later last)
    (rounds : last.requests.length ≤ 10 * later.countP QueueCall.isRetry) : last.Recovered := by
  obtain ⟨sound, grows, fewer⟩ := pending_after (sound_of_recoverable history) recovery
  refine sound.recovered (List.length_eq_zero_iff.mp ?_)
  have bounded : state.pending.length ≤ state.requests.length := by
    rw [QueueState.pending, List.length_map]
    exact List.length_filter_le _ _
  omega

/-! ## Runs -/

def request : Payload := ⟨"request", by decide⟩

def marker : Marker := ⟨"marker", by decide⟩

/-- A checkable form of `recoverable`. -/
def permitted (state : QueueState) (op : QueueOp) (choice : QueueChoice) : Bool :=
  match op with
  | .onRow _ (.recordIssue _) => choice.fate ≠ .lost
  | .onRow _ (.recordOrigin _) => choice.fate ≠ .refused
  | .onRow fingerprint .markPending =>
      choice.fate = .refused || (state.find fingerprint).all fun row => row.request.issueNumber.isNone
  | _ => true

theorem permitted_sound (state : QueueState) (op : QueueOp) (choice : QueueChoice)
    (permits : permitted state op choice = true) : recoverable.allows state op choice := by
  cases op with
  | selectPending => trivial
  | onRow fingerprint op =>
      cases op with
      | recordIssue number => exact of_decide_eq_true (p := choice.fate ≠ .lost) permits
      | recordOrigin number => exact of_decide_eq_true (p := choice.fate ≠ .refused) permits
      | markPending =>
          refine ((Bool.or_eq_true _ _).mp permits).imp of_decide_eq_true fun unnumbered row found => ?_
          rw [found, Option.all_some] at unnumbered
          exact Option.isNone_iff_eq_none.mp unnumbered
      | _ => trivial

/-- The issue is created, but the reply is lost: the next round finds it. -/
theorem requests_recover_lostReply : ∃ state last : QueueState,
    Conducts (queueCalls id) recoverable {} [.submit request marker] state ∧
      Conducts (queueCalls id) smooth state [.retry fun _ => marker] last ∧ last.Recovered := by
  let fine : QueueChoice := {}
  let lost : QueueChoice := { fate := .lost }
  obtain ⟨state, last, submitted, retried, one⟩ : ∃ state last : QueueState,
      ((queueCalls id).task (.submit request marker)).replay queueWorld permitted (fun _ _ => false) {}
          [fine, fine, fine, lost, fine] = some (some .failed, state) ∧
        ((queueCalls id).task (.retry fun _ => marker)).replay queueWorld
          (fun _ _ choice => decide (choice.fate = .replies)) (fun _ _ => false) state
          (List.replicate 9 fine) = some (some .idle, last) ∧
        last.requests.length = 1 := ⟨_, _, rfl, rfl, rfl⟩
  have history : Conducts (queueCalls id) recoverable {} [.submit request marker] state :=
    .single rfl (Task.conducted_of_replay permitted_sound
      (fun _ _ never => absurd never Bool.false_ne_true) submitted)
  have recovery : Conducts (queueCalls id) smooth state [.retry fun _ => marker] last :=
    .single rfl (Task.conducted_of_replay
      (fun _ _ choice => of_decide_eq_true (p := choice.fate = .replies))
      (fun _ _ never => absurd never Bool.false_ne_true) retried)
  exact ⟨state, last, history, recovery, requests_recover id history recovery (by rw [one]; decide)⟩

/-- Any call after the insert fails, or the call is killed. -/
def failing : Conditions queueWorld where
  allows _ op choice :=
    match op with
    | .onRow _ (.insertRequest _ _) => choice.fate = .replies
    | _ => True
  interrupts _ _ := True

def QueueOp.inserts : QueueOp → Bool
  | .onRow _ (.insertRequest _ _) => true
  | _ => false

/-- The origin is refused after the number was recorded: the row stays pending, and every
later call takes the recorded number for a duplicate. -/
theorem refused_origin_never_recovers : ¬ ∀ (fingerprintOf : String → String)
    (earlier later : List QueueCall) (state last : QueueState),
    Conducts (queueCalls fingerprintOf) failing {} earlier state →
      Conducts (queueCalls fingerprintOf) smooth state later last →
        last.requests.length ≤ 10 * later.countP QueueCall.isRetry → last.Recovered := by
  intro claimed
  let fine : QueueChoice := {}
  let refused : QueueChoice := { fate := .refused }
  let inserted : QueueState → QueueOp → QueueChoice → Bool := fun _ op choice =>
    !op.inserts || decide (choice.fate = .replies)
  obtain ⟨state, submitted, retried, one, stuck⟩ : ∃ state : QueueState,
      ((queueCalls id).task (.submit request marker)).replay queueWorld inserted (fun _ _ => false) {}
          [fine, fine, fine, fine, fine, refused, fine] = some (some .failed, state) ∧
        ((queueCalls id).task (.retry fun _ => marker)).replay queueWorld
          (fun _ _ choice => decide (choice.fate = .replies)) (fun _ _ => false) state
          [fine, fine, fine] = some (some .idle, state) ∧
        state.requests.length = 1 ∧ state.pending = ["request"] := ⟨_, rfl, rfl, rfl, rfl⟩
  have history : Conducts (queueCalls id) failing {} [.submit request marker] state := by
    refine .single rfl (Task.conducted_of_replay ?_ (fun _ _ _ => trivial) submitted)
    intro state op choice permits
    cases op with
    | selectPending => trivial
    | onRow fingerprint op =>
        cases op with
        | insertRequest json marker => exact of_decide_eq_true (p := choice.fate = .replies) permits
        | _ => trivial
  have round := Task.conducted_of_replay (C := smooth)
    (fun _ _ choice => of_decide_eq_true (p := choice.fate = .replies))
    (fun _ _ never => absurd never Bool.false_ne_true) retried
  have recovery : Conducts (queueCalls id) smooth state [.retry fun _ => marker, .retry fun _ => marker]
      state := (Conducts.single rfl round).append (.single rfl round)
  have recovered := claimed id _ _ state state history recovery (by rw [one]; decide)
  obtain ⟨row, member, waits, _⟩ := QueueState.mem_pending.mp (stuck ▸ List.mem_cons_self)
  exact (recovered row member).1 (of_decide_eq_true waits)

end CityPods.Intake.Queue
