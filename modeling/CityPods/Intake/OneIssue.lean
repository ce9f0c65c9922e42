import CityPods.Intake.Handoff

/-! # One issue per city request

Between its marker search and its post a call relies on the search's answer. As
long as no call searches while another one is there, the fingerprint gets at
most one issue.
-/

namespace CityPods.Intake

open Foundation Tasks

/-! ## Where a call stands -/

/-- The stored row carries this marker. -/
def IntakeState.Owns (state : IntakeState) (marker : String) : Prop :=
  marker ≠ "" ∧ ∃ request ∈ state.request, request.requestMarker = some marker

theorem IntakeState.Owns.unique {state : IntakeState} {marker other : String}
    (own : state.Owns marker) (also : state.Owns other) : marker = other := by
  obtain ⟨_, request, stored, named⟩ := own
  obtain ⟨_, second, present, called⟩ := also
  rw [Option.mem_def] at stored present
  rw [stored, Option.some.injEq] at present
  rw [present, called] at named
  exact (Option.some.inj named).symm

/-- Operations after which a call can no longer add or record an issue. -/
def Settling : IntakeOp → Prop
  | .recordOrigin _ => True
  | .notifyDiscord _ => True
  | .sendEmail _ => True
  | .recordMessage _ _ => True
  | .markPending => True
  | _ => False

inductive Stands (state : IntakeState) : Task intake HandoffResponse → Prop
  | round (payloadJson marker : String) (valid : marker ≠ "") :
      Stands state (retryPendingSubmissions payloadJson marker)
  | submit (payloadJson marker : String) (valid : marker ≠ "") :
      Stands state (handoffSubmission payloadJson marker)
  | select : Stands state (attempt .selectRequest resumeRequest)
  | token (marker : String) (own : state.Owns marker) : Stands state (createIssue marker)
  | search (marker : String) (own : state.Owns marker) : Stands state (findOrPost marker)
  | post (marker : String) (own : state.Owns marker) (none : state.issues = []) :
      Stands state (postNewIssue marker)
  | record (issue : Issue) (known : issue ∈ state.issues) : Stands state (recordAndNotify issue)
  | settled (task : Task intake HandoffResponse) (settling : task.OnlyAsks Settling) :
      Stands state task

/-- The call has searched in vain and posts next. -/
def AtPost (task : Task intake HandoffResponse) : Prop :=
  ∃ marker, task.asks = some (.postIssue marker)

variable {after : IntakeState}

theorem Stands.mono {before : IntakeState} {task : Task intake HandoffResponse}
    (stands : Stands before task) (owned : ∀ marker, before.Owns marker → after.Owns marker)
    (kept : ∀ issue ∈ before.issues, issue ∈ after.issues)
    (waiting : AtPost task → after.issues = before.issues) : Stands after task := by
  cases stands with
  | round payloadJson marker valid => exact .round payloadJson marker valid
  | submit payloadJson marker valid => exact .submit payloadJson marker valid
  | select => exact .select
  | token marker own => exact .token marker (owned marker own)
  | search marker own => exact .search marker (owned marker own)
  | post marker own none => exact .post marker (owned marker own) ((waiting ⟨marker, rfl⟩).trans none)
  | record issue known => exact .record issue (kept issue known)
  | settled task settling => exact .settled _ settling

/-! ## The tail of a call -/

theorem settling_orElse {caught : Task intake HandoffResponse} {rest : α → Task intake HandoffResponse}
    (thrown : caught.OnlyAsks Settling) (returned : ∀ value, (rest value).OnlyAsks Settling)
    (reply : Option α) : (orElse caught rest reply).OnlyAsks Settling := by
  cases reply with
  | none => exact thrown
  | some value => exact returned value

theorem settling_failed : handoffFailed.OnlyAsks Settling :=
  ⟨trivial, settling_orElse trivial fun _ => trivial⟩

variable {op : IntakeOp}

theorem settling_attempt {rest : op.Value → Task intake HandoffResponse}
    (permitted : Settling op) (returned : ∀ value, (rest value).OnlyAsks Settling) :
    (attempt op rest).OnlyAsks Settling :=
  ⟨permitted, settling_orElse settling_failed returned⟩

theorem settling_notify (number : Nat) : (notify number).OnlyAsks Settling := by
  refine ⟨trivial, fun discord => ⟨trivial, fun _ => ?_⟩⟩
  dsimp only
  split
  · exact settling_attempt trivial fun _ => trivial
  · trivial

/-! ## Operations -/

variable {state : IntakeState} {choice : IntakeChoice} {reply : Option op.Value}

/-- An operation takes effect or not; its reply is its value only if it did. -/
theorem intakeWorld_answer (answered : intakeWorld.answer state op choice = some (reply, after)) :
    (after = state ∨ after = (state.perform choice op).2) ∧
      ∀ value, reply = some value → value = (state.perform choice op).1 ∧
        after = (state.perform choice op).2 := by
  simp only [intakeWorld] at answered
  split at answered
  all_goals
    simp only [Option.some.injEq, Prod.mk.injEq] at answered
    obtain ⟨rfl, rfl⟩ := answered
  · exact ⟨.inr rfl, fun value same => ⟨(Option.some.inj same).symm, rfl⟩⟩
  · exact ⟨.inl rfl, fun value same => (by cases same)⟩
  · exact ⟨.inr rfl, fun value same => (by cases same)⟩

theorem perform_owns (state : IntakeState) (choice : IntakeChoice) (op : IntakeOp)
    {marker : String} (own : state.Owns marker) : (state.perform choice op).2.Owns marker := by
  obtain ⟨valid, request, stored, named⟩ := own
  rw [Option.mem_def] at stored
  refine ⟨valid, ?_⟩
  cases op with
  | insertRequest payloadJson other =>
      simp only [IntakeState.perform, stored]
      exact ⟨request, rfl, named⟩
  | recordIssue number =>
      simp only [IntakeState.perform, stored, Option.map_some]
      exact ⟨_, rfl, named⟩
  | markPending =>
      simp only [IntakeState.perform, stored, Option.map_some]
      exact ⟨_, rfl, named⟩
  | _ => exact ⟨request, stored, named⟩

theorem perform_issues (state : IntakeState) (choice : IntakeChoice)
    (other : ∀ marker, op ≠ .postIssue marker) :
    (state.perform choice op).2.issues = state.issues := by
  cases op with
  | postIssue marker => exact absurd rfl (other marker)
  | insertRequest payloadJson marker =>
      simp only [IntakeState.perform]
      split <;> rfl
  | _ => rfl

theorem perform_numbers (state : IntakeState) (choice : IntakeChoice)
    (other : ∀ number, op ≠ .recordIssue number) {request : CityRequest}
    (stored : request ∈ (state.perform choice op).2.request) {number : Nat}
    (recorded : request.issueNumber = some number) :
    ∃ before ∈ state.request, before.issueNumber = some number := by
  rw [Option.mem_def] at stored
  cases op with
  | recordIssue number => exact absurd rfl (other number)
  | insertRequest payloadJson marker =>
      simp only [IntakeState.perform] at stored
      split at stored
      · exact ⟨request, stored, recorded⟩
      · simp only [Option.some.injEq] at stored
        rw [← stored] at recorded
        cases recorded
  | markPending =>
      obtain ⟨before, present, rfl⟩ := Option.map_eq_some_iff.mp stored
      exact ⟨before, present, recorded⟩
  | _ => exact ⟨request, stored, recorded⟩

/-! ## The invariant -/

structure Coherent (config : Config intakeCalls) : Prop where
  stands : ∀ worker ∈ config.workers, Stands config.state worker.task
  onePost : ∀ (index other : Nat) (worker second : Worker intakeCalls), config.workers[index]? = some worker →
    config.workers[other]? = some second → AtPost worker.task → AtPost second.task → index = other
  oneIssue : config.state.issues.length ≤ 1
  markers : ∀ issue ∈ config.state.issues, config.state.Owns issue.marker
  recorded : ∀ request ∈ config.state.request, ∀ number, request.issueNumber = some number →
    ∃ issue ∈ config.state.issues, issue.number = number

/-- Nobody searches while a call that has searched in vain is yet to post. -/
def SearchesAlone (config : Config intakeCalls) : Event intakeCalls → Prop
  | .run index _ => ∀ worker marker, config.workers[index]? = some worker →
      worker.task.asks = some (.searchIssues marker) →
        ∀ other ∈ config.workers, ¬ AtPost other.task
  | _ => True

theorem resumeRequest_stands :
    Stands state (resumeRequest state.request) ∧ ¬ AtPost (resumeRequest state.request) := by
  cases stored : state.request with
  | none => exact ⟨.settled _ trivial, fun ⟨_, asked⟩ => (by cases asked)⟩
  | some existing =>
      unfold resumeRequest
      dsimp only
      split
      · next payloadJson marker _ _ _ named =>
        have known := Option.filter_eq_some_iff.mp named
        exact ⟨.token marker ⟨by simpa using known.2, existing, stored, known.1⟩,
          fun ⟨_, asked⟩ => (by cases asked)⟩
      · exact ⟨.settled _ trivial, fun ⟨_, asked⟩ => (by cases asked)⟩

variable {next : Option op.Value → Task intake HandoffResponse}

/-- One operation of a call: where it stands afterwards, and what it may have done. -/
theorem Stands.run (stands : Stands state (.perform op next))
    (markers : ∀ issue ∈ state.issues, state.Owns issue.marker)
    (answered : intakeWorld.answer state op choice = some (reply, after)) :
    Stands after (next reply) ∧
      (AtPost (next reply) → ∃ marker, op = .searchIssues marker) ∧
      (∀ marker, op = .postIssue marker → state.issues = [] ∧ state.Owns marker) ∧
      ∀ number, op = .recordIssue number → ∃ issue ∈ state.issues, issue.number = number := by
  obtain ⟨_, valued⟩ := intakeWorld_answer answered
  have failed : Stands after handoffFailed := .settled _ settling_failed
  have calm : ¬ AtPost handoffFailed := fun ⟨_, asked⟩ => (by cases asked)
  have finished : ∀ response, Stands after (.done response) := fun response => .settled _ trivial
  have ended : ∀ response, ¬ AtPost (.done response : Task intake HandoffResponse) :=
    fun response ⟨_, asked⟩ => (by cases asked)
  generalize same : Task.perform (I := intake) op next = task at stands
  cases stands with
  | round payloadJson marker valid =>
      cases same
      refine ⟨?_, ?_, fun _ other => (by cases other), fun _ other => (by cases other)⟩
      · cases reply with
        | none => exact finished _
        | some included =>
            cases included with
            | false => exact finished _
            | true => exact .submit payloadJson marker valid
      · intro posts
        cases reply with
        | none => exact absurd posts (ended _)
        | some included =>
            obtain ⟨_, asked⟩ := posts
            cases included <;> cases asked
  | submit payloadJson marker valid =>
      cases same
      refine ⟨?_, ?_, fun _ other => (by cases other), fun _ other => (by cases other)⟩
      · cases reply with
        | none => exact failed
        | some changed =>
            cases changed with
            | false => exact .select
            | true =>
                obtain ⟨value, rfl⟩ := valued true rfl
                refine .token marker ⟨valid, ?_⟩
                simp only [IntakeState.perform] at value ⊢
                split at value
                · cases value
                · exact ⟨_, rfl, rfl⟩
      · intro posts
        cases reply with
        | none => exact absurd posts calm
        | some changed =>
            obtain ⟨_, asked⟩ := posts
            cases changed <;> cases asked
  | select =>
      cases same
      refine ⟨?_, ?_, fun _ other => (by cases other), fun _ other => (by cases other)⟩
      · cases reply with
        | none => exact failed
        | some row =>
            obtain ⟨rfl, rfl⟩ := valued row rfl
            exact resumeRequest_stands.1
      · intro posts
        cases reply with
        | none => exact absurd posts calm
        | some row =>
            obtain ⟨rfl, rfl⟩ := valued row rfl
            exact absurd posts resumeRequest_stands.2
  | token marker own =>
      cases same
      refine ⟨?_, ?_, fun _ other => (by cases other), fun _ other => (by cases other)⟩
      · cases reply with
        | none => exact failed
        | some value =>
            obtain ⟨_, rfl⟩ := valued value rfl
            rw [orElse, if_neg own.1]
            exact .search marker own
      · intro posts
        cases reply with
        | none => exact absurd posts calm
        | some value =>
            rw [orElse, if_neg own.1] at posts
            obtain ⟨_, asked⟩ := posts
            cases asked
  | search marker own =>
      cases same
      refine ⟨?_, fun _ => ⟨marker, rfl⟩, fun _ other => (by cases other),
        fun _ other => (by cases other)⟩
      cases reply with
      | none => exact failed
      | some found =>
          obtain ⟨value, rfl⟩ := valued found rfl
          cases found with
          | some issue => exact .record issue (List.mem_of_find?_eq_some value.symm)
          | none =>
              -- every issue carries the row's marker, so none was found because there is none
              refine .post marker own (List.eq_nil_iff_forall_not_mem.mpr fun issue member => ?_)
              have missed := List.find?_eq_none.mp value.symm issue member
              exact missed (decide_eq_true ((markers issue member).unique own))
  | post marker own empty =>
      cases same
      refine ⟨?_, ?_, fun _ same => ?_, fun _ other => (by cases other)⟩
      · cases reply with
        | none => exact failed
        | some issue =>
            obtain ⟨rfl, rfl⟩ := valued issue rfl
            exact .record _ (by simp [IntakeState.perform])
      · intro posts
        cases reply with
        | none => exact absurd posts calm
        | some issue =>
            obtain ⟨_, asked⟩ := posts
            cases asked
      · cases same
        exact ⟨empty, own⟩
  | record issue known =>
      cases same
      have later : ∀ _ : Unit,
          (attempt (.recordOrigin issue.number) fun _ => notify issue.number).OnlyAsks Settling :=
        fun _ => settling_attempt trivial fun _ => settling_notify issue.number
      refine ⟨.settled _ (settling_orElse settling_failed later reply), ?_, fun _ other => (by cases other), fun _ same => ?_⟩
      · rintro ⟨_, asked⟩
        cases reply <;> cases asked
      · cases same
        exact ⟨issue, known, rfl⟩
  | settled task settling =>
      subst same
      refine ⟨.settled _ (settling.2 reply), ?_, ?_, ?_⟩
      · rintro ⟨marker, asked⟩
        have rest := settling.2 reply
        cases later : next reply with
        | done result => rw [later] at asked; cases asked
        | perform second following =>
            rw [later] at asked rest
            cases asked
            exact rest.1.elim
      · rintro marker rfl
        exact settling.1.elim
      · rintro number rfl
        exact settling.1.elim

variable {call : IntakeCall}

theorem Stands.start (state : IntakeState) (permitted : intakeCalls.mayStart state call = true) :
    Stands state (intakeCalls.task call) ∧ ¬ AtPost (intakeCalls.task call) := by
  cases call with
  | submit payloadJson marker =>
      exact ⟨.submit payloadJson marker (of_decide_eq_true permitted),
        fun ⟨_, asked⟩ => (by cases asked)⟩
  | retry payloadJson marker =>
      exact ⟨.round payloadJson marker (of_decide_eq_true permitted),
        fun ⟨_, asked⟩ => (by cases asked)⟩

variable {config : Config intakeCalls}

/-- Creating an issue needs a call that posts, and it is the first. -/
theorem Coherent.run (coherent : Coherent config) {index : Nat}
    (present : config.workers[index]? = some ⟨call, .perform op next⟩)
    (answered : intakeWorld.answer config.state op choice = some (reply, after))
    (alone : SearchesAlone config (.run index choice)) :
    Coherent (config.resume index ⟨call, next reply⟩ after) := by
  have member : (⟨call, .perform op next⟩ : Worker intakeCalls) ∈ config.workers :=
    List.mem_of_getElem? present
  obtain ⟨stands, waits, posts, records⟩ :=
    (coherent.stands _ member).run coherent.markers answered
  obtain ⟨effect, _⟩ := intakeWorld_answer answered
  have owned : ∀ marker, config.state.Owns marker → after.Owns marker := by
    intro marker own
    rcases effect with rfl | rfl
    · exact own
    · exact perform_owns _ _ _ own
  have issues : after.issues = config.state.issues ∨
      ∃ marker number, op = .postIssue marker ∧ after.issues = [⟨number, marker⟩] := by
    rcases effect with rfl | rfl
    · exact .inl rfl
    · by_cases posting : ∃ marker, op = .postIssue marker
      · obtain ⟨marker, rfl⟩ := posting
        refine .inr ⟨marker, config.state.nextNumber, rfl, ?_⟩
        simp only [IntakeState.perform, (posts marker rfl).1, List.nil_append]
      · exact .inl (perform_issues _ _ fun marker same => posting ⟨marker, same⟩)
  have kept : ∀ issue ∈ config.state.issues, issue ∈ after.issues := by
    rcases issues with same | ⟨marker, _, rfl, _⟩
    · exact fun issue member => same ▸ member
    · rw [(posts marker rfl).1]
      exact fun _ member => absurd member List.not_mem_nil
  -- a call that is about to post is the only one, so nobody else posts now
  have waiting : ∀ other worker, other ≠ index → config.workers[other]? = some worker →
      AtPost worker.task → after.issues = config.state.issues := by
    intro other worker different there posting
    rcases issues with same | ⟨marker, _, rfl, _⟩
    · exact same
    · exact absurd (coherent.onePost other index _ _ there present posting ⟨marker, rfl⟩) different
  refine ⟨?_, ?_, ?_, ?_, ?_⟩
  · intro worker among
    rcases mem_resume among with rfl | ⟨other, different, there⟩
    · exact stands
    · exact (coherent.stands worker (List.mem_of_getElem? there)).mono owned kept
        (waiting other worker different there)
  · intro first second worker another here there posting also
    simp only [Tasks.Config.resume, List.getElem?_set] at here there
    have others : ∀ (other : Nat) (worker : Worker intakeCalls), AtPost (next reply) →
        config.workers[other]? = some worker → ¬ AtPost worker.task := by
      intro other worker moved among
      obtain ⟨marker, rfl⟩ := waits moved
      exact alone _ marker present rfl worker (List.mem_of_getElem? among)
    split at here
    · next firstHere =>
      split at there
      · next secondHere => exact firstHere.symm.trans secondHere
      · split at here
        · cases here
          exact absurd also (others second another posting there)
        · cases here
    · split at there
      · split at there
        · cases there
          exact absurd posting (others first worker also here)
        · cases there
      · exact coherent.onePost first second worker another here there posting also
  · rcases issues with same | ⟨_, _, _, one⟩
    · exact same ▸ coherent.oneIssue
    · exact Nat.le_of_eq (congrArg List.length one)
  · intro issue among
    rcases issues with same | ⟨marker, number, rfl, one⟩
    · exact owned _ (coherent.markers issue (same ▸ among))
    · rw [show (config.resume index ⟨call, next reply⟩ after).state.issues = _ from one,
        List.mem_singleton] at among
      exact among ▸ owned _ (posts marker rfl).2
  · intro request stored number recorded
    by_cases recording : ∃ issue, op = .recordIssue issue
    · obtain ⟨issue, rfl⟩ := recording
      obtain ⟨known, among, same⟩ := records issue rfl
      rcases effect with rfl | rfl
      · exact coherent.recorded request stored number recorded
      · obtain ⟨before, _, rfl⟩ := Option.map_eq_some_iff.mp stored
        cases recorded
        exact ⟨known, kept known among, same⟩
    · have before : ∃ before ∈ config.state.request, before.issueNumber = some number := by
        rcases effect with rfl | rfl
        · exact ⟨request, stored, recorded⟩
        · exact perform_numbers _ _ (fun issue same => recording ⟨issue, same⟩) stored recorded
      obtain ⟨previous, held, same⟩ := before
      obtain ⟨issue, among, named⟩ := coherent.recorded previous held number same
      exact ⟨issue, kept issue among, named⟩

variable {event : Event intakeCalls}

theorem Coherent.moves {after : Config intakeCalls}
    (coherent : Coherent config) (alone : SearchesAlone config event)
    (moved : config.Moves event after) : Coherent after := by
  cases moved with
  | drift choice state drifted =>
      cases drifted
      refine { coherent with stands := fun worker member => ?_ }
      exact (coherent.stands worker member).mono (fun _ own => own) (fun _ known => known)
        fun _ => rfl
  | start call permitted =>
      obtain ⟨stands, calm⟩ := Stands.start config.state permitted
      have new : ∀ (index : Nat) (worker : Worker intakeCalls),
          (config.workers ++ [⟨call, intakeCalls.task call⟩])[index]? = some worker →
            AtPost worker.task → config.workers[index]? = some worker := by
        intro index worker found posting
        rw [List.getElem?_append] at found
        split at found
        · exact found
        · have same := List.mem_singleton.mp (List.mem_of_getElem? found)
          rw [same] at posting
          exact absurd posting calm
      refine { coherent with stands := fun worker member => ?_, onePost := ?_ }
      · rcases List.mem_append.mp member with before | last
        · exact coherent.stands worker before
        · rw [List.mem_singleton.mp last]
          exact stands
      · intro index other worker second here there posting also
        exact coherent.onePost index other worker second (new index worker here posting)
          (new other second there also) posting also
  | run index choice call op next present reply state answered =>
      exact coherent.run present answered alone
  | kill index =>
      refine { coherent with stands := fun worker member => ?_, onePost := ?_ }
      · exact coherent.stands worker (List.mem_of_mem_eraseIdx member)
      · intro first second worker another here there posting also
        simp only [List.getElem?_eraseIdx] at here there
        split at here <;> split at there
        all_goals
          have same := coherent.onePost _ _ worker another here there posting also
          omega

/-! ## The result -/

def intakeStart : Config intakeCalls := ⟨{}, []⟩

/-- Where no call searches while another one is about to post, the fingerprint has
at most one issue, and a recorded number is that issue's. -/
theorem one_issue_per_request {config : Config intakeCalls}
    (run : Run SearchesAlone intakeStart config) :
    config.state.issues.length ≤ 1 ∧ ∀ request ∈ config.state.request, ∀ number,
      request.issueNumber = some number → ∃ issue ∈ config.state.issues, issue.number = number := by
  have coherent : Coherent config := by
    refine run.invariant Coherent ?_ fun _ _ _ coherent alone moved => coherent.moves alone moved
    exact
      { stands := fun _ member => absurd member List.not_mem_nil
        onePost := fun _ _ _ _ here => (by cases here)
        oneIssue := Nat.zero_le 1
        markers := fun _ member => absurd member List.not_mem_nil
        recorded := fun _ stored => (by cases stored) }
  exact ⟨coherent.oneIssue, coherent.recorded⟩

/-- A post, killed after its issue was created, and a round of the retry. -/
def killedThenRetried : List (Event intakeCalls) :=
  [.start (.submit "request" "first"), .run 0 {}, .run 0 {}, .run 0 {}, .run 0 {}, .kill 0,
    .start (.retry "request" "second"), .run 0 {}, .run 0 {}, .run 0 {}, .run 0 {}, .run 0 {},
    .run 0 {}]

/-- A checkable form of `SearchesAlone`: at a search nobody is about to post. -/
def searchesAlone (config : Config intakeCalls) : Event intakeCalls → Bool
  | .run index _ =>
      match (config.workers[index]?).bind fun worker => worker.task.asks with
      | some (.searchIssues _) => config.workers.all fun other =>
          match other.task.asks with
          | some (.postIssue _) => false
          | _ => true
      | _ => true
  | _ => true

theorem searchesAlone_sound
    (alone : searchesAlone config event = true) : SearchesAlone config event := by
  cases event with
  | run index choice =>
      intro worker marker present asked other member
      simp only [searchesAlone, present, Option.bind_some, asked] at alone
      have calm := List.all_eq_true.mp alone other member
      rintro ⟨posted, asks⟩
      rw [show other.task.asks = some (.postIssue posted) from asks] at calm
      cases calm
  | _ => trivial

theorem one_issue_per_request_retried : ∃ config, Run SearchesAlone intakeStart config ∧
    config.state.issues.length ≤ 1 ∧ ∀ request ∈ config.state.request, ∀ number,
      request.issueNumber = some number → ∃ issue ∈ config.state.issues, issue.number = number := by
  obtain ⟨config, executed⟩ :
      ∃ config, intakeStart.execute searchesAlone killedThenRetried = some config := ⟨_, rfl⟩
  have run : Run SearchesAlone intakeStart config :=
    (Run.of_execute executed).weaken fun _ _ alone => searchesAlone_sound alone
  exact ⟨config, run, one_issue_per_request run⟩

/-- Two posts of one form: both search before either posts. -/
def doubledPost : List (Event intakeCalls) :=
  [.start (.submit "request" "first"), .start (.submit "request" "second"), .run 0 {}, .run 1 {},
    .run 1 {}, .run 0 {}, .run 0 {}, .run 1 {}, .run 1 {}, .run 0 {}, .run 1 {}]

theorem doubled_issue : ¬ ∀ config : Config intakeCalls, Reachable intakeStart config →
    config.state.issues.length ≤ 1 := by
  intro claimed
  obtain ⟨config, executed, doubled⟩ : ∃ config,
      intakeStart.execute (fun _ _ => true) doubledPost = some config ∧
        config.state.issues.length = 2 := ⟨_, rfl, rfl⟩
  have one := claimed config (Reachable.of_execute executed)
  omega

end CityPods.Intake
