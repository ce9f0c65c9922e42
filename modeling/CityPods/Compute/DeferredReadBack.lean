import CityPods.Compute.DeferredFencing
import CityPods.Compute.DeferredRecords

/-! # Records are read back

Which results and handles are read back as they were written, and which results
are removed by the caller that wrote them.
-/

namespace CityPods.Compute

open Foundation
open Foundation.LockedRecords (Returns)

namespace Deferred

/-! ## Policies -/

section

variable {settings : Settings}

theorem mapM_asStr (values : List String) :
    (PyVal.jsonRoundTripAll (values.map .str)).mapM PyVal.asStr? = some values := by
  induction values with
  | nil => rfl
  | cons value rest induction =>
      rw [List.map_cons, PyVal.jsonRoundTripAll, List.mapM_cons, induction]
      rfl

theorem readNames_names (values : List String) :
    readNames (names values).jsonRoundTrip = some values :=
  mapM_asStr values

theorem readOptionalNames_names (values : Option (List String)) :
    readOptionalNames (some (optionalNames values).jsonRoundTrip) = some values := by
  cases values with
  | none => rfl
  | some values =>
      show (readNames (names values).jsonRoundTrip).map some = _
      rw [readNames_names]
      rfl

theorem natural?_natCast (n : Nat) : natural? (.num (n : ℚ)) = some n := by
  simp [natural?]

theorem readThreshold_number (threshold : Option Nat) :
    readThreshold (some (number (threshold.map fun value : Nat => (value : ℚ)))) = some threshold := by
  cases threshold with
  | none => rfl
  | some value =>
      show (natural? (.num (value : ℚ))).map some = _
      rw [natural?_natCast]
      rfl

theorem readPriority_num (priority : Fin 2) :
    readPriority (some (.num ((priority : Nat) : ℚ))) = some priority := by
  unfold readPriority
  dsimp only
  rw [natural?_natCast]
  obtain ⟨_ | _ | beyond, bound⟩ := priority
  · rfl
  · rfl
  · omega

theorem readTimeoutClass_text (timeoutClass : TimeoutClass) :
    readTimeoutClass (some (.str timeoutClass.text)) = some timeoutClass := by
  cases timeoutClass <;> decide

/-- The reader of instants takes back what their writer writes. -/
structure Settings.Reads (settings : Settings) (instant : Int) : Prop where
  back : settings.fromisoformat (settings.isoformat instant) = some instant
  nonempty : settings.isoformat instant ≠ ""

theorem readDeadline_text {deadline : Option Int}
    (reads : ∀ instant ∈ deadline, settings.Reads instant) :
    readDeadline settings (some (text (deadline.map settings.isoformat))) = some deadline := by
  cases deadline with
  | none => rfl
  | some instant =>
      have truthy : (text (some (settings.isoformat instant))).truthy = true := by
        simpa [text, PyVal.truthy] using (reads instant rfl).nonempty
      unfold readDeadline
      rw [Option.map_some]
      dsimp only
      rw [if_pos truthy]
      show ((settings.fromisoformat (settings.isoformat instant)).map some) = _
      rw [(reads instant rfl).back]
      rfl

theorem jsonRoundTrip_text (value : Option String) : (text value).jsonRoundTrip = text value := by
  cases value <;> rfl

theorem jsonRoundTrip_number (value : Option ℚ) : (number value).jsonRoundTrip = number value := by
  cases value <;> rfl

theorem deserializePolicy_serializePolicy {policy : LLMRequestPolicy}
    (reads : ∀ instant ∈ policy.deadlineAt, settings.Reads instant) :
    deserializePolicy settings (serializePolicy settings policy).jsonRoundTrip = some policy := by
  have filtered (entries : Dict String PyVal) (fields : Dict.keys entries = policyFields) :
      policyValues (.dict entries) = some entries := by
    refine congrArg some (List.filter_eq_self.mpr fun entry member => ?_)
    rw [decide_eq_true_iff, ← fields]
    exact List.mem_map_of_mem member
  obtain ⟨entries, listed, fields⟩ : ∃ entries,
      (serializePolicy settings policy).jsonRoundTrip = .dict entries ∧
        Dict.keys entries = policyFields := ⟨_, rfl, rfl⟩
  have found (name : String) (value : PyVal)
      (at_ : field (serializePolicy settings policy).jsonRoundTrip name = value)
      (known : name ∈ policyFields) : Dict.get? entries name = some value := by
    rw [← fields, ← Dict.get?_isSome_iff_mem_keys] at known
    rw [listed] at at_
    cases read : Dict.get? entries name with
    | none => simp [read] at known
    | some stored => exact congrArg some (by simpa [field, read] using at_)
  unfold deserializePolicy
  rw [listed, filtered entries fields, Option.bind_eq_bind, Option.bind_some,
    found "allowed_models" (optionalNames policy.allowedModels).jsonRoundTrip rfl (by decide),
    found "backup_models" (names policy.backupModels).jsonRoundTrip rfl (by decide),
    found "allowed_route_ids" (optionalNames policy.allowedRouteIds).jsonRoundTrip rfl (by decide),
    found "allow_paid" (.bool policy.allowPaid) rfl (by decide),
    found "allow_experimental" (.bool policy.allowExperimental) rfl (by decide),
    found "require_direct" (.bool policy.requireDirect) rfl (by decide),
    found "submit_next" (.bool policy.submitNext) rfl (by decide),
    found "allow_batch" (.bool policy.allowBatch) rfl (by decide),
    found "allow_dispatch_overflow" (.bool policy.allowDispatchOverflow) rfl (by decide),
    found "queue_only" (.bool policy.queueOnly) rfl (by decide),
    found "priority" (.num (policy.priority : Nat)) rfl (by decide),
    found "backup_after_attempts" _ (jsonRoundTrip_number _) (by decide),
    found "timeout_class" (.str policy.timeoutClass.text) rfl (by decide),
    found "purpose" (.str policy.purpose) rfl (by decide),
    found "deadline_at" _ (jsonRoundTrip_text _) (by decide), readBackups, readNames_names,
    readOptionalNames_names, readOptionalNames_names, readPriority_num, readThreshold_number,
    readTimeoutClass_text, readDeadline_text reads]
  rfl

end

/-! ## Jobs -/

inductive Written
  | result (result : JobResult)
  | handle (handle : JobHandle) (request : Option DeferredLLMRequest)

section

variable (settings : Settings)

/-- The job as its record holds it once it has been written and read. -/
def Written.job : Written → Job
  | .result outcome => .result { outcome with output := outcome.output.jsonRoundTrip }
  | .handle sent request =>
      .handle { sent with deferredRequest := request.map (·.capsule settings) }

end

def Written.value : Written → Value
  | .result outcome => .result {
      task := .str outcome.task
      recipeHash := .str outcome.recipeHash
      output := outcome.output
      model := text outcome.model
      routeId := text outcome.routeId
      upstreamModel := text outcome.upstreamModel
      reasoningLevel := text outcome.reasoningLevel
      requestParamsHash := text outcome.requestParamsHash
      providerAttempts := number (outcome.providerAttempts.map fun count : Int => (count : ℚ)) }
  | .handle sent request => .handle {
      task := .str sent.task
      recipeHash := .str sent.recipeHash
      backend := .str sent.backend
      ref := .str sent.ref
      structuredOutput := text sent.structuredOutput
      model := text sent.model
      routeId := text sent.routeId
      owner := text sent.owner
      inputPerToken := number sent.inputPerToken
      outputPerToken := number sent.outputPerToken
      attemptedRequests := number (sent.attemptedRequests.map fun count : Int => (count : ℚ))
      deferredRequest := request }

def Written.deadline : Written → Option Int
  | .handle _ (some request) => request.policy.deadlineAt
  | _ => none

/-- What a JSON reader yields. -/
def IsJson (value : PyVal) : Prop := value.jsonRoundTrip = value

def Written.IsJson : Written → Prop
  | .result outcome => Deferred.IsJson outcome.output
  | .handle _ request => ∀ deferred ∈ request, ∀ message ∈ deferred.messages, Deferred.IsJson message

def Written.Contracted : Written → Prop
  | .result _ => True
  | .handle sent _ => sent.task = "moment-extraction" → (text sent.structuredOutput).truthy = true

/-- A result has none of the attributes that its record leaves out; a handle has
the counts and modes that its reader accepts. -/
def Written.Kept : Written → Prop
  | .result outcome =>
      outcome.routeId = none ∧ outcome.upstreamModel = none ∧ outcome.reasoningLevel = none ∧
        outcome.requestParamsHash = none ∧ outcome.providerAttempts = none
  | .handle sent request =>
      (∀ count ∈ sent.attemptedRequests, 0 ≤ count) ∧
        ∀ deferred ∈ request, 0 ≤ deferred.metadataVersion ∧ 0 < deferred.outputTokenBudget ∧
          ∀ mode ∈ deferred.maxTokensMode, mode = "route_max"

/-! ## Reading a new record -/

section

variable {settings : Settings}

/-- Beside its two stamps, a first record holds what it was made of. -/
theorem nextRecord_first (job : Job) (clock : Int) (recovery : Option PyVal) :
    ∃ entries, nextRecord settings .none job clock recovery = .dict entries ∧
      ∀ name, name ≠ "created_at" → name ≠ "recovery_context" →
        Dict.get? entries name = Dict.get? (recordFor job) name := by
  refine ⟨_, rfl, fun name notCreated notRecovery => ?_⟩
  rw [Dict.get?_set_other _ _ notCreated]
  cases job with
  | result result => rfl
  | handle handle =>
      cases recovery with
      | none => rfl
      | some context => exact Dict.get?_set_other _ _ notRecovery

theorem natural?_intCast (n : Int) :
    natural? (.num (n : ℚ)) = if 0 ≤ n then some n.toNat else none := by
  simp [natural?]

def DeferredLLMRequest.read (request : DeferredLLMRequest) : DeferredLLMRequest :=
  { request with
    outputTokenBudget := if 0 < request.outputTokenBudget then request.outputTokenBudget else 1024
    maxTokensMode := if request.maxTokensMode = some "route_max" then some "route_max" else none }

def readRequest : Option DeferredLLMRequest → Option (Option DeferredLLMRequest)
  | none => some none
  | some request => if 0 ≤ request.metadataVersion then some (some request.read) else none

variable {request : DeferredLLMRequest}

theorem decodeRequest_capsule {record : Dict String PyVal}
    (reads : ∀ instant ∈ request.policy.deadlineAt, settings.Reads instant)
    (json : ∀ message ∈ request.messages, IsJson message) (messages : Dict.get? record "messages" =
      some (.list (request.messages.map PyVal.jsonRoundTrip)))
    (policy : Dict.get? record "policy" =
      some (serializePolicy settings request.policy).jsonRoundTrip)
    (budget : Dict.get? record "output_token_budget" =
      some (.num (request.outputTokenBudget : ℚ)))
    (version : Dict.get? record "request_metadata_version" =
      some (.num (request.metadataVersion : ℚ)))
    (timeout : Dict.get? record "timeout" = request.timeout.map .num)
    (mode : Dict.get? record "max_tokens_mode" = request.maxTokensMode.map .str) :
    decodeRequest settings record = readRequest (some request) := by
  have unchanged : request.messages.map PyVal.jsonRoundTrip = request.messages :=
    (List.map_congr_left json).trans (List.map_id _)
  unfold decodeRequest readRequest
  rw [messages, policy, budget, version, timeout, mode]
  simp only [Option.getD_some, natural?_intCast, unchanged, elementsOf,
    deserializePolicy_serializePolicy reads]
  split
  · next valid =>
      simp only [Option.bind_eq_bind, Option.bind_some, Option.pure_def, Option.some.injEq]
      unfold DeferredLLMRequest.read
      congr 1
      · by_cases valued : 0 ≤ request.outputTokenBudget
        · have positive : 0 < request.outputTokenBudget.toNat ↔ 0 < request.outputTokenBudget := by
            omega
          simp only [if_pos valued, positive, Int.toNat_of_nonneg valued]
        · rw [if_neg valued, if_neg (by omega)]
      · cases request.timeout <;> rfl
      · cases request.maxTokensMode <;> simp
      · exact Int.toNat_of_nonneg valid
  · rfl

theorem DeferredLLMRequest.read_eq_iff :
    request.read = request ↔ 0 < request.outputTokenBudget ∧
      ∀ mode ∈ request.maxTokensMode, mode = "route_max" := by
  obtain ⟨messages, policy, budget, timeout, mode, version⟩ := request
  simp only [DeferredLLMRequest.read, DeferredLLMRequest.mk.injEq, true_and, and_true]
  refine and_congr ?_ ?_
  · split <;> omega
  · cases mode with
    | none => simp
    | some mode => simp [eq_comm]

theorem none_eq_text_iff {value : Option String} : PyVal.none = text value ↔ value = none := by
  cases value <;> simp [text]

theorem none_eq_number_iff {value : Option ℚ} : PyVal.none = number value ↔ value = none := by
  cases value <;> simp [number]

theorem attempted_refused_iff (attempted : Option Int) :
    (number (attempted.map fun count : Int => (count : ℚ)) ≠ .none &&
      (natural? (number (attempted.map fun count : Int => (count : ℚ)))).isNone) = true ↔
      ¬ ∀ count ∈ attempted, 0 ≤ count := by
  cases attempted with
  | none => simp [number]
  | some count =>
      show (decide (PyVal.num (count : ℚ) ≠ .none) && (natural? (.num (count : ℚ))).isNone) = true ↔ _
      rw [natural?_intCast]
      by_cases natural : 0 ≤ count <;> simp [natural]

section

variable {sent : JobHandle} {request : Option DeferredLLMRequest} {record : Dict String PyVal}

theorem attempted_sent (held : ∀ name, name ≠ "created_at" → name ≠ "recovery_context" →
      Dict.get? record name =
        Dict.get? (recordFor ((Written.handle sent request).job settings)) name) :
    (Dict.get? record "attempted_requests").getD .none =
      number (sent.attemptedRequests.map fun count : Int => (count : ℚ)) := by
  rw [held "attempted_requests" (by decide) (by decide)]
  obtain ⟨-, -, -, -, -, -, -, -, -, -, attempted, -⟩ := sent
  cases attempted <;> rfl

theorem decodeRequest_sent
    (reads : ∀ instant ∈ (Written.handle sent request).deadline, settings.Reads instant)
    (json : (Written.handle sent request).IsJson)
    (held : ∀ name, name ≠ "created_at" → name ≠ "recovery_context" → Dict.get? record name =
      Dict.get? (recordFor ((Written.handle sent request).job settings)) name) :
    decodeRequest settings record = readRequest request := by
  cases request with
  | none =>
      unfold decodeRequest
      rw [held "messages" (by decide) (by decide)]
      rfl
  | some request =>
      refine decodeRequest_capsule reads (json request rfl) ((held _ (by decide) (by decide)).trans rfl)
        ((held _ (by decide) (by decide)).trans rfl) ((held _ (by decide) (by decide)).trans rfl)
        ((held _ (by decide) (by decide)).trans rfl) ((held _ (by decide) (by decide)).trans ?_)
        ((held _ (by decide) (by decide)).trans ?_)
      · obtain ⟨messages, policy, budget, timeout, mode, version⟩ := request
        cases timeout with
        | none => cases mode <;> rfl
        | some timeout => rfl
      · obtain ⟨messages, policy, budget, timeout, mode, version⟩ := request
        cases timeout <;> cases mode <;> rfl

/-- What a handle's record is read as, once its request is read. -/
theorem decodeHandle_sent (contracted : (Written.handle sent request).Contracted)
    (held : ∀ name, name ≠ "created_at" → name ≠ "recovery_context" → Dict.get? record name =
      Dict.get? (recordFor ((Written.handle sent request).job settings)) name)
    (counted : ∀ count ∈ sent.attemptedRequests, 0 ≤ count) :
    (decodeHandle settings record).map Value.handle =
      (decodeRequest settings record).map fun read => (Written.handle sent read).value := by
  have contract : contractOf record (.str sent.task) = text sent.structuredOutput := by
    have stored : (Dict.get? record "structured_output").getD .none = text sent.structuredOutput := by
      rw [held "structured_output" (by decide) (by decide)]
      rfl
    unfold contractOf
    rw [stored]
    refine if_neg fun missing => ?_
    obtain ⟨falsy, named⟩ := Bool.and_eq_true_iff.mp missing
    rw [contracted (PyVal.str.inj (of_decide_eq_true named))] at falsy
    cases falsy
  unfold decodeHandle
  rw [attempted_sent held, held "task" (by decide) (by decide), held "recipe_hash" (by decide) (by decide), held "backend" (by decide) (by decide),
    held "ref" (by decide) (by decide), held "model" (by decide) (by decide),
    held "route_id" (by decide) (by decide), held "owner" (by decide) (by decide),
    held "input_per_token" (by decide) (by decide), held "output_per_token" (by decide) (by decide)]
  have accepted := mt (attempted_refused_iff sent.attemptedRequests).mp (not_not_intro counted)
  refine (congrArg (Option.map Value.handle) (if_neg accepted)).trans ?_
  cases decodeRequest settings record with
  | none => rfl
  | some read =>
      show some (Value.handle { structuredOutput := contractOf record (.str sent.task), .. }) = _
      rw [contract]
      rfl

end

theorem decodeRecord_result {outcome : JobResult} (json : IsJson outcome.output) (clock : Int)
    (recovery : Option PyVal) :
    decodeRecord settings (nextRecord settings .none ((Written.result outcome).job settings) clock
        recovery) =
      some (.result {
        task := .str outcome.task
        recipeHash := .str outcome.recipeHash
        output := outcome.output
        model := text outcome.model }) := by
  obtain ⟨entries, made, held⟩ :=
    @nextRecord_first settings ((Written.result outcome).job settings) clock recovery
  rw [made]
  unfold decodeRecord
  dsimp only
  rw [held "status" (by decide) (by decide), held "task" (by decide) (by decide),
    held "recipe_hash" (by decide) (by decide), held "output" (by decide) (by decide),
    held "model" (by decide) (by decide)]
  show some (Value.result {
    task := .str outcome.task
    recipeHash := .str outcome.recipeHash
    output := outcome.output.jsonRoundTrip
    model := text outcome.model }) = _
  rw [show outcome.output.jsonRoundTrip = outcome.output from json]

theorem decodeRecord_nextRecord {written : Written}
    (reads : ∀ instant ∈ written.deadline, settings.Reads instant) (json : written.IsJson)
    (contracted : written.Contracted) (clock : Int) (recovery : Option PyVal) :
    decodeRecord settings (nextRecord settings .none (written.job settings) clock recovery) =
      some written.value ↔ written.Kept := by
  cases written with
  | result outcome =>
      rw [decodeRecord_result json]
      simp [Written.value, Written.Kept, none_eq_text_iff, none_eq_number_iff, Option.eq_none_iff_forall_ne_some]
  | handle sent request =>
      obtain ⟨entries, made, held⟩ :=
        @nextRecord_first settings ((Written.handle sent request).job settings) clock recovery
      rw [made]
      unfold decodeRecord
      dsimp only
      rw [held "status" (by decide) (by decide)]
      show (decodeHandle settings entries).map Value.handle = _ ↔ _
      by_cases counted : ∀ count ∈ sent.attemptedRequests, 0 ≤ count
      · rw [decodeHandle_sent contracted held counted, decodeRequest_sent reads json held]
        cases request with
        | none => simpa [readRequest, Written.value, Written.Kept] using counted
        | some request =>
            by_cases versioned : 0 ≤ request.metadataVersion
            · rw [readRequest, if_pos versioned, Written.Kept, and_iff_right counted]
              simp [Written.value, versioned, request.read_eq_iff]
            · simp [readRequest, Written.Kept, versioned]
      · rw [iff_false_right fun kept => counted kept.1]
        have refused : decodeHandle settings entries = none := by
          unfold decodeHandle
          rw [attempted_sent held]
          exact if_pos ((attempted_refused_iff sent.attemptedRequests).mpr counted)
        rw [refused]
        simp

end

/-! ## Calls -/

section

variable {settings : Settings} {recipeHash : String} {tokens : List String} {α : Type}
  {state last : LockedRecords.State String Body}

theorem returns_lock {body : Calls α} {result : α}
    (returns : Returns (deferredRecordLock recipeHash tokens body) state result last) :
    ∃ before after, before.store = state.store ∧ Returns body before result after ∧
      last.store = after.store := by
  obtain ⟨began, middle, clocked, returns⟩ := returns.of_bind
  obtain ⟨before, after, same, ran, kept⟩ := LockedRecords.Session.returns_acquireUntil returns
  exact ⟨before, after, same.trans (LockedRecords.Session.returns_now clocked), ran, kept⟩

theorem returns_readJson {key : String} {read : PyVal × Option (Body × ETag)}
    (returns : Returns (readJson key) state read last) :
    read = (valueOf (state.store.object key), state.store.object key) ∧
      last.store = state.store := by
  obtain ⟨found, middle, got, returns⟩ := returns.of_bind
  obtain ⟨same, kept⟩ := LockedRecords.Session.returns_get got
  obtain ⟨rfl, drifted⟩ := returns.of_pure
  exact ⟨by rw [same], (LockedRecords.drifts_store drifted).trans kept⟩

variable {job : Job} {recovery : Option PyVal}

theorem returns_writeLocked {clock : Int}
    (absent : state.store.object (deferredKey recipeHash) = none)
    (returns : Returns (writeLocked settings recipeHash job clock recovery) state () last) :
    valueOf (last.store.object (deferredKey recipeHash)) =
      nextRecord settings .none job clock recovery := by
  obtain ⟨read, began, first, returns⟩ := returns.of_bind
  obtain ⟨rfl, same⟩ := returns_readJson first
  rw [absent] at returns
  obtain ⟨_, pointed, pointers, returns⟩ := returns.of_bind
  obtain ⟨_, put, wrote, deleted⟩ := returns.of_bind
  have written : put.store = pointed.store.put (deferredKey recipeHash) _ :=
    LockedRecords.Session.returns_put wrote
  have kept : last.store.object (deferredKey recipeHash) = put.store.object (deferredKey recipeHash) := by
    refine (sparing_deletePointerKeys fun key member => ?_).object deleted
    cases List.mem_of_mem_filter member
  rw [kept, written, Store.put_object_same]
  rfl

theorem returns_writeDeferred {givenNow : Option Int}
    (absent : state.store.object (deferredKey recipeHash) = none)
    (returns : Returns (writeDeferred settings recipeHash tokens job givenNow recovery) state () last) :
    ∃ clock, valueOf (last.store.object (deferredKey recipeHash)) =
      nextRecord settings .none job clock recovery := by
  have locked {clock : Int} {middle : LockedRecords.State String Body}
      (same : middle.store = state.store)
      (returns : Returns (deferredRecordLock recipeHash tokens
        (writeLocked settings recipeHash job clock recovery)) middle () last) :
      valueOf (last.store.object (deferredKey recipeHash)) =
        nextRecord settings .none job clock recovery := by
    obtain ⟨before, after, began, ran, kept⟩ := returns_lock returns
    rw [← same, ← began] at absent
    rw [kept, returns_writeLocked absent ran]
  cases givenNow with
  | some clock => exact ⟨clock, locked rfl returns⟩
  | none =>
      obtain ⟨clock, middle, clocked, returns⟩ := returns.of_bind
      exact ⟨clock, locked (LockedRecords.Session.returns_now clocked) returns⟩

theorem returns_lookUpDeferred {found : Option Value}
    (returns : Returns (lookUpDeferred settings recipeHash) state found last) :
    found = decodeRecord settings (valueOf (state.store.object (deferredKey recipeHash))) := by
  obtain ⟨read, middle, got, returns⟩ := returns.of_bind
  obtain ⟨rfl, -⟩ := returns_readJson got
  exact returns.of_pure.1

theorem returns_removeRecord {judged : Option (Body × ETag)} {data : PyVal}
    (returns : Returns (removeRecord settings (deferredKey recipeHash) judged data recipeHash) state
      () last) : last.store.object (deferredKey recipeHash) = none := by
  obtain ⟨_, middle, removed, pointers⟩ := returns.of_bind
  have emptied : middle.store = state.store.delete (deferredKey recipeHash) :=
    LockedRecords.Session.returns_delete removed
  have kept : last.store.object (deferredKey recipeHash) =
      middle.store.object (deferredKey recipeHash) :=
    (sparing_deletePointerKeys fun _ member => ne_deferredKey_of_mem settings recipeHash member).object
      pointers
  rw [kept, emptied, Store.delete_object_same]

theorem returns_completedLocked {expected : JobResult} {failure : Option Failure} {removed : Bool}
    (completed : field (valueOf (state.store.object (deferredKey recipeHash))) "status" =
      .str "completed")
    (returns : Returns (completedLocked settings recipeHash expected failure) state removed last) :
    if settings.decodeRecord (valueOf (state.store.object (deferredKey recipeHash))) =
        some (.result expected) then
      removed = true ∧ last.store.object (deferredKey recipeHash) = none
    else removed = false ∧ last.store = state.store := by
  obtain ⟨read, began, first, returns⟩ := returns.of_bind
  obtain ⟨rfl, same⟩ := returns_readJson first
  dsimp only at returns
  rw [if_neg (not_not_intro completed)] at returns
  have finished {middle : LockedRecords.State String Body}
      (returns : Returns (do
        removeRecord settings (deferredKey recipeHash) (state.store.object (deferredKey recipeHash))
          (valueOf (state.store.object (deferredKey recipeHash))) recipeHash
        return true : Calls Bool) middle removed last) :
      removed = true ∧ last.store.object (deferredKey recipeHash) = none := by
    obtain ⟨_, deleted, gone, returns⟩ := returns.of_bind
    obtain ⟨rfl, drifted⟩ := returns.of_pure
    exact ⟨rfl, by rw [LockedRecords.drifts_store drifted, returns_removeRecord gone]⟩
  by_cases read : settings.decodeRecord (valueOf (state.store.object (deferredKey recipeHash))) =
      some (.result expected)
  · rw [if_pos read]
    rw [if_neg (not_not_intro read)] at returns
    cases failure with
    | none => exact finished returns
    | some failure =>
        obtain ⟨_, audited, _, returns⟩ := returns.of_bind
        exact finished returns
  · rw [if_neg read]
    rw [if_pos read] at returns
    obtain ⟨rfl, drifted⟩ := returns.of_pure
    exact ⟨rfl, (LockedRecords.drifts_store drifted).trans same⟩

end

/-! ## What is written is read back -/

section

variable {settings : Settings} {recipeHash : String} {tokens others : List String}
  {state after last : LockedRecords.State String Body} {written : Written} {givenNow : Option Int}
  {recovery : Option PyVal}

theorem text?_text (value : Option String) : text? (text value) = some value := by
  cases value <;> rfl

/-- A result's record reads as the result without the attributes that it leaves out. -/
theorem reading_result {outcome : JobResult} (json : IsJson outcome.output) (clock : Int) :
    settings.reading.decodeRecord
        (nextRecord settings .none ((Written.result outcome).job settings) clock recovery) =
      some (.result {
        task := outcome.task
        recipeHash := outcome.recipeHash
        output := outcome.output
        model := outcome.model }) := by
  rw [Settings.reading]
  dsimp only
  rw [decodeRecord_result json, Option.bind_some, Value.job?, ResultValue.job?, text?_text]
  rfl

theorem deferred_records_read_back
    (reads : ∀ instant ∈ written.deadline, settings.Reads instant) (json : written.IsJson)
    (contracted : written.Contracted)
    (absent : state.store.object (deferredKey recipeHash) = none)
    (wrote : Returns (writeDeferred settings.reading recipeHash tokens (written.job settings) givenNow
      recovery) state () after) :
    (∀ found, Returns (lookUpDeferred settings recipeHash) after found last →
        (found = some written.value ↔ written.Kept)) ∧
      ∀ outcome failure removed, written = .result outcome →
        Returns (discardCompletedResult settings.reading recipeHash others outcome failure) after
          removed last →
        (removed = true ∧ last.store.object (deferredKey recipeHash) = none ↔ written.Kept) := by
  obtain ⟨clock, stored⟩ := returns_writeDeferred absent wrote
  constructor
  · intro found returns
    rw [returns_lookUpDeferred returns, stored]
    exact decodeRecord_nextRecord reads json contracted clock recovery
  · rintro outcome failure removed rfl returns
    obtain ⟨before, finished, began, ran, ended⟩ := returns_lock returns
    rw [← began] at stored
    have stamped : nextRecord settings.reading .none ((Written.result outcome).job settings) clock
        recovery = nextRecord settings .none ((Written.result outcome).job settings) clock recovery :=
      rfl
    obtain ⟨entries, made, held⟩ :=
      @nextRecord_first settings ((Written.result outcome).job settings) clock recovery
    have completed : field (valueOf (before.store.object (deferredKey recipeHash))) "status" =
        .str "completed" := by
      rw [stored, stamped, made]
      show (Dict.get? entries "status").getD .none = _
      rw [held "status" (by decide) (by decide)]
      rfl
    have outcomes := returns_completedLocked completed ran
    rw [stored, stamped, reading_result json] at outcomes
    have same : (some (Job.result {
        task := outcome.task
        recipeHash := outcome.recipeHash
        output := outcome.output
        model := outcome.model }) = some (.result outcome)) ↔ (Written.result outcome).Kept := by
      obtain ⟨task, recipeHash, output, model, routeId, upstreamModel, reasoningLevel, params,
        attempts⟩ := outcome
      simp [Written.Kept, eq_comm]
    by_cases kept : (Written.result outcome).Kept
    · rw [if_pos (same.mpr kept)] at outcomes
      rw [ended]
      exact iff_of_true outcomes kept
    · rw [if_neg (mt same.mp kept)] at outcomes
      refine iff_of_false (fun gone => ?_) kept
      rw [outcomes.1] at gone
      cases gone.1

end

/-! ## A handle and a result -/

def capsule : DeferredLLMRequest where
  messages := [.dict [("role", .str "user"), ("content", .str "Which items were on the agenda?")]]
  policy := { allowedModels := some ["a", "b"], deadlineAt := some 0, priority := Fin.last 1, backupModels := ["c"] }
  maxTokensMode := some "route_max"

def unregistered : LockedRecords.State String Body := ⟨Store.empty, fun _ => none, 0, []⟩

theorem deferred_records_read_back_handle : ∃ after found last,
    Returns (writeDeferred bare.reading "hash" ["token"]
        ((Written.handle handle (some capsule)).job bare) (some 0) none) unregistered () after ∧
      Returns (lookUpDeferred bare "hash") after found last ∧
      found = some (Written.handle handle (some capsule)).value := by
  have reads : ∀ instant ∈ (Written.handle handle (some capsule)).deadline, bare.Reads instant := by
    rintro instant ⟨⟩
    exact ⟨rfl, by decide⟩
  have json : (Written.handle handle (some capsule)).IsJson := by
    rintro deferred ⟨⟩ message member
    rw [List.mem_singleton.mp member]
    rfl
  obtain ⟨after, wrote⟩ : ∃ after, ((writeDeferred bare.reading "hash" ["token"]
      ((Written.handle handle (some capsule)).job bare) (some 0) none).run.alone
        (LockedRecords.world String Body) .works unregistered) = some (.ok (), after) := ⟨_, rfl⟩
  obtain ⟨found, last, looked⟩ : ∃ found last, (lookUpDeferred bare "hash").run.alone
      (LockedRecords.world String Body) .works after = some (.ok found, last) := ⟨_, _, rfl⟩
  have returned := Task.ends_of_alone looked
  have contracted : (Written.handle handle (some capsule)).Contracted :=
    fun named => absurd named (by decide)
  have kept : (Written.handle handle (some capsule)).Kept := by
    refine ⟨fun count member => (Option.not_mem_none count member).elim, fun deferred member => ?_⟩
    cases member
    exact ⟨by decide, by decide, fun mode same => (Option.some.inj same).symm⟩
  obtain ⟨back, -⟩ := @deferred_records_read_back bare "hash" ["token"] [] unregistered after last
    _ (some 0) none reads json contracted rfl (Task.ends_of_alone wrote)
  exact ⟨after, found, last, Task.ends_of_alone wrote, returned, (back found returned).mpr kept⟩

def routed : JobResult where
  task := "agenda"
  recipeHash := "hash"
  output := .dict [("items", .list [])]
  model := some "a"
  routeId := some "a-direct"

theorem routed_result_not_read_back : IsJson routed.output ∧ ∃ after found last removed ended,
    Returns (writeDeferred bare.reading "hash" ["token"] ((Written.result routed).job bare) (some 0)
        none) unregistered () after ∧
      Returns (lookUpDeferred bare "hash") after found last ∧
      found ≠ some (Written.result routed).value ∧
      Returns (discardCompletedResult bare.reading "hash" ["other"] routed none) after removed ended ∧
      removed = false ∧ (ended.store.object (deferredKey "hash")).isSome = true := by
  obtain ⟨after, found, last, removed, ended, wrote, looked, discarded, different, untouched, stays⟩ :
      ∃ after found last removed ended,
        ((writeDeferred bare.reading "hash" ["token"] ((Written.result routed).job bare) (some 0)
            none).run.alone (LockedRecords.world String Body) .works unregistered) =
          some (.ok (), after) ∧
        (lookUpDeferred bare "hash").run.alone (LockedRecords.world String Body) .works after =
          some (.ok found, last) ∧
        (discardCompletedResult bare.reading "hash" ["other"] routed none).run.alone
            (LockedRecords.world String Body) .works after = some (.ok removed, ended) ∧
        found ≠ some (Written.result routed).value ∧ removed = false ∧
        (ended.store.object (deferredKey "hash")).isSome = true :=
    ⟨_, _, _, _, _, rfl, rfl, rfl, by decide +kernel, rfl, rfl⟩
  exact ⟨rfl, after, found, last, removed, ended, Task.ends_of_alone wrote,
    Task.ends_of_alone looked, different, Task.ends_of_alone discarded, untouched, stays⟩

end Deferred

end CityPods.Compute
