import CityPods.Compute.DeferredRuns

/-! # The registry side by side

Any number of calls about one recipe, one storage operation at a time, each of
which may be killed.
-/

namespace CityPods.Compute

open Foundation
open Foundation.LockedRecords (Access Deletion Guarded Keeps Op awaitsChange)
open Foundation.Tasks (Config Event Run Worker Conduct)

namespace Deferred

section

variable {settings : Settings} {recipeHash : String}

/-! ## Every call is safe -/

theorem deferredRecordLock_safe {α : Type} {body : Calls α}
    (alone : ∀ store, LockedRecords.Alone (duty settings recipeHash) (fun _ _ => True) body.run store)
    (tokens : List String) (state : storage.State) :
    (deferredRecordLock recipeHash tokens body).Safe storage
      (LockedRecords.lockedBargain (lockKey recipeHash) tokens (duty settings recipeHash))
      (fun _ _ => True) state := by
  refine Raising.safe_perform fun later _ choice reply after _ answered => ?_
  refine ⟨?_, fun began _ => ?_, fun _ _ _ _ => trivial⟩
  · cases choice <;> cases answered
    exact .refl _ tokens _ _
  · exact LockedRecords.acquireUntil_safe .storage .busy lockTtl (began + lockWait) alone
      (List.Subset.refl tokens) after

theorem returned_safe {α β : Type} {bargain : Bargain storage} {session : Calls α}
    {state : storage.State} (safe : session.Safe storage bargain (fun _ _ => True) state)
    (result : α → β) :
    (session >>= fun value => return result value : Calls β).Safe storage bargain (fun _ _ => True)
      state :=
  safe.bind (fun _ _ _ => Raising.safe_pure fun _ _ => trivial) fun _ _ _ _ _ => trivial

/-- How a call comes to the record. -/
def Call.access : Call → Access
  | .writeDeferred tokens .. => .locked tokens
  | .discardLegacyMomentsRequest tokens _ => .locked tokens
  | .discardDeferred tokens _ => .locked tokens
  | .discardCompletedResult tokens .. => .locked tokens
  | .discardTerminalFailure tokens .. => .locked tokens
  | .pruneExpiredDeferredSnapshot .. => .unlocked

def Call.Concerns (recipeHash : String) : Call → Prop
  | .writeDeferred .. => True
  | .discardLegacyMomentsRequest _ expected => expected.recipeHash = recipeHash
  | .discardDeferred .. => True
  | .discardCompletedResult .. => True
  | .discardTerminalFailure _ snapshot handle .. =>
      handle.recipeHash = recipeHash ∧ ∀ entry ∈ snapshot, entry.key = deferredKey recipeHash
  | .pruneExpiredDeferredSnapshot snapshot .. =>
      ∀ entry ∈ snapshot, entry.key = deferredKey recipeHash

theorem Call.safe (call : Call) (concerns : call.Concerns recipeHash) (state : storage.State) :
    (call.session settings recipeHash).Safe storage
      (call.access.bargain (lockKey recipeHash) (duty settings recipeHash)) (fun _ _ => True)
      state := by
  cases call with
  | writeDeferred tokens result givenNow recovery =>
      have written (clock : Int) (state : storage.State) :
          (deferredRecordLock recipeHash tokens
            (writeLocked settings recipeHash result clock recovery)).Safe storage
              (LockedRecords.lockedBargain (lockKey recipeHash) tokens (duty settings recipeHash))
              (fun _ _ => True) state :=
        deferredRecordLock_safe (fun _ => writeLocked_alone result clock recovery) tokens state
      refine returned_safe ?_ fun _ => Outcome.written
      cases givenNow with
      | some clock => exact written clock state
      | none =>
          refine Raising.safe_perform fun later _ choice reply after _ answered => ?_
          refine ⟨?_, fun clock _ => written clock after, fun _ _ _ _ => trivial⟩
          cases choice <;> cases answered
          exact .refl _ tokens _ _
  | discardLegacyMomentsRequest tokens expected =>
      refine returned_safe ?_ Outcome.discarded
      rw [Deferred.discardLegacyMomentsRequest, show expected.recipeHash = recipeHash from concerns]
      split
      · exact deferredRecordLock_safe (fun store => legacyLocked_alone expected concerns) tokens state
      · exact Raising.safe_pure fun _ _ => trivial
  | discardDeferred tokens expectedRef =>
      refine returned_safe ?_ Outcome.discarded
      exact deferredRecordLock_safe (fun store => discardLocked_alone expectedRef) tokens state
  | discardCompletedResult tokens expected failure =>
      refine returned_safe ?_ Outcome.discarded
      exact deferredRecordLock_safe (fun store => completedLocked_alone expected failure) tokens state
  | discardTerminalFailure tokens snapshot handle failure exhausted structural givenNow =>
      refine returned_safe ?_ fun found : Int × List SnapshotEntry =>
        Outcome.counted found.1 found.2
      rw [Deferred.discardTerminalFailure, concerns.1]
      exact deferredRecordLock_safe (fun store =>
        failureLocked_alone failure exhausted structural givenNow concerns.1 concerns.2) tokens state
  | pruneExpiredDeferredSnapshot snapshot givenNow ttl =>
      refine returned_safe ?_ fun found : Int × List SnapshotEntry =>
        Outcome.counted found.1 found.2
      cases givenNow with
      | some clock => exact pruneEach_safe clock ttl snapshot concerns state
      | none =>
          refine Raising.safe_perform fun later _ choice reply after _ answered => ?_
          refine ⟨?_, fun clock _ => pruneEach_safe clock ttl snapshot concerns after,
            fun _ _ _ _ => trivial⟩
          cases choice <;> cases answered
          exact unlocked_same

/-! ## Runs -/

def Holding (config : Config (registry settings recipeHash))
    (worker : Worker (registry settings recipeHash)) : Prop :=
  worker.task.asks ≠ none ∧
    ∃ token ∈ worker.call.access.tokens, config.state.Holds (lockKey recipeHash) token

/-- No lock outlives its time while its holder runs, every attempt to get a lock
has a token of its own, and the calls are about the recipe. -/
def Allowed (config : Config (registry settings recipeHash))
    (event : Event (registry settings recipeHash)) : Prop :=
  (∀ worker ∈ config.workers, Holding config worker →
    config.state.isOpen (lockKey recipeHash) = false) ∧
  ∀ call, event = .start call → call.Concerns recipeHash ∧
    ∀ worker ∈ config.workers, ∀ token ∈ worker.call.access.tokens, token ∉ call.access.tokens

/-- A prune changes nothing while another call holds the lock, a holder changes
nothing while a prune is about to delete, and no write of a pointer fails. -/
def Calm (config : Config (registry settings recipeHash))
    (event : Event (registry settings recipeHash)) : Prop :=
  ∀ index choice call op next, event = .run index choice →
    config.workers[index]? = some ⟨call, .perform op next⟩ →
      (choice = .fails → Fallible recipeHash op) ∧
      (op.changes = true → ∀ worker ∈ config.workers,
        (call.access = .unlocked → ¬ Holding config worker) ∧
        (worker.call.access = .unlocked → awaitsChange worker.task.asks = true →
          call.access = .unlocked))

def start (store : Records) (locks : String → Option (String × Int)) (clock : Int) :
    Config (registry settings recipeHash) where
  state := { store := store, locks := locks, clock := clock }
  workers := []

def conduct (settings : Settings) (recipeHash : String) :
    Conduct (registry settings recipeHash) where
  bargain call := call.access.bargain (lockKey recipeHash) (duty settings recipeHash)
  promise _ _ _ _ := True

section

variable {initial config after : Config (registry settings recipeHash)}
  {event : Event (registry settings recipeHash)}

def Apart (first second : Call) : Prop :=
  ∀ token ∈ first.access.tokens, token ∉ second.access.tokens

theorem apart_of_run (base : initial.workers = [])
    (run : Run (fun config event => Allowed config event ∧ Calm config event) initial config) :
    config.calls.Pairwise Apart := by
  refine run.invariant (fun config => config.calls.Pairwise Apart) ?_ ?_
  · rw [Config.calls, base]
    exact .nil
  · intro config event after apart permitted moves
    refine moves.pairwise apart fun call started other member => ?_
    obtain ⟨worker, present, rfl⟩ := List.mem_map.mp member
    exact (permitted.1.2 call started).2 worker present

theorem settled_of_done {worker : Worker (registry settings recipeHash)}
    (ended : worker.task.asks = none) : (conduct settings recipeHash).Settled worker := by
  obtain ⟨call, task⟩ := worker
  cases task with
  | done result => exact ⟨result, rfl, fun _ _ => trivial⟩
  | perform op next => cases ended

theorem conduct_sound (base : initial.workers = []) :
    (conduct settings recipeHash).Sound
      (fun config event => Allowed config event ∧ Calm config event) initial where
  base := base
  drifted config choice after _ _ drifted worker _ := by
    refine .inl ?_
    have same : after.locks = config.state.locks ∧ after.store = config.state.store := by
      cases choice with
      | tick clock =>
          obtain ⟨_, moved⟩ := Option.ite_none_right_eq_some.mp drifted
          cases moved
          exact ⟨rfl, rfl⟩
      | works => cases drifted
      | fails => cases drifted
    show (worker.call.access.bargain _ _).rely _ _ _
    cases worker.call.access with
    | locked tokens => exact fun _ _ _ => ⟨congrFun same.1 _, same.2⟩
    | unlocked => exact fun _ key => .inr (congrArg (Store.object · key) same.2)
  started config call run permitted _ := call.safe (permitted.1.2 call rfl).1 config.state
  assumed config index choice call op next _ permitted present := by
    have fallible := (permitted.2 index choice call op next rfl present).1
    show (call.access.bargain _ _).assumes _ _ _
    cases call.access with
    | locked tokens => exact fallible
    | unlocked => exact fallible
  apart config run _ index other choice call op next worker reply after different permitted
      present also answered guaranteed := by
    by_cases ended : worker.task.asks = none
    · exact .inr (settled_of_done ended)
    have member := List.mem_of_getElem? also
    have calm := (permitted.2 index choice call op next rfl present).2
    have distinct : Apart call worker.call := Config.related
      (fun apart token second first => apart token first second) (apart_of_run base run) different
      present also
    refine .inl (Access.fits guaranteed answered distinct ?_ ?_ ?_)
    · exact fun token owned holds => permitted.1.1 worker member ⟨ended, token, owned, holds⟩
    · exact fun unlocked changes token owned holds =>
        (calm changes worker member).1 unlocked ⟨ended, token, owned, holds⟩
    · exact fun unlocked awaits changes => (calm changes worker member).2 unlocked awaits

theorem keeps_of_moves (base : initial.workers = [])
    (run : Run (fun config event => Allowed config event ∧ Calm config event) initial config)
    (permitted : Allowed config event) (calm : Calm config event)
    (moves : config.Moves event after) :
    Keeps (duty settings recipeHash) config.state after.state := by
  have sound : (conduct settings recipeHash).Sound _ initial := conduct_sound base
  cases moves with
  | drift choice state drifted =>
      cases choice with
      | tick clock =>
          obtain ⟨_, moved⟩ := Option.ite_none_right_eq_some.mp drifted
          cases moved
          exact ⟨id, (duty settings recipeHash).stays _, fun _ => .inl⟩
      | works => cases drifted
      | fails => cases drifted
  | start call mayStart => exact .refl _ _
  | run index choice call op next present reply state answered =>
      have moved := (sound.kept run).performs sound run ⟨permitted, calm⟩ present answered
      exact Access.keeps moved.1
  | kill index => exact .refl _ _

end

section

variable {store : Records} {locks : String → Option (String × Int)} {clock : Int}
  {config : Config (registry settings recipeHash)}

theorem duty_of_run (indexed : Indexed settings recipeHash store)
    (run : Run (fun config event => Allowed config event ∧ Calm config event)
      (start store locks clock) config) :
    Indexed settings recipeHash config.state.store ∧
      ∀ deletion ∈ config.state.deletions, Honest recipeHash deletion := by
  induction run with
  | refl => exact ⟨indexed, fun deletion member => by cases member⟩
  | step run event permitted stepped induction =>
      have keeps := keeps_of_moves rfl run permitted.1 permitted.2 (Config.step_moves stepped)
      refine ⟨keeps.sane induction.1, fun deletion member => ?_⟩
      rcases keeps.honest deletion member with earlier | honest
      · exact induction.2 deletion earlier
      · exact honest

theorem indexKeys_ne_nil {data : PyVal} (pending : field data "status" = .str "pending") :
    indexKeys settings data recipeHash ≠ [] := by
  rw [indexKeys, if_neg (not_not.mpr pending)]
  split <;> exact List.append_ne_nil_of_right_ne_nil _ (List.cons_ne_nil _ _)

/-- In every run in which no prune changes a record beside a holder of its lock,
every deletion of the record removes the object that its caller had read and
judged, or finds none; a completed record does not become a pending one; and a
pending record has a pointer. -/
theorem registry_keeps_newer (indexed : Indexed settings recipeHash store)
    (run : Run (fun config event => Allowed config event ∧ Calm config event)
      (start store locks clock) config) :
    (∀ deletion ∈ config.state.deletions, deletion.key = deferredKey recipeHash →
      deletion.removed = none ∨ deletion.removed = deletion.judged) ∧
    (∀ event after, Allowed config event → Calm config event → config.Moves event after →
      KeepsResult recipeHash config.state.store after.state.store) ∧
    ∀ data, Recorded recipeHash config.state.store data → field data "status" = .str "pending" →
      ∃ key ∈ indexKeys settings data recipeHash, (config.state.store.object key).isSome = true := by
  obtain ⟨sane, honest⟩ := duty_of_run indexed run
  refine ⟨honest, ?_, ?_⟩
  · exact fun event after permitted calm moves =>
      (keeps_of_moves rfl run permitted calm moves).moves
  · intro data recorded pending
    have named : indexKeys settings data recipeHash ≠ [] := indexKeys_ne_nil pending
    obtain ⟨key, member⟩ := List.exists_mem_of_ne_nil _ named
    exact ⟨key, member, sane data recorded pending key member⟩

end

end

/-! ## A handle is written -/

/-- No routes are configured, and no record is read as a job. -/
def bare : Settings where
  canonicalModel := id
  routes := []
  decodeRecord _ := none
  digest _ := ""
  isoformat _ := "1970-01-01T00:00:00+00:00"
  fromisoformat _ := some 0

/-- Steps that succeed, before the time of the lock is over. -/
def inTime (config : Config (registry bare "hash")) : Event (registry bare "hash") → Bool
  | .run _ .works =>
      (config.state.locks (lockKey "hash")).all fun held => decide (config.state.clock < held.2)
  | _ => false

/-- The same, where every call comes by the lock. -/
def fenced (config : Config (registry bare "hash")) (event : Event (registry bare "hash")) : Bool :=
  inTime config event && config.workers.all fun worker => !worker.call.access.tokens.isEmpty

theorem allowed_of_inTime (config : Config (registry bare "hash"))
    (event : Event (registry bare "hash")) (permitted : inTime config event = true) :
    Allowed config event := by
  cases event with
  | run index choice =>
      cases choice with
      | works =>
          refine ⟨?_, fun _ impossible => nomatch impossible⟩
          rintro worker _ ⟨_, token, _, expiry, held⟩
          rw [inTime, held] at permitted
          show (config.state.locks (lockKey "hash")).all _ = false
          rw [held]
          simpa using permitted
      | fails => cases permitted
      | tick => cases permitted
  | drift => cases permitted
  | start => cases permitted
  | kill => cases permitted

theorem calm_of_fenced (config : Config (registry bare "hash"))
    (event : Event (registry bare "hash")) (permitted : fenced config event = true) :
    Allowed config event ∧ Calm config event := by
  obtain ⟨timely, locked⟩ := Bool.and_eq_true_iff.mp permitted
  refine ⟨allowed_of_inTime config event timely, ?_⟩
  rintro index choice call op next rfl present
  have known (worker : Worker (registry bare "hash")) (member : worker ∈ config.workers)
      (unlocked : worker.call.access = .unlocked) : False := by
    have some_ := List.all_eq_true.mp locked worker member
    rw [unlocked] at some_
    cases some_
  constructor
  · rintro rfl
    cases timely
  · exact fun _ worker member =>
      ⟨fun unlocked => (known _ (List.mem_of_getElem? present) unlocked).elim,
        fun unlocked => (known worker member unlocked).elim⟩

def handle : JobHandle where
  task := "agenda"
  recipeHash := "hash"
  backend := "llm-dispatch-v2"
  ref := "job"
  structuredOutput := none
  model := none
  routeId := none
  owner := none
  inputPerToken := none
  outputPerToken := none
  attemptedRequests := none
  deferredRequest := none

def deferring : Call := .writeDeferred ["first"] (.handle handle) none none

def nothing : Config (registry bare "hash") := start Store.empty (fun _ => none) 0

theorem indexed_empty : Indexed bare "hash" Store.empty := by
  rintro data ⟨etag, present⟩
  cases present

theorem registry_keeps_newer_deferring : ∃ config : Config (registry bare "hash"),
    Run (fun config event => Allowed config event ∧ Calm config event) nothing config ∧
      Recorded "hash" config.state.store
        (nextRecord bare .none (.handle handle) 0 none) ∧
      ∃ key ∈ indexKeys bare (nextRecord bare .none (.handle handle) 0 none) "hash",
        (config.state.store.object key).isSome = true := by
  have begun : Run (fun config event => Allowed config event ∧ Calm config event) nothing
      ⟨nothing.state, [⟨deferring, (deferring.session bare "hash").run⟩]⟩ := by
    refine .step .refl (.start deferring) ⟨⟨fun _ member => (nomatch member), ?_⟩, ?_⟩ rfl
    · exact fun call started => by
        cases started
        exact ⟨trivial, fun _ member => (nomatch member)⟩
    · exact fun _ _ _ _ _ impossible => (nomatch impossible)
  obtain ⟨config, executed, recorded⟩ : ∃ config : Config (registry bare "hash"),
      Config.execute fenced ⟨nothing.state, [⟨deferring, (deferring.session bare "hash").run⟩]⟩
        (List.replicate 7 (.run 0 .works)) = some config ∧
      Recorded "hash" config.state.store (nextRecord bare .none (.handle handle) 0 none) :=
    ⟨_, rfl, _, rfl⟩
  have run := begun.trans ((Run.of_execute executed).weaken calm_of_fenced)
  have kept := registry_keeps_newer indexed_empty run
  exact ⟨config, run, recorded, kept.2.2 _ recorded (nextRecord_status _ _ _ _)⟩

/-! ## A prune beside a writer -/

/-- The record that waits, as it was first written. -/
def waiting : PyVal := nextRecord bare .none (.handle handle) 0 none

def stored : Records :=
  (Store.empty.put "state/llm_deferred_index/v2-ref/job.json"
    (.json (.dict [("recipe_hash", .str "hash")]))).put (deferredKey "hash") (.json waiting)

def pruning : Call :=
  .pruneExpiredDeferredSnapshot [⟨deferredKey "hash", waiting, some (.handle handle), false⟩]
    (some 10) 1

def completing : Call :=
  .writeDeferred ["second"] (.result ⟨"agenda", "hash", .str "paid", none, none, none, none, none,
    none⟩) (some 10) none

def completed : PyVal :=
  nextRecord bare waiting (.result ⟨"agenda", "hash", .str "paid", none, none, none, none, none,
    none⟩) 10 none

def expired : Config (registry bare "hash") := start stored (fun _ => none) 10

def beside : Config (registry bare "hash") where
  state := expired.state
  workers := [⟨pruning, (pruning.session bare "hash").run⟩,
    ⟨completing, (completing.session bare "hash").run⟩]

/-- The prune reads the record again, the result is written under the lock, and
the prune deletes it. -/
def race : List (Event (registry bare "hash")) :=
  .run 0 .works :: List.replicate 6 (.run 1 .works) ++ [.run 0 .works]

theorem indexed_stored : Indexed bare "hash" stored := by
  rintro data ⟨etag, present⟩ _ key member
  cases (Store.put_object_same _ _ _).symm.trans present
  have named : indexKeys bare waiting "hash" = ["state/llm_deferred_index/v2-ref/job.json"] := by
    decide
  rw [named, List.mem_singleton] at member
  subst member
  rfl

theorem beside_started : Run Allowed expired beside := by
  have pruned : Run Allowed expired
      ⟨expired.state, [⟨pruning, (pruning.session bare "hash").run⟩]⟩ := by
    refine .step .refl (.start pruning) ⟨fun _ member => (nomatch member), ?_⟩ rfl
    intro call started
    cases started
    refine ⟨fun entry member => ?_, fun _ member => (nomatch member)⟩
    cases List.mem_singleton.mp member
    rfl
  refine .step pruned (.start completing) ⟨?_, ?_⟩ rfl
  · rintro worker _ ⟨_, _, _, expiry, held⟩
    cases held
  · intro call started
    cases started
    refine ⟨trivial, fun worker member token owned => ?_⟩
    cases List.mem_singleton.mp member
    cases owned

/-- The result that was written after the prune had read the record is gone. -/
theorem prune_removes_newer : Indexed bare "hash" stored ∧
    ∃ config : Config (registry bare "hash"), Run Allowed expired config ∧
      ∃ deletion ∈ config.state.deletions, deletion.key = deferredKey "hash" ∧
        deletion.judged = some (.json waiting, 1) ∧
        deletion.removed = some (.json completed, 2) := by
  refine ⟨indexed_stored, ?_⟩
  obtain ⟨config, executed, removed⟩ : ∃ config : Config (registry bare "hash"),
      beside.execute inTime race = some config ∧
        ∃ deletion ∈ config.state.deletions, deletion.key = deferredKey "hash" ∧
          deletion.judged = some (.json waiting, 1) ∧
          deletion.removed = some (.json completed, 2) :=
    ⟨_, rfl, _, List.mem_cons_self, rfl, rfl, rfl⟩
  exact ⟨config, beside_started.trans ((Run.of_execute executed).weaken allowed_of_inTime), removed⟩

end Deferred

end CityPods.Compute
