import CityPods.Ops.LeaseTerms

/-! # Maintenance leases exclude each other

Any number of workflows acquire, renew, assert and release leases, one clock
reading or storage call at a time.
-/

namespace CityPods.Ops

open Foundation
open Foundation.Objects (Session Terms Forward Touches)
open Foundation.Tasks (Config Event Run Worker Conduct mem_resume)

namespace MaintenanceLeases

/-! ## Runs -/

def Call.leases : Call → List MaintenanceLease
  | .acquire .. => []
  | .renew handle => handle.leases
  | .assertHeld handle => handle.leases
  | .release handle => handle.leases

/-- Some `acquire` has returned the lease; its ETag may have changed since. -/
def Issued (config : Config workflows) (lease : MaintenanceLease) : Prop :=
  ∃ (call : Call) (handle : Handle) (issued : MaintenanceLease), call.Acquires ∧
    (⟨call, .done (.ok handle)⟩ : Worker workflows) ∈ config.workers ∧ issued ∈ handle.leases ∧
      lease = { issued with etag := lease.etag }

/-- Every token is drawn once, and a workflow uses the leases that it was given.
A workflow that dies takes no further steps. -/
def Allowed (config : Config workflows) : Event workflows → Prop
  | .start call =>
      (call.tokens.Nodup ∧ ∀ token ∈ call.tokens, Unissued token config.state ∧
        ∀ worker ∈ config.workers, token ∉ worker.call.tokens) ∧
      ∀ lease ∈ call.leases, Issued config lease
  | .kill _ => False
  | _ => True

def start (store : Store String Data) (clock : Int) : Config workflows where
  state := { store := store, clock := clock }
  workers := []

structure Apart (config : Config workflows) : Prop where
  tokens : ∀ (index other : Nat) (worker sibling : Worker workflows), index ≠ other →
    config.workers[index]? = some worker → config.workers[other]? = some sibling →
      ∀ token ∈ worker.call.tokens, token ∉ sibling.call.tokens
  leases : ∀ worker ∈ config.workers, ∀ lease ∈ worker.call.leases, Issued config lease

variable {config after : Config workflows} {event : Event workflows}

theorem Issued.moves
    {lease : MaintenanceLease} (issued : Issued config lease) (permitted : Allowed config event)
    (moves : config.Moves event after) : Issued after lease := by
  obtain ⟨call, handle, other, acquires, member, within, same⟩ := issued
  refine ⟨call, handle, other, acquires, ?_, within, same⟩
  cases moves with
  | drift choice state drifted => exact member
  | start started mayStart => exact List.mem_append_left _ member
  | run index choice running op next present reply state answered =>
      obtain ⟨place, inside, found⟩ := List.mem_iff_getElem.mp member
      have different : index ≠ place := by
        rintro rfl
        rw [List.getElem?_eq_getElem inside, found] at present
        cases present
      refine List.mem_of_getElem? (i := place) ?_
      rw [Tasks.Config.resume, List.getElem?_set_ne different, List.getElem?_eq_getElem inside, found]
  | kill index => exact permitted.elim

theorem Allowed.alive (permitted : Allowed config event) (place : Nat) : event ≠ .kill place := by
  rintro rfl
  exact permitted

theorem Apart.moves (apart : Apart config) (permitted : Allowed config event)
    (moves : config.Moves event after) : Apart after where
  tokens index other worker sibling different present also token member shared := by
    rcases moves.call_at permitted.alive present with ⟨earlier, found, same⟩ | ⟨started, last⟩
    · rcases moves.call_at permitted.alive also with ⟨before, there, alike⟩ | ⟨started, last⟩
      · exact apart.tokens index other earlier before different found there token
          (same ▸ member) (alike ▸ shared)
      · subst started
        exact (permitted.1.2 token shared).2 earlier (List.mem_of_getElem? found) (same ▸ member)
    · subst started
      rcases moves.call_at (Allowed.alive permitted) also with ⟨before, there, alike⟩ | ⟨_, end_⟩
      · exact (permitted.1.2 token member).2 before (List.mem_of_getElem? there) (alike ▸ shared)
      · exact different (last.trans end_.symm)
  leases worker member lease handed := by
    obtain ⟨index, present⟩ := List.mem_iff_getElem?.mp member
    rcases moves.call_at permitted.alive present with ⟨earlier, found, same⟩ | ⟨started, last⟩
    · exact (apart.leases earlier (List.mem_of_getElem? found) lease (same ▸ handed)).moves
        permitted moves
    · subst started
      exact (permitted.2 lease handed).moves permitted moves

section

variable {store : Store String Data} {clock : Int} {config : Config workflows}

theorem apart_of_run (run : Run Allowed (start store clock) config) : Apart config := by
  refine run.invariant Apart ⟨?_, ?_⟩ fun _ _ _ apart permitted moves => apart.moves permitted moves
  · intro index other worker sibling _ present
    cases present
  · intro worker member
    cases member

/-! ## The bargains fit together -/

def conduct : Conduct workflows where
  bargain call := call.terms.bargain
  promise := Call.Promises

theorem spared_of_touches {acquires : Prop} {pairs : List (String × String)} {token : String}
    {state after : State} (touches : Touches (Permitted acquires pairs state) state after)
    (other : ∀ pair ∈ pairs, token ≠ pair.2) : Spared token state after where
  unwritten := (leaves_of_touches [token] touches).2 token (List.mem_singleton_self _) other
  kept key payload carries live := by
    cases touches with
    | same => rfl
    | read => rfl
    | put at_ data permitted =>
        by_cases same : key = at_
        · subst same
          obtain ⟨_, written, rfl, owned, named, ⟨previous, mine⟩ | ⟨_, _, idle⟩⟩ := permitted
          · exact absurd (carries.unique mine).2 (other _ owned)
          · obtain ⟨etag, stored, _⟩ := carries
            exact absurd ⟨payload, etag, stored, live⟩ idle
        · exact object_put_other state _ same

theorem Call.pairs_cases (call : Call) :
    (∀ pair ∈ call.pairs, pair.2 ∈ call.tokens) ∨
      call.pairs = call.leases.map MaintenanceLease.pair := by
  cases call with
  | acquire => exact .inl fun pair member => List.mem_map_of_mem member
  | renew => exact .inr rfl
  | assertHeld => exact .inr rfl
  | release => exact .inr rfl

/-- A token that a call writes was drawn by an `acquire`: the call itself, or
one that has returned. -/
theorem Apart.source (apart : Apart config)
    (kept : conduct.Kept Allowed (start store clock) config) {index : Nat}
    {worker : Worker workflows} (present : config.workers[index]? = some worker)
    {pair : String × String} (member : pair ∈ worker.call.pairs) :
    ∃ (place : Nat) (origin : Worker workflows), config.workers[place]? = some origin ∧
      pair.2 ∈ origin.call.tokens ∧ (place = index ∨ conduct.Settled origin) := by
  rcases worker.call.pairs_cases with drawn | handed
  · exact ⟨index, worker, present, drawn pair member, .inl rfl⟩
  · rw [handed] at member
    obtain ⟨lease, within, rfl⟩ := List.mem_map.mp member
    obtain ⟨call, handle, issued, acquires, returned, among, same⟩ :=
      apart.leases worker (List.mem_of_getElem? present) lease within
    obtain ⟨place, there⟩ := List.mem_iff_getElem?.mp returned
    obtain ⟨began, _, _, _, safe⟩ := kept _ returned
    have named : lease.pair = issued.pair := by rw [same]; rfl
    cases call with
    | acquire casCapable owner keys ttlSeconds maxAttempts =>
        have issuedAll : handle.leases.map MaintenanceLease.pair = keys.pairs := safe.result
        refine ⟨place, _, there, ?_, .inr ⟨.ok handle, rfl, fun _ _ => issuedAll⟩⟩
        have paired : issued.pair ∈ keys.pairs := issuedAll ▸ List.mem_map_of_mem among
        rw [named]
        exact List.mem_map_of_mem paired
    | renew => exact acquires.elim
    | assertHeld => exact acquires.elim
    | release => exact acquires.elim

theorem conduct_sound (fresh : store.Fresh) : conduct.Sound Allowed (start store clock) where
  base := rfl
  drifted config choice after _ _ drifted worker _ := by
    have object : after.object = config.state.object := by
      cases choice with
      | tick clock =>
          obtain ⟨_, moved⟩ := Option.ite_none_right_eq_some.mp drifted
          cases moved
          rfl
      | works => cases drifted
      | fails => cases drifted
    exact .inl ⟨.drift drifted, fun token _ =>
      ⟨fun key _ _ => congrFun object key, fun key _ _ _ => congrFun object key⟩⟩
  started config call run permitted _ :=
    call_safe call ((Forward.run run).fresh fresh) permitted.1.1
      fun token member => (permitted.1.2 token member).1
  assumed _ _ _ _ _ _ _ _ _ := trivial
  apart config run kept index other _ call op next worker _ after different _ present also _
      touches := by
    have apart := apart_of_run run
    by_cases settled : conduct.Settled worker
    · exact .inr settled
    · refine .inl ⟨Touches.forward touches, fun token member => ?_⟩
      refine spared_of_touches touches fun pair within same => ?_
      obtain ⟨place, origin, there, drawn, mine | above⟩ := apart.source kept present within
      · subst mine
        exact apart.tokens other place worker origin different.symm also there token member
          (same ▸ drawn)
      · by_cases here : place = other
        · subst here
          cases also.symm.trans there
          exact settled above
        · exact apart.tokens other place worker origin (Ne.symm here) also there token member
            (same ▸ drawn)

end

/-! ## What was last written under a token -/

def Data.under (token : String) : Data → Option Payload
  | .lease payload => if payload.token = some token then some payload else none
  | .corrupt => none

theorem Data.under_eq_some {token : String} {data : Data} {payload : Payload} :
    data.under token = some payload ↔ data = .lease payload ∧ payload.token = some token := by
  cases data with
  | corrupt => simp [Data.under]
  | lease other =>
      simp only [Data.under, Option.ite_none_right_eq_some, Option.some.injEq, Data.lease.injEq]
      constructor
      · rintro ⟨named, rfl⟩
        exact ⟨rfl, named⟩
      · rintro ⟨rfl, named⟩
        exact ⟨named, rfl⟩

def writtenUnder (key token : String) : Objects.Entry String Data Int → Option Payload
  | .wrote other data => if other = key then data.under token else none
  | _ => none

def lastUnder (store : Store String Data) (state : State) (key token : String) : Option Payload :=
  (state.log.findSome? (writtenUnder key token)).or
    ((store.object key).bind fun object => object.1.under token)

/-- The lease that was last written to the key under the token is neither
released nor expired. -/
def InForce (store : Store String Data) (state : State) (key token : String) : Prop :=
  ∃ payload, lastUnder store state key token = some payload ∧ payload.Live state.clock

/-- The objects say what was last written under each token that is in force. -/
structure Current (store : Store String Data) (state : State) : Prop where
  recorded : ∀ key token payload, Carries state key token payload →
    lastUnder store state key token = some payload
  stored : ∀ key token payload, lastUnder store state key token = some payload →
    payload.Live state.clock → Carries state key token payload

section

variable {store : Store String Data} {state after : State}

theorem current_start (store : Store String Data) (clock : Int) :
    Current store (start store clock).state where
  recorded key token payload carries := by
    obtain ⟨etag, present, named⟩ := carries
    exact Option.bind_eq_some_iff.mpr ⟨_, present, Data.under_eq_some.mpr ⟨rfl, named⟩⟩
  stored key token payload last _ := by
    obtain ⟨⟨data, etag⟩, found, under⟩ := Option.bind_eq_some_iff.mp last
    obtain ⟨rfl, named⟩ := Data.under_eq_some.mp under
    exact ⟨etag, found, named⟩

theorem Current.tick (current : Current store state) {clock : Int} (ahead : state.clock ≤ clock) :
    Current store { state with clock := clock } where
  recorded := current.recorded
  stored key token payload last live :=
    current.stored key token payload last (live.earlier ahead)

theorem lastUnder_put (key other token : String) (data : Data) :
    lastUnder store (state.put key data) other token =
      if key = other then (data.under token).or (lastUnder store state other token)
      else lastUnder store state other token := by
  have newest : (state.put key data).log = .wrote key data :: state.log := rfl
  rw [lastUnder, newest, List.findSome?_cons, writtenUnder]
  by_cases same : key = other
  · rw [if_pos same, if_pos same]
    cases data.under token <;> rfl
  · rw [if_neg same, if_neg same]
    rfl

theorem Current.touches {acquires : Prop} {pairs : List (String × String)}
    (current : Current store state)
    (touches : Touches (Permitted acquires pairs state) state after) : Current store after := by
  cases touches with
  | same => exact current
  | read key => exact ⟨current.recorded, current.stored⟩
  | put key data permitted =>
      obtain ⟨written, token, rfl, owned, named, above⟩ := permitted
      constructor
      · rintro other another payload ⟨etag, present, carried⟩
        rw [lastUnder_put]
        by_cases same : key = other
        · subst same
          rw [object_put_self] at present
          cases present
          rw [if_pos rfl, Data.under_eq_some.mpr ⟨rfl, carried⟩]
          rfl
        · rw [object_put_other state _ (Ne.symm same)] at present
          rw [if_neg same]
          exact current.recorded other another payload ⟨etag, present, carried⟩
      · intro other another payload last live
        rw [lastUnder_put] at last
        by_cases same : key = other
        · subst same
          rw [if_pos rfl] at last
          by_cases mine : another = token
          · subst mine
            rw [Data.under_eq_some.mpr ⟨rfl, named⟩] at last
            cases last
            exact ⟨_, object_put_self state key _, named⟩
          · -- a lease in force under another token would have refused this write
            have unnamed : (Data.lease written).under another = none := by
              rw [Data.under, if_neg]
              intro also
              exact mine (Option.some.inj (also.symm.trans named))
            rw [unnamed] at last
            have carries := current.stored key another payload last live
            rcases above with ⟨previous, own⟩ | ⟨_, _, idle⟩
            · exact absurd (carries.unique own).2 mine
            · obtain ⟨etag, present, _⟩ := carries
              exact absurd ⟨payload, etag, present, live⟩ idle
        · rw [if_neg same] at last
          obtain ⟨etag, present, carried⟩ := current.stored other another payload last live
          exact ⟨etag, (object_put_other state _ (Ne.symm same)).trans present, carried⟩

theorem Current.holds_iff (current : Current store state) (key token : String) :
    InForce store state key token ↔ Holds state key token := by
  constructor
  · rintro ⟨payload, last, live⟩
    exact ⟨payload, current.stored key token payload last live, live⟩
  · rintro ⟨payload, carries, live⟩
    exact ⟨payload, current.recorded key token payload carries, live⟩

end

/-! ## Exclusion -/

section

variable {store : Store String Data} {clock : Int} {config after : Config workflows}
  {event : Event workflows}

theorem current_of_run (fresh : store.Fresh) (run : Run Allowed (start store clock) config) :
    Current store config.state := by
  induction run with
  | refl => exact current_start store clock
  | step run event permitted stepped current =>
      cases Config.step_moves stepped with
      | drift choice state drifted =>
          cases choice with
          | tick clock =>
              obtain ⟨ahead, moved⟩ := Option.ite_none_right_eq_some.mp drifted
              cases moved
              exact current.tick ahead
          | works => cases drifted
          | fails => cases drifted
      | start call mayStart => exact current
      | run index choice call op next present reply state answered =>
          have sound : conduct.Sound Allowed (start store clock) := conduct_sound fresh
          exact current.touches ((sound.kept run).performs sound run permitted present answered).1
      | kill index => exact permitted.elim

/-- The only steps that change an object: a call writes one of its own tokens,
over the same token, or over an object that is not held where it acquires. -/
def Replaces (config after : Config workflows) (event : Event workflows) (key : String) : Prop :=
  ∃ index choice worker, event = .run index choice ∧ config.workers[index]? = some worker ∧
    ∃ payload etag token, after.state.object key = some (.lease payload, etag) ∧
      (key, token) ∈ worker.call.pairs ∧ payload.token = some token ∧
        ((∃ previous, Carries config.state key token previous) ∨
          (worker.call.Acquires ∧ payload.state = some held ∧ ¬ Busy config.state key))

theorem replaces_of_moves (fresh : store.Fresh) (run : Run Allowed (start store clock) config)
    (permitted : Allowed config event) (moves : config.Moves event after) {key : String}
    (changed : after.state.object key ≠ config.state.object key) :
    Replaces config after event key := by
  cases moves with
  | drift choice state drifted =>
      cases choice with
      | tick clock =>
          obtain ⟨_, moved⟩ := Option.ite_none_right_eq_some.mp drifted
          cases moved
          exact absurd rfl changed
      | works => cases drifted
      | fails => cases drifted
  | start call mayStart => exact absurd rfl changed
  | run index choice call op next present reply state answered =>
      have sound : conduct.Sound Allowed (start store clock) := conduct_sound fresh
      have touches := ((sound.kept run).performs sound run permitted present answered).1
      refine ⟨index, choice, _, rfl, present, ?_⟩
      cases touches with
      | same => exact absurd rfl changed
      | read => exact absurd rfl changed
      | put at_ data written =>
          by_cases same : key = at_
          · subst same
            obtain ⟨payload, token, rfl, owned, named, above⟩ := written
            exact ⟨payload, _, token, object_put_self _ key _, owned, named, above⟩
          · exact absurd (object_put_other config.state data same) changed
  | kill index => exact permitted.elim

/-- In every run at most one token is in force for a key, and it is the one in
its object; an object changes only under the token it carries or, by an
`acquire`, while it is not held; an assertion that returned has read each of its
leases while it was its own and unexpired; and an `acquire` that raised without
a storage call of its clean-up raising leaves nothing held. -/
theorem leases_exclude (fresh : store.Fresh) (run : Run Allowed (start store clock) config) :
    (∀ key token other, InForce store config.state key token →
      InForce store config.state key other → token = other) ∧
    (∀ key token, InForce store config.state key token ↔ Holds config.state key token) ∧
    (∀ event after, Allowed config event → config.Moves event after → ∀ key,
      after.state.object key ≠ config.state.object key → Replaces config after event key) ∧
    (∀ handle result,
      (⟨.assertHeld handle, .done (.ok result)⟩ : Worker workflows) ∈ config.workers →
        ∃ began : Config workflows, Run Allowed (start store clock) began ∧
          Allowed began (.start (.assertHeld handle)) ∧ Run Allowed began config ∧
            ∀ lease ∈ handle.leases, Seen lease began.state config.state) ∧
    ∀ casCapable owner keys ttlSeconds maxAttempts raised,
      (⟨.acquire casCapable owner keys ttlSeconds maxAttempts, .done (.error raised)⟩ :
        Worker workflows) ∈ config.workers →
        (raised.context ≠ none → raised.error = .storage) ∧
          (raised.context = none → ∀ pair ∈ keys.pairs, Free pair.2 config.state) := by
  have current := current_of_run fresh run
  have sound : conduct.Sound Allowed (start store clock) := conduct_sound fresh
  refine ⟨?_, current.holds_iff, ?_, ?_, ?_⟩
  · intro key token other first second
    obtain ⟨_, carries, _⟩ := (current.holds_iff key token).mp first
    obtain ⟨_, also, _⟩ := (current.holds_iff key other).mp second
    exact (carries.unique also).2
  · exact fun event after permitted moves key changed =>
      replaces_of_moves fresh run permitted moves changed
  · exact fun handle result ended => sound.promised run ended
  · intro casCapable owner keys ttlSeconds maxAttempts raised ended
    obtain ⟨_, _, _, _, promised⟩ := sound.promised run ended
    exact promised

end

/-! ## A contested key -/

/-- The second key of a composite acquisition is held by someone else. -/
def contested : Store String Data :=
  Store.empty.put "locator" (encode "reset" "theirs" 60000000 held)

def contender : Call :=
  .acquire true "agenda" (.sequence [("agenda", "first"), ("locator", "second")]) 3600 8

/-- The first key is acquired, the second refused, and the first released. -/
def contest : List (Event workflows) := List.replicate 9 (.run 0 .works)

theorem contender_allowed : Allowed (start contested 0) (.start contender) := by
  refine ⟨⟨by decide, fun token member => ⟨?_, fun worker present => by cases present⟩⟩,
    fun lease member => by cases member⟩
  rintro key payload ⟨etag, stored, named⟩
  by_cases same : key = "locator"
  · subst same
    cases stored
    have theirs : token = "theirs" := (Option.some.inj named).symm
    subst theirs
    exact absurd member (by decide)
  · rw [start, contested] at stored
    cases (Store.put_object_other _ _ same).symm.trans stored

/-- Only steps of the calls that run already. -/
def onlyRuns (_ : Config workflows) : Event workflows → Bool
  | .run _ _ => true
  | _ => false

theorem onlyRuns_allowed (config : Config workflows) (event : Event workflows)
    (runs : onlyRuns config event = true) : Allowed config event := by
  cases event with
  | run index choice => trivial
  | drift choice => cases runs
  | start call => cases runs
  | kill index => cases runs

theorem leases_exclude_contested : ∃ config : Config workflows,
    Run Allowed (start contested 0) config ∧
      (⟨contender, .done (.error ⟨.busy "maintenance lease locator is held by reset", none⟩)⟩ :
        Worker workflows) ∈ config.workers ∧ Free "first" config.state := by
  have contended : Run Allowed (start contested 0)
      ⟨(start contested 0).state, [⟨contender, contender.session.run⟩]⟩ :=
    .step .refl (.start contender) contender_allowed rfl
  obtain ⟨config, executed, ended⟩ : ∃ config : Config workflows,
      Config.execute onlyRuns ⟨(start contested 0).state, [⟨contender, contender.session.run⟩]⟩
        contest = some config ∧
      (⟨contender, .done (.error ⟨.busy "maintenance lease locator is held by reset", none⟩)⟩ :
        Worker workflows) ∈ config.workers := ⟨_, rfl, List.mem_singleton.mpr rfl⟩
  have run := contended.trans ((Run.of_execute executed).weaken onlyRuns_allowed)
  have excluded := leases_exclude (Store.empty_fresh.put _ _) run
  have released := excluded.2.2.2.2 true "agenda" _ 3600 8 _ ended
  exact ⟨config, run, ended, released.2 rfl _ List.mem_cons_self⟩

end MaintenanceLeases

end CityPods.Ops
