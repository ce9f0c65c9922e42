import CityPods.Foundation.Interleaving

/-! # Histories of a shared store

In every interleaving of calls that meet their contracts, the recorded writes
form a valid history: each one replaces the latest value of its object and is
permitted by the contract of its call. Statements about all interleavings then
follow by induction over valid histories, with no programs in them.
-/

namespace CityPods.Foundation

variable {S : Service K V Q N Time}

/-! ## Reading a history -/

section

variable [DecidableEq K]

/-- The object stored under `key` after the writes of `history`. -/
def latest (initial : Store K V) : List (Event S) → K → Option (V × ETag)
  | [], key => initial.object key
  | event :: older, key =>
      if event.key = key then event.after else latest initial older key

@[simp] theorem latest_nil (initial : Store K V) (key : K) :
    latest initial ([] : List (Event S)) key = initial.object key := rfl

theorem latest_cons_same (initial : Store K V) {event : Event S} (older : List (Event S)) :
    latest initial (event :: older) event.key = event.after := by
  simp [latest]

theorem latest_cons_other (initial : Store K V) {event : Event S} (older : List (Event S))
    {key : K} (different : event.key ≠ key) :
    latest initial (event :: older) key = latest initial older key := by
  simp [latest, different]

end

def writesOf (worker : Nat) (history : List (Event S)) : Writes K V :=
  (history.filter (·.worker == worker)).map fun event => (event.key, event.after.map Prod.fst)

variable {event : Event S} {worker : Nat}

theorem writesOf_cons_same (older : List (Event S)) (same : event.worker = worker) :
    writesOf worker (event :: older) =
      (event.key, event.after.map Prod.fst) :: writesOf worker older := by
  simp [writesOf, same]

theorem writesOf_cons_other (older : List (Event S)) (different : event.worker ≠ worker) :
    writesOf worker (event :: older) = writesOf worker older := by
  simp [writesOf, different]

def recorded (initial : Store K V) (history : List (Event S)) : Knowledge K V :=
  fun key value etag =>
    initial.object key = some (value, etag) ∨
      ∃ event ∈ history, event.key = key ∧ event.after = some (value, etag)

theorem recorded_cons (initial : Store K V) (event : Event S) (older : List (Event S)) :
    (recorded initial older).Le (recorded initial (event :: older)) := by
  rintro key value etag (stored | ⟨old, member, fact⟩)
  · exact .inl stored
  · exact .inr ⟨old, List.mem_cons_of_mem event member, fact⟩

variable {key : K} {value : V} {etag : ETag}

theorem recorded_cons_iff {initial : Store K V} {older : List (Event S)} :
    recorded initial (event :: older) key value etag ↔
      recorded initial older key value etag ∨
        (event.key = key ∧ event.after = some (value, etag)) := by
  simp only [recorded, List.mem_cons, exists_eq_or_imp, or_assoc]
  exact or_congr_right or_comm

theorem recorded_latest [DecidableEq K] (initial : Store K V) (history : List (Event S))
    (stored : latest initial history key = some (value, etag)) :
    recorded initial history key value etag := by
  induction history with
  | nil => exact .inl stored
  | cons event older induction =>
      by_cases same : event.key = key
      · subst same
        rw [latest_cons_same] at stored
        exact .inr ⟨event, List.mem_cons_self, rfl, stored⟩
      · rw [latest_cons_other initial older same] at stored
        exact recorded_cons initial event older _ _ _ (induction stored)

section

variable [DecidableEq K] [LinearOrder Time]

/-- Each event replaces the latest object, is permitted by the contract of its
call, and happens no earlier than the older events and the start of its call. -/
inductive ValidHistory (contract : S.Call → Contract K V Q N S.Result) (initial : Store K V) :
    List (Event S) → Prop
  | nil : ValidHistory contract initial []
  | cons {event : Event S} {older : List (Event S)}
      (valid : ValidHistory contract initial older)
      (replaces : event.before = latest initial older event.key)
      (permitted : ∃ remaining, (contract event.call).writes (writesOf event.worker older)
        event.key (event.before.map Prod.fst) (event.after.map Prod.fst) remaining)
      (later : ∀ old ∈ older, old.time ≤ event.time)
      (started : ∃ start ≤ event.time, S.mayStart start event.call = true) :
      ValidHistory contract initial (event :: older)

variable {contract : S.Call → Contract K V Q N S.Result}

theorem ValidHistory.older {initial : Store K V} {newer history : List (Event S)}
    (valid : ValidHistory contract initial (newer ++ history)) :
    ValidHistory contract initial history := by
  induction newer with
  | nil => exact valid
  | cons event newer induction =>
      cases valid with
      | cons valid => exact induction valid

/-! ## Every run has a valid history -/

/-- The invariant that ties the workers' remaining programs to the history. -/
structure Sound (contract : S.Call → Contract K V Q N S.Result) (initial : Store K V)
    (config : Config S) : Prop where
  valid : ValidHistory contract initial config.history
  object : ∀ key, config.store.object key = latest initial config.history key
  fresh : ∀ key value etag,
    recorded initial config.history key value etag → etag < config.store.nextETag
  unique : ∀ key value other etag, recorded initial config.history key value etag →
    recorded initial config.history key other etag → other = value
  meets : ∀ (index : Nat) (worker : Worker S), config.workers[index]? = some worker →
    worker.program.Meets (contract worker.call) (recorded initial config.history)
      (writesOf index config.history)
  started : ∀ worker ∈ config.workers,
    ∃ start ≤ config.clock, S.mayStart start worker.call = true
  recent : ∀ event ∈ config.history, event.time ≤ config.clock
  issuer : ∀ event ∈ config.history,
    ∃ worker, config.workers[event.worker]? = some worker ∧ worker.call = event.call

namespace Sound

variable {contract : S.Call → Contract K V Q N S.Result} {initial : Store K V}
  {config : Config S}

theorem base (fresh : initial.Fresh) (clock : Time) :
    Sound contract initial (Config.init initial clock : Config S) where
  valid := .nil
  object _ := rfl
  fresh := by
    rintro key value etag (stored | ⟨event, member, _⟩)
    · exact fresh key value etag stored
    · cases member
  unique := by
    rintro key value other etag (stored | ⟨event, member, _⟩) (otherStored | ⟨event, member, _⟩)
    · rw [stored] at otherStored
      cases otherStored
      rfl
    all_goals cases member
  meets := by
    intro index worker present
    simp [Config.init] at present
  started := by
    intro worker member
    cases member
  recent := by
    intro event member
    cases member
  issuer := by
    intro event member
    cases member

theorem tick (sound : Sound contract initial config) {now : Time} (later : config.clock ≤ now) :
    Sound contract initial { config with clock := now } where
  valid := sound.valid
  object := sound.object
  fresh := sound.fresh
  unique := sound.unique
  meets := sound.meets
  started := by
    intro worker member
    obtain ⟨start, early, permitted⟩ := sound.started worker member
    exact ⟨start, early.trans later, permitted⟩
  recent event member := (sound.recent event member).trans later
  issuer := sound.issuer

theorem writesOf_new (sound : Sound contract initial config) :
    writesOf config.workers.length config.history = [] := by
  rw [writesOf, List.map_eq_nil_iff, List.filter_eq_nil_iff]
  intro event member equal
  obtain ⟨worker, present, _⟩ := sound.issuer event member
  obtain ⟨inside, _⟩ := List.getElem?_eq_some_iff.mp present
  rw [beq_iff_eq.mp equal] at inside
  exact Nat.lt_irrefl _ inside

theorem start (sound : Sound contract initial config) {call : S.Call}
    (permitted : S.mayStart config.clock call = true)
    (meets : (S.program call).Meets (contract call) Knowledge.none []) :
    Sound contract initial
      { config with workers := config.workers ++ [⟨call, S.program call⟩] } where
  valid := sound.valid
  object := sound.object
  fresh := sound.fresh
  unique := sound.unique
  meets := by
    intro index worker present
    by_cases old : index < config.workers.length
    · rw [List.getElem?_append_left old] at present
      exact sound.meets index worker present
    · rw [List.getElem?_append_right (Nat.le_of_not_lt old),
        List.getElem?_singleton] at present
      split at present
      · next first =>
          cases present
          have last : index = config.workers.length := by omega
          subst last
          show Program.Meets _ _ (writesOf config.workers.length config.history) _
          rw [sound.writesOf_new]
          exact meets.mono (Knowledge.none_le _)
      · cases present
  started := by
    intro worker member
    rcases List.mem_append.mp member with member | member
    · exact sound.started worker member
    · cases List.mem_singleton.mp member
      exact ⟨config.clock, le_refl _, permitted⟩
  recent := sound.recent
  issuer := by
    intro event member
    obtain ⟨worker, present, same⟩ := sound.issuer event member
    obtain ⟨inside, _⟩ := List.getElem?_eq_some_iff.mp present
    exact ⟨worker, by rwa [List.getElem?_append_left inside], same⟩

variable {index : Nat} {next : Program K V Q N S.Result}

/-- A step that leaves the store alone. -/
theorem resume (sound : Sound contract initial config) {worker : Worker S}
    (present : config.workers[index]? = some worker)
    (meets : next.Meets (contract worker.call) (recorded initial config.history)
      (writesOf index config.history)) :
    Sound contract initial (config.resume index worker.call next) where
  valid := sound.valid
  object := sound.object
  fresh := sound.fresh
  unique := sound.unique
  meets := by
    intro other otherWorker otherPresent
    simp only [Config.resume, List.getElem?_set] at otherPresent
    split at otherPresent
    · next same =>
        subst same
        split at otherPresent
        · cases otherPresent
          exact meets
        · cases otherPresent
    · exact sound.meets other otherWorker otherPresent
  started := by
    intro other member
    rcases List.mem_or_eq_of_mem_set member with member | rfl
    · exact sound.started other member
    · exact sound.started worker (List.mem_of_getElem? present)
  recent := sound.recent
  issuer := by
    intro event member
    obtain ⟨issuer, issuerPresent, same⟩ := sound.issuer event member
    by_cases own : index = event.worker
    · subst own
      rw [present] at issuerPresent
      cases issuerPresent
      obtain ⟨inside, _⟩ := List.getElem?_eq_some_iff.mp present
      exact ⟨⟨worker.call, next⟩, by simp [Config.resume, inside], same⟩
    · exact ⟨issuer, by simpa [Config.resume, own] using issuerPresent, same⟩

/-- A successful write, given what it may replace and that it stores either
nothing or a value under an unused ETag. -/
theorem commit (sound : Sound contract initial config) {worker : Worker S}
    (present : config.workers[index]? = some worker) {store : Store K V}
    (permitted : (contract worker.call).writes (writesOf index config.history) key
      ((config.store.object key).map Prod.fst) ((store.object key).map Prod.fst) next)
    (frame : ∀ other, other ≠ key → store.object other = config.store.object other)
    (grows : config.store.nextETag ≤ store.nextETag)
    (issues : ∀ value etag, store.object key = some (value, etag) →
      config.store.nextETag ≤ etag ∧ etag < store.nextETag)
    (meets : next.Meets (contract worker.call) (recorded initial config.history)
      ((key, (store.object key).map Prod.fst) :: writesOf index config.history)) :
    Sound contract initial (config.commit index worker.call key store next) where
  valid := by
    refine .cons sound.valid (sound.object key) ⟨next, permitted⟩ sound.recent ?_
    exact sound.started worker (List.mem_of_getElem? present)
  object := by
    intro other
    by_cases same : key = other
    · subst same
      simp [Config.commit, Config.record, latest]
    · have different : other ≠ key := fun equal => same equal.symm
      simpa [Config.commit, Config.record, latest, same, frame other different] using sound.object other
  fresh := by
    intro other value etag fact
    rcases recorded_cons_iff.mp fact with old | ⟨_, stored⟩
    · exact Nat.lt_of_lt_of_le (sound.fresh other value etag old) grows
    · exact (issues value etag stored).2
  unique := by
    intro other value otherValue etag fact otherFact
    rcases recorded_cons_iff.mp fact with old | ⟨_, stored⟩ <;>
      rcases recorded_cons_iff.mp otherFact with otherOld | ⟨_, otherStored⟩
    · exact sound.unique other value otherValue etag old otherOld
    · exact absurd (sound.fresh other value etag old)
        (Nat.not_lt.mpr (issues otherValue etag otherStored).1)
    · exact absurd (sound.fresh other otherValue etag otherOld)
        (Nat.not_lt.mpr (issues value etag stored).1)
    · cases stored.symm.trans otherStored
      rfl
  meets := by
    intro other otherWorker otherPresent
    have more := recorded_cons initial (config.record index worker.call key store)
      config.history
    have issued : (config.record index worker.call key store).worker = index := rfl
    simp only [Config.commit, List.getElem?_set] at otherPresent
    split at otherPresent
    · next same =>
        subst same
        split at otherPresent
        · cases otherPresent
          simp only [Config.commit]
          rw [writesOf_cons_same _ issued]
          exact meets.mono more
        · cases otherPresent
    · next different =>
        simp only [Config.commit]
        rw [writesOf_cons_other _ (issued ▸ different)]
        exact (sound.meets other otherWorker otherPresent).mono more
  started := by
    intro other member
    rcases List.mem_or_eq_of_mem_set member with member | rfl
    · exact sound.started other member
    · exact sound.started worker (List.mem_of_getElem? present)
  recent := by
    intro event member
    rcases List.mem_cons.mp member with rfl | member
    · exact le_refl _
    · exact sound.recent event member
  issuer := by
    obtain ⟨inside, _⟩ := List.getElem?_eq_some_iff.mp present
    intro event member
    rcases List.mem_cons.mp member with rfl | member
    · exact ⟨⟨worker.call, next⟩, by simp [Config.commit, Config.record, inside], rfl⟩
    · obtain ⟨issuer, issuerPresent, same⟩ := sound.issuer event member
      by_cases own : index = event.worker
      · subst own
        rw [present] at issuerPresent
        cases issuerPresent
        exact ⟨⟨worker.call, next⟩, by simp [Config.commit, inside], same⟩
      · exact ⟨issuer, by simpa [Config.commit, own] using issuerPresent, same⟩

/-- An admitted write replaces something its program allowed for. -/
theorem allows_of_admits (sound : Sound contract initial config)
    {condition : Condition} (admitted : config.store.admits key condition = true) :
    (recorded initial config.history).Allows key condition
      ((config.store.object key).map Prod.fst) := by
  cases condition with
  | always => trivial
  | ifNoneMatch => simpa [Store.admits, Knowledge.Allows] using admitted
  | ifMatch etag =>
      cases stored : config.store.object key with
      | none => simp [Store.admits, stored] at admitted
      | some object =>
          obtain ⟨value, current⟩ := object
          have same : current = etag := by simpa [Store.admits, stored] using admitted
          subst same
          have fact := recorded_latest initial config.history (sound.object key ▸ stored)
          exact ⟨value, rfl, fun other otherFact =>
            sound.unique key value other current fact otherFact⟩

theorem move (sound : Sound contract initial config) {worker : Worker S}
    (present : config.workers[index]? = some worker) {program : Program K V Q N S.Result}
    (same : worker.program = program) {after : Config S}
    (moved : Move config index worker.call program after) :
    Sound contract initial after := by
  have meets := same ▸ sound.meets index worker present
  cases moved with
  | get key next =>
      cases stored : config.store.object key with
      | none => exact sound.resume present meets.1
      | some object =>
          have fact := recorded_latest initial config.history (sound.object key ▸ stored)
          exact sound.resume present ((meets.2 object.1 object.2).mono
            (Knowledge.learn_le (Knowledge.Le.refl _) fact))
  | written key value condition next admitted =>
      apply sound.commit present
      · simpa using meets.1 _ (sound.allows_of_admits admitted)
      · exact fun other different => config.store.put_object_other value different
      · simp
      · intro stored etag equal
        simp only [Store.put_object_same, Option.some.injEq, Prod.mk.injEq] at equal
        obtain ⟨rfl, rfl⟩ := equal
        simp
      · simpa using meets.2.1
  | refused key value condition next rejected =>
      refine sound.resume present (meets.2.2 ?_)
      rintro rfl
      simp [Store.admits] at rejected
  | deleted key next =>
      apply sound.commit present
      · simpa using meets.1 _
      · exact fun other different => config.store.delete_object_other different
      · simp
      · intro value etag equal
        simp at equal
      · simpa using meets.2
  | answered query next reply => exact sound.resume present (meets reply)
  | noted message next => exact sound.resume present meets

theorem step (sound : Sound contract initial config)
    (meets : ∀ call, (S.program call).Meets (contract call) Knowledge.none [])
    {step : Step S} {after : Config S} (stepped : config.step step = some after) :
    Sound contract initial after := by
  cases step with
  | tick now =>
      obtain ⟨later, rfl⟩ := Config.step_tick stepped
      exact sound.tick later
  | start call =>
      obtain ⟨permitted, rfl⟩ := Config.step_start stepped
      exact sound.start permitted (meets call)
  | run index reply =>
      obtain ⟨worker, present, moved⟩ := Config.step_run stepped
      exact sound.move present rfl moved

end Sound

theorem Run.sound (meets : ∀ call, (S.program call).Meets (contract call) Knowledge.none [])
    {store : Store K V} (fresh : store.Fresh) {clock : Time}
    {allowed : Config S → Step S → Prop} {config : Config S}
    (run : Run allowed (Config.init store clock) config) :
    Sound contract store config :=
  run.invariant (Sound contract store) (Sound.base fresh clock)
    fun _ _ _ _ sound _ stepped => sound.step meets stepped

end

end CityPods.Foundation
