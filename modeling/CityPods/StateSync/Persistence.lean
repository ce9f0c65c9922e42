import CityPods.Foundation.Sequential
import CityPods.StateSync.Push

/-! # What a published push has persisted

The effect of each part of a push on the bucket, when no other writer
interferes, and from it exactly when every candidate is persisted: a path that
is recorded as deleted is dropped from the manifest and removed from the bucket
even where the file exists again.
-/

namespace CityPods.StateSync

open Foundation Program

section

variable {codec : Codec Content} {backend : Backend} {call : PushCall Content}
  {answer : PushQuery → Bool} {store after : Store String Content}

/-! ## The parts of a push, run alone -/

def putAll (store : Store String Content) (changed : Dict String Content) :
    Store String Content :=
  changed.foldl (fun current file => current.put (stateKey file.1) file.2) store

variable {changed : Dict String Content}

theorem pushAll_exec {done : Unit} (ran : (pushAll changed).exec answer store = (.ok done, after)) :
    after = putAll store changed := by
  induction changed generalizing store with
  | nil =>
      cases ran
      rfl
  | cons file rest induction =>
      simp only [pushAll, bind_eq_bind, askFor_bind, exec_ask] at ran
      split at ran
      · cases ran
      · exact induction ran

variable {key : String}

theorem putAll_other (other : ∀ file ∈ changed, stateKey file.1 ≠ key) :
    (putAll store changed).object key = store.object key := by
  induction changed generalizing store with
  | nil => rfl
  | cons file rest induction =>
      rw [List.forall_mem_cons] at other
      exact (induction other.2).trans (store.put_object_other _ (Ne.symm other.1))

variable {rel : String} {content : Content}

theorem putAll_same (nodup : changed.keys.Nodup) (member : (rel, content) ∈ changed) :
    ((putAll store changed).object (stateKey rel)).map Prod.fst = some content := by
  induction changed generalizing store with
  | nil => cases member
  | cons file rest induction =>
      have parts := List.nodup_cons.mp nodup
      rcases List.mem_cons.mp member with rfl | later
      · have untouched : ∀ file ∈ rest, stateKey file.1 ≠ stateKey rel := by
          intro file inside same
          have named : file.1 ∈ Dict.keys rest := List.mem_map_of_mem (f := Prod.fst) inside
          exact parts.1 (stateKey_injective same ▸ named)
        have kept : (putAll (store.put (stateKey rel) content) rest).object (stateKey rel) = _ :=
          putAll_other untouched
        show ((putAll (store.put (stateKey rel) content) rest).object _).map _ = _
        rw [kept, Store.put_object_same]
        rfl
      · exact induction parts.2 later

variable {published : Manifest}

theorem publishCas_exec {attemptsLeft attempt : Nat}
    (ran : (publishCas codec call changed attemptsLeft attempt).exec answer store =
      (some published, after)) :
    ∃ attempt base, casBase codec ((store.object manifestKey).map Prod.fst) = .base base ∧
      published = call.merge codec changed attempt base ∧
      after = store.put manifestKey (codec.dumps published) := by
  induction attemptsLeft generalizing attempt with
  | zero => cases ran
  | succ attemptsLeft induction =>
      simp only [publishCas, bind_eq_bind, askFor_bind, exec_ask] at ran
      split at ran
      · exact induction ran
      · simp only [getBytes_bind, exec_get, publishOver] at ran
        split at ran
        · exact induction ran
        · cases ran
        · next base read =>
            simp only [bind_eq_bind, askFor_bind, exec_ask] at ran
            split at ran
            · exact induction ran
            · simp only [putCas_bind, exec_put_read, if_true] at ran
              cases ran
              exact ⟨attempt, base, read, rfl, rfl⟩

variable {manifest : Manifest}

theorem publishManifest_exec
    (ran : (publishManifest codec backend call changed manifest).exec answer store =
      (some published, after)) :
    ∃ attempt base, (casBase codec ((store.object manifestKey).map Prod.fst) = .base base ∨
        base = manifest) ∧
      published = call.merge codec changed attempt base ∧
      after = store.put manifestKey (codec.dumps published) := by
  unfold publishManifest at ran
  split at ran
  · obtain ⟨attempt, base, read, merged, stored⟩ := publishCas_exec ran
    exact ⟨attempt, base, .inl read, merged, stored⟩
  · cases ran
    exact ⟨0, manifest, .inr rfl, rfl, rfl⟩

theorem deleteAll_exec {rels : List String} (other : ∀ rel ∈ rels, stateKey rel ≠ key) :
    ((deleteAll rels : PushProgram Content _).exec answer store).2.object key =
      store.object key := by
  induction rels generalizing store with
  | nil => rfl
  | cons rel rest induction =>
      rw [List.forall_mem_cons] at other
      simp only [deleteAll, bind_eq_bind, askFor_bind, exec_ask]
      split
      · rw [exec_bind]
        exact induction other.2
      · exact (induction other.2).trans (store.delete_object_other (Ne.symm other.1))

theorem deletions_exec (other : ∀ rel ∈ call.deleted, stateKey rel ≠ key) :
    ((deletions backend call).exec answer store).2.object key = store.object key := by
  unfold deletions
  split
  · exact deleteAll_exec other
  · rfl

/-! ## A push that published -/

/-- The index that the push compares its files with. -/
def seenManifest (codec : Codec Content) (answer : PushQuery → Bool)
    (store : Store String Content) : Option Manifest :=
  if answer .manifestUnreadable then none
  else ((store.object manifestKey).map Prod.fst).bind (parseManifest codec)

/-- What a push has done once it has published `manifest`. -/
structure Publishes (codec : Codec Content) (call : PushCall Content)
    (remote : Option Manifest) (changed : Dict String Content)
    (store after : Store String Content) (manifest : Manifest) : Prop where
  merged : ∃ attempt base, manifest = call.merge codec changed attempt base ∧
    (casBase codec ((store.object manifestKey).map Prod.fst) = .base base ∨ base = remote.getD {})
  stored : (after.object manifestKey).map Prod.fst = some (codec.dumps manifest)
  objects : ∀ rel, reserved rel = false → rel ∉ call.deleted →
    after.object (stateKey rel) = (putAll store changed).object (stateKey rel)

variable {selected : Dict String Content} {remote : Option Manifest} {result : PushResult Content}

theorem publishAndDelete_exec (unreserved : ∀ file ∈ changed, reserved file.1 = false)
    (ran : (publishAndDelete codec backend call selected changed (remote.getD {})).exec answer
      (putAll store changed) = (result, after))
    (published : result.status = .published) :
    ∃ manifest, result.state.manifest = some manifest ∧
      Publishes codec call remote changed store after manifest := by
  simp only [publishAndDelete, bind_eq_bind, exec_bind] at ran
  have untouched : (putAll store changed).object manifestKey = store.object manifestKey :=
    putAll_other fun file member => stateKey_ne_manifestKey (unreserved file member)
  cases outcome : (publishManifest codec backend call changed (remote.getD {})).exec answer
    (putAll store changed) with
  | mk manifest middle =>
      rw [outcome] at ran
      cases manifest with
      | none =>
          cases ran
          cases published
      | some manifest =>
          obtain ⟨attempt, base, read, merged, stored⟩ := publishManifest_exec outcome
          simp only [exec_bind] at ran
          rw [untouched] at read
          have frame {key : String} (other : ∀ rel ∈ call.deleted, stateKey rel ≠ key) :
              after.object key = middle.object key :=
            (congrArg (fun outcome => outcome.2.object key) ran.symm).trans (deletions_exec other)
          refine ⟨manifest, ?_, ⟨⟨attempt, base, merged, read⟩, ?_, ?_⟩⟩
          · cases ran
            rfl
          · rw [frame fun rel member => stateKey_ne_manifestKey (call.deleted_unreserved member),
              stored, Store.put_object_same]
            rfl
          · intro rel free kept
            have other : ∀ other ∈ call.deleted, stateKey other ≠ stateKey rel := by
              intro other member same
              exact kept (stateKey_injective same ▸ member)
            rw [frame other, stored]
            exact Store.put_object_other _ _ (stateKey_ne_manifestKey free)

theorem loadManifest_exec : (loadManifest codec).exec answer store =
    (if answer .manifestReadRaises then .error .manifestRead
      else .ok (seenManifest codec answer store), store) := by
  simp only [loadManifest, seenManifest, bind_eq_bind, askFor_bind, exec_ask]
  cases answer .manifestReadRaises
  · simp only [Bool.false_eq_true, if_false, exec_ask]
    cases answer .manifestUnreadable <;> rfl
  · rfl

theorem pushChanged_exec (unreserved : ∀ file ∈ changed, reserved file.1 = false)
    (ran : (pushChanged codec backend call selected changed remote).exec answer store =
      (.ok result, after))
    (published : result.status = .published) :
    ∃ manifest, result.state.manifest = some manifest ∧
      Publishes codec call remote changed store after manifest := by
  unfold pushChanged at ran
  split at ran
  · cases ran
    cases published
  · rw [bind_eq_bind, exec_bind] at ran
    cases outcome : (pushAll changed).exec answer store with
    | mk reply middle =>
        rw [outcome] at ran
        cases reply with
        | error problem => cases ran
        | ok done =>
            rw [pushAll_exec outcome] at ran
            simp only at ran
            split at ran
            · cases ran
              cases published
            · rw [bind_eq_bind, exec_bind] at ran
              cases rest : (publishAndDelete codec backend call selected changed
                (remote.getD {})).exec answer (putAll store changed) with
              | mk returned final =>
                  rw [rest] at ran
                  cases ran
                  exact publishAndDelete_exec unreserved rest published

theorem pushState_exec (listed : candidates backend call = .ok selected)
    (ran : (pushState codec backend call).exec answer store = (.ok result, after))
    (published : result.status = .published) :
    ∃ manifest, result.state.manifest = some manifest ∧
      Publishes codec call (seenManifest codec answer store)
        (selected.filter (isChanged codec (seenManifest codec answer store))) store after
        manifest := by
  unfold pushState at ran
  split at ran
  · cases ran
    cases published
  · rw [listed] at ran
    simp only at ran
    split at ran
    · cases ran
      cases published
    · rw [bind_eq_bind, exec_bind, loadManifest_exec] at ran
      cases raises : answer .manifestReadRaises with
      | true =>
          rw [raises] at ran
          cases ran
      | false =>
          rw [raises] at ran
          have unreserved : ∀ file ∈ selected.filter (isChanged codec
              (seenManifest codec answer store)), reserved file.1 = false := fun file member =>
            (candidates_file listed (List.mem_of_mem_filter member)).2
          exact pushChanged_exec unreserved ran published

/-! ## Persisted candidates -/

/-- The bucket holds the file, and the stored manifest lists it as present. -/
structure Persisted (codec : Codec Content) (store : Store String Content) (rel : String)
    (content : Content) : Prop where
  object : (store.object (stateKey rel)).map Prod.fst = some content
  listed : ∃ manifest, ((store.object manifestKey).map fun stored => codec.loads stored.1) =
      some (.manifest manifest) ∧
    manifest.digestOf rel = some (codec.digest content) ∧ rel ∉ manifest.tombstones

/-- The file is not recorded as deleted, and where the manifest proves it
current the bucket already holds it. -/
structure Persistable (codec : Codec Content) (call : PushCall Content) (remote : Option Manifest)
    (store : Store String Content) (rel : String) (content : Content) : Prop where
  kept : rel ∉ call.deleted
  current : isChanged codec remote (rel, content) = false →
    (store.object (stateKey rel)).map Prod.fst = some content

theorem not_isChanged (current : isChanged codec remote (rel, content) = false) :
    ∃ manifest, remote = some manifest ∧ rel ∉ manifest.tombstones ∧
      manifest.digestOf rel = some (codec.digest content) := by
  cases remote with
  | none => cases current
  | some manifest =>
      simp only [isChanged, Bool.or_eq_false_iff, bne_eq_false_iff_eq] at current
      exact ⟨manifest, rfl, by simpa using current.1, current.2⟩

/-- An index that was read is the one that is merged into. -/
theorem base_of_seen {base : Manifest} (seen : seenManifest codec answer store = some manifest)
    (read : casBase codec ((store.object manifestKey).map Prod.fst) = .base base ∨
      base = (seenManifest codec answer store).getD {}) : base = manifest := by
  rcases read with read | rfl
  · unfold seenManifest at seen
    split at seen
    · cases seen
    · obtain ⟨content, stored, parsed⟩ := Option.bind_eq_some_iff.mp seen
      rw [stored] at read
      exact casBase_eq (parseManifest_eq parsed) read
  · rw [seen]
    rfl

section

variable {selected : Dict String Content} {manifest : Manifest} {rel : String} {content : Content}
  (nodup : selected.keys.Nodup) (member : (rel, content) ∈ selected)
  (publishes : Publishes codec call (seenManifest codec answer store)
    (selected.filter (isChanged codec (seenManifest codec answer store))) store after manifest)

include nodup member

theorem changed_get?_current (current : isChanged codec remote (rel, content) = false) :
    Dict.get? (selected.filter (isChanged codec remote)) rel = none := by
  cases found : Dict.get? (selected.filter (isChanged codec remote)) rel with
  | none => rfl
  | some other =>
      obtain ⟨present, changed⟩ := List.mem_filter.mp (Dict.get?_eq_some_mem found)
      have same : other = content := Option.some.inj
        ((Dict.get?_of_mem nodup present).symm.trans (Dict.get?_of_mem nodup member))
      rw [same, current] at changed
      cases changed

include publishes

theorem Publishes.object_current (unreserved : reserved rel = false) (kept : rel ∉ call.deleted)
    (current : isChanged codec (seenManifest codec answer store) (rel, content) = false) :
    after.object (stateKey rel) = store.object (stateKey rel) := by
  rw [publishes.objects rel unreserved kept]
  apply putAll_other
  intro file inside same
  have absent := changed_get?_current nodup member current
  rw [Dict.get?_eq_none_iff, ← stateKey_injective same] at absent
  exact absent (List.mem_map_of_mem (f := Prod.fst) inside)

theorem Publishes.persisted_iff (unreserved : reserved rel = false) :
    Persisted codec after rel content ↔
      Persistable codec call (seenManifest codec answer store) store rel content := by
  have changedNodup := filter_keys_nodup nodup (isChanged codec (seenManifest codec answer store))
  obtain ⟨attempt, base, merged, read⟩ := publishes.merged
  have stored : ((after.object manifestKey).map fun stored => codec.loads stored.1) =
      some (.manifest manifest.sorted) := by
    obtain ⟨object, found, same⟩ := Option.map_eq_some_iff.mp publishes.stored
    rw [found, Option.map_some, same, codec.loads_dumps]
  have entry : manifest.sorted.objects.get? rel = if rel ∈ call.deleted then none
      else ((Dict.get? (selected.filter (isChanged codec (seenManifest codec answer store))) rel).map
        (manifestObject codec rel)).or (base.objects.get? rel) := by
    rw [merged]
    exact (Dict.get?_sortKeys _ _).trans (mergeDelta_get? changedNodup)
  have tombstone : rel ∈ manifest.sorted.tombstones ↔
      (rel ∈ base.tombstones ∨ rel ∈ call.deleted) ∧
        Dict.get? (selected.filter (isChanged codec (seenManifest codec answer store))) rel =
          none := by
    rw [merged]
    show rel ∈ (mergeManifest _ call.deleted (call.clock attempt) base).tombstones ↔ _
    exact mem_mergeDelta_tombstones
  constructor
  · rintro ⟨object, other, loaded, digest, _⟩
    rw [stored] at loaded
    cases loaded
    have kept : rel ∉ call.deleted := by
      intro deleted
      rw [Manifest.digestOf, entry, if_pos deleted] at digest
      cases digest
    refine ⟨kept, fun current => ?_⟩
    rwa [publishes.object_current nodup member unreserved kept current] at object
  · rintro ⟨kept, current⟩
    rw [if_neg kept] at entry
    cases changed : isChanged codec (seenManifest codec answer store) (rel, content) with
    | true =>
        have uploaded := List.mem_filter.mpr ⟨member, changed⟩
        have found := Dict.get?_of_mem changedNodup uploaded
        refine ⟨?_, manifest.sorted, stored, ?_, ?_⟩
        · rw [publishes.objects rel unreserved kept]
          exact putAll_same changedNodup uploaded
        · rw [Manifest.digestOf, entry, found]
          rfl
        · rw [tombstone, found]
          exact fun listed => nomatch listed.2
    | false =>
        obtain ⟨seen, remote, live, digest⟩ := not_isChanged changed
        have found := changed_get?_current nodup member changed
        rw [found, base_of_seen remote read] at entry
        refine ⟨?_, manifest.sorted, stored, ?_, ?_⟩
        · rw [publishes.object_current nodup member unreserved kept changed]
          exact current changed
        · rw [Manifest.digestOf, entry]
          exact digest
        · rw [tombstone, base_of_seen remote read]
          exact fun listed => listed.1.elim live kept

end

/-- After a push that published, exactly the persistable candidates are persisted. -/
theorem published_persists_iff {selected : Dict String Content} {result : PushResult Content}
    (listed : candidates backend call = .ok selected)
    (ran : (pushState codec backend call).exec answer store = (.ok result, after))
    (published : result.status = .published) :
    (∀ rel content, (rel, content) ∈ selected → Persisted codec after rel content) ↔
      ∀ rel content, (rel, content) ∈ selected →
        Persistable codec call (seenManifest codec answer store) store rel content := by
  obtain ⟨manifest, _, publishes⟩ := pushState_exec listed ran published
  refine forall_congr' fun rel => forall_congr' fun content => forall_congr' fun member => ?_
  exact publishes.persisted_iff (candidates_nodup listed) member
    (candidates_file listed member).2

end

/-! ## A path that was deleted and written again -/

def journalOfDeleted (rel : String) : Journal :=
  ((markStateDeleted "/state" .absent [rel]).toOption).getD .absent

def recreated : PushCall Text where
  stateDir := "/state"
  stateDirExists := true
  state := {
    files := [("notes.json", .plain "[1]")]
    nodup := List.nodup_singleton _
    dirty := .absent
    tombstones := journalOfDeleted "notes.json"
    manifest := none }
  scope := .full
  clock _ := "2026-01-01T00:00:00+00:00"
  unreserved := Scope.full_unreserved

def written : PushCall Text :=
  { recreated with state := { recreated.state with tombstones := .absent } }

def noFaults : PushQuery → Bool := fun _ => false

def runOf (call : PushCall Text) :
    Except PushError (PushResult Text) × Store String Text :=
  (pushState textCodec routedBackend call).exec noFaults Store.empty

def statusOf (outcome : Except PushError (PushResult Text)) : Option PushStatus :=
  outcome.toOption.map PushResult.status

theorem runOf_published (call : PushCall Text) (status : statusOf (runOf call).1 = some .published) :
    ∃ result, (pushState textCodec routedBackend call).exec noFaults Store.empty =
      (.ok result, (runOf call).2) ∧ result.status = .published := by
  unfold statusOf at status
  cases outcome : (runOf call).1 with
  | error problem => rw [outcome] at status; cases status
  | ok result =>
      rw [outcome] at status
      exact ⟨result, Prod.ext outcome rfl, Option.some.inj status⟩

theorem published_persists_written :
    Persisted textCodec (runOf written).2 "notes.json" (.plain "[1]") := by
  obtain ⟨result, ran, published⟩ := runOf_published written (by decide)
  have listed : candidates routedBackend written = .ok [("notes.json", .plain "[1]")] := by
    decide
  refine (published_persists_iff listed ran published).mpr ?_ _ _ List.mem_cons_self
  intro rel content member
  cases List.mem_singleton.mp member
  exact ⟨by decide, fun current => by revert current; decide⟩

theorem recreated_path_lost :
    ¬ ∀ (call : PushCall Text) (selected : Dict String Text) (result : PushResult Text)
        (after : Store String Text), candidates routedBackend call = .ok selected →
      (pushState textCodec routedBackend call).exec noFaults Store.empty = (.ok result, after) →
      result.status = .published →
      ∀ rel content, (rel, content) ∈ selected → Persisted textCodec after rel content := by
  intro persists
  obtain ⟨result, ran, published⟩ := runOf_published recreated (by decide)
  have stored := (persists recreated [("notes.json", .plain "[1]")] result _ (by decide) ran
    published "notes.json" (.plain "[1]") List.mem_cons_self).object
  have lost : (runOf recreated).2.object (stateKey "notes.json") = none := by decide
  rw [lost] at stored
  cases stored

end CityPods.StateSync
