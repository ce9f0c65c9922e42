import CityPods.Foundation.History
import CityPods.StateSync.Push

/-! # Concurrent publication of the manifest

Every manifest that a push publishes is its own delta merged into the manifest
it replaces. After any interleaving the stored manifest is therefore the
initial one with the deltas of all publications applied in some order, and
where the deltas are disjoint the order does not matter.
-/

namespace CityPods.StateSync

open Foundation Program

@[reducible] def pushService (codec : Codec Content) (backend : Backend) :
    Service String Content PushQuery Empty Nat where
  Call := PushCall Content
  Result := Except PushError (PushResult Content)
  program := pushState codec backend
  mayStart _ _ := true

/-! ## What a push writes -/

def uploads (changed : Dict String Content) : Writes String Content :=
  (changed.map fun file => (stateKey file.1, some file.2)).reverse

/-- Uploads come first, then one merged manifest, then deletions. -/
inductive PushWrite (codec : Codec Content) (call : PushCall Content) :
    Writes String Content → String → Option Content → Option Content → Prop
  | uploaded {own : Writes String Content} {before : Option Content} {rel : String} {content : Content}
      (early : ∀ write ∈ own, write.1 ≠ manifestKey) (unreserved : reserved rel = false) :
      PushWrite codec call own (stateKey rel) before (some content)
  | merged {before : Option Content} {changed : Dict String Content} {base : Manifest} {now : String}
      (nodup : changed.keys.Nodup) (unreserved : ∀ file ∈ changed, reserved file.1 = false)
      (read : casBase codec before = .base base) :
      PushWrite codec call (uploads changed) manifestKey before
        (some (codec.dumps (mergeManifest (deltaObjects codec changed) call.deleted now base)))
  | removed {own : Writes String Content} {before : Option Content} {rel : String}
      (member : rel ∈ call.deleted) (published : ∃ write ∈ own, write.1 = manifestKey) :
      PushWrite codec call own (stateKey rel) before none

/-- All writes of a push that published, newest first. -/
def PublishedWrites (changed : Dict String Content) (own : Writes String Content) : Prop :=
  ∃ removed content, own = removed ++ (manifestKey, some content) :: uploads changed ∧
    ∀ write ∈ removed, write.1 ≠ manifestKey

def PushReturns (call : PushCall Content) (own : Writes String Content) :
    Except PushError (PushResult Content) → Prop
  | .error _ => True
  | .ok result =>
      match result.status with
      | .published => PublishedWrites result.changed own ∧ result.deleted = call.deleted
      | .unpublished => True
      | _ => own = [] ∧ result.changed = [] ∧ result.deleted = []

/-- A part of a push, with what its result says about the writes so far. -/
def pushPhase (codec : Codec Content) (call : PushCall Content)
    (returns : Writes String Content → Result → Prop) :
    Contract String Content PushQuery Empty Result where
  writes own key before after _ := PushWrite codec call own key before after
  returns := returns

abbrev pushContract (codec : Codec Content) (backend : Backend) (call : PushCall Content) :
    Contract String Content PushQuery Empty (pushService codec backend).Result :=
  pushPhase codec call (PushReturns call)

section

variable {codec : Codec Content} {backend : Backend} {call : PushCall Content}
  {known : Knowledge String Content} {own : Writes String Content}

theorem meets_phase_bind {first : Writes String Content → α → Prop}
    {returns : Writes String Content → β → Prop}
    {program : PushProgram Content α} {rest : α → PushProgram Content β}
    (meets : program.Meets (pushPhase codec call first) known own)
    (continues : ∀ more own result, known.Le more → first own result →
      (rest result).Meets (pushPhase codec call returns) more own) :
    (program.bind rest).Meets (pushPhase codec call returns) known own :=
  meets.bind (fun _ _ _ _ _ write => write) continues

variable {changed : Dict String Content}

theorem uploads_early (unreserved : ∀ file ∈ changed, reserved file.1 = false) :
    ∀ write ∈ uploads changed, write.1 ≠ manifestKey := by
  intro write member
  obtain ⟨file, present, rfl⟩ := List.mem_map.mp (List.mem_reverse.mp member)
  exact stateKey_ne_manifestKey (unreserved file present)

theorem uploads_snoc (pushed : Dict String Content) (rel : String) (content : Content) :
    uploads (pushed ++ [(rel, content)]) = (stateKey rel, some content) :: uploads pushed := by
  simp [uploads]

theorem uploads_injective {other : Dict String Content}
    (same : uploads changed = uploads other) : changed = other := by
  refine List.map_injective_iff.mpr ?_ (List.reverse_injective same)
  rintro ⟨rel, content⟩ ⟨otherRel, otherContent⟩ equal
  have parts := Prod.mk.inj equal
  exact Prod.ext (stateKey_injective parts.1) (Option.some.inj parts.2)

theorem pushAll_meets {rest : Dict String Content} (pushed : Dict String Content)
    (unreserved : ∀ file ∈ pushed ++ rest, reserved file.1 = false) :
    (pushAll rest).Meets (pushPhase codec call fun own result =>
      result = .ok () → own = uploads (pushed ++ rest)) known (uploads pushed) := by
  induction rest generalizing pushed with
  | nil =>
      intro _
      rw [List.append_nil]
  | cons file rest induction =>
      obtain ⟨rel, content⟩ := file
      simp only [pushAll, bind_eq_bind, askFor_bind, meets_ask]
      intro reply
      cases reply with
      | true =>
          intro failed
          cases failed
      | false =>
          simp only [Bool.false_eq_true, if_false, putFile_bind, meets_put]
          refine ⟨fun before _ => .uploaded (uploads_early fun earlier member =>
            unreserved earlier (List.mem_append_left _ member))
            (unreserved (rel, content) (by simp)), ?_, fun conditional => absurd rfl conditional⟩
          rw [← uploads_snoc, show pushed ++ (rel, content) :: rest =
            (pushed ++ [(rel, content)]) ++ rest by simp]
          apply induction
          simpa using unreserved

/-- A part of the CAS loop: it published if it says so. -/
abbrev publishPhase (codec : Codec Content) (call : PushCall Content) (changed : Dict String Content) :
    Contract String Content PushQuery Empty (Option Manifest) :=
  pushPhase codec call fun own result => result.isSome = true → PublishedWrites changed own

theorem publishOver_meets (nodup : changed.keys.Nodup)
    (unreserved : ∀ file ∈ changed, reserved file.1 = false) {attempt : Nat}
    {stored : Option (Content × ETag)} {retry : PushProgram Content (Option Manifest)}
    (informed : ∀ content etag, stored = some (content, etag) → known manifestKey content etag)
    (again : retry.Meets (publishPhase codec call changed) known (uploads changed)) :
    (publishOver codec call changed attempt stored retry).Meets (publishPhase codec call changed)
      known (uploads changed) := by
  unfold publishOver
  split
  · exact again
  · intro published
    cases published
  next base read =>
    simp only [bind_eq_bind, askFor_bind, meets_ask]
    intro reply
    cases reply with
    | true => exact again
    | false =>
        simp only [Bool.false_eq_true, if_false, putCas_bind, meets_put, if_true]
        refine ⟨fun before allows => ?_, fun _ => ?_, fun _ => again⟩
        · rw [allows.eq_read informed]
          exact .merged nodup unreserved read
        · exact ⟨[], _, rfl, fun write member => (List.not_mem_nil member).elim⟩

theorem publishCas_meets (nodup : changed.keys.Nodup)
    (unreserved : ∀ file ∈ changed, reserved file.1 = false) (attemptsLeft attempt : Nat) :
    (publishCas codec call changed attemptsLeft attempt).Meets (publishPhase codec call changed)
      known (uploads changed) := by
  induction attemptsLeft generalizing attempt known with
  | zero =>
      intro published
      cases published
  | succ attemptsLeft induction =>
      simp only [publishCas, bind_eq_bind, askFor_bind, meets_ask]
      intro reply
      cases reply with
      | true => exact induction (attempt + 1)
      | false =>
          simp only [Bool.false_eq_true, if_false, getBytes_bind, meets_get]
          refine ⟨publishOver_meets nodup unreserved (by simp) (induction (attempt + 1)),
            fun content etag => ?_⟩
          refine publishOver_meets nodup unreserved (fun _ _ equal => ?_) (induction (attempt + 1))
          cases equal
          exact .inr ⟨rfl, rfl, rfl⟩

theorem deleteAll_meets {rels : List String}
    (members : ∀ rel ∈ rels, rel ∈ call.deleted) (published : PublishedWrites changed own) :
    (deleteAll rels).Meets (pushPhase codec call fun own _ => PublishedWrites changed own)
      known own := by
  induction rels generalizing own with
  | nil => exact published
  | cons rel rest induction =>
      have later : ∀ rel ∈ rest, rel ∈ call.deleted := fun other member =>
        members other (List.mem_cons_of_mem rel member)
      simp only [deleteAll, bind_eq_bind, askFor_bind, meets_ask]
      intro reply
      cases reply with
      | true =>
          simp only [if_true]
          exact meets_phase_bind (induction later published) fun _ _ _ _ kept => kept
      | false =>
          simp only [Bool.false_eq_true, if_false, deleteKey_bind, meets_delete]
          obtain ⟨removed, content, rfl, apart⟩ := published
          have member := members rel List.mem_cons_self
          refine ⟨fun before => .removed member ⟨(manifestKey, some content), by simp, rfl⟩, ?_⟩
          refine induction later ⟨(stateKey rel, none) :: removed, content, rfl, ?_⟩
          intro write inside
          rcases List.mem_cons.mp inside with rfl | old
          · exact stateKey_ne_manifestKey (call.deleted_unreserved member)
          · exact apart write old

theorem deletions_meet (published : PublishedWrites changed own) :
    (deletions backend call).Meets (pushPhase codec call fun own _ => PublishedWrites changed own)
      known own := by
  unfold deletions
  split
  · exact deleteAll_meets (fun _ member => member) published
  · exact published

variable {selected : Dict String Content}

theorem publishAndDelete_meets (capable : backend.casCapable = true) (nodup : changed.keys.Nodup)
    (unreserved : ∀ file ∈ changed, reserved file.1 = false) (manifest : Manifest) :
    (publishAndDelete codec backend call selected changed manifest).Meets
      (pushPhase codec call fun own result => PushReturns call own (.ok result))
      known (uploads changed) := by
  simp only [publishAndDelete, publishManifest, capable, if_true, bind_eq_bind]
  apply meets_phase_bind (publishCas_meets nodup unreserved _ _)
  intro more own result _ wrote
  cases result with
  | none => trivial
  | some manifest =>
      apply meets_phase_bind (deletions_meet (wrote rfl))
      intro more own failed _ published
      exact ⟨published, rfl⟩

theorem pushChanged_meets (capable : backend.casCapable = true) (nodup : changed.keys.Nodup)
    (unreserved : ∀ file ∈ changed, reserved file.1 = false) (remote : Option Manifest) :
    (pushChanged codec backend call selected changed remote).Meets (pushContract codec backend call)
      known [] := by
  unfold pushChanged
  split
  · exact ⟨rfl, rfl, rfl⟩
  · apply meets_phase_bind (pushAll_meets [] unreserved)
    intro more own result _ wrote
    cases result with
    | error problem => trivial
    | ok done =>
        simp only
        rw [wrote rfl]
        split
        · trivial
        · apply meets_phase_bind (publishAndDelete_meets capable nodup unreserved _)
          intro more own result _ returned
          exact returned

theorem pushState_meets (capable : backend.casCapable = true) (call : PushCall Content) :
    (pushState codec backend call).Meets (pushContract codec backend call) Knowledge.none [] := by
  unfold pushState
  split
  · exact ⟨rfl, rfl, rfl⟩
  split
  · trivial
  next selected listed =>
    split
    · exact ⟨rfl, rfl, rfl⟩
    have pushed (remote : Option Manifest) {known : Knowledge String Content} :
        (pushChanged codec backend call selected (selected.filter (isChanged codec remote))
          remote).Meets (pushContract codec backend call) known [] :=
      pushChanged_meets capable
        (filter_keys_nodup (candidates_nodup listed) (isChanged codec remote))
        (fun file member => (candidates_file listed (List.mem_of_mem_filter member)).2) remote
    simp only [loadManifest, bind_eq_bind, askFor_bind, getBytes_bind]
    intro raises
    cases raises with
    | true => trivial
    | false =>
        simp only [Bool.false_eq_true, if_false, bind_ask, meets_ask]
        intro unreadable
        cases unreadable with
        | true => exact pushed none
        | false => exact ⟨pushed none, fun content etag => pushed _⟩

end

/-! ## Replaying publications -/

/-- What one published manifest adds to the one it replaces. -/
structure Publication (Content : Type) where
  worker : Nat
  changed : Dict String Content
  nodup : changed.keys.Nodup
  deleted : List String
  now : String

section

variable (codec : Codec Content)

def Publication.apply (publication : Publication Content) (base : Manifest) : Manifest :=
  (mergeManifest (deltaObjects codec publication.changed) publication.deleted publication.now
    base).sorted

/-- The manifest after the publications, newest first. -/
def replay (initial : Manifest) : List (Publication Content) → Manifest
  | [] => initial
  | publication :: older => publication.apply codec (replay initial older)

end

section

variable {codec : Codec Content} {initial base : Manifest} {publication : Publication Content}
  {publications : List (Publication Content)} {rel : String}

theorem Publication.apply_object :
    (publication.apply codec base).objects.get? rel =
      if rel ∈ publication.deleted then none
      else ((publication.changed.get? rel).map (manifestObject codec rel)).or
        (base.objects.get? rel) := by
  simp [Publication.apply, Manifest.sorted, mergeDelta_get? publication.nodup]

theorem Publication.apply_tombstones :
    rel ∈ (publication.apply codec base).tombstones ↔
      (rel ∈ base.tombstones ∨ rel ∈ publication.deleted) ∧
        publication.changed.get? rel = none := by
  simp [Publication.apply, Manifest.sorted, mem_mergeDelta_tombstones]

theorem replay_other (unchanged : ∀ publication ∈ publications, publication.changed.get? rel = none)
    (kept : ∀ publication ∈ publications, rel ∉ publication.deleted) :
    (replay codec initial publications).objects.get? rel = initial.objects.get? rel := by
  induction publications with
  | nil => rfl
  | cons newest older induction =>
      rw [List.forall_mem_cons] at unchanged kept
      simp [replay, Publication.apply_object, unchanged.1, kept.1, induction unchanged.2 kept.2]

/-- A path that only ever gets one content is listed with that content. -/
theorem replay_uploaded {content : Content}
    (kept : ∀ publication ∈ publications, rel ∉ publication.deleted)
    (same : ∀ publication ∈ publications, ∀ other,
      publication.changed.get? rel = some other → other = content)
    (uploaded : ∃ publication ∈ publications, publication.changed.get? rel = some content) :
    (replay codec initial publications).objects.get? rel =
        some (manifestObject codec rel content) ∧
      rel ∉ (replay codec initial publications).tombstones := by
  induction publications with
  | nil =>
      obtain ⟨publication, member, _⟩ := uploaded
      cases member
  | cons newest older induction =>
      rw [List.forall_mem_cons] at kept same
      rw [replay, Publication.apply_object, Publication.apply_tombstones, if_neg kept.1]
      cases found : newest.changed.get? rel with
      | some other =>
          rw [same.1 other found]
          exact ⟨rfl, fun listed => nomatch listed.2⟩
      | none =>
          obtain ⟨publication, member, wrote⟩ := uploaded
          have earlier : publication ∈ older := by
            rcases List.mem_cons.mp member with rfl | earlier
            · rw [found] at wrote
              cases wrote
            · exact earlier
          obtain ⟨object, live⟩ := induction kept.2 same.2 ⟨publication, earlier, wrote⟩
          exact ⟨by simpa using object, fun listed => listed.1.elim live kept.1⟩

theorem replay_tombstones
    (unchanged : ∀ publication ∈ publications, publication.changed.get? rel = none) :
    rel ∈ (replay codec initial publications).tombstones ↔
      rel ∈ initial.tombstones ∨ ∃ publication ∈ publications, rel ∈ publication.deleted := by
  induction publications with
  | nil => simp [replay]
  | cons newest older induction =>
      rw [List.forall_mem_cons] at unchanged
      rw [replay, Publication.apply_tombstones, induction unchanged.2]
      simp [unchanged.1, or_comm, or_left_comm]

/-- Merging never lists a path as both present and removed. -/
theorem replay_disjoint (apart : ∀ rel ∈ initial.tombstones, initial.objects.get? rel = none) :
    ∀ rel ∈ (replay codec initial publications).tombstones,
      (replay codec initial publications).objects.get? rel = none := by
  induction publications with
  | nil => exact apart
  | cons newest older induction =>
      intro rel listed
      obtain ⟨source, unchanged⟩ := Publication.apply_tombstones.mp listed
      rw [replay, Publication.apply_object, unchanged]
      split
      · rfl
      · next kept => simpa using induction rel (source.resolve_right kept)

end

/-! ## Every history is a replay -/

structure Replayed (codec : Codec Content) (backend : Backend) (store : Store String Content)
    (initial : Manifest) (history : List (Event (pushService codec backend)))
    (publications : List (Publication Content)) : Prop where
  stored : ∃ content etag, latest store history manifestKey = some (content, etag) ∧
    codec.loads content = .manifest (replay codec initial publications)
  made : ∀ publication ∈ publications,
    PublishedWrites publication.changed (writesOf publication.worker history) ∧
      ∃ event ∈ history, event.worker = publication.worker ∧
        event.call.deleted = publication.deleted
  complete : ∀ event ∈ history, event.key = manifestKey →
    ∃ publication ∈ publications, publication.worker = event.worker

section

variable {codec : Codec Content} {backend : Backend} {store : Store String Content}
  {initial : Manifest} {history : List (Event (pushService codec backend))}
  {publications : List (Publication Content)} {event : Event (pushService codec backend)}
  {changed : Dict String Content} {own : Writes String Content}

theorem PublishedWrites.published
    (wrote : PublishedWrites changed own) : ∃ write ∈ own, write.1 = manifestKey := by
  obtain ⟨removed, content, rfl, _⟩ := wrote
  exact ⟨(manifestKey, some content), by simp, rfl⟩

theorem PublishedWrites.remove
    (wrote : PublishedWrites changed own) {rel : String} (unreserved : reserved rel = false) :
    PublishedWrites changed ((stateKey rel, none) :: own) := by
  obtain ⟨removed, content, rfl, apart⟩ := wrote
  refine ⟨(stateKey rel, none) :: removed, content, rfl, fun write member => ?_⟩
  rcases List.mem_cons.mp member with rfl | old
  · exact stateKey_ne_manifestKey unreserved
  · exact apart write old

theorem PublishedWrites.unique {other : Dict String Content}
    (wrote : PublishedWrites changed own) (also : PublishedWrites other own) : changed = other := by
  obtain ⟨removed, content, rfl, apart⟩ := wrote
  obtain ⟨otherRemoved, otherContent, same, otherApart⟩ := also
  apply uploads_injective
  induction removed generalizing otherRemoved with
  | nil =>
      cases otherRemoved with
      | nil => exact (List.cons.inj same).2
      | cons write rest =>
          have head := (List.cons.inj same).1
          exact absurd (congrArg Prod.fst head).symm (otherApart write List.mem_cons_self)
  | cons write rest induction =>
      cases otherRemoved with
      | nil =>
          have head := (List.cons.inj same).1
          exact absurd (congrArg Prod.fst head) (apart write List.mem_cons_self)
      | cons otherWrite otherRest =>
          exact induction (fun write member => apart write (List.mem_cons_of_mem _ member))
            otherRest (List.cons.inj same).2
            fun write member => otherApart write (List.mem_cons_of_mem _ member)

/-- A write of another object that keeps the account of its own worker. -/
theorem Replayed.other (replayed : Replayed codec backend store initial history publications)
    (elsewhere : event.key ≠ manifestKey)
    (own : ∀ publication ∈ publications, publication.worker = event.worker →
      PublishedWrites publication.changed (writesOf event.worker (event :: history))) :
    Replayed codec backend store initial (event :: history) publications where
  stored := by
    rw [latest_cons_other store history elsewhere]
    exact replayed.stored
  made publication member := by
    obtain ⟨wrote, source, present, worker, deleted⟩ := replayed.made publication member
    refine ⟨?_, source, List.mem_cons_of_mem event present, worker, deleted⟩
    by_cases same : publication.worker = event.worker
    · rw [same]
      exact own publication member same
    · rw [writesOf_cons_other history fun equal => same equal.symm]
      exact wrote
  complete other member published := by
    rcases List.mem_cons.mp member with rfl | earlier
    · exact absurd published elsewhere
    · exact replayed.complete other earlier published

theorem Replayed.merged (replayed : Replayed codec backend store initial history publications)
    {base : Manifest} {now : String} (nodup : changed.keys.Nodup)
    (unreserved : ∀ file ∈ changed, reserved file.1 = false)
    (replaces : event.before = latest store history event.key) (manifest : event.key = manifestKey)
    (own : writesOf event.worker history = uploads changed)
    (read : casBase codec (event.before.map Prod.fst) = .base base)
    (after : event.after.map Prod.fst = some (codec.dumps
      (mergeManifest (deltaObjects codec changed) event.call.deleted now base))) :
    Replayed codec backend store initial (event :: history)
      (⟨event.worker, changed, nodup, event.call.deleted, now⟩ :: publications) where
  stored := by
    obtain ⟨content, etag, stored, parsed⟩ := replayed.stored
    rw [replaces, manifest, stored] at read
    obtain ⟨written, afterEq, same⟩ := Option.map_eq_some_iff.mp after
    refine ⟨written.1, written.2, ?_, ?_⟩
    · rw [← manifest, latest_cons_same, afterEq]
    · rw [same, codec.loads_dumps, casBase_eq parsed read]
      rfl
  made := by
    rw [List.forall_mem_cons]
    refine ⟨⟨?_, event, List.mem_cons_self, rfl, rfl⟩, fun publication member => ?_⟩
    · rw [writesOf_cons_same history rfl, own, manifest, after]
      exact ⟨[], _, rfl, fun write member => nomatch member⟩
    · obtain ⟨wrote, source, present, worker, deleted⟩ := replayed.made publication member
      have different : event.worker ≠ publication.worker := by
        intro same
        rw [← same, own] at wrote
        obtain ⟨write, inside, key⟩ := wrote.published
        exact uploads_early unreserved write inside key
      rw [writesOf_cons_other history different]
      exact ⟨wrote, source, List.mem_cons_of_mem event present, worker, deleted⟩
  complete := by
    intro other member published
    rcases List.mem_cons.mp member with rfl | earlier
    · exact ⟨_, List.mem_cons_self, rfl⟩
    · obtain ⟨publication, present, worker⟩ := replayed.complete other earlier published
      exact ⟨publication, List.mem_cons_of_mem _ present, worker⟩

theorem replayed_of_valid (valid : ValidHistory (pushContract codec backend) store history)
    {content : Content} {etag : ETag} (stored : store.object manifestKey = some (content, etag))
    (parsed : codec.loads content = .manifest initial) :
    ∃ publications, Replayed codec backend store initial history publications := by
  induction valid with
  | nil =>
      exact ⟨[], ⟨⟨content, etag, stored, parsed⟩, fun _ member => (nomatch member),
        fun _ member => (nomatch member)⟩⟩
  | cons earlier replaces permitted later started induction =>
      rename_i event older
      obtain ⟨publications, replayed⟩ := induction
      obtain ⟨remaining, write⟩ := permitted
      generalize ownEq : writesOf event.worker older = own at write
      generalize keyEq : event.key = key at write
      generalize beforeEq : event.before.map Prod.fst = before at write
      generalize afterEq : event.after.map Prod.fst = after at write
      cases write with
      | uploaded early unreserved =>
          have elsewhere : event.key ≠ manifestKey := keyEq ▸ stateKey_ne_manifestKey unreserved
          refine ⟨publications, replayed.other elsewhere fun publication member same => ?_⟩
          -- a publisher has written its manifest and uploads nothing more
          have wrote := (replayed.made publication member).1
          rw [same, ownEq] at wrote
          obtain ⟨write, inside, published⟩ := wrote.published
          exact absurd published (early write inside)
      | merged nodup unreserved read =>
          subst beforeEq
          exact ⟨_, replayed.merged nodup unreserved replaces keyEq ownEq read afterEq⟩
      | removed member published =>
          have unreserved := event.call.deleted_unreserved member
          have elsewhere : event.key ≠ manifestKey := keyEq ▸ stateKey_ne_manifestKey unreserved
          refine ⟨publications, replayed.other elsewhere fun publication present same => ?_⟩
          rw [writesOf_cons_same older rfl, keyEq, afterEq, ← same]
          exact (replayed.made publication present).1.remove unreserved

end

/-! ## What all runs published together -/

section

variable {codec : Codec Content} {backend : Backend} {config : Config (pushService codec backend)}

/-- The result of a run that has returned. -/
def resultOf (config : Config (pushService codec backend)) (index : Nat) :
    Option (PushResult Content) :=
  match config.workers[index]? with
  | some ⟨_, .done (.ok result)⟩ => some result
  | _ => none

/-- The two path sets of each run. -/
inductive PathSet
  | changed (worker : Nat)
  | deleted (worker : Nat)
  deriving DecidableEq

def pathsOf (config : Config (pushService codec backend)) : PathSet → List String
  | .changed index => ((resultOf config index).map fun result => result.changed.keys).getD []
  | .deleted index => ((resultOf config index).map PushResult.deleted).getD []

def UploadedWith (config : Config (pushService codec backend)) (rel : String) (content : Content) :
    Prop :=
  ∃ index result, resultOf config index = some result ∧ (rel, content) ∈ result.changed

def UploadedBySome (config : Config (pushService codec backend)) (rel : String) : Prop :=
  ∃ content, UploadedWith config rel content

def DeletedBySome (config : Config (pushService codec backend)) (rel : String) : Prop :=
  ∃ index result, resultOf config index = some result ∧ rel ∈ result.deleted

/-- Every run has returned without giving its manifest up. -/
def AllSucceeded (config : Config (pushService codec backend)) : Prop :=
  ∀ index < config.workers.length, ∃ result, resultOf config index = some result ∧
    result.status ≠ .unpublished

variable {index : Nat}

theorem resultOf_eq_some {result : PushResult Content} :
    resultOf config index = some result ↔
      ∃ call, config.workers[index]? = some ⟨call, .done (.ok result)⟩ := by
  unfold resultOf
  split
  · next call found present =>
      rw [present]
      constructor
      · rintro ⟨⟩
        exact ⟨call, rfl⟩
      · rintro ⟨_, ⟨⟩⟩
        rfl
  · next absent =>
      constructor
      · rintro ⟨⟩
      · rintro ⟨call, present⟩
        exact absurd present (absent call result)

theorem mem_writesOf {S : Service K V Q N Time} {history : List (Event S)} {worker : Nat}
    {write : K × Option V} (member : write ∈ writesOf worker history) :
    ∃ event ∈ history, event.worker = worker ∧ event.key = write.1 := by
  obtain ⟨event, present, rfl⟩ := List.mem_map.mp member
  obtain ⟨inside, same⟩ := List.mem_filter.mp present
  exact ⟨event, inside, beq_iff_eq.mp same, rfl⟩

variable {store : Store String Content} {initial : Manifest}
  {publications : List (Publication Content)}

/-- A publication made by a run is the one its result reports. -/
theorem Replayed.result (sound : Sound (pushContract codec backend) store config)
    (replayed : Replayed codec backend store initial config.history publications)
    (succeeded : AllSucceeded config) {publication : Publication Content}
    (member : publication ∈ publications) :
    ∃ result, resultOf config publication.worker = some result ∧
      result.changed = publication.changed ∧ result.deleted = publication.deleted := by
  obtain ⟨wrote, event, inside, worker, deleted⟩ := replayed.made publication member
  obtain ⟨issuer, present, issued⟩ := sound.issuer event inside
  rw [worker] at present
  obtain ⟨bound, _⟩ := List.getElem?_eq_some_iff.mp present
  obtain ⟨result, returned, status⟩ := succeeded publication.worker bound
  obtain ⟨call, finished⟩ := resultOf_eq_some.mp returned
  rw [present] at finished
  cases finished
  have returns : PushReturns call (writesOf publication.worker config.history) (.ok result) :=
    sound.meets publication.worker _ present
  refine ⟨result, returned, ?_⟩
  obtain ⟨write, own, _⟩ := wrote.published
  simp only [PushReturns] at returns
  split at returns
  · exact ⟨returns.1.unique wrote, by rw [returns.2, ← deleted, ← issued]⟩
  · next unpublished => exact absurd unpublished status
  · rw [returns.1] at own
    cases own

/-- What a run reports it has published, unless it had nothing to publish. -/
theorem Replayed.publication (sound : Sound (pushContract codec backend) store config)
    (replayed : Replayed codec backend store initial config.history publications)
    (succeeded : AllSucceeded config) {result : PushResult Content}
    (returned : resultOf config index = some result) :
    result.changed = [] ∧ result.deleted = [] ∨
      ∃ publication ∈ publications, publication.worker = index ∧
        publication.changed = result.changed ∧ publication.deleted = result.deleted := by
  obtain ⟨call, finished⟩ := resultOf_eq_some.mp returned
  obtain ⟨bound, _⟩ := List.getElem?_eq_some_iff.mp finished
  have returns : PushReturns call (writesOf index config.history) (.ok result) :=
    sound.meets index _ finished
  simp only [PushReturns] at returns
  split at returns
  · obtain ⟨write, own, key⟩ := returns.1.published
    obtain ⟨event, inside, worker, same⟩ := mem_writesOf own
    obtain ⟨publication, member, publisher⟩ := replayed.complete event inside (same.trans key)
    obtain ⟨reported, found, changed, deleted⟩ := replayed.result sound succeeded member
    rw [publisher, worker, returned] at found
    cases found
    exact .inr ⟨publication, member, publisher.trans worker, changed.symm, deleted.symm⟩
  · next unpublished =>
      obtain ⟨other, found, status⟩ := succeeded index bound
      rw [returned] at found
      cases found
      exact absurd unpublished status
  · exact .inl returns.2

/-- No path belongs to two of the changed and deleted sets of the runs. -/
abbrev DisjointPaths (config : Config (pushService codec backend)) : Prop :=
  Pairwise fun first second => List.Disjoint (pathsOf config first) (pathsOf config second)

variable {rel : String}

theorem mem_changedPaths {result : PushResult Content}
    (returned : resultOf config index = some result) {content : Content}
    (member : (rel, content) ∈ result.changed) : rel ∈ pathsOf config (.changed index) := by
  simpa [pathsOf, returned, Dict.keys] using ⟨content, member⟩

theorem mem_deletedPaths {result : PushResult Content}
    (returned : resultOf config index = some result)
    (member : rel ∈ result.deleted) : rel ∈ pathsOf config (.deleted index) := by
  simpa [pathsOf, returned] using member

section

variable (sound : Sound (pushContract codec backend) store config)
  (replayed : Replayed codec backend store initial config.history publications)
  (succeeded : AllSucceeded config)

include sound replayed succeeded

theorem Replayed.uploaded (disjoint : DisjointPaths config) {content : Content}
    (uploaded : UploadedWith config rel content) :
    (replay codec initial publications).objects.get? rel =
        some (manifestObject codec rel content) ∧
      rel ∉ (replay codec initial publications).tombstones := by
  obtain ⟨index, result, returned, member⟩ := uploaded
  have changed := mem_changedPaths returned member
  apply replay_uploaded
  · intro publication inside deleted
    obtain ⟨other, found, _, same⟩ := replayed.result sound succeeded inside
    have apart : PathSet.changed index ≠ .deleted publication.worker := nofun
    exact disjoint apart changed (mem_deletedPaths found (same ▸ deleted))
  · intro publication inside other wrote
    obtain ⟨otherResult, found, same, _⟩ := replayed.result sound succeeded inside
    by_cases worker : publication.worker = index
    · rw [worker, returned] at found
      cases found
      have read := Dict.get?_of_mem publication.nodup (same ▸ member)
      rw [wrote] at read
      exact Option.some.inj read
    · have also := mem_changedPaths found (same ▸ Dict.get?_eq_some_mem wrote)
      have apart : PathSet.changed index ≠ .changed publication.worker := fun equal =>
        worker (PathSet.changed.inj equal).symm
      exact (disjoint apart changed also).elim
  · rcases replayed.publication sound succeeded returned with ⟨empty, _⟩ |
      ⟨publication, inside, _, same, _⟩
    · rw [empty] at member
      cases member
    · exact ⟨publication, inside, Dict.get?_of_mem publication.nodup (same ▸ member)⟩

theorem Replayed.unchanged (untouched : ¬ UploadedBySome config rel) :
    ∀ publication ∈ publications, publication.changed.get? rel = none := by
  intro publication inside
  cases read : publication.changed.get? rel with
  | none => rfl
  | some content =>
      obtain ⟨result, returned, same, _⟩ := replayed.result sound succeeded inside
      exact absurd ⟨content, publication.worker, result, returned,
        same ▸ Dict.get?_eq_some_mem read⟩ untouched

theorem Replayed.deleted_iff :
    (∃ publication ∈ publications, rel ∈ publication.deleted) ↔ DeletedBySome config rel := by
  constructor
  · rintro ⟨publication, inside, member⟩
    obtain ⟨result, returned, _, same⟩ := replayed.result sound succeeded inside
    exact ⟨publication.worker, result, returned, same ▸ member⟩
  · rintro ⟨index, result, returned, member⟩
    rcases replayed.publication sound succeeded returned with ⟨_, empty⟩ |
      ⟨publication, inside, _, _, same⟩
    · rw [empty] at member
      cases member
    · exact ⟨publication, inside, same ▸ member⟩

end

/-- Runs with disjoint path sets publish one manifest that has all their deltas. -/
theorem publications_merged (capable : backend.casCapable = true) (fresh : store.Fresh)
    {content : Content} {etag : ETag} (stored : store.object manifestKey = some (content, etag))
    (parsed : parseManifest codec content = some initial) {clock : Nat}
    (reachable : Reachable (Config.init store clock) config) (succeeded : AllSucceeded config)
    (disjoint : DisjointPaths config) :
    ∃ published etag final, config.store.object manifestKey = some (published, etag) ∧
      codec.loads published = .manifest final ∧
      (∀ rel content, UploadedWith config rel content →
        final.digestOf rel = some (codec.digest content)) ∧
      (∀ rel, rel ∈ final.tombstones ↔
        (rel ∈ initial.tombstones ∨ DeletedBySome config rel) ∧ ¬ UploadedBySome config rel) ∧
      (∀ rel, ¬ UploadedBySome config rel → ¬ DeletedBySome config rel →
        final.objects.get? rel = initial.objects.get? rel) ∧
      ((∀ rel ∈ initial.tombstones, initial.objects.get? rel = none) →
        ∀ rel ∈ final.tombstones, final.objects.get? rel = none) := by
  have sound := reachable.sound (fun call => pushState_meets capable call) fresh
  obtain ⟨publications, replayed⟩ := replayed_of_valid sound.valid stored (parseManifest_eq parsed)
  obtain ⟨published, publishedETag, latestEq, loaded⟩ := replayed.stored
  refine ⟨published, publishedETag, replay codec initial publications, ?_, loaded,
    fun rel content uploaded => ?_, fun rel => ?_, fun rel untouched kept => ?_, replay_disjoint⟩
  · rw [sound.object, latestEq]
  · rw [Manifest.digestOf, (replayed.uploaded sound succeeded disjoint uploaded).1]
    rfl
  · by_cases uploaded : UploadedBySome config rel
    · obtain ⟨content, uploadedWith⟩ := uploaded
      have live := (replayed.uploaded sound succeeded disjoint uploadedWith).2
      exact iff_of_false live fun listed => listed.2 ⟨content, uploadedWith⟩
    · rw [replay_tombstones (replayed.unchanged sound succeeded uploaded),
        replayed.deleted_iff sound succeeded]
      exact (and_iff_left uploaded).symm
  · apply replay_other (replayed.unchanged sound succeeded untouched)
    intro publication inside member
    exact kept ((replayed.deleted_iff sound succeeded).mp ⟨publication, inside, member⟩)

end

/-! ## A lost race for the manifest -/

section

variable {codec : Codec Content} {backend : Backend} {config : Config (pushService codec backend)}

/-- The path sets of the first `count` runs. -/
def pathSets (count : Nat) : List PathSet :=
  (List.range count).flatMap fun index => [.changed index, .deleted index]

theorem mem_pathSets {rel : String} {set : PathSet} (member : rel ∈ pathsOf config set) :
    set ∈ pathSets config.workers.length := by
  have bounded {index : Nat} {result : PushResult Content}
      (returned : resultOf config index = some result) : index < config.workers.length := by
    obtain ⟨call, present⟩ := resultOf_eq_some.mp returned
    exact (List.getElem?_eq_some_iff.mp present).1
  cases set with
  | changed index =>
      cases returned : resultOf config index with
      | none => simp [pathsOf, returned] at member
      | some result => simp [pathSets, bounded returned]
  | deleted index =>
      cases returned : resultOf config index with
      | none => simp [pathsOf, returned] at member
      | some result => simp [pathSets, bounded returned]

theorem DisjointPaths.of_checked
    (checked : ∀ first ∈ pathSets config.workers.length, ∀ second ∈ pathSets config.workers.length,
      first ≠ second → ∀ rel ∈ pathsOf config first, rel ∉ pathsOf config second) :
    DisjointPaths config :=
  fun first second different rel member also =>
    checked first (mem_pathSets member) second (mem_pathSets also) different rel member also

def hasSucceeded (worker : Worker (pushService codec backend)) : Bool :=
  match worker.program with
  | .done (.ok result) => result.status != .unpublished
  | _ => false

theorem AllSucceeded.of_checked (checked : config.workers.all hasSucceeded = true) :
    AllSucceeded config := by
  intro index inside
  have present : config.workers[index]? = some config.workers[index] := by simp [inside]
  have succeeded := List.all_eq_true.mp checked _ (List.getElem_mem inside)
  generalize config.workers[index] = worker at present succeeded
  obtain ⟨call, program⟩ := worker
  unfold hasSucceeded at succeeded
  split at succeeded
  · next result finished =>
      cases finished
      exact ⟨result, resultOf_eq_some.mpr ⟨call, present⟩, bne_iff_ne.mp succeeded⟩
  · cases succeeded

end

/-- A full push of one file by a writer that has recorded `removed` as deleted. -/
def pushOf (rel text : String) (removed : List String) : PushCall Text where
  stateDir := "/state"
  stateDirExists := true
  state := {
    files := [(rel, .plain text)]
    nodup := List.nodup_singleton rel
    dirty := .absent
    tombstones := .entries removed
    manifest := none }
  scope := .full
  clock _ := "2026-01-01T00:00:00+00:00"
  unreserved := Scope.full_unreserved

def listedManifest : Manifest where
  generation := 4
  objects := [("old.json", manifestObject textCodec "old.json" (.plain "{}"))]

def storeWithManifest : Store String Text :=
  (Store.empty.put (stateKey "old.json") (.plain "{}")).put manifestKey (.manifest listedManifest)

/-- Two pushes read the same manifest; the second one publishes first, and the
first one has to merge again. -/
def lostRace : List (Step (pushService textCodec routedBackend)) :=
  [.start (pushOf "a.json" "[1]" []), .start (pushOf "b.json" "[2]" ["old.json"])] ++
    List.replicate 7 (.run 0 false) ++ List.replicate 11 (.run 1 false) ++
    List.replicate 6 (.run 0 false)

theorem storeWithManifest_fresh : storeWithManifest.Fresh :=
  (Store.empty_fresh.put _ _).put _ _

theorem lostRace_executes :
    ((Config.init storeWithManifest 0 : Config (pushService textCodec routedBackend)).steps
      lostRace).isSome = true := by
  decide

def afterLostRace : Config (pushService textCodec routedBackend) :=
  ((Config.init storeWithManifest 0).steps lostRace).get lostRace_executes

/-- A run has returned and reports the upload of this file. -/
def uploadedIn (config : Config (pushService textCodec routedBackend)) (index : Nat)
    (file : String × Text) : Bool :=
  (resultOf config index).any fun result => result.changed.get? file.1 == some file.2

theorem UploadedWith.of_checked {config : Config (pushService textCodec routedBackend)} {index : Nat}
    {rel : String} {content : Text} (checked : uploadedIn config index (rel, content) = true) :
    UploadedWith config rel content := by
  obtain ⟨result, returned, found⟩ := Option.any_eq_true _ _ |>.mp checked
  exact ⟨index, result, returned, Dict.get?_eq_some_mem (beq_iff_eq.mp found)⟩

theorem publications_merged_afterLostRace :
    ∃ published etag final, afterLostRace.store.object manifestKey = some (published, etag) ∧
      textCodec.loads published = .manifest final ∧
      final.digestOf "a.json" = some (sha256Hex "[1]") ∧
      final.digestOf "b.json" = some (sha256Hex "[2]") := by
  have merged := publications_merged rfl storeWithManifest_fresh (Store.put_object_same _ _ _)
    (show parseManifest textCodec (.manifest listedManifest) = some listedManifest by
      decide +kernel)
    (Reachable.of_steps (Option.some_get lostRace_executes).symm)
    (.of_checked (by decide)) (.of_checked (by decide))
  obtain ⟨published, etag, final, stored, loaded, listed, _⟩ := merged
  refine ⟨published, etag, final, stored, loaded, ?_, ?_⟩
  · exact listed "a.json" (.plain "[1]") (.of_checked (by decide : uploadedIn _ 0 _ = true))
  · exact listed "b.json" (.plain "[2]") (.of_checked (by decide : uploadedIn _ 1 _ = true))

end CityPods.StateSync
