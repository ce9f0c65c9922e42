import CityPods.StateSync.Persistence

/-! # The dirty journal after a scoped push

A push that ends well removes the whole dirty journal, also where its scope was
only a part of the state. Exactly the pushes that end so forget what others
have left unpushed.
-/

namespace CityPods.StateSync

open Foundation Program

def Scope.covers (rel : String) : Scope → Bool
  | .full => true
  | .prefixes onlyPrefixes => onlyPrefixes.any fun start => start.toList.isPrefixOf rel.toList
  | .paths onlyPaths => onlyPaths.any fun raw => normpath raw == rel

section

variable (codec : Codec Content) (backend : Backend) (call : PushCall Content)
  (answer : PushQuery → Bool) (store : Store String Content)

/-- A dirty path outside the scope whose local file is not what the bucket holds. -/
structure Unpushed (rel : String) : Prop where
  dirty : rel ∈ readJournal call.stateDir "dirty" call.state.dirty
  outside : call.scope.covers rel = false
  differs : ∃ content, call.state.files.get? rel = some content ∧
    (store.object (stateKey rel)).map Prod.fst ≠ some content

/-- The dirty journal that a push with this outcome leaves; one that raises
leaves it alone. -/
def PushCall.dirtyOf (outcome : Except PushError (PushResult Content)) : Journal :=
  match outcome with
  | .ok result => result.state.dirty
  | .error _ => call.state.dirty

def dirtyAfter : Journal := call.dirtyOf ((pushState codec backend call).exec answer store).1

def KeepsUnpushed : Prop :=
  ∀ rel, Unpushed call store rel →
    rel ∈ readJournal call.stateDir "dirty" (dirtyAfter codec backend call answer store)

/-! ## The pushes that end well -/

/-- Some attempt to replace the manifest gets through. -/
def somePutLands : Bool :=
  ((List.range manifestCasAttempts).map (· + 1)).any fun attempt =>
    !answer (.manifestGetFails attempt) && !answer (.manifestPutFails attempt)

/-- The candidates that the manifest does not prove current are uploaded, and
merged into a manifest that was there. -/
structure Lands (changed : Dict String Content) : Prop where
  uploaded : ∀ file ∈ changed, answer (.uploadFails file.1) = false
  found : (seenManifest codec answer store).isSome = true
  merged : (!backend.casCapable || somePutLands answer) = true

structure EndsWell : Prop where
  runs : (backend.supported && call.stateDirExists) = true
  reads : answer .manifestReadRaises = false
  selects : ∃ selected, candidates backend call = .ok selected ∧
    (!selected.isEmpty || call.state.tombstones.present) = true ∧
    ((selected.filter (isChanged codec (seenManifest codec answer store)) = [] ∧ call.deleted = []) ∨
      Lands codec backend answer store
        (selected.filter (isChanged codec (seenManifest codec answer store))))

end

section

variable {codec : Codec Content} {backend : Backend} {call : PushCall Content}
  {answer : PushQuery → Bool} {store after : Store String Content} {changed : Dict String Content}

theorem pushAll_ok_iff :
    ((pushAll changed).exec answer store).1 = .ok () ↔
      ∀ file ∈ changed, answer (.uploadFails file.1) = false := by
  induction changed generalizing store with
  | nil => exact ⟨fun _ => List.forall_mem_nil _, fun _ => rfl⟩
  | cons file rest induction =>
      obtain ⟨rel, content⟩ := file
      simp only [pushAll, bind_eq_bind, askFor_bind, exec_ask, List.forall_mem_cons]
      cases answer (.uploadFails rel) with
      | true => exact iff_of_false (by rintro ⟨⟩) (by rintro ⟨⟨⟩, _⟩)
      | false => exact induction.trans ⟨fun later => ⟨rfl, later⟩, fun both => both.2⟩

variable {base : Manifest}

theorem publishCas_isSome {attempts attempt : Nat}
    (read : casBase codec ((store.object manifestKey).map Prod.fst) = .base base) :
    ((publishCas codec call changed attempts attempt).exec answer store).1.isSome =
      (((List.range attempts).map (· + attempt)).any fun attempt =>
        !answer (.manifestGetFails attempt) && !answer (.manifestPutFails attempt)) := by
  induction attempts generalizing attempt with
  | zero => rfl
  | succ attempts induction =>
      have shifted : (List.range (attempts + 1)).map (· + attempt) =
          attempt :: (List.range attempts).map (· + (attempt + 1)) := by
        rw [List.range_succ_eq_map, List.map_cons, List.map_map, Nat.zero_add]
        refine congrArg _ (List.map_congr_left fun n _ => ?_)
        show n.succ + attempt = n + (attempt + 1)
        omega
      rw [shifted, List.any_cons, publishCas]
      simp only [bind_eq_bind, askFor_bind, exec_ask]
      cases answer (.manifestGetFails attempt) with
      | true => exact induction
      | false =>
          simp only [Bool.false_eq_true, if_false, getBytes_bind, exec_get, publishOver, read,
            bind_eq_bind, askFor_bind, exec_ask]
          cases answer (.manifestPutFails attempt) with
          | true => exact induction
          | false =>
              simp only [Bool.false_eq_true, if_false, putCas_bind, exec_put_read, if_true]
              rfl

variable {manifest : Manifest}

theorem casBase_of_seen (seen : seenManifest codec answer store = some manifest) :
    casBase codec ((store.object manifestKey).map Prod.fst) = .base manifest := by
  unfold seenManifest at seen
  split at seen
  · cases seen
  · obtain ⟨content, stored, parsed⟩ := Option.bind_eq_some_iff.mp seen
    rw [stored, casBase]
    unfold parseManifest at parsed
    cases loaded : codec.loads content with
    | malformed => rw [loaded] at parsed; cases parsed
    | incompatible => rw [loaded] at parsed; cases parsed
    | manifest raw =>
        rw [loaded] at parsed
        have valid : validateManifest raw = some manifest := parsed
        simp only [valid]

theorem publishManifest_isSome
    (read : casBase codec ((store.object manifestKey).map Prod.fst) = .base base) :
    ((publishManifest codec backend call changed manifest).exec answer store).1.isSome =
      (!backend.casCapable || somePutLands answer) := by
  unfold publishManifest
  cases backend.casCapable with
  | true => exact publishCas_isSome read
  | false => rfl

theorem publishAndDelete_dirty {selected : Dict String Content} :
    ((publishAndDelete codec backend call selected changed manifest).exec answer store).1.state.dirty =
      if ((publishManifest codec backend call changed manifest).exec answer store).1.isSome then .absent
      else call.state.dirty := by
  rw [publishAndDelete, bind_eq_bind, exec_bind]
  cases ((publishManifest codec backend call changed manifest).exec answer store).1 with
  | none => rfl
  | some published =>
      simp only [bind_eq_bind, exec_bind]
      rfl

/-- What a scoped push leaves of the journal, once it has compared its files. -/
theorem pushChanged_dirty {selected changed : Dict String Content}
    (explicit : call.scope.explicit = true)
    (unreserved : ∀ file ∈ changed, reserved file.1 = false) :
    ((changed = [] ∧ call.deleted = []) ∨ Lands codec backend answer store changed →
      call.dirtyOf ((pushChanged codec backend call selected changed
        (seenManifest codec answer store)).exec answer store).1 = .absent) ∧
    (¬ ((changed = [] ∧ call.deleted = []) ∨ Lands codec backend answer store changed) →
      call.dirtyOf ((pushChanged codec backend call selected changed
        (seenManifest codec answer store)).exec answer store).1 = call.state.dirty) := by
  unfold pushChanged
  cases current : changed.isEmpty && call.deleted.isEmpty with
  | true =>
      rw [Bool.and_eq_true, List.isEmpty_iff, List.isEmpty_iff] at current
      exact ⟨fun _ => rfl, fun impossible => (impossible (.inl current)).elim⟩
  | false =>
      have notCurrent : ¬ (changed = [] ∧ call.deleted = []) := by
        rintro ⟨rfl, nothing⟩
        rw [nothing] at current
        cases current
      rw [if_neg Bool.false_ne_true, bind_eq_bind, exec_bind, or_iff_right notCurrent]
      cases outcome : (pushAll changed).exec answer store with
      | mk reply middle =>
          cases reply with
          | error problem =>
              refine ⟨fun lands => ?_, fun _ => rfl⟩
              have uploaded : ((pushAll changed).exec answer store).1 = .ok () :=
                pushAll_ok_iff.mpr lands.uploaded
              rw [outcome] at uploaded
              cases uploaded
          | ok done =>
              have uploaded : ∀ file ∈ changed, answer (.uploadFails file.1) = false :=
                pushAll_ok_iff.mp (congrArg Prod.fst outcome)
              rw [pushAll_exec outcome, explicit, Bool.and_true]
              cases seen : seenManifest codec answer store with
              | none =>
                  refine ⟨fun lands => ?_, fun _ => rfl⟩
                  have found := lands.found
                  rw [seen] at found
                  cases found
              | some manifest =>
                  have untouched : (putAll store changed).object manifestKey = store.object manifestKey :=
                    putAll_other fun file member => stateKey_ne_manifestKey (unreserved file member)
                  have read : casBase codec (((putAll store changed).object manifestKey).map Prod.fst) =
                      .base manifest := by
                    rw [untouched]
                    exact casBase_of_seen seen
                  have dirty : call.dirtyOf (((publishAndDelete codec backend call selected changed
                      manifest).bind fun result => .done (.ok result)).exec answer
                        (putAll store changed)).1 =
                      if (!backend.casCapable || somePutLands answer) = true then .absent
                      else call.state.dirty := by
                    rw [exec_bind, ← publishManifest_isSome read]
                    exact publishAndDelete_dirty
                  refine ⟨fun lands => ?_, fun stays => ?_⟩
                  · exact dirty.trans (if_pos lands.merged)
                  · refine dirty.trans (if_neg fun merged => stays ⟨uploaded, ?_, merged⟩)
                    rw [seen]
                    rfl

theorem pushState_dirty (explicit : call.scope.explicit = true) :
    (EndsWell codec backend call answer store →
      dirtyAfter codec backend call answer store = .absent) ∧
    (¬ EndsWell codec backend call answer store →
      dirtyAfter codec backend call answer store = call.state.dirty) := by
  unfold dirtyAfter pushState
  cases runs : backend.supported && call.stateDirExists with
  | false =>
      exact ⟨fun ends => (Bool.false_ne_true (runs.symm.trans ends.runs)).elim, fun _ => rfl⟩
  | true =>
      cases listed : candidates backend call with
      | error problem =>
          refine ⟨fun ends => ?_, fun _ => rfl⟩
          obtain ⟨selected, same, _⟩ := ends.selects
          rw [listed] at same
          cases same
      | ok selected =>
          simp only [Bool.not_true, Bool.false_eq_true, if_false]
          cases something : !selected.isEmpty || call.state.tombstones.present with
          | false =>
              have nothing : (selected.isEmpty && !call.state.tombstones.present) = true := by
                simpa using something
              rw [if_pos nothing]
              refine ⟨fun ends => ?_, fun _ => rfl⟩
              obtain ⟨other, same, ready, _⟩ := ends.selects
              rw [listed] at same
              cases same
              rw [something] at ready
              cases ready
          | true =>
              have notNothing : ¬ (selected.isEmpty && !call.state.tombstones.present) = true := by
                rw [Bool.and_eq_true, Bool.not_eq_true']
                rintro ⟨empty, absent⟩
                rw [empty, absent] at something
                cases something
              rw [if_neg notNothing, bind_eq_bind, exec_bind, loadManifest_exec]
              cases reads : answer .manifestReadRaises with
              | true =>
                  exact ⟨fun ends => (Bool.false_ne_true (ends.reads.symm.trans reads)).elim,
                    fun _ => rfl⟩
              | false =>
                  have unreserved : ∀ file ∈ selected.filter
                      (isChanged codec (seenManifest codec answer store)),
                      reserved file.1 = false := fun file member =>
                    (candidates_file listed (List.mem_of_mem_filter member)).2
                  obtain ⟨clears, keeps⟩ := @pushChanged_dirty _ codec backend call answer store
                    selected _ explicit unreserved
                  refine ⟨fun ends => clears ?_, fun stays => keeps fun ready => ?_⟩
                  · obtain ⟨other, same, _, ready⟩ := ends.selects
                    rw [listed] at same
                    cases same
                    exact ready
                  · exact stays ⟨runs, reads, selected, listed, something, ready⟩

theorem keepsUnpushed_iff (codec : Codec Content) (backend : Backend) (call : PushCall Content)
    (answer : PushQuery → Bool) (store : Store String Content)
    (explicit : call.scope.explicit = true) :
    KeepsUnpushed codec backend call answer store ↔
      (EndsWell codec backend call answer store → ∀ rel, ¬ Unpushed call store rel) := by
  by_cases ends : EndsWell codec backend call answer store
  · rw [KeepsUnpushed, (pushState_dirty explicit).1 ends, forall_prop_of_true ends]
    exact forall_congr' fun rel => ⟨fun keeps unpushed => (nomatch keeps unpushed),
      fun none unpushed => (none unpushed).elim⟩
  · rw [KeepsUnpushed, (pushState_dirty explicit).2 ends]
    exact ⟨fun _ impossible => (ends impossible).elim, fun _ rel unpushed => unpushed.dirty⟩

end

/-! ## The push of one event -/

def journalOfWritten (rel : String) : Journal :=
  ((markStateDirty "/state" .absent [rel]).toOption).getD .absent

/-- A push of one event file, beside a record file that another writer changed. -/
def eventPush (dirty : Journal) : PushCall Text where
  stateDir := "/state"
  stateDirExists := true
  state := {
    files := [("run_events/a.json", .plain "[1]"), ("sources/x/episodes.json", .plain "[2]")]
    nodup := by decide
    dirty := dirty
    tombstones := .absent
    manifest := none }
  scope := .paths ["run_events/a.json"]
  clock _ := "2026-01-01T00:00:00+00:00"
  unreserved := by decide

/-- The bucket after the event was pushed before. -/
def eventStore : Store String Text :=
  (Store.empty.put (stateKey "run_events/a.json") (.plain "[1]")).put manifestKey
    (textCodec.dumps { objects :=
      [("run_events/a.json", manifestObject textCodec "run_events/a.json" (.plain "[1]"))] })

theorem keepsUnpushed_own : KeepsUnpushed textCodec routedBackend
    (eventPush (journalOfWritten "run_events/a.json")) noFaults eventStore := by
  refine (keepsUnpushed_iff textCodec routedBackend _ noFaults eventStore rfl).mpr
    fun _ rel unpushed => ?_
  have only : readJournal "/state" "dirty" (journalOfWritten "run_events/a.json") =
      ["run_events/a.json"] := by decide
  have dirty : rel ∈ readJournal "/state" "dirty" (journalOfWritten "run_events/a.json") :=
    unpushed.dirty
  rw [only] at dirty
  cases List.mem_singleton.mp dirty
  have outside := unpushed.outside
  revert outside
  decide

theorem scoped_push_forgets : ¬ KeepsUnpushed textCodec routedBackend
    (eventPush (journalOfWritten "sources/x/episodes.json")) noFaults eventStore := by
  intro keeps
  have unpushed : Unpushed (eventPush (journalOfWritten "sources/x/episodes.json")) eventStore
      "sources/x/episodes.json" :=
    ⟨by decide, by decide, .plain "[2]", by decide, by decide⟩
  have forgotten : readJournal "/state" "dirty" (dirtyAfter textCodec routedBackend
      (eventPush (journalOfWritten "sources/x/episodes.json")) noFaults eventStore) = [] := by
    decide +kernel
  have kept := keeps _ unpushed
  exact absurd (forgotten ▸ kept) List.not_mem_nil

end CityPods.StateSync
