import CityPods.Foundation.Checked
import CityPods.Foundation.Program
import CityPods.StateSync.Manifest

/-! # Pushing the local state to the bucket

The storage operations of one push: read the manifest, upload what it does not
prove current, publish the merged manifest, and only then delete what was
recorded as removed.
-/

namespace CityPods.StateSync

open Foundation Program

/-- What a push may rely on. -/
structure Backend where
  supported : Bool
  casCapable : Bool
  canDelete : Bool
  isCasManaged : String → Bool

/-- A bucket whose manifest is routed to a coordination store. -/
def routedBackend : Backend where
  supported := true
  casCapable := true
  canDelete := true
  isCasManaged key := key == manifestKey

structure LocalState (Content : Type) where
  files : Dict String Content
  nodup : files.keys.Nodup
  dirty : Journal
  tombstones : Journal
  manifest : Option Manifest

inductive Scope
  | full
  | prefixes (onlyPrefixes : List String)
  | paths (onlyPaths : List String)

def Scope.explicit : Scope → Bool
  | .full => false
  | _ => true

def Scope.exactPaths : Scope → List String
  | .paths onlyPaths => onlyPaths
  | _ => []

theorem Scope.full_unreserved : ∀ raw ∈ Scope.full.exactPaths, reserved (normpath raw) = false :=
  fun _ named => (List.not_mem_nil named).elim

/-- One call. `clock n` is the time at which the manifest is merged for the
`n`-th time. Callers with an exact scope name the event, review or speaker
files they wrote, never the manifest or a journal. -/
structure PushCall (Content : Type) where
  stateDir : String
  stateDirExists : Bool
  state : LocalState Content
  scope : Scope
  clock : Nat → String
  unreserved : ∀ raw ∈ scope.exactPaths, reserved (normpath raw) = false

inductive PushError
  | notRelative (raw : String)
  | notRelativeFile (raw : String)
  | manifestRead
  | upload (rel : String)
  deriving DecidableEq

inductive PushStatus
  /-- nothing to push, or no sync support -/
  | idle
  /-- every candidate was current -/
  | current
  /-- the manifest was left as it was -/
  | unpublished
  | published
  deriving DecidableEq

structure PushResult (Content : Type) where
  count : Nat
  status : PushStatus
  changed : Dict String Content
  deleted : List String
  state : LocalState Content

/-- What a storage call may do besides its effect on the bucket. -/
inductive PushQuery
  | manifestReadRaises
  | manifestUnreadable
  | uploadFails (rel : String)
  | manifestGetFails (attempt : Nat)
  | manifestPutFails (attempt : Nat)
  | deleteFails (rel : String)

abbrev PushProgram (Content : Type) := Program String Content PushQuery Empty

def manifestCasAttempts : Nat := 3

/-! ## Candidates -/

def exactPath (raw : String) : Except PushError String :=
  if "/".toList.isPrefixOf raw.toList then .error (.notRelative raw)
  else if escapes (normpath raw) then .error (.notRelativeFile raw)
  else .ok (normpath raw)

section

variable (backend : Backend)

/-- The file is synced in bulk rather than by compare-and-swap. -/
def syncable (rel : String) : Bool :=
  hasStateSuffix rel && !backend.isCasManaged (stateKey rel)

def walkedCandidates (files : Dict String Content) (within : String → Bool) :
    Dict String Content :=
  files.filter fun file => !reserved file.1 && within file.1 && syncable backend file.1

def candidates (call : PushCall Content) : Except PushError (Dict String Content) :=
  match call.scope with
  | .full => .ok (walkedCandidates backend call.state.files fun _ => true)
  | .prefixes onlyPrefixes =>
      .ok (walkedCandidates backend call.state.files fun rel =>
        onlyPrefixes.any fun start => start.toList.isPrefixOf rel.toList)
  | .paths onlyPaths => do
      let exact ← onlyPaths.mapM exactPath
      return (Dict.sortedSet exact).filterMap fun rel =>
        if syncable backend rel then (call.state.files.get? rel).map (rel, ·) else none

end

section

variable (codec : Codec Content)

/-- The candidate is not proved current by the manifest. -/
def isChanged (remote : Option Manifest) (file : String × Content) : Bool :=
  match remote with
  | none => true
  | some manifest =>
      manifest.tombstones.contains file.1 ||
        manifest.digestOf file.1 != some (codec.digest file.2)

def deltaObjects (changed : Dict String Content) : Dict String ManifestEntry :=
  changed.map fun file => (file.1, manifestObject codec file.1 file.2)

def PushCall.deleted (call : PushCall Content) : List String :=
  readJournal call.stateDir "tombstone" call.state.tombstones

/-- A full push with a dirty journal reports how many files it uploaded. -/
def PushCall.journalDriven (call : PushCall Content) : Bool :=
  !call.scope.explicit && call.state.dirty.present

def PushCall.count (call : PushCall Content) (selected changed : Dict String Content) : Nat :=
  if call.journalDriven then changed.length else selected.length

/-! ## The operations of a push -/

def parseManifest (content : Content) : Option Manifest :=
  match codec.loads content with
  | .manifest manifest => validateManifest manifest
  | _ => none

/-- The remote index, or `none` to request a full sync. -/
def loadManifest : PushProgram Content (Except PushError (Option Manifest)) := do
  if ← askFor .manifestReadRaises then
    return .error .manifestRead
  else if ← askFor .manifestUnreadable then
    return .ok none
  else
    let stored ← getBytes manifestKey
    return .ok ((stored.map Prod.fst).bind (parseManifest codec))

/-- The uploads touch distinct keys; they are taken in order. -/
def pushAll : Dict String Content → PushProgram Content (Except PushError Unit)
  | [] => return .ok ()
  | (rel, content) :: rest => do
      if ← askFor (.uploadFails rel) then
        return .error (.upload rel)
      else
        putFile (stateKey rel) content
        pushAll rest

/-- What an attempt to publish makes of the stored manifest. -/
inductive CasBase
  | retry
  | incompatible
  | base (manifest : Manifest)
  deriving DecidableEq

def casBase : Option Content → CasBase
  | none => .base {}
  | some content =>
      match codec.loads content with
      | .malformed => .retry
      | .incompatible => .incompatible
      | .manifest raw =>
          match validateManifest raw with
          | none => .incompatible
          | some manifest => .base manifest

/-- The manifest this push publishes over `base`. -/
def PushCall.merge (call : PushCall Content) (changed : Dict String Content) (attempt : Nat)
    (base : Manifest) : Manifest :=
  mergeManifest (deltaObjects codec changed) call.deleted (call.clock attempt) base

/-- One attempt: merge into the manifest that was read and replace exactly that. -/
def publishOver (call : PushCall Content) (changed : Dict String Content) (attempt : Nat)
    (stored : Option (Content × ETag)) (retry : PushProgram Content (Option Manifest)) :
    PushProgram Content (Option Manifest) :=
  match casBase codec (stored.map Prod.fst) with
  | .retry => retry
  | .incompatible => return none
  | .base base => do
      if ← askFor (.manifestPutFails attempt) then
        retry
      else
        let merged := call.merge codec changed attempt base
        if ← putCas manifestKey (codec.dumps merged) (writeCondition (stored.map Prod.snd)) then
          return some merged
        else
          retry

def publishCas (call : PushCall Content) (changed : Dict String Content) :
    (attemptsLeft attempt : Nat) → PushProgram Content (Option Manifest)
  | 0, _ => return none
  | attemptsLeft + 1, attempt => do
      if ← askFor (.manifestGetFails attempt) then
        publishCas call changed attemptsLeft (attempt + 1)
      else
        let stored ← getBytes manifestKey
        publishOver codec call changed attempt stored
          (publishCas call changed attemptsLeft (attempt + 1))

def publishManifest (backend : Backend) (call : PushCall Content) (changed : Dict String Content)
    (manifest : Manifest) : PushProgram Content (Option Manifest) := do
  if backend.casCapable then
    publishCas codec call changed manifestCasAttempts 1
  else
    let merged := call.merge codec changed 0 manifest
    putFile manifestKey (codec.dumps merged)
    return some merged

def deleteAll : List String → PushProgram Content (List String)
  | [] => return []
  | rel :: rest => do
      if ← askFor (.deleteFails rel) then
        return rel :: (← deleteAll rest)
      else
        deleteKey (stateKey rel)
        deleteAll rest

def journalAfter (backend : Backend) (journal : Journal) (deleted failed : List String) : Journal :=
  if !deleted.isEmpty && !backend.canDelete then journal
  else if failed.isEmpty then .absent
  else .entries failed

/-- Remove the tombstoned objects, where the backend can. -/
def deletions (backend : Backend) (call : PushCall Content) : PushProgram Content (List String) :=
  if backend.canDelete then deleteAll call.deleted else return []

/-- The result of a push that leaves its local state alone. -/
def PushCall.unpublished (call : PushCall Content) (selected changed : Dict String Content) :
    PushResult Content :=
  ⟨call.count selected changed, .unpublished, changed, call.deleted, call.state⟩

/-- The part of a push that follows the uploads. -/
def publishAndDelete (backend : Backend) (call : PushCall Content)
    (selected changed : Dict String Content) (manifest : Manifest) :
    PushProgram Content (PushResult Content) := do
  match ← publishManifest codec backend call changed manifest with
  | none => return call.unpublished selected changed
  | some published =>
      let failed ← deletions backend call
      return ⟨call.count selected changed, .published, changed, call.deleted,
        { call.state with
          manifest := some published
          dirty := .absent
          tombstones := journalAfter backend call.state.tombstones call.deleted failed }⟩

/-- Upload the changed candidates, then publish them. A scoped push never turns
its own files into the first manifest. -/
def pushChanged (backend : Backend) (call : PushCall Content)
    (selected changed : Dict String Content) (remote : Option Manifest) :
    PushProgram Content (Except PushError (PushResult Content)) := do
  if changed.isEmpty && call.deleted.isEmpty then
    return .ok ⟨call.count selected changed, .current, [], [],
      { call.state with manifest := some (remote.getD {}), dirty := .absent }⟩
  else
    match ← pushAll changed with
    | .error error => return .error error
    | .ok () =>
        if remote.isNone && call.scope.explicit then
          return .ok (call.unpublished selected changed)
        else
          let result ← publishAndDelete codec backend call selected changed (remote.getD {})
          return .ok result

def pushState (backend : Backend) (call : PushCall Content) :
    PushProgram Content (Except PushError (PushResult Content)) := do
  if !(backend.supported && call.stateDirExists) then
    return .ok ⟨0, .idle, [], [], call.state⟩
  else
    match candidates backend call with
    | .error error => return .error error
    | .ok selected =>
        if selected.isEmpty && !call.state.tombstones.present then
          return .ok ⟨0, .idle, [], [], call.state⟩
        else
          match ← loadManifest codec with
          | .error error => return .error error
          | .ok remote =>
              pushChanged codec backend call selected (selected.filter (isChanged codec remote))
                remote

end

/-! ## What a push uploads -/

section

variable {backend : Backend} {codec : Codec Content} {call : PushCall Content}
  {selected : Dict String Content}

theorem filter_keys_nodup {dict : Dict String Content} (nodup : dict.keys.Nodup)
    (keep : String × Content → Bool) : (Dict.keys (dict.filter keep)).Nodup :=
  nodup.sublist (List.filter_sublist.map Prod.fst)

theorem exactPath_eq {raw rel : String} (valid : exactPath raw = .ok rel) : rel = normpath raw := by
  simp only [exactPath] at valid
  split at valid
  · cases valid
  · split at valid
    · cases valid
    · cases valid; rfl

variable {rel : String}

/-- Bookkeeping files are never uploaded as state files. -/
theorem stateKey_ne_manifestKey (unreserved : reserved rel = false) :
    stateKey rel ≠ manifestKey := by
  intro same
  rw [stateKey_injective same] at unreserved
  simp [reserved] at unreserved

variable {content : Content}

theorem mem_walkedCandidates {files : Dict String Content} {within : String → Bool}
    (member : (rel, content) ∈ walkedCandidates backend files within) :
    (rel, content) ∈ files ∧ reserved rel = false := by
  obtain ⟨present, kept⟩ := List.mem_filter.mp member
  simp only [Bool.and_eq_true, Bool.not_eq_true'] at kept
  exact ⟨present, kept.1.1⟩

theorem keys_filterMap_get? (files : Dict String Content) (eligible : String → Bool)
    (rels : List String) :
    Dict.keys (rels.filterMap fun rel =>
      if eligible rel then (files.get? rel).map (rel, ·) else none) =
      rels.filter fun rel => eligible rel && (files.get? rel).isSome := by
  induction rels with
  | nil => rfl
  | cons head rest induction =>
      cases admitted : eligible head <;> cases found : files.get? head <;>
        simpa [List.filterMap_cons, List.filter_cons, admitted, found, Dict.keys] using induction

theorem candidates_nodup (listed : candidates backend call = .ok selected) :
    selected.keys.Nodup := by
  unfold candidates at listed
  split at listed
  · cases listed
    exact filter_keys_nodup call.state.nodup _
  · cases listed
    exact filter_keys_nodup call.state.nodup _
  · next onlyPaths exact =>
      cases valid : onlyPaths.mapM exactPath with
      | error problem => rw [valid] at listed; cases listed
      | ok rels =>
          rw [valid] at listed
          cases listed
          rw [keys_filterMap_get?]
          exact (Dict.nodup_sortedSet rels).filter _

theorem candidates_file (listed : candidates backend call = .ok selected)
    (member : (rel, content) ∈ selected) :
    call.state.files.get? rel = some content ∧ reserved rel = false := by
  unfold candidates at listed
  split at listed
  · cases listed
    obtain ⟨present, unreserved⟩ := mem_walkedCandidates member
    exact ⟨Dict.get?_of_mem call.state.nodup present, unreserved⟩
  · cases listed
    obtain ⟨present, unreserved⟩ := mem_walkedCandidates member
    exact ⟨Dict.get?_of_mem call.state.nodup present, unreserved⟩
  · next onlyPaths exact =>
      cases valid : onlyPaths.mapM exactPath with
      | error problem => rw [valid] at listed; cases listed
      | ok rels =>
          rw [valid] at listed
          cases listed
          obtain ⟨named, present, read⟩ := List.mem_filterMap.mp member
          split at read
          · obtain ⟨found, stored, equal⟩ := Option.map_eq_some_iff.mp read
            cases equal
            obtain ⟨raw, given, normal⟩ := mem_of_mapM valid (Dict.mem_sortedSet.mp present)
            refine ⟨stored, ?_⟩
            rw [exactPath_eq normal]
            exact call.unreserved raw (by rw [exact]; exact given)
          · cases read

/-- The paths named by a tombstone journal are no bookkeeping files either. -/
theorem PushCall.deleted_unreserved (member : rel ∈ call.deleted) :
    reserved rel = false :=
  readJournal_unreserved member

/-! ## What a push merges -/

variable {changed : Dict String Content} {deleted : List String} {now : String} {base : Manifest}

theorem deltaObjects_get? :
    (deltaObjects codec changed).get? rel =
      (changed.get? rel).map (manifestObject codec rel) := by
  induction changed with
  | nil => rfl
  | cons file rest induction =>
      obtain ⟨head, content⟩ := file
      by_cases same : head = rel
      · simp [deltaObjects, Dict.get?_cons, same]
      · simpa [deltaObjects, Dict.get?_cons, same] using induction

theorem deltaObjects_keys :
    (deltaObjects codec changed).keys = changed.keys := by
  simp [deltaObjects, Dict.keys]

theorem mergeDelta_get? (nodup : changed.keys.Nodup) :
    (mergeManifest (deltaObjects codec changed) deleted now base).objects.get? rel =
      if rel ∈ deleted then none
      else ((changed.get? rel).map (manifestObject codec rel)).or (base.objects.get? rel) := by
  have nodup : (deltaObjects codec changed).keys.Nodup := by
    rw [deltaObjects_keys]
    exact nodup
  rw [mergeManifest_get? nodup, deltaObjects_get?]

theorem mem_mergeDelta_tombstones :
    rel ∈ (mergeManifest (deltaObjects codec changed) deleted now base).tombstones ↔
      (rel ∈ base.tombstones ∨ rel ∈ deleted) ∧ changed.get? rel = none := by
  rw [mem_mergeManifest_tombstones, deltaObjects_get?, Option.map_eq_none_iff]

variable {manifest : Manifest}

theorem parseManifest_eq (parsed : parseManifest codec content = some manifest) :
    codec.loads content = .manifest manifest := by
  simp only [parseManifest] at parsed
  split at parsed
  · next raw loaded => rw [loaded, validateManifest_eq parsed]
  · cases parsed

theorem casBase_eq (parsed : codec.loads content = .manifest manifest)
    (read : casBase codec (some content) = .base base) : base = manifest := by
  simp only [casBase, parsed] at read
  split at read
  · cases read
  · next validated valid =>
      cases read
      exact validateManifest_eq valid

end

end CityPods.StateSync
