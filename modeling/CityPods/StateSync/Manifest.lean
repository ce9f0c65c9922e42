import Mathlib.Data.String.Basic
import CityPods.Foundation.Dict
import CityPods.Foundation.Sha

/-! # The durable state and its manifest

Relative state paths, the two local journals, and the compact index of the
objects in the bucket.
-/

namespace CityPods.StateSync

open Foundation

def statePrefix : String := "state"

def manifestRelPath : String := "catalog/manifest.json"

def manifestVersion : Int := 1

def dirtyJournalName : String := ".dirty.json"

def tombstoneJournalName : String := ".tombstones.json"

/-- The object key of a path relative to the state directory. -/
def stateKey (rel : String) : String := statePrefix ++ "/" ++ rel

def manifestKey : String := stateKey manifestRelPath

variable {rel : String}

theorem stateKey_injective {other : String} (same : stateKey rel = stateKey other) :
    rel = other := by
  simpa [stateKey, String.ext_iff] using same

/-- The files that describe the state and are never synced as part of it. -/
def reserved (rel : String) : Bool :=
  rel == manifestRelPath || rel == dirtyJournalName || rel == tombstoneJournalName

/-! ## Relative paths -/

/-- The components between slashes, empty ones included. -/
def splitSlash : List Char → List (List Char)
  | [] => [[]]
  | char :: rest =>
      match char == '/', splitSlash rest with
      | true, components => [] :: components
      | false, [] => [[char]]
      | false, head :: tail => (char :: head) :: tail

def joinSlash (components : List (List Char)) : List Char := ['/'].intercalate components

/-- One or two leading slashes are kept, more collapse to one. -/
def rootOf : List Char → List Char
  | '/' :: '/' :: '/' :: _ => ['/']
  | '/' :: '/' :: _ => ['/', '/']
  | '/' :: _ => ['/']
  | _ => []

/-- Resolve the components against those already kept, last first. -/
def normComponents (rooted : Bool) (kept : List (List Char)) : List (List Char) → List (List Char)
  | [] => kept.reverse
  | component :: rest =>
      if component = [] ∨ component = ['.'] then normComponents rooted kept rest
      else if component ≠ ['.', '.'] then normComponents rooted (component :: kept) rest
      else
        match kept with
        | [] => normComponents rooted (if rooted then [] else [component]) rest
        | last :: earlier =>
            if last = ['.', '.'] then normComponents rooted (component :: kept) rest
            else normComponents rooted earlier rest

def normpath (path : String) : String :=
  let root := rootOf path.toList
  let components := normComponents (!root.isEmpty) [] (splitSlash path.toList)
  let normal := root ++ joinSlash components
  if normal = [] then "." else String.ofList normal

/-- The nonempty components of a path, `.` excepted. -/
def parts (path : String) : List (List Char) :=
  (splitSlash path.toList).filter fun component => component ≠ [] ∧ component ≠ ['.']

/-- The last dot of a file name and what follows, unless either side is empty. -/
def suffixOf (path : String) : String :=
  let name := ((parts path).getLast?).getD []
  match name.reverse.span (· ≠ '.') with
  | (extension, _ :: _ :: _) => if extension = [] then "" else String.ofList ('.' :: extension.reverse)
  | _ => ""

/-- Everything that is persisted is JSON text. -/
def hasStateSuffix (path : String) : Bool :=
  suffixOf path == ".json" || suffixOf path == ".jsonl"

/-- The path is the state directory itself or leaves it. -/
def escapes (rel : String) : Bool :=
  rel == "." || rel == ".." || "../".toList.isPrefixOf rel.toList

def isSafeRelStatePath (rel : String) : Bool :=
  rel != "" && !"/".toList.isPrefixOf rel.toList && !"\\".toList.isPrefixOf rel.toList &&
    rel == normpath rel && !escapes rel &&
    !(parts rel).any (fun component => component = ['.'] ∨ component = ['.', '.']) &&
    hasStateSuffix rel && !reserved rel

/-! ## Journals -/

/-- A local journal file. Entries that are not strings are skipped by every
reader and are left out. -/
inductive Journal
  | absent
  | unreadable
  | entries (raw : List String)
  deriving DecidableEq

def Journal.present : Journal → Bool
  | .absent => false
  | _ => true

inductive JournalProblem
  | escapesStateDir
  | notJson
  | reservedPath
  deriving DecidableEq

/-- Why a path may not be journaled. -/
structure JournalError where
  label : String
  problem : JournalProblem
  raw : String
  deriving DecidableEq

def JournalError.text (error : JournalError) : String :=
  match error.problem with
  | .escapesStateDir => error.label ++ " path escapes state_dir: '" ++ error.raw ++ "'"
  | .notJson => error.label ++ " path must be JSON or JSONL: '" ++ error.raw ++ "'"
  | .reservedPath => error.label ++ " path is reserved: '" ++ error.raw ++ "'"

/-- An absolute path relative to the state directory, if it lies inside. -/
def relativeTo (stateDir path : String) : Option String :=
  let root := parts stateDir
  let components := parts (normpath path)
  if root.isPrefixOf components then
    some (String.ofList (joinSlash (components.drop root.length)))
  else none

def journalRelPath (stateDir label raw : String) : Except JournalError String :=
  let relative :=
    if "/".toList.isPrefixOf raw.toList then relativeTo stateDir raw else some raw
  match relative.map normpath with
  | none => .error ⟨label, .escapesStateDir, raw⟩
  | some rel =>
      if escapes rel then .error ⟨label, .escapesStateDir, raw⟩
      else if !hasStateSuffix rel then .error ⟨label, .notJson, raw⟩
      else if reserved rel then .error ⟨label, .reservedPath, raw⟩
      else .ok rel

/-- Unreadable journals count as empty, and invalid entries are discarded. -/
def readJournal (stateDir label : String) : Journal → List String
  | .entries raw =>
      Dict.sortedSet (raw.filterMap fun path => (journalRelPath stateDir label path).toOption)
  | _ => []

/-- Add paths to a journal; an invalid path leaves it as it was. -/
def markState (label stateDir : String) (journal : Journal) (paths : List String) :
    Except JournalError Journal := do
  let rels ← paths.mapM (journalRelPath stateDir label)
  return .entries (Dict.sortedSet (readJournal stateDir label journal ++ rels))

/-- Register exact state paths changed by a writer. -/
def markStateDirty : String → Journal → List String → Except JournalError Journal :=
  markState "dirty"

/-- Record explicit state removals. -/
def markStateDeleted : String → Journal → List String → Except JournalError Journal :=
  markState "tombstone"

def clearStateDirty (stateDir : String) (journal : Journal) (paths : List String) :
    Except JournalError Journal :=
  if journal.present then do
    let rels ← paths.mapM (journalRelPath stateDir "dirty")
    let dirty := (readJournal stateDir "dirty" journal).filter (· ∉ rels)
    return if dirty = [] then .absent else .entries dirty
  else return journal

variable {stateDir label : String}

theorem journalRelPath_unreserved {raw : String}
    (valid : journalRelPath stateDir label raw = .ok rel) : reserved rel = false := by
  simp only [journalRelPath] at valid
  split at valid
  · cases valid
  · split at valid
    · cases valid
    · split at valid
      · cases valid
      · split at valid
        · cases valid
        · next unreserved =>
            cases valid
            simpa using unreserved

variable {journal : Journal}

theorem readJournal_valid (member : rel ∈ readJournal stateDir label journal) :
    ∃ raw, journalRelPath stateDir label raw = .ok rel := by
  cases journal with
  | absent => cases member
  | unreadable => cases member
  | entries raw =>
      obtain ⟨path, _, read⟩ := List.mem_filterMap.mp (Dict.mem_sortedSet.mp member)
      cases checked : journalRelPath stateDir label path with
      | error problem => rw [checked] at read; cases read
      | ok found =>
          rw [checked] at read
          cases read
          exact ⟨path, checked⟩

/-- No journal names one of the files that describe the state. -/
theorem readJournal_unreserved
    (member : rel ∈ readJournal stateDir label journal) : reserved rel = false := by
  obtain ⟨_, valid⟩ := readJournal_valid member
  exact journalRelPath_unreserved valid

/-! ## The manifest -/

/-- What the manifest records about one object. -/
structure ManifestEntry where
  digest : Option String
  size : Option Nat
  category : Option String
  deriving DecidableEq

structure Manifest where
  version : Int := manifestVersion
  generation : Int := 0
  updatedAt : Option String := none
  objects : Dict String ManifestEntry := []
  tombstones : List String := []
  deriving DecidableEq

def Manifest.digestOf (manifest : Manifest) (rel : String) : Option String :=
  (manifest.objects.get? rel).bind ManifestEntry.digest

/-- What a reader makes of the bytes of an object: no JSON, JSON of another
shape, or an index with the types of a manifest. -/
inductive Parsed
  | malformed
  | incompatible
  | manifest (manifest : Manifest)
  deriving DecidableEq

def Manifest.sorted (manifest : Manifest) : Manifest :=
  { manifest with objects := manifest.objects.sortKeys }

/-- File contents, their checksum and the JSON text format. -/
structure Codec (Content : Type) where
  digest : Content → String
  size : Content → Nat
  loads : Content → Parsed
  dumps : Manifest → Content
  loads_dumps : ∀ manifest, loads (dumps manifest) = .manifest manifest.sorted

inductive Text
  | plain (text : String)
  | manifest (manifest : Manifest)
  deriving DecidableEq

def textCodec : Codec Text where
  digest
    | .plain text => sha256Hex text
    | .manifest _ => sha256Hex ""
  size
    | .plain text => text.utf8ByteSize
    | .manifest _ => 0
  loads
    | .plain _ => .incompatible
    | .manifest manifest => .manifest manifest
  dumps manifest := .manifest manifest.sorted
  loads_dumps _ := rfl

/-- Whether a manifest of the right types may be used. -/
def validateManifest (manifest : Manifest) : Option Manifest :=
  if manifest.version = manifestVersion ∧ manifest.objects.keys.all isSafeRelStatePath = true ∧
      manifest.tombstones.all isSafeRelStatePath = true then
    some manifest
  else none

def manifestObject (codec : Codec Content) (rel : String) (content : Content) : ManifestEntry where
  digest := some (codec.digest content)
  size := some (codec.size content)
  category :=
    let head := ((splitSlash rel.toList).head?).getD []
    some (if head = [] then "root" else String.ofList head)

theorem validateManifest_eq {manifest validated : Manifest}
    (valid : validateManifest manifest = some validated) : validated = manifest := by
  simp only [validateManifest] at valid
  split at valid
  · cases valid; rfl
  · cases valid

/-! ## Merging -/

/-- The manifest after one writer's uploads and deletions. -/
def mergeManifest (delta : Dict String ManifestEntry) (deleted : List String) (now : String)
    (base : Manifest) : Manifest where
  generation := base.generation + 1
  updatedAt := some now
  objects := (base.objects.update delta).eraseAll deleted
  tombstones :=
    Dict.sortedSet ((base.tombstones ++ deleted).filter fun rel => !delta.contains rel)

section

variable {delta : Dict String ManifestEntry} {deleted : List String} {now : String}
  {base : Manifest}

theorem mergeManifest_get? (nodup : delta.keys.Nodup) (rel : String) :
    (mergeManifest delta deleted now base).objects.get? rel =
      if rel ∈ deleted then none else (delta.get? rel).or (base.objects.get? rel) := by
  simp [mergeManifest, Dict.get?_eraseAll, Dict.get?_update nodup]

theorem mem_mergeManifest_tombstones {rel : String} :
    rel ∈ (mergeManifest delta deleted now base).tombstones ↔
      (rel ∈ base.tombstones ∨ rel ∈ deleted) ∧ delta.get? rel = none := by
  simp [mergeManifest, Dict.contains, or_and_right]

end

end CityPods.StateSync
