import Mathlib.Data.List.Infix
import CityPods.Foundation.Checked
import CityPods.Foundation.PyVal
import CityPods.Foundation.Sha
import CityPods.Foundation.Texts

/-! # Bodies of a feed

A feed selects the records of its source by the meeting body that a record
names, or by the provider's identity of single records.
-/

namespace CityPods.Publication

open Foundation

abbrev Record := Dict String PyVal

def field (record : Dict String PyVal) (key : String) : PyVal := (record.get? key).getD .none

/-- An address as `urlsplit` reads it. -/
structure SplitUrl where
  scheme : String
  netloc : String
  path : String
  query : String
  fragment : String
  hostname : Option String
  username : Option String
  password : Option String
  deriving DecidableEq

/-- The parts of the language's own library that the code calls: what they
return, and nothing where they raise `ValueError`. -/
structure Library where
  lower : String → String
  isDecimal : Char → Bool
  /-- `str(value)` -/
  text : PyVal → String
  fnmatchcase : (name pattern : String) → Bool
  urlsplit : String → Option SplitUrl
  /-- `parse_qsl(query, keep_blank_values=True)` -/
  parseQsl : String → List (String × String)
  /-- Whether the time that `datetime.fromisoformat` reads has an offset. -/
  timestampOffset : String → Option Bool
  /-- Whether `date.fromisoformat` reads the text. -/
  isIsoDate : String → Bool
  /-- `json.dumps(value, sort_keys=True)` -/
  dumps : PyVal → String
  /-- `json.dumps(value, sort_keys=True, separators=(",", ":"))` -/
  compactDumps : PyVal → String

/-- What the code reads of a configured feed. -/
structure City where
  slug : String
  provider : String
  source : Dict String PyVal
  sourceId : Option String
  extra : Dict String PyVal

variable (library : Library)

/-- The namespace of the records that the feed shares with the other feeds of
its source: `records.source_key`. -/
def citySourceKey (city : City) : String :=
  match city.sourceId.filter (· ≠ "") with
  | some pinned => pinned
  | none =>
      let selectors := ["body", "body_any", "body_exact", "body_includes"]
      let source := city.source.filter fun entry => !selectors.contains entry.1
      String.ofList ((sha1Hex (city.provider ++ "|" ++ library.dumps (.dict source))).toList.take 12)

/-- `text.split()` -/
def words (text : List Char) : List (List Char) :=
  (text.splitOnP Whitespace.isSpace).filter fun word => !word.isEmpty

def isKeyChar (char : Char) : Bool :=
  ('a' ≤ char && char ≤ 'z') || ('0' ≤ char && char ≤ '9') || Whitespace.isSpace char

def singular (word : List Char) : List Char :=
  if 3 < word.length && word.getLast? = some 's' then word.dropLast else word

/-- The match key of a body's name. -/
def bodyKey (body : String) : String :=
  let spelled := (library.lower body).toList.flatMap fun char =>
    if char = '&' then " and ".toList else [char]
  let cleaned := spelled.map fun char => if isKeyChar char then char else ' '
  " ".intercalate ((words cleaned).map fun word => String.ofList (singular word))

/-- `body_key(body)`, which a true value other than a text makes raise. -/
def bodyKeyOf (body : PyVal) : Except String String :=
  match body with
  | .str text => .ok (bodyKey library text)
  | other => if other.truthy then .error "AttributeError" else .ok (bodyKey library "")

inductive Selector
  /-- A part of the name, or a pattern for all of it. -/
  | text (selector : String)
  /-- `ExactBodyLabel` -/
  | exact (label : String)
  deriving DecidableEq

structure BodyInclusion where
  providerGuid : String
  body : String
  deriving DecidableEq

def isGlob (selector : String) : Bool := selector.toList.any fun char => char = '*' || char = '?'

/-- The texts of a non-empty list of non-blank texts. -/
def textsOf (value : PyVal) : Option (List String) :=
  match value with
  | .list elements =>
      if elements.isEmpty then none
      else elements.mapM fun element => element.asStr?.filter (!Whitespace.isBlank ·)
  | _ => none

/-- The texts under that name, when there are any. -/
def selectorTexts (source : Dict String PyVal) (key : String) : Except String (List String) :=
  match field source key with
  | .none => .ok []
  | value =>
      match textsOf value with
      | some texts => .ok texts
      | none => .error s!"source.{key} must be a non-empty list of non-empty strings"

def sourceBodyFilter (source : Dict String PyVal) : Except String (List Selector) := do
  let additional ← selectorTexts source "body_any"
  let exact ← selectorTexts source "body_exact"
  require (∀ label ∈ exact, bodyKey library label ≠ "" ∧ isGlob label = false)
    "source.body_exact must contain complete normalized labels, not globs"
  let primary := ((field source "body").asStr?.filter (!Whitespace.isBlank ·)).toList
  return (primary ++ additional).map .text ++ exact.map .exact

def inclusionText (item : Dict String PyVal) (position : Nat) (key : String) :
    Except String String :=
  match (field item key).asStr? with
  | some text =>
      if Whitespace.isBlank text then
        .error s!"source.body_includes[{position}].{key} must be a non-empty string"
      else .ok (Whitespace.strip text)
  | none => .error s!"source.body_includes[{position}].{key} must be a non-empty string"

def readInclusion (found : List BodyInclusion) (entry : PyVal × Nat) :
    Except String (List BodyInclusion) :=
  match entry.1.asDict? with
  | none => .error s!"source.body_includes[{entry.2}] must be a mapping"
  | some item => do
      let providerGuid ← inclusionText item entry.2 "provider_guid"
      let body ← inclusionText item entry.2 "body"
      require (∀ inclusion ∈ found, inclusion.providerGuid ≠ providerGuid)
        s!"source.body_includes contains duplicate provider_guid {library.text (.str providerGuid)}"
      return found ++ [{ providerGuid, body }]

def sourceBodyInclusions (source : Dict String PyVal) : Except String (List BodyInclusion) :=
  match field source "body_includes" with
  | .none => .ok []
  | .list items => items.zipIdx.foldlM (readInclusion library) []
  | _ => .error "source.body_includes must be a list of mappings"

/-- Every occurrence of `pattern` replaced, from the left. -/
def replaceAll (pattern replacement : List Char) : (skip : Nat) → List Char → List Char
  | _, [] => []
  | skip + 1, _ :: rest => replaceAll pattern replacement skip rest
  | 0, char :: rest =>
      if pattern.isPrefixOf (char :: rest) then
        replacement ++ replaceAll pattern replacement (pattern.length - 1) rest
      else char :: replaceAll pattern replacement 0 rest

/-- The selector under the same spelling as a match key, its wildcards kept. -/
def normalizedSelector (selector : String) : String :=
  let marked := selector.toList.flatMap fun char =>
    if char = '*' then " globstar ".toList
    else if char = '?' then " globone ".toList
    else [char]
  let key := (bodyKey library (String.ofList marked)).toList
  String.ofList
    (replaceAll "globone".toList ['?'] 0 (replaceAll "globstar".toList ['*'] 0 key))

def matchesExactBodyLabel (key : String) (expected : String) : Bool :=
  let actualWords := words key.toList
  let expectedWords := words (bodyKey library expected).toList
  if actualWords.isEmpty || expectedWords.isEmpty ||
      actualWords.length % expectedWords.length ≠ 0 then false
  else
    actualWords =
      (List.replicate (actualWords.length / expectedWords.length) expectedWords).flatten

def selects (key : String) : Selector → Bool
  | .exact label => matchesExactBodyLabel library key label
  | .text selector =>
      let normalized := normalizedSelector library selector
      if isGlob selector then library.fnmatchcase key normalized
      else normalized.toList <:+: key.toList

/-- `matches(body, needle)` -/
def bodyMatches (body : PyVal) (selectors : List Selector) : Except String Bool := do
  let key ← bodyKeyOf library body
  return selectors.any (selects library key)

/-- The provider's identity of a record: the first of its fields that is a text. -/
def providerGuid (record : Record) : Option String :=
  ["provider_guid", "video_guid", "guid"].findSome? fun key => (field record key).asStr?

def recordMatchesBody (record : Record) (selectors : List Selector)
    (inclusions : List BodyInclusion) : Except String Bool :=
  if selectors.isEmpty && inclusions.isEmpty then .ok true
  else do
    let matched ← bodyMatches library (field record "body") selectors
    return matched || inclusions.any fun inclusion => providerGuid record = some inclusion.providerGuid

def ownsRecord (city : City) (record : Record) : Except String Bool := do
  let selectors ← sourceBodyFilter library city.source
  let inclusions ← sourceBodyInclusions library city.source
  recordMatchesBody library record selectors inclusions

end CityPods.Publication
