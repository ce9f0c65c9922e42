import CityPods.Publication.Selection

/-! # Publication plans

The items of a feed, or of the search over a source, without the records that
the declared groups prove to be duplicates. A group whose proof no longer holds
on the retained records holds the whole plan.
-/

namespace CityPods.Publication

open Foundation

inductive DiagnosticCode
  | missingSource
  | missingPreferred
  | missingMember
  | fingerprintChanged
  | identityMismatch
  | guidMismatch
  | ownerSelectorMismatch
  | unexpectedMember
  | unresolvedDateConflict
  deriving DecidableEq

structure SelectionDiagnostic where
  code : DiagnosticCode
  sourceKey : String
  groupId : String
  uid : Option String
  deriving DecidableEq

structure PublicationPlan (Item : Type) where
  held : Bool
  diagnostics : List SelectionDiagnostic
  selectedUids : List PyVal
  suppressedUids : List String
  policyHash : Option String
  rawItems : List Item
  publicItems : List Item
  ownerByUid : Dict String City

def optionalText : Option String → PyVal
  | some text => .str text
  | none => .none

/-- The address of the recording: the provider's identity, where it is one. -/
def recordingUrl (record : Record) : PyVal :=
  match providerGuid record with
  | some guid =>
      if "https://".toList.isPrefixOf guid.toList then .str guid else field record "video_url"
  | none => field record "video_url"

section

variable (library : Library)

/-- The hash of the retained official observations of a record. -/
def recordIdentityFingerprint (sourceKey : String) (record : Record) : String :=
  sha256Hex (library.compactDumps (.dict [
    ("uid", field record "uid"),
    ("body", field record "body"),
    ("title", field record "title"),
    ("published", field record "published"),
    ("source_key", .str sourceKey),
    ("provider_guid", optionalText (providerGuid record)),
    ("recording_url", recordingUrl record)]))

def clip (address : PyVal) : Except String (Option String) :=
  match address with
  | .str address =>
      match library.urlsplit address with
      | none => .error "ValueError"
      | some parsed =>
          let pairs := library.parseQsl parsed.query
          let query : Dict String String := Dict.update [] pairs
          let clipId := (query.get? "clip_id").getD ""
          let viewId := (query.get? "view_id").getD ""
          if parsed.scheme ≠ "https" || parsed.hostname ≠ some parsed.netloc ||
              parsed.path ≠ "/MediaPlayer.php" || parsed.fragment ≠ "" ||
              query.length ≠ pairs.length || !isDigits clipId.toList || !isDigits viewId.toList then
            .ok none
          else .ok (some s!"https://{parsed.netloc}/clip/{clipId}")
  | _ => .ok none

def identityOf (kind : IdentityKind) (record : Record) : Except String (Option String) :=
  match kind with
  | .sameProviderGuid => .ok (providerGuid record)
  | .verifiedGranicusClip => clip library (recordingUrl record)

/-- The day of a record's date, as it is stored. -/
def publishedDay (record : Record) : String :=
  String.ofList
    ((library.text ((field record "published").orElse (.str ""))).toList.take 10)

def reported (condition : Prop) [Decidable condition] (diagnostic : SelectionDiagnostic) :
    List SelectionDiagnostic :=
  if condition then [diagnostic] else []

theorem reported_eq_nil {condition : Prop} [Decidable condition]
    {diagnostic : SelectionDiagnostic} : reported condition diagnostic = [] ↔ ¬ condition := by
  unfold reported
  split <;> simpa

def ownerOf (index : SelectionIndex) (group : PublicationGroup) : Except String City :=
  match index.owners.get? group.feedSlug with
  | some city => .ok city
  | none => .error "KeyError"

section

variable (index : SelectionIndex) (source : String) (records : Dict String Record)
  (group : PublicationGroup)

def diagnostic (code : DiagnosticCode) (uid : Option String) : SelectionDiagnostic :=
  { code, sourceKey := source, groupId := group.id, uid }

def memberDiagnostics (member : PublicationMember) : Except String (List SelectionDiagnostic) :=
  let fail (code : DiagnosticCode) := diagnostic source group code (some member.uid)
  match records.get? member.uid with
  | none =>
      .ok [fail (if member.uid = group.preferredUid then .missingPreferred else .missingMember)]
  | some record => do
      let identity ← identityOf library group.identityKind record
      let city ← ownerOf index group
      let owned ← ownsRecord library city record
      return reported (recordIdentityFingerprint library source record ≠ member.recordFingerprint)
            (fail .fingerprintChanged) ++
        reported (field record "uid" ≠ .str member.uid) (fail .identityMismatch) ++
        reported (providerGuid record ≠ some member.providerGuid) (fail .guidMismatch) ++
        reported (identity ≠ some group.identityKey) (fail .identityMismatch) ++
        reported (owned = false) (fail .ownerSelectorMismatch)

def unexpectedDiagnostics (entry : String × Record) : Except String (List SelectionDiagnostic) := do
  let identity ← identityOf library group.identityKind entry.2
  return reported (identity = some group.identityKey ∧ entry.1 ∉ group.uids)
    (diagnostic source group .unexpectedMember (some entry.1))

/-- Members of different days need a resolution that names the preferred one's
day, and there is none to resolve otherwise. -/
def dateDiagnostics : List SelectionDiagnostic :=
  let days := ((group.members.filterMap fun member => records.get? member.uid).map
    (publishedDay library)).dedup
  let preferred := (records.get? group.preferredUid).getD []
  let resolved := 1 < days.length ∧
    (group.dateResolution.map DateResolution.officialDate) = some (publishedDay library preferred)
  reported ((1 < days.length ∨ group.dateResolution ≠ none) ∧ ¬ resolved)
    (diagnostic source group .unresolvedDateConflict (some group.preferredUid))

def groupDiagnostics : Except String (List SelectionDiagnostic) := do
  let members ← collect (memberDiagnostics library index source records group) group.members
  let unexpected ← collect (unexpectedDiagnostics library source group) records
  let _ ← ownerOf index group
  return reported (records = []) (diagnostic source group .missingSource none) ++
    members ++ unexpected ++ dateDiagnostics library source records group

end

/-- Whether a value may be looked up in a set. -/
def hashable : PyVal → Bool
  | .list _ => false
  | .dict _ => false
  | _ => true

def policyHash (groups : List PublicationGroup) : Option String :=
  if groups.isEmpty then none
  else
    let declarations := Dict.sortedSet (groups.map fun group =>
      toLex (group.feedSlug, library.compactDumps (.dict group.declaration)))
    some (sha256Hex (library.compactDumps (.list (declarations.map fun declared =>
      .list [.str (ofLex declared).1, .str (ofLex declared).2]))))

section

variable {Item : Type} (uidOf : Item → PyVal)

def withoutSuppressed (suppressed : List String) : List Item → Except String (List Item)
  | [] => .ok []
  | item :: rest => do
      require (hashable (uidOf item)) "TypeError"
      let kept ← withoutSuppressed suppressed rest
      return if ∃ uid ∈ suppressed, uidOf item = .str uid then kept else item :: kept

def suppressedUids (groups : List PublicationGroup) : List String :=
  KeyClass.hidden (groups.map PublicationGroup.keyClass)

/-- All the items when there is something to report. -/
def publicItems (diagnostics : List SelectionDiagnostic) (suppressed : List String)
    (items : List Item) : Except String (List Item) :=
  if diagnostics.isEmpty then withoutSuppressed uidOf suppressed items else .ok items

def ownersByUid (index : SelectionIndex) (groups : List PublicationGroup) : Dict String City :=
  groups.foldl (fun owners group =>
    match index.owners.get? group.feedSlug with
    | some city => owners.set group.preferredUid city
    | none => owners) []

def project (index : SelectionIndex) (source : String) (groups : List PublicationGroup)
    (items : List Item) (records : Dict String Record) : Except String (PublicationPlan Item) := do
  let diagnostics ← collect (groupDiagnostics library index source records) groups
  let suppressed := suppressedUids groups
  let publicItems ← publicItems uidOf diagnostics suppressed items
  return {
    held := !diagnostics.isEmpty
    diagnostics
    selectedUids := publicItems.map uidOf
    suppressedUids := Dict.sortedSet suppressed
    policyHash := policyHash library groups
    rawItems := items
    publicItems
    ownerByUid := ownersByUid index groups }

end

def feedGroups (index : SelectionIndex) (city : City) : List PublicationGroup :=
  index.groups.filter fun group => group.feedSlug = city.slug

def searchGroups (index : SelectionIndex) (sourceKey : String) : List PublicationGroup :=
  index.groups.filter fun group => group.sourceKey = sourceKey ∧ group.search

def selectFeedPublication {Item : Type} (uidOf : Item → PyVal) (index : SelectionIndex)
    (city : City) (items : List Item) (records : Dict String Record) :
    Except String (PublicationPlan Item) :=
  project library uidOf index (citySourceKey library city) (feedGroups index city) items records

/-- The identifier that a record itself carries. -/
def recordUid (record : Record) : PyVal := field record "uid"

def selectSearchPublication (index : SelectionIndex) (sourceKey : String)
    (records : Dict String Record) : Except String (PublicationPlan Record) :=
  project library recordUid index sourceKey (searchGroups index sourceKey) (Dict.values records)
    records

end

end CityPods.Publication
