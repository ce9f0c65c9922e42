import Mathlib.Data.Prod.Lex
import Mathlib.Data.String.Basic
import CityPods.Foundation.Representatives
import CityPods.Publication.Bodies

/-! # Declared duplicates

A feed's configuration declares groups of records that are one recording, of
which one is preferred. The index of all the feeds' groups is built only when
no two declarations are at odds.
-/

namespace CityPods.Publication

open Foundation

structure PublicationMember where
  uid : String
  providerGuid : String
  recordFingerprint : String
  deriving DecidableEq

inductive IdentityKind
  | sameProviderGuid
  | verifiedGranicusClip
  deriving DecidableEq

structure EvidenceRef where
  url : String
  retrievedAt : String
  contentHash : String
  deriving DecidableEq

inductive ExposureStatus
  | knownCurrent
  | bothPublished
  | neverPublished
  | historicalUnknown
  deriving DecidableEq

structure Exposure where
  status : ExposureStatus
  artifacts : List EvidenceRef
  rationale : String
  deriving DecidableEq

structure DateResolution where
  officialDate : String
  evidenceUrl : String
  deriving DecidableEq

/-- A group that was read. Its declaration is the value that the text of the
declaration is written from. -/
structure PublicationGroup where
  id : String
  sourceKey : String
  identityKind : IdentityKind
  identityKey : String
  members : List PublicationMember
  preferredUid : String
  evidenceRefs : List EvidenceRef
  approvalRef : String
  exposure : Exposure
  search : Bool
  dateResolution : Option DateResolution
  feedSlug : String
  declaration : Dict String PyVal
  uids_nodup : (members.map PublicationMember.uid).Nodup
  preferred_listed : preferredUid ∈ members.map PublicationMember.uid
  preferred_declared : declaration.get? "preferred_uid" = some (.str preferredUid)

namespace PublicationGroup

def uids (group : PublicationGroup) : List String := group.members.map PublicationMember.uid

def keyClass (group : PublicationGroup) : KeyClass String where
  members := group.uids
  preferred := group.preferredUid
  preferred_listed := group.preferred_listed

def proof (group : PublicationGroup) : PyVal :=
  .dict (group.declaration.set "search" (.bool false))

/-- The keys of the sorted order. -/
def order (group : PublicationGroup) : String ×ₗ String ×ₗ String :=
  toLex (group.sourceKey, toLex (group.id, group.feedSlug))

end PublicationGroup

def sortedGroups (groups : List PublicationGroup) : List PublicationGroup :=
  groups.insertionSort fun first second => first.order ≤ second.order

variable {groups : List PublicationGroup} {group : PublicationGroup}

theorem mem_sortedGroups :
    group ∈ sortedGroups groups ↔ group ∈ groups :=
  (List.perm_insertionSort _ groups).mem_iff

/-! ## Reading -/

def mapping (value : PyVal) (keys : List String) (context : String) :
    Except String (Dict String PyVal) :=
  let expected := ", ".intercalate (keys.insertionSort (· ≤ ·))
  match value with
  | .dict entries =>
      if keys ⊆ Dict.keys entries ∧ Dict.keys entries ⊆ keys then .ok entries
      else .error s!"{context}: expected exactly {expected}"
  | _ => .error s!"{context}: expected exactly {expected}"

def text (value : PyVal) (context : String) (format : String → Bool) : Except String String :=
  match value with
  | .str text =>
      if Whitespace.isBlank text then .error s!"{context}: expected nonempty string"
      else if format text then .ok text
      else .error s!"{context}: invalid format"
  | _ => .error s!"{context}: expected nonempty string"

theorem get?_of_text {entries : Dict String PyVal} {key context read : String}
    {format : String → Bool} (returned : text (field entries key) context format = .ok read) :
    entries.get? key = some (.str read) := by
  unfold field at returned
  cases found : entries.get? key with
  | none =>
      rw [found] at returned
      cases returned
  | some value =>
      rw [found, Option.getD_some] at returned
      cases value with
      | str written =>
          unfold text at returned
          simp only at returned
          split at returned
          · cases returned
          · split at returned
            · cases returned
              rfl
            · cases returned
      | _ => cases returned

def anyFormat (_ : String) : Bool := true

def isLowerHex (char : Char) : Bool := ('0' ≤ char && char ≤ '9') || ('a' ≤ char && char ≤ 'f')

/-- `[0-9a-f]{count}` -/
def isHex (count : Nat) (text : String) : Bool :=
  text.toList.length = count && text.toList.all isLowerHex

def isSlugChar (char : Char) : Bool := ('a' ≤ char && char ≤ 'z') || ('0' ≤ char && char ≤ '9')

/-- `[a-z0-9][a-z0-9-]{0,63}` -/
def isGroupId (text : String) : Bool :=
  match text.toList with
  | [] => false
  | first :: rest =>
      isSlugChar first && rest.length ≤ 63 && rest.all fun char => isSlugChar char || char = '-'

/-- `[0-9]+` -/
def isDigits (text : List Char) : Bool := !text.isEmpty && text.all Char.isDigit

/-- `/clip/[0-9]+` -/
def isClipPath (path : String) : Bool :=
  "/clip/".toList.isPrefixOf path.toList && isDigits (path.toList.drop 6)

section

variable (library : Library)

/-- `\d{4}-\d{2}-\d{2}` -/
def isDateFormat (text : String) : Bool :=
  match text.toList with
  | [a, b, c, d, '-', e, f, '-', g, h] => [a, b, c, d, e, f, g, h].all library.isDecimal
  | _ => false

/-- `/[^/]+/[^/]+/(issues|pull)/\d+` -/
def isDecisionPath (path : String) : Bool :=
  match path.toList.splitOn '/' with
  | [[], owner, repository, kind, number] =>
      !owner.isEmpty && !repository.isEmpty &&
        (kind = "issues".toList || kind = "pull".toList) &&
        !number.isEmpty && number.all library.isDecimal
  | _ => false

def isPresent (value : Option String) : Bool := value.any (· ≠ "")

def url (value : PyVal) (context : String) : Except String String := do
  let address ← text value context anyFormat
  match library.urlsplit address with
  | none => .error "ValueError"
  | some parsed =>
      if parsed.scheme ≠ "https" || !isPresent parsed.hostname || isPresent parsed.username ||
          isPresent parsed.password then
        .error s!"{context}: expected absolute HTTPS URL"
      else .ok address

/-- `raw_timestamp.replace("Z", "+00:00")` -/
def withOffset (timestamp : String) : String :=
  String.ofList (timestamp.toList.flatMap fun char => if char = 'Z' then "+00:00".toList else [char])

def reference (context : String) (value : PyVal) : Except String EvidenceRef := do
  let ref ← mapping value ["url", "retrieved_at", "content_hash"] context
  let address ← url library (field ref "url") context
  let retrievedAt ← text (field ref "retrieved_at") context anyFormat
  match library.timestampOffset (withOffset retrievedAt) with
  | none => .error s!"{context}: retrieved_at must be an ISO timestamp"
  | some false => .error s!"{context}: timestamp must have timezone"
  | some true => do
      let contentHash ← text (field ref "content_hash") context (isHex 64)
      return { url := address, retrievedAt, contentHash }

def refs (value : PyVal) (context : String) (mayBeEmpty : Bool) :
    Except String (List EvidenceRef) :=
  match value with
  | .list elements =>
      if elements.isEmpty && !mayBeEmpty then .error s!"{context}: expected nonempty list"
      else elements.mapM (reference library context)
  | _ => .error s!"{context}: expected nonempty list"

def identityKind (value : PyVal) (context : String) : Except String IdentityKind :=
  if value = .str "same_provider_guid" then .ok .sameProviderGuid
  else if value = .str "verified_granicus_clip" then .ok .verifiedGranicusClip
  else .error s!"{context}: unsupported identity_kind"

def checkIdentity (kind : IdentityKind) (identity context : String) : Except String Unit :=
  match kind with
  | .sameProviderGuid => .ok ()
  | .verifiedGranicusClip => do
      let address ← url library (.str identity) context
      match library.urlsplit address with
      | none => .error "ValueError"
      | some parsed =>
          require (parsed.hostname = some parsed.netloc ∧ library.lower parsed.netloc = parsed.netloc ∧
              isClipPath parsed.path ∧ parsed.query = "" ∧ parsed.fragment = "")
            s!"{context}: invalid Granicus identity key"

def member (context : String) (value : PyVal) : Except String PublicationMember := do
  let entry ← mapping value ["uid", "provider_guid", "record_fingerprint"] context
  let uid ← text (field entry "uid") context (isHex 16)
  let providerGuid ← text (field entry "provider_guid") context anyFormat
  let recordFingerprint ← text (field entry "record_fingerprint") context (isHex 64)
  return { uid, providerGuid, recordFingerprint }

def checkApproval (approval context : String) : Except String Unit :=
  match library.urlsplit approval with
  | none => .error "ValueError"
  | some approved =>
      require (approved.netloc = "github.com" ∧ isDecisionPath library approved.path)
        s!"{context}: approval_ref must be GitHub issue or PR"

def exposureStatuses : Dict String ExposureStatus := [
  ("known-current", .knownCurrent),
  ("both-published", .bothPublished),
  ("never-published", .neverPublished),
  ("historical-unknown", .historicalUnknown)]

def exposure (value : PyVal) (context : String) : Except String Exposure := do
  let entries ← mapping value ["status", "artifacts", "rationale"] context
  match (field entries "status").asStr?.bind exposureStatuses.get? with
  | none => .error s!"{context}: invalid exposure status"
  | some status => do
      let artifacts ← refs library (field entries "artifacts") context
        (status = .neverPublished || status = .historicalUnknown)
      let rationale ← text (field entries "rationale") context anyFormat
      return { status, artifacts, rationale }

def searchFlag (value : PyVal) (context : String) : Except String Bool :=
  match value with
  | .bool search => .ok search
  | _ => .error s!"{context}: search must be boolean"

def dateResolution (value : PyVal) (evidence : List EvidenceRef) (context : String) :
    Except String (Option DateResolution) :=
  match value with
  | .none => .ok none
  | value => do
      let entries ← mapping value ["official_date", "evidence_url"] context
      let officialDate ← text (field entries "official_date") context (isDateFormat library)
      require (library.isIsoDate officialDate) s!"{context}: official_date must be a valid ISO date"
      match (field entries "evidence_url").asStr? with
      | some evidenceUrl =>
          require (evidenceUrl ∈ evidence.map EvidenceRef.url)
            s!"{context}: date evidence must occur in evidence_refs"
          return some { officialDate, evidenceUrl }
      | none => .error s!"{context}: date evidence must occur in evidence_refs"

def groupKeys : List String := ["id", "source_key", "identity_kind", "identity_key", "members",
  "preferred_uid", "evidence_refs", "approval_ref", "exposure", "search", "date_resolution"]

/-- `member["uid"]` of a member as it was written. -/
def writtenUid (value : PyVal) : String := ((field (value.asDict?.getD []) "uid").asStr?).getD ""

/-- The declaration with its members in order. -/
def canonical (entries : Dict String PyVal) (members : List PyVal) : Dict String PyVal :=
  entries.set "members" (.list (members.insertionSort fun first second =>
    writtenUid first ≤ writtenUid second))

def sortedMembers (members : List PublicationMember) : List PublicationMember :=
  members.insertionSort fun first second => first.uid ≤ second.uid

theorem sortedMembers_uids (members : List PublicationMember) :
    ((sortedMembers members).map PublicationMember.uid).Perm (members.map PublicationMember.uid) :=
  (List.perm_insertionSort _ members).map _

def readMembers (raw : List PyVal) (context : String) :
    Except String { members : List PublicationMember //
      (members.map PublicationMember.uid).Nodup } := do
  require (2 ≤ raw.length) s!"{context}: at least two members required"
  let members ← raw.mapM (member context)
  if distinct : (members.map PublicationMember.uid).Nodup then
    .ok ⟨sortedMembers members, (sortedMembers_uids members).nodup_iff.mpr distinct⟩
  else .error s!"{context}: duplicate member UID"

def readPreferred (entries : Dict String PyVal) (members : List PublicationMember)
    (context : String) :
    Except String { uid : String //
      uid ∈ members.map PublicationMember.uid ∧ entries.get? "preferred_uid" = some (.str uid) } :=
  match read : text (field entries "preferred_uid") context (isHex 16) with
  | .error error => .error error
  | .ok uid =>
      if listed : uid ∈ members.map PublicationMember.uid then .ok ⟨uid, listed, get?_of_text read⟩
      else .error s!"{context}: preferred_uid must be listed member"

def parseGroup (sourceKey feedSlug context : String) (value : PyVal) :
    Except String PublicationGroup := do
  let entries ← mapping value groupKeys context
  let named := library.text (field entries "id")
  let context := s!"{context}/{named}"
  let id ← text (field entries "id") context isGroupId
  let declaredSource ← text (field entries "source_key") context (isHex 12)
  require (declaredSource = sourceKey) s!"{context}: source key differs from declaring feed"
  let kind ← identityKind (field entries "identity_kind") context
  let identity ← text (field entries "identity_key") context anyFormat
  checkIdentity library kind identity context
  match (field entries "members").asList? with
  | none => .error s!"{context}: at least two members required"
  | some raw => do
      let ⟨members, distinct⟩ ← readMembers raw context
      let ⟨preferredUid, listed, declared⟩ ← readPreferred entries members context
      let evidenceRefs ← refs library (field entries "evidence_refs") context false
      let approvalRef ← url library (field entries "approval_ref") context
      checkApproval library approvalRef context
      let exposure ← exposure library (field entries "exposure") context
      let search ← searchFlag (field entries "search") context
      let dateResolution ←
        dateResolution library (field entries "date_resolution") evidenceRefs context
      return {
        id, sourceKey, identityKind := kind, identityKey := identity, members, preferredUid
        evidenceRefs, approvalRef, exposure, search, dateResolution, feedSlug
        declaration := canonical entries raw
        uids_nodup := distinct
        preferred_listed := listed
        preferred_declared := (Dict.get?_set_other _ _ (by decide)).trans declared }

def parsePublicationSelection (raw : PyVal) (sourceKey feedSlug : String) :
    Except String (List PublicationGroup) := do
  let context := s!"{feedSlug}: publication_selection"
  let entries ← mapping raw ["version", "groups"] context
  require (field entries "version" = .num 1) s!"{context}: version must be integer 1"
  match (field entries "groups").asList? with
  | none => .error s!"{context}: groups must be list"
  | some values => do
      let groups ← values.mapM (parseGroup library sourceKey feedSlug context)
      return sortedGroups groups

/-! ## The index -/

def cityGroups (city : City) : Except String (List PublicationGroup) :=
  match city.extra.get? "publication_selection" with
  | none => .ok []
  | some raw => parsePublicationSelection library raw (citySourceKey library city) city.slug

end

/-- The groups met so far, by what no two declarations may share. -/
structure Seen where
  ids : Dict (String × String) PublicationGroup
  identities : Dict (String × String) PublicationGroup
  members : Dict (String × String) PublicationGroup

def Seen.empty : Seen := ⟨[], [], []⟩

def sameDeclaration (first second : PublicationGroup) : Bool := first.proof.equals second.proof

def conflicts (prior : Option PublicationGroup) (group : PublicationGroup) : Bool :=
  prior.any fun prior => !sameDeclaration prior group || (prior.search && group.search)

def remembered (prior : Option PublicationGroup) (group : PublicationGroup) : PublicationGroup :=
  (prior.filter PublicationGroup.search).getD group

def checkKey (table : Dict (String × String) PublicationGroup) (key : String × String)
    (group : PublicationGroup) : Except String (Dict (String × String) PublicationGroup) :=
  if conflicts (table.get? key) group then
    .error s!"{group.feedSlug}/{group.id}: conflicting group declaration"
  else .ok (table.set key (remembered (table.get? key) group))

def checkMember (group : PublicationGroup) (table : Dict (String × String) PublicationGroup)
    (uid : String) : Except String (Dict (String × String) PublicationGroup) :=
  if (table.get? (group.sourceKey, uid)).any fun prior => !sameDeclaration prior group then
    .error s!"{group.feedSlug}/{group.id}: member overlaps another group"
  else .ok (table.set (group.sourceKey, uid) group)

def checkGroup (seen : Seen) (group : PublicationGroup) : Except String Seen := do
  let ids ← checkKey seen.ids (group.sourceKey, group.id) group
  let identities ← checkKey seen.identities (group.sourceKey, group.identityKey) group
  let members ← group.uids.foldlM (checkMember group) seen.members
  return { ids, identities, members }

theorem preferredUid_of_sameDeclaration {first second : PublicationGroup}
    (same : sameDeclaration first second = true) : first.preferredUid = second.preferredUid := by
  unfold sameDeclaration PublicationGroup.proof PyVal.equals at same
  rw [Bool.and_eq_true] at same
  have kept (group : PublicationGroup) :
      (group.declaration.set "search" (.bool false)).get? "preferred_uid" =
        some (.str group.preferredUid) :=
    (Dict.get?_set_other _ _ (by decide)).trans group.preferred_declared
  obtain ⟨other, declared, equal⟩ := PyVal.get?_of_foundIn same.2 (kept first)
  rw [PyVal.str_equals_iff] at equal
  rw [kept second, equal] at declared
  exact (PyVal.str.inj (Option.some.inj declared)).symm

/-- The group met last that lists this member has this preferred one. -/
def Settled (table : Dict (String × String) PublicationGroup) (key : String × String)
    (preferredUid : String) : Prop :=
  ∃ last, table.get? key = some last ∧ last.preferredUid = preferredUid

theorem Settled.unique {table : Dict (String × String) PublicationGroup} {key : String × String}
    {first second : String} (settled : Settled table key first)
    (other : Settled table key second) : first = second := by
  obtain ⟨last, found, rfl⟩ := settled
  obtain ⟨same, again, rfl⟩ := other
  rw [Option.some.inj (found.symm.trans again)]

section

variable {group : PublicationGroup} {table after : Dict (String × String) PublicationGroup}
  {uid : String}

theorem checkMember_ok (checked : checkMember group table uid = .ok after) :
    after = table.set (group.sourceKey, uid) group ∧
      ∀ prior, table.get? (group.sourceKey, uid) = some prior →
        prior.preferredUid = group.preferredUid := by
  unfold checkMember at checked
  split at checked
  · cases checked
  · next agrees =>
    cases checked
    refine ⟨rfl, ?_⟩
    intro prior found
    rw [found] at agrees
    exact preferredUid_of_sameDeclaration (by simpa using agrees)

theorem checkMember_settled (checked : checkMember group table uid = .ok after)
    {key : String × String} {preferredUid : String} (settled : Settled table key preferredUid) :
    Settled after key preferredUid := by
  obtain ⟨rfl, agrees⟩ := checkMember_ok checked
  obtain ⟨last, found, rfl⟩ := settled
  unfold Settled
  rw [Dict.get?_set]
  split
  · next same => exact ⟨group, rfl, (agrees last (same ▸ found)).symm⟩
  · exact ⟨last, found, rfl⟩

theorem checkMembers_settled {uids : List String}
    (checked : uids.foldlM (checkMember group) table = .ok after) :
    (∀ uid ∈ uids, Settled after (group.sourceKey, uid) group.preferredUid) ∧
      ∀ key preferredUid, Settled table key preferredUid → Settled after key preferredUid := by
  induction uids generalizing table with
  | nil =>
      cases checked
      exact ⟨fun uid none => absurd none List.not_mem_nil, fun _ _ settled => settled⟩
  | cons uid rest induction =>
      rw [List.foldlM_cons, bind_eq_ok] at checked
      obtain ⟨between, first, remaining⟩ := checked
      obtain ⟨later, kept⟩ := induction remaining
      constructor
      · intro other listed
        rcases List.mem_cons.mp listed with rfl | listed
        · apply kept
          obtain ⟨rfl, -⟩ := checkMember_ok first
          exact ⟨group, Dict.get?_set_same .., rfl⟩
        · exact later other listed
      · intro key preferredUid settled
        exact kept key preferredUid (checkMember_settled first settled)

end

variable {seen after : Seen}

theorem checkGroup_settled (checked : checkGroup seen group = .ok after) :
    (∀ uid ∈ group.uids, Settled after.members (group.sourceKey, uid) group.preferredUid) ∧
      ∀ key preferredUid, Settled seen.members key preferredUid →
        Settled after.members key preferredUid := by
  unfold checkGroup at checked
  obtain ⟨ids, -, checked⟩ := bind_eq_ok.mp checked
  obtain ⟨identities, -, checked⟩ := bind_eq_ok.mp checked
  obtain ⟨members, listed, built⟩ := bind_eq_ok.mp checked
  cases built
  exact checkMembers_settled listed

theorem checkGroups_settled (checked : groups.foldlM checkGroup seen = .ok after) :
    (∀ group ∈ groups, ∀ uid ∈ group.uids,
      Settled after.members (group.sourceKey, uid) group.preferredUid) ∧
      ∀ key preferredUid, Settled seen.members key preferredUid →
        Settled after.members key preferredUid := by
  induction groups generalizing seen with
  | nil =>
      cases checked
      exact ⟨fun group none => absurd none List.not_mem_nil, fun _ _ settled => settled⟩
  | cons group rest induction =>
      rw [List.foldlM_cons, bind_eq_ok] at checked
      obtain ⟨between, first, remaining⟩ := checked
      obtain ⟨later, kept⟩ := induction remaining
      obtain ⟨own, earlier⟩ := checkGroup_settled first
      constructor
      · intro other listed uid member
        rcases List.mem_cons.mp listed with rfl | listed
        · exact kept _ _ (own uid member)
        · exact later other listed uid member
      · intro key preferredUid settled
        exact kept key preferredUid (earlier key preferredUid settled)

def Consistent (groups : List PublicationGroup) : Prop :=
  ∀ first ∈ groups, ∀ second ∈ groups, first.sourceKey = second.sourceKey →
    ∀ uid ∈ first.uids, uid ∈ second.uids → first.preferredUid = second.preferredUid

theorem checkGroups_consistent
    (checked : groups.foldlM checkGroup Seen.empty = .ok after) : Consistent groups := by
  obtain ⟨settled, -⟩ := checkGroups_settled checked
  intro first firstListed second secondListed source uid firstMember secondMember
  have here := settled first firstListed uid firstMember
  rw [source] at here
  exact here.unique (settled second secondListed uid secondMember)

structure SelectionIndex where
  groups : List PublicationGroup
  owners : Dict String City
  consistent : Consistent groups

def ownersOf (cities : List City) : Dict String City :=
  cities.foldl (fun owners city => owners.set city.slug city) []

def buildIndex (cities : List City) (groups : List PublicationGroup) :
    Except String SelectionIndex :=
  match checked : groups.foldlM checkGroup Seen.empty with
  | .error error => .error error
  | .ok _ => .ok {
      groups := sortedGroups groups
      owners := ownersOf cities
      consistent := fun first firstListed second secondListed =>
        checkGroups_consistent checked first (mem_sortedGroups.mp firstListed) second
          (mem_sortedGroups.mp secondListed) }

theorem buildIndex_groups {cities : List City}
    {index : SelectionIndex} (built : buildIndex cities groups = .ok index) :
    index.groups = sortedGroups groups := by
  unfold buildIndex at built
  split at built
  · cases built
  · cases built
    rfl

def loadSelectionIndex (library : Library) (cities : List City) : Except String SelectionIndex := do
  let lists ← cities.mapM (cityGroups library)
  buildIndex cities lists.flatten

end CityPods.Publication
