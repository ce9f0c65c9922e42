import CityPods.Foundation.JsonStrings
import CityPods.Publication.Projection

/-! # Only true duplicates are hidden

What a plan says of the items, the records and the groups that apply to it, and
when the preferred record of a hidden one is among the public items.
-/

namespace CityPods.Publication

open Foundation

variable {library : Library}

/-! ## What is read -/

variable {group : PublicationGroup}

theorem parseGroup_source {sourceKey feedSlug context : String} {value : PyVal}
    (parsed : parseGroup library sourceKey feedSlug context value = .ok group) :
    group.sourceKey = sourceKey ∧ group.feedSlug = feedSlug := by
  unfold parseGroup at parsed
  obtain ⟨entries, -, parsed⟩ := bind_eq_ok.mp parsed
  obtain ⟨id, -, parsed⟩ := bind_eq_ok.mp parsed
  obtain ⟨declaredSource, -, parsed⟩ := bind_eq_ok.mp parsed
  obtain ⟨_, -, parsed⟩ := bind_eq_ok.mp parsed
  obtain ⟨kind, -, parsed⟩ := bind_eq_ok.mp parsed
  obtain ⟨identity, -, parsed⟩ := bind_eq_ok.mp parsed
  obtain ⟨_, -, parsed⟩ := bind_eq_ok.mp parsed
  split at parsed
  · cases parsed
  · obtain ⟨⟨members, _⟩, -, parsed⟩ := bind_eq_ok.mp parsed
    obtain ⟨⟨preferred, _, _⟩, -, parsed⟩ := bind_eq_ok.mp parsed
    obtain ⟨evidence, -, parsed⟩ := bind_eq_ok.mp parsed
    obtain ⟨approval, -, parsed⟩ := bind_eq_ok.mp parsed
    obtain ⟨_, -, parsed⟩ := bind_eq_ok.mp parsed
    obtain ⟨exposure, -, parsed⟩ := bind_eq_ok.mp parsed
    obtain ⟨search, -, parsed⟩ := bind_eq_ok.mp parsed
    obtain ⟨resolution, -, built⟩ := bind_eq_ok.mp parsed
    cases built
    exact ⟨rfl, rfl⟩

variable {groups : List PublicationGroup}

theorem cityGroups_source {city : City} (read : cityGroups library city = .ok groups)
    (listed : group ∈ groups) :
    group.sourceKey = citySourceKey library city ∧ group.feedSlug = city.slug := by
  unfold cityGroups at read
  split at read
  · cases read
    cases listed
  · unfold parsePublicationSelection at read
    obtain ⟨entries, -, read⟩ := bind_eq_ok.mp read
    obtain ⟨_, -, read⟩ := bind_eq_ok.mp read
    split at read
    · cases read
    · obtain ⟨parsed, mapped, sorted⟩ := bind_eq_ok.mp read
      cases sorted
      obtain ⟨value, -, parsed⟩ := mem_of_mapM mapped (mem_sortedGroups.mp listed)
      exact parseGroup_source parsed

variable {cities : List City} {index : SelectionIndex}

theorem group_of_loaded (loaded : loadSelectionIndex library cities = .ok index)
    (listed : group ∈ index.groups) :
    ∃ city ∈ cities, group.sourceKey = citySourceKey library city ∧ group.feedSlug = city.slug := by
  unfold loadSelectionIndex at loaded
  obtain ⟨lists, read, built⟩ := bind_eq_ok.mp loaded
  rw [buildIndex_groups built, mem_sortedGroups, List.mem_flatten] at listed
  obtain ⟨groups, present, listed⟩ := listed
  obtain ⟨city, configured, read⟩ := mem_of_mapM read present
  exact ⟨city, configured, cityGroups_source read listed⟩

theorem agree_of_source (listed : ∀ group ∈ groups, group ∈ index.groups)
    (source : ∀ first ∈ groups, ∀ second ∈ groups, first.sourceKey = second.sourceKey) :
    KeyClass.Agree (groups.map PublicationGroup.keyClass) := by
  intro first firstListed second secondListed uid firstMember secondMember
  obtain ⟨group, groupListed, rfl⟩ := List.mem_map.mp firstListed
  obtain ⟨other, otherListed, rfl⟩ := List.mem_map.mp secondListed
  exact index.consistent group (listed group groupListed) other (listed other otherListed)
    (source group groupListed other otherListed) uid firstMember secondMember

theorem feedGroups_agree (loaded : loadSelectionIndex library cities = .ok index)
    (distinct : (cities.map City.slug).Nodup) (city : City) :
    KeyClass.Agree ((feedGroups index city).map PublicationGroup.keyClass) := by
  have kept {group : PublicationGroup} (listed : group ∈ feedGroups index city) :
      group ∈ index.groups ∧ group.feedSlug = city.slug := by
    simpa [feedGroups] using listed
  apply agree_of_source fun group listed => (kept listed).1
  intro first firstListed second secondListed
  obtain ⟨owner, configured, firstSource, firstSlug⟩ := group_of_loaded loaded (kept firstListed).1
  obtain ⟨other, present, secondSource, secondSlug⟩ := group_of_loaded loaded (kept secondListed).1
  have slugs : owner.slug = other.slug := by
    rw [← firstSlug, ← secondSlug, (kept firstListed).2, (kept secondListed).2]
  have same : owner = other := List.inj_on_of_nodup_map distinct configured present slugs
  rw [firstSource, secondSource, same]

theorem searchGroups_agree (index : SelectionIndex) (sourceKey : String) :
    KeyClass.Agree ((searchGroups index sourceKey).map PublicationGroup.keyClass) := by
  have kept {group : PublicationGroup} (listed : group ∈ searchGroups index sourceKey) :
      group ∈ index.groups ∧ group.sourceKey = sourceKey := by
    have both : group ∈ index.groups ∧ group.sourceKey = sourceKey ∧ group.search = true := by
      simpa [searchGroups] using listed
    exact ⟨both.1, both.2.1⟩
  apply agree_of_source fun group listed => (kept listed).1
  intro first firstListed second secondListed
  rw [(kept firstListed).2, (kept secondListed).2]

/-! ## A group without diagnostics -/

section

variable {index : SelectionIndex} {source : String} {records : Dict String Record}
  {group : PublicationGroup}

structure Proved (library : Library) (source : String) (records : Dict String Record)
    (group : PublicationGroup) (member : PublicationMember) (record : Record) : Prop where
  stored : records.get? member.uid = some record
  named : recordUid record = .str member.uid
  identity : identityOf library group.identityKind record = .ok (some group.identityKey)
  fingerprint : recordIdentityFingerprint library source record = member.recordFingerprint

theorem proved_of_memberDiagnostics {member : PublicationMember}
    (quiet : memberDiagnostics library index source records group member = .ok []) :
    ∃ record, Proved library source records group member record := by
  unfold memberDiagnostics at quiet
  cases stored : records.get? member.uid with
  | none =>
      rw [stored] at quiet
      cases quiet
  | some record =>
      rw [stored] at quiet
      obtain ⟨identity, identified, quiet⟩ := bind_eq_ok.mp quiet
      obtain ⟨city, -, quiet⟩ := bind_eq_ok.mp quiet
      obtain ⟨owned, -, quiet⟩ := bind_eq_ok.mp quiet
      have none := Except.ok.inj quiet
      simp only [List.append_eq_nil_iff, reported_eq_nil, not_not] at none
      obtain ⟨⟨⟨⟨fingerprint, named⟩, -⟩, same⟩, -⟩ := none
      subst same
      exact ⟨record, stored, named, identified, fingerprint⟩

theorem declared_of_unexpectedDiagnostics {entry : String × Record}
    (quiet : unexpectedDiagnostics library source group entry = .ok [])
    (carries : identityOf library group.identityKind entry.2 = .ok (some group.identityKey)) :
    entry.1 ∈ group.uids := by
  unfold unexpectedDiagnostics at quiet
  rw [carries, ok_bind] at quiet
  have none := reported_eq_nil.mp (Except.ok.inj quiet)
  by_contra undeclared
  exact none ⟨rfl, undeclared⟩

theorem groupDiagnostics_eq_nil
    (quiet : groupDiagnostics library index source records group = .ok []) :
    (∀ member ∈ group.members, memberDiagnostics library index source records group member = .ok []) ∧
      ∀ entry ∈ records, unexpectedDiagnostics library source group entry = .ok [] := by
  unfold groupDiagnostics at quiet
  obtain ⟨members, collected, quiet⟩ := bind_eq_ok.mp quiet
  obtain ⟨unexpected, found, quiet⟩ := bind_eq_ok.mp quiet
  obtain ⟨city, -, quiet⟩ := bind_eq_ok.mp quiet
  have none := Except.ok.inj quiet
  simp only [List.append_eq_nil_iff] at none
  obtain ⟨⟨⟨-, rfl⟩, rfl⟩, -⟩ := none
  exact ⟨collect_eq_nil.mp collected, collect_eq_nil.mp found⟩

end

/-! ## Plans -/

section

variable {Item : Type} {uidOf : Item → PyVal}

/-- The identifier of an item, where it is a text. -/
def itemKey (uidOf : Item → PyVal) (item : Item) : Option String := (uidOf item).asStr?

theorem itemKey_eq_some {item : Item} {uid : String} :
    itemKey uidOf item = some uid ↔ uidOf item = .str uid := by
  unfold itemKey
  cases uidOf item <;> simp [PyVal.asStr?]

/-- The items without the non-preferred members of the groups. -/
def visibleItems (uidOf : Item → PyVal) (groups : List PublicationGroup) (items : List Item) :
    List Item :=
  KeyClass.visible (itemKey uidOf) (groups.map PublicationGroup.keyClass) items

variable {items : List Item}

theorem withoutSuppressed_eq {kept : List Item}
    (returned : withoutSuppressed uidOf (suppressedUids groups) items = .ok kept) :
    kept = visibleItems uidOf groups items := by
  induction items generalizing kept with
  | nil =>
      cases returned
      rfl
  | cons item rest induction =>
      obtain ⟨_, -, returned⟩ := bind_eq_ok.mp returned
      obtain ⟨others, remaining, joined⟩ := bind_eq_ok.mp returned
      have hides : KeyClass.Hides (itemKey uidOf) (groups.map PublicationGroup.keyClass) item ↔
          ∃ uid ∈ suppressedUids groups, uidOf item = .str uid := by
        simp only [KeyClass.Hides, itemKey_eq_some, suppressedUids]
      rw [← Except.ok.inj joined, induction remaining]
      unfold visibleItems KeyClass.visible
      rw [List.filter_cons]
      simp only [hides, decide_not, Bool.not_eq_true', decide_eq_false_iff_not, ite_not]

/-- What a plan of the groups that apply is to say. The items are hidden that are
members of a group other than the preferred one; the records of all the members
are what was declared, and no other record has their identity; and a group's
preferred record is public if it is listed at all. -/
structure Sound (library : Library) (source : String) (groups : List PublicationGroup)
    (uidOf : Item → PyVal) (items : List Item) (records : Dict String Record)
    (plan : PublicationPlan Item) : Prop where
  raw : plan.rawItems = items
  held : plan.held = true → plan.publicItems = items
  visible : plan.held = false → plan.publicItems = items.filter fun item =>
    ∀ group ∈ groups, ∀ member ∈ group.members, member.uid ≠ group.preferredUid →
      uidOf item ≠ .str member.uid
  proved : plan.held = false → ∀ group ∈ groups, ∀ member ∈ group.members,
    ∃ record, Proved library source records group member record
  declared : plan.held = false → ∀ group ∈ groups, ∀ entry ∈ records,
    identityOf library group.identityKind entry.2 = .ok (some group.identityKey) →
      entry.1 ∈ group.uids
  preferred : plan.held = false → ∀ group ∈ groups,
    ((∃ item ∈ plan.publicItems, uidOf item = .str group.preferredUid) ↔
      ∃ item ∈ items, uidOf item = .str group.preferredUid)

theorem visibleItems_eq :
    visibleItems uidOf groups items = items.filter fun item =>
      ∀ group ∈ groups, ∀ member ∈ group.members, member.uid ≠ group.preferredUid →
        uidOf item ≠ .str member.uid := by
  unfold visibleItems KeyClass.visible
  apply List.filter_congr
  intro item _
  rw [decide_eq_decide]
  simp only [KeyClass.Hides, KeyClass.mem_hidden, itemKey_eq_some, List.mem_map]
  constructor
  · intro seen group listed member present different same
    exact seen ⟨member.uid, ⟨_, ⟨group, listed, rfl⟩, List.mem_map_of_mem present, different⟩, same⟩
  · rintro seen ⟨uid, ⟨_, ⟨group, listed, rfl⟩, present, different⟩, same⟩
    obtain ⟨member, member_listed, rfl⟩ := List.mem_map.mp present
    exact seen group listed member member_listed different same

theorem project_sound {source : String} {records : Dict String Record} {plan : PublicationPlan Item}
    (agree : KeyClass.Agree (groups.map PublicationGroup.keyClass))
    (planned : project library uidOf index source groups items records = .ok plan) :
    Sound library source groups uidOf items records plan := by
  unfold project at planned
  obtain ⟨diagnostics, collected, planned⟩ := bind_eq_ok.mp planned
  obtain ⟨publicItems, shown, built⟩ := bind_eq_ok.mp planned
  cases built
  cases diagnostics with
  | cons first others =>
      cases shown
      exact { raw := rfl, held := fun _ => rfl, visible := nofun, proved := nofun, declared := nofun, preferred := nofun }
  | nil =>
      have quiet (group : PublicationGroup) (listed : group ∈ groups) :=
        groupDiagnostics_eq_nil (collect_eq_nil.mp collected group listed)
      have seen : publicItems = visibleItems uidOf groups items := withoutSuppressed_eq shown
      exact {
        raw := rfl
        held := nofun
        visible := fun _ => seen.trans visibleItems_eq
        proved := fun _ group listed member present =>
          proved_of_memberDiagnostics ((quiet group listed).1 member present)
        declared := fun _ group listed entry present carries =>
          declared_of_unexpectedDiagnostics ((quiet group listed).2 entry present) carries
        preferred := by
          intro _ group listed
          have iff := KeyClass.preferred_visible_iff (itemKey uidOf) items agree
            (List.mem_map_of_mem listed)
          simpa only [seen, itemKey_eq_some] using! iff }

end

theorem preferred_record_listed {source : String}
    {records : Dict String Record} {plan : PublicationPlan Record}
    (sound : Sound library source groups recordUid (Dict.values records) records plan)
    (shown : plan.held = false) (listed : group ∈ groups) :
    ∃ record ∈ plan.publicItems, recordUid record = .str group.preferredUid := by
  obtain ⟨member, present, named⟩ := List.mem_map.mp group.preferred_listed
  obtain ⟨record, proved⟩ := sound.proved shown group listed member present
  rw [sound.preferred shown group listed]
  refine ⟨record, ?_, ?_⟩
  · exact List.mem_map_of_mem (Dict.get?_eq_some_mem proved.stored)
  · rw [proved.named, named]

/-- Of an index of feeds with slugs of their own, every plan is sound, and of the
search over a source every hidden record's preferred one is public. -/
theorem publication_plans_sound {cities : List City} {index : SelectionIndex}
    (loaded : loadSelectionIndex library cities = .ok index)
    (distinct : (cities.map City.slug).Nodup) :
    (∀ {Item : Type} (uidOf : Item → PyVal) (city : City) (items : List Item)
        (records : Dict String Record) (plan : PublicationPlan Item),
      selectFeedPublication library uidOf index city items records = .ok plan →
        Sound library (citySourceKey library city) (feedGroups index city) uidOf items records
          plan) ∧
      ∀ (sourceKey : String) (records : Dict String Record) (plan : PublicationPlan Record),
        selectSearchPublication library index sourceKey records = .ok plan →
          Sound library sourceKey (searchGroups index sourceKey) recordUid (Dict.values records)
              records plan ∧
            (plan.held = false → ∀ group ∈ searchGroups index sourceKey,
              ∃ record ∈ plan.publicItems, recordUid record = .str group.preferredUid) := by
  constructor
  · intro Item uidOf city items records plan planned
    exact project_sound (feedGroups_agree loaded distinct city) planned
  · intro sourceKey records plan planned
    have sound := project_sound (searchGroups_agree index sourceKey) planned
    exact ⟨sound, fun shown group listed => preferred_record_listed sound shown listed⟩

/-! ## A feed that lists the duplicate alone -/

mutual

/-- The text of a value without numbers, its keys in order. -/
def sampleJson : PyVal → List Char
  | .str text => JsonStrings.quote text.toList
  | .bool true => "true".toList
  | .bool false => "false".toList
  | .list elements => '[' :: [','].intercalate (sampleElements elements) ++ [']']
  | .dict entries =>
      '{' :: [','].intercalate ((Dict.sortKeys (sampleEntries entries)).map fun entry =>
        JsonStrings.quote entry.1.toList ++ ':' :: entry.2) ++ ['}']
  | _ => "null".toList

def sampleElements : List PyVal → List (List Char)
  | [] => []
  | element :: rest => sampleJson element :: sampleElements rest

def sampleEntries : List (String × PyVal) → List (String × List Char)
  | [] => []
  | (key, value) :: rest => (key, sampleJson value) :: sampleEntries rest

end

def sampleLibrary : Library where
  lower text := String.ofList (text.toList.map Char.toLower)
  isDecimal := Char.isDigit
  text value := value.asStr?.getD "None"
  fnmatchcase name pattern := name = pattern
  urlsplit address :=
    if address = "https://example.org/agenda" then
      some ⟨"https", "example.org", "/agenda", "", "", some "example.org", none, none⟩
    else if address = "https://github.com/o/r/issues/1" then
      some ⟨"https", "github.com", "/o/r/issues/1", "", "", some "github.com", none, none⟩
    else none
  parseQsl _ := []
  timestampOffset timestamp := if timestamp = "2026-01-02T00:00:00+00:00" then some true else none
  isIsoDate _ := false
  dumps value := String.ofList (sampleJson value)
  compactDumps value := String.ofList (sampleJson value)

def sampleRecord (uid : String) : Record := [
  ("uid", .str uid),
  ("provider_guid", .str "official-guid"),
  ("body", .str "Council"),
  ("title", .str "Meeting"),
  ("published", .str "2026-01-01T12:00:00Z"),
  ("video_url", .str "https://example.org/video")]

def sampleRecords : Dict String Record :=
  ["aaaaaaaaaaaaaaaa", "bbbbbbbbbbbbbbbb"].map fun uid => (uid, sampleRecord uid)

def sampleMember (uid fingerprint : String) : PyVal := .dict [
  ("uid", .str uid),
  ("provider_guid", .str "official-guid"),
  ("record_fingerprint", .str fingerprint)]

/-- A feed whose first record stands for its second. -/
def sampleCity : City where
  slug := "test"
  provider := "granicus"
  source := []
  sourceId := some "0123456789ab"
  extra := [("publication_selection", .dict [("version", .num 1), ("groups", .list [.dict [
    ("id", .str "one"),
    ("source_key", .str "0123456789ab"),
    ("identity_kind", .str "same_provider_guid"),
    ("identity_key", .str "official-guid"),
    ("members", .list [
      sampleMember "aaaaaaaaaaaaaaaa" 
        "c8556da9cdccff0d15c3425a42450d7a7916acf4e49ea290992cca2e128897eb",
      sampleMember "bbbbbbbbbbbbbbbb" 
        "436935c8b6947db7a0ba9a4cba31b7052f8b06a63f771ba53dcccbab78f53a62"]),
    ("preferred_uid", .str "aaaaaaaaaaaaaaaa"),
    ("evidence_refs", .list [.dict [
      ("url", .str "https://example.org/agenda"),
      ("retrieved_at", .str "2026-01-02T00:00:00Z"),
      ("content_hash", .str "cccccccccccccccccccccccccccccccccccccccccccccccccccccccccccccccc")]]),
    ("approval_ref", .str "https://github.com/o/r/issues/1"),
    ("exposure", .dict [
      ("status", .str "historical-unknown"),
      ("artifacts", .list []),
      ("rationale", .str "Unknown past")]),
    ("search", .bool true),
    ("date_resolution", .none)]])])]

def sampleOutcome (items : List Record) : Except String (Bool × Nat × List (List String × String)) := do
  let index ← loadSelectionIndex sampleLibrary [sampleCity]
  let plan ← selectFeedPublication sampleLibrary recordUid index sampleCity items sampleRecords
  return (plan.held, plan.publicItems.length,
    (feedGroups index sampleCity).map fun group => (group.uids, group.preferredUid))

theorem sampleOutcome_of_duplicate :
    (sampleOutcome [sampleRecord "bbbbbbbbbbbbbbbb"]).toOption =
      some (false, 0, [(["aaaaaaaaaaaaaaaa", "bbbbbbbbbbbbbbbb"], "aaaaaaaaaaaaaaaa")]) := by
  decide +kernel

theorem sample_loaded : ∃ index, loadSelectionIndex sampleLibrary [sampleCity] = .ok index := by
  cases loaded : loadSelectionIndex sampleLibrary [sampleCity] with
  | ok index => exact ⟨index, rfl⟩
  | error error =>
      have outcome := sampleOutcome_of_duplicate
      unfold sampleOutcome at outcome
      rw [loaded] at outcome
      cases outcome

theorem publication_plans_sound_sample : ∃ index,
    loadSelectionIndex sampleLibrary [sampleCity] = .ok index ∧
      ∀ (sourceKey : String) (records : Dict String Record) (plan : PublicationPlan Record),
        selectSearchPublication sampleLibrary index sourceKey records = .ok plan →
          plan.held = false → ∀ group ∈ searchGroups index sourceKey,
            ∃ record ∈ plan.publicItems, recordUid record = .str group.preferredUid := by
  obtain ⟨index, loaded⟩ := sample_loaded
  have sound := publication_plans_sound loaded (by decide)
  exact ⟨index, loaded, fun sourceKey records plan planned => (sound.2 _ _ _ planned).2⟩

/-- The feed's list holds the second record alone. The plan is not held, the
record is removed, and its group's preferred record is not among the public items. -/
theorem meeting_lost_when_duplicate_listed_alone : ∃ index plan,
    loadSelectionIndex sampleLibrary [sampleCity] = .ok index ∧
      selectFeedPublication sampleLibrary recordUid index sampleCity
        [sampleRecord "bbbbbbbbbbbbbbbb"] sampleRecords = .ok plan ∧
      plan.held = false ∧ sampleRecord "bbbbbbbbbbbbbbbb" ∉ plan.publicItems ∧
      ∃ group ∈ feedGroups index sampleCity, "bbbbbbbbbbbbbbbb" ∈ group.uids ∧
        ∀ item ∈ plan.publicItems, recordUid item ≠ .str group.preferredUid := by
  have outcome := sampleOutcome_of_duplicate
  unfold sampleOutcome at outcome
  obtain ⟨index, loaded⟩ := sample_loaded
  rw [loaded, ok_bind] at outcome
  cases planned : selectFeedPublication sampleLibrary recordUid index sampleCity
      [sampleRecord "bbbbbbbbbbbbbbbb"] sampleRecords with
  | error error =>
      rw [planned] at outcome
      cases outcome
  | ok plan =>
      rw [planned] at outcome
      obtain ⟨shown, none, groups⟩ := Prod.mk.inj (Option.some.inj outcome) |>.imp id Prod.mk.inj
      have noItems : plan.publicItems = [] := List.length_eq_zero_iff.mp none
      obtain ⟨group, listed, declared⟩ := List.mem_map.mp (groups ▸ List.mem_singleton_self _)
      refine ⟨index, plan, loaded, planned, shown, ?_, group, listed, ?_, ?_⟩
      · simp [noItems]
      · rw [(Prod.mk.inj declared).1]
        decide
      · simp [noItems]

end CityPods.Publication
