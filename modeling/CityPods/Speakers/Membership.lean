import Mathlib.Data.List.Find
import Mathlib.Data.List.Induction
import Mathlib.Data.Set.Finite.Lemmas
import Mathlib.Order.Bounds.Basic
import CityPods.Foundation.Dict
import CityPods.Foundation.Sha
import CityPods.Foundation.Texts

/-! # Body membership

What the minutes of meetings say about who sits on a body: each meeting fed
updates its people in place, in the order in which the meetings are fed.
-/

namespace CityPods.Speakers

open Foundation
open Foundation.Whitespace (isSpace strip)

/-! ## Meetings -/

structure RosterItem where
  name : Option String
  section_ : Option String := none

/-- Official minutes: the roster, and the members of each recorded vote. Times are in
microseconds. -/
structure Meeting where
  citySlug : String
  body : Option String
  episodeUid : String
  published : Int
  roster : List RosterItem
  votes : List (List (Option String)) := []

inductive MembershipStatus
  | active
  | probable
  | reviewOnly
  deriving DecidableEq

structure Person where
  displayName : String
  aliases : List String := []
  bodyKey : String
  firstSeen : Option Int
  lastSeen : Option Int
  section_ : Option String := none
  references : List String := []
  status : MembershipStatus := .probable

structure Attended where
  speakerId : String
  episodeUid : String
  published : Int

structure Registry where
  people : Dict String Person := []
  history : List Attended := []

/-! ## Names -/

section

-- Case folding of the language.
variable (casefold : String → String)

def norm (value : Option String) : String :=
  let words := ((casefold (value.getD "")).toList.splitOnP isSpace).filter (· ≠ [])
  " ".intercalate (words.map String.ofList)

def bodyKey (citySlug : String) (body : Option String) : String :=
  citySlug ++ ":" ++ String.ofList ((sha1Hex (norm casefold body)).toList.take 10)

/-- The id of a normalised name in a body. -/
def mint (scope wanted : String) : String :=
  "spk-" ++ String.ofList ((sha1Hex (scope ++ ":" ++ wanted)).toList.take 16)

def Meeting.bodyKey (meeting : Meeting) : String :=
  Speakers.bodyKey casefold meeting.citySlug meeting.body

/-- The names of the roster as last spelled. -/
def Meeting.rosterNames (meeting : Meeting) : Dict String String :=
  meeting.roster.foldl (fun seen item =>
    let name := strip (item.name.getD "")
    if name = "" then seen else Dict.set seen (norm casefold (some name)) name) []

def Meeting.seen (meeting : Meeting) : Dict String String :=
  meeting.votes.flatten.foldl (fun seen member =>
    match member with
    | none => seen
    | some member =>
        if member = "" then seen
        else
          let name := strip member
          let key := norm casefold (some name)
          if Dict.contains seen key then seen else Dict.set seen key name)
    (meeting.rosterNames casefold)

def Meeting.sections (meeting : Meeting) : Dict String String :=
  meeting.roster.foldl (fun sections item =>
    let name := strip (item.name.getD "")
    let section_ := norm casefold item.section_
    if name = "" ∨ section_ = "" then sections
    else Dict.set sections (norm casefold (some name)) section_) []

/-! ## Observing -/

def personByName (people : Dict String Person) (scope name : String) : Option (String × Person) :=
  people.find? fun entry => decide (entry.2.bodyKey = scope) &&
    (entry.2.displayName :: entry.2.aliases).any fun known =>
      decide (norm casefold (some known) = norm casefold (some name))

def Person.seenAt (person : Person) (published : Int) (section_ : Option String) : Person :=
  { person with
    firstSeen := some (person.firstSeen.getD published)
    lastSeen := some published
    section_ := section_ <|> person.section_ }

def observeName (meeting : Meeting) (registry : Registry) (name : String) : Registry :=
  let scope := meeting.bodyKey casefold
  let section_ := (meeting.sections casefold).get? (norm casefold (some name))
  let found := (personByName casefold registry.people scope name).getD
    (mint scope (norm casefold (some name)),
      { displayName := name, bodyKey := scope, firstSeen := none, lastSeen := none })
  { people := Dict.set registry.people found.1 (found.2.seenAt meeting.published section_)
    history := registry.history ++ [⟨found.1, meeting.episodeUid, meeting.published⟩] }

def observeAttendance (registry : Registry) (meeting : Meeting) : Registry :=
  (meeting.seen casefold).values.foldl (observeName casefold meeting) registry

def feed (meetings : List Meeting) : Registry := meetings.foldl (observeAttendance casefold) {}

/-! ## Standing membership -/

/-- 180 days. -/
def profileReviewOnlyAfter : Int := 180 * 86400 * 1000000

def Person.refreshed (now : Int) (person : Person) : Person :=
  let status :=
    match person.lastSeen with
    | none => MembershipStatus.reviewOnly
    | some lastSeen =>
        if profileReviewOnlyAfter < now - lastSeen then .reviewOnly
        else if person.references ≠ [] then .active
        else .probable
  { person with status := status }

def refreshMembershipStatus (now : Int) (registry : Registry) : Registry :=
  { registry with people := Dict.mapValues (Person.refreshed now) registry.people }

structure MemberRow where
  name : String
  section_ : Option String
  deriving DecidableEq

def Person.row (scope : String) (person : Person) : Option MemberRow :=
  if person.bodyKey ≠ scope ∨ person.status = .reviewOnly then none
  else
    let name := strip person.displayName
    if name = "" then none
    else some ⟨name, (person.section_.map strip).filter fun section_ => decide (section_ ≠ "")⟩

def bodyMembership (registry : Registry) (citySlug : String) (body : Option String) :
    List MemberRow :=
  registry.people.values.filterMap (Person.row (bodyKey casefold citySlug body))

/-! ## What a meeting tells of a name -/

/-- A normalised name in a body. -/
abbrev NameKey := String × String

def Meeting.Names (meeting : Meeting) (key : NameKey) : Prop :=
  meeting.bodyKey casefold = key.1 ∧ key.2 ∈ (meeting.seen casefold).keys

instance (meeting : Meeting) (key : NameKey) : Decidable (meeting.Names casefold key) :=
  inferInstanceAs (Decidable (_ ∧ _))

def Meeting.sectionOf (meeting : Meeting) (key : NameKey) : Option String :=
  (meeting.sections casefold).get? key.2

/-- The meetings that name the person, in the order in which they were fed. -/
def namers (meetings : List Meeting) (key : NameKey) : List Meeting :=
  meetings.filter fun meeting => meeting.Names casefold key

def Registry.person (registry : Registry) (key : NameKey) : Option Person :=
  registry.people.get? (mint key.1 key.2)

def Meeting.tells (meeting : Meeting) (key : NameKey) (known : Option Person) : Person :=
  (known.getD { displayName := ((meeting.seen casefold).get? key.2).getD "", bodyKey := key.1,
                firstSeen := none, lastSeen := none }).seenAt
    meeting.published (meeting.sectionOf casefold key)

/-- The people of a registry have their own ids, minted from names among the given ones. -/
structure Minted (names : Set NameKey) (people : Dict String Person) : Prop where
  nodup : people.keys.Nodup
  named : ∀ entry ∈ people, (entry.2.bodyKey, norm casefold (some entry.2.displayName)) ∈ names
  minted : ∀ entry ∈ people,
    entry.1 = mint entry.2.bodyKey (norm casefold (some entry.2.displayName))
  aliases : ∀ entry ∈ people, entry.2.aliases = []

variable {casefold} {names : Set NameKey} {people : Dict String Person} {name : String}

theorem Minted.personByName (minted : Minted casefold names people)
    (apart : names.InjOn fun key => mint key.1 key.2) {scope : String}
    (member : (scope, norm casefold (some name)) ∈ names) :
    personByName casefold people scope name =
      (people.get? (mint scope (norm casefold (some name)))).map fun person =>
        (mint scope (norm casefold (some name)), person) := by
  have matches_ : ∀ entry ∈ people,
      (decide (entry.2.bodyKey = scope) && (entry.2.displayName :: entry.2.aliases).any fun known =>
        decide (norm casefold (some known) = norm casefold (some name))) =
      decide (entry.1 = mint scope (norm casefold (some name))) := by
    intro entry listed
    rw [Bool.eq_iff_iff, minted.aliases entry listed, minted.minted entry listed]
    simp only [List.any_cons, List.any_nil, Bool.or_false, Bool.and_eq_true, decide_eq_true_eq]
    constructor
    · intro ⟨body, same⟩
      rw [body, same]
    · intro same
      have key := apart (minted.named entry listed) member same
      exact ⟨congrArg Prod.fst key, congrArg Prod.snd key⟩
  rw [Speakers.personByName, List.find?_congr matches_, Dict.get?_eq_find?, Option.map_map]
  cases found : people.find? fun entry =>
      decide (entry.1 = mint scope (norm casefold (some name))) with
  | none => rfl
  | some entry =>
      have same : entry.1 = mint scope (norm casefold (some name)) := by
        simpa using List.find?_some found
      simp [← same]

variable {key : NameKey} {meeting : Meeting} {registry : Registry}

theorem observeName_person (minted : Minted casefold names registry.people)
    (apart : names.InjOn fun key => mint key.1 key.2)
    (member : (meeting.bodyKey casefold, norm casefold (some name)) ∈ names) (known : key ∈ names) :
    (observeName casefold meeting registry name).person key =
      if key = (meeting.bodyKey casefold, norm casefold (some name)) then
        some (((registry.person key).getD
          { displayName := name, bodyKey := key.1, firstSeen := none, lastSeen := none }).seenAt
            meeting.published (meeting.sectionOf casefold key))
      else registry.person key := by
  unfold observeName Registry.person
  dsimp only
  rw [minted.personByName apart member]
  by_cases same : key = (meeting.bodyKey casefold, norm casefold (some name))
  · subst same
    rw [if_pos rfl]
    cases found : registry.people.get? (mint (meeting.bodyKey casefold) (norm casefold (some name))) with
    | none => simp [Meeting.sectionOf]
    | some person => simp [Meeting.sectionOf]
  · rw [if_neg same]
    have different : mint key.1 key.2 ≠ mint (meeting.bodyKey casefold) (norm casefold (some name)) :=
      fun equal => same (apart known member equal)
    cases found : registry.people.get? (mint (meeting.bodyKey casefold) (norm casefold (some name))) with
    | none => simp [Dict.get?_set, different.symm]
    | some person => simp [Dict.get?_set, different.symm]

theorem Minted.set (minted : Minted casefold names people)
    (person : Person) (member : (person.bodyKey, norm casefold (some person.displayName)) ∈ names)
    (unaliased : person.aliases = []) :
    Minted casefold names (Dict.set people
      (mint person.bodyKey (norm casefold (some person.displayName))) person) where
  nodup := Dict.nodup_keys_set minted.nodup _ _
  named entry listed := by
    rcases Dict.mem_set listed with rfl | before
    · exact member
    · exact minted.named entry before
  minted entry listed := by
    rcases Dict.mem_set listed with rfl | before
    · rfl
    · exact minted.minted entry before
  aliases entry listed := by
    rcases Dict.mem_set listed with rfl | before
    · exact unaliased
    · exact minted.aliases entry before

theorem Minted.observeName (minted : Minted casefold names registry.people)
    (apart : names.InjOn fun key => mint key.1 key.2)
    (member : (meeting.bodyKey casefold, norm casefold (some name)) ∈ names) :
    Minted casefold names (observeName casefold meeting registry name).people := by
  unfold Speakers.observeName
  dsimp only
  rw [minted.personByName apart member]
  cases found : registry.people.get? (mint (meeting.bodyKey casefold) (norm casefold (some name))) with
  | none =>
      exact minted.set (Person.seenAt
        { displayName := name, bodyKey := meeting.bodyKey casefold, firstSeen := none,
          lastSeen := none } meeting.published
        ((meeting.sections casefold).get? (norm casefold (some name)))) member rfl
  | some person =>
      have listed := Dict.get?_eq_some_mem found
      rw [Option.map_some, Option.getD_some, minted.minted _ listed]
      exact minted.set (person.seenAt meeting.published
        ((meeting.sections casefold).get? (norm casefold (some name))))
        (minted.named _ listed) (minted.aliases _ listed)

/-- Names under their own normalised spelling, each once. -/
structure Spelled (casefold : String → String) (spelled : Dict String String) : Prop where
  nodup : spelled.keys.Nodup
  keyed : ∀ entry ∈ spelled, entry.1 = norm casefold (some entry.2)

variable {spelled : Dict String String}

theorem Spelled.set (known : Spelled casefold spelled)
    (name : String) : Spelled casefold (Dict.set spelled (norm casefold (some name)) name) where
  nodup := Dict.nodup_keys_set known.nodup _ _
  keyed entry listed := by
    rcases Dict.mem_set listed with rfl | before
    · rfl
    · exact known.keyed entry before

theorem Meeting.rosterNames_spelled (meeting : Meeting) :
    Spelled casefold (meeting.rosterNames casefold) := by
  unfold Meeting.rosterNames
  apply List.foldlRecOn
  · exact ⟨List.nodup_nil, fun entry listed => absurd listed List.not_mem_nil⟩
  · intro seen known item _
    dsimp only
    split
    · exact known
    · exact known.set _

theorem Meeting.seen_spelled (meeting : Meeting) : Spelled casefold (meeting.seen casefold) := by
  unfold Meeting.seen
  apply List.foldlRecOn
  · exact meeting.rosterNames_spelled
  · intro seen known member _
    cases member with
    | none => exact known
    | some member =>
        dsimp only
        split
        · exact known
        · split
          · exact known
          · exact known.set _

/-- Names observed one after another: each person is told its own name once. -/
theorem observeNames_person (apart : names.InjOn fun key => mint key.1 key.2)
    (known : Spelled casefold spelled)
    (members : ∀ wanted ∈ spelled.keys, (meeting.bodyKey casefold, wanted) ∈ names)
    (minted : Minted casefold names registry.people) :
    Minted casefold names
        (spelled.values.foldl (observeName casefold meeting) registry).people ∧
      ∀ key ∈ names,
        (spelled.values.foldl (observeName casefold meeting) registry).person key =
          if meeting.bodyKey casefold = key.1 ∧ key.2 ∈ spelled.keys then
            some (((registry.person key).getD
              { displayName := (spelled.get? key.2).getD "", bodyKey := key.1,
                firstSeen := none, lastSeen := none }).seenAt
                meeting.published (meeting.sectionOf casefold key))
          else registry.person key := by
  induction spelled generalizing registry with
  | nil => exact ⟨minted, fun key _ => by simp [Dict.values, Dict.keys]⟩
  | cons entry rest induction =>
      obtain ⟨wanted, name⟩ := entry
      have parts := List.nodup_cons.mp known.nodup
      have own : wanted = norm casefold (some name) := known.keyed (wanted, name) List.mem_cons_self
      have member : (meeting.bodyKey casefold, norm casefold (some name)) ∈ names :=
        own ▸ members wanted List.mem_cons_self
      obtain ⟨later, told⟩ := induction
        ⟨parts.2, fun other listed => known.keyed other (List.mem_cons_of_mem _ listed)⟩
        (fun other listed => members other (List.mem_cons_of_mem _ listed))
        (minted.observeName apart member)
      refine ⟨later, fun key among => ?_⟩
      have here := observeName_person minted apart member among
      rw [← own] at here
      rw [show Dict.values ((wanted, name) :: rest) = name :: Dict.values rest from rfl,
        List.foldl_cons, told key among, here]
      by_cases head : key = (meeting.bodyKey casefold, wanted)
      · subst head
        have absent : wanted ∉ Dict.keys rest := parts.1
        rw [if_pos rfl, if_neg fun both => absent both.2, if_pos ⟨rfl, List.mem_cons_self⟩]
        simp [Dict.get?]
      · rw [if_neg head]
        by_cases body : meeting.bodyKey casefold = key.1
        · have other : wanted ≠ key.2 := fun same => head (Prod.ext body.symm same.symm)
          have value : Dict.get? ((wanted, name) :: rest) key.2 = Dict.get? rest key.2 := by
            rw [Dict.get?_cons, if_neg other]
          have listed : Dict.keys ((wanted, name) :: rest) = wanted :: Dict.keys rest := rfl
          simp only [value, listed, List.mem_cons, other.symm, false_or]
        · simp [body]

theorem observeAttendance_person (apart : names.InjOn fun key => mint key.1 key.2)
    (named : ∀ key, meeting.Names casefold key → key ∈ names)
    (minted : Minted casefold names registry.people) :
    Minted casefold names (observeAttendance casefold registry meeting).people ∧
      ∀ key ∈ names, (observeAttendance casefold registry meeting).person key =
        if meeting.Names casefold key then some (meeting.tells casefold key (registry.person key))
        else registry.person key :=
  observeNames_person apart meeting.seen_spelled
    (fun wanted listed => named (meeting.bodyKey casefold, wanted) ⟨rfl, listed⟩) minted

variable {meetings : List Meeting}

/-- After meetings, a person is what its namers have told, one after another. -/
theorem feed_person (apart : names.InjOn fun key => mint key.1 key.2)
    (named : ∀ meeting ∈ meetings, ∀ key, meeting.Names casefold key → key ∈ names) :
    Minted casefold names (feed casefold meetings).people ∧
      ∀ key ∈ names, (feed casefold meetings).person key =
        (namers casefold meetings key).foldl
          (fun known meeting => some (meeting.tells casefold key known)) none := by
  induction meetings using List.reverseRecOn with
  | nil =>
      exact ⟨⟨List.nodup_nil, fun entry listed => absurd listed List.not_mem_nil,
        fun entry listed => absurd listed List.not_mem_nil,
        fun entry listed => absurd listed List.not_mem_nil⟩, fun key _ => rfl⟩
  | append_singleton earlier last induction =>
      obtain ⟨minted, told⟩ := induction fun meeting listed =>
        named meeting (List.mem_append_left _ listed)
      have step := observeAttendance_person apart
        (named last (List.mem_append_right _ List.mem_cons_self)) minted
      have run : feed casefold (earlier ++ [last]) =
          observeAttendance casefold (feed casefold earlier) last := by
        rw [feed, List.foldl_append]
        rfl
      rw [run]
      refine ⟨step.1, fun key among => ?_⟩
      have split_ : namers casefold (earlier ++ [last]) key =
          namers casefold earlier key ++ namers casefold [last] key := List.filter_append _ _
      rw [step.2 key among, told key among, split_, List.foldl_append]
      by_cases told_ : last.Names casefold key
      · have one : namers casefold [last] key = [last] :=
          List.filter_cons_of_pos (decide_eq_true told_)
        rw [if_pos told_, one, List.foldl_cons, List.foldl_nil]
      · have no : namers casefold [last] key = [] :=
          List.filter_cons_of_neg (by simpa using told_)
        rw [if_neg told_, no, List.foldl_nil]

/-! ## What is remembered -/

/-- What namers leave behind: the first of them the spelling, the last of them that gives a
section the section. -/
def told (casefold : String → String) (key : NameKey) (told : List Meeting) : Option Person :=
  told.head?.map fun first =>
    { displayName := ((first.seen casefold).get? key.2).getD ""
      bodyKey := key.1
      firstSeen := some first.published
      lastSeen := told.getLast?.map Meeting.published
      section_ := (told.filterMap fun meeting => meeting.sectionOf casefold key).getLast? }

theorem foldl_tells (key : NameKey) (meetings : List Meeting) :
    meetings.foldl (fun known meeting => some (meeting.tells casefold key known)) none =
      told casefold key meetings := by
  induction meetings using List.reverseRecOn with
  | nil => rfl
  | append_singleton earlier last induction =>
      rw [List.foldl_append, induction, List.foldl_cons, List.foldl_nil]
      cases earlier with
      | nil =>
          simp only [told, Meeting.tells, Person.seenAt, List.head?_nil, Option.map_none,
            Option.getD_none, List.nil_append, List.head?_cons, Option.map_some,
            List.getLast?_singleton]
          cases given : last.sectionOf casefold key with
          | none => simp [given]
          | some section_ => simp [given]
      | cons first rest =>
          have final : (first :: (rest ++ [last])).getLast? = some last := by
            rw [← List.cons_append, List.getLast?_concat]
          simp only [told, Meeting.tells, Person.seenAt, List.head?_cons, Option.map_some,
            Option.getD_some, List.cons_append, final]
          cases given : last.sectionOf casefold key with
          | none => simp [given]
          | some section_ => simp [given]

variable (casefold) in
structure LatestGiving (meetings : List Meeting) (key : NameKey) (meeting : Meeting) : Prop where
  member : meeting ∈ meetings
  names : meeting.Names casefold key
  gives : (meeting.sectionOf casefold key).isSome
  latest : ∀ other ∈ meetings, other.Names casefold key → (other.sectionOf casefold key).isSome →
    other.published ≤ meeting.published

variable (casefold) in
def namedAt (meetings : List Meeting) (key : NameKey) : Set Int :=
  Meeting.published '' {meeting | meeting ∈ meetings ∧ meeting.Names casefold key}

variable (casefold) in
/-- What the meetings say of a person, whatever the order in which they were fed. -/
structure Remembers (meetings : List Meeting) (key : NameKey) (person : Person) : Prop where
  firstSeen : ∃ first, person.firstSeen = some first ∧ IsLeast (namedAt casefold meetings key) first
  lastSeen : ∃ last, person.lastSeen = some last ∧ IsGreatest (namedAt casefold meetings key) last
  given : ∀ meeting, LatestGiving casefold meetings key meeting →
    person.section_ = meeting.sectionOf casefold key
  missing : (∀ meeting ∈ meetings, meeting.Names casefold key →
    meeting.sectionOf casefold key = none) → person.section_ = none

variable (casefold) in
/-- The namers that count for a person were fed in their own order: the earliest before the
others, the latest after them, and after every other section the latest one. -/
structure FedInOrder (meetings : List Meeting) (key : NameKey) : Prop where
  first : ∀ first ∈ (namers casefold meetings key).head?,
    ∀ other ∈ namers casefold meetings key, first.published ≤ other.published
  last : ∀ last ∈ (namers casefold meetings key).getLast?,
    ∀ other ∈ namers casefold meetings key, other.published ≤ last.published
  given : ∀ meeting, LatestGiving casefold meetings key meeting →
    ((namers casefold meetings key).filterMap
      fun namer => namer.sectionOf casefold key).getLast? = meeting.sectionOf casefold key

theorem mem_namers :
    meeting ∈ namers casefold meetings key ↔ meeting ∈ meetings ∧ meeting.Names casefold key := by
  simp [namers]

variable {person : Person}

theorem remembers_told (known : told casefold key (namers casefold meetings key) = some person) :
    Remembers casefold meetings key person ↔ FedInOrder casefold meetings key := by
  obtain ⟨first, head, rfl⟩ := Option.map_eq_some_iff.mp known
  obtain ⟨last, final⟩ : ∃ last, (namers casefold meetings key).getLast? = some last := by
    rw [← Option.isSome_iff_exists, List.getLast?_isSome]
    exact List.ne_nil_of_mem (List.mem_of_head? head)
  have heard : ∀ {meeting : Meeting}, meeting ∈ namers casefold meetings key →
      meeting.published ∈ namedAt casefold meetings key := fun listed =>
    Set.mem_image_of_mem _ (mem_namers.mp listed)
  have firstAmong := heard (List.mem_of_head? head)
  have lastAmong := heard (List.mem_of_getLast? final)
  constructor
  · intro remembers
    obtain ⟨_, ⟨⟩, -, least⟩ := remembers.firstSeen
    obtain ⟨_, same, -, greatest⟩ := remembers.lastSeen
    rw [final, Option.map_some, Option.some.injEq] at same
    subst same
    refine ⟨fun other told_ namer listed => ?_, fun other told_ namer listed => ?_,
      remembers.given⟩
    · cases Option.some.inj (head.symm.trans told_)
      exact least (heard listed)
    · cases Option.some.inj (final.symm.trans told_)
      exact greatest (heard listed)
  · intro order
    refine ⟨⟨first.published, rfl, firstAmong, ?_⟩,
      ⟨last.published, by rw [final, Option.map_some], lastAmong, ?_⟩, order.given, ?_⟩
    · rintro _ ⟨meeting, among, rfl⟩
      exact order.first first head meeting (mem_namers.mpr among)
    · rintro _ ⟨meeting, among, rfl⟩
      exact order.last last final meeting (mem_namers.mpr among)
    · intro silent
      have none_ : (namers casefold meetings key).filterMap
          (fun meeting => meeting.sectionOf casefold key) = [] :=
        List.filterMap_eq_nil_iff.mpr fun meeting listed =>
          silent meeting (mem_namers.mp listed).1 (mem_namers.mp listed).2
      simp only [none_, List.getLast?_nil]

/-! ## Meetings fed by date -/

theorem getLast?_filterMap_latest {given : Meeting → Option String}
    (ordered : meetings.Pairwise fun first second => first.published ≤ second.published)
    {latest : Meeting} (member : latest ∈ meetings) (gives : (given latest).isSome)
    (greatest : ∀ other ∈ meetings, (given other).isSome → other.published ≤ latest.published)
    (distinct : ∀ other ∈ meetings, other.published = latest.published → other = latest) :
    (meetings.filterMap given).getLast? = given latest := by
  induction meetings using List.reverseRecOn with
  | nil => cases member
  | append_singleton earlier last induction =>
      obtain ⟨before, -, after⟩ := List.pairwise_append.mp ordered
      rw [List.filterMap_append]
      cases here : given last with
      | some section_ =>
          have listed : last ∈ earlier ++ [last] := List.mem_append_right _ List.mem_cons_self
          have later : latest.published ≤ last.published := by
            rcases List.mem_append.mp member with old | new
            · exact after latest old last List.mem_cons_self
            · rw [List.mem_singleton.mp new]
          have same := distinct last listed
            (le_antisymm (greatest last listed (by simp [here])) later)
          rw [← same, here]
          simp [here]
      | none =>
          have old : latest ∈ earlier := by
            rcases List.mem_append.mp member with old | new
            · exact old
            · rw [List.mem_singleton.mp new, here] at gives
              cases gives
          rw [← induction before old
            (fun other listed => greatest other (List.mem_append_left _ listed))
            (fun other listed => distinct other (List.mem_append_left _ listed))]
          simp [here]

theorem fedInOrder_of_dates
    (ordered : meetings.Pairwise fun first second => first.published ≤ second.published)
    (distinct : ∀ first ∈ meetings, ∀ second ∈ meetings, first.published = second.published →
      first = second) (key : NameKey) : FedInOrder casefold meetings key where
  first first head other listed := by
    have ordered' := ordered.sublist (List.filter_sublist (p := fun meeting : Meeting =>
      decide (meeting.Names casefold key)))
    change (namers casefold meetings key).Pairwise _ at ordered'
    obtain ⟨rest, same⟩ := List.head?_eq_some_iff.mp head
    rw [same] at ordered' listed
    rcases List.mem_cons.mp listed with rfl | later
    · exact le_rfl
    · exact List.rel_of_pairwise_cons ordered' later
  last last final other listed := by
    have ordered' := ordered.sublist (List.filter_sublist (p := fun meeting : Meeting =>
      decide (meeting.Names casefold key)))
    change (namers casefold meetings key).Pairwise _ at ordered'
    obtain ⟨earlier, same⟩ := List.getLast?_eq_some_iff.mp final
    rw [same] at ordered' listed
    rcases List.mem_append.mp listed with old | new
    · exact (List.pairwise_append.mp ordered').2.2 other old last List.mem_cons_self
    · rw [List.mem_singleton.mp new]
  given latest is_ :=
    getLast?_filterMap_latest (ordered.sublist List.filter_sublist)
      (mem_namers.mpr ⟨is_.member, is_.names⟩) is_.gives
      (fun other listed gives => is_.latest other (mem_namers.mp listed).1
        (mem_namers.mp listed).2 gives)
      (fun other listed same => distinct other (mem_namers.mp listed).1 latest is_.member same)

/-! ## Every order -/

variable (casefold) in
def allNamed (meetings : List Meeting) : Set NameKey :=
  {key | ∃ meeting ∈ meetings, meeting.Names casefold key}

variable (casefold) in
/-- The registry that the speaker stage reads after the meetings. -/
def refreshedFeed (now : Int) (meetings : List Meeting) : Registry :=
  refreshMembershipStatus now (feed casefold meetings)

theorem feed_person_of_named
    (apart : (allNamed casefold meetings).InjOn fun key => mint key.1 key.2)
    (named : key ∈ allNamed casefold meetings) :
    (feed casefold meetings).person key = told casefold key (namers casefold meetings key) := by
  rw [(feed_person apart fun meeting listed key tells => ⟨meeting, listed, tells⟩).2 key named,
    foldl_tells]

theorem refreshedFeed_person (now : Int) (meetings : List Meeting) (key : NameKey) :
    (refreshedFeed casefold now meetings).person key =
      ((feed casefold meetings).person key).map (Person.refreshed now) :=
  Dict.get?_mapValues _ _ _

theorem remembers_refreshed (now : Int) :
    Remembers casefold meetings key (person.refreshed now) ↔
      Remembers casefold meetings key person :=
  ⟨fun held => ⟨held.firstSeen, held.lastSeen, held.given, held.missing⟩,
    fun held => ⟨held.firstSeen, held.lastSeen, held.given, held.missing⟩⟩

theorem told_isSome (named : key ∈ allNamed casefold meetings) :
    ∃ person, told casefold key (namers casefold meetings key) = some person := by
  obtain ⟨meeting, listed, names⟩ := named
  have member : meeting ∈ namers casefold meetings key := mem_namers.mpr ⟨listed, names⟩
  rw [← Option.isSome_iff_exists, told, Option.isSome_map, List.isSome_head?]
  exact List.ne_nil_of_mem member

theorem remembered_iff
    (apart : (allNamed casefold meetings).InjOn fun key => mint key.1 key.2) (now : Int)
    (named : key ∈ allNamed casefold meetings) :
    (∃ person, (refreshedFeed casefold now meetings).person key = some person ∧
        Remembers casefold meetings key person) ↔ FedInOrder casefold meetings key := by
  obtain ⟨person, known⟩ := told_isSome named
  rw [refreshedFeed_person, feed_person_of_named apart named, known, ← remembers_told known,
    ← remembers_refreshed now]
  simp

theorem option_eq_of_forall {firsts seconds : Option Meeting}
    (some_ : firsts.isSome = seconds.isSome)
    (agree : ∀ first ∈ firsts, ∀ second ∈ seconds, first = second) : firsts = seconds := by
  cases firsts with
  | none => exact (Option.isNone_iff_eq_none.mp (by simpa using some_.symm)).symm
  | some first =>
      obtain ⟨second, rfl⟩ := Option.isSome_iff_exists.mp some_.symm
      rw [agree first rfl second rfl]

variable {others : List Meeting}

theorem LatestGiving.congr (same : ∀ meeting, meeting ∈ meetings ↔ meeting ∈ others)
    (latest : LatestGiving casefold meetings key meeting) :
    LatestGiving casefold others key meeting :=
  ⟨(same meeting).mp latest.member, latest.names, latest.gives,
    fun other listed => latest.latest other ((same other).mpr listed)⟩

theorem exists_latestGiving (given : ∃ meeting ∈ meetings, meeting.Names casefold key ∧
      (meeting.sectionOf casefold key).isSome) :
    ∃ meeting, LatestGiving casefold meetings key meeting := by
  have finite : {meeting | meeting ∈ meetings ∧ meeting.Names casefold key ∧
      (meeting.sectionOf casefold key).isSome}.Finite :=
    (List.finite_toSet meetings).subset fun meeting both => both.1
  obtain ⟨latest, ⟨listed, names, gives⟩, greatest⟩ :=
    Set.exists_max_image _ Meeting.published finite given
  exact ⟨latest, listed, names, gives, fun other among told_ gave =>
    greatest other ⟨among, told_, gave⟩⟩

/-- Two feeds of the same meetings, each in order, leave a person alike. -/
theorem told_congr (same : ∀ meeting, meeting ∈ meetings ↔ meeting ∈ others)
    (distinct : ∀ first ∈ meetings, ∀ second ∈ meetings, first.published = second.published →
      first = second)
    (order : FedInOrder casefold meetings key) (order' : FedInOrder casefold others key) :
    told casefold key (namers casefold meetings key) =
      told casefold key (namers casefold others key) := by
  have members : ∀ meeting, meeting ∈ namers casefold meetings key ↔
      meeting ∈ namers casefold others key := fun meeting => by
    rw [mem_namers, mem_namers, same]
  have empty : namers casefold meetings key ≠ [] ↔ namers casefold others key ≠ [] := by
    simp only [ne_eq, List.eq_nil_iff_forall_not_mem, members]
  have equal : ∀ first ∈ namers casefold meetings key, ∀ second ∈ namers casefold others key,
      first.published = second.published → first = second := fun first told_ second told' =>
    distinct first (mem_namers.mp told_).1 second ((same second).mpr (mem_namers.mp told').1)
  have heads : (namers casefold meetings key).head? = (namers casefold others key).head? := by
    refine option_eq_of_forall ?_ fun first head second head' => ?_
    · rw [Bool.eq_iff_iff, List.isSome_head?, List.isSome_head?, empty]
    · have listed := List.mem_of_head? head
      have listed' := List.mem_of_head? head'
      exact equal first listed second listed' (le_antisymm
        (order.first first head second ((members second).mpr listed'))
        (order'.first second head' first ((members first).mp listed)))
  have lasts : (namers casefold meetings key).getLast? = (namers casefold others key).getLast? := by
    refine option_eq_of_forall ?_ fun last final second final' => ?_
    · rw [Bool.eq_iff_iff, List.getLast?_isSome, List.getLast?_isSome, empty]
    · have listed := List.mem_of_getLast? final
      have listed' := List.mem_of_getLast? final'
      exact equal last listed second listed' (le_antisymm
        (order'.last second final' last ((members last).mp listed))
        (order.last last final second ((members second).mpr listed')))
  have sections : ((namers casefold meetings key).filterMap
        fun namer => namer.sectionOf casefold key).getLast? =
      ((namers casefold others key).filterMap
        fun namer => namer.sectionOf casefold key).getLast? := by
    by_cases given : ∃ meeting ∈ meetings, meeting.Names casefold key ∧
        (meeting.sectionOf casefold key).isSome
    · obtain ⟨latest, is_⟩ := exists_latestGiving given
      rw [order.given latest is_, order'.given latest (is_.congr same)]
    · have silent : ∀ meeting ∈ namers casefold meetings key,
          meeting.sectionOf casefold key = none := fun meeting told_ =>
        Option.not_isSome_iff_eq_none.mp fun gives =>
          given ⟨meeting, (mem_namers.mp told_).1, (mem_namers.mp told_).2, gives⟩
      rw [List.filterMap_eq_nil_iff.mpr silent, List.filterMap_eq_nil_iff.mpr
        fun meeting told_ => silent meeting ((members meeting).mpr told_)]
  unfold told
  rw [heads, lasts, sections]

theorem allNamed_congr (same : ∀ meeting, meeting ∈ meetings ↔ meeting ∈ others) :
    allNamed casefold meetings = allNamed casefold others := by
  ext key
  exact exists_congr fun meeting => and_congr_left' (same meeting)

theorem person_congr (same : ∀ meeting, meeting ∈ meetings ↔ meeting ∈ others)
    (distinct : ∀ first ∈ meetings, ∀ second ∈ meetings, first.published = second.published →
      first = second)
    (apart : (allNamed casefold meetings).InjOn fun key => mint key.1 key.2)
    (order : ∀ key ∈ allNamed casefold meetings, FedInOrder casefold meetings key)
    (order' : ∀ key ∈ allNamed casefold others, FedInOrder casefold others key) (id_ : String) :
    (feed casefold meetings).people.get? id_ = (feed casefold others).people.get? id_ := by
  have all : allNamed casefold others = allNamed casefold meetings := (allNamed_congr same).symm
  have apart' : (allNamed casefold others).InjOn fun key => mint key.1 key.2 := all ▸ apart
  by_cases minted : ∃ key ∈ allNamed casefold meetings, mint key.1 key.2 = id_
  · obtain ⟨key, named, rfl⟩ := minted
    calc (feed casefold meetings).person key
        = told casefold key (namers casefold meetings key) := feed_person_of_named apart named
      _ = told casefold key (namers casefold others key) :=
          told_congr same distinct (order key named) (order' key (all ▸ named))
      _ = (feed casefold others).person key :=
          (feed_person_of_named apart' (all ▸ named)).symm
  · have unknown : ∀ {fed : List Meeting}, allNamed casefold fed = allNamed casefold meetings →
        (allNamed casefold fed).InjOn (fun key => mint key.1 key.2) →
        (feed casefold fed).people.get? id_ = none := by
      intro fed names apart
      have known := (feed_person apart fun meeting listed key tells => ⟨meeting, listed, tells⟩).1
      rw [Option.eq_none_iff_forall_ne_some]
      intro person found
      have listed := Dict.get?_eq_some_mem found
      have id' := known.minted (id_, person) listed
      have among := known.named (id_, person) listed
      rw [names] at among
      exact minted ⟨(person.bodyKey, norm casefold (some person.displayName)), among, id'.symm⟩
    rw [unknown rfl apart, unknown all apart']

theorem people_perm (same : ∀ meeting, meeting ∈ meetings ↔ meeting ∈ others)
    (distinct : ∀ first ∈ meetings, ∀ second ∈ meetings, first.published = second.published →
      first = second)
    (apart : (allNamed casefold meetings).InjOn fun key => mint key.1 key.2)
    (order : ∀ key ∈ allNamed casefold meetings, FedInOrder casefold meetings key)
    (order' : ∀ key ∈ allNamed casefold others, FedInOrder casefold others key) :
    (feed casefold meetings).people.Perm (feed casefold others).people := by
  have agree := person_congr same distinct apart order order'
  have apart' : (allNamed casefold others).InjOn fun key => mint key.1 key.2 :=
    allNamed_congr same ▸ apart
  have minted := (feed_person apart fun meeting listed key tells => ⟨meeting, listed, tells⟩).1
  have minted' := (feed_person apart' fun meeting listed key tells => ⟨meeting, listed, tells⟩).1
  refine (List.perm_ext_iff_of_nodup minted.nodup.of_map minted'.nodup.of_map).mpr ?_
  intro ⟨id_, person⟩
  constructor
  · intro listed
    exact Dict.get?_eq_some_mem (agree id_ ▸ Dict.get?_of_mem minted.nodup listed)
  · intro listed
    exact Dict.get?_eq_some_mem (agree id_ ▸ Dict.get?_of_mem minted'.nodup listed)

/-- Whether the registry remembers every person as the meetings say, and that it then reads the
same for every order and repetition. -/
theorem membership_remembered (casefold : String → String) (meetings : List Meeting) (now : Int)
    (apart : (allNamed casefold meetings).InjOn fun key => mint key.1 key.2) :
    ((∀ key ∈ allNamed casefold meetings, ∃ person,
        (refreshedFeed casefold now meetings).person key = some person ∧
          Remembers casefold meetings key person) ↔
      ∀ key ∈ allNamed casefold meetings, FedInOrder casefold meetings key) ∧
    ∀ others : List Meeting, (∀ meeting, meeting ∈ meetings ↔ meeting ∈ others) →
      (∀ first ∈ meetings, ∀ second ∈ meetings, first.published = second.published →
        first = second) →
      (∀ key ∈ allNamed casefold meetings, FedInOrder casefold meetings key) →
      (∀ key ∈ allNamed casefold others, FedInOrder casefold others key) →
      (refreshedFeed casefold now meetings).people.Perm
          (refreshedFeed casefold now others).people ∧
        ∀ citySlug body,
          (bodyMembership casefold (refreshedFeed casefold now meetings) citySlug body).Perm
            (bodyMembership casefold (refreshedFeed casefold now others) citySlug body) := by
  constructor
  · exact forall₂_congr fun key named => remembered_iff apart now named
  · intro others same distinct order order'
    have people : (refreshedFeed casefold now meetings).people.Perm
        (refreshedFeed casefold now others).people :=
      (people_perm same distinct apart order order').map _
    exact ⟨people, fun citySlug body => (people.map Prod.snd).filterMap _⟩

end

def springMeeting : Meeting where
  citySlug := "tampa"
  body := some "City Council"
  episodeUid := "spring"
  published := 86400 * 1000000
  roster := [⟨some "Ada Hall", some "Members"⟩, ⟨some "Bo Reyes", none⟩]

/-- 100 days after the spring meeting. -/
def summerMeeting : Meeting where
  citySlug := "tampa"
  body := some "City Council "
  episodeUid := "summer"
  published := 101 * 86400 * 1000000
  roster := [⟨some "Ada  Hall", some "Staff"⟩]
  votes := [[some "ada hall"]]

/-- 200 days after the spring meeting. -/
def nextYear : Int := 201 * 86400 * 1000000

def lower (text : String) : String := String.ofList (text.toList.map Char.toLower)

theorem summerMeeting_bodyKey : summerMeeting.bodyKey lower = springMeeting.bodyKey lower := by
  have same : norm lower (some "City Council ") = norm lower (some "City Council") := by
    decide +kernel
  change bodyKey lower "tampa" (some "City Council ") = bodyKey lower "tampa" (some "City Council")
  rw [bodyKey, bodyKey, same]

def exampleKeys : List NameKey :=
  ["ada hall", "bo reyes"].map fun wanted => (springMeeting.bodyKey lower, wanted)

theorem exampleKeys_cover (key : NameKey)
    (named : key ∈ allNamed lower [springMeeting, summerMeeting]) : key ∈ exampleKeys := by
  have seen : ∀ meeting ∈ [springMeeting, summerMeeting], ∀ wanted ∈ (meeting.seen lower).keys,
      wanted ∈ ["ada hall", "bo reyes"] := by
    decide +kernel
  have body : ∀ meeting ∈ [springMeeting, summerMeeting],
      meeting.bodyKey lower = springMeeting.bodyKey lower := by
    intro meeting listed
    rcases List.mem_cons.mp listed with rfl | later
    · rfl
    · rw [List.mem_singleton.mp later, summerMeeting_bodyKey]
  obtain ⟨meeting, listed, own, wanted⟩ := named
  exact List.mem_map.mpr ⟨key.2, seen meeting listed key.2 wanted,
    Prod.ext ((body meeting listed).symm.trans own) rfl⟩

theorem exampleKeys_apart : (allNamed lower [springMeeting, summerMeeting]).InjOn
    fun key => mint key.1 key.2 := by
  have apart : ∀ first ∈ exampleKeys, ∀ second ∈ exampleKeys,
      mint first.1 first.2 = mint second.1 second.2 → first = second := by
    decide +kernel
  exact fun first named second named' => apart first (exampleKeys_cover _ named) second
    (exampleKeys_cover _ named')

theorem membership_remembered_spring :
    (springMeeting.bodyKey lower, "ada hall") ∈ allNamed lower [springMeeting, summerMeeting] ∧
      ∃ person, (refreshedFeed lower nextYear [springMeeting, summerMeeting]).person
            (springMeeting.bodyKey lower, "ada hall") = some person ∧
          Remembers lower [springMeeting, summerMeeting]
            (springMeeting.bodyKey lower, "ada hall") person := by
  have named : (springMeeting.bodyKey lower, "ada hall") ∈
      allNamed lower [springMeeting, summerMeeting] :=
    ⟨springMeeting, List.mem_cons_self, rfl, by decide +kernel⟩
  have remembered := (membership_remembered lower [springMeeting, summerMeeting] nextYear
    exampleKeys_apart).1
  exact ⟨named, remembered.mpr (fun key _ => fedInOrder_of_dates
    (by simp [springMeeting, summerMeeting]) (by simp [springMeeting, summerMeeting]) key) _ named⟩

/-- A summer meeting fed before the spring meeting is forgotten: its member was last seen in
spring. -/
theorem backfill_forgets_meeting :
    (springMeeting.bodyKey lower, "ada hall") ∈ allNamed lower [summerMeeting, springMeeting] ∧
      ¬ ∃ person, (refreshedFeed lower nextYear [summerMeeting, springMeeting]).person
            (springMeeting.bodyKey lower, "ada hall") = some person ∧
          Remembers lower [summerMeeting, springMeeting]
            (springMeeting.bodyKey lower, "ada hall") person := by
  have same : ∀ meeting, meeting ∈ [springMeeting, summerMeeting] ↔
      meeting ∈ [summerMeeting, springMeeting] := fun meeting => by simp [or_comm]
  have apart : (allNamed lower [summerMeeting, springMeeting]).InjOn
      fun key => mint key.1 key.2 := allNamed_congr same ▸ exampleKeys_apart
  have spring : springMeeting.Names lower (springMeeting.bodyKey lower, "ada hall") :=
    ⟨rfl, by decide +kernel⟩
  have summer : summerMeeting.Names lower (springMeeting.bodyKey lower, "ada hall") :=
    ⟨summerMeeting_bodyKey, by decide +kernel⟩
  have named : (springMeeting.bodyKey lower, "ada hall") ∈
      allNamed lower [summerMeeting, springMeeting] :=
    ⟨summerMeeting, List.mem_cons_self, summer⟩
  have fed : namers lower [summerMeeting, springMeeting] (springMeeting.bodyKey lower, "ada hall") =
      [summerMeeting, springMeeting] := by
    simp [namers, spring, summer]
  refine ⟨named, fun remembered => ?_⟩
  have order := (remembered_iff apart nextYear named).mp remembered
  have earliest := order.first summerMeeting (by rw [fed]; rfl) springMeeting (by rw [fed]; simp)
  exact absurd earliest (by decide)

end CityPods.Speakers
