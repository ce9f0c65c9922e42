import CityPods.Records.TranscribePlan

/-! # What is pending

What a run over the records of a source returns, and that the memory of the
recipes is not observable where a record is kept under its own identity.
-/

namespace CityPods.Records

open Foundation Foundation.Stateful

/-! ## Routed records -/

theorem knownSeconds_nonneg {ep : Episode} {seconds : ℚ} (known : knownSeconds ep = some seconds) :
    0 ≤ seconds := by
  rw [knownSeconds] at known
  split at known
  · next positive =>
    rw [← Option.some.inj known]
    linarith
  · cases known

section

variable {σ ρ : Type} {options : TranscribeOptions σ} {invariant : σ → Prop}
  {recordToEpisode : ρ → Except String Episode}

structure TranscribeOptions.Keep (options : TranscribeOptions σ) (invariant : σ → Prop) : Prop where
  classifier : ∀ {classifier}, options.routeClassifier = some classifier → ∀ ep seconds,
    Returns invariant (fun _ => True) (classifier ep seconds)
  stale : ∀ {stale}, options.transcriptStale = some stale → ∀ ep,
    Returns invariant (fun _ => True) (stale ep)

theorem returns_classify (keep : options.Keep invariant) (ep : Episode) :
    Returns invariant (fun _ => True) (classify options ep) := by
  rw [classify]
  split
  · next classifier given =>
    apply (keep.classifier given ep (knownSeconds ep)).bind
    intro name _
    split
    · exact returns_pure trivial
    · exact returns_lift fun _ _ => trivial
  · exact returns_pure trivial

/-- The duration of what is found is a duration. -/
def NonnegSeconds (found : Option (TranscribeRoute × Option ℚ)) : Prop :=
  ∀ route seconds, found = some (route, some seconds) → 0 ≤ seconds

theorem returns_routeUntimed (keep : options.Keep invariant) (ep : Episode) :
    Returns invariant NonnegSeconds (routeUntimed options ep) := by
  rw [routeUntimed]
  split
  · exact returns_pure fun _ _ found => by cases found
  · apply (returns_classify keep ep).bind
    intro route _
    apply returns_pure
    intro other seconds found
    exact knownSeconds_nonneg (Prod.mk.inj (Option.some.inj found)).2

theorem returns_copyMigration (keep : options.Keep invariant) (ep : Episode) :
    Returns invariant (fun _ => True) (copyMigration options ep) := by
  rw [copyMigration]
  split
  · next stale given =>
    split
    · exact keep.stale given ep
    · exact returns_pure trivial
  · exact returns_pure trivial

theorem returns_transcribeRoute (keep : options.Keep invariant) (ep : Episode) :
    Returns invariant NonnegSeconds (transcribeRoute options ep) := by
  rw [transcribeRoute]
  split
  · exact returns_pure fun _ _ found => by cases found
  · split
    · apply (returns_copyMigration keep ep).bind
      intro copied _
      split
      · exact returns_pure fun _ _ found => by cases found
      · split
        · exact returns_routeUntimed keep ep
        · exact returns_pure fun _ _ found => by cases found
    · exact returns_routeUntimed keep ep

structure RoutedFrom (recordToEpisode : ρ → Except String Episode) (records : Dict String ρ)
    (routes : List Routed) : Prop where
  sublist : (routes.map Prod.fst).Sublist records.keys
  rebuilt : ∀ routed ∈ routes, ∃ record ep, (routed.1, record) ∈ records ∧
    recordToEpisode record = .ok ep
  nonneg : ∀ uid route seconds, (uid, route, some seconds) ∈ routes → 0 ≤ seconds

variable {records : Dict String ρ} {routes : List Routed}

theorem RoutedFrom.skip (routed : RoutedFrom recordToEpisode records routes) (entry : String × ρ) :
    RoutedFrom recordToEpisode (entry :: records) routes where
  sublist := routed.sublist.cons _
  rebuilt := by
    intro found member
    obtain ⟨record, ep, inside, same⟩ := routed.rebuilt found member
    exact ⟨record, ep, List.mem_cons_of_mem _ inside, same⟩
  nonneg := routed.nonneg

variable {record : ρ} {ep : Episode}

theorem RoutedFrom.add (routed : RoutedFrom recordToEpisode records routes) {uid : String}
    (rebuilt : recordToEpisode record = .ok ep) {found : TranscribeRoute × Option ℚ}
    (nonneg : NonnegSeconds (some found)) :
    RoutedFrom recordToEpisode ((uid, record) :: records) ((uid, found) :: routes) where
  sublist := routed.sublist.cons_cons _
  rebuilt := by
    intro other member
    rcases List.mem_cons.mp member with same | later
    · rw [same]
      exact ⟨record, ep, List.mem_cons_self, rebuilt⟩
    · exact (routed.skip (uid, record)).rebuilt other later
  nonneg := by
    intro other route seconds member
    rcases List.mem_cons.mp member with same | later
    · cases same
      exact nonneg route seconds rfl
    · exact routed.nonneg other route seconds later

theorem toEpisode_ok (rebuilt : (recordToEpisode record).mapError TranscribeError.record = .ok ep) :
    recordToEpisode record = .ok ep := by
  cases read : recordToEpisode record with
  | error message =>
      rw [read] at rebuilt
      cases rebuilt
  | ok other =>
      rw [read] at rebuilt
      cases rebuilt
      rfl

theorem toEpisode_of_ok (read : recordToEpisode record = .ok ep) :
    toEpisode recordToEpisode record = (StateT.lift (.ok ep) : Transcribing σ Episode) := by
  rw [toEpisode, read]
  rfl

theorem returns_routeRecords (keep : options.Keep invariant) (records : Dict String ρ) :
    Returns invariant (RoutedFrom recordToEpisode records)
      (routeRecords options recordToEpisode records) := by
  induction records with
  | nil =>
      exact returns_pure ⟨List.Sublist.refl _, fun _ absent => absurd absent List.not_mem_nil,
        fun _ _ _ absent => absurd absent List.not_mem_nil⟩
  | cons entry rest induction =>
      obtain ⟨uid, record⟩ := entry
      rw [routeRecords]
      apply (returns_lift fun ep rebuilt => toEpisode_ok rebuilt).bind
      intro ep rebuilt
      apply (returns_transcribeRoute keep ep).bind
      intro found nonneg
      apply induction.bind
      intro later routed
      cases found with
      | none => exact returns_pure (routed.skip _)
      | some found => exact returns_pure (routed.add rebuilt nonneg)

theorem returns_iterTranscribeRoutes (keep : options.Keep invariant) (records : Dict String ρ) :
    Returns invariant (RoutedFrom recordToEpisode records)
      (iterTranscribeRoutes options recordToEpisode records) := by
  rw [iterTranscribeRoutes]
  split
  · exact returns_pure ⟨List.nil_sublist _, fun _ absent => absurd absent List.not_mem_nil,
      fun _ _ _ absent => absurd absent List.not_mem_nil⟩
  · exact returns_routeRecords keep records

/-! ## Pending items -/

structure PendingFrom (recordToEpisode : ρ → Except String Episode) (records : Dict String ρ)
    (items : List (String × ℚ)) : Prop where
  sublist : (items.map Prod.fst).Sublist records.keys
  rebuilt : ∀ item ∈ items, ∃ record ep, (item.1, record) ∈ records ∧
    recordToEpisode record = .ok ep
  nonneg : ∀ item ∈ items, 0 ≤ item.2

theorem itemWeight_eq_some {perItem : ℚ} {routed : Routed} {item : String × ℚ}
    (weighed : itemWeight perItem routed = some item) :
    item.1 = routed.1 ∧ (0 ≤ perItem → (∀ seconds, routed.2.2 = some seconds → 0 ≤ seconds) →
      0 ≤ item.2) := by
  obtain ⟨uid, route, seconds⟩ := routed
  cases route with
  | inflight => cases weighed
  | dispatch =>
      cases weighed
      exact ⟨rfl, fun _ _ => show 0 ≤ transcribeDispatchWeightSeconds by decide⟩
  | blocked =>
      cases weighed
      exact ⟨rfl, fun _ _ => show 0 ≤ transcribeBlockedWeightSeconds by decide⟩
  | copy =>
      cases weighed
      exact ⟨rfl, fun _ _ => show 0 ≤ transcribeCopyWeightSeconds by decide⟩
  | localRunner =>
      cases seconds with
      | some seconds =>
          cases weighed
          exact ⟨rfl, fun _ nonneg => nonneg _ rfl⟩
      | none =>
          cases weighed
          exact ⟨rfl, fun nonneg _ => nonneg⟩

theorem RoutedFrom.items (routed : RoutedFrom recordToEpisode records routes)
    (unknownLocalSeconds : ℚ) :
    PendingFrom recordToEpisode records (itemsOf unknownLocalSeconds routes) := by
  have known : 0 ≤ (knownLocalSeconds routes).sum := by
    apply List.sum_nonneg
    intro seconds member
    obtain ⟨⟨uid, route, found⟩, inside, same⟩ := List.mem_filterMap.mp member
    split at same
    · rw [show found = some seconds from same] at inside
      exact routed.nonneg uid route seconds inside
    · cases same
  have perItem : 0 ≤ if knownLocalSeconds routes ≠ [] then
      (knownLocalSeconds routes).sum / (knownLocalSeconds routes).length
      else max 0 unknownLocalSeconds := by
    split
    · exact div_nonneg known (Nat.cast_nonneg _)
    · exact le_max_left _ _
  refine ⟨?sublist, ?rebuilt, ?nonneg⟩
  case sublist =>
    refine List.Sublist.trans ?_ routed.sublist
    exact sublist_map_filterMap fun _ _ _ weighed => (itemWeight_eq_some weighed).1
  case rebuilt =>
    intro item member
    obtain ⟨route, inside, weighed⟩ := List.mem_filterMap.mp member
    rw [(itemWeight_eq_some weighed).1]
    exact routed.rebuilt route inside
  case nonneg =>
    intro item member
    obtain ⟨⟨uid, route, found⟩, inside, weighed⟩ := List.mem_filterMap.mp member
    apply (itemWeight_eq_some weighed).2 perItem
    intro seconds same
    rw [show found = some seconds from same] at inside
    exact routed.nonneg uid route seconds inside

theorem returns_pendingTranscribeItems (keep : options.Keep invariant) (unknownLocalSeconds : ℚ) :
    Returns invariant (PendingFrom recordToEpisode records)
      (pendingTranscribeItems options recordToEpisode unknownLocalSeconds records) := by
  apply (returns_iterTranscribeRoutes keep records).bind
  intro routes routed
  exact returns_pure (routed.items unknownLocalSeconds)

end

/-! ## Recipes -/

theorem hexDigit_ne_slash (n : Nat) : hexDigit n ≠ '/' := by
  have digits : ∀ digit < 16, "0123456789abcdef".toList.getD digit '0' ≠ '/' := by decide
  exact digits (n % 16) (Nat.mod_lt n (by decide))

theorem slash_notMem_hexDigits (count n : Nat) : '/' ∉ hexDigits count n := by
  induction count with
  | zero => exact List.not_mem_nil
  | succ count induction =>
      rw [hexDigits, List.mem_cons, not_or]
      exact ⟨(hexDigit_ne_slash _).symm, induction⟩

theorem slash_notMem_shortDigest (text : String) : '/' ∉ (shortDigest text).toList := by
  rw [shortDigest, String.toList_ofList]
  exact fun member => slash_notMem_hexDigits _ _ (List.mem_of_mem_take member)

theorem slash_notMem_sourceKey (city : City) : '/' ∉ (sourceKey city).toList := by
  rw [sourceKey]
  split
  · next sourceId _ =>
    have valid := sourceId.valid
    intro member
    have each : ∀ char ∈ sourceId.text.toList, (isLowerOrDigit char || char = '-') = true := by
      cases text : sourceId.text.toList with
      | nil => exact fun _ absent => absurd absent List.not_mem_nil
      | cons first rest =>
          rw [text, isSourceId, Bool.and_eq_true, Bool.and_eq_true, List.all_eq_true] at valid
          intro char inside
          rcases List.mem_cons.mp inside with same | later
          · rw [same, valid.1.1, Bool.true_or]
          · exact valid.2 char later
    have slash := each '/' member
    revert slash
    decide
  · exact slash_notMem_shortDigest _

section

variable {ρ : Type} {planning : Planning ρ} {city : City} {records : Dict String ρ}

/-- No remembered recipe has a slash. -/
def PlainRecipes (memory : RecipeCache) : Prop :=
  ∀ uid recipe, memory.get? uid = some recipe → '/' ∉ recipe.toList

theorem plainRecipes_nil : PlainRecipes [] := fun _ _ found => nomatch found

theorem returns_recipeHash (ep : Episode) :
    Returns PlainRecipes (fun recipe => '/' ∉ recipe.toList) (recipeHash planning city ep) :=
  returns_remembered (slash_notMem_shortDigest _)

theorem transcribeOptions_keep :
    (transcribeOptions planning city (transcriptStale planning city)).Keep PlainRecipes where
  classifier given := nomatch given
  stale given ep := by
    cases given
    rw [transcriptStale]
    split
    · apply (returns_recipeHash ep).bind
      exact fun _ _ => returns_pure trivial
    · exact returns_pure trivial

theorem returns_withRecipes (key : String) (items : List (String × ℚ)) :
    Returns PlainRecipes (fun pending : List PendingEpisode =>
        (pending.map fun episode => (episode.uid, episode.weight)) = items ∧
          ∀ episode ∈ pending, episode.source = key ∧ '/' ∉ episode.recipe.toList)
      (withRecipes planning city key records items) := by
  induction items with
  | nil => exact returns_pure ⟨rfl, fun _ absent => absurd absent List.not_mem_nil⟩
  | cons item rest induction =>
      have lifted {α : Type} (step : Except TranscribeError α) :
          Returns PlainRecipes (fun _ => True) (StateT.lift step) := returns_lift fun _ _ => trivial
      rw [withRecipes]
      apply (lifted _).bind
      intro record _
      apply (lifted _).bind
      intro ep _
      apply (returns_recipeHash ep).bind
      intro recipe plain
      apply induction.bind
      intro later kept
      apply returns_pure
      refine ⟨congrArg (item :: ·) kept.1, fun episode member => ?_⟩
      rcases List.mem_cons.mp member with same | inside
      · rw [same]
        exact ⟨rfl, plain⟩
      · exact kept.2 episode inside

theorem succeeds_withRecipes (key : String) (nodup : records.keys.Nodup) {items : List (String × ℚ)}
    (rebuilt : ∀ item ∈ items, ∃ record ep, (item.1, record) ∈ records ∧
      planning.recordToEpisode record = .ok ep) :
    Succeeds (withRecipes planning city key records items) := by
  induction items with
  | nil => exact succeeds_pure []
  | cons item rest induction =>
      obtain ⟨record, ep, member, read⟩ := rebuilt item List.mem_cons_self
      have later := induction fun other inside => rebuilt other (List.mem_cons_of_mem _ inside)
      have found : findRecord records item.1 = .ok record := by
        rw [findRecord, Dict.get?_of_mem nodup member]
      rw [withRecipes, found, lift_ok_bind, toEpisode_of_ok read, lift_ok_bind]
      apply (succeeds_remembered ep.uid _).bind
      intro recipe
      apply later.bind
      exact fun pending => succeeds_pure _

end

/-! ## One recipe for an identity -/

section

variable {ρ : Type} (planning : Planning ρ) (city : City) (records : Dict String ρ)

/-- The rule of what is stale, without a memory. -/
def recipeStale (ep : Episode) : Transcribing Unit Bool :=
  pure (filled ep.transcriptSpecHash &&
    decide (ep.transcriptSpecHash ≠ some (asrSpecHash planning city ep)))

def OwnIdentities : Prop :=
  ∀ uid record ep, (uid, record) ∈ records → planning.recordToEpisode record = .ok ep →
    ep.uid = some uid

def recipeOf (uid : Option String) : String :=
  match uid.bind records.get? with
  | none => ""
  | some record =>
      match planning.recordToEpisode record with
      | .error _ => ""
      | .ok ep => asrSpecHash planning city ep

variable {planning city records} {ep : Episode}

theorem recipeOf_eq (nodup : records.keys.Nodup) (own : OwnIdentities planning records)
    {uid : String} {record : ρ} (member : (uid, record) ∈ records)
    (read : planning.recordToEpisode record = .ok ep) :
    asrSpecHash planning city ep = recipeOf planning city records ep.uid := by
  simp only [recipeOf, own uid record ep member read, Option.bind_some,
    Dict.get?_of_mem nodup member, read]

/-- The memory and the rule agree on an episode whose recipe is that of its identity. -/
def Known (planning : Planning ρ) (city : City) (records : Dict String ρ) (ep : Episode) : Prop :=
  asrSpecHash planning city ep = recipeOf planning city records ep.uid

abbrev Recalling (planning : Planning ρ) (city : City) (records : Dict String ρ)
    (memory : RecipeCache) (_ : Unit) : Prop :=
  Recalls (recipeOf planning city records) memory

theorem mirrors_transcriptStale (known : Known planning city records ep) :
    Mirrors (Recalling planning city records) (transcriptStale planning city ep)
      (recipeStale planning city ep) := by
  rw [transcriptStale, recipeStale]
  split
  · next given =>
    rw [given, Bool.true_and]
    have hashed : Mirrors (Recalling planning city records) (recipeHash planning city ep)
        (pure (asrSpecHash planning city ep)) := mirrors_remembered known
    exact hashed.bind fun recipe => mirrors_pure _
  · next missing =>
    rw [Bool.not_eq_true] at missing
    rw [missing, Bool.false_and]
    exact mirrors_pure false

theorem mirrors_routeUntimed (ep : Episode) :
    Mirrors (Recalling planning city records)
      (routeUntimed (transcribeOptions planning city (transcriptStale planning city)) ep)
      (routeUntimed (transcribeOptions planning city (recipeStale planning city)) ep) := by
  have timed : Mirrors (Recalling planning city records)
      (classify (transcribeOptions planning city (transcriptStale planning city)) ep)
      (classify (transcribeOptions planning city (recipeStale planning city)) ep) :=
    mirrors_pure (defaultRoute (transcribeOptions planning city (recipeStale planning city))
      (knownSeconds ep))
  exact Mirrors.ite (mirrors_pure _) (timed.bind fun route => mirrors_pure _)

theorem mirrors_transcribeRoute (known : Known planning city records ep) :
    Mirrors (Recalling planning city records)
      (transcribeRoute (transcribeOptions planning city (transcriptStale planning city)) ep)
      (transcribeRoute (transcribeOptions planning city (recipeStale planning city)) ep) := by
  have copied : Mirrors (Recalling planning city records)
      (copyMigration (transcribeOptions planning city (transcriptStale planning city)) ep)
      (copyMigration (transcribeOptions planning city (recipeStale planning city)) ep) :=
    Mirrors.ite (mirrors_transcriptStale known) (mirrors_pure false)
  apply Mirrors.ite (mirrors_pure none)
  apply Mirrors.ite
  · apply copied.bind
    intro copy
    exact Mirrors.ite (mirrors_pure _) (Mirrors.ite (mirrors_routeUntimed ep) (mirrors_pure none))
  · exact mirrors_routeUntimed ep

theorem mirrors_routeRecords {entries : Dict String ρ}
    (known : ∀ entry ∈ entries, ∀ ep, planning.recordToEpisode entry.2 = .ok ep →
      Known planning city records ep) :
    Mirrors (Recalling planning city records)
      (routeRecords (transcribeOptions planning city (transcriptStale planning city))
        planning.recordToEpisode entries)
      (routeRecords (transcribeOptions planning city (recipeStale planning city))
        planning.recordToEpisode entries) := by
  induction entries with
  | nil => exact mirrors_pure []
  | cons entry rest induction =>
      obtain ⟨uid, record⟩ := entry
      have later := induction fun other inside => known other (List.mem_cons_of_mem _ inside)
      rw [routeRecords, routeRecords]
      cases read : planning.recordToEpisode record with
      | error message =>
          intro memory _ recalls
          rw [toEpisode, toEpisode, read]
          exact .throws _
      | ok ep =>
          rw [toEpisode_of_ok read, toEpisode_of_ok read, lift_ok_bind, lift_ok_bind]
          apply (mirrors_transcribeRoute (known _ List.mem_cons_self ep read)).bind
          intro found
          apply later.bind
          intro routes
          cases found with
          | none => exact mirrors_pure routes
          | some found => exact mirrors_pure _

theorem mirrors_pendingItems (nodup : records.keys.Nodup) (own : OwnIdentities planning records) :
    Mirrors (Recalling planning city records)
      (pendingItems planning city (transcriptStale planning city) records)
      (pendingItems planning city (recipeStale planning city) records) := by
  have routed : Mirrors (Recalling planning city records)
      (iterTranscribeRoutes (transcribeOptions planning city (transcriptStale planning city))
        planning.recordToEpisode records)
      (iterTranscribeRoutes (transcribeOptions planning city (recipeStale planning city))
        planning.recordToEpisode records) :=
    Mirrors.ite (mirrors_pure []) (mirrors_routeRecords fun entry member ep read =>
      recipeOf_eq nodup own member read)
  exact routed.bind fun routes => mirrors_pure _

theorem returns_ownRecipes (nodup : records.keys.Nodup) (own : OwnIdentities planning records)
    (key : String) (items : List (String × ℚ)) :
    Returns (Recalls (recipeOf planning city records))
      (fun pending : List PendingEpisode => ∀ episode ∈ pending, ∃ record ep,
        (episode.uid, record) ∈ records ∧ planning.recordToEpisode record = .ok ep ∧
          episode.recipe = asrSpecHash planning city ep)
      (withRecipes planning city key records items) := by
  induction items with
  | nil => exact returns_pure fun _ absent => absurd absent List.not_mem_nil
  | cons item rest induction =>
      have found : ∀ record, findRecord records item.1 = .ok record → (item.1, record) ∈ records := by
        intro record found
        rw [findRecord] at found
        split at found
        · next stored =>
          rw [← Except.ok.inj found]
          exact Dict.get?_eq_some_mem stored
        · cases found
      rw [withRecipes]
      apply (returns_lift found).bind
      intro record member
      apply (returns_lift fun ep read => toEpisode_ok read).bind
      intro ep read
      have hashed : Returns (Recalls (recipeOf planning city records))
          (fun recipe => recipe = asrSpecHash planning city ep) (recipeHash planning city ep) :=
        (mirrors_remembered (recipeOf_eq nodup own member read)).returns
      apply hashed.bind
      intro recipe same
      apply induction.bind
      intro later kept
      apply returns_pure
      intro episode inside
      rcases List.mem_cons.mp inside with first | second
      · rw [first]
        exact ⟨record, ep, member, read, same⟩
      · exact kept episode second

end

/-! ## The pending episodes of a source -/

section

variable {ρ : Type} (planning : Planning ρ) (snapshot : Snapshot ρ)

/-- What is pending is what the pending items of the source are, with recipes:
those of the records, where the identities are their own. -/
structure IsPendingOf (source : String × City) (pending : List PendingEpisode) : Prop where
  absent : snapshot.archive source.1 = none → pending = []
  items : ∀ records, snapshot.archive source.1 = some records → ∃ after,
    (pendingItems planning source.2 (transcriptStale planning source.2) records).run [] =
      .ok (pending.map fun episode => (episode.uid, episode.weight), after)
  own : ∀ records, snapshot.archive source.1 = some records → OwnIdentities planning records →
    (pendingItems planning source.2 (recipeStale planning source.2) records).run () =
        .ok (pending.map fun episode => (episode.uid, episode.weight), ()) ∧
      ∀ episode ∈ pending, ∃ record ep, (episode.uid, record) ∈ records ∧
        planning.recordToEpisode record = .ok ep ∧
        episode.recipe = asrSpecHash planning source.2 ep
  source : ∀ episode ∈ pending, episode.source = source.1
  plain : ∀ episode ∈ pending, '/' ∉ episode.recipe.toList
  nonneg : ∀ episode ∈ pending, 0 ≤ episode.weight
  distinct : (pending.map (·.uid)).Nodup

variable {planning snapshot}

theorem pendingOf_ok {source : String × City}
    (returned : ∀ records, snapshot.archive source.1 = some records → ∃ items after,
      (pendingItems planning source.2 (transcriptStale planning source.2) records).run [] =
        .ok (items, after)) :
    ∃ pending, pendingOf planning snapshot source = .ok pending ∧
      IsPendingOf planning snapshot source pending := by
  rw [pendingOf]
  cases stored : snapshot.archive source.1 with
  | none =>
      refine ⟨[], rfl, fun _ => rfl, ?_, ?_, ?_, ?_, ?_, List.nodup_nil⟩
      · exact fun records found => nomatch stored.symm.trans found
      · exact fun records found => nomatch stored.symm.trans found
      · exact fun _ absent => absurd absent List.not_mem_nil
      · exact fun _ absent => absurd absent List.not_mem_nil
      · exact fun _ absent => absurd absent List.not_mem_nil
  | some records =>
      obtain ⟨items, after, ran⟩ := returned records stored
      have nodup := snapshot.distinct stored
      have found := returns_pendingTranscribeItems (transcribeOptions_keep)
        transcribeUnknownLocalWeightSeconds plainRecipes_nil ran
      have succeeds : Succeeds (withRecipes planning source.2 source.1 records items) :=
        succeeds_withRecipes source.1 nodup found.1.rebuilt
      obtain ⟨pending, last, labelled⟩ := succeeds after
      have kept := (returns_withRecipes source.1 items found.2 labelled).1
      have whole : (sourcePending planning source.2 source.1 records).run [] =
          .ok (pending, last) := by
        rw [sourcePending, StateT.run_bind, ran]
        exact labelled
      have uids : pending.map (·.uid) = items.map Prod.fst := by
        rw [← kept.1, List.map_map]
        rfl
      refine ⟨pending, ?result, ?absent, ?items, ?own, fun episode member => (kept.2 episode member).1,
        fun episode member => (kept.2 episode member).2, ?nonneg, ?distinct⟩
      case result =>
        change Prod.fst <$> (sourcePending planning source.2 source.1 records).run [] = .ok pending
        rw [whole]
        rfl
      case absent => exact fun none => nomatch stored.symm.trans none
      case items =>
        intro other same
        cases stored.symm.trans same
        exact ⟨after, kept.1 ▸ ran⟩
      case own =>
        intro other same own
        cases stored.symm.trans same
        have ends := @mirrors_pendingItems _ planning source.2 records nodup own [] () recalls_nil
        rw [ran] at ends
        generalize (pendingItems planning source.2 (recipeStale planning source.2)
          records).run () = outcome at ends ⊢
        cases ends with
        | returns _ recalls =>
            rw [kept.1]
            exact ⟨rfl, (returns_ownRecipes nodup own source.1 items recalls labelled).1⟩
      case nonneg =>
        intro episode member
        apply found.1.nonneg (episode.uid, episode.weight)
        rw [← kept.1]
        exact List.mem_map_of_mem member
      case distinct =>
        rw [uids]
        exact nodup.sublist found.1.sublist

end

end CityPods.Records
