import CityPods.Compute.DeferredFailures
import CityPods.Compute.DeferredFencing
import CityPods.Compute.DeferredRecords

/-! # Terminal failures stop

What the marker and the notes of a run have in common, what every write of the
marker keeps, and what follows for every sequence of calls.
-/

namespace CityPods.Compute

open Foundation
open Foundation.LockedRecords (Ledger Lone Op notedWorld loneBargain)
open Foundation.LockedRecords.Session (Sparing sparing_pure sparing_throw sparing_now)
open Foundation.Tasks (Config Event OneByOne Run)

namespace Deferred

section

variable {settings : Settings} {recipeHash : String} {store after : Stored} {charges : Charges}

/-! ## Consistent notes -/

structure Audited (marker : Dict String PyVal) (charges : Charges) : Prop where
  count : marker.get? "failure_count" = some (.num charges.generations.length)
  status : ∃ status ∈ ["exhausted", "retryable", "corrective_retry_submitted"],
    marker.get? "status" = some (.str status)
  attempted : charges.corrections ≠ 0 → schemaCorrectionAttempted (.dict marker) = true

structure Consistent (recipeHash : String) (store : Stored) (charges : Charges) : Prop where
  marker : (store.object (deferredFailureKey recipeHash) = none ∧ charges.generations = [] ∧
      charges.corrections = 0) ∨
    ∃ marker etag, store.object (deferredFailureKey recipeHash) = some (.json (.dict marker), etag) ∧
      Audited marker charges
  nodup : charges.generations.Nodup
  once : charges.corrections ≤ 1

theorem toInt?_natCast (n : Nat) : toInt? (.num (n : ℚ)) = some (n : Int) := by
  simp [toInt?]

theorem Consistent.charged_eq (consistent : Consistent recipeHash store charges) :
    charged recipeHash store = charges.generations.length := by
  unfold charged markerOf
  rcases consistent.marker with ⟨absent, none, -⟩ | ⟨marker, etag, stored, audited⟩
  · rw [absent, none]
    rfl
  · rw [stored]
    show (toInt? ((Dict.get? marker "failure_count").getD (.num 0))).getD 0 = _
    rw [audited.count, Option.getD_some, toInt?_natCast, Option.getD_some]

variable {marker : Dict String PyVal}

theorem Audited.allowed_iff (audited : Audited marker charges)
    (context : PyVal) : terminalFailureRetryAllowed settings (.dict marker) context = true ↔
      marker.get? "status" ≠ some (.str "exhausted") ∧ charges.generations.length < 3 := by
  obtain ⟨status, known, named⟩ := audited.status
  have counted : failureCount? (.dict marker) = some (charges.generations.length : Int) := by
    show toInt? ((Dict.get? marker "failure_count").getD (.num 0)) = _
    rw [audited.count, Option.getD_some, toInt?_natCast]
  have read : field (.dict marker) "status" = .str status := by
    show (Dict.get? marker "status").getD .none = _
    rw [named, Option.getD_some]
  have notStructural : PyVal.str status ≠ .str "structural_blocked" := by
    intro same
    rw [PyVal.str.inj same] at known
    exact absurd known (by decide)
  unfold terminalFailureRetryAllowed
  rw [if_neg (by simp [isMapping]), read, if_neg notStructural, counted, named]
  split
  · next exhausted => simp [exhausted]
  · next other =>
    have different : (some (PyVal.str status)) ≠ some (.str "exhausted") :=
      fun same => other (Option.some.inj same)
    show decide ((charges.generations.length : Int) < maxTerminalFailureRetries) = true ↔ _
    rw [decide_eq_true_iff, and_iff_right different, maxTerminalFailureRetries]
    omega

theorem Consistent.allowed_iff (consistent : Consistent recipeHash store charges) (context : PyVal) :
    terminalFailureRetryAllowed settings (markerOf recipeHash store) context = true ↔
      field (markerOf recipeHash store) "status" ≠ .str "exhausted" ∧
        charges.generations.length < 3 := by
  unfold markerOf
  rcases consistent.marker with ⟨absent, none, -⟩ | ⟨marker, etag, stored, audited⟩
  · rw [absent, none]
    simp [valueOf, terminalFailureRetryAllowed, isMapping, field]
  · rw [stored]
    show terminalFailureRetryAllowed settings (.dict marker) context = true ↔
      (Dict.get? marker "status").getD .none ≠ .str "exhausted" ∧ _
    obtain ⟨status, -, named⟩ := audited.status
    rw [audited.allowed_iff context, named, Option.getD_some, Ne, Ne, Option.some.injEq]

/-! ## What every change keeps -/

/-- A change keeps the notes consistent, lowers no count and takes back no refusal. -/
def Keeps (settings : Settings) (recipeHash : String) (store : Stored) (charges : Charges)
    (after : Stored) (noted : Charges) : Prop :=
  Consistent recipeHash store charges → Consistent recipeHash after noted ∧
    charged recipeHash store ≤ charged recipeHash after ∧
    ∀ context other,
      terminalFailureRetryAllowed settings (markerOf recipeHash store) context = false →
        terminalFailureRetryAllowed settings (markerOf recipeHash after) other = false

theorem noteChange_same (same : after.object (deferredFailureKey recipeHash) =
    store.object (deferredFailureKey recipeHash)) :
    noteChange recipeHash store after charges = charges := by
  have counts : charged recipeHash after = charged recipeHash store := by
    rw [charged, charged, markerOf, markerOf, same]
  simp [noteChange, recordsCorrection, counts, same]

theorem keeps_same (same : after.object (deferredFailureKey recipeHash) =
    store.object (deferredFailureKey recipeHash)) :
    Keeps settings recipeHash store charges after (noteChange recipeHash store after charges) := by
  intro consistent
  have marker : markerOf recipeHash after = markerOf recipeHash store := by
    rw [markerOf, markerOf, same]
  rw [noteChange_same same]
  refine ⟨⟨by rw [same]; exact consistent.marker, consistent.nodup, consistent.once⟩, ?_, ?_⟩
  · rw [charged, charged, marker]
  · intro context other refused
    rw [marker, Bool.eq_false_iff, Ne, consistent.allowed_iff]
    rwa [Bool.eq_false_iff, Ne, consistent.allowed_iff] at refused

def ledger (settings : Settings) (recipeHash : String) : Ledger String Body Charges where
  record := noteChange recipeHash
  keeps := Keeps settings recipeHash
  record_same _ _ := noteChange_same rfl
  keeps_refl store charges := by
    have same : Keeps settings recipeHash store charges store
      (noteChange recipeHash store store charges) := keeps_same rfl
    rwa [noteChange_same rfl] at same

/-! ## Writing the marker -/

abbrev marked (recipeHash : String) (store : Stored) (marker : Dict String PyVal) : Stored :=
  store.put (deferredFailureKey recipeHash) (.json (.dict marker))

theorem markerOf_marked (marker : Dict String PyVal) :
    markerOf recipeHash (marked recipeHash store marker) = .dict marker := by
  rw [markerOf, Store.put_object_same]
  rfl

/-- A refusal stays one when the marker that is written says that the budget is
exhausted wherever it was, or wherever the count says so. -/
theorem refused_of_marked {noted : Charges}
    (consistent : Consistent recipeHash store charges) (audited : Audited marker noted)
    (grown : charges.generations.length ≤ noted.generations.length)
    (early : exhaustedEarly recipeHash store = true →
      marker.get? "status" = some (.str "exhausted")) {context other : PyVal}
    (refused : terminalFailureRetryAllowed settings (markerOf recipeHash store) context = false) :
    terminalFailureRetryAllowed settings (.dict marker) other = false := by
  rw [Bool.eq_false_iff, Ne, consistent.allowed_iff] at refused
  rw [Bool.eq_false_iff, Ne, audited.allowed_iff]
  rintro ⟨open_, few⟩
  apply refused
  refine ⟨fun exhausted => open_ (early ?_), by omega⟩
  rw [exhaustedEarly, consistent.charged_eq, exhausted, maxTerminalFailureRetries]
  simp
  omega

theorem keeps_charge {charge : ETag} {exhausted : Bool}
    (stored : generation recipeHash store = some charge) (uncharged : charge ∉ charges.generations)
    (counted : Consistent recipeHash store charges →
      marker.get? "failure_count" = some (.num (charges.generations.length + 1 : Nat)))
    (status : marker.get? "status" = some (.str (if exhausted then "exhausted" else "retryable")))
    (attempted : schemaCorrectionAttempted (.dict marker) =
      schemaCorrectionAttempted (markerOf recipeHash store))
    (early : exhaustedEarly recipeHash store = true → exhausted = true) :
    Keeps settings recipeHash store charges (marked recipeHash store marker)
      (noteChange recipeHash store (marked recipeHash store marker) charges) := by
  intro consistent
  have before := consistent.charged_eq
  have count := counted consistent
  have after : charged recipeHash (marked recipeHash store marker) = charged recipeHash store + 1 := by
    rw [charged, markerOf_marked, before]
    show (toInt? ((Dict.get? marker "failure_count").getD (.num 0))).getD 0 = _
    rw [count, Option.getD_some, toInt?_natCast, Option.getD_some]
    rfl
  have noted : noteChange recipeHash store (marked recipeHash store marker) charges =
      ⟨charge :: charges.generations, charges.corrections⟩ := by
    have other : field (markerOf recipeHash (marked recipeHash store marker)) "status" ≠
        .str "corrective_retry_submitted" := by
      rw [markerOf_marked]
      show (Dict.get? marker "status").getD .none ≠ _
      rw [status]
      cases exhausted <;> simp
    have more : charged recipeHash store < charged recipeHash store + 1 := by omega
    simp [noteChange, recordsCorrection, after, stored, other, more]
  have audited : Audited marker ⟨charge :: charges.generations, charges.corrections⟩ := by
    refine ⟨count, ⟨_, ?_, status⟩, ?_⟩
    · cases exhausted <;> simp
    · intro corrected
      rw [attempted]
      rcases consistent.marker with ⟨-, -, none⟩ | ⟨prior, etag, found, audited⟩
      · exact absurd none corrected
      · rw [markerOf, found]
        exact audited.attempted corrected
  rw [noted]
  refine ⟨⟨.inr ⟨marker, _, Store.put_object_same .., audited⟩,
    List.nodup_cons.mpr ⟨uncharged, consistent.nodup⟩, consistent.once⟩, by omega, ?_⟩
  intro context other refused
  rw [markerOf_marked]
  refine refused_of_marked consistent audited (by simp) (fun soon => ?_) refused
  rw [status, early soon]
  rfl

theorem keeps_correction (counted : Consistent recipeHash store charges →
      marker.get? "failure_count" = some (.num charges.generations.length))
    (status : marker.get? "status" = some (.str "corrective_retry_submitted"))
    (attempted : schemaCorrectionAttempted (.dict marker) = true)
    (first : schemaCorrectionAttempted (markerOf recipeHash store) = false)
    (early : exhaustedEarly recipeHash store = false) :
    Keeps settings recipeHash store charges (marked recipeHash store marker)
      (noteChange recipeHash store (marked recipeHash store marker) charges) := by
  intro consistent
  have before := consistent.charged_eq
  have count := counted consistent
  have after : charged recipeHash (marked recipeHash store marker) = charged recipeHash store := by
    rw [charged, markerOf_marked, before]
    show (toInt? ((Dict.get? marker "failure_count").getD (.num 0))).getD 0 = _
    rw [count, Option.getD_some, toInt?_natCast, Option.getD_some]
  have none : charges.corrections = 0 := by
    rcases consistent.marker with ⟨-, -, none⟩ | ⟨prior, etag, found, audited⟩
    · exact none
    · by_contra corrected
      rw [markerOf, found] at first
      exact absurd ((audited.attempted corrected).symm.trans first) (by decide)
  have noted : (noteChange recipeHash store (marked recipeHash store marker) charges).generations =
        charges.generations ∧
      (noteChange recipeHash store (marked recipeHash store marker) charges).corrections ≤ 1 := by
    refine ⟨by simp [noteChange, after], ?_⟩
    unfold noteChange
    dsimp only
    split <;> omega
  have audited : Audited marker (noteChange recipeHash store (marked recipeHash store marker) charges) :=
    ⟨by rw [noted.1]; exact count, ⟨_, by simp, status⟩, fun _ => attempted⟩
  refine ⟨⟨.inr ⟨marker, _, Store.put_object_same .., audited⟩,
    by rw [noted.1]; exact consistent.nodup, noted.2⟩, by omega, ?_⟩
  intro context other refused
  rw [markerOf_marked]
  refine refused_of_marked consistent audited (by rw [noted.1]) (fun soon => ?_) refused
  rw [early] at soon
  cases soon

/-! ## Calls that leave the marker alone -/

variable {α β : Type} {session : Calls α}

theorem lone_sparing (sparing : Sparing (deferredFailureKey recipeHash) session) :
    Lone (ledger settings recipeHash) (fun _ _ _ => True) session.run store charges :=
  LockedRecords.lone_of_onlyAsks sparing
    (fun _ _ other store _ => keeps_same (store.put_object_other _ (Ne.symm other)))
    (fun _ _ other store _ => keeps_same (store.delete_object_other (Ne.symm other)))

variable {data : PyVal} {key : String}

theorem pointer_ne_failureKey {other : String}
    (member : key ∈ indexKeys settings data other) : key ≠ deferredFailureKey recipeHash := by
  obtain ⟨rest, rfl⟩ := pointer_of_mem settings other member
  rw [deferredFailureKey_spelled]
  intro same
  have chars := congrArg (fun key => key.toList.take 20) same
  simp at chars

theorem sparing_removeRecord (judged : Option (Body × ETag)) (data : PyVal) (other : String) :
    Sparing (deferredFailureKey recipeHash) (removeRecord settings (deferredKey recipeHash) judged data other) :=
  (sparing_delete (deferredFailureKey_ne recipeHash).symm judged).bind fun _ =>
    sparing_deletePointerKeys fun _ member => pointer_ne_failureKey member

theorem sparing_removed (judged : Option (Body × ETag)) (data : PyVal) (result : α) :
    Sparing (deferredFailureKey recipeHash) (do
      removeRecord settings (deferredKey recipeHash) judged data recipeHash
      return result : Calls α) :=
  (sparing_removeRecord judged data recipeHash).bind fun _ => sparing_pure result

theorem sparing_writeLocked (result : Job) (clock : Int) (recovery : Option PyVal) :
    Sparing (deferredFailureKey recipeHash) (writeLocked settings recipeHash result clock recovery) := by
  refine (sparing_readJson _).bind fun found => ?_
  dsimp only
  split
  · exact sparing_pure ()
  · refine (sparing_writePointerKeys _ fun key member => ?_).bind fun _ => ?_
    · exact pointer_ne_failureKey (List.mem_of_mem_filter member)
    · refine (sparing_writeJson (deferredFailureKey_ne recipeHash).symm _).bind fun _ => ?_
      refine sparing_deletePointerKeys fun key member => ?_
      have old := List.mem_of_mem_filter member
      split at old
      · exact pointer_ne_failureKey old
      · cases old

theorem sparing_legacyLocked {expected : JobHandle} (named : expected.recipeHash = recipeHash) :
    Sparing (deferredFailureKey recipeHash) (legacyLocked settings expected) := by
  subst named
  refine (sparing_readJson _).bind fun found => ?_
  dsimp only
  split
  · exact sparing_pure _
  · exact sparing_removed _ _ _

theorem sparing_discardLocked (expectedRef : Option String) :
    Sparing (deferredFailureKey recipeHash) (discardLocked settings recipeHash expectedRef) := by
  refine (sparing_readJson _).bind fun found => ?_
  dsimp only
  split
  · exact sparing_pure _
  · split
    · exact sparing_pure _
    · exact sparing_removed _ _ _

variable {snapshot : List SnapshotEntry}

theorem sparing_pruneEach (clock ttl : Int)
    (keys : ∀ entry ∈ snapshot, entry.key = deferredKey recipeHash) :
    Sparing (deferredFailureKey recipeHash) (pruneEach settings clock ttl snapshot) := by
  induction snapshot with
  | nil => exact sparing_pure _
  | cons entry rest induction =>
      have later := induction fun entry member => keys entry (List.mem_cons_of_mem _ member)
      have kept : Sparing (deferredFailureKey recipeHash) (pruneEach settings clock ttl rest >>= fun found =>
          pure (found.1, entry :: found.2)) :=
        later.bind fun _ => sparing_pure _
      rw [pruneEach, keys entry List.mem_cons_self]
      split
      · exact kept
      · split
        · exact kept
        · split
          · exact kept
          · refine (sparing_readJson _).bind fun found => ?_
            dsimp only
            split
            · exact kept
            · refine (sparing_removeRecord _ _ _).bind fun _ => ?_
              exact later.bind fun _ => sparing_pure _

/-! ## Calls that write the marker -/

theorem lone_bind {promise : Except Error α → Stored → Charges → Prop}
    {promised : Except Error β → Stored → Charges → Prop} {rest : α → Calls β}
    (lone : Lone (ledger settings recipeHash) promise session.run store charges)
    (continued : ∀ result later noted, promise (.ok result) later noted →
      Lone (ledger settings recipeHash) promised (rest result).run later noted)
    (failed : ∀ error later noted, promise (.error error) later noted →
      promised (.error error) later noted) :
    Lone (ledger settings recipeHash) promised (session >>= rest).run store charges := by
  refine LockedRecords.Lone.bind lone ?_
  intro outcome later noted kept
  cases outcome with
  | ok result => exact continued result later noted kept
  | error error => exact failed error later noted kept

/-- A session that keeps the ledger, whatever it ends with. -/
abbrev LoneSession (settings : Settings) (recipeHash : String) (session : Calls α) (store : Stored)
    (charges : Charges) : Prop :=
  Lone (ledger settings recipeHash) (fun _ _ _ => True) session.run store charges

variable {rest : PyVal × Option (Body × ETag) → Calls α}

theorem lone_readJson
    (found : LoneSession settings recipeHash (rest (valueOf (store.object key), store.object key))
      store charges) :
    LoneSession settings recipeHash (readJson key >>= rest) store charges :=
  ⟨found, trivial⟩

theorem lone_readMarker (found : LoneSession settings recipeHash
      (rest (markerOf recipeHash store, store.object (deferredFailureKey recipeHash))) store charges) :
    LoneSession settings recipeHash (readJson (deferredFailureKey recipeHash) >>= rest) store charges :=
  ⟨found, trivial⟩

theorem lone_now {rest : Int → Calls α}
    (continued : ∀ clock, LoneSession settings recipeHash (rest clock) store charges) :
    LoneSession settings recipeHash (now >>= rest) store charges :=
  continued

theorem lone_writeJson {value : PyVal} {rest : Unit → Calls α}
    (keeps : Keeps settings recipeHash store charges (store.put key (.json value))
      (noteChange recipeHash store (store.put key (.json value)) charges))
    (sparing : Sparing (deferredFailureKey recipeHash) (rest ())) :
    LoneSession settings recipeHash (writeJson key value >>= rest) store charges :=
  ⟨keeps, lone_sparing sparing, trivial⟩

variable {lock : String} {body : Calls α}

theorem lone_underLock {token : String}
    (lone : LoneSession settings recipeHash body store charges) :
    LoneSession settings recipeHash (LockedRecords.Session.underLock Error.storage lock token body)
      store charges := by
  unfold LockedRecords.Session.underLock LoneSession
  rw [Raising.attempt_bind]
  refine LockedRecords.Lone.bind lone ?_
  intro outcome later noted _ released
  cases released with
  | error problem => exact trivial
  | ok done =>
      cases outcome with
      | ok result => exact trivial
      | error error => exact trivial

theorem lone_acquireUntil {ttl deadline : Int}
    (lone : LoneSession settings recipeHash body store charges) (tokens : List String) :
    LoneSession settings recipeHash (LockedRecords.Session.acquireUntil Error.storage Error.busy lock
      ttl deadline body tokens) store charges := by
  induction tokens with
  | nil => exact trivial
  | cons token rest induction =>
      intro reply
      cases reply with
      | error problem => exact trivial
      | ok got =>
          cases got with
          | false =>
              intro clock
              show LoneSession settings recipeHash
                (if deadline ≤ clock then throw Error.busy else _) store charges
              split
              · exact trivial
              · exact induction
          | true =>
              show LoneSession settings recipeHash
                (LockedRecords.Session.underLock Error.storage lock token body) store charges
              exact lone_underLock lone

theorem lone_lock (lone : LoneSession settings recipeHash body store charges)
    (other : String) (tokens : List String) :
    LoneSession settings recipeHash (deferredRecordLock other tokens body) store charges :=
  lone_now fun _ => lone_acquireUntil lone tokens

theorem priorCount_eq (marker : PyVal) : priorCount marker = (failureCount? marker).getD 0 := by
  cases marker <;> rfl

theorem generation_of_value (read : valueOf (store.object (deferredKey recipeHash)) = data)
    (mapping : data ≠ .none) : ∃ charge, generation recipeHash store = some charge := by
  unfold generation
  cases found : store.object (deferredKey recipeHash) with
  | none =>
      rw [found] at read
      exact absurd read.symm mapping
  | some object => exact ⟨object.2, rfl⟩

theorem Consistent.next_count (consistent : Consistent recipeHash store charges) :
    max 0 (priorCount (markerOf recipeHash store)) + 1 =
      ((charges.generations.length + 1 : Nat) : Int) := by
  have counted : priorCount (markerOf recipeHash store) = charges.generations.length := by
    rw [priorCount_eq]
    exact consistent.charged_eq
  rw [counted]
  omega

variable {exhausted : Bool}

theorem exhausting (early : exhaustedEarly recipeHash store = true →
      (exhausted || decide (maxTerminalFailureRetries ≤ charged recipeHash store + 1)) = true) :
    exhaustedEarly recipeHash store = true →
      (exhausted || decide (maxTerminalFailureRetries ≤
        max 0 (priorCount (markerOf recipeHash store)) + 1)) = true := by
  intro soon
  have more := early soon
  rw [priorCount_eq, Bool.or_eq_true, decide_eq_true_iff] at *
  refine more.imp_right fun enough => ?_
  unfold charged at enough
  omega

variable {handle : JobHandle} {charge : ETag}

theorem lone_auditFailure (failure : Failure) (data : PyVal)
    (judged : Option (Body × ETag)) (gone : List SnapshotEntry)
    (stored : generation handle.recipeHash store = some charge)
    (uncharged : charge ∉ charges.generations)
    (early : exhaustedEarly handle.recipeHash store = true →
      (exhausted || decide (maxTerminalFailureRetries ≤
        charged handle.recipeHash store + 1)) = true) (clock : Int) :
    LoneSession settings handle.recipeHash (do
      let read ← readJson (deferredFailureKey handle.recipeHash)
      if false && !isStructural failure then
        throw (.valueError "structural recovery requires typed reason and catalog identity")
      else
        let count := max 0 (priorCount read.1) + if false then 0 else 1
        writeJson (deferredFailureKey handle.recipeHash)
          (.dict (failureMarker settings handle read.1 failure data exhausted false count clock))
        removeRecord settings (deferredKey handle.recipeHash) judged data handle.recipeHash
        return (count, gone) : Calls (Int × List SnapshotEntry)) store charges := by
  refine lone_readMarker (lone_writeJson ?_ (sparing_removed _ _ _))
  refine keeps_charge stored uncharged (fun consistent => ?_) rfl rfl (exhausting early)
  show some (PyVal.num ((max 0 (priorCount (markerOf handle.recipeHash store)) + 1 : Int) : ℚ)) = _
  rw [consistent.next_count]
  rfl

variable {failure : Failure} {givenNow : Option Int} {tokens : List String}

theorem lone_failureLocked (named : handle.recipeHash = recipeHash)
    (keys : ∀ entry ∈ snapshot, entry.key = deferredKey recipeHash)
    (meets : RetryCall.Meets settings recipeHash store charges (.registry
      (.discardTerminalFailure tokens snapshot handle failure exhausted false givenNow))) :
    LoneSession settings recipeHash
      (failureLocked settings snapshot handle failure exhausted false givenNow) store charges := by
  subst named
  obtain ⟨early, uncharged⟩ := meets
  simp only [RetryCall.marks, RetryCall.charges, RetryCall.exhausts, findsRecord] at early uncharged
  unfold failureLocked
  generalize found : markTerminalFailure handle.recipeHash true snapshot = first at early uncharged ⊢
  generalize markTerminalFailure handle.recipeHash false snapshot = second
  obtain ⟨marked, gone⟩ := first
  obtain ⟨_, kept⟩ := second
  cases marked with
  | none => exact trivial
  | some entry =>
      dsimp only at early uncharged ⊢
      rw [keys entry (mem_of_marked found)]
      split
      · exact trivial
      · next mapping =>
        split
        · exact trivial
        · next own =>
          refine lone_readJson ?_
          dsimp only
          split
          · exact trivial
          · next same =>
            have read : valueOf (store.object (deferredKey handle.recipeHash)) = entry.data :=
              not_not.mp same
            have present : entry.data ≠ .none := by
              intro none
              rw [none] at mapping
              exact mapping rfl
            simp only [Bool.not_eq_true', Bool.not_eq_false] at mapping
            simp only [Bool.or_eq_true, decide_eq_true_iff, not_or, not_not] at own
            simp only [Option.any_some, mapping, own.1, own.2, read, decide_true, Bool.and_self,
              true_implies] at early uncharged
            obtain ⟨charge, stored⟩ := generation_of_value read present
            cases givenNow with
            | some clock =>
                exact lone_auditFailure failure entry.data _ gone stored (uncharged charge stored) early
                  clock
            | none =>
                exact lone_now (lone_auditFailure failure entry.data _ gone stored
                  (uncharged charge stored) early)

/-- The audit of an invalid result raises the count, and leaves what was there of
the correction. -/
theorem invalidMarker_reads (prior : Dict String PyVal) (task digest : String) (failure : Failure)
    (clock : Int) :
    let marker := invalidMarker settings prior recipeHash task digest failure clock
    let count := max 0 (priorCount (.dict prior)) + 1
    marker.get? "failure_count" = some (.num ((count : Int) : ℚ)) ∧
      marker.get? "status" = some (.str (if maxTerminalFailureRetries ≤ count then "exhausted"
        else "retryable")) ∧
      marker.get? "schema_correction_attempted" = prior.get? "schema_correction_attempted" := by
  intro marker count
  have read : priorCount (.dict prior) =
    (toInt? ((prior.get? "failure_count").getD (.num 0))).getD 0 := rfl
  have enough (count : Int) : (maxTerminalFailureRetries : ℚ) ≤ (count : ℚ) + 1 ↔
      maxTerminalFailureRetries ≤ count + 1 := by
    rw [← Rat.intCast_one, ← Rat.intCast_add]
    exact Rat.intCast_le_intCast
  unfold marker count invalidMarker
  rw [read]
  cases toInt? ((prior.get? "failure_count").getD (.num 0)) with
  | none =>
      exact ⟨by simp [Dict.update, Dict.get?_set], by simpa [Dict.update] using if_congr (enough 0) rfl rfl,
        by simp [Dict.update, Dict.get?_set]⟩
  | some count =>
      simp only [enough, Option.getD_some]
      exact ⟨by simp [Dict.update, Dict.get?_set],
        by simp [Dict.update], by simp [Dict.update, Dict.get?_set]⟩

/-- The value of the marker as a mapping. -/
theorem priorCount_asDict (marker : PyVal) :
    priorCount (.dict (marker.asDict?.getD [])) = priorCount marker := by
  cases marker <;> rfl

theorem field_asDict (marker : PyVal) (name : String) :
    (Dict.get? (marker.asDict?.getD []) name).getD .none = field marker name := by
  cases marker <;> rfl

theorem lone_auditInvalid (task : String) (failure : Failure)
    (stored : generation recipeHash store = some charge)
    (uncharged : field (markerOf recipeHash store) "invalid_completed_digest" ≠
      .str (settings.digest data) → charge ∉ charges.generations)
    (early : field (markerOf recipeHash store) "invalid_completed_digest" ≠
      .str (settings.digest data) → exhaustedEarly recipeHash store = true →
        maxTerminalFailureRetries ≤ charged recipeHash store + 1) :
    LoneSession settings recipeHash (auditInvalid settings recipeHash task data failure) store
      charges := by
  refine lone_readMarker ?_
  dsimp only
  rw [field_asDict]
  split
  · exact trivial
  · next other =>
    refine lone_now fun clock => ⟨?_, trivial, trivial⟩
    obtain ⟨counted, status, attempted⟩ :=
      @invalidMarker_reads settings recipeHash ((markerOf recipeHash store).asDict?.getD []) task
        (settings.digest data) failure clock
    rw [priorCount_asDict] at counted status
    have soon : exhaustedEarly recipeHash store = true →
        (false || decide (maxTerminalFailureRetries ≤ charged recipeHash store + 1)) = true :=
      fun soon => by simpa using early other soon
    refine keeps_charge stored (uncharged other) (fun consistent => ?_) ?_ ?_ (exhausting soon)
    · rw [counted, consistent.next_count]
      rfl
    · rw [status]
      simp only [Bool.false_or, decide_eq_true_iff]
    · unfold schemaCorrectionAttempted
      rw [← field_asDict (markerOf recipeHash store), ← attempted]
      rfl

theorem lone_completedLocked {expected : JobResult} {failure : Option Failure}
    (meets : RetryCall.Meets settings recipeHash store charges (.registry
      (.discardCompletedResult tokens expected failure))) :
    LoneSession settings recipeHash (completedLocked settings recipeHash expected failure) store
      charges := by
  obtain ⟨early, uncharged⟩ := meets
  simp only [RetryCall.marks, RetryCall.charges, RetryCall.exhausts, findsResult] at early uncharged
  refine lone_readJson ?_
  dsimp only
  generalize read : valueOf (store.object (deferredKey recipeHash)) = data at early uncharged ⊢
  split
  · exact trivial
  · next completed =>
    split
    · exact trivial
    · next decoded =>
      cases failure with
      | none => exact lone_sparing (sparing_removed _ _ _)
      | some failure =>
          have present : data ≠ .none := by
            rintro rfl
            exact completed (by decide)
          obtain ⟨charge, stored⟩ := generation_of_value read present
          rw [not_not] at completed decoded
          simp only [Option.isSome_some, Bool.true_and, completed, decoded, decide_true,
            decide_eq_true_iff] at early uncharged
          refine lone_bind (lone_auditInvalid expected.task failure stored
            (fun other => uncharged other charge stored) early) ?_ fun _ _ _ _ => trivial
          exact fun _ _ _ _ => lone_sparing (sparing_removed _ _ _)

theorem lone_recordSchemaCorrection (named : handle.recipeHash = recipeHash)
    (first : schemaCorrectionAttempted (markerOf recipeHash store) = false)
    (meets : RetryCall.Meets settings recipeHash store charges
      (.recordSchemaCorrection handle failure givenNow)) :
    LoneSession settings recipeHash (recordSchemaCorrection settings handle failure givenNow) store
      charges := by
  subst named
  have early : exhaustedEarly handle.recipeHash store = false := by
    rw [Bool.eq_false_iff]
    exact fun soon => Bool.false_ne_true (meets.exhausts rfl soon)
  have written (clock : Int) : LoneSession settings handle.recipeHash (do
      let read ← readJson (deferredFailureKey handle.recipeHash)
      writeJson (deferredFailureKey handle.recipeHash)
        (.dict (correctionMarker settings handle read.1 failure clock)) : Calls Unit) store
      charges := by
    refine lone_readMarker ⟨?_, trivial, trivial⟩
    refine keeps_correction (fun consistent => ?_) rfl rfl first early
    unfold correctionMarker markerOf
    rcases consistent.marker with ⟨absent, none, -⟩ | ⟨marker, etag, stored, audited⟩
    · rw [absent, none]
      rfl
    · rw [stored]
      show some ((Dict.get? marker "failure_count").getD (.num 0)) = _
      rw [audited.count, Option.getD_some]
  cases givenNow with
  | some clock => exact written clock
  | none => exact lone_now written

end

/-! ## Sequences -/

def retries (settings : Settings) (recipeHash : String) :
    Activity (notedWorld (ledger settings recipeHash)) where
  Call := RetryCall
  Result := Except Error Outcome
  task call := (call.session settings recipeHash).run
  mayStart state call := call.permitted recipeHash state.1.store

section

variable {settings : Settings} {recipeHash : String} {store : Stored} {charges : Charges}
  {α β : Type}

theorem lone_returned {session : Calls α} (result : α → β)
    (lone : LoneSession settings recipeHash session store charges) :
    LoneSession settings recipeHash (do return result (← session) : Calls β) store charges :=
  lone_bind lone (fun _ _ _ _ => trivial) fun _ _ _ _ => trivial

theorem sparing_returned {session : Calls α} (result : α → β)
    (sparing : Sparing (deferredFailureKey recipeHash) session) :
    Sparing (deferredFailureKey recipeHash) (do return result (← session) : Calls β) :=
  sparing.bind fun _ => sparing_pure _

theorem RetryCall.lone {call : RetryCall} (concerns : call.Concerns recipeHash)
    (permitted : call.permitted recipeHash store = true)
    (meets : call.Meets settings recipeHash store charges) :
    LoneSession settings recipeHash (call.session settings recipeHash) store charges := by
  cases call with
  | recordSchemaCorrection handle failure givenNow =>
      have first : schemaCorrectionAttempted (markerOf recipeHash store) = false := by
        simpa [RetryCall.permitted] using permitted
      exact lone_returned _ (lone_recordSchemaCorrection concerns first meets)
  | registry call =>
      cases call with
      | writeDeferred tokens result givenNow recovery =>
          refine lone_sparing (sparing_returned (fun _ => Outcome.written) ?_)
          cases givenNow with
          | some clock => exact sparing_lock (sparing_writeLocked result clock recovery) _ tokens
          | none =>
              exact sparing_now.bind fun clock =>
                sparing_lock (sparing_writeLocked result clock recovery) _ tokens
      | discardLegacyMomentsRequest tokens expected =>
          refine lone_sparing (sparing_returned Outcome.discarded ?_)
          unfold Deferred.discardLegacyMomentsRequest
          split
          · exact sparing_lock (sparing_legacyLocked concerns) _ tokens
          · exact sparing_pure _
      | discardDeferred tokens expectedRef =>
          exact lone_sparing (sparing_returned Outcome.discarded
            (sparing_lock (sparing_discardLocked expectedRef) _ tokens))
      | discardCompletedResult tokens expected failure =>
          exact lone_returned Outcome.discarded (lone_lock (lone_completedLocked meets) _ tokens)
      | discardTerminalFailure tokens snapshot handle failure exhausted structural givenNow =>
          have other : structural = false := by simpa [RetryCall.permitted] using permitted
          subst other
          exact lone_returned (fun found : Int × List SnapshotEntry => Outcome.counted found.1 found.2)
            (lone_lock (lone_failureLocked concerns.1 concerns.2 meets) _ tokens)
      | pruneExpiredDeferredSnapshot snapshot givenNow ttl =>
          refine lone_sparing (sparing_returned (fun found : Int × List SnapshotEntry =>
            Outcome.counted found.1 found.2) ?_)
          cases givenNow with
          | some clock => exact sparing_pruneEach clock ttl concerns
          | none => exact sparing_now.bind fun clock => sparing_pruneEach clock ttl concerns

end

def Starts (settings : Settings) (recipeHash : String)
    (state : (notedWorld (ledger settings recipeHash)).State) (call : RetryCall) : Prop :=
  call.Concerns recipeHash ∧ call.Meets settings recipeHash state.1.store state.2

section

variable {settings : Settings} {recipeHash : String}

theorem retries_alone : Tasks.Alone (retries settings recipeHash) (Starts settings recipeHash)
    (loneBargain (ledger settings recipeHash)) where
  drifted {state choice _} drifted _ := by
    obtain ⟨after, moved, built⟩ := Option.map_eq_some_iff.mp drifted
    cases built
    refine ⟨?_, rfl⟩
    cases choice with
    | tick clock =>
        obtain ⟨_, ticked⟩ := Option.ite_none_right_eq_some.mp moved
        cases ticked
        rfl
    | works => cases moved
    | fails => cases moved
  assumed _ _ _ := trivial
  started starts mayStart :=
    (LockedRecords.Lone.safe (RetryCall.lone starts.1 mayStart starts.2)).weaken fun _ _ _ => trivial

/-- The start of a sequence: nothing runs, and no failure is on record. -/
def unmarked (settings : Settings) (recipeHash : String) (store : Stored)
    (locks : String → Option (String × Int)) (clock : Int) : Config (retries settings recipeHash) where
  state := ({ store := store, locks := locks, clock := clock }, ⟨[], 0⟩)
  workers := []

theorem consistent_unmarked {store : Stored}
    (absent : store.object (deferredFailureKey recipeHash) = none) :
    Consistent recipeHash store ⟨[], 0⟩ :=
  ⟨.inl ⟨absent, rfl, rfl⟩, List.nodup_nil, Nat.zero_le 1⟩

variable {store : Stored} {locks : String → Option (String × Int)} {clock : Int}
  {middle last : Config (retries settings recipeHash)}

theorem keeps_of_step (run : Run (OneByOne (Starts settings recipeHash))
      (unmarked settings recipeHash store locks clock) middle)
    {event : Event (retries settings recipeHash)}
    (permitted : OneByOne (Starts settings recipeHash) middle event) (moves : middle.Moves event last) :
    Keeps settings recipeHash middle.state.1.store middle.state.2 last.state.1.store last.state.2 := by
  rcases retries_alone.guarantees rfl run permitted moves with same | kept
  · rw [same.1, same.2]
    exact (ledger settings recipeHash).keeps_refl _ _
  · exact kept

theorem consistent_of_run (absent : store.object (deferredFailureKey recipeHash) = none)
    (run : Run (OneByOne (Starts settings recipeHash))
      (unmarked settings recipeHash store locks clock) last) :
    Consistent recipeHash last.state.1.store last.state.2 := by
  induction run with
  | refl => exact consistent_unmarked absent
  | step run event permitted stepped induction =>
      exact (keeps_of_step run permitted (Config.step_moves stepped) induction).1

variable {config after : Config (retries settings recipeHash)}

def isIdle (config : Config (retries settings recipeHash)) : Bool :=
  config.workers.all fun worker => worker.task.asks.isNone

theorem idle_of_isIdle (idle : isIdle config = true) : config.Idle := by
  intro worker member
  simpa using List.all_eq_true.mp idle worker member

def perform (config : Config (retries settings recipeHash)) (call : RetryCall) (steps : Nat) :
    Option (Config (retries settings recipeHash)) := do
  let started ← config.step (.start call)
  let reached ← started.execute (fun _ event => match event with | .start _ => false | _ => true)
    (List.replicate steps (.run config.workers.length .works))
  reached.step (.kill config.workers.length)

theorem run_of_perform {meets : (notedWorld (ledger settings recipeHash)).State → RetryCall → Prop}
    {call : RetryCall} {steps : Nat} (performed : perform config call steps = some after)
    (idle : isIdle config = true) (met : meets config.state call) :
    Run (OneByOne meets) config after := by
  obtain ⟨started, begun, performed⟩ := Option.bind_eq_some_iff.mp performed
  obtain ⟨reached, executed, killed⟩ := Option.bind_eq_some_iff.mp performed
  have start : Run (OneByOne meets) config started := by
    refine .step .refl (.start call) ?_ begun
    intro other same
    cases same
    exact ⟨idle_of_isIdle idle, met⟩
  have worked : Run (OneByOne meets) started reached := by
    refine (Run.of_execute executed).weaken fun _ event permitted other same => ?_
    subst same
    cases permitted
  exact .step (start.trans worked) (.kill config.workers.length) (fun _ same => by cases same) killed

end

def deferredStore : Stored := Store.empty.put (deferredKey "hash") (.json waiting)

def refusal : Failure where
  typeName := "JobExecutionError"
  text := "refused"
  terminalReason := none
  terminalCatalogDigest := none

def discarding (exhausted : Bool) : RetryCall :=
  .registry (.discardTerminalFailure ["token"]
    [⟨deferredKey "hash", waiting, some (.handle handle), false⟩] handle refusal exhausted false
    (some 0))

def firstFailing : Config (retries bare "hash") :=
  unmarked bare "hash" deferredStore (fun _ => none) 0

def allows (config : Config (retries bare "hash")) : Bool :=
  terminalFailureRetryAllowed bare (markerOf "hash" config.state.1.store) .none

theorem discarding_concerns (exhausted : Bool) : (discarding exhausted).Concerns "hash" :=
  ⟨rfl, fun entry member => by rw [List.mem_singleton.mp member]⟩

end Deferred

end CityPods.Compute
