import CityPods.StateSync.Journal
import CityPods.StateSync.Publication

/-! # The manifest stays readable

A reader that refuses the manifest syncs everything, and no push publishes over a
manifest that it refuses; so pushes must never store one.
-/

namespace CityPods.StateSync

open Foundation Program

section

variable {codec : Codec Content} {backend : Backend} {store : Store String Content}

def Readable (codec : Codec Content) (stored : Option (Content × ETag)) : Prop :=
  ∀ object ∈ stored, (parseManifest codec object.1).isSome

/-- Uploads are named safely, and no tombstone starts with a backslash. -/
def NamesSafely (event : Event (pushService codec backend)) : Prop :=
  (∀ rel, event.key = stateKey rel → reserved rel = false → isSafeRelStatePath rel = true) ∧
    ∀ rel ∈ event.call.deleted, "\\".toList.isPrefixOf rel.toList = false

theorem validateManifest_isSome {manifest : Manifest} : (validateManifest manifest).isSome ↔
    manifest.version = manifestVersion ∧
      (∀ rel, (manifest.objects.get? rel).isSome → isSafeRelStatePath rel = true) ∧
      ∀ rel ∈ manifest.tombstones, isSafeRelStatePath rel = true := by
  simp only [Dict.get?_isSome_iff_mem_keys, ← List.all_eq_true]
  unfold validateManifest
  split <;> simp_all

theorem validateManifest_of_casBase {before : Option Content} {base : Manifest}
    (read : casBase codec before = .base base) : (validateManifest base).isSome := by
  unfold casBase at read
  split at read
  · cases read
    rfl
  · split at read
    · cases read
    · cases read
    · split at read
      · cases read
      · next valid =>
          cases read
          rw [validateManifest_eq valid, valid]
          rfl

theorem validateManifest_merged {changed : Dict String Content} {deleted : List String}
    {now : String} {base : Manifest} (nodup : changed.keys.Nodup)
    (valid : (validateManifest base).isSome)
    (uploads : ∀ file ∈ changed, isSafeRelStatePath file.1 = true)
    (removals : ∀ rel ∈ deleted, isSafeRelStatePath rel = true) :
    (validateManifest
      (mergeManifest (deltaObjects codec changed) deleted now base).sorted).isSome := by
  obtain ⟨_, objects, tombstones⟩ := validateManifest_isSome.mp valid
  refine validateManifest_isSome.mpr ⟨rfl, fun rel listed => ?_, fun rel listed => ?_⟩
  · simp only [Manifest.sorted, Dict.get?_sortKeys, mergeDelta_get? nodup] at listed
    split at listed
    · cases listed
    · cases found : changed.get? rel with
      | none => exact objects rel (by simpa [found] using listed)
      | some content => exact uploads _ (Dict.get?_eq_some_mem found)
  · simp only [Manifest.sorted, mem_mergeDelta_tombstones] at listed
    exact listed.1.elim (tombstones rel) (removals rel)

theorem readable_of_valid {history : List (Event (pushService codec backend))}
    (valid : ValidHistory (pushContract codec backend) store history)
    (readable : Readable codec (store.object manifestKey))
    (safe : ∀ event ∈ history, NamesSafely event) :
    Readable codec (latest store history manifestKey) := by
  induction valid with
  | nil => exact readable
  | cons earlier replaces permitted later started induction =>
      rename_i event older
      obtain ⟨here, before⟩ := List.forall_mem_cons.mp safe
      obtain ⟨remaining, write⟩ := permitted
      generalize ownEq : writesOf event.worker older = own at write
      generalize keyEq : event.key = key at write
      generalize event.before.map Prod.fst = replaced at write
      generalize afterEq : event.after.map Prod.fst = after at write
      cases write with
      | uploaded early unreserved =>
          rw [latest_cons_other store older (keyEq ▸ stateKey_ne_manifestKey unreserved)]
          exact induction before
      | removed member published =>
          rw [latest_cons_other store older
            (keyEq ▸ stateKey_ne_manifestKey (event.call.deleted_unreserved member))]
          exact induction before
      | @merged _ changed base now nodup unreserved read =>
          intro object held
          rw [← keyEq, latest_cons_same] at held
          rw [Option.mem_def.mp held] at afterEq
          rw [parseManifest, Option.some.inj afterEq, codec.loads_dumps]
          refine validateManifest_merged nodup (validateManifest_of_casBase read)
            (fun file member => ?_) fun rel new => ?_
          · have written : (stateKey file.1, some file.2) ∈ writesOf event.worker older := by
              rw [ownEq]
              exact List.mem_reverse.mpr (List.mem_map.mpr ⟨file, member, rfl⟩)
            obtain ⟨other, present, _, key⟩ := mem_writesOf written
            exact (before other present).1 file.1 key (unreserved file member)
          · obtain ⟨_, valid⟩ := readJournal_valid new
            exact isSafeRelStatePath_of_journaled valid (here.2 rel new)

/-- In every interleaving of pushes that upload safely named files, the manifest in the
bucket is absent or one that the next reader accepts. -/
theorem manifest_stays_readable (capable : backend.casCapable = true) (fresh : store.Fresh)
    (readable : Readable codec (store.object manifestKey)) {clock : Nat}
    {config : Config (pushService codec backend)}
    (reachable : Reachable (Config.init store clock) config)
    (safe : ∀ event ∈ config.history, NamesSafely event) :
    Readable codec (config.store.object manifestKey) := by
  have sound := reachable.sound (fun call => pushState_meets capable call) fresh
  rw [sound.object]
  exact readable_of_valid sound.valid readable safe

end

theorem manifest_stays_readable_afterLostRace :
    Readable textCodec (afterLostRace.store.object manifestKey) := by
  have written : ∀ event ∈ afterLostRace.history, event.key = manifestKey ∨
      ∃ rel ∈ ["a.json", "b.json", "old.json"], event.key = stateKey rel := by
    decide
  have named : ∀ rel ∈ ["a.json", "b.json", "old.json"], isSafeRelStatePath rel = true := by
    decide
  refine manifest_stays_readable rfl storeWithManifest_fresh ?_
    (Reachable.of_steps (Option.some_get lostRace_executes).symm) fun event present => ⟨?_, ?_⟩
  · rintro _ ⟨⟩
    decide +kernel
  · intro rel key unreserved
    obtain published | ⟨file, listed, same⟩ := written event present
    · exact absurd (key.symm.trans published) (stateKey_ne_manifestKey unreserved)
    · exact stateKey_injective (key.symm.trans same) ▸ named file listed
  · revert event
    decide

end CityPods.StateSync
