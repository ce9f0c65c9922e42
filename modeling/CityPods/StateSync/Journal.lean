import Mathlib.Data.List.Chain
import Mathlib.Data.Set.Basic
import CityPods.Foundation.Checked
import CityPods.StateSync.Manifest

/-! # The dirty journal as a set of paths

What a path is normalised to is normal, so every path that is written to the
journal is read from it as itself.
-/

namespace CityPods.StateSync

open Foundation

/-! ## Normal paths -/

section

variable {components kept : List (List Char)} {component text : List Char}

theorem splitSlash_eq_splitOn : splitSlash text = text.splitOn '/' := by
  induction text with
  | nil => rfl
  | cons char rest induction =>
      rw [splitSlash, List.splitOn_cons_eq_if_modifyHead, induction]
      cases char == '/' with
      | true => rfl
      | false =>
          cases split : rest.splitOn '/' with
          | nil => exact absurd split (List.splitOn_ne_nil _ _)
          | cons head tail => rfl

theorem mem_splitSlash (member : component ∈ splitSlash text) : '/' ∉ component := by
  induction text generalizing component with
  | nil => simp_all [splitSlash]
  | cons char rest induction =>
      rw [splitSlash] at member
      split at member <;> grind

/-- The components of a normal relative path, last first: nothing is skipped, and only
what goes up stands before what goes up. -/
structure Settled (kept : List (List Char)) : Prop where
  plain : ∀ component ∈ kept, ¬(component = [] ∨ component = ['.']) ∧ '/' ∉ component
  ups : kept.IsChain fun later earlier => later = ['.', '.'] → earlier = ['.', '.']

theorem Settled.push (settled : Settled kept)
    (plain : ¬(component = [] ∨ component = ['.']) ∧ '/' ∉ component)
    (up : component = ['.', '.'] → ∀ earlier ∈ kept.head?, earlier = ['.', '.']) :
    Settled (component :: kept) :=
  ⟨List.forall_mem_cons.mpr ⟨plain, settled.plain⟩,
    settled.ups.cons fun earlier first same => up same earlier first⟩

theorem Settled.later (last : List (List Char)) (settled : Settled (last ++ kept)) : Settled kept :=
  ⟨fun component member => settled.plain component (List.mem_append_right _ member),
    settled.ups.right_of_append⟩

theorem Settled.normComponents (settled : Settled kept)
    (slashless : ∀ component ∈ components, '/' ∉ component) :
    ∃ final, Settled final ∧ normComponents false kept components = final.reverse := by
  induction components generalizing kept with
  | nil => exact ⟨kept, settled, rfl⟩
  | cons component rest induction =>
      obtain ⟨here, later⟩ := List.forall_mem_cons.mp slashless
      unfold StateSync.normComponents
      split
      · exact induction settled later
      · next some =>
          split
          · next named =>
              exact induction (settled.push ⟨some, here⟩ fun same => absurd same named) later
          · cases kept with
            | nil => exact induction (settled.push ⟨some, here⟩ (by simp)) later
            | cons last earlier =>
                dsimp only
                split
                · next up => exact induction (settled.push ⟨some, here⟩ (by simp [up])) later
                · exact induction (settled.later [last]) later

theorem Settled.fixed (settled : Settled (components.reverse ++ kept)) :
    StateSync.normComponents false kept components = kept.reverse ++ components := by
  induction components generalizing kept with
  | nil => simp [StateSync.normComponents]
  | cons component rest induction =>
      rw [List.reverse_cons, List.append_assoc, List.singleton_append] at settled
      have there := settled.later _
      have pushed := induction settled
      rw [List.reverse_cons, List.append_assoc, List.singleton_append] at pushed
      rw [← pushed]
      conv_lhs => unfold StateSync.normComponents
      rw [if_neg (there.plain component List.mem_cons_self).1]
      split
      · rfl
      · next up =>
          cases kept with
          | nil => rfl
          | cons last earlier =>
              exact if_pos ((List.isChain_cons_cons.mp there.ups).1 (not_not.mp up))

theorem Settled.up_first (settled : Settled kept) (up : ['.', '.'] ∈ kept) :
    ∃ others, kept = others ++ [['.', '.']] := by
  induction kept with
  | nil => cases up
  | cons component rest induction =>
      cases rest with
      | nil => exact ⟨[], by rw [← List.mem_singleton.mp up]; rfl⟩
      | cons earlier more =>
          have later : ['.', '.'] ∈ earlier :: more := by
            rcases List.mem_cons.mp up with rfl | there
            · rw [(List.isChain_cons_cons.mp settled.ups).1 rfl]
              exact List.mem_cons_self
            · exact there
          obtain ⟨others, same⟩ := induction (settled.later [component]) later
          exact ⟨component :: others, by rw [same]; rfl⟩

theorem rootOf_cons {char : Char} (other : char ≠ '/') : rootOf (char :: text) = [] := by
  unfold rootOf
  split <;> simp_all

theorem rootOf_eq_nil_iff : rootOf text = [] ↔ "/".toList.isPrefixOf text = false := by
  cases text with
  | nil => simp [rootOf]
  | cons char rest =>
      by_cases slash : char = '/'
      · subst slash
        unfold rootOf
        split <;> simp_all [List.isPrefixOf]
      · simp [rootOf_cons slash, List.isPrefixOf, Ne.symm slash]

theorem rootOf_joinSlash (plain : ∀ component ∈ components, component ≠ [] ∧ '/' ∉ component) :
    rootOf (joinSlash components) = [] := by
  cases components with
  | nil => rfl
  | cons head tail =>
      obtain ⟨some, slashless⟩ := plain head List.mem_cons_self
      obtain ⟨char, rest, rfl⟩ := List.exists_cons_of_ne_nil some
      have joined : ∃ after, joinSlash ((char :: rest) :: tail) = char :: after := by
        cases tail <;> simp [joinSlash]
      obtain ⟨after, joined⟩ := joined
      rw [joined, rootOf_cons fun same => slashless (same ▸ List.mem_cons_self)]

/-- What a relative path is normalised to goes nowhere up, and stays as it is when it is
normalised again. -/
theorem normpath_fixed {path : String} (relative : rootOf path.toList = [])
    (inside : escapes (normpath path) = false) :
    rootOf (normpath path).toList = [] ∧ normpath (normpath path) = normpath path ∧
      ['.', '.'] ∉ splitSlash (normpath path).toList := by
  have nothing : Settled [] := ⟨by simp, List.IsChain.nil⟩
  have slashless : ∀ component ∈ splitSlash path.toList, '/' ∉ component :=
    fun _ member => mem_splitSlash member
  obtain ⟨final, settled, kept⟩ := nothing.normComponents slashless
  have plain (component) (member : component ∈ final.reverse) :=
    settled.plain component (List.mem_reverse.mp member)
  have spelled : normpath path =
      if joinSlash final.reverse = [] then "." else String.ofList (joinSlash final.reverse) := by
    simp [normpath, relative, kept]
  split at spelled
  · rw [spelled] at inside
    cases inside
  · next some =>
      have root := rootOf_joinSlash fun component member =>
        ⟨fun none => (plain component member).1 (.inl none), (plain component member).2⟩
      have split : splitSlash (joinSlash final.reverse) = final.reverse := by
        rw [splitSlash_eq_splitOn]
        exact List.splitOn_intercalate '/' (fun component member => (plain component member).2)
          fun none => some (by rw [none]; rfl)
      have fixed := Settled.fixed (show Settled (final.reverse.reverse ++ []) by simpa using settled)
      rw [spelled, String.toList_ofList]
      refine ⟨root, by simp [normpath, root, split, fixed, some], fun up => ?_⟩
      rw [split, List.mem_reverse] at up
      obtain ⟨others, rfl⟩ := settled.up_first up
      rw [spelled, List.reverse_append] at inside
      cases reversed : others.reverse <;> simp [reversed, escapes, joinSlash] at inside

end

/-! ## The journal -/

section

variable {stateDir label raw rel : String} {journal : Journal} {rels : List String}

theorem journalRelPath_eq_ok : journalRelPath stateDir label raw = .ok rel ↔
    (∃ path, (if "/".toList.isPrefixOf raw.toList then relativeTo stateDir raw else some raw) =
      some path ∧ normpath path = rel) ∧
      escapes rel = false ∧ hasStateSuffix rel = true ∧ reserved rel = false := by
  rw [← Option.map_eq_some_iff]
  unfold journalRelPath
  dsimp only
  generalize Option.map normpath _ = found
  cases found with
  | none => simp
  | some path =>
      constructor
      · intro valid
        grind
      · rintro ⟨⟨rfl⟩, inside, suffix, unreserved⟩
        simp [inside, suffix, unreserved]

theorem journalRelPath_normal (valid : journalRelPath stateDir label raw = .ok rel) :
    (rootOf rel.toList = [] ∧ normpath rel = rel ∧ ['.', '.'] ∉ splitSlash rel.toList) ∧
      escapes rel = false ∧ hasStateSuffix rel = true ∧ reserved rel = false := by
  obtain ⟨⟨path, given, rfl⟩, inside, written⟩ := journalRelPath_eq_ok.mp valid
  refine ⟨normpath_fixed ?_ inside, inside, written⟩
  split at given
  · unfold relativeTo at given
    dsimp only at given
    split at given
    · cases given
      rw [String.toList_ofList]
      refine rootOf_joinSlash fun component member => ?_
      obtain ⟨split, spelled⟩ := List.mem_filter.mp (List.mem_of_mem_drop member)
      exact ⟨(of_decide_eq_true spelled).1, mem_splitSlash split⟩
    · cases given
  · next relative =>
      cases given
      exact rootOf_eq_nil_iff.mpr (Bool.eq_false_iff.mpr relative)

theorem journalRelPath_again (valid : journalRelPath stateDir label raw = .ok rel) :
    journalRelPath stateDir label rel = .ok rel := by
  obtain ⟨⟨root, fixed, _⟩, written⟩ := journalRelPath_normal valid
  refine journalRelPath_eq_ok.mpr ⟨⟨rel, ?_, fixed⟩, written⟩
  rw [rootOf_eq_nil_iff.mp root, if_neg Bool.false_ne_true]

/-- What is written to a journal is what is read from it. -/
theorem mem_readJournal_entries
    (valid : ∀ rel ∈ rels, ∃ raw, journalRelPath stateDir label raw = .ok rel) :
    rel ∈ readJournal stateDir label (.entries rels) ↔ rel ∈ rels := by
  rw [readJournal, Dict.mem_sortedSet, List.mem_filterMap]
  constructor
  · rintro ⟨path, member, read⟩
    obtain ⟨raw, named⟩ := valid path member
    rw [journalRelPath_again named] at read
    cases read
    exact member
  · intro member
    obtain ⟨raw, named⟩ := valid rel member
    exact ⟨rel, member, by rw [journalRelPath_again named]; rfl⟩

/-- A writer that changed paths, or a sync that has persisted them. -/
structure JournalCall where
  persisted : Bool
  paths : List String

/-- The journal after the call; one that names an invalid path is refused. -/
def JournalCall.after (stateDir : String) (journal : Journal) (call : JournalCall) : Journal :=
  let written := if call.persisted then clearStateDirty else markStateDirty
  (written stateDir journal call.paths).toOption.getD journal

/-- What the call does to a set of paths. -/
def JournalCall.pending (stateDir : String) (dirty : Set String) (call : JournalCall) : Set String :=
  match call.paths.mapM (journalRelPath stateDir "dirty") with
  | .error _ => dirty
  | .ok rels => if call.persisted then dirty \ {rel | rel ∈ rels} else dirty ∪ {rel | rel ∈ rels}

/-- The paths that a reader of the journal takes to be dirty. -/
def dirtyPaths (stateDir : String) (journal : Journal) : Set String :=
  {rel | rel ∈ readJournal stateDir "dirty" journal}

theorem dirtyPaths_after (call : JournalCall) : dirtyPaths stateDir (call.after stateDir journal) =
    call.pending stateDir (dirtyPaths stateDir journal) := by
  obtain ⟨persisted, paths⟩ := call
  unfold JournalCall.pending
  cases named : paths.mapM (journalRelPath stateDir "dirty") with
  | error problem =>
      have refused : JournalCall.after stateDir journal ⟨persisted, paths⟩ = journal := by
        cases persisted with
        | false => simp [JournalCall.after, markStateDirty, markState, named]; rfl
        | true => cases journal <;> simp [JournalCall.after, clearStateDirty, named] <;> rfl
      rw [refused]
  | ok rels =>
      ext rel
      cases persisted with
      | false =>
          have written : JournalCall.after stateDir journal ⟨false, paths⟩ =
              .entries (Dict.sortedSet (readJournal stateDir "dirty" journal ++ rels)) := by
            simp [JournalCall.after, markStateDirty, markState, named]; rfl
          rw [written, dirtyPaths, Set.mem_ofPred_eq, mem_readJournal_entries]
          · simp [dirtyPaths]
          · intro rel member
            rcases List.mem_append.mp (Dict.mem_sortedSet.mp member) with old | new
            · exact readJournal_valid old
            · obtain ⟨raw, _, valid⟩ := mem_of_mapM named new
              exact ⟨raw, valid⟩
      | true =>
          have written : JournalCall.after stateDir journal ⟨true, paths⟩ =
              if (readJournal stateDir "dirty" journal).filter (· ∉ rels) = [] then .absent
              else .entries ((readJournal stateDir "dirty" journal).filter (· ∉ rels)) := by
            cases journal <;> simp [JournalCall.after, clearStateDirty, named] <;> rfl
          have left : rel ∈ readJournal stateDir "dirty" (.entries ((readJournal stateDir "dirty"
              journal).filter (· ∉ rels))) ↔ rel ∈ (readJournal stateDir "dirty" journal).filter _ :=
            mem_readJournal_entries fun rel member => readJournal_valid (List.mem_filter.mp member).1
          have read : rel ∈ readJournal stateDir "dirty" (JournalCall.after stateDir journal
              ⟨true, paths⟩) ↔ rel ∈ (readJournal stateDir "dirty" journal).filter (· ∉ rels) := by
            rw [written]
            split
            · next none => exact none ▸ Iff.rfl
            · exact left
          rw [dirtyPaths, Set.mem_ofPred_eq, read, List.mem_filter]
          simp [dirtyPaths]

theorem isSafeRelStatePath_of_journaled (valid : journalRelPath stateDir label raw = .ok rel)
    (slash : "\\".toList.isPrefixOf rel.toList = false) : isSafeRelStatePath rel = true := by
  obtain ⟨⟨root, fixed, upless⟩, inside, suffix, unreserved⟩ := journalRelPath_normal valid
  have named : rel ≠ "" := by
    rintro rfl
    cases suffix
  have plain : (parts rel).any (fun component => component = ['.'] ∨ component = ['.', '.']) =
      false := by
    refine List.any_eq_false.mpr fun component member dots => ?_
    obtain ⟨split, spelled⟩ := List.mem_filter.mp member
    rcases of_decide_eq_true dots with rfl | rfl
    · exact (of_decide_eq_true spelled).2 rfl
    · exact upless split
  simp only [isSafeRelStatePath, rootOf_eq_nil_iff.mp root, slash, fixed, inside, plain, suffix,
    unreserved, bne_iff_ne.mpr named, beq_self_eq_true, Bool.not_false, Bool.and_self]

/-- The journals and the manifest admit the same paths, up to a backslash in front. -/
theorem isSafeRelStatePath_iff_journaled (stateDir label rel : String) :
    isSafeRelStatePath rel = true ↔ (∃ raw, journalRelPath stateDir label raw = .ok rel) ∧
      "\\".toList.isPrefixOf rel.toList = false := by
  constructor
  · intro safe
    simp only [isSafeRelStatePath, Bool.and_eq_true, Bool.not_eq_true'] at safe
    obtain ⟨⟨⟨⟨⟨⟨⟨_, root⟩, slash⟩, normal⟩, inside⟩, _⟩, suffix⟩, unreserved⟩ := safe
    refine ⟨⟨rel, journalRelPath_eq_ok.mpr ⟨⟨rel, ?_, (beq_iff_eq.mp normal).symm⟩, inside, suffix,
      unreserved⟩⟩, slash⟩
    rw [root, if_neg Bool.false_ne_true]
  · rintro ⟨⟨raw, valid⟩, slash⟩
    exact isSafeRelStatePath_of_journaled valid slash

end

/-- Whatever is marked and cleared, in whatever order and after whatever the file held,
readers find exactly the paths that were marked and not cleared since. -/
theorem dirty_journal_refines_set (stateDir : String) (journal : Journal)
    (calls : List JournalCall) :
    dirtyPaths stateDir (calls.foldl (JournalCall.after stateDir) journal) =
      calls.foldl (JournalCall.pending stateDir) (dirtyPaths stateDir journal) := by
  induction calls generalizing journal with
  | nil => rfl
  | cons call rest induction =>
      rw [List.foldl_cons, List.foldl_cons, induction, dirtyPaths_after]

end CityPods.StateSync
