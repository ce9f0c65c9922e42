import Mathlib.Algebra.GroupWithZero.Nat
import Mathlib.Algebra.Order.Ring.Rat
import Mathlib.Data.List.Induction
import CityPods.Foundation.Texts

/-! # Grounding

Where the rows of a transcript, and the words of its sidecar, hold a quote. Texts
are ASCII; they are compared as their characters.
-/

namespace CityPods.Moments

open Foundation
open Foundation.Whitespace (isSpace strip isSpace_of_head?_strip isSpace_of_getLast?_strip)
open Foundation.Substrings (OccursFirst find_eq_some_iff getElem?_of_prefix add_length_le)

structure Row where
  text : String
  start : ℚ
  stop : ℚ

structure Word where
  text : String
  start : ℚ
  stop : ℚ

abbrev Span := ℚ × ℚ

/-! ## Texts -/

def collapse : Bool → List Char → List Char
  | _, [] => []
  | inRun, char :: rest =>
      if isSpace char then (if inRun then [] else [' ']) ++ collapse true rest
      else char :: collapse false rest

def norm (value : String) : List Char :=
  (strip (String.ofList (collapse false value.toList))).toList.map Char.toLower

/-- A word without its punctuation. -/
def token (value : List Char) : List Char :=
  (value.map Char.toLower).filter fun char => char.isAlphanum || char = '_'

/-! ## Rows -/

/-- The texts joined so far, and the row that each character belongs to. -/
structure Joined where
  pieces : List (List Char) := []
  owners : List Row := []

/-- The space before a text belongs to the row of the text. -/
def Joined.add (joined : Joined) (row : Row) : Joined :=
  let text := norm row.text
  if text = [] then joined
  else if joined.pieces = [] then
    { pieces := [text], owners := List.replicate text.length row }
  else
    { pieces := joined.pieces ++ [[' '], text]
      owners := joined.owners ++ row :: List.replicate text.length row }

def joinRows (rows : List Row) : Joined := rows.foldl Joined.add {}

def transcriptRegion (quote : String) (rows : List Row) : Option Span :=
  let target := norm quote
  if target = [] then none
  else
    let joined := joinRows rows
    match Substrings.find target joined.pieces.flatten with
    | none => none
    | some startIndex =>
        let endIndex := min (startIndex + target.length - 1) (joined.owners.length - 1)
        match joined.owners[startIndex]?, joined.owners[endIndex]? with
        | some startRow, some endRow =>
            if endRow.stop ≤ startRow.start then none else some (startRow.start, endRow.stop)
        | _, _ => none

/-! ## Words -/

/-- The places in the words where the quote's tokens begin. -/
def hits (target : List (List Char)) (words : List Word) : List Nat :=
  let tokens := words.map fun word => token word.text.toList
  (List.range (tokens.length - target.length + 1)).filter fun index =>
    (tokens.drop index).take target.length = target

/-- The spoken span of the quote: the start of its first word and the end of its last. Near
a region only one occurrence counts, and that has to be alone. -/
def wordRegion (quote : String) (words : List Word) (near : Option Span) : Option Span :=
  let target := ((quote.toList.splitOnP isSpace).map token).filter (· ≠ [])
  if target = [] ∨ words.length < target.length then none
  else
    let near (index : Nat) : Bool :=
      near.all fun span => words[index]?.any fun word =>
        decide (span.1 - 1 ≤ word.start) && decide (word.start ≤ span.2 + 1)
    match (hits target words).filter near with
    | [hit] =>
        match words[hit]?, words[hit + target.length - 1]? with
        | some first, some last =>
            if first.start < last.stop then some (first.start, last.stop) else none
        | _, _ => none
    | _ => none

inductive TimingSource
  | words
  | cues
  deriving DecidableEq

def quoteTiming (quote : String) (rows : List Row) (words : List Word) :
    Option (Span × TimingSource) :=
  match transcriptRegion quote rows with
  | none => none
  | some cue =>
      let exact := if words = [] then none else wordRegion quote words (some cue)
      match exact with
      | some span => some (span, .words)
      | none => some (cue, .cues)

variable {joined : Joined}

theorem Joined.add_silent {row : Row} (silent : norm row.text = []) :
    joined.add row = joined := by
  simp [Joined.add, silent]

theorem Joined.add_first {row : Row} (loud : norm row.text ≠ [])
    (empty : joined.pieces = []) : joined.add row =
      ⟨[norm row.text], List.replicate (norm row.text).length row⟩ := by
  simp [Joined.add, loud, empty]

theorem Joined.add_later {row : Row} (loud : norm row.text ≠ [])
    (later : joined.pieces ≠ []) : joined.add row =
      ⟨joined.pieces ++ [[' '], norm row.text],
        joined.owners ++ row :: List.replicate (norm row.text).length row⟩ := by
  simp [Joined.add, loud, later]

theorem wordRegion_nil (quote : String) (near : Option Span) : wordRegion quote [] near = none := by
  unfold wordRegion
  dsimp only
  split
  · rfl
  next known =>
  rw [not_or] at known
  exact absurd (List.length_pos_of_ne_nil known.1) known.2

/-! ## The joined text -/

def spoken (rows : List Row) : List Row := rows.filter fun row => norm row.text ≠ []

def spokenText (rows : List Row) : List Char :=
  [' '].intercalate ((spoken rows).map fun row => norm row.text)

/-- Where the text after these rows begins. -/
def offset (before : List Row) : Nat := (before.map fun row => (norm row.text).length + 1).sum

def Holds (rows : List Row) (place : Nat) (row : Row) : Prop :=
  ∃ before after, spoken rows = before ++ row :: after ∧
    offset before ≤ place ∧ place < offset before + (norm row.text).length

def Region (target : List Char) (rows : List Row) (cue : Span) : Prop :=
  ∃ place first last, OccursFirst target (spokenText rows) place ∧ Holds rows place first ∧
    Holds rows (place + target.length - 1) last ∧ cue = (first.start, last.stop)

variable {rows : List Row} {row : Row} {place : Nat}

theorem joinRows_append (rows : List Row) (row : Row) :
    joinRows (rows ++ [row]) = (joinRows rows).add row := by
  simp [joinRows]

theorem spoken_append (rows : List Row) (row : Row) :
    spoken (rows ++ [row]) = spoken rows ++ if norm row.text = [] then [] else [row] := by
  by_cases silent : norm row.text = [] <;> simp [spoken, silent]

theorem intercalate_append {α : Type*} (separator last : List α) (texts : List (List α))
    (nonempty : texts ≠ []) :
    separator.intercalate (texts ++ [last]) = separator.intercalate texts ++ separator ++ last := by
  induction texts with
  | nil => exact absurd rfl nonempty
  | cons text rest ih =>
      cases rest with
      | nil => simp
      | cons other rest =>
          have later := ih (List.cons_ne_nil other rest)
          simp only [List.cons_append] at later
          simp [later]

theorem Holds.append (held : Holds rows place row) (other : Row) :
    Holds (rows ++ [other]) place row := by
  obtain ⟨before, after, split, above, below⟩ := held
  refine ⟨before, after ++ if norm other.text = [] then [] else [other], ?_, above, below⟩
  rw [spoken_append, split]
  simp

/-- The rows joined: what was joined is their text, and each character but a space between
texts belongs to the row that holds it. -/
structure Joins (rows : List Row) (joined : Joined) : Prop where
  empty : joined.pieces = [] ↔ spoken rows = []
  text : joined.pieces.flatten = spokenText rows
  length : joined.owners.length = (spokenText rows).length
  owned : ∀ place row, joined.owners[place]? = some row →
    (spokenText rows)[place]? = some ' ' ∨ Holds rows place row
  next : spoken rows ≠ [] → offset (spoken rows) = (spokenText rows).length + 1

variable {index : Nat}

theorem of_replicate {count : Nat} {other : Row}
    (found : (List.replicate count row)[index]? = some other) : index < count ∧ row = other := by
  simpa [List.getElem?_replicate] using found

theorem Joins.add_silent (joins : Joins rows joined) (silent : norm row.text = []) :
    Joins (rows ++ [row]) (joined.add row) := by
  have same : spoken (rows ++ [row]) = spoken rows := by simp [spoken_append, silent]
  have text : spokenText (rows ++ [row]) = spokenText rows := by simp only [spokenText, same]
  rw [Joined.add_silent silent]
  exact {
    empty := by rw [same]; exact joins.empty
    text := by rw [text]; exact joins.text
    length := by rw [text]; exact joins.length
    owned := fun place owner found => by
      rw [text]
      exact (joins.owned place owner found).imp_right fun held => held.append row
    next := by rw [same, text]; exact joins.next }

theorem Joins.add_first (joins : Joins rows joined) (loud : norm row.text ≠ [])
    (first : spoken rows = []) : Joins (rows ++ [row]) (joined.add row) := by
  have alone : spoken (rows ++ [row]) = [row] := by simp [spoken_append, loud, first]
  have text : spokenText (rows ++ [row]) = norm row.text := by simp [spokenText, alone]
  rw [Joined.add_first loud (joins.empty.mpr first)]
  exact {
    empty := by simp [alone]
    text := by simp [text]
    length := by simp [text]
    owned := fun place owner found => by
      dsimp only at found
      obtain ⟨inside, same⟩ := of_replicate found
      have below : place < offset [] + (norm row.text).length := by
        simpa only [offset, List.map_nil, List.sum_nil, Nat.zero_add] using inside
      exact .inr ⟨[], [], same ▸ alone, Nat.zero_le place, same ▸ below⟩
    next := fun _ => by simp [alone, text, offset] }

theorem Joins.add_later (joins : Joins rows joined) (loud : norm row.text ≠ [])
    (later : spoken rows ≠ []) : Joins (rows ++ [row]) (joined.add row) := by
  have all : spoken (rows ++ [row]) = spoken rows ++ [row] := by simp [spoken_append, loud]
  have text : spokenText (rows ++ [row]) = spokenText rows ++ ' ' :: norm row.text := by
    have texts : (spoken rows).map (fun row => norm row.text) ≠ [] := by simpa using later
    simp [spokenText, all, intercalate_append _ _ _ texts]
  have length := joins.length
  rw [Joined.add_later loud (joins.empty.not.mpr later)]
  exact {
    empty := by simp [all]
    text := by simp [text, joins.text]
    length := by simp [text, length]
    owned := fun place owner found => by
      rw [text]
      obtain before | after := Nat.lt_or_ge place joined.owners.length
      · rw [List.getElem?_append_left before] at found
        rw [List.getElem?_append_left (length ▸ before)]
        exact (joins.owned place owner found).imp_right fun held => held.append row
      · rw [List.getElem?_append_right after] at found
        rw [List.getElem?_append_right (length ▸ after), ← length]
        cases inside : place - joined.owners.length with
        | zero => exact .inl rfl
        | succ inner =>
            rw [inside, List.getElem?_cons_succ] at found
            obtain ⟨short, rfl⟩ := of_replicate found
            have next := joins.next later
            exact .inr ⟨spoken rows, [], all, by omega, by omega⟩
    next := fun _ => by
      have next := joins.next later
      simp only [all, text, offset, List.map_append, List.sum_append] at next ⊢
      simp only [List.length_append, List.length_cons, List.map_cons, List.map_nil, List.sum_cons,
        List.sum_nil]
      omega }

theorem Joins.add (joins : Joins rows joined) (row : Row) :
    Joins (rows ++ [row]) (joined.add row) := by
  by_cases silent : norm row.text = []
  · exact joins.add_silent silent
  · by_cases first : spoken rows = []
    · exact joins.add_first silent first
    · exact joins.add_later silent first

theorem joins (rows : List Row) : Joins rows (joinRows rows) := by
  induction rows using List.reverseRecOn with
  | nil =>
      exact {
        empty := by simp [joinRows, spoken]
        text := rfl
        length := rfl
        owned := fun place row never => by cases never
        next := fun never => absurd rfl never }
  | append_singleton rows row ih =>
      rw [joinRows_append]
      exact ih.add row

/-! ## Ordered rows -/

/-- The rows of a transcript: each ends after it starts, in the order of their starts and of
their ends. -/
structure Timed (rows : List Row) : Prop where
  lasts : ∀ row ∈ rows, row.start < row.stop
  starts : rows.Pairwise fun first second => first.start ≤ second.start
  stops : rows.Pairwise fun first second => first.stop ≤ second.stop

theorem Holds.mem (held : Holds rows place row) : row ∈ rows := by
  obtain ⟨before, after, split, -⟩ := held
  have listed : row ∈ spoken rows := split ▸ List.mem_append_right before List.mem_cons_self
  exact List.mem_of_mem_filter listed

theorem toLower_eq_space {char : Char} (lower : char.toLower = ' ') : char = ' ' := by
  unfold Char.toLower at lower
  split at lower
  · next upper =>
      have value := congrArg (fun char => char.val.toNat) lower
      have low : 65 ≤ char.toNat := upper.1
      have high : char.toNat ≤ 90 := upper.2
      simp [UInt32.toNat_add] at value
      omega
  · exact lower

theorem norm_head? (value : String) : (norm value).head? ≠ some ' ' := by
  intro first
  rw [norm, List.head?_map, Option.map_eq_some_iff] at first
  obtain ⟨char, head, lower⟩ := first
  have space := isSpace_of_head?_strip head
  rw [toLower_eq_space lower] at space
  exact absurd space (by decide)

theorem norm_getLast? (value : String) : (norm value).getLast? ≠ some ' ' := by
  intro last
  rw [norm, List.getLast?_map, Option.map_eq_some_iff] at last
  obtain ⟨char, end_, lower⟩ := last
  have space := isSpace_of_getLast?_strip end_
  rw [toLower_eq_space lower] at space
  exact absurd space (by decide)

theorem owner_of_occurs {target : List Char}
    (occurs : target <+: (spokenText rows).drop place) (inside : index < target.length)
    (visible : target[index]? ≠ some ' ') : ∃ row,
      (joinRows rows).owners[place + index]? = some row ∧ Holds rows (place + index) row := by
  have joins := joins rows
  have stands := getElem?_of_prefix occurs inside
  have below : place + index < (joinRows rows).owners.length := by
    obtain ⟨char, found⟩ : ∃ char, target[index]? = some char := ⟨_, List.getElem?_eq_getElem inside⟩
    rw [joins.length]
    exact (List.getElem?_eq_some_iff.mp (stands.trans found)).1
  refine ⟨_, List.getElem?_eq_getElem below, ?_⟩
  obtain space | held := joins.owned _ _ (List.getElem?_eq_getElem below)
  · exact absurd (stands.symm.trans space) visible
  · exact held

variable {quote : String} {cue : Span}

theorem transcriptRegion_lt (found : transcriptRegion quote rows = some cue) : cue.1 < cue.2 := by
  unfold transcriptRegion at found
  dsimp only at found
  split at found
  · cases found
  split at found
  · cases found
  split at found
  · split at found
    · cases found
    · next lasts =>
        cases found
        exact not_le.mp lasts
  · cases found

theorem region_of_transcriptRegion
    (found : transcriptRegion quote rows = some cue) : Region (norm quote) rows cue := by
  unfold transcriptRegion at found
  dsimp only at found
  split at found
  · cases found
  next loud =>
  have joins := joins rows
  rw [joins.text, joins.length] at found
  split at found
  · cases found
  next place located =>
  obtain ⟨first, -⟩ := find_eq_some_iff.mp located
  have long := List.length_pos_of_ne_nil loud
  have within := add_length_le first.1 loud
  obtain ⟨startRow, starts, opens⟩ := owner_of_occurs first.1 long
    (List.head?_eq_getElem? ▸ norm_head? quote)
  obtain ⟨endRow, ends, closes⟩ := owner_of_occurs first.1 (Nat.sub_lt long Nat.one_pos)
    (List.getLast?_eq_getElem? ▸ norm_getLast? quote)
  have last : min (place + (norm quote).length - 1) ((spokenText rows).length - 1) =
      place + ((norm quote).length - 1) := by omega
  rw [last, ends, show (joinRows rows).owners[place]? = some startRow from starts] at found
  dsimp only at found
  split at found
  · cases found
  · refine ⟨place, startRow, endRow, first, opens, ?_, (Option.some.inj found).symm⟩
    rw [Nat.add_sub_assoc long]
    exact closes

end CityPods.Moments
