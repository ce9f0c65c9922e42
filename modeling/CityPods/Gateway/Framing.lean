import Mathlib.Data.List.Forall2
import CityPods.Gateway.Frames

/-! # How a stream is framed

The line endings of a stream change nothing but which events are the `[DONE]` marker.
-/

namespace CityPods.Gateway.ChatStream

open Foundation.LineEndings
open Foundation.Utf8Stream
open Foundation.JsonText

/-! ## Texts of the same lines -/

theorem afterEnding_plain {char : Char} (feed : char ≠ '\n') (returned : char ≠ '\r')
    (rest : List Char) : afterEnding (char :: rest) = none := by
  unfold afterEnding
  split <;> simp_all

theorem afterEnding_returned {next : Char} (feed : next ≠ '\n') (rest : List Char) :
    afterEnding ('\r' :: next :: rest) = none := by
  unfold afterEnding
  split <;> simp_all

variable {narrow wide : List Char} {after : Bool}

theorem afterEnding_widened (widened : Widened '\r' '\n' after narrow wide) :
    Option.Rel (Widened '\r' '\n' false) (afterEnding narrow) (afterEnding wide) := by
  cases widened with
  | nil => exact .none
  | widen rest => exact .some rest
  | keep _ char rest =>
      by_cases feed : char = '\n'
      · subst feed
        exact .some rest
      by_cases returned : char = '\r'
      · subst returned
        cases rest with
        | nil => exact .none
        | keep _ next rest =>
            by_cases feed : next = '\n'
            · subst feed
              exact .some rest
            · rw [afterEnding_returned feed, afterEnding_returned feed]
              exact .none
      · rw [afterEnding_plain feed returned, afterEnding_plain feed returned]
        exact .none

theorem afterSeparator_widened (widened : Widened '\r' '\n' after narrow wide) :
    Option.Rel (Widened '\r' '\n' false) (afterSeparator narrow) (afterSeparator wide) := by
  have first := afterEnding_widened widened
  unfold afterSeparator
  cases narrowEnds : afterEnding narrow with
  | none =>
      rw [narrowEnds] at first
      cases wideEnds : afterEnding wide with
      | none => exact .none
      | some later =>
          rw [wideEnds] at first
          cases first
  | some rest =>
      rw [narrowEnds] at first
      cases wideEnds : afterEnding wide with
      | none =>
          rw [wideEnds] at first
          cases first
      | some later =>
          rw [wideEnds] at first
          cases first with
          | some rest => exact afterEnding_widened rest

/-- Both cut into texts of the same lines, or neither cut. -/
abbrev CutsAlike (after : Bool) : Option (List Char × List Char) → Option (List Char × List Char) → Prop :=
  Option.Rel fun first second =>
    Widened '\r' '\n' after first.1 second.1 ∧ Widened '\r' '\n' false first.2 second.2

theorem CutsAlike.map {inner outer : Bool} {first second : Option (List Char × List Char)}
    (alike : CutsAlike inner first second) (narrowStart wideStart : List Char)
    (start : ∀ {narrow wide}, Widened '\r' '\n' inner narrow wide →
      Widened '\r' '\n' outer (narrowStart ++ narrow) (wideStart ++ wide)) :
    CutsAlike outer (first.map fun cut => (narrowStart ++ cut.1, cut.2))
      (second.map fun cut => (wideStart ++ cut.1, cut.2)) := by
  cases alike with
  | none => exact .none
  | some both => exact .some ⟨start both.1, both.2⟩

theorem cutFrame_widened (widened : Widened '\r' '\n' after narrow wide) :
    CutsAlike after (cutFrame narrow) (cutFrame wide) := by
  induction widened with
  | nil => exact .none
  | @keep after char narrow wide rest induction =>
      have separators := afterSeparator_widened (.keep after char rest)
      rw [cutFrame, cutFrame]
      cases narrowEnds : afterSeparator (char :: narrow) <;>
        cases wideEnds : afterSeparator (char :: wide) <;> rw [narrowEnds, wideEnds] at separators
      · exact induction.map [char] [char] (.keep after char)
      · cases separators
      · cases separators
      · cases separators with
        | some rest => exact .some ⟨.nil after, rest⟩
  | @widen narrow wide rest induction =>
      -- The separator can only be the one of the line feed, with or without its return.
      have narrowSeparator : afterSeparator ('\n' :: narrow) = afterEnding narrow := rfl
      have wideSeparator : afterSeparator ('\r' :: '\n' :: wide) = afterEnding wide := rfl
      have feedSeparator : afterSeparator ('\n' :: wide) = afterEnding wide := rfl
      have endings := afterEnding_widened rest
      rw [cutFrame, cutFrame, cutFrame, narrowSeparator, wideSeparator, feedSeparator]
      cases narrowEnds : afterEnding narrow <;> cases wideEnds : afterEnding wide <;>
        rw [narrowEnds, wideEnds] at endings
      · simp only [Option.map_map]
        exact induction.map ['\n'] ['\r', '\n'] .widen
      · cases endings
      · cases endings
      · cases endings with
        | some rest => exact .some ⟨.nil false, rest⟩

theorem Frames.widened {narrow left wide : List Char} {frames : List (List Char)}
    (begun : Frames narrow frames left) (widened : Widened '\r' '\n' false narrow wide) :
    ∃ others rest, Frames wide others rest ∧
      List.Forall₂ (Widened '\r' '\n' false) frames others ∧ Widened '\r' '\n' false left rest := by
  induction begun generalizing wide with
  | «open» text whole =>
      have cuts := cutFrame_widened widened
      rw [whole] at cuts
      cases wideCut : cutFrame wide with
      | none => exact ⟨[], wide, .open wide wideCut, .nil, widened⟩
      | some both =>
          rw [wideCut] at cuts
          cases cuts
  | cut cut _ induction =>
      have cuts := cutFrame_widened widened
      rw [cut] at cuts
      cases wideCut : cutFrame wide with
      | none =>
          rw [wideCut] at cuts
          cases cuts
      | some both =>
          rw [wideCut] at cuts
          cases cuts with
          | some alike =>
              obtain ⟨others, rest, later, frames, left⟩ := induction alike.2
              exact ⟨both.1 :: others, rest, .cut wideCut later, .cons alike.1 frames, left⟩

theorem events_widened (widened : Widened '\r' '\n' false narrow wide) :
    List.Forall₂ (Widened '\r' '\n' false) (events narrow) (events wide) := by
  have begun := cutAll_frames narrow.length (le_refl _)
  obtain ⟨others, rest, also, frames, left⟩ := begun.widened widened
  rw [begun.events_eq, also.events_eq]
  exact List.rel_append frames (.cons left .nil)

/-! ## The data of an event -/

/-- The same lines, some with a carriage return; the last one has no ending. -/
inductive LinesAlike : List (List Char) → List (List Char) → Prop
  | last (line : List Char) : LinesAlike [line] [line]
  | same (line : List Char) {narrow wide : List (List Char)} :
      LinesAlike narrow wide → LinesAlike (line :: narrow) (line :: wide)
  | returned (line : List Char) {narrow wide : List (List Char)} :
      LinesAlike narrow wide → LinesAlike (line :: narrow) ((line ++ ['\r']) :: wide)

theorem LinesAlike.prepend {narrow wide : List (List Char)} (alike : LinesAlike narrow wide)
    (char : Char) : LinesAlike (narrow.modifyHead (char :: ·)) (wide.modifyHead (char :: ·)) := by
  cases alike with
  | last line => exact .last (char :: line)
  | same line rest => exact .same (char :: line) rest
  | returned line rest => exact .returned (char :: line) rest

theorem lines_widened (widened : Widened '\r' '\n' after narrow wide) :
    LinesAlike (narrow.splitOn '\n') (wide.splitOn '\n') := by
  induction widened with
  | nil => exact .last []
  | keep _ char _ induction =>
      rw [List.splitOn_cons_eq_if_modifyHead, List.splitOn_cons_eq_if_modifyHead]
      split
      · exact .same [] induction
      · exact induction.prepend char
  | widen _ induction =>
      rw [List.splitOn_cons_eq_if_modifyHead, List.splitOn_cons_eq_if_modifyHead,
        List.splitOn_cons_eq_if_modifyHead]
      exact .returned [] induction

/-- A value of the same data line, or of one that ends with a carriage return. -/
def ValueAlike (narrow wide : List Char) : Prop := wide = narrow ∨ wide = narrow ++ ['\r']

def dataValues (frame : List Char) : List (List Char) :=
  ((frame.splitOn '\n').filter fun line => dataField.isPrefixOf line).map dataValue

theorem dataField_returned (line : List Char) :
    dataField.isPrefixOf (line ++ ['\r']) = dataField.isPrefixOf line := by
  have last : dataField ≠ line ++ ['\r'] := by
    intro same
    have lasts := congrArg List.getLast? same
    rw [List.getLast?_concat] at lasts
    exact absurd lasts (by decide)
  rw [Bool.eq_iff_iff, List.isPrefixOf_iff_prefix, List.isPrefixOf_iff_prefix,
    List.prefix_concat_iff, or_iff_right last]

theorem dataValue_returned {line : List Char} (data : dataField.isPrefixOf line) :
    dataValue (line ++ ['\r']) = dataValue line ++ ['\r'] := by
  have long : 5 ≤ line.length := (List.isPrefixOf_iff_prefix.mp data).length_le
  rw [dataValue, dataValue, List.drop_append_of_le_length long]
  match line.drop 5 with
  | [] => rfl
  | char :: rest =>
      by_cases space : char = ' '
      · subst space
        rfl
      · split <;> simp_all

theorem dataValues_alike {narrow wide : List (List Char)} (alike : LinesAlike narrow wide) :
    List.Forall₂ ValueAlike
      ((narrow.filter fun line => dataField.isPrefixOf line).map dataValue)
      ((wide.filter fun line => dataField.isPrefixOf line).map dataValue) := by
  induction alike with
  | last line =>
      cases data : dataField.isPrefixOf line with
      | false => simp [data]
      | true => simp [data, ValueAlike]
  | same line _ induction =>
      cases data : dataField.isPrefixOf line with
      | false => simpa [data] using induction
      | true =>
          simp only [List.filter_cons, data, if_true, List.map_cons]
          exact .cons (Or.inl rfl) induction
  | returned line _ induction =>
      have also := dataField_returned line
      cases data : dataField.isPrefixOf line with
      | false => simpa [data, also] using induction
      | true =>
          simp only [List.filter_cons, also, data, if_true, List.map_cons]
          exact .cons (Or.inr (dataValue_returned data)) induction

theorem dataValues_widened (widened : Widened '\r' '\n' after narrow wide) :
    List.Forall₂ ValueAlike (dataValues narrow) (dataValues wide) :=
  dataValues_alike (lines_widened widened)

/-! ## What an event adds -/

theorem scanFrom_value (alike : ValueAlike narrow wide) (rest : List Char) (scanner : Scanner) :
    scanFrom scanner (wide ++ '\n' :: rest) = scanFrom scanner (narrow ++ '\n' :: rest) := by
  rcases alike with rfl | rfl
  · rfl
  · rw [List.append_assoc]
    exact scanFrom_append_congr (fun scanner => scanStep_return scanner rest) narrow scanner

theorem scanFrom_last (alike : ValueAlike narrow wide) (scanner : Scanner) :
    scanFrom scanner wide = scanFrom scanner narrow := by
  rcases alike with rfl | rfl
  · rfl
  · have ends := scanFrom_append_congr scanFrom_return narrow scanner
    rwa [List.append_nil] at ends

/-- A carriage return at the end of a line of the data is blank space to the parser. -/
theorem scanFrom_values {narrow wide : List (List Char)} (alike : List.Forall₂ ValueAlike narrow wide)
    (scanner : Scanner) :
    scanFrom scanner (['\n'].intercalate wide) = scanFrom scanner (['\n'].intercalate narrow) := by
  induction alike generalizing scanner with
  | nil => rfl
  | @cons first other narrow wide head rest induction =>
      cases rest with
      | nil =>
          rw [List.intercalate_singleton, List.intercalate_singleton]
          exact scanFrom_last head scanner
      | cons second later =>
          rw [List.intercalate_cons_cons, List.intercalate_cons_cons, List.append_assoc,
            List.append_assoc]
          exact (scanFrom_value head _ scanner).trans
            (scanFrom_append_congr (scanFrom_append_congr induction ['\n']) first scanner)

theorem parse_widened (widened : Widened '\r' '\n' after narrow wide) :
    parse (eventData wide) = parse (eventData narrow) := by
  have scans : scan (eventData wide) = scan (eventData narrow) :=
    scanFrom_values (dataValues_widened widened) .between
  rw [parse, parse, scans]

theorem marker_alike {narrow wide : List (List Char)} (alike : List.Forall₂ ValueAlike narrow wide)
    (marks : ['\n'].intercalate wide = doneMarker) : ['\n'].intercalate narrow = doneMarker := by
  cases alike with
  | nil => exact marks
  | @cons first other narrow wide head rest =>
      cases rest with
      | nil =>
          rw [List.intercalate_singleton] at marks ⊢
          rcases head with rfl | rfl
          · exact marks
          · have lasts := congrArg List.getLast? marks
            rw [List.getLast?_concat] at lasts
            exact absurd lasts (by decide)
      | cons second later =>
          rw [List.intercalate_cons_cons] at marks
          have feed : '\n' ∈ doneMarker := by
            rw [← marks]
            simp
          exact absurd feed (by decide)

/-- The marker without a carriage return is the marker. -/
theorem marker_widened
    (widened : Widened '\r' '\n' after narrow wide) (marks : eventData wide = doneMarker) :
    eventData narrow = doneMarker :=
  marker_alike (dataValues_widened widened) marks

def addEvent (parts : Parts) (frame : List Char) : Except Failure Parts :=
  match parse (eventData frame) with
  | none => .ok parts
  | some chunk => addChunk parts chunk

theorem handle_eq (assembly : Assembly) (frame : List Char) :
    handle assembly frame = (addEvent assembly.parts frame).map fun parts =>
      ⟨parts, assembly.done || decide (eventData frame = doneMarker)⟩ := by
  have empty : parse [] = none := rfl
  have marker : parse doneMarker = none := rfl
  rw [handle, addEvent]
  by_cases silent : eventData frame = []
  · have other : ([] : List Char) ≠ doneMarker := by decide
    rw [if_pos silent, silent, empty, decide_eq_false other, Bool.or_false]
    rfl
  · rw [if_neg silent]
    by_cases marks : eventData frame = doneMarker
    · rw [if_pos marks, marks, marker, decide_eq_true rfl, Bool.or_true]
      rfl
    · rw [if_neg marks, decide_eq_false marks, Bool.or_false]
      cases parse (eventData frame) with
      | none => rfl
      | some chunk => rfl

theorem foldlM_handle (frames : List (List Char)) (assembly : Assembly) :
    frames.foldlM handle assembly = (frames.foldlM addEvent assembly.parts).map fun parts =>
      ⟨parts, assembly.done || frames.any fun frame => decide (eventData frame = doneMarker)⟩ := by
  induction frames generalizing assembly with
  | nil => simp [Except.map, pure, Except.pure]
  | cons frame frames induction =>
      rw [List.foldlM_cons, List.foldlM_cons, handle_eq]
      cases addEvent assembly.parts frame with
      | error failure => rfl
      | ok parts =>
          rw [List.any_cons, ← Bool.or_assoc]
          exact induction ⟨parts, assembly.done || decide (eventData frame = doneMarker)⟩

/-! ## The outcome of a text -/

/-- Some event is the `[DONE]` marker. -/
def marksDone (text : List Char) : Bool :=
  (events text).any fun frame => eventData frame = doneMarker

/-- The chunks of the events settle the outcome: one of them throws, or they leave an
error or a finish reason. -/
def Settled (text : List Char) : Prop :=
  ∀ parts, (events text).foldlM addEvent {} = .ok parts →
    parts.errorBody ≠ none ∨ parts.finishReason ≠ none

theorem assembleText_eq (text : List Char) :
    assembleText text = (events text).foldlM addEvent {} >>= fun parts =>
      conclude ⟨parts, marksDone text⟩ := by
  rw [assembleText, foldlM_handle]
  cases (events text).foldlM addEvent {} with
  | error failure => rfl
  | ok parts => rfl

theorem chunks_widened {frames others : List (List Char)}
    (alike : List.Forall₂ (Widened '\r' '\n' false) frames others) (parts : Parts) :
    others.foldlM addEvent parts = frames.foldlM addEvent parts := by
  induction alike generalizing parts with
  | nil => rfl
  | cons head _ induction =>
      rw [List.foldlM_cons, List.foldlM_cons, addEvent, addEvent, parse_widened head]
      exact bind_congr induction

theorem exists_left_of_forall₂ {α β : Type} {relation : α → β → Prop} {lefts : List α}
    {rights : List β} (related : List.Forall₂ relation lefts rights) {right : β}
    (member : right ∈ rights) : ∃ left ∈ lefts, relation left right := by
  induction related with
  | nil => cases member
  | cons head _ induction =>
      rcases List.mem_cons.mp member with rfl | member
      · exact ⟨_, List.mem_cons_self, head⟩
      · obtain ⟨left, found, both⟩ := induction member
        exact ⟨left, List.mem_cons_of_mem _ found, both⟩

theorem marksDone_widened (widened : Widened '\r' '\n' false narrow wide)
    (marks : marksDone wide = true) : marksDone narrow = true := by
  have alike := events_widened widened
  rw [marksDone, List.any_eq_true] at marks ⊢
  obtain ⟨other, member, same⟩ := marks
  obtain ⟨frame, found, widened⟩ := exists_left_of_forall₂ alike member
  exact ⟨frame, found, decide_eq_true (marker_widened widened (of_decide_eq_true same))⟩

theorem settled_widened (widened : Widened '\r' '\n' false narrow wide) :
    Settled narrow ↔ Settled wide := by
  rw [Settled, Settled, chunks_widened (events_widened widened) {}]

/-- Line endings matter to the marker only, and the marker only where nothing else settles
the outcome. -/
theorem assembleText_eq_iff (widened : Widened '\r' '\n' false narrow wide) :
    assembleText wide = assembleText narrow ↔
      Settled narrow ∨ marksDone wide = marksDone narrow := by
  have same := chunks_widened (events_widened widened) {}
  rw [assembleText_eq, assembleText_eq, same, Settled]
  cases (events narrow).foldlM addEvent {} with
  | error failure => simp [bind, Except.bind]
  | ok parts =>
      simp only [Except.ok.injEq, forall_eq', bind, Except.bind, conclude]
      cases body : parts.errorBody with
      | some error => simp
      | none =>
          by_cases finished : parts.finishReason = none
          · cases marksDone wide <;> cases marksDone narrow <;> simp [finished]
          · simp [finished]

/-! ## Streams of bytes -/

def streamText (bytes : List UInt8) : List Char := textFrom {} bytes

def crlfBytes (bytes : List UInt8) : List UInt8 := crlf 13 10 false bytes

def bareBytes (bytes : List UInt8) : List UInt8 := bare 13 10 false bytes

/-- The stream, or the stream with its line endings written in one of the two ways, has
one outcome for every split into chunks. -/
def SameHoweverFramed (maxChars : Nat) (bytes : List UInt8) : Prop :=
  ∀ chunks : List (List UInt8), chunks.flatten ∈ [bytes, crlfBytes bytes, bareBytes bytes] →
    assembleChatStream maxChars chunks = assembleChatStream maxChars [bytes]

theorem streamText_widened {narrow wide : List UInt8} (widened : Widened 13 10 false narrow wide) :
    Widened '\r' '\n' false (streamText narrow) (streamText wide) :=
  textFrom_widened init_sound (fun impossible => absurd impossible (by decide)) widened

theorem streamText_crlf (bytes : List UInt8) :
    Widened '\r' '\n' false (streamText bytes) (streamText (crlfBytes bytes)) :=
  streamText_widened (widened_crlf false bytes)

theorem streamText_bare (bytes : List UInt8) :
    Widened '\r' '\n' false (streamText (bareBytes bytes)) (streamText bytes) :=
  streamText_widened (bare_widened (by decide) false bytes)

theorem sameHoweverFramed_iff {maxChars : Nat} {bytes : List UInt8}
    (below : (crlfBytes bytes).length ≤ maxChars) :
    SameHoweverFramed maxChars bytes ↔
      assembleText (streamText (crlfBytes bytes)) = assembleText (streamText bytes) ∧
        assembleText (streamText (bareBytes bytes)) = assembleText (streamText bytes) := by
  have bytesBelow := (widened_crlf false bytes).length_le.trans below
  have bareBelow : (bareBytes bytes).length ≤ maxChars :=
    (bare_widened (by decide) false bytes).length_le.trans bytesBelow
  have outcome {framed : List UInt8} (small : framed.length ≤ maxChars)
      (chunks : List (List UInt8)) (same : chunks.flatten = framed) :
      assembleChatStream maxChars chunks = assembleText (streamText framed) := by
    subst same
    exact assembleChatStream_eq chunks small
  have whole (framed : List UInt8) : [framed].flatten = framed := by simp
  constructor
  · intro same
    constructor
    · rw [← outcome below _ (whole _), ← outcome bytesBelow _ (whole _)]
      exact same _ (by simp)
    · rw [← outcome bareBelow _ (whole _), ← outcome bytesBelow _ (whole _)]
      exact same _ (by simp)
  · intro both chunks framed
    rw [outcome bytesBelow _ (whole _)]
    rcases List.mem_cons.mp framed with same | framed
    · exact outcome bytesBelow chunks same
    rcases List.mem_cons.mp framed with same | framed
    · rw [outcome below chunks same, both.1]
    · rw [outcome bareBelow chunks (List.mem_singleton.mp framed), both.2]

def maxStreamChars : Nat := 8000000

/-- The marker with the end of its line, and no blank line after it. -/
def markerLine : List UInt8 := [100, 97, 116, 97, 58, 32, 91, 68, 79, 78, 69, 93, 10]

end CityPods.Gateway.ChatStream
