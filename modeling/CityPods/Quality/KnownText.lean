import Mathlib.Algebra.Order.Ring.Rat
import Mathlib.Data.List.Sort
import Mathlib.Data.Nat.Cast.Order.Ring
import CityPods.Foundation.Texts

/-! # Provider text

A provider's transcript as alignment sections. Its time markers, in brackets or
alone on a line, cut the text into spans; a span is cleaned of everything that
is not spoken.
-/

namespace CityPods.Quality

open Foundation
open Foundation.Whitespace (isSpace)

/-! ## Patterns -/

/-- A pattern: what it matches at the head of a text, and how many characters. -/
abbrev Pattern (α : Type) := List Char → Option (α × Nat)

section

variable {α : Type}

structure Match (α : Type) where
  start : Nat
  stop : Nat
  value : α
  deriving DecidableEq

/-- The matches of a pattern from left to right; the first `skip` characters are inside the
match before. -/
def finditer (pattern : Pattern α) : (skip place : Nat) → List Char → List (Match α)
  | _, _, [] => []
  | skip + 1, place, _ :: rest => finditer pattern skip (place + 1) rest
  | 0, place, char :: rest =>
      match pattern (char :: rest) with
      | some (value, length) =>
          ⟨place, place + length, value⟩ :: finditer pattern (length - 1) (place + 1) rest
      | none => finditer pattern 0 (place + 1) rest

/-- Each match becomes one space. -/
def sub (pattern : Pattern α) : (skip : Nat) → List Char → List Char
  | _, [] => []
  | skip + 1, _ :: rest => sub pattern skip rest
  | 0, char :: rest =>
      match pattern (char :: rest) with
      | some (_, length) => ' ' :: sub pattern (length - 1) rest
      | none => char :: sub pattern 0 rest

end

/-! ## Clock times -/

section

-- The decimal value of a digit of any script.
variable (digit : Char → Option Nat)

def oneOrTwoDigits : List Char → List (Nat × List Char)
  | first :: second :: rest =>
      match digit first, digit second with
      | some tens, some ones => [(10 * tens + ones, rest), (tens, second :: rest)]
      | some ones, none => [(ones, second :: rest)]
      | none, _ => []
  | [only] => (digit only).toList.map fun ones => (ones, [])
  | [] => []

def twoDigits : List Char → Option (Nat × List Char)
  | first :: second :: rest =>
      match digit first, digit second with
      | some tens, some ones => some (10 * tens + ones, rest)
      | _, _ => none
  | _ => none

def colonAndTwoDigits : List Char → Option (Nat × List Char)
  | ':' :: rest => twoDigits digit rest
  | _ => none

/-- `\d{1,2}:\d{2}(?::\d{2})?`: the readings in seconds, in the order in which they are tried,
each with what follows. -/
def clocks (text : List Char) : List (Nat × List Char) :=
  (oneOrTwoDigits digit text).flatMap fun first =>
    match colonAndTwoDigits digit first.2 with
    | none => []
    | some second =>
        ((colonAndTwoDigits digit second.2).toList.map fun third =>
          ((first.1 * 60 + second.1) * 60 + third.1, third.2)) ++
        [(first.1 * 60 + second.1, second.2)]

/-- `\[(…)\]` -/
def bracketTimestamp : Pattern Nat
  | '[' :: rest =>
      ((clocks digit rest).find? fun clock => clock.2.head? = some ']').map fun clock =>
        (clock.1, rest.length - clock.2.length + 2)
  | _ => none

/-- `\[?…\]?` -/
def inlineTimestamp (text : List Char) : Option (Unit × Nat) :=
  let inner := if text.head? = some '[' then text.tail else text
  (clocks digit inner).head?.map fun clock =>
    ((), text.length - clock.2.length + if clock.2.head? = some ']' then 1 else 0)

/-- A line that is a time and nothing else. -/
def bareTimestamp (line : List Char) : Option Nat :=
  let blank := fun char => decide (char = ' ' ∨ char = '\t')
  ((clocks digit (line.dropWhile blank)).find? fun clock => clock.2.all blank).map Prod.fst

def bareTimestampLines : (place : Nat) → List (List Char) → List (Match Nat)
  | _, [] => []
  | place, line :: lines =>
      ((bareTimestamp digit line).toList.map fun time => ⟨place, place + line.length, time⟩) ++
        bareTimestampLines (place + line.length + 1) lines

/-! ## Cleaning -/

/-- `\[[^\]\r\n]*\]` -/
def bracketAnnotation : Pattern Unit
  | '[' :: rest =>
      let inner := rest.takeWhile fun char => decide (char ∉ [']', '\r', '\n'])
      if (rest.drop inner.length).head? = some ']' then some ((), inner.length + 2) else none
  | _ => none

/-- `\s+` -/
def spaces : Pattern Unit := fun text =>
  let run := text.takeWhile isSpace
  if run = [] then none else some ((), run.length)

def isLineBreak (char : Char) : Bool :=
  char ∈ ['\n', '\r', '\x0b', '\x0c', '\x1c', '\x1d', '\x1e', '\x85', '\u2028', '\u2029']

def splitlines : List Char → List (List Char)
  | [] => []
  | '\r' :: '\n' :: rest => [] :: splitlines rest
  | char :: rest =>
      if isLineBreak char then [] :: splitlines rest
      else
        match splitlines rest with
        | [] => [[char]]
        | line :: lines => (char :: line) :: lines

def stripText (text : List Char) : List Char :=
  ((text.dropWhile isSpace).reverse.dropWhile isSpace).reverse

/-- Without a leading `[A-Z][A-Z .\-']{1,60}:\s*`. -/
def dropSpeaker : List Char → List Char
  | first :: rest =>
      let name := rest.takeWhile fun char => char.isUpper || decide (char ∈ [' ', '.', '-', '\''])
      let after := rest.drop name.length
      if first.isUpper ∧ 1 ≤ name.length ∧ name.length ≤ 60 ∧ after.head? = some ':' then
        after.tail.dropWhile isSpace
      else first :: rest
  | [] => []

def minutesHeadings : List (List Char) :=
  ["AGENDA", "THE AGENDA", "CALL TO ORDER", "ROLL CALL", "CONSENT AGENDA", "ADJOURNMENT"].map
    String.toList

/-- What is spoken in a line, if anything. -/
def cleanLine (line : List Char) : Option (List Char) :=
  let value := stripText (sub (inlineTimestamp digit) 0 (sub bracketAnnotation 0 line))
  if value = [] then none
  else
    let value := stripText (dropSpeaker value)
    if value ∈ minutesHeadings then none else some value

def joinLines (lines : List (List Char)) : List Char := [' '].intercalate lines

def cleanProviderText (text : List Char) : List Char :=
  let lines := (splitlines text).filterMap (cleanLine digit)
  if lines ≠ [] then joinLines lines
  else
    let fallback := joinLines ((splitlines text).map (sub bracketAnnotation 0))
    stripText (sub spaces 0 (sub (inlineTimestamp digit) 0 fallback))

/-! ## Sections -/

structure Section where
  start : ℚ
  stop : Option ℚ
  text : List Char
  deriving DecidableEq

/-- By where they start, then by where they end, then by time. -/
def inTextOrder (first second : Match Nat) : Prop :=
  first.start < second.start ∨ first.start = second.start ∧
    (first.stop < second.stop ∨ first.stop = second.stop ∧ first.value ≤ second.value)

instance : DecidableRel inTextOrder := fun _ _ => inferInstanceAs (Decidable (_ ∨ _))

/-- `text.replace("\r\n", "\n")` -/
def unixLines : List Char → List Char
  | '\r' :: '\n' :: rest => '\n' :: unixLines rest
  | char :: rest => char :: unixLines rest
  | [] => []

def markers (source : List Char) : List (Match Nat) :=
  (finditer (bracketTimestamp digit) 0 0 source ++
    bareTimestampLines digit 0 (source.splitOn '\n')).insertionSort inTextOrder

/-- What follows a marker, up to the next one. -/
def bodyAfter (source : List Char) (marker : Match Nat) (later : List (Match Nat)) : List Char :=
  (source.take ((later.head?.map Match.start).getD source.length)).drop marker.stop

def rawSections (source : List Char) (sourceEnd : Option ℚ) : List (Match Nat) → List Section
  | [] => []
  | marker :: later =>
      let start : ℚ := marker.value
      let nextStart : Option ℚ := (later.head?.map fun next => (next.value : ℚ)) <|> sourceEnd
      if nextStart.any fun next => decide (next ≤ start) then rawSections source sourceEnd later
      else
        let body := cleanProviderText digit (bodyAfter source marker later)
        (if body ≠ [] then [⟨start, nextStart, body⟩] else []) ++
          rawSections source sourceEnd later

/-- A duration that is missing or zero is unknown. -/
def knownEnd (sourceDuration duration : Option ℚ) : Option ℚ :=
  sourceDuration.filter (fun seconds => decide (seconds ≠ 0)) <|> duration

def providerSections (text : List Char) (duration sourceDuration : Option ℚ) : List Section :=
  let sourceEnd := knownEnd sourceDuration duration
  let source := unixLines text
  if markers digit source ≠ [] then
    rawSections digit source sourceEnd (markers digit source)
  else
    let body := cleanProviderText digit text
    if body ≠ [] then [⟨0, sourceEnd, body⟩] else []

/-! ## Spans -/

/-- A marker with the text up to the next marker, and the time of that one. -/
structure Span where
  time : Nat
  next : Option Nat
  body : List Char

def spansFrom (source : List Char) : List (Match Nat) → List Span
  | [] => []
  | marker :: later =>
      ⟨marker.value, later.head?.map Match.value, bodyAfter source marker later⟩ ::
        spansFrom source later

def spans (text : List Char) : List Span :=
  if markers digit (unixLines text) ≠ [] then
    spansFrom (unixLines text) (markers digit (unixLines text))
  else [⟨0, none, text⟩]

/-- The marker of the span is earlier than the next one. -/
def Span.Open (span : Span) : Prop := ∀ next ∈ span.next, span.time < next

instance : DecidablePred Span.Open := fun span =>
  inferInstanceAs (Decidable (∀ next ∈ span.next, _))

def Span.cleaned (span : Span) : List Char := cleanProviderText digit span.body

def Span.section_ (sourceEnd : ℚ) (span : Span) : Section :=
  ⟨span.time, some ((span.next.map fun next => (next : ℚ)).getD sourceEnd), span.cleaned digit⟩

structure Windows (sections : List Section) : Prop where
  forward : ∀ one ∈ sections, ∃ stop, one.stop = some stop ∧ one.start < stop
  ordered : sections.Pairwise fun first second =>
    ∃ stop, first.stop = some stop ∧ stop ≤ second.start

variable {digit}

theorem map_time_spansFrom (source : List Char) (markers : List (Match Nat)) :
    (spansFrom source markers).map Span.time = markers.map Match.value := by
  induction markers with
  | nil => rfl
  | cons marker later induction => rw [spansFrom, List.map_cons, List.map_cons, induction]

variable {source : List Char}

theorem spansFrom_ordered {markers : List (Match Nat)}
    (inOrder : markers.Pairwise fun first second => first.value ≤ second.value) :
    (spansFrom source markers).Pairwise fun first second =>
      ∃ next, first.next = some next ∧ next ≤ second.time := by
  induction markers with
  | nil => exact List.Pairwise.nil
  | cons marker later induction =>
      have parts := List.pairwise_cons.mp inOrder
      refine List.Pairwise.cons (fun span listed => ?_) (induction parts.2)
      cases later with
      | nil => cases listed
      | cons next rest =>
          have timed : span.time ∈ (next :: rest).map Match.value := by
            rw [← map_time_spansFrom source]
            exact List.mem_map_of_mem listed
          refine ⟨next.value, rfl, ?_⟩
          rcases List.mem_cons.mp timed with same | further
          · exact same.ge
          · obtain ⟨other, member, same⟩ := List.mem_map.mp further
            rw [← same]
            exact List.rel_of_pairwise_cons parts.2 member

variable {sourceEnd : ℚ}

theorem rawSections_spansFrom {markers : List (Match Nat)}
    (after : ∀ marker ∈ markers, (marker.value : ℚ) < sourceEnd) :
    rawSections digit source (some sourceEnd) markers =
      ((spansFrom source markers).filter fun span =>
        span.Open ∧ span.cleaned digit ≠ []).map (Span.section_ digit sourceEnd) := by
  induction markers with
  | nil => rfl
  | cons marker later induction =>
      have rest := induction fun other listed => after other (List.mem_cons_of_mem _ listed)
      have here := after marker List.mem_cons_self
      rw [rawSections, spansFrom, List.filter_cons, rest]
      cases later with
      | nil =>
          have open_ : Span.Open ⟨marker.value, none, bodyAfter source marker []⟩ :=
            fun next listed => by cases listed
          by_cases spoken : cleanProviderText digit (bodyAfter source marker []) = []
          · simp [spoken, spansFrom, Span.cleaned]
          · simp [spoken, here, spansFrom, Span.cleaned, open_, Span.section_]
      | cons next further =>
          have open_ : Span.Open ⟨marker.value, some next.value,
              bodyAfter source marker (next :: further)⟩ ↔ marker.value < next.value := by
            simp [Span.Open]
          by_cases earlier : marker.value < next.value
          · by_cases spoken :
              cleanProviderText digit (bodyAfter source marker (next :: further)) = []
            · simp [spoken, Span.cleaned]
            · simp [spoken, earlier, Span.cleaned, open_, Span.section_]
          · have closed : (next.value : ℚ) ≤ marker.value := Nat.cast_le.mpr (not_lt.mp earlier)
            simp [earlier, open_, closed]

theorem windows_of_spans {spans : List Span} (ordered : spans.Pairwise fun first second =>
      ∃ next, first.next = some next ∧ next ≤ second.time)
    (after : ∀ span ∈ spans, (span.time : ℚ) < sourceEnd) :
    Windows ((spans.filter fun span => span.Open ∧ span.cleaned digit ≠ []).map
      (Span.section_ digit sourceEnd)) where
  forward one listed := by
    obtain ⟨span, member, rfl⟩ := List.mem_map.mp listed
    obtain ⟨among, kept⟩ := List.mem_filter.mp member
    refine ⟨_, rfl, ?_⟩
    cases next : span.next with
    | none => simpa [Span.section_, next] using after span among
    | some stop =>
        have open_ := (of_decide_eq_true kept).1 stop next
        simpa [Span.section_, next] using open_
  ordered := by
    refine List.pairwise_map.mpr (List.Pairwise.imp ?_ (ordered.sublist List.filter_sublist))
    rintro first second ⟨next, found, before⟩
    refine ⟨(next : ℚ), by simp [Span.section_, found], ?_⟩
    simpa [Span.section_] using before

/-- With a known end, the sections of a text are its spans that are open and say something, each
once and in order. -/
theorem providerSections_spans {text : List Char} {duration sourceDuration : Option ℚ}
    {sourceEnd : ℚ} (known : knownEnd sourceDuration duration = some sourceEnd)
    (inOrder : (spans digit text).Pairwise fun first second => first.time ≤ second.time)
    (after : ∀ last ∈ (spans digit text).getLast?, (last.time : ℚ) < sourceEnd) :
    providerSections digit text duration sourceDuration =
        ((spans digit text).filter fun span => span.Open ∧ span.cleaned digit ≠ []).map
          (Span.section_ digit sourceEnd) ∧
      Windows (providerSections digit text duration sourceDuration) ∧
      (providerSections digit text duration sourceDuration).map Section.text =
        (((spans digit text).filter fun span => span.Open).map (Span.cleaned digit)).filter
          (· ≠ []) := by
  have before : ∀ span ∈ spans digit text, (span.time : ℚ) < sourceEnd := by
    intro span listed
    obtain ⟨last, final⟩ : ∃ last, (spans digit text).getLast? = some last := by
      rw [← Option.isSome_iff_exists, List.getLast?_isSome]
      exact List.ne_nil_of_mem listed
    obtain ⟨earlier, split_⟩ := List.getLast?_eq_some_iff.mp final
    rw [split_] at listed inOrder
    rcases List.mem_append.mp listed with old | new
    · have latest := (List.pairwise_append.mp inOrder).2.2 span old last List.mem_cons_self
      exact lt_of_le_of_lt (Nat.cast_le.mpr latest) (after last final)
    · rw [List.mem_singleton.mp new]
      exact after last final
  have ordered : (spans digit text).Pairwise fun first second =>
      ∃ next, first.next = some next ∧ next ≤ second.time := by
    unfold spans at inOrder ⊢
    split at inOrder
    · rw [if_pos ‹_›]
      rw [← List.pairwise_map (f := Span.time) (R := (· ≤ ·)), map_time_spansFrom,
        List.pairwise_map] at inOrder
      exact spansFrom_ordered inOrder
    · rw [if_neg ‹_›]
      exact List.pairwise_singleton _ _
  have same : providerSections digit text duration sourceDuration =
      ((spans digit text).filter fun span => span.Open ∧ span.cleaned digit ≠ []).map
        (Span.section_ digit sourceEnd) := by
    unfold providerSections spans at *
    rw [known]
    split
    · rename_i marked
      rw [if_pos marked] at before ⊢
      refine rawSections_spansFrom fun marker listed => ?_
      have timed : marker.value ∈ (spansFrom (unixLines text)
          (markers digit (unixLines text))).map Span.time := by
        rw [map_time_spansFrom]
        exact List.mem_map_of_mem listed
      obtain ⟨span, member, time⟩ := List.mem_map.mp timed
      rw [← time]
      exact before span member
    · rename_i unmarked
      rw [if_neg unmarked]
      by_cases spoken : cleanProviderText digit text = []
      · simp [spoken, Span.cleaned]
      · simp [spoken, Span.cleaned, Span.Open, Span.section_]
  refine ⟨same, same ▸ windows_of_spans ordered before, ?_⟩
  rw [same, List.map_map, List.filter_map, List.filter_filter]
  simp only [Function.comp_def, Span.section_, Bool.decide_and, Bool.and_comm]

end

def asciiDigit (char : Char) : Option Nat :=
  if char.isDigit then some (char.toNat - '0'.toNat) else none

def openedAndAdjourned : List Char :=
  "[0:10] Council opens.\r\n 0:20 \r\nROLL CALL\r\nSO MOVED [0:30]".toList

theorem providerSections_spans_adjourned :
    providerSections asciiDigit openedAndAdjourned none (some 40) =
        ((spans asciiDigit openedAndAdjourned).filter fun span =>
          span.Open ∧ span.cleaned asciiDigit ≠ []).map (Span.section_ asciiDigit 40) ∧
      Windows (providerSections asciiDigit openedAndAdjourned none (some 40)) ∧
      (providerSections asciiDigit openedAndAdjourned none (some 40)).map Section.text =
        (((spans asciiDigit openedAndAdjourned).filter fun span => span.Open).map
          (Span.cleaned asciiDigit)).filter (· ≠ []) :=
  providerSections_spans (by decide +kernel) (by decide +kernel) (by decide +kernel)

/-- Of two paragraphs at one time, the first one is lost. -/
theorem paragraph_lost :
    ((spans asciiDigit "[0:10] Hello.\n[0:10] World.".toList).map (Span.cleaned asciiDigit) =
        ["Hello.".toList, "World.".toList]) ∧
      (spans asciiDigit "[0:10] Hello.\n[0:10] World.".toList).Pairwise
        (fun first second => first.time ≤ second.time) ∧
      (providerSections asciiDigit "[0:10] Hello.\n[0:10] World.".toList (some 20) none).map
        Section.text = ["World.".toList] := by
  decide +kernel

end CityPods.Quality
