import CityPods.Gateway.ChatStream

/-! # Frames of a stream

The loop that reads a stream handles the frames of its whole text, in order, however
the bytes were cut.
-/

namespace CityPods.Gateway.ChatStream

open Foundation.Utf8Stream

/-! ## Separators -/

variable {text rest : List Char}

theorem afterEnding_append (ends : afterEnding text = some rest)
    (more : List Char) : afterEnding (text ++ more) = some (rest ++ more) := by
  unfold afterEnding at ends
  split at ends
  · cases ends
    rfl
  · cases ends
    rfl
  · cases ends

variable {more : List Char}

theorem afterEnding_open (still : afterEnding text = none)
    (ends : afterEnding (text ++ more) = some rest) :
    text.length ≤ 1 ∧ (text = [] ∨ text = ['\r']) ∧
      ∃ char ∈ more.head?, char = '\n' ∨ char = '\r' := by
  match text with
  | [] =>
      refine ⟨by simp, Or.inl rfl, ?_⟩
      unfold afterEnding at ends
      split at ends
      · exact ⟨'\n', by simp_all⟩
      · exact ⟨'\r', by simp_all⟩
      · cases ends
  | [char] =>
      unfold afterEnding at ends
      split at ends
      · simp_all [afterEnding]
      · simp_all
      · cases ends
  | first :: second :: later =>
      unfold afterEnding at ends
      split at ends
      · simp_all [afterEnding]
      · simp_all [afterEnding]
      · cases ends

theorem afterEnding_eq (ends : afterEnding text = some rest) :
    text = '\n' :: rest ∨ text = '\r' :: '\n' :: rest := by
  unfold afterEnding at ends
  split at ends
  · cases ends
    exact Or.inl rfl
  · cases ends
    exact Or.inr rfl
  · cases ends

theorem afterSeparator_append (ends : afterSeparator text = some rest)
    (more : List Char) : afterSeparator (text ++ more) = some (rest ++ more) := by
  obtain ⟨middle, first, second⟩ := Option.bind_eq_some_iff.mp ends
  rw [afterSeparator, afterEnding_append first, Option.bind_some, afterEnding_append second]

theorem afterSeparator_open (still : afterSeparator text = none)
    (ends : afterSeparator (text ++ more) = some rest) :
    cutFrame text.tail = none ∧ ∃ char ∈ more.head?, char = '\n' ∨ char = '\r' := by
  obtain ⟨middle, first, second⟩ := Option.bind_eq_some_iff.mp ends
  cases begun : afterEnding text with
  | none =>
      obtain ⟨_, rfl | rfl, next⟩ := afterEnding_open begun first
      · exact ⟨rfl, next⟩
      · exact ⟨rfl, next⟩
  | some later =>
      rw [afterEnding_append begun] at first
      obtain rfl := Option.some.inj first
      rw [afterSeparator, begun, Option.bind_some] at still
      obtain ⟨_, short, next⟩ := afterEnding_open still second
      refine ⟨?_, next⟩
      rcases afterEnding_eq begun with rfl | rfl <;> rcases short with rfl | rfl <;> rfl

variable {frame : List Char}

theorem cutFrame_append (cut : cutFrame text = some (frame, rest))
    (more : List Char) : cutFrame (text ++ more) = some (frame, rest ++ more) := by
  induction text generalizing frame with
  | nil => cases cut
  | cons char later induction =>
      rw [List.cons_append, cutFrame]
      rw [cutFrame] at cut
      cases separator : afterSeparator (char :: later) with
      | some behind =>
          rw [separator] at cut
          cases cut
          rw [← List.cons_append, afterSeparator_append separator]
      | none =>
          simp only [separator] at cut
          obtain ⟨⟨start, end_⟩, found, same⟩ := Option.map_eq_some_iff.mp cut
          cases same
          cases whole : afterSeparator (char :: (later ++ more)) with
          | some behind =>
              have hidden := (afterSeparator_open separator whole).1
              rw [List.tail_cons, found] at hidden
              cases hidden
          | none =>
              dsimp only
              rw [induction found]
              rfl

variable {char : Char}

theorem cutFrame_cons_eq_none :
    cutFrame (char :: rest) = none ↔ afterSeparator (char :: rest) = none ∧ cutFrame rest = none := by
  rw [cutFrame]
  cases afterSeparator (char :: rest) with
  | none => simp
  | some later => simp

/-- Only a line ending completes a separator. -/
theorem cutFrame_open {last : Char} (whole : cutFrame text = none)
    (other : last ≠ '\n' ∧ last ≠ '\r') : cutFrame (text ++ [last]) = none := by
  have closed (start : List Char) (still : afterSeparator start = none) :
      afterSeparator (start ++ [last]) = none := by
    by_contra found
    obtain ⟨rest, ends⟩ := Option.ne_none_iff_exists'.mp found
    obtain ⟨_, char, next, kind⟩ := afterSeparator_open still ends
    obtain rfl := Option.some.inj next
    exact kind.elim other.1 other.2
  induction text with
  | nil => exact cutFrame_cons_eq_none.mpr ⟨closed [] rfl, rfl⟩
  | cons char later induction =>
      obtain ⟨here, behind⟩ := cutFrame_cons_eq_none.mp whole
      exact cutFrame_cons_eq_none.mpr ⟨closed (char :: later) here, induction behind⟩

theorem cutFrame_length (cut : cutFrame text = some (frame, rest)) :
    rest.length < text.length := by
  induction text generalizing frame with
  | nil => cases cut
  | cons char later induction =>
      rw [cutFrame] at cut
      cases separator : afterSeparator (char :: later) with
      | some behind =>
          rw [separator] at cut
          cases cut
          obtain ⟨middle, first, second⟩ := Option.bind_eq_some_iff.mp separator
          have firstLength := afterEnding_eq first
          have secondLength := afterEnding_eq second
          rcases firstLength with same | same <;> rcases secondLength with also | also <;>
            simp [same, also]
          all_goals omega
      | none =>
          simp only [separator] at cut
          obtain ⟨⟨start, behind⟩, found, same⟩ := Option.map_eq_some_iff.mp cut
          cases same
          have shorter := induction found
          rw [List.length_cons]
          omega

/-! ## The frames of a text -/

inductive Frames : List Char → List (List Char) → List Char → Prop
  | open (text : List Char) : cutFrame text = none → Frames text [] text
  | cut {text frame rest : List Char} {frames : List (List Char)} {left : List Char} :
      cutFrame text = some (frame, rest) → Frames rest frames left →
        Frames text (frame :: frames) left

variable {left : List Char} {first second : List (List Char)}

theorem Frames.append {later : List Char}
    (begun : Frames text first left) (continued : Frames (left ++ more) second later) :
    Frames (text ++ more) (first ++ second) later := by
  induction begun with
  | «open» => exact continued
  | cut cut _ induction => exact .cut (cutFrame_append cut more) (induction continued)

variable {frames : List (List Char)}

theorem Frames.left_open (begun : Frames text frames left) : cutFrame left = none := by
  induction begun with
  | «open» _ whole => exact whole
  | cut _ _ induction => exact induction

theorem Frames.unique {other : List Char}
    (begun : Frames text first left) (again : Frames text second other) :
    first = second ∧ left = other := by
  induction begun generalizing second with
  | «open» _ whole =>
      cases again with
      | «open» => exact ⟨rfl, rfl⟩
      | cut cut => cases whole.symm.trans cut
  | cut cut _ induction =>
      cases again with
      | «open» _ whole => cases whole.symm.trans cut
      | cut also rest =>
          cases cut.symm.trans also
          obtain ⟨same, left⟩ := induction rest
          exact ⟨congrArg _ same, left⟩

variable {buffer : List Char}

theorem drain_eq (begun : Frames buffer frames left) (steps : Nat) (enough : buffer.length ≤ steps)
    (assembly : Assembly) :
    drain steps assembly buffer =
      (frames.foldlM handle assembly).map fun assembly => (assembly, left) := by
  induction begun generalizing steps assembly with
  | «open» text whole =>
      cases steps with
      | zero => rfl
      | succ steps =>
          rw [drain, whole]
          rfl
  | cut cut _ induction =>
      have shorter := cutFrame_length cut
      cases steps with
      | zero => omega
      | succ steps =>
          rw [drain, cut, List.foldlM_cons]
          dsimp only
          cases handle assembly _ with
          | error failure => rfl
          | ok next => exact induction steps (by omega) next

/-- Cut a text into frames. Each takes a character at least. -/
def cutAll : Nat → List Char → List (List Char) × List Char
  | 0, text => ([], text)
  | steps + 1, text =>
      match cutFrame text with
      | none => ([], text)
      | some (frame, rest) => (frame :: (cutAll steps rest).1, (cutAll steps rest).2)

/-- The frames of a whole text; the last one needs no separator. -/
def events (text : List Char) : List (List Char) :=
  (cutAll text.length text).1 ++ [(cutAll text.length text).2]

theorem cutAll_frames (steps : Nat) (enough : text.length ≤ steps) :
    Frames text (cutAll steps text).1 (cutAll steps text).2 := by
  induction steps generalizing text with
  | zero =>
      obtain rfl := List.length_eq_zero_iff.mp (Nat.le_zero.mp enough)
      exact .open [] rfl
  | succ steps induction =>
      rw [cutAll]
      split
      next whole => exact .open text whole
      next frame rest cut =>
        have shorter := cutFrame_length cut
        exact .cut cut (induction (by omega))

theorem Frames.events_eq (begun : Frames text frames left) : events text = frames ++ [left] := by
  obtain ⟨same, rest⟩ := (cutAll_frames text.length (le_refl _)).unique begun
  rw [events, same, rest]

theorem Frames.events_append (begun : Frames text frames left) (more : List Char) :
    events (text ++ more) = frames ++ events (left ++ more) := by
  have continued := cutAll_frames (left ++ more).length (le_refl _)
  rw [(begun.append continued).events_eq, events, List.append_assoc]

/-! ## Whole streams -/

/-- The outcome of a text that arrives at once. -/
def assembleText (text : List Char) : Except Failure Body :=
  (events text).foldlM handle {} >>= conclude

theorem mem_of_mem_line {line : List Char} (found : line ∈ frame.splitOn '\n')
    (member : char ∈ line) : char ∈ frame := by
  induction frame generalizing line with
  | nil =>
      rw [List.splitOn_nil, List.mem_singleton] at found
      exact found ▸ member
  | cons first rest induction =>
      rw [List.splitOn_cons_eq_if_modifyHead] at found
      split at found
      · rcases List.mem_cons.mp found with rfl | found
        · cases member
        · exact List.mem_cons_of_mem _ (induction found member)
      · obtain ⟨start, later, lines⟩ := List.exists_cons_of_ne_nil (List.splitOn_ne_nil '\n' rest)
        rw [lines, List.modifyHead_cons] at found
        rcases List.mem_cons.mp found with rfl | found
        · rcases List.mem_cons.mp member with rfl | member
          · exact List.mem_cons_self
          · exact List.mem_cons_of_mem _ (induction (lines ▸ List.mem_cons_self) member)
        · exact List.mem_cons_of_mem _ (induction (lines ▸ List.mem_cons_of_mem _ found) member)

theorem eventData_blank (blank : frame.all isBlank) : eventData frame = [] := by
  have noData : ∀ line ∈ frame.splitOn '\n', ¬ dataField.isPrefixOf line := by
    intro line found data
    have first : 'd' ∈ line := (List.isPrefixOf_iff_prefix.mp data).subset (by decide)
    exact absurd (List.all_eq_true.mp blank 'd' (mem_of_mem_line found first)) (by decide)
  rw [eventData, List.filter_eq_nil_iff.mpr noData]
  rfl

theorem handleRest_eq (assembly : Assembly) (buffer : List Char) :
    handleRest assembly buffer = handle assembly buffer := by
  rw [handleRest]
  split
  next blank => rw [handle, if_pos (eventData_blank blank)]
  next => rfl

theorem finish_open {decoder : Decoder} (whole : cutFrame buffer = none) :
    cutFrame (buffer ++ finish decoder) = none := by
  rw [finish]
  split
  · rwa [List.append_nil]
  · exact cutFrame_open whole (by decide)

variable {maxChars : Nat}

theorem readChunk_eq {reading : Reading} {chunk : List UInt8}
    (begun : Frames (reading.buffer ++ (decode reading.decoder chunk).2) frames left)
    (below : reading.size + chunk.length ≤ maxChars) :
    readChunk maxChars reading chunk =
      (frames.foldlM handle reading.assembly).map fun assembly =>
        ⟨(decode reading.decoder chunk).1, left, reading.size + chunk.length, assembly⟩ := by
  simp only [readChunk, if_neg (not_lt.mpr below), drain_eq begun _ (le_refl _)]
  cases frames.foldlM handle reading.assembly with
  | error failure => rfl
  | ok assembly => rfl

/-- What comes of a stream from some point of its reading. -/
theorem readChunks_eq (chunks : List (List UInt8)) (reading : Reading)
    (whole : cutFrame reading.buffer = none)
    (below : reading.size + chunks.flatten.length ≤ maxChars) :
    (do
      let reading ← chunks.foldlM (readChunk maxChars) reading
      let assembly ← handleRest reading.assembly (reading.buffer ++ finish reading.decoder)
      conclude assembly) =
    (events (reading.buffer ++ textFrom reading.decoder chunks.flatten)).foldlM handle
      reading.assembly >>= conclude := by
  induction chunks generalizing reading with
  | nil =>
      have last : Frames (reading.buffer ++ finish reading.decoder) [] _ := .open _ (finish_open whole)
      have single : events (reading.buffer ++ textFrom reading.decoder []) =
          [reading.buffer ++ finish reading.decoder] := last.events_eq
      simp only [List.foldlM_nil, pure_bind, handleRest_eq, List.flatten_nil, single,
        List.foldlM_cons, bind_pure]
  | cons chunk chunks induction =>
      have decoded := textFrom_append reading.decoder chunk chunks.flatten
      have begun := cutAll_frames _ (le_refl (reading.buffer ++ (decode reading.decoder chunk).2).length)
      rw [List.flatten_cons, List.length_append] at below
      rw [List.flatten_cons, decoded, ← List.append_assoc, begun.events_append, List.foldlM_append,
        List.foldlM_cons, readChunk_eq begun (by omega)]
      cases (cutAll _ _).1.foldlM handle reading.assembly with
      | error failure => rfl
      | ok assembly => exact induction _ begun.left_open (by dsimp only; omega)

theorem assembleChatStream_eq (chunks : List (List UInt8))
    (below : chunks.flatten.length ≤ maxChars) :
    assembleChatStream maxChars chunks = assembleText (textFrom {} chunks.flatten) :=
  readChunks_eq chunks {} rfl (by simpa using below)

end CityPods.Gateway.ChatStream
