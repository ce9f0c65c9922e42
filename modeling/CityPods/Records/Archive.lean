import CityPods.Foundation.Checked
import CityPods.Foundation.JsonDecoder
import CityPods.Foundation.Loop

/-! # The record archive

The file of a source's episode records, read whole, or one record at a time by
a scanner that decodes the values in it. A text that is not read yet stands for
the text with an index.
-/

namespace CityPods.Records

open Foundation
open Foundation.JsonDecoder (Value Name nameOf dictOf scanOnce decode)

inductive ArchiveError
  /-- invalid record archive: expected the character -/
  | expected (character : Char)
  /-- invalid record archive: missing closing brace -/
  | missingBrace
  /-- invalid record archive: object field name is not a string -/
  | fieldName
  /-- invalid record archive: missing episodes closing brace -/
  | missingEpisodesBrace
  /-- What the value decoder raises. -/
  | decode

def episodesField : Name := nameOf ['e', 'p', 'i', 's', 'o', 'd', 'e', 's']

/-- The value of the episodes field; of no file, and of another value, an empty map. -/
def loadRecords (limit : Nat) (file : Option (List Char)) : Except ArchiveError Value :=
  match file with
  | none => .ok (.object [])
  | some text =>
      match decode limit text with
      | none => .error .decode
      | some (.object members) =>
          .ok (((dictOf members).get? episodesField).getD (.object []))
      | some _ => .ok (.object [])

def skipWhitespace (text : List Char) : List Char := text.dropWhile Whitespace.isSpace

def requireCharacter (character : Char) (text : List Char) : Except ArchiveError (List Char) :=
  match skipWhitespace text with
  | [] => .error (.expected character)
  | head :: rest => if head = character then .ok rest else .error (.expected character)

def rawDecode (limit : Nat) (text : List Char) : Except ArchiveError (Value × List Char) :=
  match scanOnce limit text with
  | none => .error .decode
  | some read => .ok read

/-- A comma leads to the next member; else the brace has to follow. -/
def afterMember (text : List Char) : Except ArchiveError (Option (List Char)) :=
  match skipWhitespace text with
  | ',' :: rest => .ok (some rest)
  | rest => (requireCharacter '}' rest).map fun _ => none

/-- Where the reader stands: before a member of the archive, or before one of the
episodes, with the records it has yielded. -/
inductive ArchiveReader
  | members (text : List Char)
  | episodes (text : List Char) (yielded : List Value)

structure ArchiveReading where
  yielded : List Value
  error : Option ArchiveError

/-- One pass of the outer loop, which returns or goes on. -/
def memberPass (limit : Nat) (text : List Char) : Except ArchiveError (Option ArchiveReader) :=
  match skipWhitespace text with
  | [] => .error .missingBrace
  | '}' :: _ => .ok none
  | start => do
      let (field, rest) ← rawDecode limit start
      match field with
      | .string name =>
          let rest ← requireCharacter ':' rest
          if name ≠ episodesField then
            let (_, rest) ← rawDecode limit (skipWhitespace rest)
            let next ← afterMember rest
            .ok (next.map .members)
          else
            let rest ← requireCharacter '{' rest
            .ok (some (.episodes rest []))
      | _ => .error .fieldName

/-- The value of an episode's member; any value may stand for its name. -/
def readEpisode (limit : Nat) (start : List Char) : Except ArchiveError (Value × List Char) := do
  let (_, rest) ← rawDecode limit start
  let rest ← requireCharacter ':' rest
  rawDecode limit (skipWhitespace rest)

def episodePass (limit : Nat) (text : List Char) (yielded : List Value) : ArchiveReader ⊕ ArchiveReading :=
  match skipWhitespace text with
  | [] => .inr ⟨yielded, some .missingEpisodesBrace⟩
  | '}' :: _ => .inr ⟨yielded, none⟩
  | start =>
      match readEpisode limit start with
      | .error error => .inr ⟨yielded, some error⟩
      | .ok (record, rest) =>
          let yielded := if record.isObject then yielded ++ [record] else yielded
          match afterMember rest with
          | .error error => .inr ⟨yielded, some error⟩
          | .ok none => .inr ⟨yielded, none⟩
          | .ok (some rest) => .inl (.episodes rest yielded)

def readerPass (limit : Nat) : ArchiveReader → ArchiveReader ⊕ ArchiveReading
  | .members text =>
      match memberPass limit text with
      | .error error => .inr ⟨[], some error⟩
      | .ok none => .inr ⟨[], none⟩
      | .ok (some next) => .inl next
  | .episodes text yielded => episodePass limit text yielded

def iterRecords (limit fuel : Nat) (file : Option (List Char)) : Option ArchiveReading :=
  match file with
  | none => some ⟨[], none⟩
  | some text =>
      match requireCharacter '{' text with
      | .error error => some ⟨[], some error⟩
      | .ok rest => Loop.run (readerPass limit) fuel (.members rest)

section

variable {limit : Nat} {text rest : List Char}

theorem skipWhitespace_length_le (text : List Char) :
    (skipWhitespace text).length ≤ text.length :=
  (List.dropWhile_suffix _).length_le

variable {character : Char}

theorem requireCharacter_ok (required : requireCharacter character text = .ok rest) :
    skipWhitespace text = character :: rest := by
  rw [requireCharacter] at required
  split at required
  · cases required
  · next head later begins =>
    split at required
    · next same =>
      cases required
      rw [begins, same]
    · cases required

theorem requireCharacter_length_lt
    (required : requireCharacter character text = .ok rest) : rest.length < text.length := by
  have shorter := skipWhitespace_length_le text
  rw [requireCharacter_ok required, List.length_cons] at shorter
  exact shorter

variable {value : Value}

theorem rawDecode_ok (decoded : rawDecode limit text = .ok (value, rest)) :
    scanOnce limit text = some (value, rest) := by
  rw [rawDecode] at decoded
  split at decoded
  · cases decoded
  · next read scanned =>
    cases decoded
    exact scanned

theorem rawDecode_length_lt (decoded : rawDecode limit text = .ok (value, rest)) :
    rest.length < text.length :=
  JsonDecoder.scanOnce_consumes limit _ _ _ (rawDecode_ok decoded)

theorem afterMember_length_lt (next : afterMember text = .ok (some rest)) :
    rest.length < text.length := by
  have shorter := skipWhitespace_length_le text
  rw [afterMember] at next
  split at next
  · next later comma =>
    cases next
    rw [comma, List.length_cons] at shorter
    exact shorter
  · cases required : requireCharacter '}' (skipWhitespace text) <;> simp [required, Except.map] at next

def ArchiveReader.unread : ArchiveReader → List Char
  | .members text => text
  | .episodes text _ => text

variable {next : ArchiveReader}

theorem memberPass_length_lt (passed : memberPass limit text = .ok (some next)) :
    next.unread.length < text.length := by
  have skipped := skipWhitespace_length_le text
  rw [memberPass] at passed
  split at passed
  · cases passed
  · cases passed
  · obtain ⟨⟨field, afterField⟩, decoded, passed⟩ := bind_eq_ok.mp passed
    have first := rawDecode_length_lt decoded
    simp only at passed
    split at passed
    · obtain ⟨afterColon, colon, passed⟩ := bind_eq_ok.mp passed
      have second := requireCharacter_length_lt colon
      split at passed
      · obtain ⟨⟨value, afterValue⟩, valued, passed⟩ := bind_eq_ok.mp passed
        obtain ⟨following, after, passed⟩ := bind_eq_ok.mp passed
        have third := rawDecode_length_lt valued
        have fourth := skipWhitespace_length_le afterColon
        cases following with
        | none => cases passed
        | some later =>
            cases passed
            have fifth : later.length < afterValue.length := afterMember_length_lt after
            simp only [ArchiveReader.unread]
            omega
      · obtain ⟨later, brace, passed⟩ := bind_eq_ok.mp passed
        have third := requireCharacter_length_lt brace
        cases passed
        simp only [ArchiveReader.unread]
        omega
    · cases passed

theorem readEpisode_length_lt (read : readEpisode limit text = .ok (value, rest)) :
    rest.length < text.length := by
  obtain ⟨⟨name, afterName⟩, named, read⟩ := bind_eq_ok.mp read
  obtain ⟨afterColon, colon, read⟩ := bind_eq_ok.mp read
  have first := rawDecode_length_lt named
  have second := requireCharacter_length_lt colon
  have third := rawDecode_length_lt read
  have fourth := skipWhitespace_length_le afterColon
  omega

theorem episodePass_length_lt {yielded : List Value}
    (passed : episodePass limit text yielded = .inl next) : next.unread.length < text.length := by
  have skipped := skipWhitespace_length_le text
  rw [episodePass] at passed
  split at passed
  · cases passed
  · cases passed
  · split at passed
    · cases passed
    · next record later read =>
      have first := readEpisode_length_lt read
      simp only at passed
      split at passed
      · cases passed
      · cases passed
      · next left after =>
        have second := afterMember_length_lt after
        cases passed
        simp only [ArchiveReader.unread]
        omega

theorem readerPass_length_lt {reader : ArchiveReader} (passed : readerPass limit reader = .inl next) :
    next.unread.length < reader.unread.length := by
  cases reader with
  | members text =>
      rw [readerPass] at passed
      split at passed
      · cases passed
      · cases passed
      · next later went =>
        cases passed
        exact memberPass_length_lt went
  | episodes text yielded => exact episodePass_length_lt passed

theorem iterRecords_ends (limit : Nat) (file : Option (List Char)) :
    ∃ reading fuel, ∀ more, fuel ≤ more → iterRecords limit more file = some reading := by
  cases file with
  | none => exact ⟨_, 0, fun _ _ => rfl⟩
  | some text =>
      cases required : requireCharacter '{' text with
      | error error => exact ⟨⟨[], some error⟩, 0, fun more _ => by rw [iterRecords, required]⟩
      | ok rest =>
          have free : ∀ state next : ArchiveReader, True → readerPass limit state = .inl next → True :=
            fun _ _ _ _ => trivial
          obtain ⟨reading, fuel, ended⟩ := Loop.exists_ends free Nat.lt_wfRel.wf
            (fun reader => reader.unread.length)
            (fun _ _ _ passed => readerPass_length_lt passed) (show True from trivial)
          refine ⟨reading, fuel, fun more enough => ?_⟩
          rw [iterRecords, required]
          exact Loop.run_more ended enough

end

end CityPods.Records
