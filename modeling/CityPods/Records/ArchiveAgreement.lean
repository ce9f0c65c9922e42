import CityPods.Records.Archive

/-! # The streaming reader and the full parser

On an archive that the full parser reads, and that names no member twice, the
streaming reader yields the records of the parser's map in their order.
-/

namespace CityPods.Records

open Foundation
open Foundation.JsonDecoder
open Foundation.JsonStrings (skipSpace)

section

variable {limit : Nat} {text rest : List Char}

/-! ## White space -/

variable {char : Char}

theorem isSpace_of_json (space : JsonStrings.isSpace char = true) :
    Whitespace.isSpace char = true := by
  simp only [JsonStrings.isSpace, decide_eq_true_eq] at space
  rcases space with same | same | same | same <;> rw [same] <;> decide

theorem skipWhitespace_of_skipSpace (skipped : skipSpace text = char :: rest)
    (visible : Whitespace.isSpace char = false) : skipWhitespace text = char :: rest := by
  induction text with
  | nil => cases skipped
  | cons head tail induction =>
      rw [skipSpace, List.dropWhile_cons] at skipped
      rw [skipWhitespace, List.dropWhile_cons]
      split at skipped
      · next space =>
        rw [if_pos (isSpace_of_json space)]
        exact induction skipped
      · cases skipped
        rw [visible]
        rfl

theorem requireCharacter_of_skipSpace {character : Char}
    (skipped : skipSpace text = character :: rest)
    (visible : Whitespace.isSpace character = false) :
    requireCharacter character text = .ok rest := by
  rw [requireCharacter, skipWhitespace_of_skipSpace skipped visible]
  exact if_pos rfl

variable {read : Value × List Char}

theorem skipWhitespace_of_value (scanned : scanOnce limit (skipSpace text) = some read) :
    skipWhitespace text = skipSpace text := by
  cases skipped : skipSpace text with
  | nil =>
      rw [skipped] at scanned
      have shorter := scanOnce_consumes limit _ _ _ scanned
      exact absurd shorter (Nat.not_lt_zero _)
  | cons head tail =>
      apply skipWhitespace_of_skipSpace skipped
      rw [Bool.eq_false_iff]
      intro space
      rw [skipped, scanOnce_space space] at scanned
      cases scanned

variable {less : Nat}

theorem rawDecode_of_scanOnce (enough : less ≤ limit)
    (scanned : scanOnce less text = some read) : rawDecode limit text = .ok read := by
  rw [rawDecode, scanOnce_extends enough _ _ scanned]

/-! ## Shapes -/

variable {members : List (Name × Value)}

theorem scanScalar_not_object :
    scanScalar text ≠ some (.object members, rest) := by
  intro scanned
  rw [scanScalar.eq_def] at scanned
  split at scanned
  · obtain ⟨name, _, same⟩ := map_eq_some scanned
    cases same
  · rcases Option.or_eq_some_iff.mp scanned with constant | ⟨_, number⟩
    · obtain ⟨constant, found, same⟩ := Option.map_eq_some_iff.mp constant
      have none : ∀ constant ∈ constants, constant.2.isObject = false := by decide
      have scalar := none constant (List.mem_of_find?_eq_some found)
      rw [(Prod.mk.inj same).1] at scalar
      cases scalar
    · rw [scanNumber.eq_def] at number
      split at number <;>
      · obtain ⟨digits, _, same⟩ := Option.map_eq_some_iff.mp number
        cases (Prod.mk.inj same).1

/-- An object is read from its braces. -/
theorem scanOnce_object (scanned : scanOnce limit text = some (.object members, rest)) :
    ∃ inner less, text = '{' :: inner ∧ less ≤ limit ∧
      scanObject (scanOnce less) inner = some (members, rest) := by
  cases limit with
  | zero => exact absurd scanned scanScalar_not_object
  | succ less =>
      rw [scanOnce.eq_def] at scanned
      simp only at scanned
      split at scanned
      · next inner =>
        obtain ⟨found, object, same⟩ := map_eq_some scanned
        cases same
        exact ⟨inner, less, rfl, Nat.le_succ less, object⟩
      · obtain ⟨found, _, same⟩ := map_eq_some scanned
        cases same
      · exact absurd scanned scanScalar_not_object

variable {name : Name} {value : Value}

theorem scanMember_eq_some {scanValue : List Char → Option (Value × List Char)}
    (scanned : scanMember scanValue text = some ((name, value), rest)) :
    ∃ quoted afterName afterColon afterValue, text = '"' :: quoted ∧
      scanString quoted = some (name, afterName) ∧ skipSpace afterName = ':' :: afterColon ∧
      scanValue (skipSpace afterColon) = some (value, afterValue) ∧
      skipSpace afterValue = rest := by
  rw [scanMember.eq_def] at scanned
  split at scanned
  · next quoted =>
    split at scanned
    · cases scanned
    · next found afterName named =>
      split at scanned
      · next afterColon colon =>
        obtain ⟨⟨decoded, afterValue⟩, valued, same⟩ := Option.map_eq_some_iff.mp scanned
        cases same
        exact ⟨quoted, afterName, afterColon, afterValue, rfl, named, colon, valued, rfl⟩
      · cases scanned
  · cases scanned

theorem rawDecode_string {quoted : List Char}
    (named : scanString quoted = some (name, rest)) (limit : Nat) :
    rawDecode limit ('"' :: quoted) = .ok (.string name, rest) := by
  have scanned : scanScalar ('"' :: quoted) = some (.string name, rest) := by
    rw [scanScalar, named]
    rfl
  apply rawDecode_of_scanOnce (Nat.zero_le limit)
  exact scanned

theorem afterMember_brace (skipped : skipSpace text = '}' :: rest) : afterMember text = .ok none := by
  rw [afterMember, skipWhitespace_of_skipSpace skipped (by decide)]
  rfl

theorem afterMember_comma (skipped : skipSpace text = ',' :: rest) :
    afterMember text = .ok (some rest) := by
  rw [afterMember, skipWhitespace_of_skipSpace skipped (by decide)]
  rfl

/-! ## The episodes -/

/-- A record and what follows it, read as the parser reads it. -/
theorem readEpisode_of_scanMember (enough : less ≤ limit)
    (scanned : scanMember (scanOnce less) text = some ((name, value), rest)) :
    ∃ quoted afterValue, text = '"' :: quoted ∧ readEpisode limit text = .ok (value, afterValue) ∧
      skipSpace afterValue = rest := by
  obtain ⟨quoted, afterName, afterColon, afterValue, begins, named, colon, valued, after⟩ :=
    scanMember_eq_some scanned
  refine ⟨quoted, afterValue, begins, ?_, after⟩
  rw [readEpisode, begins, rawDecode_string named, ok_bind]
  simp only
  rw [requireCharacter_of_skipSpace colon (by decide), ok_bind, skipWhitespace_of_value valued,
    rawDecode_of_scanOnce enough valued]

variable {before : List Char}

theorem episodePass_of_scanMember (enough : less ≤ limit)
    (scanned : scanMember (scanOnce less) (skipSpace before) = some ((name, value), rest))
    (yielded : List Value) :
    ∃ afterValue, skipSpace afterValue = rest ∧ episodePass limit before yielded =
      match afterMember afterValue with
      | .error error => .inr ⟨yielded ++ [value].filter Value.isObject, some error⟩
      | .ok none => .inr ⟨yielded ++ [value].filter Value.isObject, none⟩
      | .ok (some later) => .inl (.episodes later (yielded ++ [value].filter Value.isObject)) := by
  obtain ⟨quoted, afterValue, begins, episode, after⟩ := readEpisode_of_scanMember enough scanned
  have start : skipWhitespace before = '"' :: quoted :=
    skipWhitespace_of_skipSpace begins (by decide)
  have added : (if value.isObject then yielded ++ [value] else yielded) =
      yielded ++ [value].filter Value.isObject := by
    cases object : value.isObject <;> simp [object]
  refine ⟨afterValue, after, ?_⟩
  rw [episodePass]
  split
  · next none => rw [start] at none; cases none
  · next closed => rw [start] at closed; cases closed
  · rw [start, ← begins, episode]
    cases reached : afterMember afterValue with
    | error error => simp only [added, reached]
    | ok later => cases later <;> simp only [added, reached]

variable {steps : Nat} {records : List (Name × Value)}

theorem episodes_end (enough : less ≤ limit)
    (scanned : scanMembers (scanOnce less) steps (skipSpace before) = some (records, rest))
    (yielded : List Value) :
    Loop.Ends (readerPass limit) (.episodes before yielded)
      ⟨yielded ++ (Dict.values records).filter Value.isObject, none⟩ := by
  induction steps generalizing records before yielded with
  | zero => cases scanned
  | succ steps induction =>
      obtain ⟨⟨name, value⟩, ⟨first, only⟩ | ⟨later, others, first, further, both⟩⟩ :=
        scanMembers_cases scanned
      · obtain ⟨afterValue, after, passed⟩ := episodePass_of_scanMember enough first yielded
        rw [afterMember_brace after] at passed
        rw [only]
        exact Loop.ends_of_left passed
      · obtain ⟨afterValue, after, passed⟩ := episodePass_of_scanMember enough first yielded
        rw [afterMember_comma after] at passed
        have values : (Dict.values records).filter Value.isObject =
            [value].filter Value.isObject ++ (Dict.values others).filter Value.isObject := by
          rw [← List.filter_append, both]
          rfl
        rw [values, ← List.append_assoc]
        exact Loop.ends_of_again passed (induction further _)

/-- An object of episodes after its opening brace. -/
theorem episodes_object_end (enough : less ≤ limit)
    (scanned : scanObject (scanOnce less) text = some (records, rest)) :
    Loop.Ends (readerPass limit) (.episodes text [])
      ⟨(Dict.values records).filter Value.isObject, none⟩ := by
  rw [scanObject] at scanned
  split at scanned
  · next later closed =>
    cases scanned
    apply Loop.ends_of_left
    rw [readerPass, episodePass, skipWhitespace_of_skipSpace closed (by decide)]
    rfl
  · exact episodes_end enough scanned []

/-! ## The archive -/

theorem memberPass_other (enough : less ≤ limit) (other : name ≠ episodesField)
    (scanned : scanMember (scanOnce less) (skipSpace before) = some ((name, value), ',' :: rest)) :
    readerPass limit (.members before) = .inl (.members rest) := by
  obtain ⟨quoted, afterName, afterColon, afterValue, begins, named, colon, valued, after⟩ :=
    scanMember_eq_some scanned
  have start : skipWhitespace before = '"' :: quoted :=
    skipWhitespace_of_skipSpace begins (by decide)
  have passed : memberPass limit before = .ok (some (.members rest)) := by
    rw [memberPass]
    split
    · next none => rw [start] at none; cases none
    · next closed => rw [start] at closed; cases closed
    · rw [start, rawDecode_string named, ok_bind]
      simp only
      rw [requireCharacter_of_skipSpace colon (by decide), ok_bind, if_pos other,
        skipWhitespace_of_value valued, rawDecode_of_scanOnce enough valued, ok_bind]
      simp only
      rw [afterMember_comma after, ok_bind]
      rfl
  rw [readerPass, passed]

theorem memberPass_episodes (enough : less ≤ limit)
    (scanned : scanMember (scanOnce less) (skipSpace before) =
      some ((episodesField, .object records), rest)) :
    ∃ inner inside later, readerPass limit (.members before) = .inl (.episodes inner []) ∧
      inside ≤ limit ∧ scanObject (scanOnce inside) inner = some (records, later) := by
  obtain ⟨quoted, afterName, afterColon, afterValue, begins, named, colon, valued, after⟩ :=
    scanMember_eq_some scanned
  obtain ⟨inner, inside, opens, within, object⟩ := scanOnce_object valued
  have start : skipWhitespace before = '"' :: quoted :=
    skipWhitespace_of_skipSpace begins (by decide)
  have passed : memberPass limit before = .ok (some (.episodes inner [])) := by
    rw [memberPass]
    split
    · next none => rw [start] at none; cases none
    · next closed => rw [start] at closed; cases closed
    · rw [start, rawDecode_string named, ok_bind]
      simp only
      rw [requireCharacter_of_skipSpace colon (by decide), ok_bind, if_neg (not_not.mpr rfl),
        requireCharacter_of_skipSpace opens (by decide), ok_bind]
  exact ⟨inner, inside, afterValue, by rw [readerPass, passed], within.trans enough, object⟩

theorem members_end (enough : less ≤ limit)
    (scanned : scanMembers (scanOnce less) steps (skipSpace before) = some (members, rest))
    (distinct : (Dict.keys members).Nodup) (episodes : (episodesField, .object records) ∈ members) :
    Loop.Ends (readerPass limit) (.members before)
      ⟨(Dict.values records).filter Value.isObject, none⟩ := by
  induction steps generalizing members before with
  | zero => cases scanned
  | succ steps induction =>
      obtain ⟨⟨name, value⟩, cases_⟩ := scanMembers_cases scanned
      have head : ∃ later others, scanMember (scanOnce less) (skipSpace before) =
          some ((name, value), later) ∧ members = (name, value) :: others := by
        rcases cases_ with ⟨first, only⟩ | ⟨later, others, first, _, both⟩
        · exact ⟨_, [], first, only⟩
        · exact ⟨_, others, first, both⟩
      obtain ⟨later, others, first, whole⟩ := head
      subst whole
      have parts := List.nodup_cons.mp distinct
      by_cases here : name = episodesField
      · subst here
        have same : value = .object records := by
          rcases List.mem_cons.mp episodes with now | after
          · exact (Prod.mk.inj now).2.symm
          · exact absurd (List.mem_map_of_mem (f := Prod.fst) after) parts.1
        rw [same] at first
        obtain ⟨inner, inside, left, passed, within, object⟩ := memberPass_episodes enough first
        exact Loop.ends_of_again passed (episodes_object_end within object)
      · rcases cases_ with ⟨_, only⟩ | ⟨next, more, comma, further, both⟩
        · rw [(List.cons.inj only).2] at episodes
          rw [(Prod.mk.inj (List.mem_singleton.mp episodes)).1] at here
          exact absurd rfl here
        · rw [(List.cons.inj both).2] at episodes parts
          have later : (episodesField, Value.object records) ∈ more := by
            rcases List.mem_cons.mp episodes with now | after
            · exact absurd (Prod.mk.inj now).1.symm here
            · exact after
          exact Loop.ends_of_again (memberPass_other enough here comma)
            (induction further parts.2 later)

theorem loadRecords_eq
    (parsed : decode limit text = some (.object members)) (distinct : (Dict.keys members).Nodup)
    (episodes : (episodesField, .object records) ∈ members) :
    loadRecords limit (some text) = .ok (.object records) := by
  have same : dictOf members = members := Dict.update_new distinct
  simp only [loadRecords, parsed, same]
  rw [Dict.get?_of_mem distinct episodes, Option.getD_some]

theorem iterRecords_eq
    (parsed : decode limit text = some (.object members)) (distinct : (Dict.keys members).Nodup)
    (episodes : (episodesField, .object records) ∈ members) :
    ∃ fuel, ∀ more, fuel ≤ more → iterRecords limit more (some text) =
      some ⟨(Dict.values records).filter Value.isObject, none⟩ := by
  rw [decode] at parsed
  split at parsed
  · cases parsed
  next value left scanned =>
  split at parsed
  · cases parsed
    obtain ⟨inner, less, opens, enough, object⟩ := scanOnce_object scanned
    have required := requireCharacter_of_skipSpace opens (by decide)
    rw [scanObject] at object
    split at object
    · cases object
      cases episodes
    · obtain ⟨fuel, ended⟩ := members_end enough object distinct episodes
      refine ⟨fuel, fun more within => ?_⟩
      rw [iterRecords, required]
      exact Loop.run_more ended within
  · cases parsed

end

/-- The reader ends on every text. Where the full parser finds an object that names
no member twice, with an object of episodes that names none twice, it yields the
records of the map that the parser loads, in document order, and no error. -/
theorem iterRecords_agrees (limit : Nat) :
    (∀ file, ∃ reading fuel, ∀ more, fuel ≤ more → iterRecords limit more file = some reading) ∧
    ∀ text members records, decode limit text = some (.object members) →
      (Dict.keys members).Nodup → (episodesField, .object records) ∈ members →
      (Dict.keys records).Nodup →
      loadRecords limit (some text) = .ok (.object records) ∧
        ∃ fuel, ∀ more, fuel ≤ more → iterRecords limit more (some text) =
          some ⟨(dictOf records).values.filter Value.isObject, none⟩ := by
  refine ⟨iterRecords_ends limit, fun text members records parsed distinct episodes once => ?_⟩
  have same : dictOf records = records := Dict.update_new once
  rw [same]
  exact ⟨loadRecords_eq parsed distinct episodes, iterRecords_eq parsed distinct episodes⟩

/-- An archive with members around the episodes, and a value that is no record. -/
def archiveText : List Char :=
  ['{', '"', 'v', '"', ':', '1', ',', '"', 'e', 'p', 'i', 's', 'o', 'd', 'e', 's', '"', ':', '{',
    '"', 'a', '"', ':', '{', '}', ',', '"', 'b', '"', ':', '0', '}', ',', '"', 'x', '"', ':',
    '[', ']', '}']

def archivedEpisodes : List (Name × Value) := [(nameOf ['a'], .object []), (nameOf ['b'], .number ['0'])]

def archiveMembers : List (Name × Value) :=
  [(nameOf ['v'], .number ['1']), (episodesField, .object archivedEpisodes),
    (nameOf ['x'], .array [])]

theorem iterRecords_agrees_text :
    loadRecords 4 (some archiveText) = .ok (.object archivedEpisodes) ∧
        ∃ fuel, ∀ more, fuel ≤ more → iterRecords 4 more (some archiveText) =
          some ⟨(dictOf archivedEpisodes).values.filter Value.isObject, none⟩ :=
  (iterRecords_agrees 4).2 archiveText archiveMembers archivedEpisodes (by rfl) (by decide)
    (by simp [archiveMembers]) (by decide)

end CityPods.Records
