import CityPods.Foundation.Dict
import CityPods.Foundation.JsonStrings
import CityPods.Foundation.Texts

/-! # Decoding JSON values

A decoder that reads one value from the start of a text and tells what is left of
the text. An object has its members as they are spelled, in document order; a
reader that keeps a map of them keeps the last of two with one name.
-/

namespace CityPods.Foundation.JsonDecoder

open JsonStrings (codeUnit skipSpace unescapeLetter)

/-- The code points of a string, with lone surrogates. -/
abbrev Name := List Nat

def nameOf (chars : List Char) : Name := chars.map Char.toNat

inductive Value
  | null
  | bool (value : Bool)
  /-- A number as it is spelled. -/
  | number (literal : List Char)
  | string (value : Name)
  | array (items : List Value)
  | object (members : List (Name × Value))

def Value.isObject : Value → Bool
  | .object _ => true
  | _ => false

/-- The map of the members of an object. -/
def dictOf (members : List (Name × Value)) : Dict Name Value := Dict.update [] members

/-! ## Scalars -/

/-- Two halves of a surrogate pair. -/
def joined (high low : Nat) : Nat := 65536 + (high - 55296) * 1024 + (low - 56320)

def isHigh (unit : Nat) : Bool := 55296 ≤ unit ∧ unit ≤ 56319

def isLow (unit : Nat) : Bool := 56320 ≤ unit ∧ unit ≤ 57343

/-- The rest of a string after its opening quote. -/
def scanString : List Char → Option (Name × List Char)
  | [] => none
  | char :: rest =>
      if char = '"' then some ([], rest)
      else if char = '\\' then
        match rest with
        | 'u' :: first :: second :: third :: fourth :: rest =>
            match codeUnit first second third fourth with
            | none => none
            | some unit =>
                match rest with
                | '\\' :: 'u' :: first :: second :: third :: fourth :: later =>
                    if isHigh unit then
                      match codeUnit first second third fourth with
                      | none => none
                      | some low =>
                          if isLow low then
                            (scanString later).map fun read => (joined unit low :: read.1, read.2)
                          else (scanString ('\\' :: 'u' :: first :: second :: third :: fourth :: later)).map
                            fun read => (unit :: read.1, read.2)
                    else (scanString ('\\' :: 'u' :: first :: second :: third :: fourth :: later)).map
                      fun read => (unit :: read.1, read.2)
                | rest => (scanString rest).map fun read => (unit :: read.1, read.2)
        | letter :: rest =>
            match unescapeLetter letter with
            | none => none
            | some char => (scanString rest).map fun read => (char.toNat :: read.1, read.2)
        | [] => none
      else if char.toNat < 32 then none
      else (scanString rest).map fun read => (char.toNat :: read.1, read.2)

def someDigits (text : List Char) : Option (List Char × List Char) :=
  let digits := text.takeWhile Char.isDigit
  if digits.isEmpty then none else some (digits, text.dropWhile Char.isDigit)

def integerPart : List Char → Option (List Char × List Char)
  | '0' :: rest => some (['0'], rest)
  | text => someDigits text

def fractionPart (text : List Char) : List Char × List Char :=
  match text with
  | '.' :: rest =>
      match someDigits rest with
      | some (digits, later) => ('.' :: digits, later)
      | none => ([], text)
  | _ => ([], text)

def exponentDigits (mark : List Char) (rest text : List Char) : List Char × List Char :=
  match someDigits rest with
  | some (digits, later) => (mark ++ digits, later)
  | none => ([], text)

def exponentPart (text : List Char) : List Char × List Char :=
  match text with
  | letter :: rest =>
      if letter = 'e' ∨ letter = 'E' then
        match rest with
        | '+' :: later => exponentDigits [letter, '+'] later text
        | '-' :: later => exponentDigits [letter, '-'] later text
        | later => exponentDigits [letter] later text
      else ([], text)
  | [] => ([], text)

def scanUnsigned (sign : List Char) (text : List Char) : Option (Value × List Char) :=
  (integerPart text).map fun whole =>
    let fraction := fractionPart whole.2
    let exponent := exponentPart fraction.2
    (.number (sign ++ whole.1 ++ fraction.1 ++ exponent.1), exponent.2)

def scanNumber : List Char → Option (Value × List Char)
  | '-' :: rest => scanUnsigned ['-'] rest
  | text => scanUnsigned [] text

/-- The words that stand for a value. -/
def constants : List (List Char × Value) :=
  [(['n', 'u', 'l', 'l'], .null), (['t', 'r', 'u', 'e'], .bool true),
    (['f', 'a', 'l', 's', 'e'], .bool false), (['N', 'a', 'N'], .number ['N', 'a', 'N']),
    (['I', 'n', 'f', 'i', 'n', 'i', 't', 'y'],
      .number ['I', 'n', 'f', 'i', 'n', 'i', 't', 'y']),
    (['-', 'I', 'n', 'f', 'i', 'n', 'i', 't', 'y'],
      .number ['-', 'I', 'n', 'f', 'i', 'n', 'i', 't', 'y'])]

def scanConstant (text : List Char) : Option (Value × List Char) :=
  (constants.find? fun constant => constant.1.isPrefixOf text).map fun constant =>
    (constant.2, text.drop constant.1.length)

def scanScalar (text : List Char) : Option (Value × List Char) :=
  match text with
  | '"' :: rest => (scanString rest).map fun read => (.string read.1, read.2)
  | _ => (scanConstant text).or (scanNumber text)

/-! ## Containers -/

section

variable (scanValue : List Char → Option (Value × List Char))

def scanMember : List Char → Option ((Name × Value) × List Char)
  | '"' :: rest =>
      match scanString rest with
      | none => none
      | some (name, rest) =>
          match skipSpace rest with
          | ':' :: rest =>
              (scanValue (skipSpace rest)).map fun read => ((name, read.1), skipSpace read.2)
          | _ => none
  | _ => none

/-- The members up to the closing brace. Each takes a character at least. -/
def scanMembers : Nat → List Char → Option (List (Name × Value) × List Char)
  | 0, _ => none
  | steps + 1, text =>
      match scanMember scanValue text with
      | none => none
      | some (member, '}' :: rest) => some ([member], rest)
      | some (member, ',' :: rest) =>
          (scanMembers steps (skipSpace rest)).map fun read => (member :: read.1, read.2)
      | some _ => none

/-- An object after its opening brace. -/
def scanObject (text : List Char) : Option (List (Name × Value) × List Char) :=
  match skipSpace text with
  | '}' :: rest => some ([], rest)
  | start => scanMembers scanValue start.length start

/-- The items up to the closing bracket. -/
def scanItems : Nat → List Char → Option (List Value × List Char)
  | 0, _ => none
  | steps + 1, text =>
      match scanValue text with
      | none => none
      | some (item, rest) =>
          match skipSpace rest with
          | ']' :: rest => some ([item], rest)
          | ',' :: rest =>
              (scanItems steps (skipSpace rest)).map fun read => (item :: read.1, read.2)
          | _ => none

/-- An array after its opening bracket. -/
def scanArray (text : List Char) : Option (List Value × List Char) :=
  match skipSpace text with
  | ']' :: rest => some ([], rest)
  | start => scanItems scanValue start.length start

end

/-- One value at the start of a text, where containers are nested no deeper than the
recursion limit. -/
def scanOnce : Nat → List Char → Option (Value × List Char)
  | 0, text => scanScalar text
  | limit + 1, text =>
      match text with
      | '{' :: rest =>
          (scanObject (scanOnce limit) rest).map fun read => (.object read.1, read.2)
      | '[' :: rest => (scanArray (scanOnce limit) rest).map fun read => (.array read.1, read.2)
      | _ => scanScalar text

def decode (limit : Nat) (text : List Char) : Option Value :=
  match scanOnce limit (skipSpace text) with
  | none => none
  | some (value, rest) => if (skipSpace rest).isEmpty then some value else none

/-! ## What is read -/

/-- A scanner leaves less than it was given. -/
def Consumes {α : Type} (scan : List Char → Option (α × List Char)) : Prop :=
  ∀ text value rest, scan text = some (value, rest) → rest.length < text.length

theorem skipSpace_length_le (text : List Char) : (skipSpace text).length ≤ text.length :=
  (List.dropWhile_suffix _).length_le

variable {rest : List Char}

/-- What a mapped scan leaves is what the scan leaves. -/
theorem map_eq_some {α β : Type} {scanned : Option (α × List Char)} {change : α → β} {value : β}
    (read : (scanned.map fun found => (change found.1, found.2)) = some (value, rest)) :
    ∃ found, scanned = some (found, rest) ∧ change found = value := by
  obtain ⟨⟨found, later⟩, same, pair⟩ := Option.map_eq_some_iff.mp read
  obtain ⟨changed, left⟩ := Prod.mk.inj pair
  exact ⟨found, left ▸ same, changed⟩

theorem scanString_consumes : Consumes scanString := by
  intro text
  induction size : text.length using Nat.strong_induction_on generalizing text with
  | h size shorter =>
    intro value rest read
    subst size
    rw [scanString.eq_def] at read
    repeat' split at read
    all_goals first
      | (cases read; done)
      | (cases read; exact Nat.lt_succ_self _)
      | obtain ⟨found, scanned, _⟩ := map_eq_some read
        refine Nat.lt_trans (shorter _ ?_ _ rfl _ _ scanned) ?_ <;>
          simp only [List.length_cons] <;> omega

theorem someDigits_consumes : Consumes someDigits := by
  intro text digits rest read
  rw [someDigits] at read
  split at read
  · cases read
  · next some_ =>
    cases read
    have whole := congrArg List.length (List.takeWhile_append_dropWhile (p := Char.isDigit) (l := text))
    have positive : 0 < (text.takeWhile Char.isDigit).length := by
      rw [List.length_pos_iff]
      intro none
      rw [none] at some_
      exact some_ rfl
    rw [List.length_append] at whole
    omega

theorem integerPart_consumes : Consumes integerPart := by
  intro text digits rest read
  rw [integerPart.eq_def] at read
  split at read
  · cases read
    exact Nat.lt_succ_self _
  · exact someDigits_consumes _ _ _ read

theorem fractionPart_length_le (text : List Char) : (fractionPart text).2.length ≤ text.length := by
  rw [fractionPart.eq_def]
  split
  · next rest =>
    split
    · next digits later read =>
      have shorter := someDigits_consumes _ _ _ read
      simp only [List.length_cons]
      omega
    · exact Nat.le_refl _
  · exact Nat.le_refl _

variable {text : List Char}

theorem exponentDigits_length_le (within : rest.length ≤ text.length)
    (mark : List Char) : (exponentDigits mark rest text).2.length ≤ text.length := by
  rw [exponentDigits]
  split
  · next digits later read => exact (someDigits_consumes _ _ _ read).le.trans within
  · exact Nat.le_refl _

theorem exponentPart_length_le (text : List Char) : (exponentPart text).2.length ≤ text.length := by
  rw [exponentPart.eq_def]
  split
  · split
    · split <;> exact exponentDigits_length_le (by simp only [List.length_cons]; omega) _
    · exact Nat.le_refl _
  · exact Nat.le_refl _

theorem scanUnsigned_length_lt {sign : List Char} {value : Value}
    (read : scanUnsigned sign text = some (value, rest)) : rest.length < text.length := by
  obtain ⟨⟨whole, later⟩, found, same⟩ := Option.map_eq_some_iff.mp read
  cases same
  have shorter := integerPart_consumes _ _ _ found
  have fraction := fractionPart_length_le later
  have exponent := exponentPart_length_le (fractionPart later).2
  simp only
  omega

theorem scanNumber_consumes : Consumes scanNumber := by
  intro text value rest read
  rw [scanNumber.eq_def] at read
  split at read
  · exact Nat.lt_succ_of_lt (scanUnsigned_length_lt read)
  · exact scanUnsigned_length_lt read

theorem constants_nonempty : ∀ constant ∈ constants, constant.1 ≠ [] := by decide

theorem scanConstant_consumes : Consumes scanConstant := by
  intro text value rest read
  obtain ⟨constant, found, same⟩ := Option.map_eq_some_iff.mp read
  cases same
  have nonempty := List.length_pos_iff.mpr
    (constants_nonempty constant (List.mem_of_find?_eq_some found))
  have begins : constant.1.isPrefixOf text = true := by simpa using List.find?_some found
  have within := (List.isPrefixOf_iff_prefix.mp begins).length_le
  rw [List.length_drop]
  omega

theorem scanScalar_consumes : Consumes scanScalar := by
  intro text value rest read
  rw [scanScalar.eq_def] at read
  split at read
  · obtain ⟨name, found, _⟩ := map_eq_some read
    exact Nat.lt_succ_of_lt (scanString_consumes _ _ _ found)
  · rcases Option.or_eq_some_iff.mp read with constant | ⟨_, number⟩
    · exact scanConstant_consumes _ _ _ constant
    · exact scanNumber_consumes _ _ _ number

section

variable {scanValue more : List Char → Option (Value × List Char)}

theorem scanMember_consumes (consumes : Consumes scanValue) : Consumes (scanMember scanValue) := by
  intro text member rest read
  rw [scanMember.eq_def] at read
  split at read
  · next later =>
    split at read
    · cases read
    · next name afterName named =>
      split at read
      · next afterColon colon =>
        obtain ⟨⟨value, left⟩, scanned, same⟩ := Option.map_eq_some_iff.mp read
        cases same
        have first := scanString_consumes _ _ _ named
        have second := skipSpace_length_le afterName
        have third := skipSpace_length_le afterColon
        have fourth := consumes _ _ _ scanned
        have fifth := skipSpace_length_le left
        rw [colon] at second
        simp only [List.length_cons] at second ⊢
        omega
      · cases read
  · cases read

variable {steps : Nat} {members : List (Name × Value)}

theorem scanMembers_length_lt (consumes : Consumes scanValue)
    (read : scanMembers scanValue steps text = some (members, rest)) :
    rest.length < text.length := by
  induction steps generalizing text members with
  | zero => cases read
  | succ steps induction =>
      rw [scanMembers] at read
      split at read
      · cases read
      · next member later scanned =>
        cases read
        have shorter := scanMember_consumes consumes _ _ _ scanned
        simp only [List.length_cons] at shorter
        omega
      · next member later scanned =>
        obtain ⟨members, found, _⟩ := map_eq_some read
        have shorter := scanMember_consumes consumes _ _ _ scanned
        have skipped := skipSpace_length_le later
        have further := induction found
        simp only [List.length_cons] at shorter
        omega
      · cases read

/-- The members are one that is closed after, or one and a comma and the others. -/
theorem scanMembers_cases (read : scanMembers scanValue (steps + 1) text = some (members, rest)) :
    ∃ member, (scanMember scanValue text = some (member, '}' :: rest) ∧ members = [member]) ∨
      ∃ later others, scanMember scanValue text = some (member, ',' :: later) ∧
        scanMembers scanValue steps (skipSpace later) = some (others, rest) ∧
        members = member :: others := by
  rw [scanMembers] at read
  split at read
  · cases read
  · next member later scanned =>
    cases read
    exact ⟨member, .inl ⟨scanned, rfl⟩⟩
  · next member later scanned =>
    obtain ⟨others, found, same⟩ := map_eq_some read
    exact ⟨member, .inr ⟨later, others, scanned, found, same.symm⟩⟩
  · cases read

theorem scanObject_consumes (consumes : Consumes scanValue) : Consumes (scanObject scanValue) := by
  intro text members rest read
  have skipped := skipSpace_length_le text
  rw [scanObject] at read
  split at read
  · next later closed =>
    cases read
    rw [closed, List.length_cons] at skipped
    omega
  · exact (scanMembers_length_lt consumes read).trans_le skipped

theorem scanItems_length_lt (consumes : Consumes scanValue)
    {items : List Value} (read : scanItems scanValue steps text = some (items, rest)) :
    rest.length < text.length := by
  induction steps generalizing text items with
  | zero => cases read
  | succ steps induction =>
      rw [scanItems] at read
      split at read
      · cases read
      · next item later scanned =>
        have shorter := consumes _ _ _ scanned
        have skipped := skipSpace_length_le later
        split at read
        · next left closed =>
          cases read
          rw [closed, List.length_cons] at skipped
          omega
        · next left comma =>
          obtain ⟨items, found, _⟩ := map_eq_some read
          have again := skipSpace_length_le left
          have further := induction found
          rw [comma, List.length_cons] at skipped
          omega
        · cases read

theorem scanArray_consumes (consumes : Consumes scanValue) : Consumes (scanArray scanValue) := by
  intro text items rest read
  have skipped := skipSpace_length_le text
  rw [scanArray] at read
  split at read
  · next later closed =>
    cases read
    rw [closed, List.length_cons] at skipped
    omega
  · exact (scanItems_length_lt consumes read).trans_le skipped

end

theorem scanOnce_consumes (limit : Nat) : Consumes (scanOnce limit) := by
  induction limit with
  | zero => exact scanScalar_consumes
  | succ limit induction =>
      intro text value rest read
      rw [scanOnce.eq_def] at read
      simp only at read
      split at read
      · obtain ⟨members, found, _⟩ := map_eq_some read
        exact Nat.lt_succ_of_lt (scanObject_consumes induction _ _ _ found)
      · obtain ⟨items, found, _⟩ := map_eq_some read
        exact Nat.lt_succ_of_lt (scanArray_consumes induction _ _ _ found)
      · exact scanScalar_consumes _ _ _ read

/-! ## A higher limit -/

def Extends {α : Type} (scan more : List Char → Option (α × List Char)) : Prop :=
  ∀ text read, scan text = some read → more text = some read

section

variable {scanValue more : List Char → Option (Value × List Char)} (extends_ : Extends scanValue more)

include extends_

theorem scanMember_extends : Extends (scanMember scanValue) (scanMember more) := by
  intro text read scanned
  rw [scanMember.eq_def] at scanned ⊢
  split at scanned
  · next later =>
    split at scanned
    · cases scanned
    · next name afterName named =>
      split at scanned
      · next afterColon colon =>
        obtain ⟨found, value, same⟩ := Option.map_eq_some_iff.mp scanned
        rw [extends_ _ _ value, Option.map_some, same]
      · cases scanned
  · cases scanned

theorem scanMembers_extends (steps : Nat) :
    Extends (scanMembers scanValue steps) (scanMembers more steps) := by
  induction steps with
  | zero => exact fun _ _ scanned => nomatch scanned
  | succ steps induction =>
      intro text read scanned
      rw [scanMembers] at scanned ⊢
      split at scanned
      · cases scanned
      · next member later found =>
        rw [scanMember_extends extends_ _ _ found]
        exact scanned
      · next member later found =>
        rw [scanMember_extends extends_ _ _ found]
        obtain ⟨members, further, same⟩ := Option.map_eq_some_iff.mp scanned
        simp only
        rw [induction _ _ further, Option.map_some, same]
      · cases scanned

theorem scanObject_extends : Extends (scanObject scanValue) (scanObject more) := by
  intro text read scanned
  rw [scanObject] at scanned ⊢
  split at scanned
  · exact scanned
  · exact scanMembers_extends extends_ _ _ _ scanned

theorem scanItems_extends (steps : Nat) :
    Extends (scanItems scanValue steps) (scanItems more steps) := by
  induction steps with
  | zero => exact fun _ _ scanned => nomatch scanned
  | succ steps induction =>
      intro text read scanned
      rw [scanItems] at scanned ⊢
      split at scanned
      · cases scanned
      · next item later found =>
        rw [extends_ _ _ found]
        simp only
        split at scanned
        · exact scanned
        · obtain ⟨items, further, same⟩ := Option.map_eq_some_iff.mp scanned
          rw [induction _ _ further, Option.map_some, same]
        · cases scanned

theorem scanArray_extends : Extends (scanArray scanValue) (scanArray more) := by
  intro text read scanned
  rw [scanArray] at scanned ⊢
  split at scanned
  · exact scanned
  · exact scanItems_extends extends_ _ _ _ scanned

end

variable {char : Char}

theorem scanScalar_bracket (bracket : char = '{' ∨ char = '[') (rest : List Char) :
    scanScalar (char :: rest) = none := by
  rcases bracket with same | same <;>
    simp [same, scanScalar, scanConstant, constants, scanNumber, scanUnsigned, integerPart,
      someDigits]

theorem scanOnce_succ (limit : Nat) : Extends (scanOnce limit) (scanOnce (limit + 1)) := by
  induction limit with
  | zero =>
      intro text read scanned
      rw [scanOnce.eq_def] at scanned ⊢
      simp only at scanned ⊢
      split
      · rw [scanScalar_bracket (.inl rfl)] at scanned
        cases scanned
      · rw [scanScalar_bracket (.inr rfl)] at scanned
        cases scanned
      · exact scanned
  | succ limit induction =>
      intro text read scanned
      rw [scanOnce.eq_def] at scanned ⊢
      simp only at scanned ⊢
      split at scanned
      · obtain ⟨members, found, same⟩ := Option.map_eq_some_iff.mp scanned
        rw [scanObject_extends induction _ _ found, Option.map_some, same]
      · obtain ⟨items, found, same⟩ := Option.map_eq_some_iff.mp scanned
        rw [scanArray_extends induction _ _ found, Option.map_some, same]
      · exact scanned

theorem scanOnce_extends {limit more : Nat} (enough : limit ≤ more) :
    Extends (scanOnce limit) (scanOnce more) := by
  induction enough with
  | refl => exact fun _ _ scanned => scanned
  | step _ induction => exact fun text read scanned => scanOnce_succ _ _ _ (induction text read scanned)

/-! ## The first character -/

theorem isDigit_of_isSpace (space : Whitespace.isSpace char = true) :
    char.isDigit = false := by
  have digits : ∀ code < 58, 48 ≤ code → Whitespace.isSpace (Char.ofNat code) = false := by decide
  rw [Bool.eq_false_iff]
  intro digit
  rw [Char.isDigit, Bool.and_eq_true, decide_eq_true_eq, decide_eq_true_eq] at digit
  have visible := digits char.toNat (Nat.lt_succ_of_le digit.2) digit.1
  rw [Char.ofNat_toNat, space] at visible
  cases visible

theorem scanScalar_space (space : Whitespace.isSpace char = true)
    (rest : List Char) : scanScalar (char :: rest) = none := by
  have other : ∀ visible, Whitespace.isSpace visible = false → visible ≠ char := by
    intro visible not same
    rw [same, space] at not
    cases not
  have starts : ∀ constant ∈ constants, constant.1.isPrefixOf (char :: rest) = false := by
    have heads : ∀ constant ∈ constants, ∃ head tail, constant.1 = head :: tail ∧
        Whitespace.isSpace head = false := by
      intro constant member
      simp only [constants, List.mem_cons, List.not_mem_nil, or_false] at member
      rcases member with same | same | same | same | same | same <;>
        exact ⟨_, _, by rw [same], by decide⟩
    intro constant member
    obtain ⟨head, tail, same, visible⟩ := heads constant member
    rw [same, List.isPrefixOf_cons_cons, beq_false_of_ne (other head visible), Bool.false_and]
  have noConstant : scanConstant (char :: rest) = none := by
    rw [scanConstant, Option.map_eq_none_iff, List.find?_eq_none]
    intro constant member
    rw [starts constant member]
    exact Bool.false_ne_true
  have noNumber : scanNumber (char :: rest) = none := by
    rw [scanNumber.eq_def]
    split
    · next same => exact absurd (List.cons.inj same).1.symm (other '-' (by decide))
    · rw [scanUnsigned, Option.map_eq_none_iff, integerPart.eq_def]
      split
      · next same => exact absurd (List.cons.inj same).1.symm (other '0' (by decide))
      · rw [someDigits, List.takeWhile_cons_of_neg (by simp [isDigit_of_isSpace space])]
        rfl
  rw [scanScalar.eq_def]
  split
  · next same => exact absurd (List.cons.inj same).1.symm (other '"' (by decide))
  · rw [noConstant, noNumber]
    rfl

theorem scanOnce_space (space : Whitespace.isSpace char = true) (limit : Nat)
    (rest : List Char) : scanOnce limit (char :: rest) = none := by
  cases limit with
  | zero => exact scanScalar_space space rest
  | succ limit =>
      rw [scanOnce.eq_def]
      simp only
      split
      · next same =>
        rw [(List.cons.inj same).1] at space
        cases (show Whitespace.isSpace '{' = false by decide).symm.trans space
      · next same =>
        rw [(List.cons.inj same).1] at space
        cases (show Whitespace.isSpace '[' = false by decide).symm.trans space
      · exact scanScalar_space space rest

end CityPods.Foundation.JsonDecoder
