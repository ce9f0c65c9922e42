import Mathlib.Data.List.Basic

/-! # JSON text of string lists

`JSON.stringify` and `JSON.parse` for arrays of strings. Parsing accepts any
spelling of such an array; writing spells it in one way, which parses back.
-/

namespace CityPods.Foundation.JsonStrings

def hexDigit (digit : Nat) : Char :=
  if digit < 10 then Char.ofNat (48 + digit) else Char.ofNat (87 + digit)

def escapes : List (Char × Char) :=
  [('"', '"'), ('\\', '\\'), ('\x08', 'b'), ('\t', 't'), ('\n', 'n'), ('\x0c', 'f'), ('\r', 'r')]

def escapeLetter (char : Char) : Option Char :=
  (escapes.find? fun entry => decide (entry.1 = char)).map Prod.snd

def escapeChar (char : Char) : List Char :=
  match escapeLetter char with
  | some letter => ['\\', letter]
  | none =>
      if char.toNat < 32 then
        ['\\', 'u', '0', '0', hexDigit (char.toNat / 16), hexDigit (char.toNat % 16)]
      else [char]

def quote (chars : List Char) : List Char := '"' :: chars.flatMap escapeChar ++ ['"']

/-- The strings of an array after its first, and the bracket that closes it. -/
def closeArray : List String → List Char
  | [] => [']']
  | string :: rest => ',' :: quote string.toList ++ closeArray rest

def arrayChars : List String → List Char
  | [] => ['[', ']']
  | string :: rest => '[' :: quote string.toList ++ closeArray rest

def stringify (strings : List String) : String := String.ofList (arrayChars strings)

def hexValue (char : Char) : Option Nat :=
  if '0' ≤ char ∧ char ≤ '9' then some (char.toNat - 48)
  else if 'a' ≤ char ∧ char ≤ 'f' then some (char.toNat - 87)
  else if 'A' ≤ char ∧ char ≤ 'F' then some (char.toNat - 55)
  else none

def codeUnit (first second third fourth : Char) : Option Nat :=
  match hexValue first, hexValue second, hexValue third, hexValue fourth with
  | some first, some second, some third, some fourth =>
      some (((first * 16 + second) * 16 + third) * 16 + fourth)
  | _, _, _, _ => none

def unescapeLetter (letter : Char) : Option Char :=
  if letter = '/' then some '/'
  else (escapes.find? fun entry => decide (entry.2 = letter)).map Prod.fst

/-- The rest of a string after its opening quote. A surrogate half alone is no
character and is refused. -/
def parseString : List Char → Option (List Char × List Char)
  | [] => none
  | char :: rest =>
      if char = '"' then some ([], rest)
      else if char = '\\' then
        match rest with
        | 'u' :: first :: second :: third :: fourth :: rest =>
            match codeUnit first second third fourth with
            | none => none
            | some unit =>
                if unit < 55296 ∨ 57343 < unit then
                  (parseString rest).map fun parsed => (Char.ofNat unit :: parsed.1, parsed.2)
                else
                  match rest with
                  | '\\' :: 'u' :: first :: second :: third :: fourth :: rest =>
                      match codeUnit first second third fourth with
                      | none => none
                      | some low =>
                          if unit < 56320 ∧ 56320 ≤ low ∧ low ≤ 57343 then
                            (parseString rest).map fun parsed =>
                              (Char.ofNat (65536 + (unit - 55296) * 1024 + (low - 56320)) ::
                                parsed.1, parsed.2)
                          else none
                  | _ => none
        | letter :: rest =>
            match unescapeLetter letter with
            | none => none
            | some char => (parseString rest).map fun parsed => (char :: parsed.1, parsed.2)
        | [] => none
      else if char.toNat < 32 then none
      else (parseString rest).map fun parsed => (char :: parsed.1, parsed.2)

def isSpace (char : Char) : Bool := char = ' ' ∨ char = '\t' ∨ char = '\n' ∨ char = '\r'

def skipSpace (chars : List Char) : List Char := chars.dropWhile isSpace

/-- The strings up to the closing bracket, each followed by a comma or the bracket. Each
string takes a character at least. -/
def parseItems : Nat → List Char → Option (List String)
  | 0, _ => none
  | steps + 1, chars =>
      match skipSpace chars with
      | '"' :: rest =>
          match parseString rest with
          | none => none
          | some (string, rest) =>
              match skipSpace rest with
              | ',' :: rest =>
                  (parseItems steps rest).map fun strings => String.ofList string :: strings
              | ']' :: rest =>
                  if (skipSpace rest).isEmpty then some [String.ofList string] else none
              | _ => none
      | _ => none

/-- The array of strings that a text holds, if it holds one. -/
def parse (text : String) : Option (List String) :=
  match skipSpace text.toList with
  | '[' :: rest =>
      match skipSpace rest with
      | ']' :: rest => if (skipSpace rest).isEmpty then some [] else none
      | _ => parseItems rest.length rest
  | _ => none

theorem hexValue_hexDigit : ∀ digit < 16, hexValue (hexDigit digit) = some digit := by decide

theorem mem_escapes {char letter : Char} (escaped : escapeLetter char = some letter) :
    (char, letter) ∈ escapes := by
  unfold escapeLetter at escaped
  obtain ⟨⟨other, _⟩, found, rfl⟩ := Option.map_eq_some_iff.mp escaped
  have same := List.find?_some found
  rw [decide_eq_true_iff] at same
  exact same ▸ List.mem_of_find?_eq_some found

theorem parseString_escape (rest : List Char) : ∀ entry ∈ escapes,
    parseString ('\\' :: entry.2 :: rest) =
      (parseString rest).map fun parsed => (entry.1 :: parsed.1, parsed.2) := by
  intro entry member
  simp only [escapes, List.mem_cons, List.not_mem_nil, or_false] at member
  rcases member with rfl | rfl | rfl | rfl | rfl | rfl | rfl <;> rfl

theorem codeUnit_control {code : Nat} (control : code < 32) :
    codeUnit '0' '0' (hexDigit (code / 16)) (hexDigit (code % 16)) = some code := by
  have zero : hexValue '0' = some 0 := by decide
  unfold codeUnit
  rw [zero, hexValue_hexDigit _ (by omega), hexValue_hexDigit _ (by omega)]
  simp only [Option.some.injEq]
  omega

theorem parseString_escapeChar (char : Char) (rest : List Char) :
    parseString (escapeChar char ++ rest) =
      (parseString rest).map fun parsed => (char :: parsed.1, parsed.2) := by
  unfold escapeChar
  cases escaped : escapeLetter char with
  | some letter => exact parseString_escape rest _ (mem_escapes escaped)
  | none =>
      have plain : char ≠ '"' ∧ char ≠ '\\' := by
        constructor <;> rintro rfl <;> exact absurd escaped (by decide)
      dsimp only
      by_cases control : char.toNat < 32
      · rw [if_pos control]
        show parseString ('\\' :: 'u' :: '0' :: '0' :: hexDigit (char.toNat / 16) ::
          hexDigit (char.toNat % 16) :: rest) = _
        rw [parseString.eq_def]
        dsimp only
        rw [if_neg (by decide), if_pos rfl]
        have low : char.toNat < 55296 ∨ 57343 < char.toNat := by omega
        simp only [codeUnit_control control, if_pos low, Char.ofNat_toNat]
      · rw [if_neg control]
        show parseString (char :: rest) = _
        rw [parseString.eq_def]
        dsimp only
        rw [if_neg plain.1, if_neg plain.2, if_neg control]

theorem parseString_quoted (chars rest : List Char) :
    parseString (chars.flatMap escapeChar ++ '"' :: rest) = some (chars, rest) := by
  induction chars with
  | nil =>
      show parseString ('"' :: rest) = _
      rw [parseString.eq_def]
      exact if_pos rfl
  | cons char later induction =>
      rw [List.flatMap_cons, List.append_assoc, parseString_escapeChar, induction]
      rfl

theorem length_closeArray (strings : List String) :
    strings.length < (closeArray strings).length := by
  induction strings with
  | nil => simp [closeArray]
  | cons string rest induction =>
      simp only [closeArray, quote, List.length_cons, List.length_append]
      omega

theorem parseItems_closeArray (strings : List String) (string : String) (steps : Nat)
    (enough : strings.length < steps) :
    parseItems steps (quote string.toList ++ closeArray strings) = some (string :: strings) := by
  induction strings generalizing string steps with
  | nil =>
      obtain ⟨steps, rfl⟩ := Nat.exists_eq_succ_of_ne_zero (by omega : steps ≠ 0)
      have opened : quote string.toList ++ closeArray [] =
          '"' :: (string.toList.flatMap escapeChar ++ '"' :: closeArray []) := by
        simp [quote]
      have closing : skipSpace (closeArray []) = ']' :: [] := by decide
      rw [opened, parseItems.eq_def]
      show (match parseString (string.toList.flatMap escapeChar ++ '"' :: closeArray []) with
        | none => none
        | some (string, rest) => _) = _
      rw [parseString_quoted]
      dsimp only
      rw [closing]
      show (if (skipSpace []).isEmpty then some [String.ofList string.toList] else none) = _
      rw [String.ofList_toList]
      rfl
  | cons following rest induction =>
      obtain ⟨steps, rfl⟩ := Nat.exists_eq_succ_of_ne_zero (by omega : steps ≠ 0)
      have opened : quote string.toList ++ closeArray (following :: rest) =
          '"' :: (string.toList.flatMap escapeChar ++ '"' :: closeArray (following :: rest)) := by
        simp [quote]
      have comma : skipSpace (closeArray (following :: rest)) =
          ',' :: (quote following.toList ++ closeArray rest) := rfl
      rw [opened, parseItems.eq_def]
      show (match parseString (string.toList.flatMap escapeChar ++
          '"' :: closeArray (following :: rest)) with
        | none => none
        | some (string, rest) => _) = _
      rw [parseString_quoted]
      dsimp only
      rw [comma]
      show ((parseItems steps (quote following.toList ++ closeArray rest)).map fun strings =>
        String.ofList string.toList :: strings) = _
      rw [induction following steps (by simpa using enough), String.ofList_toList]
      rfl

/-- Writing a list and reading it gives the list. -/
theorem parse_stringify (strings : List String) : parse (stringify strings) = some strings := by
  unfold parse stringify
  rw [String.toList_ofList]
  cases strings with
  | nil => rfl
  | cons string rest =>
      have long := length_closeArray rest
      have items := parseItems_closeArray rest string
        (quote string.toList ++ closeArray rest).length (by
          rw [List.length_append]
          omega)
      simp [arrayChars, quote, skipSpace, isSpace] at items ⊢
      exact items

theorem stringify_injective : Function.Injective stringify := by
  intro first second same
  have read := parse_stringify first
  rw [same, parse_stringify second, Option.some.injEq] at read
  exact read.symm

end CityPods.Foundation.JsonStrings
