import CityPods.Foundation.JsonStrings

/-! # JSON texts

`JSON.parse` for any text: a scanner that reads one character at a time, and a parser
of its tokens that keeps the containers still open. Strings are sequences of UTF-16
code units; numbers are exact decimals.
-/

namespace CityPods.Foundation.JsonText

open JsonStrings (hexValue unescapeLetter isSpace)

/-- The code units of a string. -/
abbrev Units := List Nat

def unitsOf (char : Char) : Units :=
  if char.toNat < 65536 then [char.toNat]
  else [55296 + (char.toNat - 65536) / 1024, 56320 + (char.toNat - 65536) % 1024]

def units (text : String) : Units := text.toList.flatMap unitsOf

/-- A number as digits and a power of ten; the last digit is not zero. -/
structure Decimal where
  negative : Bool
  digits : Nat
  exponent : Int
  deriving DecidableEq

inductive Json
  | null
  | bool (value : Bool)
  | number (value : Decimal)
  | string (value : Units)
  | array (items : List Json)
  | object (entries : List (Units × Json))

/-! ## Numbers -/

/-- The digits at the start of a text, and what follows them. -/
def digitRun (chars : List Char) : List Char × List Char := chars.span Char.isDigit

def digitsValue (digits : List Char) : Nat :=
  digits.foldl (fun value digit => value * 10 + (digit.toNat - 48)) 0

/-- Drop zeros at the end of the digits. Each step takes one off. -/
def normalize : Nat → Nat → Int → Nat × Int
  | 0, digits, exponent => (digits, exponent)
  | steps + 1, digits, exponent =>
      if digits = 0 then (0, 0)
      else if digits % 10 = 0 then normalize steps (digits / 10) (exponent + 1)
      else (digits, exponent)

def integerPart (chars : List Char) : Option (List Char × List Char) :=
  match digitRun chars with
  | ([], _) => none
  | (digits, rest) => if digits.head? = some '0' ∧ digits.length ≠ 1 then none else some (digits, rest)

def fractionPart : List Char → Option (List Char × List Char)
  | '.' :: rest =>
      match digitRun rest with
      | ([], _) => none
      | (digits, rest) => some (digits, rest)
  | rest => some ([], rest)

def exponentDigits (sign : Int) (chars : List Char) : Option Int :=
  match digitRun chars with
  | ([], _) => none
  | (digits, rest) => if rest.isEmpty then some (sign * digitsValue digits) else none

def exponentPart : List Char → Option Int
  | [] => some 0
  | letter :: rest =>
      if letter = 'e' ∨ letter = 'E' then
        match rest with
        | '+' :: rest => exponentDigits 1 rest
        | '-' :: rest => exponentDigits (-1) rest
        | rest => exponentDigits 1 rest
      else none

def unsignedOf (negative : Bool) (chars : List Char) : Option Decimal :=
  match integerPart chars with
  | none => none
  | some (whole, rest) =>
      match fractionPart rest with
      | none => none
      | some (fraction, rest) =>
          (exponentPart rest).map fun exponent =>
            let digits := whole ++ fraction
            let normal := normalize digits.length (digitsValue digits) (exponent - fraction.length)
            ⟨negative, normal.1, normal.2⟩

def numberOf : List Char → Option Decimal
  | '-' :: rest => unsignedOf true rest
  | rest => unsignedOf false rest

/-! ## Tokens -/

inductive Token
  | punctuation (char : Char)
  | string (value : Units)
  | value (value : Json)

def isPunctuation (char : Char) : Bool :=
  char = '{' ∨ char = '}' ∨ char = '[' ∨ char = ']' ∨ char = ',' ∨ char = ':'

/-- A token of letters and digits. -/
def wordToken (word : List Char) : Option Token :=
  if word = ['n', 'u', 'l', 'l'] then some (.value .null)
  else if word = ['t', 'r', 'u', 'e'] then some (.value (.bool true))
  else if word = ['f', 'a', 'l', 's', 'e'] then some (.value (.bool false))
  else (numberOf word).map fun number => .value (.number number)

/-- Where the scanner stands: between tokens, in a word, in a string, after a
backslash, or after some hex digits of an escape. -/
inductive Scanner
  | between
  | word (chars : List Char)
  | quoted (read : Units)
  | escaped (read : Units)
  | hex (read : Units) (digits : Nat) (value : Nat)

def scanBetween (char : Char) : Scanner × List Token :=
  if isSpace char then (.between, [])
  else if char = '"' then (.quoted [], [])
  else if isPunctuation char then (.between, [.punctuation char])
  else (.word [char], [])

def scanStep : Scanner → Char → Option (Scanner × List Token)
  | .between, char => some (scanBetween char)
  | .word chars, char =>
      if isSpace char ∨ char = '"' ∨ isPunctuation char then
        (wordToken chars).map fun token => ((scanBetween char).1, token :: (scanBetween char).2)
      else some (.word (chars ++ [char]), [])
  | .quoted read, char =>
      if char = '"' then some (.between, [.string read])
      else if char = '\\' then some (.escaped read, [])
      else if char.toNat < 32 then none
      else some (.quoted (read ++ unitsOf char), [])
  | .escaped read, char =>
      if char = 'u' then some (.hex read 0 0, [])
      else (unescapeLetter char).map fun letter => (.quoted (read ++ unitsOf letter), [])
  | .hex read digits value, char =>
      (hexValue char).map fun digit =>
        if digits = 3 then (.quoted (read ++ [value * 16 + digit]), [])
        else (.hex read (digits + 1) (value * 16 + digit), [])

/-- The end of the text ends a word, and nothing else. -/
def scanEnd : Scanner → Option (List Token)
  | .between => some []
  | .word chars => (wordToken chars).map fun token => [token]
  | .quoted _ => none
  | .escaped _ => none
  | .hex _ _ _ => none

def scanFrom : Scanner → List Char → Option (List Token)
  | scanner, [] => scanEnd scanner
  | scanner, char :: rest =>
      match scanStep scanner char with
      | none => none
      | some (next, tokens) => (scanFrom next rest).map fun later => tokens ++ later

def scan (chars : List Char) : Option (List Token) := scanFrom .between chars

/-! ## Values -/

/-- A container that is still open; an object with the key whose value comes next. -/
inductive Open
  | array (items : List Json)
  | object (entries : List (Units × Json)) (key : Units)

inductive Expected
  | value
  | valueOrClose
  | key
  | keyOrClose
  | colon
  | commaOrClose
  | finish (value : Json)

structure Parser where
  opened : List Open := []
  expected : Expected := .value

/-- The last of two entries with one key stands, in the place of the first. -/
def setEntry (entries : List (Units × Json)) (key : Units) (value : Json) : List (Units × Json) :=
  if entries.any fun entry => entry.1 = key then
    entries.map fun entry => if entry.1 = key then (key, value) else entry
  else entries ++ [(key, value)]

/-- A whole value has been read. -/
def place (opened : List Open) (value : Json) : Parser :=
  match opened with
  | [] => { expected := .finish value }
  | .array items :: rest => { opened := .array (items ++ [value]) :: rest, expected := .commaOrClose }
  | .object entries key :: rest =>
      { opened := .object (setEntry entries key value) key :: rest, expected := .commaOrClose }

def beginValue (opened : List Open) : Token → Option Parser
  | .string value => some (place opened (.string value))
  | .value value => some (place opened value)
  | .punctuation char =>
      if char = '[' then some { opened := .array [] :: opened, expected := .valueOrClose }
      else if char = '{' then some { opened := .object [] [] :: opened, expected := .keyOrClose }
      else none

/-- Close the innermost container with its own bracket. -/
def closeWith : List Open → Token → Option Parser
  | .array items :: rest, .punctuation ']' => some (place rest (.array items))
  | .object entries _ :: rest, .punctuation '}' => some (place rest (.object entries))
  | _, _ => none

def readKey : List Open → Token → Option Parser
  | .object entries _ :: rest, .string key =>
      some { opened := .object entries key :: rest, expected := .colon }
  | _, _ => none

def afterComma : List Open → Option Parser
  | [] => none
  | .array items :: rest => some { opened := .array items :: rest, expected := .value }
  | .object entries key :: rest => some { opened := .object entries key :: rest, expected := .key }

def parseStep (parser : Parser) (token : Token) : Option Parser :=
  match parser.expected with
  | .value => beginValue parser.opened token
  | .valueOrClose => (closeWith parser.opened token).or (beginValue parser.opened token)
  | .key => readKey parser.opened token
  | .keyOrClose => (closeWith parser.opened token).or (readKey parser.opened token)
  | .colon =>
      match token with
      | .punctuation ':' => some { parser with expected := .value }
      | _ => none
  | .commaOrClose =>
      match token with
      | .punctuation ',' => afterComma parser.opened
      | token => closeWith parser.opened token
  | .finish _ => none

def finished (parser : Parser) : Option Json :=
  match parser.expected with
  | .finish value => some value
  | _ => none

/-- `JSON.parse`; `none` where it throws. -/
def parse (chars : List Char) : Option Json :=
  match scan chars with
  | none => none
  | some tokens => (tokens.foldlM parseStep {}).bind finished

/-! ## Line endings between tokens -/

theorem scanStep_return (scanner : Scanner) (rest : List Char) :
    scanFrom scanner ('\r' :: '\n' :: rest) = scanFrom scanner ('\n' :: rest) := by
  cases scanner with
  | between => simp [scanFrom, scanStep, scanBetween, isSpace]
  | word chars =>
      have ends (char : Char) (space : isSpace char = true) :
          scanStep (.word chars) char =
            (wordToken chars).map fun token => (.between, [token]) := by
        simp [scanStep, scanBetween, space]
      rw [scanFrom, scanFrom, ends '\r' (by decide), ends '\n' (by decide)]
      cases wordToken chars with
      | none => rfl
      | some token =>
          simp only [Option.map_some, scanFrom, scanStep, scanBetween, isSpace]
          simp
  | quoted read => rfl
  | escaped read => rfl
  | hex read digits value => rfl

theorem scanFrom_return (scanner : Scanner) : scanFrom scanner ['\r'] = scanFrom scanner [] := by
  cases scanner with
  | word chars =>
      have space : isSpace '\r' = true := by decide
      cases word : wordToken chars <;>
        simp [scanFrom, scanStep, scanBetween, scanEnd, space, word]
  | between => rfl
  | quoted read => rfl
  | escaped read => rfl
  | hex read digits value => rfl

theorem scanFrom_append_congr {first second : List Char}
    (same : ∀ scanner, scanFrom scanner first = scanFrom scanner second) (shared : List Char) :
    ∀ scanner, scanFrom scanner (shared ++ first) = scanFrom scanner (shared ++ second) := by
  induction shared with
  | nil => exact same
  | cons char rest induction =>
      intro scanner
      rw [List.cons_append, List.cons_append, scanFrom, scanFrom]
      cases scanStep scanner char with
      | none => rfl
      | some next => simp only [induction]

end CityPods.Foundation.JsonText
