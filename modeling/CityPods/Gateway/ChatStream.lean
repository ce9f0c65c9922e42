import CityPods.Foundation.JsonText
import CityPods.Foundation.Utf8Stream

/-! # Streamed chat replies

A stream of server-sent events, read chunk by chunk and assembled into the reply a
call without streaming returns.
-/

namespace CityPods.Gateway.ChatStream

open Foundation.JsonText
open Foundation.Utf8Stream

inductive Failure
  | typeError
  | endedEarly
  | tooLarge
  deriving DecidableEq

/-! ## JavaScript values -/

/-- A property of a value; `undefined` is `none`. -/
def property (name : String) : Json → Except Failure (Option Json)
  | .null => .error .typeError
  | .object entries => .ok ((entries.find? fun entry => entry.1 = units name).map Prod.snd)
  | _ => .ok none

/-- `value?.name`. -/
def optionalProperty (name : String) : Option Json → Except Failure (Option Json)
  | none => .ok none
  | some .null => .ok none
  | some value => property name value

def truthy : Option Json → Bool
  | none => false
  | some .null => false
  | some (.bool value) => value
  | some (.number value) => value.digits ≠ 0
  | some (.string value) => value ≠ []
  | some (.array _) => true
  | some (.object _) => true

/-- `first ?? second`. -/
def coalesce (first second : Option Json) : Option Json :=
  match first with
  | none => second
  | some .null => second
  | some value => some value

def digitUnits (digits : Nat) : Units := (Nat.toDigits 10 digits).map Char.toNat

def zeros (count : Int) : Units := List.replicate count.toNat 48

def numberText (number : Decimal) : Units :=
  let digits := digitUnits number.digits
  let point := digits.length + number.exponent
  let sign := if number.negative then units "-" else []
  let magnitude := point - 1
  let power := units (if magnitude < 0 then "e-" else "e+") ++ digitUnits magnitude.natAbs
  if number.digits = 0 then units "0"
  else if digits.length ≤ point ∧ point ≤ 21 then sign ++ digits ++ zeros number.exponent
  else if 0 < point ∧ point ≤ 21 then
    sign ++ digits.take point.toNat ++ units "." ++ digits.drop point.toNat
  else if -6 < point ∧ point ≤ 0 then sign ++ units "0." ++ zeros (-point) ++ digits
  else if digits.length = 1 then sign ++ digits ++ power
  else sign ++ digits.take 1 ++ units "." ++ digits.drop 1 ++ power

mutual

/-- A value as a string. An object with a `toString` of its own, which no JSON text
can make a function, has none. -/
def textOf : Json → Except Failure Units
  | .null => .ok (units "null")
  | .bool value => .ok (units (if value then "true" else "false"))
  | .number value => .ok (numberText value)
  | .string value => .ok value
  | .array items => textOfItems items
  | .object entries =>
      if entries.any fun entry => entry.1 = units "toString" then .error .typeError
      else .ok (units "[object Object]")

/-- The items joined by commas; `null` adds nothing. -/
def textOfItems : List Json → Except Failure Units
  | [] => .ok []
  | [.null] => .ok []
  | [item] => textOf item
  | .null :: rest => do
      let later ← textOfItems rest
      .ok (units "," ++ later)
  | item :: rest => do
      let text ← textOf item
      let later ← textOfItems rest
      .ok (text ++ units "," ++ later)

end

def arrayIndex (key : Units) : Option Nat :=
  match numberOf (key.map Char.ofNat) with
  | none => none
  | some number =>
      let index := number.digits * 10 ^ number.exponent.toNat
      if key = digitUnits index ∧ index < 4294967295 then some index else none

/-! ## Chunks -/

structure ToolCall where
  id : Option Json
  type : Json
  name : Units
  arguments : Units

/-- What the chunks of a stream have added up to. -/
structure Parts where
  id : Option Json := none
  model : Option Json := none
  created : Option Json := none
  usage : Option Json := none
  finishReason : Option Json := none
  errorBody : Option Json := none
  content : Units := []
  reasoning : Units := []
  reasoningKey : String := "reasoning_content"
  toolCalls : List (Nat × ToolCall) := []

/-- `text += value` for a value that counts. -/
def appendText (text : Units) (value : Option Json) : Except Failure Units :=
  match value with
  | none => .ok text
  | some value => if truthy (some value) then (textOf value).map fun more => text ++ more else .ok text

/-- Keep the calls in the order of their indices. -/
def setCall (calls : List (Nat × ToolCall)) (index : Nat) (call : ToolCall) :
    List (Nat × ToolCall) :=
  calls.filter (fun entry => entry.1 < index) ++
    (index, call) :: calls.filter fun entry => index < entry.1

def storeCall (calls : List (Nat × ToolCall)) (key : Units) (call : ToolCall) :
    List (Nat × ToolCall) :=
  match arrayIndex key with
  | none => calls
  | some index => setCall calls index call

def slotFor (calls : List (Nat × ToolCall)) (key : Units) (id type : Option Json) : ToolCall :=
  let fresh : ToolCall :=
    ⟨id, if truthy type then type.getD .null else .string (units "function"), [], []⟩
  match arrayIndex key with
  | none => fresh
  | some index => ((calls.find? fun entry => entry.1 = index).map Prod.snd).getD fresh

def zero : Json := .number ⟨false, 0, 0⟩

def addToolCall (calls : List (Nat × ToolCall)) (call : Json) :
    Except Failure (List (Nat × ToolCall)) := do
  let index ← property "index" call
  let key ← textOf ((coalesce index (some zero)).getD zero)
  let id ← property "id" call
  let type ← property "type" call
  let slot := slotFor calls key id type
  let function ← property "function" call
  let name ← optionalProperty "name" function
  let named ← appendText slot.name name
  let arguments ← optionalProperty "arguments" function
  let argued ← appendText slot.arguments arguments
  .ok (storeCall calls key
    { slot with id := if truthy id then id else slot.id, name := named, arguments := argued })

/-- What `for … of` visits. The pieces of a string have none of a call's properties. -/
def callsOf (calls : Option Json) : Except Failure (List Json) :=
  if truthy calls then
    match calls with
    | some (.array items) => .ok items
    | some (.string read) => .ok (read.map fun unit => .string [unit])
    | _ => .error .typeError
  else .ok []

/-- `value?.[0]`. -/
def firstOf : Option Json → Option Json
  | some (.array items) => items.head?
  | some (.string (unit :: _)) => some (.string [unit])
  | some (.object entries) => (entries.find? fun entry => entry.1 = units "0").map Prod.snd
  | _ => none

def addReasoning (key : String) (delta : Json) (parts : Parts) : Except Failure Parts := do
  let value ← property key delta
  .ok (match value with
    | some (.string text) => { parts with reasoningKey := key, reasoning := parts.reasoning ++ text }
    | _ => parts)

def addContent (delta : Json) (parts : Parts) : Except Failure Parts := do
  let value ← property "content" delta
  .ok (match value with
    | some (.string text) => { parts with content := parts.content ++ text }
    | _ => parts)

def addChoice (choice : Json) (parts : Parts) : Except Failure Parts := do
  let given ← property "delta" choice
  let delta := if truthy given then given.getD .null else .object []
  let parts ← addContent delta parts
  let parts ← addReasoning "reasoning_content" delta parts
  let parts ← addReasoning "reasoning" delta parts
  let given ← property "tool_calls" delta
  let calls ← callsOf given
  let toolCalls ← calls.foldlM addToolCall parts.toolCalls
  let finishReason ← property "finish_reason" choice
  .ok { parts with
    toolCalls := toolCalls
    finishReason := if truthy finishReason then finishReason else parts.finishReason }

def addFields (chunk : Json) (parts : Parts) : Except Failure Parts := do
  let id ← property "id" chunk
  let model ← property "model" chunk
  let created ← property "created" chunk
  let usage ← property "usage" chunk
  let choices ← property "choices" chunk
  let parts := { parts with
    id := coalesce parts.id id
    model := coalesce parts.model model
    created := coalesce parts.created created
    usage := if truthy usage then usage else parts.usage }
  if truthy (firstOf choices) then addChoice ((firstOf choices).getD .null) parts else .ok parts

def addChunk (parts : Parts) (chunk : Json) : Except Failure Parts := do
  let error ← optionalProperty "error" (some chunk)
  if truthy error then .ok { parts with errorBody := error } else addFields chunk parts

/-! ## Events -/

def dataField : List Char := "data:".toList

def doneMarker : List Char := "[DONE]".toList

def dataValue (line : List Char) : List Char :=
  match line.drop 5 with
  | ' ' :: value => value
  | value => value

def eventData (frame : List Char) : List Char :=
  ['\n'].intercalate (((frame.splitOn '\n').filter fun line => dataField.isPrefixOf line).map dataValue)

structure Assembly where
  parts : Parts := {}
  done : Bool := false

def handle (assembly : Assembly) (frame : List Char) : Except Failure Assembly :=
  if eventData frame = [] then .ok assembly
  else if eventData frame = doneMarker then .ok { assembly with done := true }
  else
    match parse (eventData frame) with
    | none => .ok assembly
    | some chunk => (addChunk assembly.parts chunk).map fun parts => { assembly with parts := parts }

/-! ## Frames -/

/-- What follows a line ending at the start of a text. -/
def afterEnding : List Char → Option (List Char)
  | '\n' :: rest => some rest
  | '\r' :: '\n' :: rest => some rest
  | _ => none

/-- What follows `/\r?\n\r?\n/` at the start of a text. -/
def afterSeparator (text : List Char) : Option (List Char) := (afterEnding text).bind afterEnding

def cutFrame : List Char → Option (List Char × List Char)
  | [] => none
  | char :: rest =>
      match afterSeparator (char :: rest) with
      | some later => some ([], later)
      | none => (cutFrame rest).map fun cut => (char :: cut.1, cut.2)

/-- Handle the whole frames of a buffer. Each takes a character at least. -/
def drain : Nat → Assembly → List Char → Except Failure (Assembly × List Char)
  | 0, assembly, buffer => .ok (assembly, buffer)
  | steps + 1, assembly, buffer =>
      match cutFrame buffer with
      | none => .ok (assembly, buffer)
      | some (frame, rest) =>
          match handle assembly frame with
          | .error failure => .error failure
          | .ok assembly => drain steps assembly rest

/-! ## The stream -/

structure Reading where
  decoder : Decoder := {}
  buffer : List Char := []
  size : Nat := 0
  assembly : Assembly := {}

def readChunk (maxChars : Nat) (reading : Reading) (chunk : List UInt8) : Except Failure Reading :=
  let size := reading.size + chunk.length
  if maxChars < size then .error .tooLarge
  else
    let decoded := decode reading.decoder chunk
    let buffer := reading.buffer ++ decoded.2
    (drain buffer.length reading.assembly buffer).map fun drained =>
      ⟨decoded.1, drained.2, size, drained.1⟩

/-- The characters that `trim` takes off. -/
def isBlank (char : Char) : Bool :=
  (9 ≤ char.toNat ∧ char.toNat ≤ 13) ∨ (0x2000 ≤ char.toNat ∧ char.toNat ≤ 0x200A) ∨
    char.toNat ∈ [0x20, 0xA0, 0x1680, 0x2028, 0x2029, 0x202F, 0x205F, 0x3000, 0xFEFF]

structure Reply where
  id : Option Json
  created : Option Json
  model : Option Json
  content : Units
  reasoning : Option (String × Units)
  toolCalls : List ToolCall
  finishReason : Option Json
  usage : Option Json

inductive Body
  | error (error : Json)
  | completion (reply : Reply)

def replyOf (parts : Parts) : Reply :=
  { id := parts.id
    created := parts.created
    model := parts.model
    content := parts.content
    reasoning := if parts.reasoning = [] then none else some (parts.reasoningKey, parts.reasoning)
    toolCalls := parts.toolCalls.map Prod.snd
    finishReason := parts.finishReason
    usage := parts.usage }

def conclude (assembly : Assembly) : Except Failure Body :=
  match assembly.parts.errorBody with
  | some error => .ok (.error error)
  | none =>
      if assembly.done = false ∧ assembly.parts.finishReason = none then .error .endedEarly
      else .ok (.completion (replyOf assembly.parts))

/-- The last frame needs no separator. -/
def handleRest (assembly : Assembly) (buffer : List Char) : Except Failure Assembly :=
  if buffer.all isBlank then .ok assembly else handle assembly buffer

def assembleChatStream (maxChars : Nat) (chunks : List (List UInt8)) : Except Failure Body := do
  let reading ← chunks.foldlM (readChunk maxChars) {}
  let assembly ← handleRest reading.assembly (reading.buffer ++ finish reading.decoder)
  conclude assembly

end CityPods.Gateway.ChatStream
