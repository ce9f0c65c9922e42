import CityPods.Foundation.Loop
import CityPods.Foundation.Texts

/-! # Chunked downloads

The download of an object in exact ranges, with one full download where the
server ignores ranges. A server is the sequence of what it does with the
requests; a body comes in chunks, of any lengths, and may break off.
-/

namespace CityPods.Media

open Foundation
open Foundation.Whitespace (isSpace strip)

/-! ## Headers -/

def isDigit (char : Char) : Bool := '0' ≤ char && char ≤ '9'

def digitsValue (digits : List Char) : Nat :=
  digits.foldl (fun value digit => 10 * value + (digit.toNat - '0'.toNat)) 0

/-- Digits, where one underscore may stand between two. -/
def underscoredDigits : List Char → Option (List Char)
  | [] => none
  | digit :: rest =>
      if isDigit digit then
        match rest with
        | [] => some [digit]
        | '_' :: later => (underscoredDigits later).map (digit :: ·)
        | later => (underscoredDigits later).map (digit :: ·)
      else none

/-- What `int` reads. -/
def intOf (text : String) : Option Int :=
  match (strip text).toList with
  | '-' :: digits => (underscoredDigits digits).map fun digits => -(digitsValue digits : Int)
  | '+' :: digits => (underscoredDigits digits).map fun digits => (digitsValue digits : Int)
  | digits => (underscoredDigits digits).map fun digits => (digitsValue digits : Int)

/-- A number that is not negative, in spite of the name. -/
def positiveInt (value : Option String) : Option Nat :=
  match value.bind intOf with
  | none => none
  | some parsed => if parsed ≥ 0 then some parsed.toNat else none

structure ContentRange where
  start : Nat
  last : Nat
  /-- None stands for the asterisk. -/
  total : Option Nat

def takeNumber (text : List Char) : Option (Nat × List Char) :=
  let digits := text.takeWhile isDigit
  if digits.isEmpty then none else some (digitsValue digits, text.dropWhile isDigit)

def rangeTotal (text : List Char) : Option (Option Nat) :=
  if text = ['*'] then some none
  else
    match takeNumber text with
    | some (total, []) => some (some total)
    | _ => none

/-- `^bytes\s+(\d+)-(\d+)/(\d+|\*)$`, case ignored. -/
def contentRange (header : Option String) : Option ContentRange :=
  let text := (strip (header.getD "")).toList
  let spaced := text.drop 5
  if (text.take 5).map Char.toLower = ['b', 'y', 't', 'e', 's'] ∧ (spaced.head?.any isSpace) then
    match takeNumber (spaced.dropWhile isSpace) with
    | some (start, '-' :: afterStart) =>
        match takeNumber afterStart with
        | some (last, '/' :: afterLast) =>
            (rangeTotal afterLast).map fun total => ⟨start, last, total⟩
        | _ => none
    | _ => none
  else none

/-! ## Responses -/

/-- What sending a request or reading its response may raise. -/
inductive TransportError
  /-- Any request exception. -/
  | request
  | other
  deriving DecidableEq

inductive Raised
  | chunkedDownload (message : String)
  | rangeUnsupported (message : String)
  | request
  | stopRequested (message : String)
  | security
  | value (message : String)
  | other
  deriving DecidableEq

def TransportError.raised : TransportError → Raised
  | .request => .request
  | .other => .other

structure Response where
  status : Nat
  contentLength : Option String
  contentRange : Option String
  chunks : List (List UInt8)
  /-- What the transport raises after these chunks. -/
  failure : Option TransportError

def Response.body (response : Response) : List UInt8 := response.chunks.flatten

structure Environment where
  /-- What becomes of each request, in the order in which they are sent. -/
  server : Nat → TransportError ⊕ Response
  /-- Whether a stop is asked for when a chunk of a response arrives. -/
  stopAsked : Nat → Nat → Bool
  /-- The check of the address. -/
  validated : Except Raised Unit
  /-- The wait for a place at the host. -/
  admitted : Except Raised Unit

structure Settings where
  chunkBytes : Nat
  maxBytes : Option Nat
  maxDownloadBytes : Option Nat

/-- Whether a number is over a limit that is given. -/
def exceeds (number : Nat) (limit : Option Nat) : Bool := limit.any (number > ·)

/-! ## One body -/

section

variable (expectedBytes maxBytes maxDownloadBytes : Option Nat)

/-- The end of a body. -/
def finishStream (written : Nat) : Except Raised Nat :=
  if maxDownloadBytes = some written then .ok written
  else
    match expectedBytes with
    | none => .ok written
    | some expected =>
        if written = expected then .ok written
        else .error (.chunkedDownload
          s!"Worker response was truncated: received {written} of {expected} bytes")

variable (stopAsked : Nat → Bool) (failure : Option TransportError)

def streamChunks : Nat → Nat → List UInt8 → List (List UInt8) → List UInt8 × Except Raised Nat
  | _, written, dest, [] =>
      match failure with
      | some error => (dest, .error error.raised)
      | none => (dest, finishStream expectedBytes maxDownloadBytes written)
  | index, written, dest, chunk :: rest =>
      if stopAsked index then (dest, .error (.stopRequested "chunked download stopped"))
      else if chunk.isEmpty then streamChunks (index + 1) written dest rest
      else if exceeds (written + chunk.length) maxDownloadBytes then
        let limit := maxDownloadBytes.getD 0
        let allowed := limit - written
        (dest ++ chunk.take allowed,
          finishStream expectedBytes maxDownloadBytes (written + allowed))
      else if exceeds (written + chunk.length) expectedBytes then
        (dest, .error (.chunkedDownload "Worker response exceeded its declared byte range"))
      else if exceeds (written + chunk.length) maxBytes then
        (dest, .error (.chunkedDownload "Worker response exceeded the configured media cap"))
      else if maxDownloadBytes = some (written + chunk.length) then
        (dest ++ chunk, .ok (written + chunk.length))
      else streamChunks (index + 1) (written + chunk.length) (dest ++ chunk) rest

end

def streamResponse (response : Response) (expectedBytes maxBytes maxDownloadBytes : Option Nat)
    (stopAsked : Nat → Bool) : List UInt8 × Except Raised Nat :=
  if 400 ≤ response.status ∧ response.status < 600 then ([], .error .request)
  else streamChunks expectedBytes maxBytes maxDownloadBytes stopAsked response.failure 0 0 []
    response.chunks

/-! ## A full download -/

section

variable (environment : Environment) (settings : Settings)

def downloadFull (requests : Nat) (dest : List UInt8) : List UInt8 × Except Raised Nat :=
  match environment.server requests with
  | .inl error => (dest, .error error.raised)
  | .inr response =>
      if response.status ≠ 200 then
        (dest, .error (.chunkedDownload
          s!"Worker full download returned HTTP {response.status}"))
      else
        let advertised := positiveInt response.contentLength
        if advertised.any fun length => exceeds length settings.maxBytes then
          (dest, .error (.chunkedDownload "Worker object exceeds the configured media cap"))
        else
          streamResponse response advertised settings.maxBytes settings.maxDownloadBytes
            (environment.stopAsked requests)

/-! ## Ranges -/

/-- The requests sent so far, and what has come of them. -/
structure RangeState where
  requests : Nat
  start : Nat
  total : Option Nat
  output : List UInt8

structure RangeFailure where
  raised : Raised
  state : RangeState

def rangeAttempts : Nat := 2

def transientRangeStatuses : List Nat := [408, 425, 429, 500, 502, 503, 504]

def cappedTotal (total : Nat) : Nat :=
  match settings.maxDownloadBytes with
  | some limit => min total limit
  | none => total

/-- Set together with the total. -/
def targetBytes (state : RangeState) : Option Nat := state.total.map (cappedTotal settings)

/-- The byte after the requested range. -/
def rangeStop (state : RangeState) : Nat :=
  let remaining :=
    match targetBytes settings state with
    | some target => some (target - state.start)
    | none => settings.maxDownloadBytes.map (· - state.start)
  let step :=
    match remaining with
    | some remaining => min settings.chunkBytes remaining
    | none => settings.chunkBytes
  state.start + step

/-- The last byte and the total of a partial response that answers the request. -/
def checkRange (stop : Nat) (state : RangeState) (response : Response) :
    Except String (Nat × Nat) :=
  match contentRange response.contentRange with
  | none => .error "Worker 206 response omitted a valid Content-Range"
  | some range =>
      match range.total with
      | none => .error "Worker 206 response omitted the total object size"
      | some total =>
          if range.start ≠ state.start ∨ range.last < range.start then
            .error "Worker returned the wrong byte range"
          else if state.total.isNone && exceeds total settings.maxBytes then
            .error "Worker object exceeds the configured media cap"
          else if state.total.any (· ≠ total) then
            .error "Worker object size changed during range download"
          -- The requested end is one less than the smaller of the two, and may be -1.
          else if range.last + 1 ≠ min stop total then
            .error "Worker returned an incomplete Content-Range"
          else .ok (range.last, total)

/-- What one request does: it is answered, it may be repeated, or all is over. -/
inductive Answer
  | received (state : RangeState)
  | retry (raised : Raised) (state : RangeState)
  | failed (raised : Raised) (state : RangeState)

def sendRange (stop : Nat) (state : RangeState) : Answer :=
  let sent := { state with requests := state.requests + 1 }
  match environment.server state.requests with
  | .inl .request => .retry .request sent
  | .inl error => .failed error.raised sent
  | .inr response =>
      if response.status = 200 then
        .failed (.rangeUnsupported "Worker/upstream ignored the requested Range") sent
      else if response.status ∈ transientRangeStatuses then
        .retry (.chunkedDownload s!"Worker range download returned HTTP {response.status}") sent
      else if response.status ≠ 206 then
        .failed (.chunkedDownload s!"Worker range download returned HTTP {response.status}") sent
      else
        match checkRange settings stop state response with
        | .error message => .failed (.chunkedDownload message) sent
        | .ok (last, total) =>
            let known := { sent with total := some total }
            -- The range is staged, and appended when it is complete.
            match streamResponse response (some (last - state.start + 1)) none none
              (environment.stopAsked state.requests) with
            | (staged, .ok received) =>
                .received { known with
                  start := state.start + received
                  output := state.output ++ staged }
            | (_, .error .request) => .retry .request known
            | (_, .error raised) => .failed raised known

def attemptRange (stop : Nat) : Nat → RangeState → Except RangeFailure RangeState
  | 0, state => .ok state
  | attempts + 1, state =>
      match sendRange environment settings stop state with
      | .received next => .ok next
      | .failed raised later => .error ⟨raised, later⟩
      | .retry raised later =>
          if attempts = 0 then .error ⟨raised, later⟩ else attemptRange stop attempts later

def rangePass (state : RangeState) : RangeState ⊕ Except RangeFailure RangeState :=
  if (targetBytes settings state).all (state.start < ·) then
    match attemptRange environment settings (rangeStop settings state) rangeAttempts state with
    | .ok next => .inl next
    | .error failure => .inr (.error failure)
  else .inr (.ok state)

def rangeStart : RangeState := ⟨0, 0, none, []⟩

def assembledSize (state : RangeState) : Except Raised Nat :=
  if targetBytes settings state = some state.start ∧ state.output.length = state.start then
    .ok state.output.length
  else .error (.chunkedDownload "assembled Worker ranges did not match the object size")

structure Download where
  result : Except Raised Nat
  dest : List UInt8

def handled : Except Raised Nat → Except Raised Nat
  | .error .request => .error (.chunkedDownload "Worker download request failed")
  | .error .security => .error (.chunkedDownload "Worker URL failed source validation")
  | result => result

def afterRanges : Except RangeFailure RangeState → Download
  | .ok state => ⟨handled (assembledSize settings state), state.output⟩
  | .error failure =>
      match failure.raised with
      | .rangeUnsupported _ =>
          let full := downloadFull environment settings failure.state.requests failure.state.output
          ⟨handled full.2, full.1⟩
      | raised => ⟨handled (.error raised), failure.state.output⟩

/-- With the content of the file before, and fuel for the range loop. -/
def downloadVerified (fuel : Nat) (before : List UInt8) : Option Download :=
  if settings.chunkBytes ≤ 0 then some ⟨.error (.value "chunk_bytes must be positive"), before⟩
  else if settings.maxDownloadBytes.any (· ≤ 0) then
    some ⟨.error (.value "max_download_bytes must be positive"), before⟩
  else
    match environment.validated, environment.admitted with
    | .error raised, _ => some ⟨.error raised, before⟩
    | .ok _, .error raised => some ⟨handled (.error raised), before⟩
    | .ok _, .ok _ =>
        (Loop.run (rangePass environment settings) fuel rangeStart).map
          (afterRanges environment settings)

end

end CityPods.Media
