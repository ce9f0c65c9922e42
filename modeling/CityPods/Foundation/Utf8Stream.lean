import Mathlib.Tactic.NormNum
import CityPods.Foundation.LineEndings

/-! # Decoding UTF-8 in pieces

The decoder of the Encoding standard: one byte at a time, a replacement character
for what is malformed, and a byte order mark dropped at the start.
-/

namespace CityPods.Foundation.Utf8Stream

open LineEndings

structure Decoder where
  /-- The bytes that the code point still needs. -/
  owed : Nat := 0
  point : Nat := 0
  /-- The bounds of the next byte. -/
  lower : Nat := 0x80
  upper : Nat := 0xBF
  /-- A first character was read, or dropped as a byte order mark. -/
  started : Bool := false
  deriving DecidableEq

def replacement : Char := '\uFFFD'

def byteOrderMark : Char := '\uFEFF'

/-- The state after a whole character, and the character unless it is the mark. -/
def emit (started : Bool) (char : Char) : Decoder × List Char :=
  ({ started := true }, if started = false ∧ char = byteOrderMark then [] else [char])

def lead (started : Bool) (byte : Nat) : Decoder × List Char :=
  if byte ≤ 0x7F then emit started (Char.ofNat byte)
  else if 0xC2 ≤ byte ∧ byte ≤ 0xDF then
    ({ owed := 1, point := byte % 32, started := started }, [])
  else if 0xE0 ≤ byte ∧ byte ≤ 0xEF then
    ({ owed := 2, point := byte % 16, started := started
       lower := if byte = 0xE0 then 0xA0 else 0x80
       upper := if byte = 0xED then 0x9F else 0xBF }, [])
  else if 0xF0 ≤ byte ∧ byte ≤ 0xF4 then
    ({ owed := 3, point := byte % 8, started := started
       lower := if byte = 0xF0 then 0x90 else 0x80
       upper := if byte = 0xF4 then 0x8F else 0xBF }, [])
  else emit started replacement

def step (decoder : Decoder) (byte : Nat) : Decoder × List Char :=
  if decoder.owed = 0 then lead decoder.started byte
  else if decoder.lower ≤ byte ∧ byte ≤ decoder.upper then
    let point := decoder.point * 64 + byte % 64
    if decoder.owed = 1 then emit decoder.started (Char.ofNat point)
    else ({ owed := decoder.owed - 1, point := point, started := decoder.started }, [])
  else
    -- The byte is read again, as the first of a character.
    ((lead true byte).1, replacement :: (lead true byte).2)

/-- The text of some bytes, after which more may come. -/
def decode (decoder : Decoder) : List UInt8 → Decoder × List Char
  | [] => (decoder, [])
  | byte :: rest =>
      let read := step decoder byte.toNat
      let later := decode read.1 rest
      (later.1, read.2 ++ later.2)

/-- What the end of the bytes adds. -/
def finish (decoder : Decoder) : List Char := if decoder.owed = 0 then [] else [replacement]

theorem decode_append (decoder : Decoder) (first second : List UInt8) :
    decode decoder (first ++ second) =
      ((decode (decode decoder first).1 second).1,
        (decode decoder first).2 ++ (decode (decode decoder first).1 second).2) := by
  induction first generalizing decoder with
  | nil => rfl
  | cons byte rest induction => simp only [List.cons_append, decode, induction, List.append_assoc]

/-! ## Line endings

Both characters of a line ending are one byte long and end whatever character was
begun, so the endings of the text are the endings of the bytes.
-/

/-- A character begun so far can only be longer than one byte. -/
structure Decoder.Sound (decoder : Decoder) : Prop where
  last : decoder.owed = 1 → 2 ≤ decoder.point
  second : decoder.owed = 2 → 1 ≤ decoder.point ∨ 0xA0 ≤ decoder.lower
  third : decoder.owed = 3 → 1 ≤ decoder.point ∨ 0x90 ≤ decoder.lower
  bound : decoder.owed ≤ 3
  lower : 0x80 ≤ decoder.lower
  upper : decoder.upper ≤ 0xBF

theorem emit_sound (started : Bool) (char : Char) : (emit started char).1.Sound := by
  constructor <;> simp [emit]

theorem lead_sound (started : Bool) (byte : Nat) : (lead started byte).1.Sound := by
  unfold lead
  split_ifs
  all_goals first | exact emit_sound _ _ | (constructor <;> simp <;> omega)

variable {decoder : Decoder}

theorem step_sound (sound : decoder.Sound) (byte : Nat) :
    (step decoder byte).1.Sound := by
  obtain ⟨last, second, third, bound, lower, upper⟩ := sound
  unfold step
  split_ifs
  · exact lead_sound _ _
  · exact emit_sound _ _
  · constructor <;> simp <;> omega
  · exact lead_sound _ _

/-- The carriage return of the text is the carriage return of the bytes. -/
def EndsAlike (byte : Nat) (chars : List Char) : Prop :=
  ∀ after, afterText '\r' after chars = true → byte = 13 ∨ (chars = [] ∧ after = true)

variable {byte : Nat} {started : Bool} {char : Char}

theorem emit_endsAlike (alike : char = '\r' → byte = 13) :
    EndsAlike byte (emit started char).2 := by
  intro after returned
  simp only [emit] at returned ⊢
  split_ifs at returned ⊢
  · exact Or.inr ⟨rfl, returned⟩
  · exact Or.inl (alike (by simpa using returned))

variable {point : Nat}

theorem ofNat_eq (positive : char.toNat ≠ 0)
    (same : Char.ofNat point = char) : point = char.toNat := by
  by_cases valid : point.isValidChar
  · rw [Char.ofNat, dif_pos valid] at same
    exact congrArg Char.toNat same
  · rw [Char.ofNat, dif_neg valid] at same
    exact absurd (congrArg Char.toNat same).symm positive

theorem ofNat_eq_return (same : Char.ofNat point = '\r') : point = 13 :=
  ofNat_eq (by decide) same

theorem nil_endsAlike (byte : Nat) : EndsAlike byte [] := fun _ returned => Or.inr ⟨rfl, returned⟩

theorem lead_endsAlike (started : Bool) (byte : Nat) : EndsAlike byte (lead started byte).2 := by
  unfold lead
  split
  · exact emit_endsAlike ofNat_eq_return
  split
  · exact nil_endsAlike byte
  split
  · exact nil_endsAlike byte
  split
  · exact nil_endsAlike byte
  · exact emit_endsAlike fun same => absurd same (by decide)

theorem step_endsAlike (sound : decoder.Sound) (byte : Nat) :
    EndsAlike byte (step decoder byte).2 := by
  unfold step
  split
  · exact lead_endsAlike _ _
  split
  · split
    next last =>
      refine emit_endsAlike fun same => ?_
      have large := sound.last last
      have point := ofNat_eq_return same
      omega
    next => exact nil_endsAlike byte
  · intro after returned
    rw [afterText_cons, decide_eq_false (by decide)] at returned
    rcases lead_endsAlike _ _ _ returned with same | ⟨_, impossible⟩
    · exact Or.inl same
    · exact absurd impossible (by decide)

theorem lead_started (byte : Nat) :
    (lead true byte).1.started = true ∧ ((lead true byte).2 = [] → (lead true byte).1.owed ≠ 0) := by
  unfold lead
  split_ifs <;> simp [emit]

/-- Once a character was read, a byte that adds none begins or continues one. -/
theorem step_started (started : decoder.started = true) (bound : decoder.owed ≤ 3) (byte : Nat) :
    (step decoder byte).1.started = true ∧
      ((step decoder byte).2 = [] → (step decoder byte).1.owed ≠ 0) := by
  unfold step
  rw [started]
  split
  · exact lead_started byte
  split
  · split
    · simp [emit]
    · simp only [true_and]
      omega
  · exact ⟨(lead_started byte).1, fun silent => absurd silent (by simp)⟩

theorem lead_adds (adds : (lead started byte).2 ≠ []) :
    (lead started byte).1.started = true := by
  unfold lead at adds ⊢
  split_ifs at adds ⊢ <;> simp_all [emit]

theorem step_adds (adds : (step decoder byte).2 ≠ []) :
    (step decoder byte).1.started = true := by
  unfold step at adds ⊢
  split at adds
  · rw [if_pos ‹_›]
    exact lead_adds adds
  · rw [if_neg ‹_›]
    split at adds
    · rw [if_pos ‹_›]
      split at adds
      · rw [if_pos ‹_›]
        rfl
      · exact absurd rfl adds
    · rw [if_neg ‹_›]
      exact (lead_started byte).1

/-- The whole text of the bytes that come next. -/
def textFrom (decoder : Decoder) (bytes : List UInt8) : List Char :=
  (decode decoder bytes).2 ++ finish (decode decoder bytes).1

theorem textFrom_cons (decoder : Decoder) (byte : UInt8) (rest : List UInt8) :
    textFrom decoder (byte :: rest) =
      (step decoder byte.toNat).2 ++ textFrom (step decoder byte.toNat).1 rest := by
  simp only [textFrom, decode, List.append_assoc]

theorem textFrom_append (decoder : Decoder) (first second : List UInt8) :
    textFrom decoder (first ++ second) =
      (decode decoder first).2 ++ textFrom (decode decoder first).1 second := by
  rw [textFrom, decode_append, textFrom, List.append_assoc]

/-- Both characters of a line ending stand for themselves, after what the bytes before
them left unfinished. -/
theorem step_ascii (sound : decoder.Sound) (ascii : byte < 128) :
    step decoder byte = ({ started := true }, finish decoder ++ [Char.ofNat byte]) := by
  have leading (started : Bool) :
      lead started byte = ({ started := true }, [Char.ofNat byte]) := by
    have plain : Char.ofNat byte ≠ byteOrderMark := by
      intro same
      have value := ofNat_eq (by decide) same
      have mark : byteOrderMark.toNat = 0xFEFF := rfl
      omega
    rw [lead, if_pos (by omega), emit, if_neg fun both => plain both.2]
  rw [step, finish]
  split
  · exact leading _
  · have below := sound.lower
    rw [if_neg (by omega), leading]
    rfl

theorem textFrom_ascii (sound : decoder.Sound) {byte : UInt8}
    (ascii : byte.toNat < 128) (rest : List UInt8) :
    textFrom decoder (byte :: rest) =
      finish decoder ++ Char.ofNat byte.toNat :: textFrom { started := true } rest := by
  rw [textFrom_cons, step_ascii sound ascii, List.append_assoc]
  rfl

theorem started_sound : ({ started := true } : Decoder).Sound := by
  constructor <;> simp

theorem init_sound : ({} : Decoder).Sound := by
  constructor <;> simp

/-- Where the text so far ends with a carriage return, so do the bytes so far. -/
def Alike (decoder : Decoder) (afterChar afterByte : Bool) : Prop :=
  afterChar = true → decoder.started = true ∧ (decoder.owed = 0 → afterByte = true)

variable {afterChar afterByte : Bool}

theorem step_alike (sound : decoder.Sound)
    (alike : Alike decoder afterChar afterByte) (byte : Nat) :
    Alike (step decoder byte).1 (afterText '\r' afterChar (step decoder byte).2)
      (decide (byte = 13)) := by
  intro returned
  rcases step_endsAlike sound byte afterChar returned with same | ⟨silent, after⟩
  · refine ⟨?_, fun _ => decide_eq_true same⟩
    by_cases silent : (step decoder byte).2 = []
    · rw [silent, afterText_nil] at returned
      exact (step_started (alike returned).1 sound.bound byte).1
    · exact step_adds silent
  · obtain ⟨started, pending⟩ := step_started (alike after).1 sound.bound byte
    exact ⟨started, fun whole => absurd whole (pending silent)⟩

theorem textFrom_widened (sound : decoder.Sound)
    (alike : Alike decoder afterChar afterByte) {narrow wide : List UInt8}
    (widened : Widened 13 10 afterByte narrow wide) :
    Widened '\r' '\n' afterChar (textFrom decoder narrow) (textFrom decoder wide) := by
  induction widened generalizing decoder afterChar with
  | nil => exact .refl _ _
  | keep afterByte byte _ induction =>
      rw [textFrom_cons, textFrom_cons]
      have next := step_alike sound alike byte.toNat
      have same : decide (byte.toNat = 13) = decide (byte = 13) := by
        rw [decide_eq_decide, ← UInt8.toNat_inj]
        rfl
      exact Widened.prepend _ (induction (step_sound sound _) (same ▸ next))
  | widen _ induction =>
      have line := textFrom_ascii sound (show (10 : UInt8).toNat < 128 by decide)
      have returned := textFrom_ascii sound (show (13 : UInt8).toNat < 128 by decide)
      have fed := textFrom_ascii started_sound (show (10 : UInt8).toNat < 128 by decide)
      rw [line, returned, fed]
      refine Widened.prepend _ ?_
      have bareFeed : afterText '\r' afterChar (finish decoder) = false := by
        rw [finish]
        split
        next whole =>
          rw [afterText_nil]
          by_contra returned
          exact absurd ((alike (eq_true_of_ne_false returned)).2 whole) (by decide)
        next => rfl
      rw [bareFeed]
      exact .widen (induction started_sound fun impossible => absurd impossible (by decide))

end CityPods.Foundation.Utf8Stream
