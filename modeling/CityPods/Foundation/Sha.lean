import Mathlib.Data.List.Basic

/-! # SHA-1 and SHA-256

The digest function of the modelled language's standard library, on words kept
as natural numbers below `2 ^ 32`.
-/

namespace CityPods.Foundation

namespace Sha1

def word (n : Nat) : Nat := n % 0x100000000

def rotateLeft (x n : Nat) : Nat := word (x <<< n) ||| (x >>> (32 - n))

/-- Big-endian bytes of `n`, `count` of them. -/
def bytesBE : (count n : Nat) → List Nat
  | 0, _ => []
  | count + 1, n => (n >>> (8 * count)) % 256 :: bytesBE count n

def ofBytesBE (bytes : List Nat) : Nat := bytes.foldl (fun acc byte => acc * 256 + byte) 0

def pad (message : List Nat) : List Nat :=
  message ++ 0x80 :: List.replicate ((119 - message.length % 64) % 64) 0 ++
    bytesBE 8 (8 * message.length)

/-- The first `count` pieces of `size` bytes. -/
def chunks (size : Nat) : (count : Nat) → List Nat → List (List Nat)
  | 0, _ => []
  | count + 1, bytes => bytes.take size :: chunks size count (bytes.drop size)

/-- Extend a message schedule, newest word first. -/
def schedule : (rounds : Nat) → List Nat → List Nat
  | 0, words => words
  | rounds + 1, words =>
      schedule rounds (rotateLeft (words.getD 2 0 ^^^ words.getD 7 0 ^^^
        words.getD 13 0 ^^^ words.getD 15 0) 1 :: words)

structure Registers where
  a : Nat
  b : Nat
  c : Nat
  d : Nat
  e : Nat

def initial : Registers := ⟨0x67452301, 0xEFCDAB89, 0x98BADCFE, 0x10325476, 0xC3D2E1F0⟩

/-- The round function and constant of round `index`. -/
def roundValue (index : Nat) (r : Registers) : Nat × Nat :=
  if index < 20 then ((r.b &&& r.c) ||| ((0xFFFFFFFF ^^^ r.b) &&& r.d), 0x5A827999)
  else if index < 40 then (r.b ^^^ r.c ^^^ r.d, 0x6ED9EBA1)
  else if index < 60 then ((r.b &&& r.c) ||| (r.b &&& r.d) ||| (r.c &&& r.d), 0x8F1BBCDC)
  else (r.b ^^^ r.c ^^^ r.d, 0xCA62C1D6)

def round (r : Registers) (indexed : Nat × Nat) : Registers :=
  let (value, constant) := roundValue indexed.2 r
  { a := word (rotateLeft r.a 5 + value + r.e + constant + indexed.1)
    b := r.a
    c := rotateLeft r.b 30
    d := r.c
    e := r.d }

def compress (r : Registers) (chunk : List Nat) : Registers :=
  let words := ((chunks 4 16 chunk).map ofBytesBE).reverse
  let last := (schedule 64 words).reverse.zipIdx.foldl round r
  ⟨word (r.a + last.a), word (r.b + last.b), word (r.c + last.c), word (r.d + last.d),
    word (r.e + last.e)⟩

def digest (message : List Nat) : Nat :=
  let padded := pad message
  let r := (chunks 64 (padded.length / 64) padded).foldl compress initial
  ofBytesBE ([r.a, r.b, r.c, r.d, r.e].flatMap (bytesBE 4))

end Sha1

/-- `int(hashlib.sha1(text.encode()).hexdigest(), 16)` -/
def sha1 (text : String) : Nat := Sha1.digest (text.toUTF8.toList.map UInt8.toNat)

def hexDigit (n : Nat) : Char := "0123456789abcdef".toList.getD (n % 16) '0'

/-- The lowest `count` hexadecimal digits of `n`, most significant first. -/
def hexDigits : (count n : Nat) → List Char
  | 0, _ => []
  | count + 1, n => hexDigit (n >>> (4 * count)) :: hexDigits count n

/-- `hashlib.sha1(text.encode()).hexdigest()` -/
def sha1Hex (text : String) : String := String.ofList (hexDigits 40 (sha1 text))

end CityPods.Foundation

/-! ## SHA-256

The checksum of the stored objects; padding and words are those of SHA-1.
-/

namespace CityPods.Foundation

namespace Sha256

open Sha1 (word pad chunks ofBytesBE bytesBE)

def rotateRight (x n : Nat) : Nat := (x >>> n) ||| word (x <<< (32 - n))

def constants : List Nat :=
  [0x428a2f98, 0x71374491, 0xb5c0fbcf, 0xe9b5dba5, 0x3956c25b, 0x59f111f1, 0x923f82a4, 0xab1c5ed5,
   0xd807aa98, 0x12835b01, 0x243185be, 0x550c7dc3, 0x72be5d74, 0x80deb1fe, 0x9bdc06a7, 0xc19bf174,
   0xe49b69c1, 0xefbe4786, 0x0fc19dc6, 0x240ca1cc, 0x2de92c6f, 0x4a7484aa, 0x5cb0a9dc, 0x76f988da,
   0x983e5152, 0xa831c66d, 0xb00327c8, 0xbf597fc7, 0xc6e00bf3, 0xd5a79147, 0x06ca6351, 0x14292967,
   0x27b70a85, 0x2e1b2138, 0x4d2c6dfc, 0x53380d13, 0x650a7354, 0x766a0abb, 0x81c2c92e, 0x92722c85,
   0xa2bfe8a1, 0xa81a664b, 0xc24b8b70, 0xc76c51a3, 0xd192e819, 0xd6990624, 0xf40e3585, 0x106aa070,
   0x19a4c116, 0x1e376c08, 0x2748774c, 0x34b0bcb5, 0x391c0cb3, 0x4ed8aa4a, 0x5b9cca4f, 0x682e6ff3,
   0x748f82ee, 0x78a5636f, 0x84c87814, 0x8cc70208, 0x90befffa, 0xa4506ceb, 0xbef9a3f7, 0xc67178f2]

structure Registers where
  a : Nat
  b : Nat
  c : Nat
  d : Nat
  e : Nat
  f : Nat
  g : Nat
  h : Nat

def Registers.words (r : Registers) : List Nat := [r.a, r.b, r.c, r.d, r.e, r.f, r.g, r.h]

def initial : Registers :=
  ⟨0x6a09e667, 0xbb67ae85, 0x3c6ef372, 0xa54ff53a, 0x510e527f, 0x9b05688c, 0x1f83d9ab, 0x5be0cd19⟩

/-- Extend a message schedule, newest word first. -/
def schedule : (rounds : Nat) → List Nat → List Nat
  | 0, words => words
  | rounds + 1, words =>
      let early := words.getD 14 0
      let late := words.getD 1 0
      let first := rotateRight early 7 ^^^ rotateRight early 18 ^^^ (early >>> 3)
      let second := rotateRight late 17 ^^^ rotateRight late 19 ^^^ (late >>> 10)
      schedule rounds (word (words.getD 15 0 + first + words.getD 6 0 + second) :: words)

def round (r : Registers) (input : Nat × Nat) : Registers :=
  let sum := rotateRight r.e 6 ^^^ rotateRight r.e 11 ^^^ rotateRight r.e 25
  let choice := (r.e &&& r.f) ^^^ ((0xFFFFFFFF ^^^ r.e) &&& r.g)
  let first := r.h + sum + choice + input.1 + input.2
  let other := rotateRight r.a 2 ^^^ rotateRight r.a 13 ^^^ rotateRight r.a 22
  let majority := (r.a &&& r.b) ^^^ (r.a &&& r.c) ^^^ (r.b &&& r.c)
  ⟨word (first + other + majority), r.a, r.b, r.c, word (r.d + first), r.e, r.f, r.g⟩

def compress (r : Registers) (chunk : List Nat) : Registers :=
  let words := ((chunks 4 16 chunk).map ofBytesBE).reverse
  let last := (constants.zip (schedule 48 words).reverse).foldl round r
  ⟨word (r.a + last.a), word (r.b + last.b), word (r.c + last.c), word (r.d + last.d),
    word (r.e + last.e), word (r.f + last.f), word (r.g + last.g), word (r.h + last.h)⟩

def digest (message : List Nat) : Nat :=
  let padded := pad message
  let r := (chunks 64 (padded.length / 64) padded).foldl compress initial
  ofBytesBE (r.words.flatMap (bytesBE 4))

end Sha256

/-- `hashlib.sha256(text.encode()).hexdigest()` -/
def sha256Hex (text : String) : String :=
  String.ofList (hexDigits 64 (Sha256.digest (text.toUTF8.toList.map UInt8.toNat)))

example : sha256Hex "abc" = "ba7816bf8f01cfea414140de5dae2223b00361a396177a9cb410ff61f20015ad" := by
  decide +kernel

end CityPods.Foundation
