import Mathlib.Data.BitVec
import Mathlib.Data.List.Basic

/-!
# SHA-256

This file gives the SHA-256 hash function on byte strings, as published in the
Secure Hash Standard, together with its hexadecimal digest.

Nothing is assumed about the function here beyond its definition. Statements
that rest on the absence of collisions say so for the inputs they use, since no
function with a fixed-size digest is injective on all byte strings.
-/

namespace Sha256

abbrev Word := BitVec 32

/-- The eight working variables. -/
structure State where
  a : Word
  b : Word
  c : Word
  d : Word
  e : Word
  f : Word
  g : Word
  h : Word

def roundConstants : List Word :=
  [0x428a2f98, 0x71374491, 0xb5c0fbcf, 0xe9b5dba5, 0x3956c25b, 0x59f111f1, 0x923f82a4,
    0xab1c5ed5, 0xd807aa98, 0x12835b01, 0x243185be, 0x550c7dc3, 0x72be5d74, 0x80deb1fe,
    0x9bdc06a7, 0xc19bf174, 0xe49b69c1, 0xefbe4786, 0x0fc19dc6, 0x240ca1cc, 0x2de92c6f,
    0x4a7484aa, 0x5cb0a9dc, 0x76f988da, 0x983e5152, 0xa831c66d, 0xb00327c8, 0xbf597fc7,
    0xc6e00bf3, 0xd5a79147, 0x06ca6351, 0x14292967, 0x27b70a85, 0x2e1b2138, 0x4d2c6dfc,
    0x53380d13, 0x650a7354, 0x766a0abb, 0x81c2c92e, 0x92722c85, 0xa2bfe8a1, 0xa81a664b,
    0xc24b8b70, 0xc76c51a3, 0xd192e819, 0xd6990624, 0xf40e3585, 0x106aa070, 0x19a4c116,
    0x1e376c08, 0x2748774c, 0x34b0bcb5, 0x391c0cb3, 0x4ed8aa4a, 0x5b9cca4f, 0x682e6ff3,
    0x748f82ee, 0x78a5636f, 0x84c87814, 0x8cc70208, 0x90befffa, 0xa4506ceb, 0xbef9a3f7,
    0xc67178f2]

def initial : State :=
  ⟨0x6a09e667, 0xbb67ae85, 0x3c6ef372, 0xa54ff53a, 0x510e527f, 0x9b05688c, 0x1f83d9ab,
    0x5be0cd19⟩

def smallSigma0 (x : Word) : Word := x.rotateRight 7 ^^^ x.rotateRight 18 ^^^ (x >>> 3)

def smallSigma1 (x : Word) : Word := x.rotateRight 17 ^^^ x.rotateRight 19 ^^^ (x >>> 10)

def bigSigma0 (x : Word) : Word :=
  x.rotateRight 2 ^^^ x.rotateRight 13 ^^^ x.rotateRight 22

def bigSigma1 (x : Word) : Word :=
  x.rotateRight 6 ^^^ x.rotateRight 11 ^^^ x.rotateRight 25

def choose (x y z : Word) : Word := (x &&& y) ^^^ (~~~x &&& z)

def majority (x y z : Word) : Word := (x &&& y) ^^^ (x &&& z) ^^^ (y &&& z)

/-- Extends the message schedule by `n` words; the latest word comes first. -/
def schedule : ℕ → List Word → List Word
  | 0, words => words
  | n + 1, words =>
      let next := smallSigma1 (words.getD 1 0) + words.getD 6 0 +
        smallSigma0 (words.getD 14 0) + words.getD 15 0
      schedule n (next :: words)

/-- One round with its constant and schedule word. -/
def round (s : State) (constant word : Word) : State :=
  let t1 := s.h + bigSigma1 s.e + choose s.e s.f s.g + constant + word
  let t2 := bigSigma0 s.a + majority s.a s.b s.c
  ⟨t1 + t2, s.a, s.b, s.c, s.d + t1, s.e, s.f, s.g⟩

/-- Absorbs one block of sixteen words. -/
def compress (s : State) (block : List Word) : State :=
  let words := (schedule 48 block.reverse).reverse
  let r := (roundConstants.zip words).foldl (fun s kw => round s kw.1 kw.2) s
  ⟨s.a + r.a, s.b + r.b, s.c + r.c, s.d + r.d, s.e + r.e, s.f + r.f, s.g + r.g, s.h + r.h⟩

/-- Splits off `count` chunks of the given size. -/
def chunks {α : Type} (size : ℕ) : ℕ → List α → List (List α)
  | 0, _ => []
  | count + 1, xs => xs.take size :: chunks size count (xs.drop size)

/-- The big-endian word of a chunk of bytes. -/
def wordOfBytes (bytes : List ℕ) : Word :=
  BitVec.ofNat 32 (bytes.foldl (fun acc byte => acc * 256 + byte) 0)

/-- The message followed by a one bit, zeros, and its length in bits. -/
def pad (bytes : List ℕ) : List ℕ :=
  let zeros := (119 - bytes.length % 64) % 64
  bytes ++ 128 :: List.replicate zeros 0 ++
    (List.range 8).map fun i => bytes.length * 8 / 256 ^ (7 - i) % 256

def hash (bytes : List ℕ) : State :=
  let padded := pad bytes
  (chunks 64 (padded.length / 64) padded).foldl
    (fun s block => compress s ((chunks 4 16 block).map wordOfBytes)) initial

def hexChars : List Char := "0123456789abcdef".toList

def hexWord (w : Word) : List Char :=
  (List.range 8).map fun i => hexChars.getD (w.toNat / 16 ^ (7 - i) % 16) '0'

def State.hex (s : State) : List Char :=
  [s.a, s.b, s.c, s.d, s.e, s.f, s.g, s.h].flatMap hexWord

/-- The hexadecimal digest of a byte string. -/
def hexdigest (bytes : List UInt8) : List Char :=
  (hash (bytes.map UInt8.toNat)).hex

theorem length_hexdigest (bytes : List UInt8) : (hexdigest bytes).length = 64 := by
  simp [hexdigest, State.hex, hexWord]

/-- The digest of the one-block test message of the standard. -/
example : String.ofList (hexdigest "abc".toByteArray.data.toList) =
    "ba7816bf8f01cfea414140de5dae2223b00361a396177a9cb410ff61f20015ad" := by
  decide +kernel

end Sha256
