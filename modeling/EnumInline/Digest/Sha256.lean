/-!
The SHA-256 digest of a sequence of bytes.
-/

namespace EnumInline.Digest

/-- The round constants: fractional bits of the cube roots of the first 64 primes. -/
def roundConstants : List UInt32 :=
  [0x428a2f98, 0x71374491, 0xb5c0fbcf, 0xe9b5dba5, 0x3956c25b, 0x59f111f1, 0x923f82a4, 0xab1c5ed5,
    0xd807aa98, 0x12835b01, 0x243185be, 0x550c7dc3, 0x72be5d74, 0x80deb1fe, 0x9bdc06a7, 0xc19bf174,
    0xe49b69c1, 0xefbe4786, 0x0fc19dc6, 0x240ca1cc, 0x2de92c6f, 0x4a7484aa, 0x5cb0a9dc, 0x76f988da,
    0x983e5152, 0xa831c66d, 0xb00327c8, 0xbf597fc7, 0xc6e00bf3, 0xd5a79147, 0x06ca6351, 0x14292967,
    0x27b70a85, 0x2e1b2138, 0x4d2c6dfc, 0x53380d13, 0x650a7354, 0x766a0abb, 0x81c2c92e, 0x92722c85,
    0xa2bfe8a1, 0xa81a664b, 0xc24b8b70, 0xc76c51a3, 0xd192e819, 0xd6990624, 0xf40e3585, 0x106aa070,
    0x19a4c116, 0x1e376c08, 0x2748774c, 0x34b0bcb5, 0x391c0cb3, 0x4ed8aa4a, 0x5b9cca4f, 0x682e6ff3,
    0x748f82ee, 0x78a5636f, 0x84c87814, 0x8cc70208, 0x90befffa, 0xa4506ceb, 0xbef9a3f7, 0xc67178f2]

/-- The eight words that are carried from block to block. -/
structure Words where
  a : UInt32
  b : UInt32
  c : UInt32
  d : UInt32
  e : UInt32
  f : UInt32
  g : UInt32
  h : UInt32

namespace Words

/-- The words before the first block: fractional bits of the square roots of the first eight primes. -/
def initial : Words :=
  ⟨0x6a09e667, 0xbb67ae85, 0x3c6ef372, 0xa54ff53a, 0x510e527f, 0x9b05688c, 0x1f83d9ab, 0x5be0cd19⟩

def add (x y : Words) : Words :=
  ⟨x.a + y.a, x.b + y.b, x.c + y.c, x.d + y.d, x.e + y.e, x.f + y.f, x.g + y.g, x.h + y.h⟩

def toList (x : Words) : List UInt32 := [x.a, x.b, x.c, x.d, x.e, x.f, x.g, x.h]

end Words

def rotateRight (x : UInt32) (n : UInt32) : UInt32 := (x >>> n) ||| (x <<< (32 - n))

def round (words : Words) (input : UInt32 × UInt32) : Words :=
  let sumE := rotateRight words.e 6 ^^^ rotateRight words.e 11 ^^^ rotateRight words.e 25
  let choice := (words.e &&& words.f) ^^^ (~~~words.e &&& words.g)
  let first := words.h + sumE + choice + input.1 + input.2
  let sumA := rotateRight words.a 2 ^^^ rotateRight words.a 13 ^^^ rotateRight words.a 22
  let majority := (words.a &&& words.b) ^^^ (words.a &&& words.c) ^^^ (words.b &&& words.c)
  ⟨first + (sumA + majority), words.a, words.b, words.c, words.d + first, words.e, words.f, words.g⟩

/-- Extends a schedule by `count` words. The latest sixteen words are at hand, the last one first. -/
def extendSchedule : (count : Nat) → (latest : List UInt32) → List UInt32
  | 0, _ => []
  | count + 1, latest =>
      let at_ (n : Nat) : UInt32 := latest.getD (n - 1) 0
      let w15 := at_ 15
      let w2 := at_ 2
      let s0 := rotateRight w15 7 ^^^ rotateRight w15 18 ^^^ (w15 >>> 3)
      let s1 := rotateRight w2 17 ^^^ rotateRight w2 19 ^^^ (w2 >>> 10)
      let word := at_ 16 + s0 + at_ 7 + s1
      word :: extendSchedule count ((word :: latest).take 16)

/-- The sixty-four words that a block of sixteen words is spread to. -/
def schedule (block : List UInt32) : List UInt32 := block ++ extendSchedule 48 block.reverse

def compress (words : Words) (block : List UInt32) : Words :=
  words.add ((roundConstants.zip (schedule block)).foldl round words)

/-- The last `count` bytes of a number, the most significant first. -/
def bytesOf (count value : Nat) : List UInt8 :=
  (List.range count).map fun i => UInt8.ofNat (value / Nat.pow 256 (count - 1 - i))

/-- The bytes followed by a mark, zeros and their number of bits, in whole blocks. -/
def padded (bytes : List UInt8) : List UInt8 :=
  let zeros := (119 - bytes.length % 64) % 64
  bytes ++ 0x80 :: List.replicate zeros 0 ++ bytesOf 8 (8 * bytes.length)

def wordsOf : List UInt8 → List UInt32
  | p :: q :: r :: s :: rest =>
      ((p.toUInt32 <<< 24) ||| (q.toUInt32 <<< 16) ||| (r.toUInt32 <<< 8) ||| s.toUInt32) :: wordsOf rest
  | _ => []

def compressBlocks : (count : Nat) → Words → List UInt32 → Words
  | 0, words, _ => words
  | count + 1, words, input => compressBlocks count (compress words (input.take 16)) (input.drop 16)

/-- The digest in lower-case hexadecimal digits. -/
def sha256 (bytes : List UInt8) : String :=
  let input := wordsOf (padded bytes)
  let words := compressBlocks (input.length / 16) .initial input
  String.ofList <| words.toList.flatMap fun word =>
    (List.range 8).map fun i => Nat.digitChar (word.toNat / Nat.pow 16 (7 - i) % 16)

end EnumInline.Digest
