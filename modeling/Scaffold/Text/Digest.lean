/-!
# Digests

The digest of 128 bits that names a checkout. The bytes are padded with a one bit, zeros and
their number of bits, and go block by block through four rounds of sixteen steps.
-/

namespace Scaffold.Text

/-- The constants of the steps. -/
def digestConstants : List UInt32 := [
  0xd76aa478, 0xe8c7b756, 0x242070db, 0xc1bdceee, 0xf57c0faf, 0x4787c62a, 0xa8304613, 0xfd469501,
  0x698098d8, 0x8b44f7af, 0xffff5bb1, 0x895cd7be, 0x6b901122, 0xfd987193, 0xa679438e, 0x49b40821,
  0xf61e2562, 0xc040b340, 0x265e5a51, 0xe9b6c7aa, 0xd62f105d, 0x02441453, 0xd8a1e681, 0xe7d3fbc8,
  0x21e1cde6, 0xc33707d6, 0xf4d50d87, 0x455a14ed, 0xa9e3e905, 0xfcefa3f8, 0x676f02d9, 0x8d2a4c8a,
  0xfffa3942, 0x8771f681, 0x6d9d6122, 0xfde5380c, 0xa4beea44, 0x4bdecfa9, 0xf6bb4b60, 0xbebfbc70,
  0x289b7ec6, 0xeaa127fa, 0xd4ef3085, 0x04881d05, 0xd9d4d039, 0xe6db99e5, 0x1fa27cf8, 0xc4ac5665,
  0xf4292244, 0x432aff97, 0xab9423a7, 0xfc93a039, 0x655b59c3, 0x8f0ccc92, 0xffeff47d, 0x85845dd1,
  0x6fa87e4f, 0xfe2ce6e0, 0xa3014314, 0x4e0811a1, 0xf7537e82, 0xbd3af235, 0x2ad7d2bb, 0xeb86d391]

/-- How far each step turns a word. -/
def digestTurns : List UInt32 :=
  ([[7, 12, 17, 22], [5, 9, 14, 20], [4, 11, 16, 23], [6, 10, 15, 21]] : List (List UInt32)).flatMap
    fun r => r ++ r ++ r ++ r

/-- The four words of a digest. -/
structure DigestState where
  a : UInt32 := 0x67452301
  b : UInt32 := 0xefcdab89
  c : UInt32 := 0x98badcfe
  d : UInt32 := 0x10325476

/-- Turns a word to the left. -/
def turnLeft (x n : UInt32) : UInt32 := (x <<< n) ||| (x >>> (32 - n))

/-- What a step mixes of three words, and which word of the block it takes. -/
def digestMix (step : Nat) (b c d : UInt32) : UInt32 × Nat :=
  if step < 16 then ((b &&& c) ||| (~~~b &&& d), step)
  else if step < 32 then ((d &&& b) ||| (~~~d &&& c), (5 * step + 1) % 16)
  else if step < 48 then (b ^^^ c ^^^ d, (3 * step + 5) % 16)
  else (c ^^^ (b ||| ~~~d), (7 * step) % 16)

/-- A step with its number, constant and turn. -/
def digestStep (block : List UInt32) (s : DigestState) (step : Nat × UInt32 × UInt32) :
    DigestState :=
  let (mixed, index) := digestMix step.1 s.b s.c s.d
  let sum := s.a + mixed + step.2.1 + block.getD index 0
  { a := s.d, b := s.b + turnLeft sum step.2.2, c := s.b, d := s.c }

/-- The steps of a block. -/
def digestSteps : List (Nat × UInt32 × UInt32) :=
  (List.range 64).zip (digestConstants.zip digestTurns)

/-- A block of sixteen words after the blocks before it. -/
def digestBlock (s : DigestState) (block : List UInt32) : DigestState :=
  let t := digestSteps.foldl (digestStep block) s
  { a := s.a + t.a, b := s.b + t.b, c := s.c + t.c, d := s.d + t.d }

/-- Bytes as words, the lowest byte first. -/
def wordsOf : List UInt8 → List UInt32
  | a :: b :: c :: d :: rest =>
    (a.toUInt32 ||| (b.toUInt32 <<< 8) ||| (c.toUInt32 <<< 16) ||| (d.toUInt32 <<< 24)) ::
      wordsOf rest
  | _ => []

/-- The lowest bytes of a number, the lowest one first. -/
def lowBytes : Nat → Nat → List UInt8
  | 0, _ => []
  | count + 1, n => (n % 256).toUInt8 :: lowBytes count (n / 256)

/-- Bytes with their padding. -/
def digestPadded (bytes : List UInt8) : List UInt8 :=
  let zeros := (119 - bytes.length % 64) % 64
  bytes ++ [0x80] ++ List.replicate zeros 0 ++ lowBytes 8 (8 * bytes.length)

/-- Goes over words in blocks of sixteen. -/
def digestWords : Nat → DigestState → List UInt32 → DigestState
  | 0, s, _ => s
  | blocks + 1, s, words => digestWords blocks (digestBlock s (words.take 16)) (words.drop 16)

/-- A byte as two digits. -/
def hexByte (b : UInt8) : List Char :=
  [Nat.digitChar (b.toNat / 16), Nat.digitChar (b.toNat % 16)]

/-- The digest of bytes, as 32 small digits of base sixteen. -/
def digest (bytes : List UInt8) : String :=
  let words := wordsOf (digestPadded bytes)
  let s := digestWords (words.length / 16) {} words
  String.ofList <| ([s.a, s.b, s.c, s.d].flatMap fun w => lowBytes 4 w.toNat).flatMap hexByte

end Scaffold.Text
