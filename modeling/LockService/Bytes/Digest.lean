import LockService.Bytes.Block
import LockService.Bytes.Words

/-!
# Message digest

The MD5 digest of a byte string: the string is padded with `0x80`, zeros and its length in bits to whole chunks of
64 bytes, and each chunk stirs a state of four words through 64 steps. Every digest is a block, which is all that
key normalization relies on.
-/

namespace LockService.Digest

/-- The four words stirred by each chunk. -/
structure State where
  a : UInt32
  b : UInt32
  c : UInt32
  d : UInt32

/-- The state before the first chunk. -/
def State.start : State := ⟨0x67452301, 0xefcdab89, 0x98badcfe, 0x10325476⟩

/-- The word added in each step: the fraction bits of the sine of the step's number. -/
def sineWords : Array UInt32 := #[
  0xd76aa478, 0xe8c7b756, 0x242070db, 0xc1bdceee, 0xf57c0faf, 0x4787c62a, 0xa8304613, 0xfd469501,
  0x698098d8, 0x8b44f7af, 0xffff5bb1, 0x895cd7be, 0x6b901122, 0xfd987193, 0xa679438e, 0x49b40821,
  0xf61e2562, 0xc040b340, 0x265e5a51, 0xe9b6c7aa, 0xd62f105d, 0x02441453, 0xd8a1e681, 0xe7d3fbc8,
  0x21e1cde6, 0xc33707d6, 0xf4d50d87, 0x455a14ed, 0xa9e3e905, 0xfcefa3f8, 0x676f02d9, 0x8d2a4c8a,
  0xfffa3942, 0x8771f681, 0x6d9d6122, 0xfde5380c, 0xa4beea44, 0x4bdecfa9, 0xf6bb4b60, 0xbebfbc70,
  0x289b7ec6, 0xeaa127fa, 0xd4ef3085, 0x04881d05, 0xd9d4d039, 0xe6db99e5, 0x1fa27cf8, 0xc4ac5665,
  0xf4292244, 0x432aff97, 0xab9423a7, 0xfc93a039, 0x655b59c3, 0x8f0ccc92, 0xffeff47d, 0x85845dd1,
  0x6fa87e4f, 0xfe2ce6e0, 0xa3014314, 0x4e0811a1, 0xf7537e82, 0xbd3af235, 0x2ad7d2bb, 0xeb86d391]

/-- The left rotation of each step: four amounts in turn within each round of sixteen. -/
def rotations : Array UInt32 := #[
  7, 12, 17, 22, 5, 9, 14, 20, 4, 11, 16, 23, 6, 10, 15, 21]

def rotation (i : Nat) : UInt32 := rotations.getD (4 * (i / 16) + i % 4) 0

/-- A word rotated left by `n` bits, `n` between 1 and 31. -/
def rotateLeft (x n : UInt32) : UInt32 := (x <<< n) ||| (x >>> (32 - n))

/-- The mixture of three state words in step `i`, and the index of the chunk word that the step takes in. -/
def mix (i : Nat) (b c d : UInt32) : UInt32 × Nat :=
  if i < 16 then ((b &&& c) ||| (~~~b &&& d), i)
  else if i < 32 then ((d &&& b) ||| (~~~d &&& c), (5 * i + 1) % 16)
  else if i < 48 then (b ^^^ c ^^^ d, (3 * i + 5) % 16)
  else (c ^^^ (b ||| ~~~d), (7 * i) % 16)

/-- One of the 64 steps over a chunk. -/
def step (words : Array UInt32) (s : State) (i : Nat) : State :=
  let (mixed, index) := mix i s.b s.c s.d
  let sum := s.a + mixed + sineWords.getD i 0 + words.getD index 0
  ⟨s.d, s.b + rotateLeft sum (rotation i), s.b, s.c⟩

/-- The first `count` pieces of `size` bytes. -/
def pieces (size : Nat) : Nat → List UInt8 → List (List UInt8)
  | 0, _ => []
  | count + 1, bytes => bytes.take size :: pieces size count (bytes.drop size)

def chunkWords (chunk : List UInt8) : Array UInt32 :=
  ((pieces 4 16 chunk).map fun piece => UInt32.ofNat (ofLittleEndian piece)).toArray

def stir (s : State) (chunk : List UInt8) : State :=
  let t := (List.range 64).foldl (step (chunkWords chunk)) s
  ⟨s.a + t.a, s.b + t.b, s.c + t.c, s.d + t.d⟩

/-- The string filled up to whole chunks. -/
def pad (bytes : List UInt8) : List UInt8 :=
  let zeros := (119 - bytes.length % 64) % 64
  bytes ++ 0x80 :: List.replicate zeros 0 ++ littleEndian 8 (8 * bytes.length)

end LockService.Digest

namespace LockService

def digest (bytes : List UInt8) : Block :=
  let padded := Digest.pad bytes
  let s := (Digest.pieces 64 (padded.length / 64) padded).foldl Digest.stir Digest.State.start
  ⟨littleEndian 4 s.a.toNat ++ littleEndian 4 s.b.toNat ++ littleEndian 4 s.c.toNat ++ littleEndian 4 s.d.toNat,
    by simp⟩

end LockService
