import Montage.Text.Quoted

/-!
# MD5

The 128-bit digest of a byte sequence: the message is padded to whole blocks of 64 bytes, and
each block turns a state of four words by 64 steps. Words are little-endian throughout.
-/
namespace Montage.Md5

/-- The word added in each step: the first 32 bits of the fraction of the sine. -/
def sines : Array UInt32 := #[
  0xd76aa478, 0xe8c7b756, 0x242070db, 0xc1bdceee, 0xf57c0faf, 0x4787c62a, 0xa8304613, 0xfd469501,
  0x698098d8, 0x8b44f7af, 0xffff5bb1, 0x895cd7be, 0x6b901122, 0xfd987193, 0xa679438e, 0x49b40821,
  0xf61e2562, 0xc040b340, 0x265e5a51, 0xe9b6c7aa, 0xd62f105d, 0x02441453, 0xd8a1e681, 0xe7d3fbc8,
  0x21e1cde6, 0xc33707d6, 0xf4d50d87, 0x455a14ed, 0xa9e3e905, 0xfcefa3f8, 0x676f02d9, 0x8d2a4c8a,
  0xfffa3942, 0x8771f681, 0x6d9d6122, 0xfde5380c, 0xa4beea44, 0x4bdecfa9, 0xf6bb4b60, 0xbebfbc70,
  0x289b7ec6, 0xeaa127fa, 0xd4ef3085, 0x04881d05, 0xd9d4d039, 0xe6db99e5, 0x1fa27cf8, 0xc4ac5665,
  0xf4292244, 0x432aff97, 0xab9423a7, 0xfc93a039, 0x655b59c3, 0x8f0ccc92, 0xffeff47d, 0x85845dd1,
  0x6fa87e4f, 0xfe2ce6e0, 0xa3014314, 0x4e0811a1, 0xf7537e82, 0xbd3af235, 0x2ad7d2bb, 0xeb86d391]

/-- How far each step rotates, four steps to a pattern and four patterns to a round. -/
def rotations : Array UInt32 := #[
  7, 12, 17, 22, 5, 9, 14, 20, 4, 11, 16, 23, 6, 10, 15, 21]

structure State where
  a : UInt32
  b : UInt32
  c : UInt32
  d : UInt32

def start : State := ⟨0x67452301, 0xefcdab89, 0x98badcfe, 0x10325476⟩

def rotateLeft (x n : UInt32) : UInt32 := (x <<< n) ||| (x >>> (32 - n))

/-- The mixing function of a step's round and the message word that the step takes. -/
def mix (s : State) (i : Nat) : UInt32 × Nat :=
  if i < 16 then ((s.b &&& s.c) ||| (~~~s.b &&& s.d), i)
  else if i < 32 then ((s.d &&& s.b) ||| (~~~s.d &&& s.c), (5 * i + 1) % 16)
  else if i < 48 then (s.b ^^^ s.c ^^^ s.d, (3 * i + 5) % 16)
  else (s.c ^^^ (s.b ||| ~~~s.d), 7 * i % 16)

def step (words : Array UInt32) (s : State) (i : Nat) : State :=
  let (f, k) := mix s i
  let sum := s.a + f + sines.getD i 0 + words.getD k 0
  let turn := rotations.getD (4 * (i / 16) + i % 4) 0
  ⟨s.d, s.b + rotateLeft sum turn, s.b, s.c⟩

/-- The number of little-endian bytes. -/
def littleEndian (bytes : List UInt8) : Nat :=
  bytes.foldr (fun b n => b.toNat + 256 * n) 0

/-- The first `count` little-endian bytes of a number. -/
def bytesOf (count n : Nat) : List UInt8 :=
  (List.range count).map fun i => UInt8.ofNat (n >>> (8 * i))

/-- Consecutive pieces of `size` bytes, `count` of them. -/
def pieces (size : Nat) : Nat → List UInt8 → List (List UInt8)
  | 0, _ => []
  | count + 1, bytes => bytes.take size :: pieces size count (bytes.drop size)

def turnBlock (s : State) (block : List UInt8) : State :=
  let words := ((pieces 4 16 block).map fun w => UInt32.ofNat (littleEndian w)).toArray
  let t := (List.range 64).foldl (step words) s
  ⟨s.a + t.a, s.b + t.b, s.c + t.c, s.d + t.d⟩

/-- The message, a one bit, zeros up to eight bytes before a block's end, and its bit count. -/
def padded (message : List UInt8) : List UInt8 :=
  let zeros := (119 - message.length % 64) % 64
  message ++ 0x80 :: List.replicate zeros 0 ++ bytesOf 8 (8 * message.length)

def digest (message : List UInt8) : List UInt8 :=
  let bytes := padded message
  let s := (pieces 64 (bytes.length / 64) bytes).foldl turnBlock start
  [s.a, s.b, s.c, s.d].flatMap fun w => bytesOf 4 w.toNat

/-- The digest of a text's UTF-8 bytes, in 32 hexadecimal digits. -/
def hexDigest (text : String) : String :=
  String.ofList ((digest (Text.bytes text)).flatMap fun b => Text.hex 2 b.toNat)

end Montage.Md5
