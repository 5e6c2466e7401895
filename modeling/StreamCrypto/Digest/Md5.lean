import StreamCrypto.Bytes.Words
import StreamCrypto.Digest.Word
import StreamCrypto.Digest.Compression

/-!
# MD5

Four rounds of sixteen steps over four 32-bit words, with words and length in
little-endian order. Each step has a constant of its own.
-/

namespace StreamCrypto.Digest.Md5

open Word

structure State where
  a : UInt32
  b : UInt32
  c : UInt32
  d : UInt32

/-- One round: its function, and the message word and rotation of each step. -/
structure Round where
  mix : UInt32 → UInt32 → UInt32 → UInt32
  words : List Nat
  rotations : List UInt32
  constants : List UInt32

/-- The integer parts of `2 ^ 32 * |sin i|` for `i` from 1 to 64. -/
def sineTable : List UInt32 :=
  [0xd76aa478, 0xe8c7b756, 0x242070db, 0xc1bdceee, 0xf57c0faf, 0x4787c62a, 0xa8304613, 0xfd469501,
   0x698098d8, 0x8b44f7af, 0xffff5bb1, 0x895cd7be, 0x6b901122, 0xfd987193, 0xa679438e, 0x49b40821,
   0xf61e2562, 0xc040b340, 0x265e5a51, 0xe9b6c7aa, 0xd62f105d, 0x02441453, 0xd8a1e681, 0xe7d3fbc8,
   0x21e1cde6, 0xc33707d6, 0xf4d50d87, 0x455a14ed, 0xa9e3e905, 0xfcefa3f8, 0x676f02d9, 0x8d2a4c8a,
   0xfffa3942, 0x8771f681, 0x6d9d6122, 0xfde5380c, 0xa4beea44, 0x4bdecfa9, 0xf6bb4b60, 0xbebfbc70,
   0x289b7ec6, 0xeaa127fa, 0xd4ef3085, 0x04881d05, 0xd9d4d039, 0xe6db99e5, 0x1fa27cf8, 0xc4ac5665,
   0xf4292244, 0x432aff97, 0xab9423a7, 0xfc93a039, 0x655b59c3, 0x8f0ccc92, 0xffeff47d, 0x85845dd1,
   0x6fa87e4f, 0xfe2ce6e0, 0xa3014314, 0x4e0811a1, 0xf7537e82, 0xbd3af235, 0x2ad7d2bb, 0xeb86d391]

/-- Message words `start`, `start + stride`, … modulo 16. -/
def wordsFrom (start stride : Nat) : List Nat :=
  (List.range 16).map fun i ↦ (start + stride * i) % 16

def rounds : List Round :=
  [{ mix := choose
     words := wordsFrom 0 1
     rotations := inTurn [7, 12, 17, 22]
     constants := sineTable.take 16 },
   { mix := fun x y z ↦ choose z x y
     words := wordsFrom 1 5
     rotations := inTurn [5, 9, 14, 20]
     constants := (sineTable.drop 16).take 16 },
   { mix := parity
     words := wordsFrom 5 3
     rotations := inTurn [4, 11, 16, 23]
     constants := (sineTable.drop 32).take 16 },
   { mix := fun x y z ↦ y ^^^ (x ||| ~~~z)
     words := wordsFrom 0 7
     rotations := inTurn [6, 10, 15, 21]
     constants := sineTable.drop 48 }]

/-- The registers move on by one place in each step. -/
def Round.step (round : Round) (message : Array UInt32) (s : State)
    (row : Nat × UInt32 × UInt32) : State :=
  let (word, rotation, constant) := row
  let sum := s.a + round.mix s.b s.c s.d + message.getD word 0 + constant
  ⟨s.d, s.b + rotateLeft32 rotation sum, s.b, s.c⟩

def Round.run (message : Array UInt32) (s : State) (round : Round) : State :=
  (round.words.zip (round.rotations.zip round.constants)).foldl (round.step message) s

def absorb (s : State) (block : Bytes) : State :=
  let message := (Bytes.words32LittleEndian block).toArray
  let t := rounds.foldl (Round.run message) s
  ⟨s.a + t.a, s.b + t.b, s.c + t.c, s.d + t.d⟩

def compression : Compression where
  State := State
  blockSize := 64
  blockSize_pos := sixtyFour_pos
  initial := ⟨0x67452301, 0xefcdab89, 0x98badcfe, 0x10325476⟩
  absorb := absorb
  lengthWidth := 8
  lengthField := Bytes.ofNatLittleEndian 8
  output s := [s.a, s.b, s.c, s.d].flatMap Bytes.ofWord32LittleEndian

end StreamCrypto.Digest.Md5
