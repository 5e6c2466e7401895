import StreamCrypto.Bytes.Words
import StreamCrypto.Digest.Word
import StreamCrypto.Digest.Compression

/-!
# MD4

Three rounds of sixteen steps over four 32-bit words, with words and length in
little-endian order.
-/

namespace StreamCrypto.Digest.Md4

open Word

structure State where
  a : UInt32
  b : UInt32
  c : UInt32
  d : UInt32

/-- One round: its function, its constant, and the message word and rotation of each step. -/
structure Round where
  mix : UInt32 → UInt32 → UInt32 → UInt32
  constant : UInt32
  words : List Nat
  rotations : List UInt32

def rounds : List Round :=
  [{ mix := choose
     constant := 0
     words := List.range 16
     rotations := inTurn [3, 7, 11, 19] },
   { mix := majority
     constant := 0x5a827999
     words := [0, 4, 8, 12, 1, 5, 9, 13, 2, 6, 10, 14, 3, 7, 11, 15]
     rotations := inTurn [3, 5, 9, 13] },
   { mix := parity
     constant := 0x6ed9eba1
     words := [0, 8, 4, 12, 2, 10, 6, 14, 1, 9, 5, 13, 3, 11, 7, 15]
     rotations := inTurn [3, 9, 11, 15] }]

/-- The registers move on by one place in each step. -/
def Round.step (round : Round) (message : Array UInt32) (s : State)
    (row : Nat × UInt32) : State :=
  let sum := s.a + round.mix s.b s.c s.d + message.getD row.1 0 + round.constant
  ⟨s.d, rotateLeft32 row.2 sum, s.b, s.c⟩

def Round.run (message : Array UInt32) (s : State) (round : Round) : State :=
  (round.words.zip round.rotations).foldl (round.step message) s

def absorb (s : State) (block : Bytes) : State :=
  let message := (Bytes.words32LittleEndian block).toArray
  let t := rounds.foldl (Round.run message) s
  ⟨s.a + t.a, s.b + t.b, s.c + t.c, s.d + t.d⟩

def compression : Compression where
  State := State
  blockSize := 64
  blockSize_pos := sixtyFour_pos
  initial := ⟨0x67452301, 0xefcdab89, 0x98badcfe, 0x10325476⟩
  absorb := absorb
  lengthWidth := 8
  lengthField := Bytes.ofNatLittleEndian 8
  output s := [s.a, s.b, s.c, s.d].flatMap Bytes.ofWord32LittleEndian

end StreamCrypto.Digest.Md4
