import StreamCrypto.Bytes.Words
import StreamCrypto.Digest.Word
import StreamCrypto.Digest.Compression

/-!
# RIPEMD-160

Two lines of five rounds run side by side over five 32-bit words, and their results are
combined with the state they started from. Words and length are in little-endian order.
-/

namespace StreamCrypto.Digest.Ripemd160

open Word

structure State where
  a : UInt32
  b : UInt32
  c : UInt32
  d : UInt32
  e : UInt32

/-- One round: its function, its constant, and the message word and rotation of each step. -/
structure Round where
  mix : UInt32 → UInt32 → UInt32 → UInt32
  constant : UInt32
  words : List Nat
  rotations : List UInt32

def mix1 (x y z : UInt32) : UInt32 := x ^^^ y ^^^ z

def mix2 (x y z : UInt32) : UInt32 := (x &&& y) ||| (~~~x &&& z)

def mix3 (x y z : UInt32) : UInt32 := (x ||| ~~~y) ^^^ z

def mix4 (x y z : UInt32) : UInt32 := (x &&& z) ||| (y &&& ~~~z)

def mix5 (x y z : UInt32) : UInt32 := x ^^^ (y ||| ~~~z)

def leftLine : List Round :=
  [⟨mix1, 0x00000000,
    [0, 1, 2, 3, 4, 5, 6, 7, 8, 9, 10, 11, 12, 13, 14, 15],
    [11, 14, 15, 12, 5, 8, 7, 9, 11, 13, 14, 15, 6, 7, 9, 8]⟩,
   ⟨mix2, 0x5a827999,
    [7, 4, 13, 1, 10, 6, 15, 3, 12, 0, 9, 5, 2, 14, 11, 8],
    [7, 6, 8, 13, 11, 9, 7, 15, 7, 12, 15, 9, 11, 7, 13, 12]⟩,
   ⟨mix3, 0x6ed9eba1,
    [3, 10, 14, 4, 9, 15, 8, 1, 2, 7, 0, 6, 13, 11, 5, 12],
    [11, 13, 6, 7, 14, 9, 13, 15, 14, 8, 13, 6, 5, 12, 7, 5]⟩,
   ⟨mix4, 0x8f1bbcdc,
    [1, 9, 11, 10, 0, 8, 12, 4, 13, 3, 7, 15, 14, 5, 6, 2],
    [11, 12, 14, 15, 14, 15, 9, 8, 9, 14, 5, 6, 8, 6, 5, 12]⟩,
   ⟨mix5, 0xa953fd4e,
    [4, 0, 5, 9, 7, 12, 2, 10, 14, 1, 3, 8, 11, 6, 15, 13],
    [9, 15, 5, 11, 6, 8, 13, 12, 5, 12, 13, 14, 11, 8, 5, 6]⟩]

def rightLine : List Round :=
  [⟨mix5, 0x50a28be6,
    [5, 14, 7, 0, 9, 2, 11, 4, 13, 6, 15, 8, 1, 10, 3, 12],
    [8, 9, 9, 11, 13, 15, 15, 5, 7, 7, 8, 11, 14, 14, 12, 6]⟩,
   ⟨mix4, 0x5c4dd124,
    [6, 11, 3, 7, 0, 13, 5, 10, 14, 15, 8, 12, 4, 9, 1, 2],
    [9, 13, 15, 7, 12, 8, 9, 11, 7, 7, 12, 7, 6, 15, 13, 11]⟩,
   ⟨mix3, 0x6d703ef3,
    [15, 5, 1, 3, 7, 14, 6, 9, 11, 8, 12, 2, 10, 0, 4, 13],
    [9, 7, 15, 11, 8, 6, 6, 14, 12, 13, 5, 14, 13, 13, 7, 5]⟩,
   ⟨mix2, 0x7a6d76e9,
    [8, 6, 4, 1, 3, 11, 15, 0, 5, 12, 2, 13, 9, 7, 10, 14],
    [15, 5, 8, 11, 14, 14, 6, 14, 6, 9, 12, 9, 12, 5, 15, 8]⟩,
   ⟨mix1, 0x00000000,
    [12, 15, 10, 4, 1, 5, 8, 7, 6, 2, 13, 14, 0, 3, 9, 11],
    [8, 5, 12, 9, 12, 5, 14, 6, 8, 13, 6, 5, 15, 13, 11, 11]⟩]

def Round.step (round : Round) (message : Array UInt32) (s : State)
    (row : Nat × UInt32) : State :=
  let sum := s.a + round.mix s.b s.c s.d + message.getD row.1 0 + round.constant
  ⟨s.e, rotateLeft32 row.2 sum + s.e, s.b, rotateLeft32 10 s.c, s.d⟩

def Round.run (message : Array UInt32) (s : State) (round : Round) : State :=
  (round.words.zip round.rotations).foldl (round.step message) s

/-- Each new word is the sum of one old word and one word from each line, at three
different places. -/
def absorb (s : State) (block : Bytes) : State :=
  let message := (Bytes.words32LittleEndian block).toArray
  let l := leftLine.foldl (Round.run message) s
  let r := rightLine.foldl (Round.run message) s
  ⟨s.b + l.c + r.d, s.c + l.d + r.e, s.d + l.e + r.a, s.e + l.a + r.b, s.a + l.b + r.c⟩

def compression : Compression where
  State := State
  blockSize := 64
  blockSize_pos := sixtyFour_pos
  initial := ⟨0x67452301, 0xefcdab89, 0x98badcfe, 0x10325476, 0xc3d2e1f0⟩
  absorb := absorb
  lengthWidth := 8
  lengthField := Bytes.ofNatLittleEndian 8
  output s := [s.a, s.b, s.c, s.d, s.e].flatMap Bytes.ofWord32LittleEndian

end StreamCrypto.Digest.Ripemd160
