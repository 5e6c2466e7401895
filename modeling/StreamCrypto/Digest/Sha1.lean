import StreamCrypto.Bytes.Words
import StreamCrypto.Digest.Word
import StreamCrypto.Digest.Compression

/-!
# SHA-1

Eighty steps over five 32-bit words, with words and length in big-endian order. The
sixteen words of a block are extended to one word for each step.
-/

namespace StreamCrypto.Digest.Sha1

open Word

structure State where
  a : UInt32
  b : UInt32
  c : UInt32
  d : UInt32
  e : UInt32

/-- Twenty steps with one function and one constant. -/
structure Round where
  mix : UInt32 → UInt32 → UInt32 → UInt32
  constant : UInt32

def rounds : List Round :=
  [⟨choose, 0x5a827999⟩, ⟨parity, 0x6ed9eba1⟩, ⟨majority, 0x8f1bbcdc⟩, ⟨parity, 0xca62c1d6⟩]

/-- Each further word is made from the words 3, 8, 14 and 16 places before it. -/
def schedule (block : Bytes) : Array UInt32 :=
  (List.range 64).foldl (fun words i ↦
    words.push (rotateLeft32 1 (words.getD (i + 13) 0 ^^^ words.getD (i + 8) 0 ^^^
      words.getD (i + 2) 0 ^^^ words.getD i 0)))
    (Bytes.words32BigEndian block).toArray

def Round.step (round : Round) (s : State) (word : UInt32) : State :=
  ⟨rotateLeft32 5 s.a + round.mix s.b s.c s.d + s.e + round.constant + word,
    s.a, rotateLeft32 30 s.b, s.c, s.d⟩

def Round.run (words : Array UInt32) (s : State) (round : Round × Nat) : State :=
  (List.range 20).foldl (fun t i ↦ round.1.step t (words.getD (20 * round.2 + i) 0)) s

def absorb (s : State) (block : Bytes) : State :=
  let words := schedule block
  let t := rounds.zipIdx.foldl (Round.run words) s
  ⟨s.a + t.a, s.b + t.b, s.c + t.c, s.d + t.d, s.e + t.e⟩

def compression : Compression where
  State := State
  blockSize := 64
  blockSize_pos := sixtyFour_pos
  initial := ⟨0x67452301, 0xefcdab89, 0x98badcfe, 0x10325476, 0xc3d2e1f0⟩
  absorb := absorb
  lengthWidth := 8
  lengthField := Bytes.ofNatBigEndian 8
  output s := [s.a, s.b, s.c, s.d, s.e].flatMap Bytes.ofWord32BigEndian

end StreamCrypto.Digest.Sha1
