import StreamCrypto.Bytes.Words
import StreamCrypto.Cipher.Block
import StreamCrypto.Cipher.Feistel

/-!
# DES

Sixteen Feistel rounds on blocks of 64 bits between two bit permutations that undo each
other. Every step that moves bits is a selection by a list of positions, counted from 1 at
the most significant bit. This includes the key schedule: each round key is a selection of
48 of the 64 key bits, so the eight bits that no list mentions have no influence.
-/

namespace StreamCrypto.Cipher.Des

/-! ## Selection of bits -/

/-- The bit at `position` of the low `width` bits of a word. -/
@[inline] def bitAt (width : Nat) (word : UInt64) (position : Nat) : UInt64 :=
  (word >>> (width - position).toUInt64) &&& 1

/-- The word of the selected bits, the first one most significant. -/
@[inline] def select (width : Nat) (positions : List Nat) (word : UInt64) : UInt64 :=
  positions.foldl (fun selected position ↦ selected <<< 1 ||| bitAt width word position) 0

def initialPermutation : List Nat :=
  [58, 50, 42, 34, 26, 18, 10, 2, 60, 52, 44, 36, 28, 20, 12, 4,
   62, 54, 46, 38, 30, 22, 14, 6, 64, 56, 48, 40, 32, 24, 16, 8,
   57, 49, 41, 33, 25, 17, 9, 1, 59, 51, 43, 35, 27, 19, 11, 3,
   61, 53, 45, 37, 29, 21, 13, 5, 63, 55, 47, 39, 31, 23, 15, 7]

def finalPermutation : List Nat :=
  [40, 8, 48, 16, 56, 24, 64, 32, 39, 7, 47, 15, 55, 23, 63, 31,
   38, 6, 46, 14, 54, 22, 62, 30, 37, 5, 45, 13, 53, 21, 61, 29,
   36, 4, 44, 12, 52, 20, 60, 28, 35, 3, 43, 11, 51, 19, 59, 27,
   34, 2, 42, 10, 50, 18, 58, 26, 33, 1, 41, 9, 49, 17, 57, 25]

/-- From the 32 bits of a half block to the 48 bits that meet the round key. -/
def expansion : List Nat :=
  [32, 1, 2, 3, 4, 5, 4, 5, 6, 7, 8, 9, 8, 9, 10, 11,
   12, 13, 12, 13, 14, 15, 16, 17, 16, 17, 18, 19, 20, 21, 20, 21,
   22, 23, 24, 25, 24, 25, 26, 27, 28, 29, 28, 29, 30, 31, 32, 1]

/-- The order of the 32 substituted bits at the end of a round. -/
def roundPermutation : List Nat :=
  [16, 7, 20, 21, 29, 12, 28, 17, 1, 15, 23, 26, 5, 18, 31, 10,
   2, 8, 24, 14, 32, 27, 3, 9, 19, 13, 30, 6, 22, 11, 4, 25]

/-! ## Substitution -/

/-- Four rows of sixteen values. The outer two of six bits choose the row. -/
abbrev SBox := Array UInt64

def sBox1 : SBox :=
  #[14, 4, 13, 1, 2, 15, 11, 8, 3, 10, 6, 12, 5, 9, 0, 7,
    0, 15, 7, 4, 14, 2, 13, 1, 10, 6, 12, 11, 9, 5, 3, 8,
    4, 1, 14, 8, 13, 6, 2, 11, 15, 12, 9, 7, 3, 10, 5, 0,
    15, 12, 8, 2, 4, 9, 1, 7, 5, 11, 3, 14, 10, 0, 6, 13]

def sBox2 : SBox :=
  #[15, 1, 8, 14, 6, 11, 3, 4, 9, 7, 2, 13, 12, 0, 5, 10,
    3, 13, 4, 7, 15, 2, 8, 14, 12, 0, 1, 10, 6, 9, 11, 5,
    0, 14, 7, 11, 10, 4, 13, 1, 5, 8, 12, 6, 9, 3, 2, 15,
    13, 8, 10, 1, 3, 15, 4, 2, 11, 6, 7, 12, 0, 5, 14, 9]

def sBox3 : SBox :=
  #[10, 0, 9, 14, 6, 3, 15, 5, 1, 13, 12, 7, 11, 4, 2, 8,
    13, 7, 0, 9, 3, 4, 6, 10, 2, 8, 5, 14, 12, 11, 15, 1,
    13, 6, 4, 9, 8, 15, 3, 0, 11, 1, 2, 12, 5, 10, 14, 7,
    1, 10, 13, 0, 6, 9, 8, 7, 4, 15, 14, 3, 11, 5, 2, 12]

def sBox4 : SBox :=
  #[7, 13, 14, 3, 0, 6, 9, 10, 1, 2, 8, 5, 11, 12, 4, 15,
    13, 8, 11, 5, 6, 15, 0, 3, 4, 7, 2, 12, 1, 10, 14, 9,
    10, 6, 9, 0, 12, 11, 7, 13, 15, 1, 3, 14, 5, 2, 8, 4,
    3, 15, 0, 6, 10, 1, 13, 8, 9, 4, 5, 11, 12, 7, 2, 14]

def sBox5 : SBox :=
  #[2, 12, 4, 1, 7, 10, 11, 6, 8, 5, 3, 15, 13, 0, 14, 9,
    14, 11, 2, 12, 4, 7, 13, 1, 5, 0, 15, 10, 3, 9, 8, 6,
    4, 2, 1, 11, 10, 13, 7, 8, 15, 9, 12, 5, 6, 3, 0, 14,
    11, 8, 12, 7, 1, 14, 2, 13, 6, 15, 0, 9, 10, 4, 5, 3]

def sBox6 : SBox :=
  #[12, 1, 10, 15, 9, 2, 6, 8, 0, 13, 3, 4, 14, 7, 5, 11,
    10, 15, 4, 2, 7, 12, 9, 5, 6, 1, 13, 14, 0, 11, 3, 8,
    9, 14, 15, 5, 2, 8, 12, 3, 7, 0, 4, 10, 1, 13, 11, 6,
    4, 3, 2, 12, 9, 5, 15, 10, 11, 14, 1, 7, 6, 0, 8, 13]

def sBox7 : SBox :=
  #[4, 11, 2, 14, 15, 0, 8, 13, 3, 12, 9, 7, 5, 10, 6, 1,
    13, 0, 11, 7, 4, 9, 1, 10, 14, 3, 5, 12, 2, 15, 8, 6,
    1, 4, 11, 13, 12, 3, 7, 14, 10, 15, 6, 8, 0, 5, 9, 2,
    6, 11, 13, 8, 1, 4, 10, 7, 9, 5, 0, 15, 14, 2, 3, 12]

def sBox8 : SBox :=
  #[13, 2, 8, 4, 6, 15, 11, 1, 10, 9, 3, 14, 5, 0, 12, 7,
    1, 15, 13, 8, 10, 3, 7, 4, 12, 5, 6, 11, 0, 14, 9, 2,
    7, 11, 4, 1, 9, 12, 14, 2, 0, 6, 10, 13, 15, 3, 5, 8,
    2, 1, 14, 7, 4, 10, 8, 13, 15, 12, 9, 0, 3, 5, 6, 11]

/-- Each box with the shift that brings its six bits to the low end of a word. -/
def sBoxes : List (SBox × UInt64) :=
  [(sBox1, 42), (sBox2, 36), (sBox3, 30), (sBox4, 24),
   (sBox5, 18), (sBox6, 12), (sBox7, 6), (sBox8, 0)]

def SBox.value (box : SBox) (six : UInt64) : UInt64 :=
  let row := (six >>> 4) &&& 2 ||| six &&& 1
  let column := (six >>> 1) &&& 15
  box.getD (row <<< 4 ||| column).toNat 0

/-- Replaces 48 bits by 32, six by four. -/
def substitute (word : UInt64) : UInt64 :=
  sBoxes.foldl (fun out box ↦ out <<< 4 ||| box.1.value ((word >>> box.2) &&& 63)) 0

/-- The function of a round. -/
def mix (key : UInt64) (half : UInt32) : UInt32 :=
  (select 32 roundPermutation
    (substitute (select 32 expansion half.toUInt64 ^^^ key))).toUInt32

/-! ## Key schedule -/

/-- The key bits in use, as two halves of 28. -/
def leftKeyPositions : List Nat :=
  [57, 49, 41, 33, 25, 17, 9, 1, 58, 50, 42, 34, 26, 18,
   10, 2, 59, 51, 43, 35, 27, 19, 11, 3, 60, 52, 44, 36]

def rightKeyPositions : List Nat :=
  [63, 55, 47, 39, 31, 23, 15, 7, 62, 54, 46, 38, 30, 22,
   14, 6, 61, 53, 45, 37, 29, 21, 13, 5, 28, 20, 12, 4]

/-- The 48 of 56 bits that make up a round key. -/
def roundKeyChoice : List Nat :=
  [14, 17, 11, 24, 1, 5, 3, 28, 15, 6, 21, 10,
   23, 19, 12, 4, 26, 8, 16, 7, 27, 20, 13, 2,
   41, 52, 31, 37, 47, 55, 30, 40, 51, 45, 33, 48,
   44, 49, 39, 56, 34, 53, 46, 42, 50, 36, 29, 32]

/-- How far the halves are rotated before each round. -/
def rotations : List Nat := [1, 2, 4, 6, 8, 10, 12, 14, 15, 17, 19, 21, 23, 25, 27, 28]

/-- The key positions that the round key after a rotation selects. -/
def positionsAfter (rotation : Nat) : List Nat :=
  let rotated := leftKeyPositions.rotateLeft rotation ++ rightKeyPositions.rotateLeft rotation
  roundKeyChoice.map fun position ↦ rotated.getD (position - 1) 0

def roundKeyPositions : List (List Nat) := rotations.map positionsAfter

def roundKeys (key : UInt64) : List UInt64 :=
  roundKeyPositions.map fun positions ↦ select 64 positions key

/-! ## The cipher -/

def halves (word : UInt64) : Feistel.Halves UInt32 :=
  ⟨(word >>> 32).toUInt32, word.toUInt32⟩

def joined (h : Feistel.Halves UInt32) : UInt64 := Bytes.word64 h.left h.right

/-- Encrypts with the round keys in order, and decrypts with them in reverse order. -/
def crypt (keys : List UInt64) (block : UInt64) : UInt64 :=
  select 64 finalPermutation
    (joined (Feistel.network mix keys (halves (select 64 initialPermutation block))))

/-- A function of words as a function of byte strings. -/
def onBytes (f : UInt64 → UInt64) (block : Bytes) : Bytes :=
  Bytes.ofWord64BigEndian (f (Bytes.toWord64BigEndian block))

def cipher (key : Bytes) : BlockCipher :=
  let keys := roundKeys (Bytes.toWord64BigEndian key)
  let reversed := keys.reverse
  { blockSize := 8
    blockSize_pos := eight_pos
    encrypt := onBytes (crypt keys)
    decrypt := onBytes (crypt reversed) }

end StreamCrypto.Cipher.Des
