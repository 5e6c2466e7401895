import StreamCrypto.Bytes.Blocks
import StreamCrypto.Cipher.Block

/-!
# AES

A block is four columns of four bytes. A round substitutes every byte, moves the bytes of
each row to other columns, multiplies every column by a matrix over the field with 256
elements, and adds a round key. The last round leaves the columns as they are. Decryption
applies the inverse steps in the opposite order. The three key lengths differ in the
number of round keys and in how the key schedule makes them.
-/

namespace StreamCrypto.Cipher.Aes

structure Column where
  a : UInt8
  b : UInt8
  c : UInt8
  d : UInt8
  deriving DecidableEq, Repr

structure State where
  first : Column
  second : Column
  third : Column
  fourth : Column
  deriving DecidableEq, Repr

namespace Column

def map (f : UInt8 → UInt8) (x : Column) : Column := ⟨f x.a, f x.b, f x.c, f x.d⟩

def add (x y : Column) : Column := ⟨x.a ^^^ y.a, x.b ^^^ y.b, x.c ^^^ y.c, x.d ^^^ y.d⟩

/-- The bytes moved up by one place. -/
def rotate (x : Column) : Column := ⟨x.b, x.c, x.d, x.a⟩

def ofBytes (data : Bytes) : Column :=
  match data with
  | a :: b :: c :: d :: _ => ⟨a, b, c, d⟩
  | _ => ⟨0, 0, 0, 0⟩

def toBytes (x : Column) : Bytes := [x.a, x.b, x.c, x.d]

end Column

namespace State

def map (f : Column → Column) (s : State) : State :=
  ⟨f s.first, f s.second, f s.third, f s.fourth⟩

def add (s t : State) : State :=
  ⟨s.first.add t.first, s.second.add t.second, s.third.add t.third, s.fourth.add t.fourth⟩

def ofBytes (data : Bytes) : State :=
  ⟨.ofBytes data, .ofBytes (data.drop 4), .ofBytes (data.drop 8), .ofBytes (data.drop 12)⟩

def toBytes (s : State) : Bytes :=
  s.first.toBytes ++ s.second.toBytes ++ s.third.toBytes ++ s.fourth.toBytes

end State

/-! ## Bytes -/

def substitutionTable : Array UInt8 :=
  #[0x63, 0x7c, 0x77, 0x7b, 0xf2, 0x6b, 0x6f, 0xc5, 0x30, 0x01, 0x67, 0x2b, 0xfe, 0xd7, 0xab, 0x76,
   0xca, 0x82, 0xc9, 0x7d, 0xfa, 0x59, 0x47, 0xf0, 0xad, 0xd4, 0xa2, 0xaf, 0x9c, 0xa4, 0x72, 0xc0,
   0xb7, 0xfd, 0x93, 0x26, 0x36, 0x3f, 0xf7, 0xcc, 0x34, 0xa5, 0xe5, 0xf1, 0x71, 0xd8, 0x31, 0x15,
   0x04, 0xc7, 0x23, 0xc3, 0x18, 0x96, 0x05, 0x9a, 0x07, 0x12, 0x80, 0xe2, 0xeb, 0x27, 0xb2, 0x75,
   0x09, 0x83, 0x2c, 0x1a, 0x1b, 0x6e, 0x5a, 0xa0, 0x52, 0x3b, 0xd6, 0xb3, 0x29, 0xe3, 0x2f, 0x84,
   0x53, 0xd1, 0x00, 0xed, 0x20, 0xfc, 0xb1, 0x5b, 0x6a, 0xcb, 0xbe, 0x39, 0x4a, 0x4c, 0x58, 0xcf,
   0xd0, 0xef, 0xaa, 0xfb, 0x43, 0x4d, 0x33, 0x85, 0x45, 0xf9, 0x02, 0x7f, 0x50, 0x3c, 0x9f, 0xa8,
   0x51, 0xa3, 0x40, 0x8f, 0x92, 0x9d, 0x38, 0xf5, 0xbc, 0xb6, 0xda, 0x21, 0x10, 0xff, 0xf3, 0xd2,
   0xcd, 0x0c, 0x13, 0xec, 0x5f, 0x97, 0x44, 0x17, 0xc4, 0xa7, 0x7e, 0x3d, 0x64, 0x5d, 0x19, 0x73,
   0x60, 0x81, 0x4f, 0xdc, 0x22, 0x2a, 0x90, 0x88, 0x46, 0xee, 0xb8, 0x14, 0xde, 0x5e, 0x0b, 0xdb,
   0xe0, 0x32, 0x3a, 0x0a, 0x49, 0x06, 0x24, 0x5c, 0xc2, 0xd3, 0xac, 0x62, 0x91, 0x95, 0xe4, 0x79,
   0xe7, 0xc8, 0x37, 0x6d, 0x8d, 0xd5, 0x4e, 0xa9, 0x6c, 0x56, 0xf4, 0xea, 0x65, 0x7a, 0xae, 0x08,
   0xba, 0x78, 0x25, 0x2e, 0x1c, 0xa6, 0xb4, 0xc6, 0xe8, 0xdd, 0x74, 0x1f, 0x4b, 0xbd, 0x8b, 0x8a,
   0x70, 0x3e, 0xb5, 0x66, 0x48, 0x03, 0xf6, 0x0e, 0x61, 0x35, 0x57, 0xb9, 0x86, 0xc1, 0x1d, 0x9e,
   0xe1, 0xf8, 0x98, 0x11, 0x69, 0xd9, 0x8e, 0x94, 0x9b, 0x1e, 0x87, 0xe9, 0xce, 0x55, 0x28, 0xdf,
   0x8c, 0xa1, 0x89, 0x0d, 0xbf, 0xe6, 0x42, 0x68, 0x41, 0x99, 0x2d, 0x0f, 0xb0, 0x54, 0xbb, 0x16]

def inverseSubstitutionTable : Array UInt8 :=
  #[0x52, 0x09, 0x6a, 0xd5, 0x30, 0x36, 0xa5, 0x38, 0xbf, 0x40, 0xa3, 0x9e, 0x81, 0xf3, 0xd7, 0xfb,
   0x7c, 0xe3, 0x39, 0x82, 0x9b, 0x2f, 0xff, 0x87, 0x34, 0x8e, 0x43, 0x44, 0xc4, 0xde, 0xe9, 0xcb,
   0x54, 0x7b, 0x94, 0x32, 0xa6, 0xc2, 0x23, 0x3d, 0xee, 0x4c, 0x95, 0x0b, 0x42, 0xfa, 0xc3, 0x4e,
   0x08, 0x2e, 0xa1, 0x66, 0x28, 0xd9, 0x24, 0xb2, 0x76, 0x5b, 0xa2, 0x49, 0x6d, 0x8b, 0xd1, 0x25,
   0x72, 0xf8, 0xf6, 0x64, 0x86, 0x68, 0x98, 0x16, 0xd4, 0xa4, 0x5c, 0xcc, 0x5d, 0x65, 0xb6, 0x92,
   0x6c, 0x70, 0x48, 0x50, 0xfd, 0xed, 0xb9, 0xda, 0x5e, 0x15, 0x46, 0x57, 0xa7, 0x8d, 0x9d, 0x84,
   0x90, 0xd8, 0xab, 0x00, 0x8c, 0xbc, 0xd3, 0x0a, 0xf7, 0xe4, 0x58, 0x05, 0xb8, 0xb3, 0x45, 0x06,
   0xd0, 0x2c, 0x1e, 0x8f, 0xca, 0x3f, 0x0f, 0x02, 0xc1, 0xaf, 0xbd, 0x03, 0x01, 0x13, 0x8a, 0x6b,
   0x3a, 0x91, 0x11, 0x41, 0x4f, 0x67, 0xdc, 0xea, 0x97, 0xf2, 0xcf, 0xce, 0xf0, 0xb4, 0xe6, 0x73,
   0x96, 0xac, 0x74, 0x22, 0xe7, 0xad, 0x35, 0x85, 0xe2, 0xf9, 0x37, 0xe8, 0x1c, 0x75, 0xdf, 0x6e,
   0x47, 0xf1, 0x1a, 0x71, 0x1d, 0x29, 0xc5, 0x89, 0x6f, 0xb7, 0x62, 0x0e, 0xaa, 0x18, 0xbe, 0x1b,
   0xfc, 0x56, 0x3e, 0x4b, 0xc6, 0xd2, 0x79, 0x20, 0x9a, 0xdb, 0xc0, 0xfe, 0x78, 0xcd, 0x5a, 0xf4,
   0x1f, 0xdd, 0xa8, 0x33, 0x88, 0x07, 0xc7, 0x31, 0xb1, 0x12, 0x10, 0x59, 0x27, 0x80, 0xec, 0x5f,
   0x60, 0x51, 0x7f, 0xa9, 0x19, 0xb5, 0x4a, 0x0d, 0x2d, 0xe5, 0x7a, 0x9f, 0x93, 0xc9, 0x9c, 0xef,
   0xa0, 0xe0, 0x3b, 0x4d, 0xae, 0x2a, 0xf5, 0xb0, 0xc8, 0xeb, 0xbb, 0x3c, 0x83, 0x53, 0x99, 0x61,
   0x17, 0x2b, 0x04, 0x7e, 0xba, 0x77, 0xd6, 0x26, 0xe1, 0x69, 0x14, 0x63, 0x55, 0x21, 0x0c, 0x7d]

def substitute (byte : UInt8) : UInt8 := substitutionTable.getD byte.toNat 0

def unsubstitute (byte : UInt8) : UInt8 := inverseSubstitutionTable.getD byte.toNat 0

/-- The product with the polynomial `x`, modulo `x ^ 8 + x ^ 4 + x ^ 3 + x + 1`. -/
def double (byte : UInt8) : UInt8 :=
  byte <<< 1 ^^^ (byte >>> 7) * 0x1b

def times3 (byte : UInt8) : UInt8 := double byte ^^^ byte

def times9 (byte : UInt8) : UInt8 := double (double (double byte)) ^^^ byte

def times11 (byte : UInt8) : UInt8 := double (double (double byte) ^^^ byte) ^^^ byte

def times13 (byte : UInt8) : UInt8 := double (double (double byte ^^^ byte)) ^^^ byte

def times14 (byte : UInt8) : UInt8 := double (double (double byte ^^^ byte) ^^^ byte)

/-! ## Steps of a round -/

def substituteBytes : State → State := State.map (Column.map substitute)

def unsubstituteBytes : State → State := State.map (Column.map unsubstitute)

/-- Row `i` moves to the left by `i` columns. -/
def shiftRows (s : State) : State :=
  ⟨⟨s.first.a, s.second.b, s.third.c, s.fourth.d⟩,
   ⟨s.second.a, s.third.b, s.fourth.c, s.first.d⟩,
   ⟨s.third.a, s.fourth.b, s.first.c, s.second.d⟩,
   ⟨s.fourth.a, s.first.b, s.second.c, s.third.d⟩⟩

def unshiftRows (s : State) : State :=
  ⟨⟨s.first.a, s.fourth.b, s.third.c, s.second.d⟩,
   ⟨s.second.a, s.first.b, s.fourth.c, s.third.d⟩,
   ⟨s.third.a, s.second.b, s.first.c, s.fourth.d⟩,
   ⟨s.fourth.a, s.third.b, s.second.c, s.first.d⟩⟩

def mixColumn (x : Column) : Column :=
  ⟨double x.a ^^^ times3 x.b ^^^ x.c ^^^ x.d,
   x.a ^^^ double x.b ^^^ times3 x.c ^^^ x.d,
   x.a ^^^ x.b ^^^ double x.c ^^^ times3 x.d,
   times3 x.a ^^^ x.b ^^^ x.c ^^^ double x.d⟩

def unmixColumn (x : Column) : Column :=
  ⟨times14 x.a ^^^ times11 x.b ^^^ times13 x.c ^^^ times9 x.d,
   times9 x.a ^^^ times14 x.b ^^^ times11 x.c ^^^ times13 x.d,
   times13 x.a ^^^ times9 x.b ^^^ times14 x.c ^^^ times11 x.d,
   times11 x.a ^^^ times13 x.b ^^^ times9 x.c ^^^ times14 x.d⟩

/-! ## Key schedule -/

structure Schedule where
  /-- The round key that is added before the first round. -/
  first : State
  middle : List State
  last : State

/-- The column that follows `columns` in the schedule of a key of `keyColumns` columns. -/
def nextColumn (keyColumns : Nat) (columns : Array Column) (roundConstant : UInt8) : Column :=
  let index := columns.size
  let previous := columns.getD (index - 1) ⟨0, 0, 0, 0⟩
  let earlier := columns.getD (index - keyColumns) ⟨0, 0, 0, 0⟩
  if index % keyColumns = 0 then
    earlier.add ((previous.rotate.map substitute).add ⟨roundConstant, 0, 0, 0⟩)
  else if 6 < keyColumns ∧ index % keyColumns = 4 then
    earlier.add (previous.map substitute)
  else
    earlier.add previous

/-- Appends columns to the schedule. The round constant doubles after each use. -/
def extend (keyColumns : Nat) (current : Array Column × UInt8) : Array Column × UInt8 :=
  let (columns, roundConstant) := current
  let constant := if columns.size % keyColumns = 0 then double roundConstant else roundConstant
  (columns.push (nextColumn keyColumns columns roundConstant), constant)

/-- The key as columns, followed by the columns made from them. A key of `n` columns has
`n + 7` round keys. -/
def expandedKey (key : Bytes) : List Column :=
  let columns := (Bytes.blocks 4 key).map Column.ofBytes
  let count := 4 * (columns.length + 7) - columns.length
  (Nat.repeat (extend columns.length) count (columns.toArray, 1)).1.toList

/-- Four columns to a round key. -/
def roundKeys : List Column → List State
  | a :: b :: c :: d :: rest => ⟨a, b, c, d⟩ :: roundKeys rest
  | _ => []

def noKey : State := State.ofBytes []

def schedule (key : Bytes) : Schedule :=
  let keys := roundKeys (expandedKey key)
  { first := keys.headD noKey
    middle := (keys.drop 1).dropLast
    last := keys.getLastD noKey }

/-! ## The cipher -/

def encryptRound (s key : State) : State :=
  ((shiftRows (substituteBytes s)).map mixColumn).add key

def decryptRound (key s : State) : State :=
  unsubstituteBytes (unshiftRows ((s.add key).map unmixColumn))

namespace Schedule

def encrypt (keys : Schedule) (s : State) : State :=
  (shiftRows (substituteBytes (keys.middle.foldl encryptRound (s.add keys.first)))).add keys.last

def decrypt (keys : Schedule) (s : State) : State :=
  (keys.middle.foldr decryptRound
    (unsubstituteBytes (unshiftRows (s.add keys.last)))).add keys.first

end Schedule

def cipher (key : Bytes) : BlockCipher :=
  let keys := schedule key
  { blockSize := 16
    encrypt := fun block ↦ (keys.encrypt (State.ofBytes block)).toBytes
    decrypt := fun block ↦ (keys.decrypt (State.ofBytes block)).toBytes }

end StreamCrypto.Cipher.Aes
