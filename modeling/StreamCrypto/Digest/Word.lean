/-!
# Word functions of the digests

Rotation of 32-bit and 64-bit words, rotation schedules, and the three bitwise functions
of three words that the digests are built from. The bitwise functions are stated for any
word width.
-/

namespace StreamCrypto.Digest.Word

@[inline] def rotateLeft32 (amount : UInt32) (word : UInt32) : UInt32 :=
  word <<< amount ||| word >>> (32 - amount)

@[inline] def rotateRight32 (amount : UInt32) (word : UInt32) : UInt32 :=
  word >>> amount ||| word <<< (32 - amount)

@[inline] def rotateRight64 (amount : UInt64) (word : UInt64) : UInt64 :=
  word >>> amount ||| word <<< (64 - amount)

/-- Sixteen rotations, four of them used in turn. -/
def inTurn (rotations : List UInt32) : List UInt32 :=
  (List.replicate 4 rotations).flatten

variable {ω : Type} [AndOp ω] [OrOp ω] [XorOp ω] [Complement ω]

/-- Bits of `y` where `x` is set, and bits of `z` elsewhere. -/
@[inline] def choose (x y z : ω) : ω := (x &&& y) ^^^ (~~~x &&& z)

/-- Bits that at least two of the words have. -/
@[inline] def majority (x y z : ω) : ω := (x &&& y) ^^^ (x &&& z) ^^^ (y &&& z)

/-- Bits that an odd number of the words have. -/
@[inline] def parity (x y z : ω) : ω := x ^^^ y ^^^ z

end StreamCrypto.Digest.Word
