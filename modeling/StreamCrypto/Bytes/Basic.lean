/-!
# Byte strings

A byte string is a list of bytes. Numbers of any size are written with a fixed number of
bytes, in either order.
-/

namespace StreamCrypto

abbrev Bytes := List UInt8

namespace Bytes

/-- Bytewise exclusive or, as long as the shorter operand. -/
def xor (left right : Bytes) : Bytes := List.zipWith (· ^^^ ·) left right

@[simp] theorem length_xor (left right : Bytes) :
    (xor left right).length = min left.length right.length :=
  List.length_zipWith

/-- The last `width` base-256 digits of a number, the most significant one first. -/
def ofNatBigEndian : (width : Nat) → Nat → Bytes
  | 0, _ => []
  | width + 1, number => ofNatBigEndian width (number / 256) ++ [UInt8.ofNat number]

def ofNatLittleEndian (width number : Nat) : Bytes := (ofNatBigEndian width number).reverse

end Bytes

end StreamCrypto
