/-!
# Modes of operation

How a block cipher is applied to data longer than a block: each block by itself (ECB),
each block combined with the ciphertext block before it (CBC), or as a source of bytes
that the data is combined with (CFB).
-/

namespace StreamCrypto

inductive Mode where
  | ecb
  | cbc
  | cfb
  deriving DecidableEq, Repr

namespace Mode

def all : List Mode := [ecb, cbc, cfb]

def name : Mode → String
  | ecb => "ecb"
  | cbc => "cbc"
  | cfb => "cfb"

/-- Whether data of any length is transformed at once. -/
def isStream : Mode → Bool
  | cfb => true
  | ecb | cbc => false

/-- Whether the mode starts from an initialization vector. -/
def usesIv : Mode → Bool
  | ecb => false
  | cbc | cfb => true

end Mode

end StreamCrypto
