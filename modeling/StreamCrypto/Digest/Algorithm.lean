import StreamCrypto.Digest.Md4
import StreamCrypto.Digest.Md5
import StreamCrypto.Digest.Ripemd160
import StreamCrypto.Digest.Sha1
import StreamCrypto.Digest.Sha2

/-!
# Hash algorithms

The seven supported digests with their names and digest lengths.
-/

namespace StreamCrypto

open Digest

inductive HashAlgorithm where
  | sha1
  | md4
  | md5
  | ripemd160
  | sha256
  | sha384
  | sha512
  deriving DecidableEq, Repr

namespace HashAlgorithm

def all : List HashAlgorithm := [sha1, md4, md5, ripemd160, sha256, sha384, sha512]

def name : HashAlgorithm → String
  | sha1 => "sha1"
  | md4 => "md4"
  | md5 => "md5"
  | ripemd160 => "ripemd160"
  | sha256 => "sha256"
  | sha384 => "sha384"
  | sha512 => "sha512"

/-- The number of bytes of a digest. -/
def digestLength : HashAlgorithm → Nat
  | md4 | md5 => 16
  | sha1 | ripemd160 => 20
  | sha256 => 32
  | sha384 => 48
  | sha512 => 64

theorem digestLength_pos (algorithm : HashAlgorithm) : 0 < algorithm.digestLength := by
  cases algorithm <;> decide

theorem digestLength_le (algorithm : HashAlgorithm) : algorithm.digestLength ≤ 64 := by
  cases algorithm <;> decide

def compression : HashAlgorithm → Compression
  | sha1 => Sha1.compression
  | md4 => Md4.compression
  | md5 => Md5.compression
  | ripemd160 => Ripemd160.compression
  | sha256 => Sha2.sha256
  | sha384 => Sha2.sha384
  | sha512 => Sha2.sha512

/-- The digest of a whole message. -/
def digest (algorithm : HashAlgorithm) (message : Bytes) : Bytes :=
  algorithm.compression.digest message

/-- Every final state is written out as a digest of the same length. -/
theorem length_output (algorithm : HashAlgorithm) (state : algorithm.compression.State) :
    (algorithm.compression.output state).length = algorithm.digestLength := by
  cases algorithm with
  | sha1 | md4 | md5 | ripemd160 | sha256 | sha384 | sha512 => rfl

theorem length_digest (algorithm : HashAlgorithm) (message : Bytes) :
    (algorithm.digest message).length = algorithm.digestLength :=
  algorithm.length_output _

end HashAlgorithm

end StreamCrypto
