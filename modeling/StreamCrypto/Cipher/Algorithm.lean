import StreamCrypto.KeyLength
import StreamCrypto.Cipher.Aes
import StreamCrypto.Cipher.Blowfish
import StreamCrypto.Cipher.TripleDes

/-!
# Cipher algorithms

The six supported block ciphers with their names, block sizes and key length contracts.
-/

namespace StreamCrypto

open Cipher

inductive CipherAlgorithm where
  | aes128
  | aes192
  | aes256
  | blowfish
  | tripledes
  | des
  deriving DecidableEq, Repr

namespace CipherAlgorithm

def all : List CipherAlgorithm := [aes128, aes192, aes256, blowfish, tripledes, des]

def name : CipherAlgorithm → String
  | aes128 => "aes128"
  | aes192 => "aes192"
  | aes256 => "aes256"
  | blowfish => "blowfish"
  | tripledes => "tripledes"
  | des => "des"

/-- The number of bytes of a block, whatever the mode. -/
def blockSize : CipherAlgorithm → Nat
  | aes128 | aes192 | aes256 => 16
  | blowfish | tripledes | des => 8

def keyLength : CipherAlgorithm → KeyLength
  | des => .fixed 8
  | aes128 => .fixed 16
  | aes192 | tripledes => .fixed 24
  | aes256 => .fixed 32
  | blowfish => ⟨4, 56, 1⟩

/-- Whether the cipher is defined for keys of a length. -/
def takesKeyOf (length : Nat) : CipherAlgorithm → Bool
  | des => length = 8
  | aes128 => length = 16
  | aes192 | tripledes => length = 24
  | aes256 => length = 32
  | blowfish => 4 ≤ length ∧ length ≤ 56

/-- The cipher with its key in place. -/
def keyed (key : Bytes) : CipherAlgorithm → BlockCipher
  | aes128 | aes192 | aes256 => Aes.cipher key
  | blowfish => Blowfish.cipher key
  | tripledes => TripleDes.cipher key
  | des => Des.cipher key

/-- The cipher with its key in place, if it is defined for keys of that length. -/
def keyed? (algorithm : CipherAlgorithm) (key : Bytes) : Option BlockCipher :=
  if algorithm.takesKeyOf key.length then some (algorithm.keyed key) else none

end CipherAlgorithm

end StreamCrypto
