import StreamCrypto.Cipher.Algorithm
import StreamCrypto.Cipher.Aes.Inverse
import StreamCrypto.Cipher.Blowfish.Inverse
import StreamCrypto.Cipher.Des.Inverse

/-!
# Every supported cipher is lawful

Whatever the key, decryption and encryption undo each other on blocks.
-/

namespace StreamCrypto.CipherAlgorithm

open Cipher

@[simp] theorem blockSize_keyed (algorithm : CipherAlgorithm) (key : Bytes) :
    (algorithm.keyed key).blockSize = algorithm.blockSize := by
  cases algorithm <;> rfl

theorem lawful_keyed (algorithm : CipherAlgorithm) (key : Bytes) :
    (algorithm.keyed key).Lawful := by
  cases algorithm with
  | aes128 | aes192 | aes256 => exact Aes.lawful_cipher key
  | blowfish => exact Blowfish.lawful_cipher key
  | tripledes => exact TripleDes.lawful_cipher key
  | des => exact Des.lawful_cipher key

end StreamCrypto.CipherAlgorithm
