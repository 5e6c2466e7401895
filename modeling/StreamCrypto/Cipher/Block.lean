import StreamCrypto.Bytes.Basic

/-!
# Keyed block ciphers

A block cipher with its key in place: two functions on byte strings of one fixed length.
The ciphers of this library are lawful: on blocks the two functions undo each other.
-/

namespace StreamCrypto

/-- Ciphers of two 32-bit halves have blocks of eight bytes. -/
theorem eight_pos : 0 < 8 := by decide

structure BlockCipher where
  /-- The number of bytes of a block. -/
  blockSize : Nat
  blockSize_pos : 0 < blockSize := by decide
  encrypt : Bytes → Bytes
  decrypt : Bytes → Bytes

structure BlockCipher.Lawful (cipher : BlockCipher) : Prop where
  length_encrypt : ∀ {block : Bytes}, block.length = cipher.blockSize →
    (cipher.encrypt block).length = cipher.blockSize
  length_decrypt : ∀ {block : Bytes}, block.length = cipher.blockSize →
    (cipher.decrypt block).length = cipher.blockSize
  decrypt_encrypt : ∀ {block : Bytes}, block.length = cipher.blockSize →
    cipher.decrypt (cipher.encrypt block) = block
  encrypt_decrypt : ∀ {block : Bytes}, block.length = cipher.blockSize →
    cipher.encrypt (cipher.decrypt block) = block

end StreamCrypto
