import StreamCrypto.Cipher.Des

/-!
# Triple DES

Encryption with a first key, decryption with a second and encryption with a third, where
the three keys are the consecutive eight-byte pieces of one key.
-/

namespace StreamCrypto.Cipher.TripleDes

def encrypt (keys1 keys2 keys3 : List UInt64) (block : UInt64) : UInt64 :=
  Des.crypt keys3 (Des.crypt keys2.reverse (Des.crypt keys1 block))

def decrypt (keys1 keys2 keys3 : List UInt64) (block : UInt64) : UInt64 :=
  Des.crypt keys1.reverse (Des.crypt keys2 (Des.crypt keys3.reverse block))

/-- The round keys of the piece of a key that starts at `offset`. -/
def roundKeysAt (key : Bytes) (offset : Nat) : List UInt64 :=
  Des.roundKeys (Bytes.toWord64BigEndian ((key.drop offset).take 8))

def cipher (key : Bytes) : BlockCipher :=
  let keys1 := roundKeysAt key 0
  let keys2 := roundKeysAt key 8
  let keys3 := roundKeysAt key 16
  { blockSize := 8
    blockSize_pos := eight_pos
    encrypt := Des.onBytes (encrypt keys1 keys2 keys3)
    decrypt := Des.onBytes (decrypt keys1 keys2 keys3) }

end StreamCrypto.Cipher.TripleDes
