import StreamCrypto.Cipher.Des.Selection
import StreamCrypto.Cipher.TripleDes

/-!
# DES and triple DES are lawful

The permutations at the two ends of DES undo each other and the network between them is
undone by its own keys in reverse order, so decryption undoes encryption for every list of
round keys (`crypt_reverse_crypt`). Triple DES composes three such steps.
-/

namespace StreamCrypto.Cipher.Des

theorem select_final_select_initial (word : UInt64) :
    select 64 finalPermutation (select 64 initialPermutation word) = word :=
  select_select (by decide) word

theorem select_initial_select_final (word : UInt64) :
    select 64 initialPermutation (select 64 finalPermutation word) = word :=
  select_select (by decide) word

theorem halves_joined (h : Feistel.Halves UInt32) : halves (joined h) = h := by
  simp only [halves, joined, Bytes.high_word64, Bytes.low_word64]

theorem joined_halves (word : UInt64) : joined (halves word) = word :=
  Bytes.word64_halves word

theorem crypt_reverse_crypt (keys : List UInt64) (block : UInt64) :
    crypt keys.reverse (crypt keys block) = block := by
  have cancel (x y : UInt32) : x ^^^ y ^^^ y = x := by
    rw [UInt32.xor_assoc, UInt32.xor_self, UInt32.xor_zero]
  simp only [crypt, select_initial_select_final, halves_joined,
    Feistel.network_reverse_network mix cancel, joined_halves, select_final_select_initial]

theorem crypt_crypt_reverse (keys : List UInt64) (block : UInt64) :
    crypt keys (crypt keys.reverse block) = block := by
  have h := crypt_reverse_crypt keys.reverse block
  rwa [List.reverse_reverse] at h

/-! ## As byte strings -/

@[simp] theorem length_onBytes (f : UInt64 → UInt64) (block : Bytes) :
    (onBytes f block).length = 8 := rfl

theorem onBytes_onBytes {f g : UInt64 → UInt64} (h : ∀ word, g (f word) = word) {block : Bytes}
    (eight : block.length = 8) : onBytes g (onBytes f block) = block := by
  simp only [onBytes, Bytes.toWord64BigEndian_ofWord64BigEndian, h,
    Bytes.ofWord64BigEndian_toWord64BigEndian eight]

theorem lawful_cipher (key : Bytes) : (cipher key).Lawful where
  length_encrypt _ := length_onBytes _ _
  length_decrypt _ := length_onBytes _ _
  decrypt_encrypt eight := onBytes_onBytes (crypt_reverse_crypt _) eight
  encrypt_decrypt eight := onBytes_onBytes (crypt_crypt_reverse _) eight

end StreamCrypto.Cipher.Des

namespace StreamCrypto.Cipher.TripleDes

theorem decrypt_encrypt (keys1 keys2 keys3 : List UInt64) (block : UInt64) :
    decrypt keys1 keys2 keys3 (encrypt keys1 keys2 keys3 block) = block := by
  simp only [encrypt, decrypt, Des.crypt_reverse_crypt, Des.crypt_crypt_reverse]

theorem encrypt_decrypt (keys1 keys2 keys3 : List UInt64) (block : UInt64) :
    encrypt keys1 keys2 keys3 (decrypt keys1 keys2 keys3 block) = block := by
  simp only [encrypt, decrypt, Des.crypt_reverse_crypt, Des.crypt_crypt_reverse]

theorem lawful_cipher (key : Bytes) : (cipher key).Lawful where
  length_encrypt _ := Des.length_onBytes _ _
  length_decrypt _ := Des.length_onBytes _ _
  decrypt_encrypt eight := Des.onBytes_onBytes (decrypt_encrypt _ _ _) eight
  encrypt_decrypt eight := Des.onBytes_onBytes (encrypt_decrypt _ _ _) eight

end StreamCrypto.Cipher.TripleDes
