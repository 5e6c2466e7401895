import StreamCrypto.Cipher.Blowfish

/-!
# Blowfish is lawful

The reversed schedule undoes a schedule, whatever its subkeys and boxes are
(`crypt_reversed_crypt`), and reversing twice changes nothing.
-/

namespace StreamCrypto.Cipher.Blowfish

open Feistel

theorem Schedule.reversed_reversed (s : Schedule) : s.reversed.reversed = s := by
  simp [Schedule.reversed]

theorem Schedule.crypt_reversed_crypt (s : Schedule) (block : Halves UInt32) :
    s.reversed.crypt (s.crypt block) = block := by
  have cancel (x y : UInt32) : x ^^^ y ^^^ y = x := by
    rw [UInt32.xor_assoc, UInt32.xor_self, UInt32.xor_zero]
  have inner := network_reverse_network (mix s.boxes) cancel s.rounds
    ⟨block.right, block.left ^^^ s.before⟩
  simp only [Schedule.crypt, Schedule.reversed, cancel, inner]

theorem Schedule.crypt_crypt_reversed (s : Schedule) (block : Halves UInt32) :
    s.crypt (s.reversed.crypt block) = block := by
  have h := s.reversed.crypt_reversed_crypt block
  rwa [s.reversed_reversed] at h

theorem ofBytes_toBytes (h : Halves UInt32) : ofBytes (toBytes h) = h := by
  have last := Bytes.words32BigEndian_ofWord32BigEndian h.right []
  rw [List.append_nil] at last
  simp only [ofBytes, toBytes, Bytes.words32BigEndian_ofWord32BigEndian, last]

theorem toBytes_ofBytes {block : Bytes} (eight : block.length = 8) :
    toBytes (ofBytes block) = block := by
  obtain ⟨a, b, c, d, e, f, g, i, rfl⟩ := Bytes.exists_eight_bytes eight
  simp only [toBytes, ofBytes, Bytes.words32BigEndian, Bytes.ofWord32BigEndian_word32,
    List.cons_append, List.nil_append]

theorem lawful_cipher (key : Bytes) : (cipher key).Lawful where
  length_encrypt _ := rfl
  length_decrypt _ := rfl
  decrypt_encrypt eight := by
    simp only [cipher, ofBytes_toBytes, Schedule.crypt_reversed_crypt, toBytes_ofBytes eight]
  encrypt_decrypt eight := by
    simp only [cipher, ofBytes_toBytes, Schedule.crypt_crypt_reversed, toBytes_ofBytes eight]

end StreamCrypto.Cipher.Blowfish
