import Mathlib.Data.Fintype.EquivFin
import StreamCrypto.Cipher.Aes

/-!
# AES is lawful

Every step of a round has an inverse: the two substitution tables undo each other, the
rows shift back, and the two column matrices have the identity as their product. The last
follows from their entries, since multiplication by a constant distributes over addition.
So decryption undoes encryption for every key schedule (`Schedule.decrypt_encrypt`).
-/

namespace StreamCrypto.Cipher.Aes

/-! ## Bytes -/

/-- What holds of each of the 256 bytes holds of every byte. -/
theorem forall_byte {P : UInt8 → Prop} (h : ∀ i : Fin 256, P (UInt8.ofFin i)) (byte : UInt8) :
    P byte :=
  h byte.toFin

theorem unsubstitute_substitute (byte : UInt8) : unsubstitute (substitute byte) = byte :=
  forall_byte (P := fun b ↦ unsubstitute (substitute b) = b) (by decide +kernel) byte

/-- A map of a finite type into itself that has an inverse on one side has it on both. -/
theorem substitute_unsubstitute (byte : UInt8) : substitute (unsubstitute byte) = byte := by
  have hfinite : Finite UInt8 := Finite.of_injective UInt8.toFin fun _ _ ↦ UInt8.toFin_inj.1
  have hinjective : Function.Injective substitute :=
    Function.LeftInverse.injective unsubstitute_substitute
  obtain ⟨preimage, rfl⟩ := Finite.surjective_of_injective hinjective byte
  rw [unsubstitute_substitute]

/-! ## Products -/

theorem xor_left_comm (x y z : UInt8) : x ^^^ (y ^^^ z) = y ^^^ (x ^^^ z) := by
  rw [← UInt8.xor_assoc, UInt8.xor_comm x, UInt8.xor_assoc]

theorem double_xor (x y : UInt8) : double (x ^^^ y) = double x ^^^ double y := by
  have carry (z : UInt8) : z >>> 7 = 0 ∨ z >>> 7 = 1 :=
    forall_byte (P := fun z ↦ z >>> 7 = 0 ∨ z >>> 7 = 1) (by decide +kernel) z
  have low : (x ^^^ y) <<< 1 = x <<< 1 ^^^ y <<< 1 :=
    UInt8.toBitVec_inj.1 (by simp [BitVec.shiftLeft_xor_distrib])
  have high : (x ^^^ y) >>> 7 = x >>> 7 ^^^ y >>> 7 :=
    UInt8.toBitVec_inj.1 (by simp [BitVec.ushiftRight_xor_distrib])
  have product {u v : UInt8} (hu : u = 0 ∨ u = 1) (hv : v = 0 ∨ v = 1) :
      (u ^^^ v) * 0x1b = u * 0x1b ^^^ v * 0x1b := by
    rcases hu with rfl | rfl <;> rcases hv with rfl | rfl <;> rfl
  simp only [double, low, high, product (carry x) (carry y), UInt8.xor_assoc, xor_left_comm]

theorem times3_xor (x y : UInt8) : times3 (x ^^^ y) = times3 x ^^^ times3 y := by
  simp only [times3, double_xor, UInt8.xor_assoc, xor_left_comm]

theorem times9_xor (x y : UInt8) : times9 (x ^^^ y) = times9 x ^^^ times9 y := by
  simp only [times9, double_xor, UInt8.xor_assoc, xor_left_comm]

theorem times11_xor (x y : UInt8) : times11 (x ^^^ y) = times11 x ^^^ times11 y := by
  simp only [times11, double_xor, UInt8.xor_assoc, xor_left_comm]

theorem times13_xor (x y : UInt8) : times13 (x ^^^ y) = times13 x ^^^ times13 y := by
  simp only [times13, double_xor, UInt8.xor_assoc, xor_left_comm]

theorem times14_xor (x y : UInt8) : times14 (x ^^^ y) = times14 x ^^^ times14 y := by
  simp only [times14, double_xor, UInt8.xor_assoc, xor_left_comm]

/-! ## Columns -/

/-- A sum by rows is the sum by columns. -/
theorem xor_rows (a b c d e f g h i j k l m n o p : UInt8) :
    (a ^^^ b ^^^ c ^^^ d) ^^^ (e ^^^ f ^^^ g ^^^ h) ^^^ (i ^^^ j ^^^ k ^^^ l) ^^^
        (m ^^^ n ^^^ o ^^^ p) =
      (a ^^^ e ^^^ i ^^^ m) ^^^ (b ^^^ f ^^^ j ^^^ n) ^^^ (c ^^^ g ^^^ k ^^^ o) ^^^
        (d ^^^ h ^^^ l ^^^ p) := by
  simp only [UInt8.xor_assoc, xor_left_comm]

/-! The entries of the two products of the matrices, by distance from the diagonal. -/

theorem unmix_mix_entries (b : UInt8) :
    times14 (double b) ^^^ times11 b ^^^ times13 b ^^^ times9 (times3 b) = b ∧
      times14 (times3 b) ^^^ times11 (double b) ^^^ times13 b ^^^ times9 b = 0 ∧
      times14 b ^^^ times11 (times3 b) ^^^ times13 (double b) ^^^ times9 b = 0 ∧
      times14 b ^^^ times11 b ^^^ times13 (times3 b) ^^^ times9 (double b) = 0 := by
  revert b
  apply forall_byte
  decide +kernel

theorem mix_unmix_entries (b : UInt8) :
    double (times14 b) ^^^ times3 (times9 b) ^^^ times13 b ^^^ times11 b = b ∧
      double (times11 b) ^^^ times3 (times14 b) ^^^ times9 b ^^^ times13 b = 0 ∧
      double (times13 b) ^^^ times3 (times11 b) ^^^ times14 b ^^^ times9 b = 0 ∧
      double (times9 b) ^^^ times3 (times13 b) ^^^ times11 b ^^^ times14 b = 0 := by
  revert b
  apply forall_byte
  decide +kernel

/-- The first byte of the product of both matrices with a column. -/
theorem unmix_mix_first (a b c d : UInt8) :
    times14 (double a ^^^ times3 b ^^^ c ^^^ d) ^^^ times11 (a ^^^ double b ^^^ times3 c ^^^ d) ^^^
        times13 (a ^^^ b ^^^ double c ^^^ times3 d) ^^^
        times9 (times3 a ^^^ b ^^^ c ^^^ double d) = a := by
  simp only [times14_xor, times11_xor, times13_xor, times9_xor]
  rw [xor_rows, (unmix_mix_entries a).1, (unmix_mix_entries b).2.1, (unmix_mix_entries c).2.2.1,
    (unmix_mix_entries d).2.2.2]
  simp only [UInt8.xor_zero]

/-- The other bytes follow from the first, since the matrices are circulant. -/
theorem unmixColumn_mixColumn (x : Column) : unmixColumn (mixColumn x) = x := by
  obtain ⟨a, b, c, d⟩ := x
  have first := unmix_mix_first a b c d
  have second := unmix_mix_first b c d a
  have third := unmix_mix_first c d a b
  have fourth := unmix_mix_first d a b c
  simp only [unmixColumn, mixColumn, Column.mk.injEq]
  simp only [UInt8.xor_assoc, UInt8.xor_comm, xor_left_comm] at first second third fourth ⊢
  exact ⟨first, second, third, fourth⟩

theorem mix_unmix_first (a b c d : UInt8) :
    double (times14 a ^^^ times11 b ^^^ times13 c ^^^ times9 d) ^^^
        times3 (times9 a ^^^ times14 b ^^^ times11 c ^^^ times13 d) ^^^
        (times13 a ^^^ times9 b ^^^ times14 c ^^^ times11 d) ^^^
        (times11 a ^^^ times13 b ^^^ times9 c ^^^ times14 d) = a := by
  simp only [double_xor, times3_xor]
  rw [xor_rows, (mix_unmix_entries a).1, (mix_unmix_entries b).2.1, (mix_unmix_entries c).2.2.1,
    (mix_unmix_entries d).2.2.2]
  simp only [UInt8.xor_zero]

theorem mixColumn_unmixColumn (x : Column) : mixColumn (unmixColumn x) = x := by
  obtain ⟨a, b, c, d⟩ := x
  have first := mix_unmix_first a b c d
  have second := mix_unmix_first b c d a
  have third := mix_unmix_first c d a b
  have fourth := mix_unmix_first d a b c
  simp only [unmixColumn, mixColumn, Column.mk.injEq]
  simp only [UInt8.xor_assoc, UInt8.xor_comm, xor_left_comm] at first second third fourth ⊢
  exact ⟨first, second, third, fourth⟩

/-! ## Rounds -/

theorem Column.map_map_of_inverse {f g : UInt8 → UInt8} (h : ∀ b, g (f b) = b) (x : Column) :
    (x.map f).map g = x := by
  simp only [Column.map, h]

theorem State.map_map_of_inverse {f g : Column → Column} (h : ∀ x, g (f x) = x) (s : State) :
    (s.map f).map g = s := by
  simp only [State.map, h]

theorem Column.add_add_cancel (x y : Column) : (x.add y).add y = x := by
  simp only [Column.add, UInt8.xor_assoc, UInt8.xor_self, UInt8.xor_zero]

theorem State.add_add_cancel (s t : State) : (s.add t).add t = s := by
  simp only [State.add, Column.add_add_cancel]

theorem unsubstituteBytes_substituteBytes (s : State) :
    unsubstituteBytes (substituteBytes s) = s :=
  State.map_map_of_inverse (Column.map_map_of_inverse unsubstitute_substitute) s

theorem substituteBytes_unsubstituteBytes (s : State) :
    substituteBytes (unsubstituteBytes s) = s :=
  State.map_map_of_inverse (Column.map_map_of_inverse substitute_unsubstitute) s

theorem unshiftRows_shiftRows (s : State) : unshiftRows (shiftRows s) = s := rfl

theorem shiftRows_unshiftRows (s : State) : shiftRows (unshiftRows s) = s := rfl

theorem decryptRound_encryptRound (s key : State) : decryptRound key (encryptRound s key) = s := by
  simp only [decryptRound, encryptRound, State.add_add_cancel,
    State.map_map_of_inverse unmixColumn_mixColumn, unshiftRows_shiftRows,
    unsubstituteBytes_substituteBytes]

theorem encryptRound_decryptRound (s key : State) : encryptRound (decryptRound key s) key = s := by
  simp only [decryptRound, encryptRound, substituteBytes_unsubstituteBytes,
    shiftRows_unshiftRows, State.map_map_of_inverse mixColumn_unmixColumn, State.add_add_cancel]

theorem foldr_decryptRound_foldl_encryptRound (keys : List State) (s : State) :
    keys.foldr decryptRound (keys.foldl encryptRound s) = s := by
  induction keys generalizing s with
  | nil => rfl
  | cons key keys ih => rw [List.foldl_cons, List.foldr_cons, ih, decryptRound_encryptRound]

theorem foldl_encryptRound_foldr_decryptRound (keys : List State) (s : State) :
    keys.foldl encryptRound (keys.foldr decryptRound s) = s := by
  induction keys generalizing s with
  | nil => rfl
  | cons key keys ih => rw [List.foldl_cons, List.foldr_cons, encryptRound_decryptRound, ih]

theorem Schedule.decrypt_encrypt (keys : Schedule) (s : State) :
    keys.decrypt (keys.encrypt s) = s := by
  simp only [Schedule.decrypt, Schedule.encrypt, State.add_add_cancel, unshiftRows_shiftRows,
    unsubstituteBytes_substituteBytes, foldr_decryptRound_foldl_encryptRound]

theorem Schedule.encrypt_decrypt (keys : Schedule) (s : State) :
    keys.encrypt (keys.decrypt s) = s := by
  simp only [Schedule.decrypt, Schedule.encrypt, State.add_add_cancel,
    foldl_encryptRound_foldr_decryptRound, substituteBytes_unsubstituteBytes,
    shiftRows_unshiftRows]

/-! ## As byte strings -/

theorem State.ofBytes_toBytes (s : State) : State.ofBytes s.toBytes = s := rfl

theorem State.toBytes_ofBytes {block : Bytes} (sixteen : block.length = 16) :
    (State.ofBytes block).toBytes = block := by
  match block, sixteen with
  | [_, _, _, _, _, _, _, _, _, _, _, _, _, _, _, _], _ => rfl

theorem lawful_cipher (key : Bytes) : (cipher key).Lawful where
  length_encrypt _ := rfl
  length_decrypt _ := rfl
  decrypt_encrypt sixteen := by
    simp only [cipher, State.ofBytes_toBytes, Schedule.decrypt_encrypt,
      State.toBytes_ofBytes sixteen]
  encrypt_decrypt sixteen := by
    simp only [cipher, State.ofBytes_toBytes, Schedule.encrypt_decrypt,
      State.toBytes_ofBytes sixteen]

end StreamCrypto.Cipher.Aes
