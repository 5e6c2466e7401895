import StreamCrypto.Proofs.Mode.Inverse
import StreamCrypto.Proofs.Mode.Standard

/-!
# Cipher feedback of a whole message

CFB in textbook form, with whole blocks fed back: block `i` of the message is combined with the
encryption of the ciphertext block before it, in both directions, and the last block may be
shorter. The running transform keeps a register and works byte by byte; block by block it goes
from one ciphertext block to the next (`run_block`), and so it computes the textbook form of
messages of any length (`run_eq_cfb`).
-/

namespace StreamCrypto.Mode

open Bytes (block)

namespace Standard

/-- The ciphertext block before block `i` of a message. -/
def fedBack (cipher : BlockCipher) (direction : Direction) (iv message : Bytes) : Nat → Bytes
  | 0 => iv
  | i + 1 =>
    match direction with
    | .encode =>
      Bytes.xor (block cipher.blockSize message i)
        (cipher.encrypt (fedBack cipher direction iv message i))
    | .decode => block cipher.blockSize message i

def cfbBlock (cipher : BlockCipher) (direction : Direction) (iv message : Bytes) (i : Nat) :
    Bytes :=
  Bytes.xor (block cipher.blockSize message i)
    (cipher.encrypt (fedBack cipher direction iv message i))

/-- The whole blocks of a message and then the bytes after them, none or less than a block. -/
def cfb (cipher : BlockCipher) (direction : Direction) (iv message : Bytes) : Bytes :=
  (List.range (message.length / cipher.blockSize + 1)).flatMap
    (cfbBlock cipher direction iv message)

theorem length_block {size : Nat} {message : Bytes} {i : Nat}
    (hwhole : size * (i + 1) ≤ message.length) : (block size message i).length = size := by
  rw [Nat.mul_succ] at hwhole
  rw [block, List.length_take, List.length_drop]
  omega

theorem length_fedBack {cipher : BlockCipher} (hlawful : cipher.Lawful) (direction : Direction)
    {iv : Bytes} (hiv : iv.length = cipher.blockSize) {message : Bytes} {i : Nat}
    (hwhole : cipher.blockSize * i ≤ message.length) :
    (fedBack cipher direction iv message i).length = cipher.blockSize := by
  induction i with
  | zero => exact hiv
  | succ i ih =>
    have hblock := length_block hwhole
    cases direction with
    | decode => exact hblock
    | encode =>
      have hbefore := ih (Nat.le_trans (Nat.mul_le_mul_left _ i.le_succ) hwhole)
      rw [fedBack, Bytes.length_xor, hblock, hlawful.length_encrypt hbefore, Nat.min_self]

theorem take_append_block {size : Nat} (hpos : 0 < size) (message : Bytes) :
    message.take (size * (message.length / size)) ++ block size message (message.length / size) =
      message := by
  have hshort : (message.drop (size * (message.length / size))).length ≤ size := by
    rw [List.length_drop, ← Nat.mod_def]
    exact Nat.le_of_lt (Nat.mod_lt _ hpos)
  rw [block, List.take_of_length_le hshort, List.take_append_drop]

end Standard

namespace Cfb

open Standard

/-- Of what goes in and what comes out, the ciphertext. -/
def ciphertextOf (direction : Direction) (input output : Bytes) : Bytes :=
  match direction with
  | .encode => output
  | .decode => input

variable {cipher : BlockCipher} {direction : Direction}

/-- Data that the keystream at hand is long enough for. -/
theorem run_of_length_le {fed keystream data : Bytes}
    (hlength : data.length ≤ keystream.length) :
    run cipher direction ⟨fed, keystream⟩ data =
      (Bytes.xor data keystream,
        ⟨fed ++ ciphertextOf direction data (Bytes.xor data keystream),
          keystream.drop data.length⟩) := by
  induction data generalizing fed keystream with
  | nil => cases direction <;> simp [run, ciphertextOf, Bytes.xor]
  | cons byte data ih =>
    cases keystream with
    | nil => simp at hlength
    | cons key keystream =>
      have hrest := fun fed ↦ @ih fed keystream (Nat.le_of_succ_le_succ hlength)
      simp only [run] at hrest ⊢
      rw [mapAccum_cons]
      cases direction <;>
        simp [transformByte, Register.refill, hrest, ciphertextOf, Bytes.xor]

/-- With no keystream at hand, the first byte makes a block of it. -/
theorem run_start {previous data : Bytes} (hprevious : cipher.encrypt previous ≠ [])
    (hdata : data ≠ []) :
    run cipher direction (start previous) data =
      run cipher direction ⟨[], cipher.encrypt previous⟩ data := by
  have hrefill : (start previous).refill cipher =
      Register.refill cipher ⟨[], cipher.encrypt previous⟩ := by
    cases hkeystream : cipher.encrypt previous with
    | nil => exact absurd hkeystream hprevious
    | cons key keystream => simp [start, Register.refill, hkeystream]
  cases data with
  | nil => exact absurd rfl hdata
  | cons byte data => simp only [run, mapAccum_cons, transformByte, hrefill]

variable {iv message : Bytes} {i : Nat} (hlawful : cipher.Lawful)
  (hiv : iv.length = cipher.blockSize)

include hlawful hiv

/-- Block `i`, whole or not, once the blocks before it have been taken. -/
theorem run_fedBack (hwhole : cipher.blockSize * i ≤ message.length)
    (hsome : block cipher.blockSize message i ≠ []) :
    run cipher direction (start (fedBack cipher direction iv message i))
        (block cipher.blockSize message i) =
      (cfbBlock cipher direction iv message i,
        ⟨fedBack cipher direction iv message (i + 1),
          (cipher.encrypt (fedBack cipher direction iv message i)).drop
            (block cipher.blockSize message i).length⟩) := by
  have hlength := hlawful.length_encrypt (length_fedBack hlawful direction hiv hwhole)
  have hkeystream : cipher.encrypt (fedBack cipher direction iv message i) ≠ [] := by
    rw [← List.length_pos_iff, hlength]
    exact cipher.blockSize_pos
  have hle : (block cipher.blockSize message i).length ≤
      (cipher.encrypt (fedBack cipher direction iv message i)).length := by
    rw [hlength]
    exact List.length_take_le _ _
  rw [run_start hkeystream hsome, run_of_length_le hle]
  cases direction <;> rfl

/-- What comes out for a block; the last one may be empty. -/
theorem run_fedBack_fst (hwhole : cipher.blockSize * i ≤ message.length) :
    (run cipher direction (start (fedBack cipher direction iv message i))
      (block cipher.blockSize message i)).1 = cfbBlock cipher direction iv message i := by
  by_cases hsome : block cipher.blockSize message i = []
  · rw [cfbBlock, hsome]
    rfl
  · rw [run_fedBack hlawful hiv hwhole hsome]

/-- After a whole block the register holds its ciphertext and no keystream. -/
theorem run_block (hwhole : cipher.blockSize * (i + 1) ≤ message.length) :
    run cipher direction (start (fedBack cipher direction iv message i))
        (block cipher.blockSize message i) =
      (cfbBlock cipher direction iv message i,
        start (fedBack cipher direction iv message (i + 1))) := by
  have hbefore := Nat.le_trans (Nat.mul_le_mul_left _ i.le_succ) hwhole
  have hblock := length_block hwhole
  have hlength := hlawful.length_encrypt (length_fedBack hlawful direction hiv hbefore)
  have hsome : block cipher.blockSize message i ≠ [] := by
    rw [← List.length_pos_iff, hblock]
    exact cipher.blockSize_pos
  rw [run_fedBack hlawful hiv hbefore hsome,
    List.drop_of_length_le (Nat.le_of_eq (hlength.trans hblock.symm))]
  rfl

theorem run_blocks {count : Nat} (hwhole : cipher.blockSize * count ≤ message.length) :
    run cipher direction (start iv) (message.take (cipher.blockSize * count)) =
      ((List.range count).flatMap (cfbBlock cipher direction iv message),
        start (fedBack cipher direction iv message count)) := by
  induction count with
  | zero => simp [run, fedBack]
  | succ count ih =>
    have hbefore := ih (Nat.le_trans (Nat.mul_le_mul_left _ count.le_succ) hwhole)
    have hcut : message.take (cipher.blockSize * (count + 1)) =
        message.take (cipher.blockSize * count) ++ block cipher.blockSize message count := by
      rw [Nat.mul_succ, List.take_add, block]
    rw [hcut, run_append, hbefore, run_block hlawful hiv hwhole, List.range_succ,
      List.flatMap_append, List.flatMap_singleton]

/-- The running transform and the textbook form agree on messages of any length. -/
theorem run_eq_cfb (message : Bytes) :
    (run cipher direction (start iv) message).1 =
      Standard.cfb cipher direction iv message := by
  have hwhole := Nat.mul_div_le message.length cipher.blockSize
  have hcut := take_append_block cipher.blockSize_pos message
  calc
    _ = (run cipher direction (start iv)
          (message.take (cipher.blockSize * (message.length / cipher.blockSize)) ++
            block cipher.blockSize message (message.length / cipher.blockSize))).1 := by
      rw [hcut]
    _ = (List.range (message.length / cipher.blockSize)).flatMap
          (cfbBlock cipher direction iv message) ++
        cfbBlock cipher direction iv message (message.length / cipher.blockSize) := by
      rw [run_append, run_blocks hlawful hiv hwhole, run_fedBack_fst hlawful hiv hwhole]
    _ = Standard.cfb cipher direction iv message := by
      rw [Standard.cfb, List.range_succ, List.flatMap_append, List.flatMap_singleton]

end Cfb

end StreamCrypto.Mode
