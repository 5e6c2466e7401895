import StreamCrypto.Bytes.Blocks
import StreamCrypto.Cipher.Block
import StreamCrypto.Direction
import StreamCrypto.Mode.Accumulate

/-!
# Cipher block chaining

Every plaintext block is combined with the ciphertext block before it, the first one with
the initialization vector. The state is the ciphertext block that the next block meets: an
output when encrypting, and an input when decrypting. Data can be cut between blocks, if
the state is passed on (`run_append`).
-/

namespace StreamCrypto.Mode.Cbc

/-- The transformed block, and the ciphertext block that the next one meets. -/
def transformBlock (cipher : BlockCipher) (direction : Direction) (previous block : Bytes) :
    Bytes × Bytes :=
  match direction with
  | .encode =>
    let out := cipher.encrypt (Bytes.xor block previous)
    (out, out)
  | .decode => (Bytes.xor (cipher.decrypt block) previous, block)

/-- Transforms the whole blocks; what follows them stays as it is. -/
def run (cipher : BlockCipher) (direction : Direction) (previous data : Bytes) :
    Bytes × Bytes :=
  let (outputs, last) := mapAccum (transformBlock cipher direction) previous
    (Bytes.blocks cipher.blockSize data)
  (outputs.flatten ++ Bytes.partialBlock cipher.blockSize data, last)

theorem run_append (cipher : BlockCipher) (direction : Direction) (previous : Bytes)
    {first : Bytes} (whole : cipher.blockSize ∣ first.length) (second : Bytes) :
    run cipher direction previous (first ++ second) =
      ((run cipher direction previous first).1 ++
          (run cipher direction (run cipher direction previous first).2 second).1,
        (run cipher direction (run cipher direction previous first).2 second).2) := by
  simp only [run, Bytes.blocks_append cipher.blockSize_pos whole, mapAccum_append,
    Bytes.partialBlock_append cipher.blockSize_pos whole, Bytes.partialBlock_eq_nil whole,
    List.flatten_append, List.append_nil, List.append_assoc]

end StreamCrypto.Mode.Cbc
