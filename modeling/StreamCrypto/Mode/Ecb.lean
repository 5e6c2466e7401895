import StreamCrypto.Bytes.Blocks
import StreamCrypto.Cipher.Block
import StreamCrypto.Direction

/-!
# Electronic codebook

Every block is transformed by itself, so data can be cut between blocks (`run_append`).
-/

namespace StreamCrypto.Mode.Ecb

def transformBlock (cipher : BlockCipher) : Direction → Bytes → Bytes
  | .encode => cipher.encrypt
  | .decode => cipher.decrypt

/-- Transforms the whole blocks; what follows them stays as it is. -/
def run (cipher : BlockCipher) (direction : Direction) (data : Bytes) : Bytes :=
  (Bytes.blocks cipher.blockSize data).flatMap (transformBlock cipher direction) ++
    Bytes.partialBlock cipher.blockSize data

theorem run_append (cipher : BlockCipher) (direction : Direction) {first : Bytes}
    (whole : cipher.blockSize ∣ first.length) (second : Bytes) :
    run cipher direction (first ++ second) =
      run cipher direction first ++ run cipher direction second := by
  simp only [run, Bytes.blocks_append cipher.blockSize_pos whole,
    Bytes.partialBlock_append cipher.blockSize_pos whole, Bytes.partialBlock_eq_nil whole,
    List.flatMap_append, List.append_nil, List.append_assoc]

end StreamCrypto.Mode.Ecb
