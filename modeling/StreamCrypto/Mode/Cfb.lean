import StreamCrypto.Cipher.Block
import StreamCrypto.Direction
import StreamCrypto.Mode.Accumulate

/-!
# Cipher feedback

Data is combined byte by byte with a keystream. A block of keystream is the encryption of
the ciphertext block before it, the first one that of the initialization vector. Both
directions encrypt. Data can be cut anywhere, if the register is passed on (`run_append`).
-/

namespace StreamCrypto.Mode.Cfb

structure Register where
  /-- The ciphertext since the last block of keystream was made. -/
  feedback : Bytes
  /-- The keystream that is not used yet. -/
  keystream : Bytes
  deriving DecidableEq, Repr

def start (iv : Bytes) : Register := ⟨iv, []⟩

/-- Makes the next block of keystream once the last one is used up. -/
def Register.refill (cipher : BlockCipher) (register : Register) : Register :=
  match register.keystream with
  | [] => ⟨[], cipher.encrypt register.feedback⟩
  | _ :: _ => register

/-- The transformed byte; the ciphertext byte of the two is fed back. -/
def transformByte (cipher : BlockCipher) (direction : Direction) (register : Register)
    (byte : UInt8) : UInt8 × Register :=
  let ready := register.refill cipher
  let out := byte ^^^ ready.keystream.headD 0
  let fed := match direction with
    | .encode => out
    | .decode => byte
  (out, ⟨ready.feedback ++ [fed], ready.keystream.tail⟩)

def run (cipher : BlockCipher) (direction : Direction) (register : Register) (data : Bytes) :
    Bytes × Register :=
  mapAccum (transformByte cipher direction) register data

theorem run_append (cipher : BlockCipher) (direction : Direction) (register : Register)
    (first second : Bytes) :
    run cipher direction register (first ++ second) =
      ((run cipher direction register first).1 ++
          (run cipher direction (run cipher direction register first).2 second).1,
        (run cipher direction (run cipher direction register first).2 second).2) :=
  mapAccum_append _ _ _ _

@[simp] theorem length_run (cipher : BlockCipher) (direction : Direction) (register : Register)
    (data : Bytes) : (run cipher direction register data).1.length = data.length :=
  length_mapAccum _ _ _

end StreamCrypto.Mode.Cfb
