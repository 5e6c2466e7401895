import StreamCrypto.Error
import StreamCrypto.Cipher.Algorithm
import StreamCrypto.Mode.Basic
import StreamCrypto.Mode.Ecb
import StreamCrypto.Mode.Cbc
import StreamCrypto.Mode.Cfb

/-!
# Running transforms

A transform is a keyed cipher in a mode, for one direction, together with what the mode
carries from one piece of data to the next. ECB and CBC are meant for whole blocks only.
Data may be cut after any piece that the transform takes (`apply_append`).
-/

namespace StreamCrypto

open Mode

inductive Transform where
  | ecb (cipher : BlockCipher) (direction : Direction)
  | cbc (cipher : BlockCipher) (direction : Direction) (previous : Bytes)
  | cfb (cipher : BlockCipher) (direction : Direction) (register : Cfb.Register)

namespace Transform

def blockSize : Transform → Nat
  | ecb cipher _ | cbc cipher _ _ | cfb cipher _ _ => cipher.blockSize

/-- Transforms a piece of data, and returns the transform that takes the next piece. -/
def apply (transform : Transform) (data : Bytes) : Bytes × Transform :=
  match transform with
  | ecb cipher direction => (Ecb.run cipher direction data, transform)
  | cbc cipher direction previous =>
    let (out, last) := Cbc.run cipher direction previous data
    (out, cbc cipher direction last)
  | cfb cipher direction register =>
    let (out, last) := Cfb.run cipher direction register data
    (out, cfb cipher direction last)

/-- Whether data fills what the transform works on at a time. -/
def Takes (transform : Transform) (data : Bytes) : Prop :=
  match transform with
  | ecb cipher _ | cbc cipher _ _ => cipher.blockSize ∣ data.length
  | cfb _ _ _ => True

/-- Data may be cut after any piece that the transform takes. -/
theorem apply_append (transform : Transform) {first : Bytes} (whole : transform.Takes first)
    (second : Bytes) :
    transform.apply (first ++ second) =
      ((transform.apply first).1 ++ ((transform.apply first).2.apply second).1,
        ((transform.apply first).2.apply second).2) := by
  cases transform with
  | ecb cipher direction => simp only [apply, Ecb.run_append cipher direction whole]
  | cbc cipher direction previous =>
    simp only [apply, Cbc.run_append cipher direction previous whole]
  | cfb cipher direction register => simp only [apply, Cfb.run_append]

/-- A transform at its beginning. The initialization vector has to be one block, and is
not looked at by ECB. -/
def start? (cipher : BlockCipher) (mode : Mode) (direction : Direction) (iv : Bytes) :
    Option Transform :=
  match mode with
  | .ecb => some (ecb cipher direction)
  | .cbc => if iv.length = cipher.blockSize then some (cbc cipher direction iv) else none
  | .cfb =>
    if iv.length = cipher.blockSize then some (cfb cipher direction (Cfb.start iv)) else none

/-- Opens a transform with a key and an initialization vector. -/
def opened (algorithm : CipherAlgorithm) (mode : Mode) (direction : Direction)
    (key iv : Bytes) : Except Error Transform :=
  if mode.usesIv = true ∧ iv.length ≠ algorithm.blockSize then
    .error (.invalidIvLength algorithm.blockSize iv.length)
  else
    match algorithm.keyed? key with
    | none => .error .keyRejected
    | some cipher =>
      match start? cipher mode direction iv with
      | none => .error .ivRejected
      | some transform => .ok transform

end Transform

end StreamCrypto
