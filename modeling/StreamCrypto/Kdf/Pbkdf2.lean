import StreamCrypto.Error
import StreamCrypto.Digest.Algorithm
import StreamCrypto.Kdf.Hmac

/-!
# PBKDF2

A key is as many bytes as are asked for of a row of blocks. Each block is the exclusive or
of a chain of codes under the secret, which starts from the salt and the number of the
block. Requests that cannot be served are refused before anything is computed.
-/

namespace StreamCrypto.Kdf.Pbkdf2

/-- Why a request is refused. -/
inductive Refusal where
  | noIterations
  | noLength
  | tooLong (length : Nat)
  deriving DecidableEq, Repr

def Refusal.reason : Refusal → String
  | noIterations => "iteration count must be at least 1"
  | noLength => "requested key length is zero"
  | tooLong length =>
    "requested key length " ++ toString length ++ " exceeds the PBKDF2 limit"

/-- The length of the longest key: blocks are numbered with 32 bits, from 1. -/
def maximumLength (algorithm : HashAlgorithm) : Nat :=
  (UInt32.size - 1) * algorithm.digestLength

def refusal? (algorithm : HashAlgorithm) (length iterations : Nat) : Option Refusal :=
  if iterations = 0 then some .noIterations
  else if length = 0 then some .noLength
  else if maximumLength algorithm < length then some (.tooLong length)
  else none

/-- Refuses a request that cannot be served. -/
def check (algorithm : HashAlgorithm) (length iterations : Nat) : Except Error Unit :=
  match refusal? algorithm length iterations with
  | some refusal => .error (.derivation refusal.reason)
  | none => .ok ()

/-- Continues a chain by `count` codes, and combines them with `sum`. -/
def chain (code : Bytes → Bytes) : (count : Nat) → (last sum : Bytes) → Bytes
  | 0, _, sum => sum
  | count + 1, last, sum =>
    let next := code last
    chain code count next (Bytes.xor sum next)

/-- The block of a number, counted from 1. -/
def block (code : Bytes → Bytes) (salt : Bytes) (iterations number : Nat) : Bytes :=
  let first := code (salt ++ Bytes.ofNatBigEndian 4 number)
  chain code (iterations - 1) first first

/-- The first `count` blocks. -/
def keystream (code : Bytes → Bytes) (salt : Bytes) (iterations count : Nat) : Bytes :=
  (List.range count).flatMap fun i ↦ block code salt iterations (i + 1)

/-- A key of `length` bytes. -/
def derive (algorithm : HashAlgorithm) (secret salt : Bytes) (iterations length : Nat) :
    Except Error Bytes := do
  check algorithm length iterations
  let prepared := Hmac.Prepared.ofSecret algorithm.compression secret
  let width := algorithm.digestLength
  let count := (length + width - 1) / width
  pure ((keystream prepared.code salt iterations count).take length)

end StreamCrypto.Kdf.Pbkdf2
