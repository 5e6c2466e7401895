import StreamCrypto.Digest.Algorithm
import StreamCrypto.Memory.SecureArray

/-!
# Digest contexts

A running digest that belongs to a feature. Reading the digest starts the next message.
-/

namespace StreamCrypto

open Digest

structure DigestContext where
  feature : Feature
  algorithm : HashAlgorithm
  hasher : Hasher algorithm.compression

namespace DigestContext

def new (feature : Feature) (algorithm : HashAlgorithm) : DigestContext :=
  ⟨feature, algorithm, Hasher.new algorithm.compression⟩

def update (context : DigestContext) (data : Bytes) : DigestContext :=
  { context with hasher := context.hasher.update data }

/-- Forgets the message so far. -/
def clear (context : DigestContext) : DigestContext :=
  { context with hasher := Hasher.new context.algorithm.compression }

/-- The digest of the message so far, and the context for the next message. -/
def finalize (context : DigestContext) : Bytes × DigestContext :=
  (context.hasher.finish, context.clear)

/-- The same with the digest in an array. -/
def finalizeWith (context : DigestContext) (locking : Locking) :
    Logged (SecureArray × DigestContext) := do
  let (digest, after) := context.finalize
  pure (← SecureArray.ofBytes locking digest, after)

end DigestContext

end StreamCrypto
