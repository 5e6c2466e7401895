import StreamCrypto.Cipher.Context
import StreamCrypto.Memory.SecureArray

/-!
# Cipher contexts and secure arrays

A stream keeps its key, its initialization vector and a block of pending bytes in secure arrays,
and what a context returns is an array of its own. So the calls on a context ask for pages to be
locked, in between the other things that they log. The bytes are those of the calls without arrays:
whether a page is locked makes no difference to them.
-/

namespace StreamCrypto.CipherContext

def setupWith (context : CipherContext) (locking : Locking) (direction : Direction)
    (key iv : Bytes) : Logged (Except Error Unit × CipherContext) := do
  let (result, noted) ← context.prepare direction key iv
  match result with
  | .error error => pure (.error error, noted)
  | .ok transform =>
    locking.lockEach [context.blockSize, key.length, iv.length]
    let started ← noted.start { direction, transform, pending := [], key, iv }
    pure (.ok (), started)

def updateWith (context : CipherContext) (locking : Locking) (input : Bytes) :
    Logged (Except Error SecureArray × CipherContext) := do
  let (result, after) := context.update input
  match result with
  | .error error => pure (.error error, after)
  | .ok out => pure (.ok (← SecureArray.ofBytes locking out), after)

/-- The length of the array that the last block of a stream is transformed in. What is left of the
block once its padding is removed is not known before. -/
def lastLength (context : CipherContext) (stream : CipherStream) : Nat :=
  if context.mode.isStream = true ∨ context.padding = false then 0
  else
    match stream.direction with
    | .encode => context.blockSize
    | .decode => if stream.pending.length = context.blockSize then context.blockSize else 0

def finalizeWith (context : CipherContext) (locking : Locking) :
    Logged (Except Error SecureArray × CipherContext) :=
  match context.lifecycle with
  | .unkeyed => pure (.error .notKeyed, context)
  | .finished => pure (.error .finished, context)
  | .active stream => do
    let last := context.lastOutput stream
    let locked ← locking.lock (context.lastLength stream)
    let result ← context.report last
    -- A failure that is not returned leaves an empty array instead of the block.
    pure (result.map fun bytes ↦ { bytes, locked := locked && last.toBool },
      { context with lifecycle := .finished })

end StreamCrypto.CipherContext
