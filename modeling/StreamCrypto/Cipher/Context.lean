import StreamCrypto.Config
import StreamCrypto.Event
import StreamCrypto.Padding
import StreamCrypto.Cipher.WeakKey
import StreamCrypto.Mode.Transform

/-!
# Cipher contexts

A context is set up with a direction, a key and an initialization vector, takes data in
pieces of any size, and is ended; then it can be set up again. In ECB and CBC only whole
blocks are transformed, and the rest waits for more data. With padding, encryption ends
with one padded block, and decryption keeps the last whole block back until the end, where
its padding is checked and removed. CFB returns as many bytes as it is given.
-/

namespace StreamCrypto

/-- What a context holds between being set up and being ended. -/
structure CipherStream where
  direction : Direction
  transform : Transform
  /-- The end of the data so far that is not transformed yet. -/
  pending : Bytes
  key : Bytes
  iv : Bytes

inductive Lifecycle where
  | unkeyed
  | active (stream : CipherStream)
  | finished

structure CipherContext where
  feature : Feature
  algorithm : CipherAlgorithm
  mode : Mode
  padding : Bool
  policy : FailurePolicy := .strict
  /-- Whether the last key of an accepted length was weak. -/
  weakKey : Bool := false
  lifecycle : Lifecycle := .unkeyed

namespace CipherContext

def new (feature : Feature) (algorithm : CipherAlgorithm) (mode : Mode) (padding : Bool) :
    CipherContext :=
  { feature, algorithm, mode, padding }

def withPolicy (context : CipherContext) (policy : FailurePolicy) : CipherContext :=
  { context with policy }

def stream? (context : CipherContext) : Option CipherStream :=
  match context.lifecycle with
  | .active stream => some stream
  | .unkeyed | .finished => none

def isActive (context : CipherContext) : Bool := context.stream?.isSome

def direction? (context : CipherContext) : Option Direction :=
  context.stream?.map CipherStream.direction

def blockSize (context : CipherContext) : Nat := context.algorithm.blockSize

/-! ## Setting up -/

/-- Opens the transform for a stream. A context that is active is left alone, a key of a
length that the algorithm does not take changes nothing, and a weak key is noted and accepted. -/
def prepare (context : CipherContext) (direction : Direction) (key iv : Bytes) :
    Logged (Except Error Transform × CipherContext) :=
  if context.isActive = true then
    pure (.error .alreadyKeyed, context)
  else if context.algorithm.keyLength.accepts key.length = false then do
    Logged.emit (.keyLengthRejected context.feature key.length)
    pure (.error (.invalidKeyLength context.algorithm.name key.length
      context.algorithm.keyLength), context)
  else do
    let weak := context.algorithm.isWeakKey key
    let noted := { context with weakKey := weak }
    if weak = true then Logged.emit (.weakKey context.feature)
    match Transform.opened context.algorithm context.mode direction key iv with
    | .error error =>
      Logged.emit (.setupFailed context.feature error)
      pure (.error error, noted)
    | .ok transform => pure (.ok transform, noted)

def start (context : CipherContext) (stream : CipherStream) : Logged CipherContext := do
  Logged.emit (.contextSetUp context.feature stream.direction)
  pure { context with lifecycle := .active stream }

/-- Starts a stream, if there is a transform for it. -/
def setup (context : CipherContext) (direction : Direction) (key iv : Bytes) :
    Logged (Except Error Unit × CipherContext) := do
  let (result, noted) ← context.prepare direction key iv
  match result with
  | .error error => pure (.error error, noted)
  | .ok transform =>
    let started ← noted.start { direction, transform, pending := [], key, iv }
    pure (.ok (), started)

/-! ## Taking data -/

/-- How many of `total` untransformed bytes wait for more data. The last whole block of
padded ciphertext may be the last one, so it waits too. -/
def heldLength (context : CipherContext) (direction : Direction) (total : Nat) : Nat :=
  let remainder := total % context.blockSize
  if direction = .decode ∧ context.padding = true ∧ remainder = 0 then
    min total context.blockSize
  else remainder

/-- The output for the next piece of data, and the stream after it. -/
def advance (context : CipherContext) (stream : CipherStream) (input : Bytes) :
    Bytes × CipherStream :=
  if context.mode.isStream = true then
    let (out, transform) := stream.transform.apply input
    (out, { stream with transform })
  else
    let unread := stream.pending ++ input
    let count := unread.length - context.heldLength stream.direction unread.length
    let (out, transform) := stream.transform.apply (unread.take count)
    (out, { stream with transform, pending := unread.drop count })

def update (context : CipherContext) (input : Bytes) : Except Error Bytes × CipherContext :=
  match context.lifecycle with
  | .unkeyed => (.error .notKeyed, context)
  | .finished => (.error .finished, context)
  | .active stream =>
    let (out, next) := context.advance stream input
    (.ok out, { context with lifecycle := .active next })

/-! ## Ending -/

/-- The output at the end of a stream. -/
def lastOutput (context : CipherContext) (stream : CipherStream) : Except Error Bytes :=
  let incomplete := Error.incompleteBlock stream.pending.length context.blockSize
  if context.mode.isStream = true then
    .ok []
  else if context.padding = false then
    if stream.pending = [] then .ok [] else .error incomplete
  else
    match stream.direction with
    | .encode => .ok (stream.transform.apply (Padding.pad context.blockSize stream.pending)).1
    | .decode =>
      if stream.pending = [] then .error .invalidPadding
      else if stream.pending.length ≠ context.blockSize then .error incomplete
      else
        let block := (stream.transform.apply stream.pending).1
        match Padding.contentLength? block with
        | none => .error .invalidPadding
        | some length => .ok (block.take length)

/-- The result that the failure policy makes of one at the end of a stream. -/
def report (context : CipherContext) (result : Except Error Bytes) :
    Logged (Except Error Bytes) :=
  match result, context.policy with
  | .error error, .logAndContinue => do
    Logged.emit (.finalizeFailed context.feature error)
    pure (.ok [])
  | result, _ => pure result

/-- Ends the stream, whatever the result. -/
def finalize (context : CipherContext) : Logged (Except Error Bytes × CipherContext) :=
  match context.lifecycle with
  | .unkeyed => pure (.error .notKeyed, context)
  | .finished => pure (.error .finished, context)
  | .active stream => do
    let result ← context.report (context.lastOutput stream)
    pure (result, { context with lifecycle := .finished })

end CipherContext

end StreamCrypto
