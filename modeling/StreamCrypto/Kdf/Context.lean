import StreamCrypto.Engine
import StreamCrypto.Kdf.Pbkdf2

/-!
# Key derivation contexts

Keys derived with PBKDF2 over one digest. A derived key is charged to the pool of the
engine. There are three ways to ask for one: `tryMakeKey` returns what goes wrong;
`makeKeyOrEmpty` logs it and returns an empty key; `makeKey` does that too, but derives a
key outside the pool when the pool is exhausted.
-/

namespace StreamCrypto

open Kdf

structure KdfContext where
  feature : Feature
  hash : HashAlgorithm
  deriving DecidableEq, Repr

/-- What a key is derived from, and how. -/
structure KeyRequest where
  secret : Bytes
  salt : Bytes
  length : Nat
  iterations : Nat
  deriving DecidableEq, Repr

namespace KdfContext

def new (feature : Feature) (hash : HashAlgorithm) : KdfContext := ⟨feature, hash⟩

def check (context : KdfContext) (request : KeyRequest) : Except Error Unit :=
  Pbkdf2.check context.hash request.length request.iterations

/-- Derives as many bytes as an array has, in place. -/
def fill (context : KdfContext) (request : KeyRequest) (buffer : SecureArray) :
    Except Error SymmetricKey :=
  (Pbkdf2.derive context.hash request.secret request.salt request.iterations
    buffer.bytes.length).map fun bytes ↦ ⟨{ buffer with bytes }⟩

/-- Derives a key in an array, and drops the array if that fails. -/
def fillOrDrop (context : KdfContext) (request : KeyRequest) (buffer : SecureArray)
    (engine : Engine) : Except Error SymmetricKey × Engine :=
  match context.fill request buffer with
  | .ok key => (.ok key, engine)
  | .error error => (.error error, engine.release buffer.lease)

def tryMakeKey (context : KdfContext) (request : KeyRequest) (engine : Engine) :
    Logged (Except Failure SymmetricKey × Engine) :=
  match context.check request with
  | .error error => pure (.error (.error error), engine)
  | .ok _ => do
    let (buffer, charged) ← engine.outputBuffer request.length
    match buffer with
    | .error failure => pure (.error failure, charged)
    | .ok buffer =>
      match context.fillOrDrop request buffer charged with
      | (.error error, after) => pure (.error (.error error), after)
      | (.ok key, after) =>
        Logged.emit (.keyDerived context.feature request.length request.iterations)
        pure (.ok key, after)

/-- Logs why there is no key, and returns the empty one. -/
def giveUp (context : KdfContext) (cause : Failure) (engine : Engine) :
    Logged (Except Failure SymmetricKey × Engine) := do
  Logged.emit (.derivationFailed context.feature cause)
  pure (.ok SymmetricKey.empty, engine)

def makeKeyOrEmpty (context : KdfContext) (request : KeyRequest) (engine : Engine) :
    Logged (Except Failure SymmetricKey × Engine) := do
  let (result, after) ← context.tryMakeKey request engine
  match result with
  | .error (.error error) => context.giveUp (.error error) after
  | result => pure (result, after)

/-- Derives a key in an array, and gives up if that fails. -/
def fillOrGiveUp (context : KdfContext) (request : KeyRequest) (buffer : SecureArray)
    (engine : Engine) : Logged (Except Failure SymmetricKey × Engine) :=
  match context.fillOrDrop request buffer engine with
  | (.error error, after) => context.giveUp (.error error) after
  | (.ok key, after) => pure (.ok key, after)

/-- Derives a key in an array that is charged to no pool. -/
def makeKeyOutsidePool (context : KdfContext) (request : KeyRequest) (engine : Engine) :
    Logged (Except Failure SymmetricKey × Engine) := do
  Logged.emit (.derivingOutsidePool context.feature request.length)
  match ← SecureArray.tryZeroed engine.memory.toLocking request.length with
  | .ok buffer => context.fillOrGiveUp request buffer engine
  | .error cause => context.giveUp (.lock cause) engine

def makeKey (context : KdfContext) (request : KeyRequest) (engine : Engine) :
    Logged (Except Failure SymmetricKey × Engine) :=
  match context.check request with
  | .error error => context.giveUp (.error error) engine
  | .ok _ => do
    let (buffer, charged) ← engine.outputBuffer request.length
    match buffer with
    | .ok buffer => context.fillOrGiveUp request buffer charged
    | .error (.error (.poolExhausted _ _)) => context.makeKeyOutsidePool request charged
    | .error (.error error) => context.giveUp (.error error) charged
    | .error failure => pure (.error failure, charged)

end KdfContext

end StreamCrypto
