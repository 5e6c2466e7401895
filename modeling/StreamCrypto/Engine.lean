import StreamCrypto.Config
import StreamCrypto.Event
import StreamCrypto.Version
import StreamCrypto.Memory.Basic

/-!
# The engine

The state that all contexts share: memory, and the pool that derived keys are charged to.
The engine is started once. The first configuration decides; later ones change nothing. A pool
that is installed stays, also if the engine has not been started.
-/

namespace StreamCrypto

def engineVersion : String := "0.3.0"

structure Engine where
  initialized : Bool := false
  /-- The pool that derived keys are charged to. -/
  securePool : Option PoolId := none
  memory : Memory := {}
  deriving DecidableEq, Repr

namespace Engine

/-- The engine before anything has happened. -/
def fresh : Engine := {}

/-- Installs a pool that derived keys are charged to. One that is installed already stays. -/
def installPool (engine : Engine) (capacity : Nat) : Logged Engine :=
  match engine.securePool with
  | some _ => do
    Logged.emit .poolAlreadyInstalled
    pure engine
  | none =>
    let (pool, memory) := engine.memory.newPool capacity
    pure { engine with securePool := some pool, memory }

def setPageLocking (engine : Engine) (enabled : Bool) : Engine :=
  { engine with memory := { engine.memory with pageLocking := enabled } }

/-- Returns whether this call did the work. An engine older than required is used all the
same. -/
def start (engine : Engine) (config : Config) : Logged (Bool × Engine) :=
  if engine.initialized = true then do
    Logged.emit .engineAlreadyInitialized
    pure (false, engine)
  else do
    if Version.satisfies engineVersion config.requiredVersion = false then
      Logged.emit (.engineTooOld engineVersion config.requiredVersion)
    let installed ← (engine.setPageLocking config.lockMemory).installPool config.poolBytes
    Logged.emit (.engineInitialized engineVersion config.poolBytes config.lockMemory)
    pure (true, { installed with initialized := true })

/-- The operating system answers requests for locks otherwise from now on. -/
def setRefusals (engine : Engine) (refusals : List (Option LockError)) : Engine :=
  { engine with memory := { engine.memory with refusals } }

def release (engine : Engine) (lease : Option Lease) : Engine :=
  { engine with memory := engine.memory.releaseAny lease }

/-- An array for a derived key, charged to the pool of the engine if it has one. -/
def outputBuffer (engine : Engine) (length : Nat) :
    Logged (Except Failure SecureArray × Engine) :=
  match engine.securePool with
  | none => do
    let result ← SecureArray.tryZeroed engine.memory.toLocking length
    pure (result.mapError fun cause ↦ .error (.memoryLock cause), engine)
  | some pool => do
    let (result, memory) ← engine.memory.allocate pool length
    pure (result, { engine with memory })

end Engine

end StreamCrypto
