import StreamCrypto.Memory.Pool
import StreamCrypto.Memory.SecureArray

/-!
# Memory

The pools that exist, and what becomes of the pages of new arrays. Reserving and allocating
charge a pool; releasing a lease takes its charge back.
-/

namespace StreamCrypto

structure Memory extends Locking where
  pools : List Pool := []
  deriving DecidableEq, Repr

namespace Memory

/-- The pool of an identity; one that does not exist has no capacity. -/
def pool (memory : Memory) (id : PoolId) : Pool := memory.pools.getD id ⟨0, 0, 0, 0⟩

def setPool (memory : Memory) (id : PoolId) (pool : Pool) : Memory :=
  { memory with pools := memory.pools.set id pool }

def newPool (memory : Memory) (capacity : Nat) : PoolId × Memory :=
  (memory.pools.length, { memory with pools := memory.pools ++ [{ capacity }] })

def reserve (memory : Memory) (id : PoolId) (size : Nat) :
    Logged (Except Error Lease × Memory) := do
  let (result, pool) ← (memory.pool id).reserve size
  pure (result.map fun _ ↦ ⟨id, size⟩, memory.setPool id pool)

def release (memory : Memory) (lease : Lease) : Memory :=
  memory.setPool lease.pool ((memory.pool lease.pool).release lease.size)

/-- Releases a lease if there is one. -/
def releaseAny (memory : Memory) (lease : Option Lease) : Memory :=
  match lease with
  | some lease => memory.release lease
  | none => memory

/-- An array of zeros that holds a lease. A lease is released if there is no array. -/
def leased (memory : Memory) (length : Nat) (lease : Lease) :
    Logged (Except Fault SecureArray × Memory) := do
  match ← SecureArray.zeroedWith memory.toLocking (some lease) length with
  | .ok array => pure (.ok array, memory)
  | .error fault => pure (.error fault, memory.release lease)

/-- Reserves `size` bytes and returns an array of zeros that is charged for them. -/
def allocate (memory : Memory) (id : PoolId) (size : Nat) :
    Logged (Except Failure SecureArray × Memory) := do
  let (result, charged) ← memory.reserve id size
  match result with
  | .error error => pure (.error (.error error), charged)
  | .ok lease =>
    let (array, after) ← charged.leased size lease
    pure (array.mapError Failure.fault, after)

end Memory

end StreamCrypto
