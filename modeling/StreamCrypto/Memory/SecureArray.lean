import StreamCrypto.Bytes.Basic
import StreamCrypto.Memory.Locking

/-!
# Secure arrays and keys

An array of bytes for sensitive data. Its pages are locked when it is made, if the system
grants that. It may hold a lease, which charges it to a pool; an array with a lease is called
pooled. A copy has no lease. A key is an array that is not shown.
-/

namespace StreamCrypto

/-- Which of the pools in memory. -/
abbrev PoolId := Nat

/-- A charge against a pool that is taken back when its holder is dropped. -/
structure Lease where
  pool : PoolId
  size : Nat
  deriving DecidableEq, Repr

structure SecureArray where
  bytes : Bytes
  lease : Option Lease := none
  /-- Whether its pages were locked when it was made. -/
  locked : Bool := false
  deriving DecidableEq, Repr

namespace SecureArray

/-- The first length that no array can have. -/
def lengthLimit : Nat := 1 <<< 63

/-- The first length that no memory can hold. -/
def memoryLimit : Nat := 1 <<< 47

def empty : SecureArray := { bytes := [] }

/-- Asks for the pages of a new array to be locked. -/
def lock (array : SecureArray) (locking : Locking) : Logged SecureArray := do
  let locked ← locking.lock array.bytes.length
  pure { array with locked }

def ofBytes (locking : Locking) (bytes : Bytes) : Logged SecureArray :=
  lock { bytes } locking

/-- An array of zeros that holds a lease, if one is given. -/
def zeroedWith (locking : Locking) (lease : Option Lease) (length : Nat) :
    Logged (Except Fault SecureArray) :=
  if lengthLimit ≤ length then
    pure (.error .capacityOverflow)
  else do
    pure (.ok (← lock { bytes := List.replicate length 0, lease } locking))

def zeroed (locking : Locking) (length : Nat) : Logged (Except Fault SecureArray) :=
  zeroedWith locking none length

/-- Why there is no memory for an array. -/
def shortage? (length : Nat) : Option LockError :=
  if lengthLimit ≤ length then
    some (.system
      "memory allocation failed because the computed capacity exceeded the collection's maximum")
  else if memoryLimit ≤ length then
    some (.system "memory allocation failed because the memory allocator returned an error")
  else none

/-- An array of zeros, or why there is no memory for it. -/
def tryZeroed (locking : Locking) (length : Nat) : Logged (Except LockError SecureArray) :=
  match shortage? length with
  | some cause => pure (.error cause)
  | none => do
    pure (.ok (← ofBytes locking (List.replicate length 0)))

def isPooled (array : SecureArray) : Bool := array.lease.isSome

def copy (array : SecureArray) (locking : Locking) : Logged SecureArray :=
  ofBytes locking array.bytes

/-- The first `length` bytes. Lease and lock stay as they are. -/
def truncate (array : SecureArray) (length : Nat) : SecureArray :=
  { array with bytes := array.bytes.take length }

def set (array : SecureArray) (index : Nat) (value : UInt8) : Except Fault SecureArray :=
  if index < array.bytes.length then
    .ok { array with bytes := array.bytes.set index value }
  else .error (.indexOutOfBounds array.bytes.length index)

/-- The description tells the length and the lock only. -/
def description (array : SecureArray) : String :=
  "SecureArray \x7b len: " ++ toString array.bytes.length ++ ", locked: " ++
    toString array.locked ++ " \x7d"

end SecureArray

structure SymmetricKey where
  material : SecureArray
  deriving DecidableEq, Repr

namespace SymmetricKey

def ofBytes (locking : Locking) (bytes : Bytes) : Logged SymmetricKey := do
  pure ⟨← SecureArray.ofBytes locking bytes⟩

def empty : SymmetricKey := ⟨SecureArray.empty⟩

def copy (key : SymmetricKey) (locking : Locking) : Logged SymmetricKey :=
  ofBytes locking key.material.bytes

/-- The description tells the length only. -/
def description (key : Bytes) : String := "SymmetricKey(" ++ toString key.length ++ " bytes)"

end SymmetricKey

/-- The description of an initialization vector tells the length only. -/
def ivDescription (iv : Bytes) : String :=
  "InitializationVector(" ++ toString iv.length ++ " bytes)"

end StreamCrypto
