import StreamCrypto.KeyLength

/-!
# Failures

What can go wrong, by cause, and the text that reports it. An `Error` is an answer that a
caller is meant to handle. A `Fault` is a misuse that no caller is meant to cause; it ends
the operation at once.
-/

namespace StreamCrypto

/-- Why memory could not be obtained or locked. -/
inductive LockError where
  | permissionDenied
  | resourceLimitExceeded
  | system (reason : String)
  deriving DecidableEq, Repr

def LockError.message : LockError → String
  | permissionDenied => "Permission denied to lock memory"
  | resourceLimitExceeded => "Memory lock resource limit exceeded"
  | system reason => "System error: " ++ reason

inductive Error where
  | unsupportedAlgorithm (name : String)
  | backendSetup (stage reason : String)
  | invalidKeyLength (algorithm : String) (length : Nat) (expected : KeyLength)
  | invalidIvLength (expected actual : Nat)
  | notKeyed
  | alreadyKeyed
  | finished
  | incompleteBlock (pending blockSize : Nat)
  | invalidPadding
  | derivation (reason : String)
  | poolExhausted (requested available : Nat)
  | memoryLock (cause : LockError)
  deriving DecidableEq, Repr

namespace Error

/-- A cipher refuses the length of its key. -/
def keyRejected : Error := backendSetup "setkey" "Invalid Length"

/-- A mode refuses the length of its initialization vector. -/
def ivRejected : Error := backendSetup "setiv" "engine rejected the IV"

def message : Error → String
  | unsupportedAlgorithm name => "Unsupported algorithm: " ++ name
  | backendSetup stage reason => "Engine setup failed (" ++ stage ++ "): " ++ reason
  | invalidKeyLength algorithm length expected =>
    "Invalid key length for " ++ algorithm ++ ": " ++ toString length ++ " bytes (expected " ++
      expected.text ++ ")"
  | invalidIvLength expected actual =>
    "Invalid IV length: expected " ++ toString expected ++ ", got " ++ toString actual
  | notKeyed => "Cipher context has not been set up"
  | alreadyKeyed => "Cipher context is already set up"
  | finished => "Cipher context is finished; call setup again"
  | incompleteBlock pending blockSize =>
    "Input is not a multiple of the block size: " ++ toString pending ++
      " byte(s) pending, block size " ++ toString blockSize
  | invalidPadding => "Invalid padding"
  | derivation reason => "Key derivation failed: " ++ reason
  | poolExhausted requested available =>
    "Secure memory pool exhausted: requested " ++ toString requested ++ " bytes, " ++
      toString available ++ " available"
  | memoryLock cause => "Memory lock error: " ++ cause.message

end Error

inductive Fault where
  /-- A length that no address space holds. -/
  | capacityOverflow
  | indexOutOfBounds (length index : Nat)
  deriving DecidableEq, Repr

def Fault.message : Fault → String
  | capacityOverflow => "capacity overflow"
  | indexOutOfBounds length index =>
    "index out of bounds: the len is " ++ toString length ++ " but the index is " ++
      toString index

/-- How an operation can end without a value. -/
inductive Failure where
  | error (error : Error)
  | lock (error : LockError)
  | fault (fault : Fault)
  deriving DecidableEq, Repr

def Failure.message : Failure → String
  | error e => e.message
  | lock e => e.message
  | fault f => f.message

end StreamCrypto
