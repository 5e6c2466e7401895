import StreamCrypto.Session.Object

/-!
# Commands and replies

What can be asked of a session, what it answers, and what it shows of its state.
-/

namespace StreamCrypto

inductive EngineCommand where
  | state
  | start (config : Config)
  | setPageLocking (enabled : Bool)
  /-- From now on the operating system answers the requests of a command for locks like this. -/
  | setRefusals (refusals : List (Option LockError))

inductive ProviderCommand where
  | new (id : String) (config : Config)
  | start (id : String)
  | features (id : String)
  | create (provider id name : String)
  | createHash (provider id name : String)
  | createCipher (provider id name : String)
  | createKdf (provider id name : String)

inductive HashCommand where
  | new (id : String) (feature : Feature) (algorithm : HashAlgorithm)
  | update (id : String) (data : Bytes)
  | finalize (id : String)
  | clear (id : String)
  | clone (id target : String)
  | info (id : String)

/-- A key that is written out, or a copy of one in a slot. -/
inductive KeySource where
  | bytes (bytes : Bytes)
  | slot (id : String)

inductive CipherCommand where
  | new (id : String) (feature : Feature) (algorithm : CipherAlgorithm) (mode : Mode)
      (padding : Bool) (policy : Option FailurePolicy)
  | setup (id : String) (direction : Direction) (key : KeySource) (iv : Bytes)
  | update (id : String) (data : Bytes)
  | finalize (id : String)
  | info (id : String)

inductive KdfCommand where
  | new (id : String) (feature : Feature) (hash : HashAlgorithm) (fallback : KdfFallback)
  | info (id : String)
  /-- Without a target the key is dropped at once. -/
  | makeKey (id : String) (request : KeyRequest) (target : Option String)
  | tryMakeKey (id : String) (request : KeyRequest) (target : Option String)

inductive KeyCommand where
  | ofBytes (id : String) (data : Bytes)
  | info (id : String)
  | clone (id target : String)
  | equal (left right : String)
  /-- Moves the array out of a key. -/
  | unwrap (id target : String)
  /-- Moves an array into a key. -/
  | wrap (id target : String)

inductive ArrayCommand where
  | ofBytes (id : String) (data : Bytes)
  | zeroed (id : String) (length : Nat)
  | tryZeroed (id : String) (length : Nat)
  | empty (id : String)
  /-- Moves a lease into an array. -/
  | leased (id : String) (length : Nat) (lease : String)
  | set (id : String) (index : Nat) (value : UInt8)
  | truncate (id : String) (length : Nat)
  | clone (id target : String)
  | info (id : String)
  | equal (left right : String)

/-- The pool of the engine, or one in a slot. -/
inductive PoolSource where
  | engine
  | slot (id : String)

def PoolSource.ofName (name : String) : PoolSource :=
  if name = "engine" then engine else slot name

inductive PoolCommand where
  | new (id : String) (capacity : Nat)
  | clone (pool : PoolSource) (target : String)
  | reserve (pool : PoolSource) (target : String) (size : Nat)
  | allocate (pool : PoolSource) (target : String) (size : Nat)
  /-- Changes nothing, and is never refused: the status after it shows the pool if there is
  one. -/
  | info (pool : PoolSource)

inductive Command where
  | engine (command : EngineCommand)
  | provider (command : ProviderCommand)
  | hash (command : HashCommand)
  | cipher (command : CipherCommand)
  | kdf (command : KdfCommand)
  | key (command : KeyCommand)
  | array (command : ArrayCommand)
  | pool (command : PoolCommand)
  | drop (id : String)

/-! ## Replies -/

/-- What is shown of a pool. -/
structure PoolReport where
  capacity : Nat
  inUse : Nat
  available : Nat
  granted : Nat
  refused : Nat
  deriving DecidableEq, Repr

def Pool.report (pool : Pool) : PoolReport where
  capacity := pool.capacity
  inUse := pool.inUse
  available := pool.available
  granted := pool.granted
  refused := pool.refused

/-- What is shown of a cipher context beyond what every context shows. -/
structure CipherDetails where
  algorithm : CipherAlgorithm
  mode : Mode
  padding : Bool
  /-- The key and initialization vector in use. -/
  bound : Option (Bytes × Bytes)
  deriving DecidableEq, Repr

def CipherContext.details (context : CipherContext) : CipherDetails where
  algorithm := context.algorithm
  mode := context.mode
  padding := context.padding
  bound := context.stream?.map fun stream ↦ (stream.key, stream.iv)

inductive Reply where
  | done
  | flag (value : Bool)
  | text (value : String)
  | names (values : List String)
  | bytes (value : Bytes)
  | engine (initialized pageLocking : Bool) (pool : Option PoolReport)
  | provider (name : String) (config : Config)
  | context (category : Category) (typeName description : String)
  | hash (typeName : String) (algorithm : Option HashAlgorithm) (digestLength : Nat)
  | cipher (typeName : String) (blockSize : Nat) (keyLength : KeyLength)
      (details : CipherDetails)
  | kdf (typeName : String) (hash : HashAlgorithm)
  | derived (key : Bytes) (pooled : Bool)
  | key (bytes : Bytes)
  | pooled (value : Bool)
  | array (array : SecureArray)
  | lease (size : Nat)
  | pool (report : PoolReport)
  deriving DecidableEq, Repr

/-- What is shown of the object that a command was about. -/
inductive Status where
  | cipher (active : Bool) (direction : Option Direction) (weakKey : Bool)
  | pool (report : PoolReport)
  deriving DecidableEq, Repr

/-- Why a command has no reply. -/
inductive Refused where
  | failure (failure : Failure)
  /-- There is no object of the right kind in the slot. -/
  | noObject (slot : String)
  deriving DecidableEq, Repr

end StreamCrypto
