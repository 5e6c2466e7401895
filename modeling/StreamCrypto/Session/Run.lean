import StreamCrypto.Cipher.Arrays
import StreamCrypto.Session.Command

/-!
# Running a session

Each command is carried out on the session it is given to; the objects it makes go into
slots once they are made, and only then the objects that they replace are dropped. What a
command has changed before it is refused stays changed. Of the answers to requests for locks those
for the arrays that a call makes come first, and those for the arrays that it is given come after
them.
-/

namespace StreamCrypto.Session

/-- A computation on a session that may be refused and may log. -/
abbrev Procedure := ExceptT Refused (StateT Session Logged)

namespace Procedure

def log {α : Type} (logged : Logged α) : Procedure α :=
  ExceptT.lift (StateT.lift logged)

def fail {α : Type} (failure : Failure) : Procedure α := throw (.failure failure)

/-- The value of a result, or its failure. -/
def settle {α : Type} : Except Failure α → Procedure α
  | .ok value => pure value
  | .error failure => fail failure

/-- The value of a result, or its error as a failure. -/
def settleAs {ε α : Type} (wrap : ε → Failure) (result : Except ε α) : Procedure α :=
  settle (result.mapError wrap)

/-- Runs a computation on the engine. -/
def onEngine {α : Type} (run : Engine → Logged (α × Engine)) : Procedure α := do
  let session ← get
  let (value, engine) ← log (run session.engine)
  set { session with engine }
  pure value

def onMemory {α : Type} (run : Memory → Logged (α × Memory)) : Procedure α :=
  onEngine fun engine ↦ do
    let (value, memory) ← run engine.memory
    pure (value, { engine with memory })

/-! ## Slots -/

/-- The object in a slot, as what `select` takes it for. -/
def find {α : Type} (select : Object → Option α) (id : String) : Procedure α := do
  let session ← get
  match (session.slots.get? id).bind select with
  | some chosen => pure chosen
  | none => throw (.noObject id)

def keep (id : String) (object : Object) : Procedure Unit :=
  modify fun session ↦ session.put id object

def replace (id : String) (object : Object) : Procedure Unit :=
  modify fun session ↦ session.store id object

/-- Moves an object out of its slot. -/
def take {α : Type} (select : Object → Option α) (id : String) : Procedure α := do
  let chosen ← find select id
  modify fun session ↦ { session with slots := session.slots.erase id }
  pure chosen

def findProvider : String → Procedure Provider :=
  find fun
    | .provider provider => some provider
    | _ => none

def findHash : String → Procedure DigestContext :=
  find fun
    | .hash context => some context
    | _ => none

def findCipher : String → Procedure CipherContext :=
  find fun
    | .cipher context => some context
    | _ => none

def findKdf : String → Procedure (KdfContext × KdfFallback) :=
  find fun
    | .kdf context fallback => some (context, fallback)
    | _ => none

def asKey : Object → Option SymmetricKey
  | .key key => some key
  | _ => none

def asArray : Object → Option SecureArray
  | .array array => some array
  | _ => none

def asLease : Object → Option Lease
  | .lease lease => some lease
  | _ => none

def findPool : PoolSource → Procedure PoolId
  | .slot id => find (fun | .pool pool => some pool | _ => none) id
  | .engine => do
    match (← get).engine.securePool with
    | some pool => pure pool
    | none => throw (.noObject "engine")

/-- Makes arrays with the page locking that is in force. -/
def making {α : Type} (make : Locking → Logged α) : Procedure α := do
  log (make (← get).engine.memory.toLocking)

/-- Puts an array in a slot and shows it. -/
def keepArray (id : String) (array : SecureArray) : Procedure Reply := do
  keep id (.array array)
  pure (.array array)

end Procedure

open Procedure

/-! ## Commands -/

def runEngine : EngineCommand → Procedure Reply
  | .state => do
    let session ← get
    let report := session.engine.securePool.map fun id ↦ (session.engine.memory.pool id).report
    pure (.engine session.engine.initialized session.engine.memory.pageLocking report)
  | .start config => do pure (.flag (← onEngine fun engine ↦ engine.start config))
  | .setPageLocking enabled => do
    modify fun session ↦ { session with engine := session.engine.setPageLocking enabled }
    pure (.flag (← get).engine.memory.pageLocking)
  | .setRefusals refusals => do
    modify fun session ↦ { session with engine := session.engine.setRefusals refusals }
    pure .done

/-- Makes a context of one kind with a provider. -/
def createKind {α : Type} (create : Provider → String → Engine → Logged (Except Error α × Engine))
    (wrap : α → Object) (typeName : α → String) (provider id name : String) : Procedure Reply := do
  let owner ← findProvider provider
  let context ← settleAs Failure.error (← onEngine (create owner name))
  keep id (wrap context)
  pure (.text (typeName context))

def runProvider : ProviderCommand → Procedure Reply
  | .new id config => do
    keep id (.provider ⟨config⟩)
    pure (.provider providerName config)
  | .start id => do
    let provider ← findProvider id
    onEngine fun engine ↦ do
      let after ← provider.startEngine engine
      pure ((), after)
    pure .done
  | .features id => do
    let _ ← findProvider id
    pure (.names Feature.names)
  | .create provider id name => do
    let owner ← findProvider provider
    match ← onEngine (owner.createContext name) with
    | none => pure .done
    | some context =>
      keep id (.ofContext context)
      pure (.context context.category context.feature.name context.description)
  | .createHash provider id name =>
    createKind Provider.createHash .hash (fun context ↦ context.feature.name) provider id name
  | .createCipher provider id name =>
    createKind Provider.createCipher .cipher (fun context ↦ context.feature.name)
      provider id name
  | .createKdf provider id name =>
    createKind Provider.createKdf (.kdf · .outsidePool) (fun context ↦ context.feature.name)
      provider id name

def runHash : HashCommand → Procedure Reply
  | .new id feature algorithm => do
    keep id (.hash (.new feature algorithm))
    pure (.hash feature.name (some algorithm) algorithm.digestLength)
  | .update id data => do
    replace id (.hash ((← findHash id).update data))
    pure .done
  | .finalize id => do
    let context ← findHash id
    let (digest, after) ← making context.finalizeWith
    replace id (.hash after)
    pure (.bytes digest.bytes)
  | .clear id => do
    replace id (.hash (← findHash id).clear)
    pure .done
  | .clone id target => do
    keep target (.hash (← findHash id))
    pure .done
  | .info id => do
    let context ← findHash id
    pure (.hash context.feature.name none context.algorithm.digestLength)

def readKey : KeySource → Procedure Bytes
  | .bytes bytes => pure bytes
  | .slot id => do pure (← find asKey id).material.bytes

/-- Stores the next state of a cipher context, and returns its result. -/
def finishCipher {α : Type} (id : String) (outcome : Except Error α × CipherContext) :
    Procedure α := do
  replace id (.cipher outcome.2)
  settleAs Failure.error outcome.1

def runCipher : CipherCommand → Procedure Reply
  | .new id feature algorithm mode padding policy => do
    let context := CipherContext.new feature algorithm mode padding
    keep id (.cipher (context.withPolicy (policy.getD context.policy)))
    pure .done
  | .setup id direction key iv => do
    let context ← findCipher id
    let bytes ← readKey key
    making fun locking ↦ (locking.skip 3).lockEach [bytes.length, iv.length]
    finishCipher id (← making fun locking ↦ context.setupWith locking direction bytes iv)
    pure .done
  | .update id data => do
    let context ← findCipher id
    let out ← finishCipher id (← making fun locking ↦ context.updateWith locking data)
    pure (.bytes out.bytes)
  | .finalize id => do
    let context ← findCipher id
    let out ← finishCipher id (← making context.finalizeWith)
    pure (.bytes out.bytes)
  | .info id => do
    let context ← findCipher id
    pure (.cipher context.feature.name context.blockSize context.algorithm.keyLength
      context.details)

/-- Keeps a derived key in a slot, or drops it. -/
def keepKey (target : Option String) (key : SymmetricKey) : Procedure Reply := do
  match target with
  | some id => keep id (.key key)
  | none => modify fun session ↦ session.discard (some (.key key))
  pure (.derived key.material.bytes key.material.isPooled)

def runKdf : KdfCommand → Procedure Reply
  | .new id feature hash fallback => do
    keep id (.kdf (.new feature hash) fallback)
    pure (.kdf feature.name hash)
  | .info id => do pure (.text (← findKdf id).1.feature.name)
  | .makeKey id request target => do
    let (context, fallback) ← findKdf id
    let make := match fallback with
      | .outsidePool => context.makeKey
      | .emptyKey => context.makeKeyOrEmpty
    making fun locking ↦ (locking.skip 1).lockEach [request.salt.length]
    keepKey target (← settle (← onEngine (make request)))
  | .tryMakeKey id request target => do
    let (context, _) ← findKdf id
    making fun locking ↦ (locking.skip 1).lockEach [request.salt.length]
    keepKey target (← settle (← onEngine (context.tryMakeKey request)))

def runKey : KeyCommand → Procedure Reply
  | .ofBytes id data => do
    keep id (.key (← making fun locking ↦ SymmetricKey.ofBytes locking data))
    pure (.text (SymmetricKey.description data))
  | .info id => do pure (.key (← find asKey id).material.bytes)
  | .clone id target => do
    let copy ← making (← find asKey id).copy
    keep target (.key copy)
    pure (.pooled copy.material.isPooled)
  | .equal left right => do
    let first ← find asKey left
    let second ← find asKey right
    pure (.flag (first.material.bytes == second.material.bytes))
  | .unwrap id target => do keepArray target (← take asKey id).material
  | .wrap id target => do
    let array ← take asArray id
    keep target (.key ⟨array⟩)
    pure (.text (SymmetricKey.description array.bytes))

/-- Stores the next state of an array and shows it. -/
def changeArray (id : String) (change : SecureArray → Except Fault SecureArray) :
    Procedure Reply := do
  let changed ← settleAs Failure.fault (change (← find asArray id))
  replace id (.array changed)
  pure (.array changed)

def runArray : ArrayCommand → Procedure Reply
  | .ofBytes id data => do
    keepArray id (← making fun locking ↦ SecureArray.ofBytes locking data)
  | .zeroed id length => do
    let result ← making fun locking ↦ SecureArray.zeroed locking length
    keepArray id (← settleAs Failure.fault result)
  | .tryZeroed id length => do
    let result ← making fun locking ↦ SecureArray.tryZeroed locking length
    keepArray id (← settleAs Failure.lock result)
  | .empty id => keepArray id .empty
  | .leased id length lease => do
    let moved ← take asLease lease
    let result ← onMemory fun memory ↦ memory.leased length moved
    keepArray id (← settleAs Failure.fault result)
  | .set id index value => changeArray id fun array ↦ array.set index value
  | .truncate id length => changeArray id fun array ↦ .ok (array.truncate length)
  | .clone id target => do keepArray target (← making (← find asArray id).copy)
  | .info id => do pure (.array (← find asArray id))
  | .equal left right => do
    let first ← find asArray left
    let second ← find asArray right
    pure (.flag (first.bytes == second.bytes))

def runPool : PoolCommand → Procedure Reply
  | .new id capacity => do
    let pool ← onMemory fun memory ↦ pure (memory.newPool capacity)
    keep id (.pool pool)
    pure (.pool ((← get).engine.memory.pool pool).report)
  | .clone source target => do
    keep target (.pool (← findPool source))
    pure .done
  | .reserve source target size => do
    let pool ← findPool source
    let lease ← settleAs Failure.error (← onMemory fun memory ↦ memory.reserve pool size)
    keep target (.lease lease)
    pure (.lease lease.size)
  | .allocate source target size => do
    let pool ← findPool source
    keepArray target (← settle (← onMemory fun memory ↦ memory.allocate pool size))
  | .info _ => pure .done

def action : Command → Procedure Reply
  | .engine command => runEngine command
  | .provider command => runProvider command
  | .hash command => runHash command
  | .cipher command => runCipher command
  | .kdf command => runKdf command
  | .key command => runKey command
  | .array command => runArray command
  | .pool command => runPool command
  | .drop id => do
    modify fun session ↦ session.drop id
    pure .done

/-- Carries out a command. -/
def run (session : Session) (command : Command) :
    Logged (Except Refused Reply × Session) :=
  (action command).run.run session

/-! ## Status -/

/-- The pool that a name stands for. -/
def poolReport? (session : Session) (name : String) : Option PoolReport :=
  match PoolSource.ofName name with
  | .engine => session.engine.securePool.map fun id ↦ (session.engine.memory.pool id).report
  | .slot id =>
    match session.slots.get? id with
    | some (.pool pool) => some (session.engine.memory.pool pool).report
    | _ => none

/-- What is shown after a command about the object `id` and the pool `pool`. -/
def status? (session : Session) (id pool : Option String) : Option Status :=
  match id.bind session.slots.get? with
  | some (.cipher context) =>
    some (.cipher context.isActive context.direction? context.weakKey)
  | _ => (pool.bind session.poolReport?).map Status.pool

end StreamCrypto.Session
