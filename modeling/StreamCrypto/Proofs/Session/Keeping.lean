import StreamCrypto.Proofs.Session.Accounts
import StreamCrypto.Proofs.Session.Triple

/-!
# Commands that reserve nothing

Such commands keep the accounts in order and leave the ledger as it is, whether they succeed or
are refused. The proofs follow the text of the commands. A command that moves an object has its
lease in hand until it has found a place for it.
-/

namespace StreamCrypto.Session

open Procedure

variable {α : Type} {ledger : Ledger} {R : Session → Prop}

/-- Accounts that are in order stay so, also if the procedure is refused. -/
def Keeps (ledger : Ledger) (procedure : Procedure α) : Prop :=
  Ensures (Accounts ledger []) procedure (fun _ ↦ Accounts ledger []) (Accounts ledger [])

/-- The accounts are in order, and there is a certain object in a slot. -/
def Has (ledger : Ledger) (id : String) (object : Object) (session : Session) : Prop :=
  Accounts ledger [] session ∧ session.slots.get? id = some object

theorem keeps_pure (a : α) : Keeps ledger (pure a : Procedure α) :=
  preserves_pure a

theorem keeps_bind {β : Type} {first : Procedure β} {next : β → Procedure α}
    (hfirst : Keeps ledger first) (hnext : ∀ b, Keeps ledger (next b)) :
    Keeps ledger (first >>= next) :=
  preserves_bind hfirst hnext

theorem keeps_get : Keeps ledger get :=
  preserves_get

theorem keeps_settleAs {ε : Type} (wrap : ε → Failure) (result : Except ε α) :
    Keeps ledger (settleAs wrap result) :=
  preserves_settleAs wrap result

/-- Of a result that has a lease in hand, its value keeps it. -/
theorem settle_ensures (leaseOf : α → Option Lease) (result : Except Failure α) :
    Ensures (Accounts ledger (result.toOption.bind leaseOf).toList) (settle result)
      (fun a ↦ Accounts ledger (leaseOf a).toList) (Accounts ledger []) := by
  cases result with
  | error failure => exact ensures_throw fun _ haccounts ↦ haccounts
  | ok a => exact ensures_pure fun _ haccounts ↦ haccounts

theorem settleAs_ensures {ε : Type} (leaseOf : α → Option Lease) (wrap : ε → Failure)
    (result : Except ε α) :
    Ensures (Accounts ledger (result.toOption.bind leaseOf).toList) (settleAs wrap result)
      (fun a ↦ Accounts ledger (leaseOf a).toList) (Accounts ledger []) := by
  cases result with
  | error error => exact ensures_throw fun _ haccounts ↦ haccounts
  | ok a => exact ensures_pure fun _ haccounts ↦ haccounts

/-! ## Slots -/

theorem keeps_find (select : Object → Option α) (id : String) : Keeps ledger (find select id) :=
  preserves_find select id

theorem find_has {select : Object → Option α} {wrap : α → Object}
    (hselect : ∀ object a, select object = some a → object = wrap a) (id : String) :
    Ensures (Accounts ledger []) (find select id) (fun a ↦ Has ledger id (wrap a))
      (Accounts ledger []) := by
  refine ensures_find ?_ fun _ haccounts _ ↦ haccounts
  intro session object a haccounts hobject hchosen
  exact ⟨haccounts, by rw [hobject, hselect object a hchosen]⟩

theorem take_ensures {select : Object → Option α} {wrap : α → Object}
    (hselect : ∀ object a, select object = some a → object = wrap a) (id : String) :
    Ensures (Accounts ledger []) (take select id)
      (fun a ↦ Accounts ledger (wrap a).lease?.toList) (Accounts ledger []) := by
  refine ensures_take ?_ fun _ haccounts _ ↦ haccounts
  intro session object a haccounts hobject hchosen
  have herased := haccounts.erase id
  rw [hobject, hselect object a hchosen, List.append_nil] at herased
  exact herased

theorem asKey_eq_some (object : Object) (key : SymmetricKey) (hkey : asKey object = some key) :
    object = .key key := by
  cases object with
  | key key => cases hkey; rfl
  | _ => cases hkey

theorem asArray_eq_some (object : Object) (array : SecureArray)
    (harray : asArray object = some array) : object = .array array := by
  cases object with
  | array array => cases harray; rfl
  | _ => cases harray

theorem asLease_eq_some (object : Object) (lease : Lease) (hlease : asLease object = some lease) :
    object = .lease lease := by
  cases object with
  | lease lease => cases hlease; rfl
  | _ => cases hlease

theorem findHash_has (id : String) :
    Ensures (Accounts ledger []) (findHash id) (fun context ↦ Has ledger id (.hash context))
      (Accounts ledger []) := by
  refine find_has ?_ id
  intro object context hselect
  cases object with
  | hash context => cases hselect; rfl
  | _ => cases hselect

theorem findCipher_has (id : String) :
    Ensures (Accounts ledger []) (findCipher id)
      (fun context ↦ Has ledger id (.cipher context)) (Accounts ledger []) := by
  refine find_has ?_ id
  intro object found hselect
  cases object with
  | cipher context => cases hselect; rfl
  | _ => cases hselect

/-- An object that finds a place is no longer in hand. -/
theorem keep_ensures (object : Object) (hpool : ∀ pool, object ≠ .pool pool) (id : String) :
    Ensures (Accounts ledger object.lease?.toList) (keep id object)
      (fun _ ↦ Accounts ledger []) R := by
  apply ensures_modify
  intro session haccounts
  rw [← List.append_nil object.lease?.toList] at haccounts
  exact haccounts.put (fun pool h ↦ absurd h (hpool pool)) id

theorem keeps_keep {object : Object} (hplain : object.Plain) (id : String) :
    Keeps ledger (keep id object) := by
  apply ensures_weaken (keep_ensures object hplain.pool id)
  intro session haccounts
  rw [hplain.lease]
  exact haccounts

theorem replace_ensures {id : String} (old object : Object) (hlease : old.lease? = object.lease?)
    (hpool : ∀ pool, object ≠ .pool pool) :
    Ensures (Has ledger id old) (replace id object) (fun _ ↦ Accounts ledger []) R := by
  apply ensures_modify
  rintro session ⟨haccounts, hold⟩
  refine haccounts.store ?_ fun pool h ↦ absurd h (hpool pool)
  rw [hold]
  exact hlease

/-! ## Families of commands -/

theorem runEngine_keeps (command : EngineCommand) : Keeps ledger (runEngine command) := by
  cases command with
  | state => exact keeps_bind keeps_get fun _ ↦ keeps_pure _
  | start config =>
    refine keeps_bind (ensures_onEngine ?_) fun _ ↦ keeps_pure _
    intro session haccounts
    exact haccounts.start config
  | setPageLocking enabled =>
    refine keeps_bind (ensures_modify ?_) fun _ ↦ keeps_bind keeps_get fun _ ↦ keeps_pure _
    intro session haccounts
    exact haccounts.withLocking rfl rfl
  | setRefusals refusals =>
    refine keeps_bind (ensures_modify ?_) fun _ ↦ keeps_pure _
    intro session haccounts
    exact haccounts.withLocking rfl rfl

/-- Making contexts may start the engine. -/
theorem contextFor_accounts {session : Session} (haccounts : Accounts ledger [] session)
    (provider : Provider) (feature : Feature) : Accounts ledger [] { session with
      engine := (provider.contextFor feature session.engine).value.2 } := by
  unfold Provider.contextFor
  split
  · exact haccounts
  · exact haccounts.start provider.config

theorem createContext_accounts {session : Session} (haccounts : Accounts ledger [] session)
    (provider : Provider) (name : String) : Accounts ledger [] { session with
      engine := (provider.createContext name session.engine).value.2 } := by
  unfold Provider.createContext
  split
  · exact contextFor_accounts haccounts provider _
  · exact haccounts

theorem createKind_accounts {session : Session} (haccounts : Accounts ledger [] session)
    (select : Context → Option α) (provider : Provider) (name : String) :
    Accounts ledger [] { session with
      engine := (provider.createKind select name session.engine).value.2 } := by
  have hcreated := createContext_accounts haccounts provider name
  unfold Provider.createKind
  simp only [Logged.value_bind]
  generalize (provider.createContext name session.engine).value = outcome at hcreated ⊢
  obtain ⟨context, engine⟩ := outcome
  cases hchosen : context.bind select with
  | none =>
    simp only
    exact hcreated
  | some chosen =>
    simp only
    exact hcreated

theorem createKind_keeps
    {create : Provider → String → Engine → Logged (Except Error α × Engine)} {wrap : α → Object}
    (hcreate : ∀ provider name session, Accounts ledger [] session → Accounts ledger []
      { session with engine := (create provider name session.engine).value.2 })
    (hwrap : ∀ a, (wrap a).Plain) (typeName : α → String) (provider id name : String) :
    Keeps ledger (createKind create wrap typeName provider id name) := by
  apply keeps_bind (keeps_find _ provider)
  intro owner
  refine keeps_bind (ensures_onEngine fun session haccounts ↦ hcreate owner name session haccounts)
    ?_
  intro result
  apply keeps_bind (keeps_settleAs _ result)
  intro context
  exact keeps_bind (keeps_keep (hwrap context) id) fun _ ↦ keeps_pure _

theorem runProvider_keeps (command : ProviderCommand) : Keeps ledger (runProvider command) := by
  cases command with
  | new id config =>
    exact keeps_bind (keeps_keep (Object.plain_provider ⟨config⟩) id) fun _ ↦ keeps_pure _
  | start id =>
    apply keeps_bind (keeps_find _ id)
    intro provider
    refine keeps_bind (ensures_onEngine ?_) fun _ ↦ keeps_pure _
    intro session haccounts
    exact haccounts.start provider.config
  | features id => exact keeps_bind (keeps_find _ id) fun _ ↦ keeps_pure _
  | create provider id name =>
    apply keeps_bind (keeps_find _ provider)
    intro owner
    apply keeps_bind (ensures_onEngine fun _ h ↦ createContext_accounts h owner name)
    intro created
    cases created with
    | none => exact keeps_pure _
    | some context =>
      exact keeps_bind (keeps_keep (Object.plain_ofContext context) id) fun _ ↦ keeps_pure _
  | createHash provider id name =>
    exact createKind_keeps (fun owner name _ h ↦ createKind_accounts h _ owner name)
      Object.plain_hash _ provider id name
  | createCipher provider id name =>
    exact createKind_keeps (fun owner name _ h ↦ createKind_accounts h _ owner name)
      Object.plain_cipher _ provider id name
  | createKdf provider id name =>
    exact createKind_keeps (fun owner name _ h ↦ createKind_accounts h _ owner name)
      (fun context ↦ Object.plain_kdf context .outsidePool) _ provider id name

theorem runHash_keeps (command : HashCommand) : Keeps ledger (runHash command) := by
  cases command with
  | new id feature algorithm =>
    exact keeps_bind (keeps_keep (Object.plain_hash _) id) fun _ ↦ keeps_pure _
  | update id data =>
    exact ensures_bind (findHash_has id) fun _ ↦
      ensures_bind (replace_ensures _ _ rfl nofun) fun _ ↦ keeps_pure _
  | finalize id =>
    exact ensures_bind (findHash_has id) fun _ ↦ ensures_making_bind fun _ ↦
      ensures_bind (replace_ensures _ _ rfl nofun) fun _ ↦ keeps_pure _
  | clear id =>
    exact ensures_bind (findHash_has id) fun _ ↦
      ensures_bind (replace_ensures _ _ rfl nofun) fun _ ↦ keeps_pure _
  | clone id target =>
    exact keeps_bind (keeps_find _ id) fun _ ↦
      keeps_bind (keeps_keep (Object.plain_hash _) target) fun _ ↦ keeps_pure _
  | info id => exact keeps_bind (keeps_find _ id) fun _ ↦ keeps_pure _

/-- Reading a key changes nothing. -/
theorem readKey_ensures {P : Session → Prop} (hR : ∀ session, P session → R session)
    (key : KeySource) : Ensures P (readKey key) (fun _ ↦ P) R := by
  cases key with
  | bytes bytes => exact ensures_pure fun _ hP ↦ hP
  | slot id =>
    refine ensures_bind (M := fun _ ↦ P) ?_ fun _ ↦ ensures_pure fun _ hP ↦ hP
    exact ensures_find (fun _ _ _ hP _ _ ↦ hP) fun session hP _ ↦ hR session hP

theorem finishCipher_ensures {id : String} {old : CipherContext}
    (outcome : Except Error α × CipherContext) :
    Ensures (Has ledger id (.cipher old)) (finishCipher id outcome)
      (fun _ ↦ Accounts ledger []) (Accounts ledger []) :=
  ensures_bind (replace_ensures _ _ rfl nofun) fun _ ↦ keeps_settleAs _ outcome.1

theorem runCipher_keeps (command : CipherCommand) : Keeps ledger (runCipher command) := by
  cases command with
  | new id feature algorithm mode padding policy =>
    exact keeps_bind (keeps_keep (Object.plain_cipher _) id) fun _ ↦ keeps_pure _
  | setup id direction key iv =>
    apply ensures_bind (findCipher_has id)
    intro context
    apply ensures_bind (readKey_ensures (fun _ hhas ↦ hhas.1) key)
    intro bytes
    refine ensures_making_bind fun _ ↦ ensures_making_bind fun _ ↦ ?_
    exact ensures_bind (finishCipher_ensures _) fun _ ↦ keeps_pure _
  | update id data =>
    apply ensures_bind (findCipher_has id)
    intro context
    refine ensures_making_bind fun _ ↦ ?_
    exact ensures_bind (finishCipher_ensures _) fun _ ↦ keeps_pure _
  | finalize id =>
    apply ensures_bind (findCipher_has id)
    intro context
    refine ensures_making_bind fun _ ↦ ?_
    exact ensures_bind (finishCipher_ensures _) fun _ ↦ keeps_pure _
  | info id => exact keeps_bind (keeps_find _ id) fun _ ↦ keeps_pure _

/-! ## Keys and arrays -/

theorem keepArray_ensures (id : String) (array : SecureArray) :
    Ensures (Accounts ledger array.lease.toList) (keepArray id array)
      (fun _ ↦ Accounts ledger []) (Accounts ledger []) :=
  ensures_bind (keep_ensures (.array array) nofun id) fun _ ↦ keeps_pure _

theorem keepArray_keeps (id : String) {array : SecureArray} (hlease : array.lease = none) :
    Keeps ledger (keepArray id array) := by
  apply ensures_weaken (keepArray_ensures id array)
  intro session haccounts
  rw [hlease]
  exact haccounts

theorem runKey_keeps (command : KeyCommand) : Keeps ledger (runKey command) := by
  cases command with
  | ofBytes id data =>
    exact ensures_making_bind fun _ ↦
      keeps_bind (keeps_keep (Object.plain_key rfl) id) fun _ ↦ keeps_pure _
  | info id => exact keeps_bind (keeps_find _ id) fun _ ↦ keeps_pure _
  | clone id target =>
    exact keeps_bind (keeps_find _ id) fun _ ↦ ensures_making_bind fun _ ↦
      keeps_bind (keeps_keep (Object.plain_key rfl) target) fun _ ↦ keeps_pure _
  | equal left right =>
    exact keeps_bind (keeps_find _ left) fun _ ↦
      keeps_bind (keeps_find _ right) fun _ ↦ keeps_pure _
  | unwrap id target =>
    apply ensures_bind (take_ensures asKey_eq_some id)
    intro key
    exact keepArray_ensures target key.material
  | wrap id target =>
    apply ensures_bind (take_ensures asArray_eq_some id)
    intro array
    exact ensures_bind (keep_ensures (.key ⟨array⟩) nofun target) fun _ ↦ keeps_pure _

/-- The next state of an array is charged as the array was. -/
theorem changeArray_keeps (id : String) {change : SecureArray → Except Fault SecureArray}
    (hchange : ∀ array changed, change array = .ok changed → changed.lease = array.lease) :
    Keeps ledger (changeArray id change) := by
  apply ensures_bind (find_has asArray_eq_some id)
  intro array
  refine ensures_bind
    (M := fun changed session ↦ Has ledger id (.array array) session ∧
      changed.lease = array.lease) ?_ ?_
  · refine ensures_settleAs ?_ fun _ _ hhas _ ↦ hhas.1
    intro session changed hhas hchanged
    exact ⟨hhas, hchange array changed hchanged⟩
  · intro changed
    refine ensures_bind (M := fun _ ↦ Accounts ledger []) ?_ fun _ ↦ keeps_pure _
    rintro session ⟨hhas, hlease⟩
    exact replace_ensures (R := Accounts ledger []) (.array array) (.array changed) hlease.symm
      nofun session hhas

theorem lease_of_set {array changed : SecureArray} {index : Nat} {value : UInt8}
    (hchanged : array.set index value = .ok changed) : changed.lease = array.lease := by
  unfold SecureArray.set at hchanged
  split at hchanged
  · cases hchanged
    rfl
  · cases hchanged

/-- An array that is charged to no pool. -/
theorem keepFresh_keeps {ε : Type} (id : String) (wrap : ε → Failure)
    {result : Except ε SecureArray} (hlease : ∀ array, result = .ok array → array.lease = none) :
    Keeps ledger (do keepArray id (← settleAs wrap result)) := by
  have hnone : result.toOption.bind SecureArray.lease = none := by
    cases result with
    | error error => rfl
    | ok array => exact hlease array rfl
  refine ensures_bind ?_ (keepArray_ensures id)
  apply ensures_weaken (settleAs_ensures SecureArray.lease wrap result)
  intro session haccounts
  rw [hnone]
  exact haccounts

/-- A lease that has been moved into a command ends up in an array, or is released. -/
theorem leased_ensures (lease : Lease) (length : Nat) :
    Ensures (Accounts ledger [lease]) (onMemory fun memory ↦ memory.leased length lease)
      (fun result ↦ Accounts ledger (result.toOption.bind SecureArray.lease).toList)
      (Accounts ledger []) := by
  apply ensures_onMemory
  intro session haccounts
  rcases Nat.lt_or_ge length SecureArray.lengthLimit with hshort | hlong
  · rw [Memory.leased_of_short hshort]
    exact haccounts
  · have hreleased : Accounts ledger ((some lease).toList ++ []) session := haccounts
    rw [Memory.leased_of_long hlong]
    exact hreleased.release

theorem runArray_keeps (command : ArrayCommand) : Keeps ledger (runArray command) := by
  cases command with
  | ofBytes id data => exact ensures_making_bind fun _ ↦ keepArray_keeps id rfl
  | zeroed id length =>
    refine ensures_making_bind fun _ ↦ keepFresh_keeps id _ fun _ harray ↦ ?_
    exact SecureArray.lease_of_zeroedWith harray
  | tryZeroed id length =>
    refine ensures_making_bind fun _ ↦ keepFresh_keeps id _ fun _ harray ↦ ?_
    exact SecureArray.lease_of_tryZeroed harray
  | empty id => exact keepArray_keeps id rfl
  | leased id length lease =>
    apply ensures_bind (take_ensures asLease_eq_some lease)
    intro moved
    apply ensures_bind (leased_ensures moved length)
    intro result
    exact ensures_bind (settleAs_ensures SecureArray.lease _ result) (keepArray_ensures id)
  | set id index value => exact changeArray_keeps id fun _ _ hchanged ↦ lease_of_set hchanged
  | truncate id length =>
    apply changeArray_keeps id
    intro array changed hchanged
    cases hchanged
    rfl
  | clone id target =>
    exact keeps_bind (keeps_find _ id) fun _ ↦ ensures_making_bind fun _ ↦
      keepArray_keeps target rfl
  | info id => exact keeps_bind (keeps_find _ id) fun _ ↦ keeps_pure _
  | equal left right =>
    exact keeps_bind (keeps_find _ left) fun _ ↦
      keeps_bind (keeps_find _ right) fun _ ↦ keeps_pure _

/-! ## Pools -/

theorem value_findPool_of_some {session : Session} {source : PoolSource} {id : PoolId}
    (hpool : session.poolOf? source = some id) :
    ((findPool source).run.run session).value = (.ok id, session) := by
  cases source with
  | engine =>
    have hengine : session.engine.securePool = some id := hpool
    unfold findPool
    rw [value_bind_of_ok (value_get session), hengine]
    rfl
  | slot name => exact value_find_of_some Object.pool? hpool

theorem value_findPool_of_none {session : Session} {source : PoolSource}
    (hpool : session.poolOf? source = none) :
    ∃ refused, ((findPool source).run.run session).value = (.error refused, session) := by
  cases source with
  | engine =>
    have hengine : session.engine.securePool = none := hpool
    refine ⟨.noObject "engine", ?_⟩
    unfold findPool
    rw [value_bind_of_ok (value_get session), hengine]
    rfl
  | slot name => exact ⟨_, value_find_of_none Object.pool? hpool⟩

theorem ensures_findPool {P : Session → Prop} {Q : PoolId → Session → Prop} {source : PoolSource}
    (hfound : ∀ session id, P session → session.poolOf? source = some id → Q id session)
    (hmissing : ∀ session, P session → session.poolOf? source = none → R session) :
    Ensures P (findPool source) Q R := by
  intro session hP
  cases hpool : session.poolOf? source with
  | none =>
    obtain ⟨refused, hvalue⟩ := value_findPool_of_none hpool
    rw [hvalue]
    exact hmissing session hP hpool
  | some id =>
    rw [value_findPool_of_some hpool]
    exact hfound session id hP hpool

/-- A pool that exists may be named. -/
theorem keepPool_ensures (pool : PoolId) (id : String) :
    Ensures (fun session ↦ Accounts ledger [] session ∧
        pool < session.engine.memory.pools.length) (keep id (.pool pool))
      (fun _ ↦ Accounts ledger []) R := by
  apply ensures_modify
  rintro session ⟨haccounts, hpool⟩
  refine haccounts.put ?_ id
  intro other hother
  cases hother
  exact hpool

theorem newPool_keeps (id : String) (capacity : Nat) :
    Keeps ledger (runPool (.new id capacity)) := by
  refine ensures_bind (M := fun pool session ↦ Accounts ledger [] session ∧
    pool < session.engine.memory.pools.length) ?_ ?_
  · apply ensures_onMemory
    intro session haccounts
    refine ⟨haccounts.newPool capacity, ?_⟩
    simp [Memory.newPool]
  · intro pool
    exact ensures_bind (keepPool_ensures pool id) fun _ ↦ keeps_bind keeps_get fun _ ↦ keeps_pure _

theorem clonePool_keeps (source : PoolSource) (target : String) :
    Keeps ledger (runPool (.clone source target)) := by
  refine ensures_bind (M := fun pool session ↦ Accounts ledger [] session ∧
    pool < session.engine.memory.pools.length) ?_ ?_
  · refine ensures_findPool ?_ fun _ haccounts _ ↦ haccounts
    intro session id haccounts hpool
    exact ⟨haccounts, haccounts.lt_of_poolOf? hpool⟩
  · intro pool
    exact ensures_bind (keepPool_ensures pool target) fun _ ↦ keeps_pure _

theorem drop_keeps (id : String) : Keeps ledger (action (.drop id)) :=
  keeps_bind (ensures_modify fun _ haccounts ↦ haccounts.drop id) fun _ ↦ keeps_pure _

end StreamCrypto.Session
