import StreamCrypto.Proofs.Kdf.Charge
import StreamCrypto.Proofs.Session.Accounts
import StreamCrypto.Proofs.Session.Triple

/-!
# What commands leave of the engine

Whatever a command does besides starting the engine or setting page locking, the engine stays
started or not as it was, keeps its pool and its page locking, and every pool keeps its capacity
(`Engine.Extends`). What a command does to the engine at first is said once, by `prepared`; what
it does after that only extends the engine (`extends_run`).
-/

namespace StreamCrypto

namespace Memory

variable {memory : Memory} {id : PoolId}

/-- A pool of the same capacity in the place of another. -/
theorem capacities_setPool {pool : Pool} (hcapacity : pool.capacity = (memory.pool id).capacity) :
    (memory.setPool id pool).pools.map Pool.capacity = memory.pools.map Pool.capacity := by
  apply List.ext_getElem?
  intro other
  simp only [setPool, List.map_set, List.getElem?_set, List.length_map, List.getElem?_map]
  by_cases hother : id = other
  · subst hother
    by_cases hid : id < memory.pools.length
    · simp [hid, hcapacity, Memory.pool, List.getD_eq_getElem?_getD]
    · simp [hid]
  · simp [hother]

theorem capacities_releaseAny (memory : Memory) (lease : Option Lease) :
    (memory.releaseAny lease).pools.map Pool.capacity = memory.pools.map Pool.capacity := by
  cases lease with
  | none => rfl
  | some lease => exact capacities_setPool rfl

theorem Settles.capacities {size : Nat} {lease : Option Lease} {after : Memory}
    (hsettles : memory.Settles id size lease after) :
    after.pools.map Pool.capacity = memory.pools.map Pool.capacity := by
  cases hsettles with
  | refused => exact capacities_setPool rfl
  | granted => exact capacities_setPool rfl
  | dropped =>
    exact (capacities_releaseAny _ (some ⟨id, size⟩)).trans (capacities_setPool rfl)

theorem Settles.pageLocking {size : Nat} {lease : Option Lease} {after : Memory}
    (hsettles : memory.Settles id size lease after) : after.pageLocking = memory.pageLocking := by
  cases hsettles with
  | refused => rfl
  | granted => rfl
  | dropped => rfl

end Memory

namespace Engine

/-- The second engine is the first one with other charges and perhaps more pools. -/
structure Extends (before after : Engine) : Prop where
  initialized : after.initialized = before.initialized
  securePool : after.securePool = before.securePool
  pageLocking : after.memory.pageLocking = before.memory.pageLocking
  capacities :
    before.memory.pools.map Pool.capacity <+: after.memory.pools.map Pool.capacity

namespace Extends

theorem refl (engine : Engine) : engine.Extends engine :=
  ⟨rfl, rfl, rfl, List.prefix_rfl⟩

theorem trans {first second third : Engine} (hfirst : first.Extends second)
    (hsecond : second.Extends third) : first.Extends third where
  initialized := hsecond.initialized.trans hfirst.initialized
  securePool := hsecond.securePool.trans hfirst.securePool
  pageLocking := hsecond.pageLocking.trans hfirst.pageLocking
  capacities := hfirst.capacities.trans hsecond.capacities

theorem withMemory {engine : Engine} {memory : Memory}
    (hlocking : memory.pageLocking = engine.memory.pageLocking)
    (hcapacities :
      memory.pools.map Pool.capacity = engine.memory.pools.map Pool.capacity) :
    engine.Extends { engine with memory } where
  initialized := rfl
  securePool := rfl
  pageLocking := hlocking
  capacities := ⟨[], by rw [List.append_nil, hcapacities]⟩

theorem release (engine : Engine) (lease : Option Lease) :
    engine.Extends (engine.release lease) :=
  withMemory (engine.memory.pageLocking_releaseAny lease)
    (engine.memory.capacities_releaseAny lease)

theorem newPool (engine : Engine) (capacity : Nat) :
    engine.Extends { engine with memory := (engine.memory.newPool capacity).2 } where
  initialized := rfl
  securePool := rfl
  pageLocking := rfl
  capacities := by
    rw [Memory.newPool, List.map_append]
    exact List.prefix_append _ _

theorem settle {engine : Engine} {id : PoolId} {size : Nat} {lease : Option Lease}
    {memory : Memory} (hsettles : engine.memory.Settles id size lease memory) :
    engine.Extends { engine with memory } :=
  withMemory hsettles.pageLocking hsettles.capacities

theorem serve {engine after : Engine} {request : Option (PoolId × Nat)} {lease : Option Lease}
    (hserves : engine.Serves request lease after) : engine.Extends after := by
  cases hserves with
  | unasked => exact .refl engine
  | asked hsettles => exact .settle hsettles

end Extends

end Engine

namespace Provider

/-- The engine is started for any context that a provider makes. -/
theorem engine_contextFor (provider : Provider) (feature : Feature) (engine : Engine) :
    (provider.contextFor feature engine).value.2 = (engine.start provider.config).value.2 := by
  unfold contextFor
  by_cases hstarted : engine.initialized = true
  · rw [Engine.start, if_pos hstarted, if_pos hstarted]
    rfl
  · rw [if_neg hstarted]
    rfl

theorem engine_createContext (provider : Provider) (name : String) (engine : Engine) :
    (provider.createContext name engine).value.2 =
      match Feature.ofName? name with
      | some _ => (engine.start provider.config).value.2
      | none => engine := by
  unfold createContext
  cases Feature.ofName? name with
  | none => rfl
  | some feature => exact provider.engine_contextFor feature engine

/-- A context of the wrong kind has started the engine all the same. -/
theorem engine_createKind {α : Type} (select : Context → Option α) (provider : Provider)
    (name : String) (engine : Engine) :
    (provider.createKind select name engine).value.2 =
      (provider.createContext name engine).value.2 := by
  unfold createKind
  rw [Logged.value_bind]
  generalize (provider.createContext name engine).value = outcome
  obtain ⟨context, after⟩ := outcome
  cases hchosen : context.bind select with
  | none => simp only [hchosen, Logged.value_pure]
  | some chosen => simp only [hchosen, Logged.value_pure]

end Provider

namespace Session

open Procedure

variable {α : Type} {base : Engine}

/-- An extension of the engine stays one, also if the procedure is refused. -/
def Steady (base : Engine) (procedure : Procedure α) : Prop :=
  Ensures (fun session ↦ base.Extends session.engine) procedure
    (fun _ session ↦ base.Extends session.engine) (fun session ↦ base.Extends session.engine)

theorem steady_pure (a : α) : Steady base (pure a : Procedure α) :=
  preserves_pure a

theorem steady_bind {β : Type} {first : Procedure β} {next : β → Procedure α}
    (hfirst : Steady base first) (hnext : ∀ b, Steady base (next b)) :
    Steady base (first >>= next) :=
  preserves_bind hfirst hnext

theorem steady_get : Steady base get :=
  preserves_get

theorem steady_settle (result : Except Failure α) : Steady base (settle result) :=
  preserves_settle result

theorem steady_settleAs {ε : Type} (wrap : ε → Failure) (result : Except ε α) :
    Steady base (settleAs wrap result) :=
  steady_settle _

theorem steady_onEngine {change : Engine → Logged (α × Engine)}
    (hchange : ∀ engine : Engine, engine.Extends (change engine).value.2) :
    Steady base (onEngine change) :=
  ensures_onEngine fun session hextends ↦ hextends.trans (hchange session.engine)

theorem steady_onMemory {change : Memory → Logged (α × Memory)}
    (hchange : ∀ engine : Engine,
      engine.Extends { engine with memory := (change engine.memory).value.2 }) :
    Steady base (onMemory change) :=
  ensures_onMemory fun session hextends ↦ hextends.trans (hchange session.engine)

theorem steady_find (select : Object → Option α) (id : String) : Steady base (find select id) :=
  preserves_find select id

theorem steady_keep (id : String) (object : Object) : Steady base (keep id object) :=
  ensures_modify fun session hextends ↦ hextends.trans
    (.release session.engine ((session.slots.get? id).bind Object.lease?))

theorem steady_replace (id : String) (object : Object) : Steady base (replace id object) :=
  ensures_modify fun _ hextends ↦ hextends

theorem steady_take (select : Object → Option α) (id : String) : Steady base (take select id) :=
  steady_bind (steady_find select id) fun a ↦
    steady_bind (ensures_modify fun _ hextends ↦ hextends) fun _ ↦ steady_pure a

theorem steady_findPool (source : PoolSource) : Steady base (findPool source) :=
  preserves_findPool source

theorem steady_making (make : Locking → Logged α) : Steady base (making make) :=
  preserves_making make

theorem steady_keepArray (id : String) (array : SecureArray) : Steady base (keepArray id array) :=
  steady_bind (steady_keep id _) fun _ ↦ steady_pure _

/-! ## Families of commands -/

theorem runHash_steady (command : HashCommand) : Steady base (runHash command) := by
  cases command with
  | new id feature algorithm => exact steady_bind (steady_keep id _) fun _ ↦ steady_pure _
  | update id data =>
    exact steady_bind (steady_find _ id) fun _ ↦
      steady_bind (steady_replace id _) fun _ ↦ steady_pure _
  | finalize id =>
    exact steady_bind (steady_find _ id) fun _ ↦ steady_bind (steady_making _) fun _ ↦
      steady_bind (steady_replace id _) fun _ ↦ steady_pure _
  | clear id =>
    exact steady_bind (steady_find _ id) fun _ ↦
      steady_bind (steady_replace id _) fun _ ↦ steady_pure _
  | clone id target =>
    exact steady_bind (steady_find _ id) fun _ ↦
      steady_bind (steady_keep target _) fun _ ↦ steady_pure _
  | info id => exact steady_bind (steady_find _ id) fun _ ↦ steady_pure _

theorem readKey_steady (key : KeySource) : Steady base (readKey key) :=
  preserves_readKey key

theorem finishCipher_steady (id : String) (outcome : Except Error α × CipherContext) :
    Steady base (finishCipher id outcome) :=
  steady_bind (steady_replace id _) fun _ ↦ steady_settleAs _ outcome.1

theorem runCipher_steady (command : CipherCommand) : Steady base (runCipher command) := by
  cases command with
  | new id feature algorithm mode padding policy =>
    exact steady_bind (steady_keep id _) fun _ ↦ steady_pure _
  | setup id direction key iv =>
    exact steady_bind (steady_find _ id) fun _ ↦ steady_bind (readKey_steady key) fun _ ↦
      steady_bind (steady_making _) fun _ ↦ steady_bind (steady_making _) fun outcome ↦
        steady_bind (finishCipher_steady id outcome) fun _ ↦ steady_pure _
  | update id data =>
    exact steady_bind (steady_find _ id) fun _ ↦ steady_bind (steady_making _) fun outcome ↦
      steady_bind (finishCipher_steady id outcome) fun _ ↦ steady_pure _
  | finalize id =>
    exact steady_bind (steady_find _ id) fun _ ↦ steady_bind (steady_making _) fun outcome ↦
      steady_bind (finishCipher_steady id outcome) fun _ ↦ steady_pure _
  | info id => exact steady_bind (steady_find _ id) fun _ ↦ steady_pure _

theorem keepKey_steady (target : Option String) (key : SymmetricKey) :
    Steady base (keepKey target key) := by
  cases target with
  | some id => exact steady_bind (steady_keep id _) fun _ ↦ steady_pure _
  | none =>
    exact steady_bind (ensures_modify fun session hextends ↦ hextends.trans
      (.release session.engine key.material.lease)) fun _ ↦ steady_pure _

theorem derive_steady {make : Engine → Logged (Except Failure SymmetricKey × Engine)}
    (hmake : ∀ engine : Engine, engine.Extends (make engine).value.2) (target : Option String)
    (arrays : Locking → Logged Unit) :
    Steady base (do
      making arrays
      keepKey target (← settle (← onEngine make))) :=
  steady_bind (steady_making arrays) fun _ ↦ steady_bind (steady_onEngine hmake) fun result ↦
    steady_bind (steady_settle result) (keepKey_steady target)

theorem runKdf_steady (command : KdfCommand) : Steady base (runKdf command) := by
  cases command with
  | new id feature hash fallback => exact steady_bind (steady_keep id _) fun _ ↦ steady_pure _
  | info id => exact steady_bind (steady_find _ id) fun _ ↦ steady_pure _
  | makeKey id request target =>
    apply steady_bind (steady_find _ id)
    rintro ⟨context, fallback⟩
    cases fallback with
    | outsidePool =>
      exact derive_steady (fun engine ↦ .serve (context.makeKey_serves request engine)) target _
    | emptyKey =>
      exact derive_steady (fun engine ↦ .serve (context.makeKeyOrEmpty_serves request engine))
        target _
  | tryMakeKey id request target =>
    apply steady_bind (steady_find _ id)
    rintro ⟨context, fallback⟩
    exact derive_steady (fun engine ↦ .serve (context.tryMakeKey_serves request engine)) target _

theorem runKey_steady (command : KeyCommand) : Steady base (runKey command) := by
  cases command with
  | ofBytes id data =>
    exact steady_bind (steady_making _) fun _ ↦
      steady_bind (steady_keep id _) fun _ ↦ steady_pure _
  | info id => exact steady_bind (steady_find _ id) fun _ ↦ steady_pure _
  | clone id target =>
    exact steady_bind (steady_find _ id) fun _ ↦ steady_bind (steady_making _) fun _ ↦
      steady_bind (steady_keep target _) fun _ ↦ steady_pure _
  | equal left right =>
    exact steady_bind (steady_find _ left) fun _ ↦
      steady_bind (steady_find _ right) fun _ ↦ steady_pure _
  | unwrap id target => exact steady_bind (steady_take _ id) fun _ ↦ steady_keepArray target _
  | wrap id target =>
    exact steady_bind (steady_take _ id) fun _ ↦
      steady_bind (steady_keep target _) fun _ ↦ steady_pure _

theorem changeArray_steady (id : String) (change : SecureArray → Except Fault SecureArray) :
    Steady base (changeArray id change) :=
  steady_bind (steady_find _ id) fun _ ↦ steady_bind (steady_settleAs _ _) fun changed ↦
    steady_bind (steady_replace id (.array changed)) fun _ ↦ steady_pure _

/-- A lease without an array is given back. -/
theorem extends_leased (engine : Engine) (length : Nat) (lease : Lease) :
    engine.Extends { engine with memory := (engine.memory.leased length lease).value.2 } := by
  rcases Nat.lt_or_ge length SecureArray.lengthLimit with hshort | hlong
  · rw [Memory.leased_of_short hshort]
    exact .refl engine
  · rw [Memory.leased_of_long hlong]
    exact .release engine (some lease)

theorem runArray_steady (command : ArrayCommand) : Steady base (runArray command) := by
  cases command with
  | ofBytes id data => exact steady_bind (steady_making _) (steady_keepArray id)
  | zeroed id length =>
    exact steady_bind (steady_making _) fun _ ↦
      steady_bind (steady_settleAs _ _) (steady_keepArray id)
  | tryZeroed id length =>
    exact steady_bind (steady_making _) fun _ ↦
      steady_bind (steady_settleAs _ _) (steady_keepArray id)
  | empty id => exact steady_keepArray id _
  | leased id length lease =>
    exact steady_bind (steady_take _ lease) fun moved ↦
      steady_bind (steady_onMemory fun engine ↦ extends_leased engine length moved) fun _ ↦
        steady_bind (steady_settleAs _ _) (steady_keepArray id)
  | set id index value => exact changeArray_steady id _
  | truncate id length => exact changeArray_steady id _
  | clone id target =>
    exact steady_bind (steady_find _ id) fun _ ↦
      steady_bind (steady_making _) (steady_keepArray target)
  | info id => exact steady_bind (steady_find _ id) fun _ ↦ steady_pure _
  | equal left right =>
    exact steady_bind (steady_find _ left) fun _ ↦
      steady_bind (steady_find _ right) fun _ ↦ steady_pure _

theorem runPool_steady (command : PoolCommand) : Steady base (runPool command) := by
  cases command with
  | new id capacity =>
    exact steady_bind (steady_onMemory fun engine ↦ .newPool engine capacity) fun _ ↦
      steady_bind (steady_keep id _) fun _ ↦ steady_bind steady_get fun _ ↦ steady_pure _
  | clone source target =>
    exact steady_bind (steady_findPool source) fun _ ↦
      steady_bind (steady_keep target _) fun _ ↦ steady_pure _
  | reserve source target size =>
    exact steady_bind (steady_findPool source) fun pool ↦
      steady_bind (steady_onMemory fun engine ↦ .settle (engine.memory.reserve_settles pool size))
        fun _ ↦ steady_bind (steady_settleAs _ _) fun _ ↦
          steady_bind (steady_keep target _) fun _ ↦ steady_pure _
  | allocate source target size =>
    exact steady_bind (steady_findPool source) fun pool ↦
      steady_bind (steady_onMemory fun engine ↦ .settle (engine.memory.allocate_settles pool size))
        fun _ ↦ steady_bind (steady_settle _) (steady_keepArray target)
  | info source => exact steady_pure _

theorem drop_steady (id : String) : Steady base (action (.drop id)) :=
  steady_bind (ensures_modify fun session hextends ↦ hextends.trans
    (.release session.engine ((session.slots.get? id).bind Object.lease?))) fun _ ↦ steady_pure _

/-! ## Commands that start the engine -/

def provider? (session : Session) (id : String) : Option Provider :=
  (session.slots.get? id).bind fun
    | .provider provider => some provider
    | _ => none

/-- The configuration of a provider that is asked for a context, if the name is supported. -/
def createConfig? (session : Session) (provider name : String) : Option Config :=
  (Feature.ofName? name).bind fun _ ↦ (session.provider? provider).map Provider.config

/-- The configuration that a command asks the engine to be started with. -/
def startConfig? (session : Session) : Command → Option Config
  | .engine (.start config) => some config
  | .provider (.start id) => (session.provider? id).map Provider.config
  | .provider (.create provider _ name) => session.createConfig? provider name
  | .provider (.createHash provider _ name) => session.createConfig? provider name
  | .provider (.createCipher provider _ name) => session.createConfig? provider name
  | .provider (.createKdf provider _ name) => session.createConfig? provider name
  | _ => none

/-- The engine after a request to start it, if there is one. -/
def requested (session : Session) (config? : Option Config) : Engine :=
  match config? with
  | some config => (session.engine.start config).value.2
  | none => session.engine

/-- What a command does to the engine at first. -/
def prepared (session : Session) : Command → Engine
  | .engine (.setPageLocking enabled) => session.engine.setPageLocking enabled
  | command => session.requested (session.startConfig? command)

variable {session : Session}

/-- A command that changes the engine with the provider in a slot and then goes on. -/
theorem withProvider_ensures {id : String} {change : Provider → Engine → Logged (α × Engine)}
    {next : α → Procedure Reply} {M : α → Session → Prop} {Q : Session → Prop}
    (hmissing : session.provider? id = none → Q session)
    (hchange : ∀ provider, session.provider? id = some provider →
      M (change provider session.engine).value.1
        { session with engine := (change provider session.engine).value.2 })
    (hnext : ∀ a, Ensures (M a) (next a) (fun _ ↦ Q) Q) :
    Ensures (· = session)
      (do
        let provider ← findProvider id
        let a ← onEngine (change provider)
        next a)
      (fun _ ↦ Q) Q := by
  refine ensures_bind (M := fun provider current ↦
    current = session ∧ session.provider? id = some provider) ?_ ?_
  · refine ensures_find ?_ ?_
    · rintro current object provider rfl hobject hselect
      exact ⟨rfl, by rw [provider?, hobject]; exact hselect⟩
    · rintro current rfl hnone
      exact hmissing hnone
  · intro provider
    refine ensures_bind (ensures_onEngine ?_) hnext
    rintro current ⟨rfl, hprovider⟩
    exact hchange provider hprovider

theorem withProvider_extends {id : String} {config? : Option Config}
    {change : Provider → Engine → Logged (α × Engine)} {next : α → Procedure Reply}
    (hmissing : session.provider? id = none → config? = none)
    (hchange : ∀ provider, session.provider? id = some provider →
      (change provider session.engine).value.2 = session.requested config?)
    (hnext : ∀ a, Steady (session.requested config?) (next a)) :
    Ensures (· = session)
      (do
        let provider ← findProvider id
        let a ← onEngine (change provider)
        next a)
      (fun _ after ↦ (session.requested config?).Extends after.engine)
      (fun after ↦ (session.requested config?).Extends after.engine) := by
  refine withProvider_ensures ?_ ?_ hnext
  · intro hnone
    rw [hmissing hnone]
    exact .refl session.engine
  · intro provider hprovider
    rw [hchange provider hprovider]
    exact .refl _

theorem createConfig?_eq_none {provider : String} (hmissing : session.provider? provider = none)
    (name : String) : session.createConfig? provider name = none := by
  rw [createConfig?, hmissing]
  cases Feature.ofName? name with
  | none => rfl
  | some feature => rfl

theorem engine_createContext {provider : String} {owner : Provider}
    (howner : session.provider? provider = some owner) (name : String) :
    (owner.createContext name session.engine).value.2 =
      session.requested (session.createConfig? provider name) := by
  rw [Provider.engine_createContext, createConfig?, howner]
  cases Feature.ofName? name with
  | none => rfl
  | some feature => rfl

theorem createKind_extends (select : Context → Option α) (wrap : α → Object)
    (typeName : α → String) (provider id name : String) :
    Ensures (· = session) (createKind (Provider.createKind select) wrap typeName provider id name)
      (fun _ after ↦
        (session.requested (session.createConfig? provider name)).Extends after.engine)
      (fun after ↦
        (session.requested (session.createConfig? provider name)).Extends after.engine) := by
  refine withProvider_extends (fun hmissing ↦ createConfig?_eq_none hmissing name) ?_ ?_
  · intro owner howner
    rw [Provider.engine_createKind, engine_createContext howner]
  · intro result
    exact steady_bind (steady_settleAs _ result) fun context ↦
      steady_bind (steady_keep id _) fun _ ↦ steady_pure _

/-- A command that does nothing to the engine at first. -/
theorem steady_extends {procedure : Procedure Reply}
    (hsteady : Steady session.engine procedure) :
    Ensures (· = session) procedure (fun _ after ↦ session.engine.Extends after.engine)
      (fun after ↦ session.engine.Extends after.engine) :=
  ensures_weaken hsteady fun _ h ↦ h ▸ .refl _

theorem runProvider_extends (command : ProviderCommand) :
    Ensures (· = session) (runProvider command)
      (fun _ after ↦ (session.prepared (.provider command)).Extends after.engine)
      (fun after ↦ (session.prepared (.provider command)).Extends after.engine) := by
  cases command with
  | new id config => exact steady_extends (steady_bind (steady_keep id _) fun _ ↦ steady_pure _)
  | features id => exact steady_extends (steady_bind (steady_find _ id) fun _ ↦ steady_pure _)
  | start id =>
    refine withProvider_extends (fun hmissing ↦ ?_) ?_ fun _ ↦ steady_pure _
    · rw [startConfig?, hmissing]
      rfl
    · intro provider hprovider
      rw [startConfig?, hprovider]
      rfl
  | create provider id name =>
    refine withProvider_extends (fun hmissing ↦ createConfig?_eq_none hmissing name)
      (fun owner howner ↦ engine_createContext howner name) ?_
    intro context
    cases context with
    | none => exact steady_pure _
    | some context => exact steady_bind (steady_keep id _) fun _ ↦ steady_pure _
  | createHash provider id name => exact createKind_extends _ _ _ provider id name
  | createCipher provider id name => exact createKind_extends _ _ _ provider id name
  | createKdf provider id name => exact createKind_extends _ _ _ provider id name

theorem runEngine_extends (command : EngineCommand) :
    Ensures (· = session) (runEngine command)
      (fun _ after ↦ (session.prepared (.engine command)).Extends after.engine)
      (fun after ↦ (session.prepared (.engine command)).Extends after.engine) := by
  cases command with
  | state => exact steady_extends (steady_bind steady_get fun _ ↦ steady_pure _)
  | start config =>
    refine ensures_bind (M := fun _ after ↦
      (session.prepared (.engine (.start config))).Extends after.engine)
      (ensures_onEngine ?_) fun _ ↦ ensures_pure fun _ h ↦ h
    rintro current rfl
    exact .refl _
  | setPageLocking enabled =>
    refine ensures_bind (M := fun _ after ↦
      (session.prepared (.engine (.setPageLocking enabled))).Extends after.engine)
      (ensures_modify ?_) fun _ ↦ steady_bind steady_get fun _ ↦ steady_pure _
    rintro current rfl
    exact .refl _
  | setRefusals refusals =>
    exact steady_extends (steady_bind (ensures_modify fun _ hextends ↦
      hextends.trans (.withMemory rfl rfl)) fun _ ↦ steady_pure _)

theorem action_extends (command : Command) :
    Ensures (· = session) (action command)
      (fun _ after ↦ (session.prepared command).Extends after.engine)
      (fun after ↦ (session.prepared command).Extends after.engine) := by
  cases command with
  | engine command => exact runEngine_extends command
  | provider command => exact runProvider_extends command
  | hash command => exact steady_extends (runHash_steady command)
  | cipher command => exact steady_extends (runCipher_steady command)
  | kdf command => exact steady_extends (runKdf_steady command)
  | key command => exact steady_extends (runKey_steady command)
  | array command => exact steady_extends (runArray_steady command)
  | pool command => exact steady_extends (runPool_steady command)
  | drop id => exact steady_extends (drop_steady id)

/-- After what a command does to the engine at first, it only extends it. -/
theorem extends_run (session : Session) (command : Command) :
    (session.prepared command).Extends (session.run command).value.2.engine :=
  (action_extends command).after rfl

end Session

end StreamCrypto
