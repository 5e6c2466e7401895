import StreamCrypto.Kdf.Context
import StreamCrypto.Proofs.Memory.Balance

/-!
# What a key derivation charges

Each of the three ways to derive a key makes at most one reservation, of the length of the key in
the pool of the engine, and only after the request has been checked (`request?`). What is left of
it is the lease of the key: no lease stays behind without one, whatever goes wrong.
-/

namespace StreamCrypto

/-- What is left of at most one reservation, as a pool and a size: a lease, and the engine. -/
inductive Engine.Serves (engine : Engine) :
    Option (PoolId × Nat) → Option Lease → Engine → Prop
  | unasked : Serves engine none none engine
  | asked {id : PoolId} {size : Nat} {lease : Option Lease} {memory : Memory}
      (hsettles : engine.memory.Settles id size lease memory) :
    Serves engine (some (id, size)) lease { engine with memory }

/-- A lease that is taken back leaves the reservation, but no lease. -/
theorem Engine.Serves.release {engine after : Engine} {request : Option (PoolId × Nat)}
    {lease : Option Lease} (hserves : engine.Serves request lease after) :
    engine.Serves request none (after.release lease) := by
  cases hserves with
  | unasked => exact .unasked
  | asked hsettles =>
    cases hsettles with
    | refused hfull => exact .asked (.refused hfull)
    | granted hfree => exact .asked (.dropped hfree)
    | dropped hfree => exact .asked (.dropped hfree)

namespace Engine

variable {engine : Engine}

theorem outputBuffer_of_none (hnone : engine.securePool = none) (length : Nat) :
    (engine.outputBuffer length).value =
      ((SecureArray.tryZeroed engine.memory.toLocking length).value.mapError
        fun cause ↦ .error (.memoryLock cause), engine) := by
  simp [outputBuffer, hnone]

theorem outputBuffer_of_some {pool : PoolId} (hpool : engine.securePool = some pool)
    (length : Nat) : (engine.outputBuffer length).value =
      ((engine.memory.allocate pool length).value.1,
        { engine with memory := (engine.memory.allocate pool length).value.2 }) := by
  simp [outputBuffer, hpool]

theorem outputBuffer_serves (engine : Engine) (length : Nat) :
    engine.Serves (engine.securePool.map fun pool ↦ (pool, length))
      ((engine.outputBuffer length).value.1.toOption.bind SecureArray.lease)
      (engine.outputBuffer length).value.2 := by
  cases hpool : engine.securePool with
  | none =>
    rw [outputBuffer_of_none hpool]
    cases harray : (SecureArray.tryZeroed engine.memory.toLocking length).value with
    | error cause => exact .unasked
    | ok array =>
      change engine.Serves none array.lease engine
      rw [SecureArray.lease_of_tryZeroed harray]
      exact .unasked
  | some pool =>
    rw [outputBuffer_of_some hpool]
    exact .asked (Memory.allocate_settles engine.memory pool length)

end Engine

namespace KdfContext

open Kdf

/-- The lease of a derived key. -/
def leaseOf (result : Except Failure SymmetricKey) : Option Lease :=
  result.toOption.bind fun key ↦ key.material.lease

/-- The reservation that is made for a key. -/
def request? (context : KdfContext) (request : KeyRequest) (engine : Engine) :
    Option (PoolId × Nat) :=
  match context.check request with
  | .error _ => none
  | .ok _ => engine.securePool.map fun pool ↦ (pool, request.length)

variable {engine : Engine}

theorem securePool_of_request? {context : KdfContext} {request : KeyRequest} {id : PoolId}
    {size : Nat} (hrequest : context.request? request engine = some (id, size)) :
    engine.securePool = some id := by
  unfold request? at hrequest
  split at hrequest
  · cases hrequest
  · obtain ⟨pool, hpool, heq⟩ := Option.map_eq_some_iff.1 hrequest
    cases heq
    exact hpool

/-- A key keeps the lease of the array that it is derived in. -/
theorem fillOrDrop_serves (context : KdfContext) (request : KeyRequest)
    {reservation : Option (PoolId × Nat)} {buffer : SecureArray} {charged : Engine}
    (hserves : engine.Serves reservation buffer.lease charged) :
    engine.Serves reservation
      ((context.fillOrDrop request buffer charged).1.toOption.bind fun key ↦ key.material.lease)
      (context.fillOrDrop request buffer charged).2 := by
  unfold fillOrDrop
  cases hfill : context.fill request buffer with
  | error error => exact hserves.release
  | ok key =>
    unfold fill at hfill
    cases hderive : Pbkdf2.derive context.hash request.secret request.salt request.iterations
        buffer.bytes.length with
    | error error => simp [hderive, Except.map] at hfill
    | ok bytes =>
      rw [hderive] at hfill
      cases hfill
      exact hserves

theorem fillOrGiveUp_serves (context : KdfContext) (request : KeyRequest)
    {reservation : Option (PoolId × Nat)} {buffer : SecureArray} {charged : Engine}
    (hserves : engine.Serves reservation buffer.lease charged) :
    engine.Serves reservation (leaseOf (context.fillOrGiveUp request buffer charged).value.1)
      (context.fillOrGiveUp request buffer charged).value.2 := by
  have hfilled := fillOrDrop_serves context request hserves
  unfold fillOrGiveUp
  generalize context.fillOrDrop request buffer charged = filled at hfilled ⊢
  obtain ⟨error | key, after⟩ := filled
  · exact hfilled
  · exact hfilled

/-- Nothing more is charged outside the pool. -/
theorem makeKeyOutsidePool_serves (context : KdfContext) (request : KeyRequest)
    {reservation : Option (PoolId × Nat)} {charged : Engine}
    (hserves : engine.Serves reservation none charged) :
    engine.Serves reservation (leaseOf (context.makeKeyOutsidePool request charged).value.1)
      (context.makeKeyOutsidePool request charged).value.2 := by
  unfold makeKeyOutsidePool
  simp only [Logged.value_bind]
  cases harray : (SecureArray.tryZeroed charged.memory.toLocking request.length).value with
  | error cause => exact hserves
  | ok buffer =>
    rw [← SecureArray.lease_of_tryZeroed harray] at hserves
    exact fillOrGiveUp_serves context request hserves

/-! ## The three ways to derive a key -/

theorem tryMakeKey_serves (context : KdfContext) (request : KeyRequest) (engine : Engine) :
    engine.Serves (context.request? request engine)
      (leaseOf (context.tryMakeKey request engine).value.1)
      (context.tryMakeKey request engine).value.2 := by
  unfold tryMakeKey request?
  cases hcheck : context.check request with
  | error error => exact .unasked
  | ok _ =>
    have hbuffer := engine.outputBuffer_serves request.length
    simp only [Logged.value_bind]
    generalize (engine.outputBuffer request.length).value = outcome at hbuffer ⊢
    obtain ⟨failure | buffer, charged⟩ := outcome
    · exact hbuffer
    · have hfilled := fillOrDrop_serves context request hbuffer
      simp only
      generalize context.fillOrDrop request buffer charged = filled at hfilled ⊢
      obtain ⟨error | key, after⟩ := filled
      · exact hfilled
      · exact hfilled

theorem makeKeyOrEmpty_serves (context : KdfContext) (request : KeyRequest) (engine : Engine) :
    engine.Serves (context.request? request engine)
      (leaseOf (context.makeKeyOrEmpty request engine).value.1)
      (context.makeKeyOrEmpty request engine).value.2 := by
  have htried := context.tryMakeKey_serves request engine
  unfold makeKeyOrEmpty
  simp only [Logged.value_bind]
  generalize (context.tryMakeKey request engine).value = outcome at htried ⊢
  obtain ⟨failure | key, after⟩ := outcome
  · cases failure with
    | error error => exact htried
    | lock cause => exact htried
    | fault fault => exact htried
  · exact htried

theorem makeKey_serves (context : KdfContext) (request : KeyRequest) (engine : Engine) :
    engine.Serves (context.request? request engine)
      (leaseOf (context.makeKey request engine).value.1)
      (context.makeKey request engine).value.2 := by
  unfold makeKey request?
  cases hcheck : context.check request with
  | error error => exact .unasked
  | ok _ =>
    have hbuffer := engine.outputBuffer_serves request.length
    simp only [Logged.value_bind]
    generalize (engine.outputBuffer request.length).value = outcome at hbuffer ⊢
    obtain ⟨failure | buffer, charged⟩ := outcome
    · -- A pool that is exhausted is the one failure after which a key is derived all the same.
      cases failure with
      | error error =>
        cases error with
        | poolExhausted requested available =>
          exact makeKeyOutsidePool_serves context request hbuffer
        | _ => exact hbuffer
      | lock cause => exact hbuffer
      | fault fault => exact hbuffer
    · exact fillOrGiveUp_serves context request hbuffer

end KdfContext

end StreamCrypto
