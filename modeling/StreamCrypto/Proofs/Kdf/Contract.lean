import StreamCrypto.Proofs.Kdf.Agreement

/-!
# What comes of asking for a key

Whether there is a key is decided in a fixed order: by the numbers of the request alone, and only
then by what the pool of the engine has left. So there are three outcomes, and each of them is known
in full (`attempted`). A request that is refused for its numbers leaves no trace, a pool that is
exhausted counts that and nothing else, and a key comes with a charge of its length, which can be
taken back. Nothing else can happen, since the lengths that pass are far below any limit of memory,
and the check that is made again in the buffer is about the same numbers.
-/

namespace StreamCrypto

open Kdf

/-- The bound on the length of a key fits in 64 bits, and so does the product that it is. -/
theorem Kdf.Pbkdf2.toNat_maximumLength (algorithm : HashAlgorithm) :
    (UInt64.ofNat (UInt32.size - 1) * UInt64.ofNat algorithm.digestLength).toNat =
      maximumLength algorithm := by
  cases algorithm <;> rfl

namespace Engine

variable {engine : Engine}

/-- The lease of an array for a key. -/
def leaseFor (engine : Engine) (length : Nat) : Option Lease :=
  engine.securePool.map fun id ↦ ⟨id, length⟩

/-- The engine after it has granted that lease. -/
def granting (engine : Engine) (length : Nat) : Engine :=
  { engine with
    memory := engine.securePool.elim engine.memory fun id ↦ engine.memory.grant id length }

theorem leaseFor_of_some {id : PoolId} (hpool : engine.securePool = some id) (length : Nat) :
    engine.leaseFor length = some ⟨id, length⟩ := by
  rw [leaseFor, hpool, Option.map_some]

theorem granting_of_some {id : PoolId} (hpool : engine.securePool = some id) (length : Nat) :
    engine.granting length = { engine with memory := engine.memory.grant id length } := by
  simp only [granting, hpool, Option.elim_some]

theorem leaseFor_of_none (hnone : engine.securePool = none) (length : Nat) :
    engine.leaseFor length = none := by
  rw [leaseFor, hnone, Option.map_none]

theorem granting_of_none (hnone : engine.securePool = none) (length : Nat) :
    engine.granting length = engine := by
  obtain ⟨initialized, securePool, memory⟩ := engine
  cases hnone
  rfl

theorem exists_granting_eq (engine : Engine) (length : Nat) :
    ∃ pools, engine.granting length = { engine with memory := { engine.memory with pools } } := by
  obtain ⟨initialized, securePool, memory⟩ := engine
  cases securePool with
  | none => exact ⟨memory.pools, rfl⟩
  | some id => exact ⟨(memory.grant id length).pools, rfl⟩

theorem outputBuffer_of_exhausted {id : PoolId} {length : Nat} (hpool : engine.securePool = some id)
    (hfull : (engine.memory.pool id).available < length) :
    engine.outputBuffer length =
      ⟨(.error (.error (.poolExhausted length (engine.memory.pool id).available)),
        { engine with memory := engine.memory.refuse id }), [engine.memory.refusal id length]⟩ := by
  rw [outputBuffer_pooled hpool, Memory.allocate_of_full hfull,
    Memory.events_allocate_of_full hfull]

theorem outputBuffer_of_free {length : Nat} (hlength : length < SecureArray.memoryLimit)
    (hfree : ∀ id, engine.securePool = some id → length ≤ (engine.memory.pool id).available) :
    engine.outputBuffer length =
      ⟨(.ok (.zeros engine.memory.toLocking (engine.leaseFor length) length),
        engine.granting length), engine.lockEvents length⟩ := by
  cases hpool : engine.securePool with
  | none =>
    rw [outputBuffer_unpooled hlength hpool, leaseFor_of_none hpool, granting_of_none hpool]
  | some id =>
    have hlimit := SecureArray.memoryLimit_lt
    rw [outputBuffer_pooled hpool, Memory.allocate_of_free (hfree id hpool),
      Memory.events_allocate_of_free (hfree id hpool) (by omega), if_neg (by omega),
      leaseFor_of_some hpool, granting_of_some hpool]
    rfl

end Engine

namespace KdfContext

variable {context : KdfContext} {request : KeyRequest} {engine : Engine}

/-- There is no key for the numbers of the request. -/
def Unservable (context : KdfContext) (request : KeyRequest) : Prop :=
  request.iterations = 0 ∨ request.length = 0 ∨
    Pbkdf2.maximumLength context.hash < request.length

/-- The first reason why there is no key. -/
def refusalOf (request : KeyRequest) : Pbkdf2.Refusal :=
  if request.iterations = 0 then .noIterations
  else if request.length = 0 then .noLength
  else .tooLong request.length

theorem check_of_unservable (hunservable : context.Unservable request) :
    context.check request = .error (.derivation (refusalOf request).reason) := by
  have hrefusal : Pbkdf2.refusal? context.hash request.length request.iterations =
      some (refusalOf request) := by
    unfold Pbkdf2.refusal? refusalOf
    by_cases hiterations : request.iterations = 0
    · rw [if_pos hiterations, if_pos hiterations]
    by_cases hlength : request.length = 0
    · rw [if_neg hiterations, if_neg hiterations, if_pos hlength, if_pos hlength]
    have hlong : Pbkdf2.maximumLength context.hash < request.length :=
      (hunservable.resolve_left hiterations).resolve_left hlength
    rw [if_neg hiterations, if_neg hiterations, if_neg hlength, if_neg hlength, if_pos hlong]
  rw [KdfContext.check, Pbkdf2.check, hrefusal]

theorem check_of_servable (hservable : ¬ context.Unservable request) :
    context.check request = .ok () := by
  unfold Unservable at hservable
  exact Pbkdf2.check_eq_ok_iff.2 (by omega)

/-- What can come of asking for a key. -/
inductive Attempted (context : KdfContext) (request : KeyRequest) (engine : Engine) :
    KeyOutcome → Prop
  | refused (hunservable : context.Unservable request) :
    Attempted context request engine
      ⟨(.error (.error (.derivation (refusalOf request).reason)), engine), []⟩
  | exhausted {id : PoolId} (hservable : ¬ context.Unservable request)
    (hpool : engine.securePool = some id)
    (hfull : (engine.memory.pool id).available < request.length) :
    Attempted context request engine
      ⟨(.error (.error (.poolExhausted request.length (engine.memory.pool id).available)),
        { engine with memory := engine.memory.refuse id }),
        [engine.memory.refusal id request.length]⟩
  | served (hservable : ¬ context.Unservable request)
    (hfree : ∀ id, engine.securePool = some id →
      request.length ≤ (engine.memory.pool id).available) :
    Attempted context request engine
      ⟨(.ok (context.keyOf request engine (engine.leaseFor request.length)),
        engine.granting request.length),
        engine.lockEvents request.length ++
          [.keyDerived context.feature request.length request.iterations]⟩

theorem attempted (context : KdfContext) (request : KeyRequest) (engine : Engine) :
    context.Attempted request engine (context.tryMakeKey request engine) := by
  by_cases hunservable : context.Unservable request
  · rw [tryMakeKey_of_refused (check_of_unservable hunservable)]
    exact .refused hunservable
  · have hcheck := check_of_servable hunservable
    by_cases hfull : ∃ id, engine.securePool = some id ∧
        (engine.memory.pool id).available < request.length
    · obtain ⟨id, hpool, hfull⟩ := hfull
      rw [tryMakeKey_of_failure hcheck (Engine.outputBuffer_of_exhausted hpool hfull)]
      exact .exhausted hunservable hpool hfull
    · have hfree (id : PoolId) (hpool : engine.securePool = some id) :
          request.length ≤ (engine.memory.pool id).available :=
        Nat.le_of_not_lt fun hless ↦ hfull ⟨id, hpool, hless⟩
      rw [tryMakeKey_of_buffer hcheck
        (Engine.outputBuffer_of_free (length_lt_of_check hcheck) hfree)]
      exact .served hunservable hfree

/-! ## The contract -/

/-- A key of `n` bytes is charged to the pool if there is one, and to nothing else. -/
structure Charged (engine after : Engine) (key : SymmetricKey) (n : Nat) : Prop where
  length : key.material.bytes.length = n
  isPooled : key.material.isPooled = engine.securePool.isSome
  lease : key.material.lease = engine.leaseFor n
  pool : ∀ id, after.memory.pool id =
    if engine.securePool = some id then
      { engine.memory.pool id with
        inUse := (engine.memory.pool id).inUse + n
        granted := (engine.memory.pool id).granted + 1 }
    else engine.memory.pool id
  rest : ∃ pools, after = { engine with memory := { engine.memory with pools } }
  /-- The charge is taken back with the lease of the key. -/
  released : ∀ id, ((after.release key.material.lease).memory.pool id).inUse =
    (engine.memory.pool id).inUse

/-- When there is a key, why there is none, and what becomes of the engine. -/
structure MeetsContract (context : KdfContext) (request : KeyRequest) (engine : Engine)
    (attempt : KeyOutcome) : Prop where
  refused_iff : (∃ reason, attempt.value.1 = .error (.error (.derivation reason))) ↔
    context.Unservable request
  refused : context.Unservable request →
    attempt = ⟨(.error (.error (.derivation (refusalOf request).reason)), engine), []⟩
  exhausted_iff : (∃ requested available,
      attempt.value.1 = .error (.error (.poolExhausted requested available))) ↔
    ¬ context.Unservable request ∧ ∃ id, engine.securePool = some id ∧
      (engine.memory.pool id).available < request.length
  exhausted : ∀ id, ¬ context.Unservable request → engine.securePool = some id →
    (engine.memory.pool id).available < request.length →
      attempt.value = (.error (.error (.poolExhausted request.length
          (engine.memory.pool id).available)),
        { engine with memory := engine.memory.refuse id }) ∧
      ∀ other, attempt.value.2.memory.pool other =
        if other = id then
          { engine.memory.pool id with refused := (engine.memory.pool id).refused + 1 }
        else engine.memory.pool other
  served : ¬ context.Unservable request → (∀ id, engine.securePool = some id →
      request.length ≤ (engine.memory.pool id).available) →
    ∃ key after, attempt.value = (.ok key, after) ∧ Charged engine after key request.length
  /-- There is no limit of memory in the way. -/
  fits : ¬ context.Unservable request → request.length < SecureArray.lengthLimit
  noFault : ∀ fault, attempt.value.1 ≠ .error (.fault fault)
  /-- The check is made again for the length of the buffer, and passes. -/
  filled : ∀ buffer charged, ¬ context.Unservable request →
    (engine.outputBuffer request.length).value = (.ok buffer, charged) →
      buffer.bytes.length = request.length ∧ ∃ key, context.fill request buffer = .ok key

section

variable (hpool : ∀ id, engine.securePool = some id → id < engine.memory.pools.length)

include hpool

theorem charged_keyOf (context : KdfContext) (request : KeyRequest) :
    Charged engine (engine.granting request.length)
      (context.keyOf request engine (engine.leaseFor request.length)) request.length where
  length := context.length_keyBytes request
  isPooled := Option.isSome_map
  lease := rfl
  pool id := by
    cases hsome : engine.securePool with
    | none =>
      rw [Engine.granting_of_none hsome]
      rfl
    | some pool =>
      rw [Engine.granting_of_some hsome]
      refine (Memory.pool_setPool (hpool pool hsome) _ id).trans ?_
      by_cases hid : id = pool
      · rw [if_pos hid, if_pos (congrArg some hid.symm), hid]
      · rw [if_neg hid, if_neg fun h ↦ hid (Option.some.inj h).symm]
  rest := engine.exists_granting_eq request.length
  released id := by
    change (((engine.granting request.length).release
      (engine.leaseFor request.length)).memory.pool id).inUse = _
    cases hsome : engine.securePool with
    | none =>
      rw [Engine.granting_of_none hsome, Engine.leaseFor_of_none hsome]
      rfl
    | some pool =>
      rw [Engine.granting_of_some hsome, Engine.leaseFor_of_some hsome]
      exact Memory.inUse_release_grant (hpool pool hsome) _ id

theorem charged_of_ok {key : SymmetricKey} {after : Engine}
    (hattempt : (context.tryMakeKey request engine).value = (.ok key, after)) :
    Charged engine after key request.length := by
  have hattempted := context.attempted request engine
  generalize context.tryMakeKey request engine = attempt at hattempt hattempted
  cases hattempted with
  | refused => cases hattempt
  | exhausted => cases hattempt
  | served =>
    cases hattempt
    exact charged_keyOf hpool context request

theorem meetsContract (context : KdfContext) (request : KeyRequest) :
    context.MeetsContract request engine (context.tryMakeKey request engine) := by
  have hattempted := context.attempted request engine
  generalize context.tryMakeKey request engine = attempt at hattempted
  have hfits (hservable : ¬ context.Unservable request) :
      request.length < SecureArray.memoryLimit :=
    length_lt_of_check (check_of_servable hservable)
  constructor
  case refused_iff =>
    cases hattempted with
    | refused hunservable => exact ⟨fun _ ↦ hunservable, fun _ ↦ ⟨_, rfl⟩⟩
    | exhausted hservable => exact ⟨nofun, fun h ↦ absurd h hservable⟩
    | served hservable => exact ⟨nofun, fun h ↦ absurd h hservable⟩
  case refused =>
    intro hunservable
    cases hattempted with
    | refused => rfl
    | exhausted hservable => exact absurd hunservable hservable
    | served hservable => exact absurd hunservable hservable
  case exhausted_iff =>
    cases hattempted with
    | refused hunservable => exact ⟨nofun, fun h ↦ absurd hunservable h.1⟩
    | exhausted hservable hsome hfull =>
      exact ⟨fun _ ↦ ⟨hservable, _, hsome, hfull⟩, fun _ ↦ ⟨_, _, rfl⟩⟩
    | served hservable hfree =>
      refine ⟨nofun, ?_⟩
      rintro ⟨-, id, hsome, hfull⟩
      exact absurd hfull (Nat.not_lt.2 (hfree id hsome))
  case exhausted =>
    intro id hservable hsome hfull
    cases hattempted with
    | refused hunservable => exact absurd hunservable hservable
    | exhausted _ hother _ =>
      cases hsome.symm.trans hother
      exact ⟨rfl, Memory.pool_setPool (hpool id hsome) _⟩
    | served _ hfree => exact absurd hfull (Nat.not_lt.2 (hfree id hsome))
  case served =>
    intro hservable hfree
    cases hattempted with
    | refused hunservable => exact absurd hunservable hservable
    | exhausted _ hsome hfull => exact absurd hfull (Nat.not_lt.2 (hfree _ hsome))
    | served => exact ⟨_, _, rfl, charged_keyOf hpool context request⟩
  case fits => exact fun hservable ↦ Nat.lt_trans (hfits hservable) SecureArray.memoryLimit_lt
  case noFault =>
    cases hattempted with
    | refused => exact nofun
    | exhausted => exact nofun
    | served => exact nofun
  case filled =>
    intro buffer charged hservable hbuffer
    have hbuffers := engine.outputBuffer_buffers (hfits hservable)
    generalize engine.outputBuffer request.length = output at hbuffer hbuffers
    cases hbuffers with
    | exhausted => cases hbuffer
    | served lease after =>
      cases hbuffer
      refine ⟨List.length_replicate, context.keyOf request engine lease, ?_⟩
      exact fill_of_check (check_of_servable hservable) _ lease

end

end KdfContext

end StreamCrypto
