import StreamCrypto.Proofs.Kdf.Charge
import StreamCrypto.Proofs.Kdf.Length

/-!
# The three ways to derive a key agree

A request that passes its check fails for one reason only: the pool of the engine has too few bytes
left. So there are three cases, and in each of them all three ways to ask for the key are known in
full: what they return, what they leave of the engine, and what they log (`derives`). That memory
is obtained is no assumption here: the check bounds the length of a key by what any memory holds.
-/

namespace StreamCrypto

/-- What comes of asking for a key. -/
abbrev KeyOutcome := Logged (Except Failure SymmetricKey × Engine)

/-! ## The array for a key -/

namespace Memory

variable {memory : Memory} {id : PoolId} {size : Nat}

/-- The event that tells of a refused reservation. -/
def refusal (memory : Memory) (id : PoolId) (size : Nat) : Event :=
  .poolExhausted size (memory.pool id).available (memory.pool id).capacity

theorem events_allocate_of_full (hfull : (memory.pool id).available < size) :
    (memory.allocate id size).events = [memory.refusal id size] := by
  simp [allocate, reserve, Pool.reserve, hfull, refusal, Except.map]

theorem events_allocate_of_free (hfree : size ≤ (memory.pool id).available)
    (hshort : size < SecureArray.lengthLimit) :
    (memory.allocate id size).events = (memory.toLocking.lock size).events := by
  have hreserve : memory.reserve id size = ⟨(.ok ⟨id, size⟩, memory.grant id size), []⟩ := by
    simp only [reserve, Pool.reserve, Nat.not_lt.2 hfree, if_false]
    rfl
  simp only [allocate, hreserve, bind, leased_of_short hshort, pure, List.nil_append,
    List.append_nil]
  rfl

end Memory

namespace Engine

variable {engine : Engine} {length : Nat}

/-- What is traced if the pages of an array are not locked. -/
def lockEvents (engine : Engine) (length : Nat) : List Event :=
  (engine.memory.toLocking.lock length).events

theorem errors_lockEvents (engine : Engine) (length : Nat) :
    Event.errors (engine.lockEvents length) = [] :=
  Locking.errors_lock _ _

/-- What can come of asking for an array for a key. -/
inductive Buffers (engine : Engine) (length : Nat) :
    Logged (Except Failure SecureArray × Engine) → Prop
  | served (lease : Option Lease) (after : Engine) :
    Buffers engine length
      ⟨(.ok (.zeros engine.memory.toLocking lease length), after), engine.lockEvents length⟩
  | exhausted {id : PoolId} (hpool : engine.securePool = some id) :
    Buffers engine length
      ⟨(.error (.error (.poolExhausted length (engine.memory.pool id).available)),
        { engine with memory := engine.memory.refuse id }), [engine.memory.refusal id length]⟩

theorem outputBuffer_unpooled (hlength : length < SecureArray.memoryLimit)
    (hnone : engine.securePool = none) :
    engine.outputBuffer length =
      ⟨(.ok (.zeros engine.memory.toLocking none length), engine), engine.lockEvents length⟩ := by
  unfold outputBuffer
  rw [hnone, SecureArray.tryZeroed_of_none (SecureArray.shortage?_of_lt hlength)]
  exact Logged.bind_of_silent rfl

theorem outputBuffer_pooled {id : PoolId} (hpool : engine.securePool = some id) :
    engine.outputBuffer length =
      ⟨((engine.memory.allocate id length).value.1,
        { engine with memory := (engine.memory.allocate id length).value.2 }),
        (engine.memory.allocate id length).events⟩ := by
  unfold outputBuffer
  rw [hpool]
  exact Logged.bind_of_silent rfl

theorem outputBuffer_buffers (engine : Engine) (hlength : length < SecureArray.memoryLimit) :
    engine.Buffers length (engine.outputBuffer length) := by
  cases hpool : engine.securePool with
  | none =>
    rw [outputBuffer_unpooled hlength hpool]
    exact .served none engine
  | some id =>
    rw [outputBuffer_pooled hpool]
    rcases Nat.lt_or_ge (engine.memory.pool id).available length with hfull | hfree
    · rw [Memory.allocate_of_full hfull, Memory.events_allocate_of_full hfull]
      exact .exhausted hpool
    · have hlimit := SecureArray.memoryLimit_lt
      rw [Memory.allocate_of_free hfree, Memory.events_allocate_of_free hfree (by omega),
        if_neg (by omega)]
      exact .served _ _

end Engine

/-! ## The key -/

namespace KdfContext

open Kdf

variable {context : KdfContext} {request : KeyRequest} {engine : Engine}

/-- The bytes of the key that a request is for. -/
def keyBytes (context : KdfContext) (request : KeyRequest) : Bytes :=
  Pbkdf2.derived context.hash request.secret request.salt request.iterations request.length

theorem length_keyBytes (context : KdfContext) (request : KeyRequest) :
    (context.keyBytes request).length = request.length :=
  Pbkdf2.length_derived _ _

/-- The key that a request is for, in an array with or without a lease. -/
def keyWith (context : KdfContext) (request : KeyRequest) (locking : Locking)
    (lease : Option Lease) : SymmetricKey :=
  ⟨{ bytes := context.keyBytes request, lease, locked := (locking.lock request.length).value }⟩

theorem length_lt_of_check (hcheck : context.check request = .ok ()) :
    request.length < SecureArray.memoryLimit := by
  have hbound := (Pbkdf2.length_bounds_of_check hcheck).2
  have hlongest : Pbkdf2.maximumLength context.hash ≤ (UInt32.size - 1) * 64 :=
    Nat.mul_le_mul_left _ context.hash.digestLength_le
  have hlimit : (UInt32.size - 1) * 64 < SecureArray.memoryLimit := by decide
  omega

theorem fill_of_check (hcheck : context.check request = .ok ()) (locking : Locking)
    (lease : Option Lease) :
    context.fill request (.zeros locking lease request.length) =
      .ok (context.keyWith request locking lease) := by
  unfold fill SecureArray.zeros
  rw [List.length_replicate, Pbkdf2.derive_of_check hcheck]
  rfl

theorem fillOrDrop_of_check (hcheck : context.check request = .ok ()) (locking : Locking)
    (lease : Option Lease) (engine : Engine) :
    context.fillOrDrop request (.zeros locking lease request.length) engine =
      (.ok (context.keyWith request locking lease), engine) := by
  unfold fillOrDrop
  rw [fill_of_check hcheck]

/-- What is logged when there is no key. -/
def givenUp (context : KdfContext) (error : Error) : Event :=
  .derivationFailed context.feature (.error error)

/-! ## The three cases -/

/-- The key of a request under the page locking of an engine, with or without a lease. -/
abbrev keyOf (context : KdfContext) (request : KeyRequest) (engine : Engine)
    (lease : Option Lease) : SymmetricKey :=
  context.keyWith request engine.memory.toLocking lease

/-- What can come of the three ways to ask for a key. -/
inductive Derives (context : KdfContext) (request : KeyRequest) (engine : Engine) :
    (attempt making emptying : KeyOutcome) → Prop
  | refused (reason : String) :
    Derives context request engine
      ⟨(.error (.error (.derivation reason)), engine), []⟩
      ⟨(.ok .empty, engine), [context.givenUp (.derivation reason)]⟩
      ⟨(.ok .empty, engine), [context.givenUp (.derivation reason)]⟩
  | served (hpositive : 0 < request.length) (lease : Option Lease) (after : Engine) :
    Derives context request engine
      ⟨(.ok (context.keyOf request engine lease), after),
        engine.lockEvents request.length ++
          [.keyDerived context.feature request.length request.iterations]⟩
      ⟨(.ok (context.keyOf request engine lease), after), engine.lockEvents request.length⟩
      ⟨(.ok (context.keyOf request engine lease), after),
        engine.lockEvents request.length ++
          [.keyDerived context.feature request.length request.iterations]⟩
  | exhausted (hcheck : context.check request = .ok ()) {id : PoolId}
    (hpool : engine.securePool = some id) :
    Derives context request engine
      ⟨(.error (.error (.poolExhausted request.length (engine.memory.pool id).available)),
        { engine with memory := engine.memory.refuse id }),
        [engine.memory.refusal id request.length]⟩
      ⟨(.ok (context.keyOf request engine none), { engine with memory := engine.memory.refuse id }),
        [engine.memory.refusal id request.length] ++
          (.derivingOutsidePool context.feature request.length ::
            engine.lockEvents request.length)⟩
      ⟨(.ok .empty, { engine with memory := engine.memory.refuse id }),
        [engine.memory.refusal id request.length,
          context.givenUp
            (.poolExhausted request.length (engine.memory.pool id).available)]⟩

theorem makeKeyOrEmpty_of_ok {key : SymmetricKey} {after : Engine} {events : List Event}
    (hattempt : context.tryMakeKey request engine = ⟨(.ok key, after), events⟩) :
    context.makeKeyOrEmpty request engine = ⟨(.ok key, after), events⟩ := by
  unfold makeKeyOrEmpty
  rw [hattempt]
  exact Logged.bind_of_silent rfl

theorem makeKeyOrEmpty_of_error {error : Error} {after : Engine} {events : List Event}
    (hattempt : context.tryMakeKey request engine = ⟨(.error (.error error), after), events⟩) :
    context.makeKeyOrEmpty request engine =
      ⟨(.ok .empty, after), events ++ [context.givenUp error]⟩ := by
  unfold makeKeyOrEmpty
  rw [hattempt]
  rfl

section Refused

variable {reason : String} (hcheck : context.check request = .error (.derivation reason))

include hcheck

theorem tryMakeKey_of_refused (engine : Engine) :
    context.tryMakeKey request engine = ⟨(.error (.error (.derivation reason)), engine), []⟩ := by
  unfold tryMakeKey
  rw [hcheck]
  rfl

theorem makeKey_of_refused (engine : Engine) :
    context.makeKey request engine =
      ⟨(.ok .empty, engine), [context.givenUp (.derivation reason)]⟩ := by
  unfold makeKey
  rw [hcheck]
  rfl

theorem makeKeyOrEmpty_of_refused (engine : Engine) :
    context.makeKeyOrEmpty request engine =
      ⟨(.ok .empty, engine), [context.givenUp (.derivation reason)]⟩ :=
  makeKeyOrEmpty_of_error (tryMakeKey_of_refused hcheck engine)

theorem derives_of_refused (engine : Engine) :
    context.Derives request engine (context.tryMakeKey request engine)
      (context.makeKey request engine) (context.makeKeyOrEmpty request engine) := by
  rw [tryMakeKey_of_refused hcheck, makeKey_of_refused hcheck, makeKeyOrEmpty_of_refused hcheck]
  exact .refused reason

end Refused

section Checked

variable (hcheck : context.check request = .ok ())

include hcheck

theorem tryMakeKey_of_buffer {lease : Option Lease} {after : Engine}
    (hbuffer : engine.outputBuffer request.length =
      ⟨(.ok (.zeros engine.memory.toLocking lease request.length), after),
        engine.lockEvents request.length⟩) :
    context.tryMakeKey request engine =
      ⟨(.ok (context.keyOf request engine lease), after),
        engine.lockEvents request.length ++
          [.keyDerived context.feature request.length request.iterations]⟩ := by
  simp only [tryMakeKey, hcheck, hbuffer, bind, fillOrDrop_of_check hcheck]
  rfl

theorem makeKey_of_buffer {lease : Option Lease} {after : Engine}
    (hbuffer : engine.outputBuffer request.length =
      ⟨(.ok (.zeros engine.memory.toLocking lease request.length), after),
        engine.lockEvents request.length⟩) :
    context.makeKey request engine =
      ⟨(.ok (context.keyOf request engine lease), after), engine.lockEvents request.length⟩ := by
  unfold makeKey
  rw [hcheck, hbuffer]
  refine Logged.bind_of_silent ?_
  simp only [fillOrGiveUp, fillOrDrop_of_check hcheck]

/-- Without a pool there is always a key. -/
theorem tryMakeKey_unpooled (hnone : engine.securePool = none) :
    context.tryMakeKey request engine =
      ⟨(.ok (context.keyOf request engine none), engine),
        engine.lockEvents request.length ++
          [.keyDerived context.feature request.length request.iterations]⟩ :=
  tryMakeKey_of_buffer hcheck
    (Engine.outputBuffer_unpooled (length_lt_of_check hcheck) hnone)

theorem makeKeyOutsidePool_of_check (engine : Engine) :
    context.makeKeyOutsidePool request engine =
      ⟨(.ok (context.keyOf request engine none), engine),
        .derivingOutsidePool context.feature request.length ::
          engine.lockEvents request.length⟩ := by
  have henough := SecureArray.shortage?_of_lt (length_lt_of_check hcheck)
  have hlast : context.fillOrGiveUp request
      (.zeros engine.memory.toLocking none request.length) engine =
        pure (.ok (context.keyOf request engine none), engine) := by
    simp only [fillOrGiveUp, fillOrDrop_of_check hcheck]
  unfold makeKeyOutsidePool
  rw [SecureArray.tryZeroed_of_none henough]
  exact congrArg (_ >>= fun _ ↦ ·) (Logged.bind_of_silent hlast)

theorem tryMakeKey_of_failure {failure : Failure} {after : Engine} {events : List Event}
    (hbuffer : engine.outputBuffer request.length = ⟨(.error failure, after), events⟩) :
    context.tryMakeKey request engine = ⟨(.error failure, after), events⟩ := by
  unfold tryMakeKey
  rw [hcheck, hbuffer]
  exact Logged.bind_of_silent rfl

theorem makeKey_of_exhausted {requested available : Nat} {after : Engine} {events : List Event}
    (hbuffer : engine.outputBuffer request.length =
      ⟨(.error (.error (.poolExhausted requested available)), after), events⟩) :
    context.makeKey request engine =
      ⟨(.ok (context.keyOf request after none), after),
        events ++ (.derivingOutsidePool context.feature request.length ::
          after.lockEvents request.length)⟩ := by
  simp only [makeKey, hcheck, hbuffer, bind, makeKeyOutsidePool_of_check hcheck]

theorem derives_of_check (engine : Engine) :
    context.Derives request engine (context.tryMakeKey request engine)
      (context.makeKey request engine) (context.makeKeyOrEmpty request engine) := by
  -- Past the check, whether there is a key is decided by the array for it alone.
  have hbuffers := engine.outputBuffer_buffers (length_lt_of_check hcheck)
  generalize houtput : engine.outputBuffer request.length = output at hbuffers
  cases hbuffers with
  | served lease after =>
    have hattempt := tryMakeKey_of_buffer hcheck houtput
    rw [makeKeyOrEmpty_of_ok hattempt, hattempt, makeKey_of_buffer hcheck houtput]
    exact .served (Pbkdf2.length_bounds_of_check hcheck).1 lease after
  | exhausted hpool =>
    have hattempt := tryMakeKey_of_failure hcheck houtput
    rw [makeKeyOrEmpty_of_error hattempt, hattempt, makeKey_of_exhausted hcheck houtput]
    exact .exhausted hcheck hpool

end Checked

theorem derives (context : KdfContext) (request : KeyRequest) (engine : Engine) :
    context.Derives request engine (context.tryMakeKey request engine)
      (context.makeKey request engine) (context.makeKeyOrEmpty request engine) := by
  rcases Pbkdf2.check_eq_ok_or context.hash request.length request.iterations with
    hcheck | ⟨reason, hcheck⟩
  · exact derives_of_check hcheck engine
  · exact derives_of_refused hcheck engine

/-! ## Agreement -/

/-- A key is made, and it is empty exactly if an error was logged. -/
structure Makes (request : KeyRequest) (outcome : KeyOutcome) (key : SymmetricKey) : Prop where
  result : outcome.value.1 = .ok key
  length : key.material.bytes = [] ∨ key.material.bytes.length = request.length
  empty : key.material.bytes = [] ↔ (Event.errors outcome.events).length = 1
  silent : key.material.bytes ≠ [] → Event.errors outcome.events = []

/-- What the three ways have in common when the pool is exhausted. -/
structure AgreesOutside (request : KeyRequest) (engine : Engine)
    (unpooled attempt making emptying : KeyOutcome) : Prop where
  /-- The key is derived as if there were no pool. -/
  key : ∃ key, making.value.1 = .ok key ∧ unpooled.value.1 = .ok key ∧
    key.material.isPooled = false ∧ key.material.bytes.length = request.length
  empty : emptying.value.1 = .ok .empty
  making : making.value.2 = attempt.value.2
  emptying : emptying.value.2 = attempt.value.2
  /-- Of all pools only the refusals of the one of the engine change. -/
  pools : ∃ id, engine.securePool = some id ∧ ∀ other,
    attempt.value.2.memory.pool other =
      if other = id then
        { engine.memory.pool id with refused := (engine.memory.pool id).refused + 1 }
      else engine.memory.pool other

/-- How the three ways to ask for a key agree. -/
structure Agrees (request : KeyRequest) (engine : Engine)
    (unpooled attempt making emptying : KeyOutcome) : Prop where
  /-- The same key, with or without a lease, and the same engine after it. -/
  derived : ∀ key after, attempt.value = (.ok key, after) →
    making.value = (.ok key, after) ∧ emptying.value = (.ok key, after)
  exhausted : ∀ requested available,
    attempt.value.1 = .error (.error (.poolExhausted requested available)) →
      AgreesOutside request engine unpooled attempt making emptying
  failed : ∀ failure, attempt.value.1 = .error failure →
    (∀ requested available, failure ≠ .error (.poolExhausted requested available)) →
      attempt.value.2 = engine ∧ making.value = (.ok .empty, engine) ∧
        emptying.value = (.ok .empty, engine)
  making : ∃ key, Makes request making key
  emptying : ∃ key, Makes request emptying key

theorem makes_empty {outcome : KeyOutcome} (hresult : outcome.value.1 = .ok .empty)
    (herror : (Event.errors outcome.events).length = 1) : Makes request outcome .empty where
  result := hresult
  length := .inl rfl
  empty := ⟨fun _ ↦ herror, fun _ ↦ rfl⟩
  silent := nofun

theorem makes_keyWith (hpositive : 0 < request.length) {locking : Locking}
    {lease : Option Lease} {outcome : KeyOutcome}
    (hresult : outcome.value.1 = .ok (context.keyWith request locking lease))
    (hsilent : Event.errors outcome.events = []) :
    Makes request outcome (context.keyWith request locking lease) where
  result := hresult
  length := .inr (context.length_keyBytes request)
  empty := by
    have hbytes : context.keyBytes request ≠ [] := by
      rw [← List.length_pos_iff, length_keyBytes]
      exact hpositive
    simp [hsilent, keyWith, hbytes]
  silent _ := hsilent

/-- Of an engine whose pool exists, the three ways to ask for a key agree. -/
theorem derivations_agree (context : KdfContext) (request : KeyRequest) {engine : Engine}
    (hpool : ∀ id, engine.securePool = some id → id < engine.memory.pools.length) :
    Agrees request engine (context.tryMakeKey request { engine with securePool := none })
      (context.tryMakeKey request engine) (context.makeKey request engine)
      (context.makeKeyOrEmpty request engine) := by
  have hderives := context.derives request engine
  generalize context.tryMakeKey request engine = attempt at hderives ⊢
  generalize context.makeKey request engine = making at hderives ⊢
  generalize context.makeKeyOrEmpty request engine = emptying at hderives ⊢
  cases hderives with
  | refused reason =>
    exact {
      derived := nofun
      exhausted := nofun
      failed := fun _ _ _ ↦ ⟨rfl, rfl, rfl⟩
      making := ⟨.empty, makes_empty rfl rfl⟩
      emptying := ⟨.empty, makes_empty rfl rfl⟩ }
  | served hpositive lease after =>
    have hlocks := engine.errors_lockEvents request.length
    exact {
      derived := by
        rintro _ _ ⟨⟩
        exact ⟨rfl, rfl⟩
      exhausted := nofun
      failed := nofun
      making := ⟨_, makes_keyWith hpositive rfl hlocks⟩
      emptying := ⟨_, makes_keyWith hpositive rfl (by rw [Event.errors_append, hlocks]; rfl)⟩ }
  | exhausted hcheck hid =>
    have hpositive := (Pbkdf2.length_bounds_of_check hcheck).1
    exact {
      derived := nofun
      exhausted := by
        intro requested available hexhausted
        refine ⟨⟨_, rfl, ?_, rfl, context.length_keyBytes request⟩, rfl, rfl, rfl, ⟨_, hid, ?_⟩⟩
        · rw [tryMakeKey_unpooled hcheck rfl]
        · exact Memory.pool_setPool (hpool _ hid) _
      failed := by
        rintro _ ⟨⟩ hother
        exact absurd rfl (hother _ _)
      making := ⟨_, makes_keyWith hpositive rfl (engine.errors_lockEvents request.length)⟩
      emptying := ⟨.empty, makes_empty rfl rfl⟩ }

/-- Of a pool of ten bytes a key of twenty bytes is refused, and derived outside. -/
theorem derivations_agree_twenty_of_ten :
    let context := new .pbkdf2Sha1 .sha1
    let request : KeyRequest :=
      { secret := [1, 2, 3], salt := [4, 5], length := 20, iterations := 2 }
    let engine : Engine := { securePool := some 0, memory := { pools := [{ capacity := 10 }] } }
    (∀ id, engine.securePool = some id → id < engine.memory.pools.length) ∧
      AgreesOutside request engine (context.tryMakeKey request { engine with securePool := none })
        (context.tryMakeKey request engine) (context.makeKey request engine)
        (context.makeKeyOrEmpty request engine) := by
  have hpool : ∀ id, (some 0 : Option PoolId) = some id → id < 1 := by
    rintro _ ⟨⟩
    exact Nat.one_pos
  exact ⟨hpool, (derivations_agree _ _ hpool).exhausted 20 10 rfl⟩

end KdfContext

end StreamCrypto
