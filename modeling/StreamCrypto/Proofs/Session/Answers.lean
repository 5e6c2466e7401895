import StreamCrypto.Proofs.Session.Charges

/-!
# What pools answer

In every session that can be reached, a pool is charged for exactly the leases that are alive
(`Metered`), and a reservation or an allocation is refused exactly if it does not fit beside them
(`Answered`). The answers are the replies of the commands, and what a refusal leaves behind is said
of the whole session.
-/

namespace StreamCrypto.Session

open Procedure

variable {session : Session} {source : PoolSource} {id : PoolId} {size : Nat}

/-- A session after one of its pools has refused something. -/
def refusing (session : Session) (id : PoolId) : Session :=
  { session with engine := { session.engine with memory := session.engine.memory.refuse id } }

/-- A session after one of its pools has granted something. -/
def granting (session : Session) (id : PoolId) (size : Nat) : Session :=
  { session with engine := { session.engine with memory := session.engine.memory.grant id size } }

/-! ## Reservations and allocations -/

/-- A reservation goes on with the answer of the memory. -/
theorem value_reserve (hpool : session.poolOf? source = some id) {result : Except Error Lease}
    {memory : Memory} (hreserve : (session.engine.memory.reserve id size).value = (result, memory))
    (target : String) :
    (session.run (.pool (.reserve source target size))).value =
      ((do
        let lease ← settleAs Failure.error result
        keep target (.lease lease)
        pure (.lease lease.size) : Procedure Reply).run.run
          { session with engine := { session.engine with memory } }).value := by
  change ((runPool (.reserve source target size)).run.run session).value = _
  unfold runPool
  rw [value_bind_of_ok (value_findPool_of_some hpool),
    value_bind_of_ok (value_onMemory _ session), hreserve]

theorem value_allocate (hpool : session.poolOf? source = some id)
    {result : Except Failure SecureArray} {memory : Memory}
    (hallocate : (session.engine.memory.allocate id size).value = (result, memory))
    (target : String) :
    (session.run (.pool (.allocate source target size))).value =
      ((do keepArray target (← settle result) : Procedure Reply).run.run
        { session with engine := { session.engine with memory } }).value := by
  change ((runPool (.allocate source target size)).run.run session).value = _
  unfold runPool
  rw [value_bind_of_ok (value_findPool_of_some hpool),
    value_bind_of_ok (value_onMemory _ session), hallocate]

theorem value_reserve_of_full (hpool : session.poolOf? source = some id)
    (hfull : (session.pool id).available < size) (target : String) :
    (session.run (.pool (.reserve source target size))).value =
      (.error (.failure (.error (.poolExhausted size (session.pool id).available))),
        session.refusing id) :=
  value_reserve hpool (Memory.reserve_of_full hfull) target

theorem value_reserve_of_free (hpool : session.poolOf? source = some id)
    (hfree : size ≤ (session.pool id).available) (target : String) :
    (session.run (.pool (.reserve source target size))).value =
      (.ok (.lease size), (session.granting id size).put target (.lease ⟨id, size⟩)) :=
  value_reserve hpool (Memory.reserve_of_free hfree) target

theorem value_allocate_of_full (hpool : session.poolOf? source = some id)
    (hfull : (session.pool id).available < size) (target : String) :
    (session.run (.pool (.allocate source target size))).value =
      (.error (.failure (.error (.poolExhausted size (session.pool id).available))),
        session.refusing id) :=
  value_allocate hpool (Memory.allocate_of_full hfull) target

theorem value_allocate_of_free (hpool : session.poolOf? source = some id)
    (hfree : size ≤ (session.pool id).available) (hshort : size < SecureArray.lengthLimit)
    (target : String) :
    (session.run (.pool (.allocate source target size))).value =
      (.ok (.array (.zeros session.engine.memory.toLocking (some ⟨id, size⟩) size)),
        (session.granting id size).put target
          (.array (.zeros session.engine.memory.toLocking (some ⟨id, size⟩) size))) := by
  have hallocate := Memory.allocate_of_free hfree
  rw [if_neg (Nat.not_le.2 hshort)] at hallocate
  exact value_allocate hpool hallocate target

/-- An array that is too long for any memory: the reservation has been granted and taken back. -/
theorem value_allocate_of_long (hpool : session.poolOf? source = some id)
    (hfree : size ≤ (session.pool id).available) (hlong : SecureArray.lengthLimit ≤ size)
    (target : String) :
    (session.run (.pool (.allocate source target size))).value =
      (.error (.failure (.fault .capacityOverflow)),
        (session.granting id size).discard (some (.lease ⟨id, size⟩))) := by
  have hallocate := Memory.allocate_of_free hfree
  rw [if_pos hlong] at hallocate
  exact value_allocate hpool hallocate target

/-! ## Copies and shorter arrays -/

/-- Nothing is released where nothing was charged. -/
theorem engine_put {name : String} (hfree : (session.slots.get? name).bind Object.lease? = none)
    (object : Object) : (session.put name object).engine = session.engine := by
  change session.engine.release ((session.slots.get? name).bind Object.lease?) = session.engine
  rw [hfree]
  rfl

/-- Showing an array changes nothing. -/
theorem engine_truncate (session : Session) (name : String) (length : Nat) :
    (session.run (.array (.truncate name length))).value.2.engine = session.engine := by
  have hensures : Ensures (fun current ↦ current.engine = session.engine)
      (runArray (.truncate name length)) (fun _ current ↦ current.engine = session.engine)
      (fun current ↦ current.engine = session.engine) := by
    apply ensures_bind (ensures_find (fun _ _ _ h _ _ ↦ h) fun _ h _ ↦ h)
    intro array
    apply ensures_bind (ensures_settleAs (fun _ _ h _ ↦ h) fun _ _ h _ ↦ h)
    intro changed
    refine ensures_bind (M := fun _ current ↦ current.engine = session.engine)
      (ensures_modify ?_) fun _ ↦ ensures_pure fun _ h ↦ h
    intro current hengine
    exact hengine
  exact hensures.after rfl

/-- A copy that replaces nothing charged. -/
theorem engine_copy {α β : Type} (select : Object → Option α) (copy : α → Locking → Logged β)
    (wrap : β → Object) (reply : β → Reply) (name : String) {target : String}
    (hfree : (session.slots.get? target).bind Object.lease? = none) :
    Ensures (· = session)
      (do
        let copied ← making (copy (← find select name))
        keep target (wrap copied)
        pure (reply copied))
      (fun _ current ↦ current.engine = session.engine)
      fun current ↦ current.engine = session.engine := by
  apply ensures_bind (M := fun _ current ↦ current = session)
    (ensures_find (fun _ _ _ h _ _ ↦ h) fun _ h _ ↦ h ▸ rfl)
  intro a
  refine ensures_making_bind fun locking ↦ ?_
  refine ensures_bind (M := fun _ current ↦ current.engine = session.engine)
    (ensures_modify ?_) fun _ ↦ ensures_pure fun _ hengine ↦ hengine
  rintro current rfl
  exact engine_put hfree _

theorem engine_cloneArray {target : String}
    (hfree : (session.slots.get? target).bind Object.lease? = none) (name : String) :
    (session.run (.array (.clone name target))).value.2.engine = session.engine :=
  (engine_copy asArray SecureArray.copy .array .array name hfree).after rfl

theorem engine_cloneKey {target : String}
    (hfree : (session.slots.get? target).bind Object.lease? = none) (name : String) :
    (session.run (.key (.clone name target))).value.2.engine = session.engine :=
  (engine_copy asKey SymmetricKey.copy .key (fun key ↦ .pooled key.material.isPooled) name
    hfree).after rfl

/-! ## Sessions that can be reached -/

/-- A pool is charged for the leases that are alive, and has counted what was asked of it. -/
structure Metered (reservations : List Reservation) (session : Session) (id : PoolId) : Prop where
  inUse : (session.pool id).inUse = session.charge id
  fits : session.charge id ≤ (session.pool id).capacity
  available : (session.pool id).available = (session.pool id).capacity - session.charge id
  granted : (session.pool id).granted = countOf id true reservations
  refused : (session.pool id).refused = countOf id false reservations

/-- What a command that asks a pool for `size` bytes is answered, if they do not fit beside what
is charged already, and if they do: then the lease for them is in the target slot. -/
structure Answered (session : Session) (id : PoolId) (source : PoolSource) (target : String)
    (size : Nat) : Prop where
  reserve_of_full : (session.pool id).capacity < session.charge id + size →
    (session.run (.pool (.reserve source target size))).value =
      (.error (.failure (.error (.poolExhausted size
        ((session.pool id).capacity - session.charge id)))), session.refusing id)
  allocate_of_full : (session.pool id).capacity < session.charge id + size →
    (session.run (.pool (.allocate source target size))).value =
      (.error (.failure (.error (.poolExhausted size
        ((session.pool id).capacity - session.charge id)))), session.refusing id)
  reserve_of_free : session.charge id + size ≤ (session.pool id).capacity →
    (session.run (.pool (.reserve source target size))).value =
      (.ok (.lease size), (session.granting id size).put target (.lease ⟨id, size⟩))
  allocate_of_free : session.charge id + size ≤ (session.pool id).capacity →
    size < SecureArray.lengthLimit →
    (session.run (.pool (.allocate source target size))).value =
      (.ok (.array (.zeros session.engine.memory.toLocking (some ⟨id, size⟩) size)),
        (session.granting id size).put target
          (.array (.zeros session.engine.memory.toLocking (some ⟨id, size⟩) size)))
  allocate_of_long : session.charge id + size ≤ (session.pool id).capacity →
    SecureArray.lengthLimit ≤ size →
    (session.run (.pool (.allocate source target size))).value.1 =
        .error (.failure (.fault .capacityOverflow)) ∧
      (session.run (.pool (.allocate source target size))).value.2.slots = session.slots ∧
      ∀ other, ((session.run (.pool (.allocate source target size))).value.2.pool other).inUse =
        (session.pool other).inUse

theorem metered_of_accounts {reservations : List Reservation} {capacities : List Nat}
    (haccounts : Accounts ⟨capacities, reservations⟩ [] session) (id : PoolId) :
    Metered reservations session id where
  inUse := haccounts.balanced.charged id
  fits := by
    have hfits := haccounts.balanced.fits id
    rw [haccounts.balanced.charged] at hfits
    exact hfits
  available := haccounts.balanced.available_eq id
  granted := haccounts.balanced.granted id
  refused := haccounts.balanced.refused id

theorem answered_of_accounts {ledger : Ledger} (haccounts : Accounts ledger [] session)
    (hpool : session.poolOf? source = some id) (target : String) (size : Nat) :
    Answered session id source target size := by
  have havailable : (session.pool id).available =
      (session.pool id).capacity - session.charge id := haccounts.balanced.available_eq id
  have hiff : (session.pool id).available < size ↔
      (session.pool id).capacity < session.charge id + size :=
    haccounts.balanced.available_lt_iff id size
  have hfree (hroom : session.charge id + size ≤ (session.pool id).capacity) :
      size ≤ (session.pool id).available :=
    Nat.not_lt.1 fun hfull ↦ Nat.not_le.2 (hiff.1 hfull) hroom
  constructor
  · intro hfull
    rw [value_reserve_of_full hpool (hiff.2 hfull), havailable]
  · intro hfull
    rw [value_allocate_of_full hpool (hiff.2 hfull), havailable]
  · intro hroom
    exact value_reserve_of_free hpool (hfree hroom) target
  · intro hroom hshort
    exact value_allocate_of_free hpool (hfree hroom) hshort target
  · intro hroom hlong
    rw [value_allocate_of_long hpool (hfree hroom) hlong]
    exact ⟨rfl, rfl, Memory.inUse_release_grant (haccounts.lt_of_poolOf? hpool) size⟩

/-- No command changes what a pool may be charged. -/
theorem Accounts.capacity_run {ledger : Ledger} (haccounts : Accounts ledger [] session)
    (command : Command) (hid : id < session.engine.memory.pools.length) :
    ((session.run command).value.2.pool id).capacity = (session.pool id).capacity := by
  have hafter := (haccounts.withCapacities.run command).balanced.capacities
  have hprefix : session.engine.memory.pools.map Pool.capacity <+:
      (session.run command).value.2.engine.memory.pools.map Pool.capacity := by
    cases hreservation : session.reservation? command with
    | none =>
      rw [hreservation] at hafter
      exact hafter
    | some reservation =>
      rw [hreservation] at hafter
      exact hafter
  obtain ⟨rest, hrest⟩ := hprefix
  have hlength : id < (session.engine.memory.pools.map Pool.capacity).length := by
    rw [List.length_map]
    exact hid
  unfold Session.pool
  rw [Memory.capacity_pool, Memory.capacity_pool, ← hrest, List.getElem?_append_left hlength]

/-- A command that leaves the engine alone leaves every charge alone. -/
theorem Accounts.charge_run {ledger : Ledger} (haccounts : Accounts ledger [] session)
    {command : Command} (hengine : (session.run command).value.2.engine = session.engine)
    (id : PoolId) : (session.run command).value.2.charge id = session.charge id := by
  calc
    _ = ((session.run command).value.2.engine.memory.pool id).inUse :=
      ((haccounts.run command).balanced.charged id).symm
    _ = (session.engine.memory.pool id).inUse := by rw [hengine]
    _ = session.charge id := haccounts.balanced.charged id

/-- Dropping an object gives back what its lease charges, and no more. -/
theorem Accounts.inUse_drop {ledger : Ledger} (haccounts : Accounts ledger [] session)
    (name : String) (id : PoolId) :
    ((session.run (.drop name)).value.2.pool id).inUse +
        chargeOf id ((session.slots.get? name).bind Object.lease?).toList =
      (session.pool id).inUse := by
  have hperm := Slots.leases_perm haccounts.names name
  calc
    _ = chargeOf id (session.slots.erase name).leases +
        chargeOf id ((session.slots.get? name).bind Object.lease?).toList :=
      congrArg (· + _) ((haccounts.drop name).balanced.charged id)
    _ = chargeOf id session.leases := by
      rw [Nat.add_comm, ← chargeOf_append]
      exact (chargeOf_perm id hperm).symm
    _ = (session.pool id).inUse := (haccounts.balanced.charged id).symm

/-- The answer that a request gets is decided by the charge. -/
theorem Accounts.reservation?_eq {ledger : Ledger} (haccounts : Accounts ledger [] session)
    {command : Command} (hrequest : session.request? command = some (id, size)) :
    session.reservation? command =
      some ⟨id, size, decide (session.charge id + size ≤ (session.pool id).capacity)⟩ := by
  have hiff : (session.pool id).available < size ↔
      (session.pool id).capacity < session.charge id + size :=
    haccounts.balanced.available_lt_iff id size
  unfold reservation?
  rw [hrequest, Option.map_some]
  rcases Nat.lt_or_ge (session.pool id).available size with hfull | hfree
  · rw [decide_eq_false (Nat.not_le.2 (hiff.1 hfull))]
    exact congrArg some (Memory.asked_of_full hfull)
  · rw [decide_eq_true (Nat.not_lt.1 fun hlt ↦ Nat.not_lt.2 hfree (hiff.2 hlt))]
    exact congrArg some (Memory.asked_of_free hfree)

/-- Pool accounting is exact in every session that can be reached. -/
theorem reached_pool_exact {reservations : List Reservation} {session : Session}
    (hreached : Reached reservations session) (id : PoolId) :
    Metered reservations session id ∧
      (∀ source target size, session.poolOf? source = some id →
        Answered session id source target size) ∧
      (∀ command size, session.request? command = some (id, size) →
        session.reservation? command =
          some ⟨id, size, decide (session.charge id + size ≤ (session.pool id).capacity)⟩) ∧
      (∀ command, id < session.engine.memory.pools.length →
        ((session.run command).value.2.pool id).capacity = (session.pool id).capacity) ∧
      (∀ name length, (session.run (.array (.truncate name length))).value.2.charge id =
        session.charge id) ∧
      (∀ name target, (session.slots.get? target).bind Object.lease? = none →
        (session.run (.array (.clone name target))).value.2.charge id = session.charge id ∧
        (session.run (.key (.clone name target))).value.2.charge id = session.charge id) ∧
      (∀ name, ((session.run (.drop name)).value.2.pool id).inUse +
        chargeOf id ((session.slots.get? name).bind Object.lease?).toList =
          (session.pool id).inUse) ∧
      ((∀ slot ∈ session.slots, slot.2.lease? = none) → (session.pool id).inUse = 0) := by
  have haccounts := hreached.accounts
  have hmetered := metered_of_accounts haccounts id
  refine ⟨hmetered, ?_, ?_, ?_, ?_, ?_, fun name ↦ haccounts.inUse_drop name id, ?_⟩
  · intro source target size hpool
    exact answered_of_accounts haccounts hpool target size
  · intro command size hrequest
    exact haccounts.reservation?_eq hrequest
  · intro command hid
    exact haccounts.capacity_run command hid
  · intro name length
    exact haccounts.charge_run (engine_truncate session name length) id
  · intro name target hfree
    exact ⟨haccounts.charge_run (engine_cloneArray hfree name) id,
      haccounts.charge_run (engine_cloneKey hfree name) id⟩
  · intro hdropped
    have hleases : session.leases = [] := List.filterMap_eq_nil_iff.2 hdropped
    rw [hmetered.inUse, charge, hleases, chargeOf_nil]

/-- Sixty bytes of a hundred are reserved, so that fifty more do not fit until they are given
back. -/
theorem reached_pool_exact_sixty_of_hundred :
    ∃ reservations session, Reached reservations session ∧ (session.pool 0).inUse = 60 ∧
      (session.run (.pool (.allocate (.slot "pool") "array" 50))).value.1 =
        .error (.failure (.error (.poolExhausted 50 40))) ∧
      ((session.run (.drop "lease")).value.2.pool 0).inUse + 60 = 60 := by
  have hreached := (Reached.fresh.step (.pool (.new "pool" 100))).step
    (.pool (.reserve (.slot "pool") "lease" 60))
  obtain ⟨hmetered, hanswered, -, -, -, -, hdropped, -⟩ := reached_pool_exact hreached 0
  have hrefused := (hanswered (.slot "pool") "array" 50 rfl).allocate_of_full (by decide)
  exact ⟨_, _, hreached, hmetered.inUse.trans rfl, congrArg Prod.fst hrefused,
    (hdropped "lease").trans rfl⟩

end StreamCrypto.Session
