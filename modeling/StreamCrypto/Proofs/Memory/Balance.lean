import Mathlib.Algebra.GroupWithZero.Nat
import StreamCrypto.Memory.Basic
import StreamCrypto.Proofs.Memory.Locking

/-!
# The balance of pools

Memory is balanced when every pool is charged for exactly the leases that are alive and has
counted exactly the reservations that were asked of it. What a reservation can do is said once,
by `Settles`: it is refused, or granted, or granted and taken back at once because there is no
array for it. All three keep the balance (`Balanced.settle`). How leases are held is not the
subject of this module; only the list of those alive matters here.
-/

namespace StreamCrypto

/-- What leases charge to a pool. -/
def chargeOf (id : PoolId) (leases : List Lease) : Nat :=
  ((leases.filter fun lease ↦ lease.pool = id).map Lease.size).sum

@[simp] theorem chargeOf_nil (id : PoolId) : chargeOf id [] = 0 := rfl

theorem chargeOf_cons (id : PoolId) (lease : Lease) (leases : List Lease) :
    chargeOf id (lease :: leases) =
      (if lease.pool = id then lease.size else 0) + chargeOf id leases := by
  unfold chargeOf
  by_cases hpool : lease.pool = id
  · simp [hpool]
  · simp [hpool]

theorem chargeOf_append (id : PoolId) (first second : List Lease) :
    chargeOf id (first ++ second) = chargeOf id first + chargeOf id second := by
  simp only [chargeOf, List.filter_append, List.map_append, List.sum_append]

theorem chargeOf_perm (id : PoolId) {first second : List Lease} (hperm : first.Perm second) :
    chargeOf id first = chargeOf id second :=
  ((hperm.filter _).map _).sum_nat

/-- A reservation that was asked of a pool. -/
structure Reservation where
  pool : PoolId
  size : Nat
  granted : Bool
  deriving DecidableEq, Repr

/-- How many of the reservations were granted by a pool, or how many it refused. -/
def countOf (id : PoolId) (granted : Bool) (reservations : List Reservation) : Nat :=
  reservations.countP fun reservation ↦ reservation.pool = id ∧ reservation.granted = granted

theorem countOf_concat (id : PoolId) (granted : Bool) (reservations : List Reservation)
    (last : Reservation) : countOf id granted (reservations ++ [last]) =
      countOf id granted reservations +
        if last.pool = id ∧ last.granted = granted then 1 else 0 := by
  simp [countOf, List.countP_append, List.countP_cons]

/-- What is known of the pools without looking at them: what the first of them may be charged,
and what was asked of all of them. -/
structure Ledger where
  capacities : List Nat
  reservations : List Reservation

namespace Ledger

def note (ledger : Ledger) (reservation : Reservation) : Ledger :=
  { ledger with reservations := ledger.reservations ++ [reservation] }

/-- The ledger after at most one more reservation. -/
def noteAny (ledger : Ledger) : Option Reservation → Ledger
  | none => ledger
  | some reservation => ledger.note reservation

end Ledger

namespace Memory

variable {memory : Memory} {id : PoolId} {size : Nat}

theorem pool_setPool (hid : id < memory.pools.length) (pool : Pool) (other : PoolId) :
    (memory.setPool id pool).pool other = if other = id then pool else memory.pool other := by
  by_cases hother : other = id
  · subst hother
    simp [Memory.pool, setPool, hid]
  · have hne : id ≠ other := fun h ↦ hother h.symm
    simp [Memory.pool, setPool, List.getD_eq_getElem?_getD, hother, hne]

theorem length_setPool (memory : Memory) (id : PoolId) (pool : Pool) :
    (memory.setPool id pool).pools.length = memory.pools.length :=
  List.length_set

theorem length_releaseAny (memory : Memory) (lease : Option Lease) :
    (memory.releaseAny lease).pools.length = memory.pools.length := by
  cases lease with
  | none => rfl
  | some lease => exact length_setPool _ _ _

theorem pageLocking_releaseAny (memory : Memory) (lease : Option Lease) :
    (memory.releaseAny lease).pageLocking = memory.pageLocking := by
  cases lease with
  | none => rfl
  | some lease => rfl

theorem pool_newPool (memory : Memory) (capacity : Nat) (other : PoolId) :
    (memory.newPool capacity).2.pool other =
      if other = memory.pools.length then { capacity } else memory.pool other := by
  simp only [Memory.pool, newPool, List.getD_eq_getElem?_getD, List.getElem?_append]
  rcases Nat.lt_trichotomy other memory.pools.length with hlt | heq | hgt
  · simp [hlt, Nat.ne_of_lt hlt]
  · simp [heq]
  · have hnone : [({ capacity } : Pool)][other - memory.pools.length]? = none := by
      rw [List.getElem?_eq_none_iff, List.length_singleton]
      omega
    simp [Nat.lt_asymm hgt, Nat.ne_of_gt hgt, hnone]

theorem capacity_pool (memory : Memory) (id : PoolId) :
    (memory.pool id).capacity = (memory.pools.map Pool.capacity)[id]?.getD 0 := by
  rw [Memory.pool, List.getD_eq_getElem?_getD, List.getElem?_map]
  cases memory.pools[id]? with
  | none => rfl
  | some pool => rfl

/-! ## What a reservation can do -/

/-- A reservation with the answer that its pool gives. -/
def asked (memory : Memory) (id : PoolId) (size : Nat) : Reservation :=
  ⟨id, size, ((memory.pool id).reserve size).value.1.isOk⟩

theorem asked_of_full (hfull : (memory.pool id).available < size) :
    memory.asked id size = ⟨id, size, false⟩ := by
  simp [asked, Pool.reserve, hfull, Except.toBool]

theorem asked_of_free (hfree : size ≤ (memory.pool id).available) :
    memory.asked id size = ⟨id, size, true⟩ := by
  simp [asked, Pool.reserve, Nat.not_lt.2 hfree, Except.toBool]

/-- A pool after it has refused a reservation. -/
def refuse (memory : Memory) (id : PoolId) : Memory :=
  memory.setPool id { memory.pool id with refused := (memory.pool id).refused + 1 }

/-- A pool after it has granted a reservation. -/
def grant (memory : Memory) (id : PoolId) (size : Nat) : Memory :=
  memory.setPool id { memory.pool id with
    inUse := (memory.pool id).inUse + size, granted := (memory.pool id).granted + 1 }

/-- A charge that is taken back leaves no trace in what is in use. -/
theorem inUse_release_grant (hid : id < memory.pools.length) (size : Nat) (other : PoolId) :
    (((memory.grant id size).release ⟨id, size⟩).pool other).inUse =
      (memory.pool other).inUse := by
  have hgrant : id < (memory.grant id size).pools.length := by
    rw [grant, length_setPool]
    exact hid
  rw [release, pool_setPool hgrant]
  split
  · next h =>
    rw [h, grant, pool_setPool hid, if_pos rfl]
    exact Nat.add_sub_cancel _ _
  · next h => rw [grant, pool_setPool hid, if_neg h]

/-- The lease that is left of a reservation, if any, and the memory after it. -/
inductive Settles (memory : Memory) (id : PoolId) (size : Nat) : Option Lease → Memory → Prop
  | refused (hfull : (memory.pool id).available < size) :
    Settles memory id size none (memory.refuse id)
  | granted (hfree : size ≤ (memory.pool id).available) :
    Settles memory id size (some ⟨id, size⟩) (memory.grant id size)
  | dropped (hfree : size ≤ (memory.pool id).available) :
    Settles memory id size none ((memory.grant id size).release ⟨id, size⟩)

theorem Settles.length_pools {lease : Option Lease} {after : Memory}
    (hsettles : memory.Settles id size lease after) :
    after.pools.length = memory.pools.length := by
  cases hsettles with
  | refused => exact length_setPool _ _ _
  | granted => exact length_setPool _ _ _
  | dropped => exact (length_setPool _ _ _).trans (length_setPool _ _ _)

theorem reserve_of_full (hfull : (memory.pool id).available < size) :
    (memory.reserve id size).value =
      (.error (.poolExhausted size (memory.pool id).available), memory.refuse id) := by
  simp [reserve, Pool.reserve, hfull, refuse, Except.map]

theorem reserve_of_free (hfree : size ≤ (memory.pool id).available) :
    (memory.reserve id size).value = (.ok ⟨id, size⟩, memory.grant id size) := by
  simp [reserve, Pool.reserve, Nat.not_lt.2 hfree, grant, Except.map]

theorem reserve_settles (memory : Memory) (id : PoolId) (size : Nat) :
    memory.Settles id size (memory.reserve id size).value.1.toOption
      (memory.reserve id size).value.2 := by
  rcases Nat.lt_or_ge (memory.pool id).available size with hfull | hfree
  · rw [reserve_of_full hfull]
    exact .refused hfull
  · rw [reserve_of_free hfree]
    exact .granted hfree

theorem leased_of_long (hlong : SecureArray.lengthLimit ≤ size) (lease : Lease) :
    memory.leased size lease = pure (.error .capacityOverflow, memory.release lease) := by
  unfold leased
  rw [SecureArray.zeroedWith_of_long hlong]
  rfl

theorem leased_of_short (hshort : size < SecureArray.lengthLimit) (lease : Lease) :
    memory.leased size lease =
      ⟨(.ok (.zeros memory.toLocking (some lease) size), memory),
        (memory.toLocking.lock size).events⟩ := by
  unfold leased
  rw [SecureArray.zeroedWith_of_short hshort]
  exact Logged.bind_of_silent rfl

theorem allocate_of_full (hfull : (memory.pool id).available < size) :
    (memory.allocate id size).value =
      (.error (.error (.poolExhausted size (memory.pool id).available)), memory.refuse id) := by
  rw [allocate, Logged.value_bind, reserve_of_full hfull]
  rfl

theorem allocate_of_free (hfree : size ≤ (memory.pool id).available) :
    (memory.allocate id size).value =
      if SecureArray.lengthLimit ≤ size then
        (.error (.fault .capacityOverflow), (memory.grant id size).release ⟨id, size⟩)
      else
        (.ok (.zeros memory.toLocking (some ⟨id, size⟩) size), memory.grant id size) := by
  rw [allocate, Logged.value_bind, reserve_of_free hfree]
  rcases Nat.lt_or_ge size SecureArray.lengthLimit with hshort | hlong
  · simp only [leased_of_short hshort, Nat.not_le.2 hshort, if_false]
    rfl
  · simp only [leased_of_long hlong, hlong, if_true]
    rfl

theorem allocate_settles (memory : Memory) (id : PoolId) (size : Nat) :
    memory.Settles id size ((memory.allocate id size).value.1.toOption.bind SecureArray.lease)
      (memory.allocate id size).value.2 := by
  rcases Nat.lt_or_ge (memory.pool id).available size with hfull | hfree
  · rw [allocate_of_full hfull]
    exact .refused hfull
  · rw [allocate_of_free hfree]
    split
    · exact .dropped hfree
    · exact .granted hfree

/-! ## Balanced memory -/

/-- Every pool is charged for the leases that are alive, within its capacity, and has counted
what the ledger lists. -/
structure Balanced (ledger : Ledger) (leases : List Lease) (memory : Memory) : Prop where
  exist : ∀ lease ∈ leases, lease.pool < memory.pools.length
  charged : ∀ id, (memory.pool id).inUse = chargeOf id leases
  fits : ∀ id, (memory.pool id).inUse ≤ (memory.pool id).capacity
  granted : ∀ id, (memory.pool id).granted = countOf id true ledger.reservations
  refused : ∀ id, (memory.pool id).refused = countOf id false ledger.reservations
  capacities : ledger.capacities <+: memory.pools.map Pool.capacity

namespace Balanced

variable {ledger : Ledger} {leases : List Lease}

theorem empty (locking : Locking) : Balanced ⟨[], []⟩ [] { toLocking := locking } where
  exist := by simp
  charged := by simp [Memory.pool]
  fits := by simp [Memory.pool]
  granted := by simp [Memory.pool, countOf]
  refused := by simp [Memory.pool, countOf]
  capacities := List.nil_prefix

theorem perm (hbalanced : Balanced ledger leases memory) {others : List Lease}
    (hperm : leases.Perm others) : Balanced ledger others memory where
  exist lease hlease := hbalanced.exist lease (hperm.mem_iff.2 hlease)
  charged id := by rw [hbalanced.charged, chargeOf_perm id hperm]
  fits := hbalanced.fits
  granted := hbalanced.granted
  refused := hbalanced.refused
  capacities := hbalanced.capacities

/-- How pages are locked takes no part. -/
theorem withLocking (hbalanced : Balanced ledger leases memory) {locking : Locking} :
    Balanced ledger leases { memory with toLocking := locking } where
  exist := hbalanced.exist
  charged := hbalanced.charged
  fits := hbalanced.fits
  granted := hbalanced.granted
  refused := hbalanced.refused
  capacities := hbalanced.capacities

/-- The ledger may know the capacities of all pools. -/
theorem withCapacities (hbalanced : Balanced ledger leases memory) :
    Balanced { ledger with capacities := memory.pools.map Pool.capacity } leases memory where
  exist := hbalanced.exist
  charged := hbalanced.charged
  fits := hbalanced.fits
  granted := hbalanced.granted
  refused := hbalanced.refused
  capacities := List.prefix_refl _

/-- One pool changes, but not its capacity, and the leases and the ledger change for it alone. -/
theorem setPool (hbalanced : Balanced ledger leases memory) (hid : id < memory.pools.length)
    {reservations : List Reservation} {others : List Lease} {pool : Pool}
    (hexist : ∀ lease ∈ others, lease.pool < memory.pools.length)
    (hcapacity : pool.capacity = (memory.pool id).capacity)
    (hcharged : pool.inUse = chargeOf id others) (hfits : pool.inUse ≤ pool.capacity)
    (hgranted : pool.granted = countOf id true reservations)
    (hrefused : pool.refused = countOf id false reservations)
    (hrest : ∀ other, other ≠ id → chargeOf other others = chargeOf other leases ∧
      ∀ granted, countOf other granted reservations = countOf other granted ledger.reservations) :
    Balanced { ledger with reservations } others (memory.setPool id pool) := by
  have hsame : (memory.pools.set id pool).map Pool.capacity =
      memory.pools.map Pool.capacity := by
    have hat : memory.pool id = memory.pools[id] := by
      simp [Memory.pool, List.getD_eq_getElem?_getD, List.getElem?_eq_getElem hid]
    rw [List.map_set, hcapacity, hat, ← List.getElem_map Pool.capacity, List.set_getElem_self]
    simpa using hid
  constructor
  · intro lease hlease
    rw [length_setPool]
    exact hexist lease hlease
  · intro other
    rw [pool_setPool hid]
    split
    · next h => rw [h, hcharged]
    · next h => rw [hbalanced.charged, (hrest other h).1]
  · intro other
    rw [pool_setPool hid]
    split
    · exact hfits
    · exact hbalanced.fits other
  · intro other
    rw [pool_setPool hid]
    split
    · next h => rw [h, hgranted]
    · next h => rw [hbalanced.granted, (hrest other h).2]
  · intro other
    rw [pool_setPool hid]
    split
    · next h => rw [h, hrefused]
    · next h => rw [hbalanced.refused, (hrest other h).2]
  · change ledger.capacities <+: (memory.pools.set id pool).map Pool.capacity
    rw [hsame]
    exact hbalanced.capacities

theorem refuse (hbalanced : Balanced ledger leases memory) (hid : id < memory.pools.length)
    (size : Nat) : Balanced (ledger.note ⟨id, size, false⟩) leases (memory.refuse id) := by
  refine hbalanced.setPool hid hbalanced.exist rfl (hbalanced.charged id) (hbalanced.fits id)
    ?_ ?_ ?_
  · simp [countOf_concat, hbalanced.granted]
  · simp [countOf_concat, hbalanced.refused]
  · intro other hother
    simp [countOf_concat, hother.symm]

theorem grant (hbalanced : Balanced ledger leases memory) (hid : id < memory.pools.length)
    (hfree : size ≤ (memory.pool id).available) :
    Balanced (ledger.note ⟨id, size, true⟩) (⟨id, size⟩ :: leases) (memory.grant id size) := by
  have hfits := hbalanced.fits id
  unfold Pool.available at hfree
  refine hbalanced.setPool hid ?_ rfl ?_ ?_ ?_ ?_ ?_
  · intro lease hlease
    rcases List.mem_cons.1 hlease with rfl | hrest
    · exact hid
    · exact hbalanced.exist lease hrest
  · simp [chargeOf_cons, hbalanced.charged, Nat.add_comm]
  · change (memory.pool id).inUse + size ≤ (memory.pool id).capacity
    omega
  · simp [countOf_concat, hbalanced.granted]
  · simp [countOf_concat, hbalanced.refused]
  · intro other hother
    simp [countOf_concat, chargeOf_cons, hother.symm]

theorem release {lease : Lease} (hbalanced : Balanced ledger (lease :: leases) memory) :
    Balanced ledger leases (memory.release lease) := by
  have hid := hbalanced.exist lease List.mem_cons_self
  have hcharged := hbalanced.charged lease.pool
  have hfits := hbalanced.fits lease.pool
  rw [chargeOf_cons, if_pos rfl] at hcharged
  refine hbalanced.setPool hid ?_ rfl ?_ ?_ (hbalanced.granted _) (hbalanced.refused _) ?_
  · intro other hother
    exact hbalanced.exist other (List.mem_cons_of_mem _ hother)
  · change (memory.pool lease.pool).inUse - lease.size = chargeOf lease.pool leases
    omega
  · change (memory.pool lease.pool).inUse - lease.size ≤ (memory.pool lease.pool).capacity
    omega
  · intro other hother
    simp [chargeOf_cons, hother.symm]

theorem releaseAny {lease : Option Lease}
    (hbalanced : Balanced ledger (lease.toList ++ leases) memory) :
    Balanced ledger leases (memory.releaseAny lease) := by
  cases lease with
  | none => exact hbalanced
  | some lease => exact hbalanced.release

/-- Nothing was asked of a pool before it was made. -/
theorem newPool (hbalanced : Balanced ledger leases memory) (capacity : Nat) :
    Balanced ledger leases (memory.newPool capacity).2 := by
  have hunmade : memory.pool memory.pools.length = ⟨0, 0, 0, 0⟩ := by simp [Memory.pool]
  constructor
  · intro lease hlease
    simp only [Memory.newPool, List.length_append]
    exact Nat.lt_of_lt_of_le (hbalanced.exist lease hlease) (Nat.le_add_right _ _)
  · intro id
    rw [pool_newPool]
    split
    · next h => rw [h, ← hbalanced.charged, hunmade]
    · exact hbalanced.charged id
  · intro id
    rw [pool_newPool]
    split
    · exact Nat.zero_le _
    · exact hbalanced.fits id
  · intro id
    rw [pool_newPool]
    split
    · next h => rw [h, ← hbalanced.granted, hunmade]
    · exact hbalanced.granted id
  · intro id
    rw [pool_newPool]
    split
    · next h => rw [h, ← hbalanced.refused, hunmade]
    · exact hbalanced.refused id
  · simp only [Memory.newPool, List.map_append]
    exact hbalanced.capacities.trans (List.prefix_append _ _)

theorem available_eq (hbalanced : Balanced ledger leases memory) (id : PoolId) :
    (memory.pool id).available = (memory.pool id).capacity - chargeOf id leases := by
  rw [Pool.available, hbalanced.charged]

/-- A reservation goes through if the charge leaves room for it. -/
theorem available_lt_iff (hbalanced : Balanced ledger leases memory) (id : PoolId) (size : Nat) :
    (memory.pool id).available < size ↔
      (memory.pool id).capacity < chargeOf id leases + size := by
  have hfits := hbalanced.fits id
  rw [hbalanced.charged] at hfits
  rw [hbalanced.available_eq]
  omega

/-- The reservation is noted, and the lease that is left of it is alive. -/
theorem settle (hbalanced : Balanced ledger leases memory) (hid : id < memory.pools.length)
    {lease : Option Lease} {after : Memory} (hsettles : memory.Settles id size lease after) :
    Balanced (ledger.note (memory.asked id size)) (lease.toList ++ leases) after := by
  cases hsettles with
  | refused hfull =>
    rw [asked_of_full hfull]
    exact hbalanced.refuse hid size
  | granted hfree =>
    rw [asked_of_free hfree]
    exact hbalanced.grant hid hfree
  | dropped hfree =>
    rw [asked_of_free hfree]
    exact (hbalanced.grant hid hfree).release

end Balanced

end Memory

end StreamCrypto
