import StreamCrypto.Proofs.Engine
import StreamCrypto.Proofs.Memory.Balance
import StreamCrypto.Proofs.Kdf.Charge
import StreamCrypto.Session.Command

/-!
# The accounts of a session

The leases that are alive are those in slots, whether free-standing or inside an array or a key,
and those that a command has in its hands. Moving an object into a slot or out of it only moves
its lease between these two; what was in the slot is released. So the accounts stay in order under
each way to change slots and the engine.
-/

open scoped List

namespace StreamCrypto

namespace Slots

/-- The leases of all objects in slots. -/
def leases (slots : Slots) : List Lease := slots.filterMap fun slot ↦ slot.2.lease?

theorem leases_cons (name : String) (object : Object) (slots : Slots) :
    leases ((name, object) :: slots) = object.lease?.toList ++ leases slots := by
  rw [leases, List.filterMap_cons]
  cases hlease : object.lease? with
  | none => simp [leases]
  | some lease => simp [leases]

theorem erase_sublist (slots : Slots) (name : String) : (slots.erase name).Sublist slots :=
  List.filter_sublist

theorem erase_eq_self {slots : Slots} {name : String} (habsent : name ∉ slots.map Prod.fst) :
    slots.erase name = slots := by
  unfold erase
  rw [List.filter_eq_self]
  intro slot hslot
  have hne : slot.1 ≠ name := fun h ↦ habsent (h ▸ List.mem_map_of_mem hslot)
  exact bne_iff_ne.2 hne

theorem not_mem_erase (slots : Slots) (name : String) :
    name ∉ (slots.erase name).map Prod.fst := by
  intro hmem
  obtain ⟨slot, hslot, rfl⟩ := List.mem_map.1 hmem
  simp [erase] at hslot

theorem mem_of_get? {slots : Slots} {name : String} {object : Object}
    (hobject : slots.get? name = some object) : (name, object) ∈ slots := by
  obtain ⟨before, after, rfl, -⟩ := List.lookup_eq_some_iff.1 hobject
  exact List.mem_append_right _ List.mem_cons_self

/-- One slot gives one lease at most, if names are distinct. -/
theorem leases_perm {slots : Slots} (hnames : (slots.map Prod.fst).Nodup) (name : String) :
    slots.leases ~
      ((slots.get? name).bind Object.lease?).toList ++ (slots.erase name).leases := by
  induction slots with
  | nil => exact .refl _
  | cons slot slots ih =>
    obtain ⟨other, object⟩ := slot
    rw [List.map_cons, List.nodup_cons] at hnames
    by_cases hother : other = name
    · subst hother
      have herase : Slots.erase ((other, object) :: slots) other = slots := by
        rw [← erase_eq_self hnames.1]
        simp [erase]
      have hget : Slots.get? ((other, object) :: slots) other = some object :=
        List.lookup_cons_self
      rw [herase, hget, leases_cons]
      exact .refl _
    · have herase : Slots.erase ((other, object) :: slots) name =
          (other, object) :: Slots.erase slots name := by
        simp [erase, hother]
      have hname : (name == other) = false := beq_false_of_ne (Ne.symm hother)
      have hget : Slots.get? ((other, object) :: slots) name = Slots.get? slots name := by
        simp [get?, List.lookup_cons, hname]
      rw [herase, hget, leases_cons, leases_cons]
      exact ((ih hnames.2).append_left _).trans (List.perm_append_comm_assoc _ _ _)

end Slots

/-- If the object is a pool, it exists. -/
def Object.Known (object : Object) (memory : Memory) : Prop :=
  ∀ id, object = .pool id → id < memory.pools.length

namespace Object

def pool? : Object → Option PoolId
  | pool id => some id
  | _ => none

def kdf? : Object → Option KdfContext
  | kdf context _ => some context
  | _ => none

/-- An object that has nothing to do with pools. -/
structure Plain (object : Object) : Prop where
  lease : object.lease? = none
  pool : ∀ id, object ≠ .pool id

theorem plain_provider (provider : Provider) : (Object.provider provider).Plain := ⟨rfl, nofun⟩

theorem plain_hash (context : DigestContext) : (Object.hash context).Plain := ⟨rfl, nofun⟩

theorem plain_cipher (context : CipherContext) : (Object.cipher context).Plain := ⟨rfl, nofun⟩

theorem plain_kdf (context : KdfContext) (fallback : KdfFallback) :
    (Object.kdf context fallback).Plain := ⟨rfl, nofun⟩

theorem plain_ofContext (context : Context) : (ofContext context).Plain := by
  cases context with
  | hash context => exact plain_hash context
  | cipher context => exact plain_cipher context
  | kdf context => exact plain_kdf context .outsidePool

theorem plain_key {key : SymmetricKey} (hlease : key.material.lease = none) :
    (Object.key key).Plain := ⟨hlease, nofun⟩

end Object

namespace Session

/-- The leases that are alive between two commands. -/
def leases (session : Session) : List Lease := session.slots.leases

/-- What the leases that are alive charge to a pool. -/
def charge (session : Session) (id : PoolId) : Nat := chargeOf id session.leases

def pool (session : Session) (id : PoolId) : Pool := session.engine.memory.pool id

/-- The pool that a command is about. -/
def poolOf? (session : Session) : PoolSource → Option PoolId
  | .engine => session.engine.securePool
  | .slot name => (session.slots.get? name).bind Object.pool?

def kdf? (session : Session) (name : String) : Option KdfContext :=
  (session.slots.get? name).bind Object.kdf?

/-- Names are distinct, pools that are named exist, and memory is balanced for the leases in
slots and those in hand. -/
structure Accounts (ledger : Ledger) (held : List Lease) (session : Session) : Prop where
  names : (session.slots.map Prod.fst).Nodup
  pools : ∀ slot ∈ session.slots, slot.2.Known session.engine.memory
  enginePool : ∀ id, session.engine.securePool = some id →
    id < session.engine.memory.pools.length
  balanced : session.engine.memory.Balanced ledger (held ++ session.leases)

namespace Accounts

variable {ledger : Ledger} {held : List Lease} {session : Session} {name : String}
  {object : Object}

theorem lt_of_poolOf? (haccounts : Accounts ledger held session) {source : PoolSource}
    {id : PoolId} (hpool : session.poolOf? source = some id) :
    id < session.engine.memory.pools.length := by
  cases source with
  | engine => exact haccounts.enginePool id hpool
  | slot name =>
    obtain ⟨object, hobject, hid⟩ := Option.bind_eq_some_iff.1 hpool
    cases object with
    | pool other =>
      cases hid
      exact haccounts.pools _ (Slots.mem_of_get? hobject) id rfl
    | _ => cases hid

theorem perm (haccounts : Accounts ledger held session) {others : List Lease}
    (hperm : held ~ others) : Accounts ledger others session where
  names := haccounts.names
  pools := haccounts.pools
  enginePool := haccounts.enginePool
  balanced := haccounts.balanced.perm (hperm.append_right _)

theorem withCapacities (haccounts : Accounts ledger held session) :
    Accounts { ledger with capacities := session.engine.memory.pools.map Pool.capacity } held
      session where
  names := haccounts.names
  pools := haccounts.pools
  enginePool := haccounts.enginePool
  balanced := haccounts.balanced.withCapacities

/-- The lease of an object that leaves its slot is in hand. -/
theorem erase (haccounts : Accounts ledger held session) (name : String) :
    Accounts ledger (((session.slots.get? name).bind Object.lease?).toList ++ held)
      { session with slots := session.slots.erase name } where
  names := ((session.slots.erase_sublist name).map Prod.fst).nodup haccounts.names
  pools slot hslot := haccounts.pools slot ((session.slots.erase_sublist name).subset hslot)
  enginePool := haccounts.enginePool
  balanced := by
    apply haccounts.balanced.perm
    have hperm := Slots.leases_perm haccounts.names name
    rw [List.append_assoc]
    calc
      held ++ session.leases ~ held ++ (((session.slots.get? name).bind Object.lease?).toList ++
          (session.slots.erase name).leases) := hperm.append_left held
      _ ~ ((session.slots.get? name).bind Object.lease?).toList ++
          (held ++ (session.slots.erase name).leases) := List.perm_append_comm_assoc _ _ _

/-- The lease of an object that goes into an empty slot is no longer in hand. -/
theorem insert (haccounts : Accounts ledger (object.lease?.toList ++ held) session)
    (hknown : object.Known session.engine.memory) (habsent : name ∉ session.slots.map Prod.fst) :
    Accounts ledger held { session with slots := (name, object) :: session.slots } where
  names := List.nodup_cons.2 ⟨habsent, haccounts.names⟩
  pools slot hslot := by
    rcases List.mem_cons.1 hslot with rfl | hrest
    · exact hknown
    · exact haccounts.pools slot hrest
  enginePool := haccounts.enginePool
  balanced := by
    apply haccounts.balanced.perm
    change _ ~ held ++ Slots.leases ((name, object) :: session.slots)
    rw [Slots.leases_cons, List.append_assoc]
    exact List.perm_append_comm_assoc _ _ _

/-- The engine changes, but no pool goes away. -/
theorem withEngine (haccounts : Accounts ledger held session) {engine : Engine}
    {ledger' : Ledger} {held' : List Lease}
    (hlength : session.engine.memory.pools.length ≤ engine.memory.pools.length)
    (hpool : ∀ id, engine.securePool = some id → id < engine.memory.pools.length)
    (hbalanced : engine.memory.Balanced ledger' (held' ++ session.leases)) :
    Accounts ledger' held' { session with engine } where
  names := haccounts.names
  pools slot hslot id hid := Nat.lt_of_lt_of_le (haccounts.pools slot hslot id hid) hlength
  enginePool := hpool
  balanced := hbalanced

/-- A lease that is in hand is released. -/
theorem release {lease : Option Lease}
    (haccounts : Accounts ledger (lease.toList ++ held) session) :
    Accounts ledger held { session with engine := session.engine.release lease } := by
  have hlength := session.engine.memory.length_releaseAny lease
  have hbalanced := haccounts.balanced
  rw [List.append_assoc] at hbalanced
  refine haccounts.withEngine (Nat.le_of_eq hlength.symm) ?_ hbalanced.releaseAny
  intro id hid
  exact Nat.lt_of_lt_of_le (haccounts.enginePool id hid) (Nat.le_of_eq hlength.symm)

theorem discard {object : Option Object}
    (haccounts : Accounts ledger ((object.bind Object.lease?).toList ++ held) session) :
    Accounts ledger held (session.discard object) :=
  haccounts.release

theorem drop (haccounts : Accounts ledger held session) (name : String) :
    Accounts ledger held (session.drop name) :=
  (haccounts.erase name).discard

theorem put (haccounts : Accounts ledger (object.lease?.toList ++ held) session)
    (hknown : object.Known session.engine.memory) (name : String) :
    Accounts ledger held (session.put name object) := by
  have herased := haccounts.erase name
  have hmoved := herased.perm (List.perm_append_comm_assoc _ _ _)
  exact (hmoved.insert hknown (session.slots.not_mem_erase name)).discard

/-- The next state of an object has the same lease. -/
theorem store (haccounts : Accounts ledger held session)
    (hlease : (session.slots.get? name).bind Object.lease? = object.lease?)
    (hknown : object.Known session.engine.memory) :
    Accounts ledger held (session.store name object) := by
  have herased := haccounts.erase name
  rw [hlease] at herased
  exact herased.insert hknown (session.slots.not_mem_erase name)

/-! ## The engine -/

theorem newPool (haccounts : Accounts ledger held session) (capacity : Nat) :
    Accounts ledger held { session with engine := { session.engine with
      memory := (session.engine.memory.newPool capacity).2 } } := by
  have hlength : session.engine.memory.pools.length ≤
      (session.engine.memory.newPool capacity).2.pools.length := by
    simp [Memory.newPool]
  refine haccounts.withEngine hlength ?_ (haccounts.balanced.newPool capacity)
  intro id hid
  exact Nat.lt_of_lt_of_le (haccounts.enginePool id hid) hlength

theorem withLocking (haccounts : Accounts ledger held session) {engine : Engine}
    (hpool : engine.securePool = session.engine.securePool) {locking : Locking}
    (hmemory : engine.memory = { session.engine.memory with toLocking := locking }) :
    Accounts ledger held { session with engine } := by
  have hpools : engine.memory.pools = session.engine.memory.pools := by rw [hmemory]
  refine haccounts.withEngine (Nat.le_of_eq (congrArg List.length hpools.symm)) ?_
    (hmemory ▸ haccounts.balanced.withLocking)
  intro id hid
  rw [hpools]
  exact haccounts.enginePool id (hpool.symm.trans hid)

theorem start (haccounts : Accounts ledger held session) (config : Config) :
    Accounts ledger held
      { session with engine := (session.engine.start config).value.2 } := by
  by_cases hstarted : session.engine.initialized = true
  · rw [Engine.start, if_pos hstarted]
    exact haccounts
  · cases hpool : session.engine.securePool with
    | some id =>
      rw [Engine.value_start_of_some hstarted hpool]
      exact haccounts.withLocking rfl rfl
    | none =>
      rw [Engine.value_start_of_none hstarted hpool]
      have hlength : session.engine.memory.pools.length <
          (session.engine.memory.newPool config.poolBytes).2.pools.length := by
        simp [Memory.newPool]
      have hbalanced := haccounts.balanced.newPool config.poolBytes
      refine haccounts.withEngine (Nat.le_of_lt hlength) ?_ hbalanced.withLocking
      intro id hid
      cases hid
      exact hlength

/-- At most one reservation is noted, and the lease that is left of it is in hand. -/
theorem serve (haccounts : Accounts ledger held session) {request : Option (PoolId × Nat)}
    {lease : Option Lease} {engine : Engine} (hserves : session.engine.Serves request lease engine)
    (hpool : ∀ id size, request = some (id, size) → id < session.engine.memory.pools.length) :
    Accounts (ledger.noteAny (request.map fun (id, size) ↦ session.engine.memory.asked id size))
      (lease.toList ++ held) { session with engine } := by
  cases hserves with
  | unasked => exact haccounts
  | asked hsettles =>
    have hlength := hsettles.length_pools
    have hid := hpool _ _ rfl
    refine haccounts.withEngine (Nat.le_of_eq hlength.symm) ?_ ?_
    · intro id hid
      exact Nat.lt_of_lt_of_le (haccounts.enginePool id hid) (Nat.le_of_eq hlength.symm)
    · rw [List.append_assoc]
      exact haccounts.balanced.settle hid hsettles

end Accounts

end Session

end StreamCrypto
