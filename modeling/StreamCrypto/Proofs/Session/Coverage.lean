import StreamCrypto.Proofs.Session.Custody

/-!
# Bytes that are charged to a pool

A pool meters leases, and the bytes are in arrays, either by themselves or in keys. So a pool bounds
the bytes that are charged to it as far as every array with a lease is covered: as far as it has no
more bytes than its lease is for (`pooledBytes_le_charge`). Deriving a key and allocating an array
reserve what they need, and no way to move an array or to change it makes it longer. Only the array
that is made for a lease of the caller's may be of any length. Commands that make no array like that
longer than its lease keep all arrays covered, and one that does leaves an array that is not
(`covered_run_iff`).
-/

namespace StreamCrypto

namespace Object

/-- The bytes that are kept in an array. -/
def contents : Object → Bytes
  | array a => a.bytes
  | key k => k.material.bytes
  | provider _ | hash _ | cipher _ | kdf _ _ | pool _ | lease _ => []

/-- How many bytes the object keeps that are charged to a pool. -/
def pooledBytes (object : Object) (id : PoolId) : Nat :=
  match object.lease? with
  | some charged => if charged.pool = id then object.contents.length else 0
  | none => 0

/-- The object keeps no more bytes than its lease is for, if it has one. -/
def Covered (object : Object) : Prop :=
  ∀ lease, object.lease? = some lease → object.contents.length ≤ lease.size

variable {object : Object}

theorem covered_of_free (hfree : object.lease? = none) : object.Covered :=
  fun _ hlease ↦ nomatch hfree.symm.trans hlease

theorem covered_lease (lease : Lease) : (Object.lease lease).Covered :=
  fun _ _ ↦ Nat.zero_le _

theorem Covered.pooledBytes_le (hcovered : object.Covered) (id : PoolId) :
    object.pooledBytes id ≤ chargeOf id object.lease?.toList := by
  unfold pooledBytes
  cases hlease : object.lease? with
  | none => exact Nat.le_refl 0
  | some charged =>
    rw [Option.toList_some, chargeOf_cons]
    by_cases hpool : charged.pool = id
    · simpa [hpool] using hcovered charged hlease
    · simp [hpool]

end Object

namespace Session

open Procedure

/-- How many bytes in all arrays are charged to a pool. -/
def pooledBytes (session : Session) (id : PoolId) : Nat :=
  (session.slots.map fun slot ↦ slot.2.pooledBytes id).sum

/-- No array has more bytes than its lease is for. -/
def Covered (session : Session) : Prop := ∀ slot ∈ session.slots, slot.2.Covered

variable {α : Type} {session : Session} {name : String} {object : Object} {command : Command}

theorem Covered.of_get? (hcovered : session.Covered)
    (hobject : session.slots.get? name = some object) : object.Covered :=
  hcovered _ (Slots.mem_of_get? hobject)

/-- The bound for each object is a bound for all of them. -/
theorem Covered.pooledBytes_le_charge (hcovered : session.Covered) (id : PoolId) :
    session.pooledBytes id ≤ session.charge id := by
  unfold Covered pooledBytes charge leases at *
  generalize session.slots = slots at hcovered ⊢
  induction slots with
  | nil => exact Nat.le_refl 0
  | cons slot slots ih =>
    obtain ⟨hslot, hrest⟩ := List.forall_mem_cons.1 hcovered
    rw [List.map_cons, List.sum_cons, Slots.leases_cons, chargeOf_append]
    exact Nat.add_le_add (hslot.pooledBytes_le id) (ih hrest)

/-! ## Objects in slots -/

theorem Covered.erase (hcovered : session.Covered) (name : String) :
    ∀ slot ∈ session.slots.erase name, slot.2.Covered :=
  fun slot hslot ↦ hcovered slot ((session.slots.erase_sublist name).subset hslot)

theorem Covered.insert (hcovered : session.Covered) (hobject : object.Covered) (name : String) :
    ∀ slot ∈ session.slots.insert name object, slot.2.Covered :=
  List.forall_mem_cons.2 ⟨hobject, hcovered.erase name⟩

theorem covers_keep (hobject : object.Covered) (id : String) :
    Preserves Covered (keep id object) :=
  preserves_modify fun _ hcovered ↦ hcovered.insert hobject id

theorem covers_replace (hobject : object.Covered) (id : String) :
    Preserves Covered (replace id object) :=
  preserves_modify fun _ hcovered ↦ hcovered.insert hobject id

theorem covers_keepArray {array : SecureArray} (harray : (Object.array array).Covered)
    (id : String) : Preserves Covered (keepArray id array) :=
  preserves_bind (covers_keep harray id) fun _ ↦ preserves_pure _

/-- What the rest of a procedure may assume of the object that it has found. -/
theorem find_covered {select : Object → Option α} {wrap : α → Object}
    (hselect : ∀ object a, select object = some a → object = wrap a) (id : String) :
    Ensures Covered (find select id) (fun a session ↦ session.Covered ∧ (wrap a).Covered)
      Covered := by
  refine ensures_find ?_ fun _ hcovered _ ↦ hcovered
  intro session object a hcovered hobject hchosen
  rw [hselect object a hchosen] at hobject
  exact ⟨hcovered, hcovered.of_get? hobject⟩

theorem take_covered {select : Object → Option α} {wrap : α → Object}
    (hselect : ∀ object a, select object = some a → object = wrap a) (id : String) :
    Ensures Covered (take select id) (fun a session ↦ session.Covered ∧ (wrap a).Covered)
      Covered := by
  refine ensures_take ?_ fun _ hcovered _ ↦ hcovered
  intro session object a hcovered hobject hchosen
  rw [hselect object a hchosen] at hobject
  exact ⟨hcovered.erase id, hcovered.of_get? hobject⟩

/-! ## Arrays and keys as they are made -/

theorem covered_of_set {array changed : SecureArray} {index : Nat} {value : UInt8}
    (harray : (Object.array array).Covered) (hchanged : array.set index value = .ok changed) :
    (Object.array changed).Covered := by
  unfold SecureArray.set at hchanged
  split at hchanged
  · cases hchanged
    intro lease hlease
    have hlength := harray lease hlease
    simpa only [Object.contents, List.length_set] using hlength
  · cases hchanged

theorem covered_truncate {array : SecureArray} (harray : (Object.array array).Covered)
    (length : Nat) : (Object.array (array.truncate length)).Covered := by
  intro lease hlease
  have hlength := harray lease hlease
  simp only [Object.contents, SecureArray.truncate, List.length_take] at hlength ⊢
  exact Nat.le_trans (Nat.min_le_right _ _) hlength

theorem covered_zeros (locking : Locking) {lease : Lease} {length : Nat}
    (hlength : length ≤ lease.size) :
    (Object.array (.zeros locking (some lease) length)).Covered := by
  rintro _ ⟨⟩
  rw [Object.contents, SecureArray.zeros, List.length_replicate]
  exact hlength

/-- An array that is allocated is as long as its lease is for. -/
theorem covered_of_allocate {memory : Memory} {id : PoolId} {size : Nat} {array : SecureArray}
    (harray : (memory.allocate id size).value.1 = .ok array) : (Object.array array).Covered := by
  rcases Nat.lt_or_ge (memory.pool id).available size with hfull | hfree
  · rw [Memory.allocate_of_full hfull] at harray
    cases harray
  · rw [Memory.allocate_of_free hfree] at harray
    split at harray
    · cases harray
    · cases harray
      exact covered_zeros memory.toLocking (Nat.le_refl size)

section Derived

variable {context : KdfContext} {request : KeyRequest} {engine : Engine} {key : SymmetricKey}

theorem covered_keyOf (context : KdfContext) (request : KeyRequest) (engine : Engine) :
    (Object.key (context.keyOf request engine (engine.leaseFor request.length))).Covered := by
  intro lease hlease
  obtain ⟨id, -, rfl⟩ := Option.map_eq_some_iff.1 hlease
  exact Nat.le_of_eq (context.length_keyBytes request)

theorem eq_keyOf_of_tryMakeKey
    (hkey : (context.tryMakeKey request engine).value.1 = .ok key) :
    key = context.keyOf request engine (engine.leaseFor request.length) := by
  have hattempted := context.attempted request engine
  generalize context.tryMakeKey request engine = attempt at hattempted hkey
  cases hattempted with
  | refused => cases hkey
  | exhausted => cases hkey
  | served =>
    cases hkey
    rfl

/-- A key that an attempt leads to is charged for its bytes, if it is charged at all. -/
theorem covered_of_tryMakeKey (hkey : (context.tryMakeKey request engine).value.1 = .ok key) :
    (Object.key key).Covered := by
  rw [eq_keyOf_of_tryMakeKey hkey]
  exact covered_keyOf context request engine

/-- The other ways to ask for a key give that key, an empty one or one outside the pool. -/
theorem covered_of_makeKey :
    ((context.makeKey request engine).value.1 = .ok key → (Object.key key).Covered) ∧
      ((context.makeKeyOrEmpty request engine).value.1 = .ok key →
        (Object.key key).Covered) := by
  have hattempt (key : SymmetricKey) := @covered_of_tryMakeKey context request engine key
  have hderives := context.derives request engine
  generalize context.tryMakeKey request engine = attempt at hattempt hderives
  generalize context.makeKey request engine = making at hderives ⊢
  generalize context.makeKeyOrEmpty request engine = emptying at hderives ⊢
  cases hderives with
  | refused reason =>
    refine ⟨?_, ?_⟩
    all_goals
      rintro ⟨⟩
      exact Object.covered_of_free rfl
  | served hpositive lease after =>
    refine ⟨?_, ?_⟩
    all_goals
      rintro ⟨⟩
      exact hattempt _ rfl
  | exhausted hcheck hpool =>
    refine ⟨?_, ?_⟩
    all_goals
      rintro ⟨⟩
      exact Object.covered_of_free rfl

end Derived

/-! ## Families of commands -/

theorem runEngine_covers (command : EngineCommand) : Preserves Covered (runEngine command) := by
  cases command with
  | state => exact preserves_bind preserves_get fun _ ↦ preserves_pure _
  | start config =>
    exact preserves_bind (preserves_onEngine fun _ hcovered ↦ hcovered) fun _ ↦ preserves_pure _
  | setPageLocking enabled =>
    exact preserves_bind (preserves_modify fun _ hcovered ↦ hcovered) fun _ ↦
      preserves_bind preserves_get fun _ ↦ preserves_pure _
  | setRefusals refusals =>
    exact preserves_bind (preserves_modify fun _ hcovered ↦ hcovered) fun _ ↦ preserves_pure _

theorem createKind_covers {wrap : α → Object}
    {create : Provider → String → Engine → Logged (Except Error α × Engine)}
    (hwrap : ∀ a, (wrap a).Covered) (typeName : α → String) (provider id name : String) :
    Preserves Covered (createKind create wrap typeName provider id name) := by
  apply preserves_bind (preserves_find _ provider)
  intro owner
  apply preserves_bind (preserves_onEngine fun _ hcovered ↦ hcovered)
  intro result
  apply preserves_bind (preserves_settleAs _ result)
  intro context
  exact preserves_bind (covers_keep (hwrap context) id) fun _ ↦ preserves_pure _

theorem runProvider_covers (command : ProviderCommand) :
    Preserves Covered (runProvider command) := by
  cases command with
  | new id config =>
    exact preserves_bind (covers_keep (Object.covered_of_free rfl) id) fun _ ↦ preserves_pure _
  | start id =>
    exact preserves_bind (preserves_find _ id) fun _ ↦
      preserves_bind (preserves_onEngine fun _ hcovered ↦ hcovered) fun _ ↦ preserves_pure _
  | features id => exact preserves_bind (preserves_find _ id) fun _ ↦ preserves_pure _
  | create provider id name =>
    apply preserves_bind (preserves_find _ provider)
    intro owner
    apply preserves_bind (preserves_onEngine fun _ hcovered ↦ hcovered)
    intro created
    cases created with
    | none => exact preserves_pure _
    | some context =>
      have hfree := (Object.plain_ofContext context).lease
      exact preserves_bind (covers_keep (Object.covered_of_free hfree) id) fun _ ↦
        preserves_pure _
  | createHash provider id name =>
    exact createKind_covers (fun _ ↦ Object.covered_of_free rfl) _ provider id name
  | createCipher provider id name =>
    exact createKind_covers (fun _ ↦ Object.covered_of_free rfl) _ provider id name
  | createKdf provider id name =>
    exact createKind_covers (fun _ ↦ Object.covered_of_free rfl) _ provider id name

theorem runHash_covers (command : HashCommand) : Preserves Covered (runHash command) := by
  cases command with
  | new id feature algorithm =>
    exact preserves_bind (covers_keep (Object.covered_of_free rfl) id) fun _ ↦ preserves_pure _
  | update id data | clear id =>
    exact preserves_bind (preserves_find _ id) fun _ ↦
      preserves_bind (covers_replace (Object.covered_of_free rfl) id) fun _ ↦ preserves_pure _
  | finalize id =>
    exact preserves_bind (preserves_find _ id) fun _ ↦ preserves_bind (preserves_making _) fun _ ↦
      preserves_bind (covers_replace (Object.covered_of_free rfl) id) fun _ ↦ preserves_pure _
  | clone id target =>
    exact preserves_bind (preserves_find _ id) fun _ ↦
      preserves_bind (covers_keep (Object.covered_of_free rfl) target) fun _ ↦ preserves_pure _
  | info id => exact preserves_bind (preserves_find _ id) fun _ ↦ preserves_pure _

theorem finishCipher_covers (id : String) (outcome : Except Error α × CipherContext) :
    Preserves Covered (finishCipher id outcome) :=
  preserves_bind (covers_replace (Object.covered_of_free rfl) id) fun _ ↦
    preserves_settleAs _ outcome.1

theorem runCipher_covers (command : CipherCommand) : Preserves Covered (runCipher command) := by
  cases command with
  | new id feature algorithm mode padding policy =>
    exact preserves_bind (covers_keep (Object.covered_of_free rfl) id) fun _ ↦ preserves_pure _
  | setup id direction key iv =>
    exact preserves_bind (preserves_find _ id) fun _ ↦
      preserves_bind (preserves_readKey key) fun _ ↦ preserves_bind (preserves_making _) fun _ ↦
        preserves_bind (preserves_making _) fun outcome ↦
          preserves_bind (finishCipher_covers id outcome) fun _ ↦ preserves_pure _
  | update id data =>
    exact preserves_bind (preserves_find _ id) fun _ ↦
      preserves_bind (preserves_making _) fun outcome ↦
        preserves_bind (finishCipher_covers id outcome) fun _ ↦ preserves_pure _
  | finalize id =>
    exact preserves_bind (preserves_find _ id) fun _ ↦
      preserves_bind (preserves_making _) fun outcome ↦
        preserves_bind (finishCipher_covers id outcome) fun _ ↦ preserves_pure _
  | info id => exact preserves_bind (preserves_find _ id) fun _ ↦ preserves_pure _

theorem keepKey_covers {key : SymmetricKey} (hkey : (Object.key key).Covered)
    (target : Option String) : Preserves Covered (keepKey target key) := by
  cases target with
  | some id => exact preserves_bind (covers_keep hkey id) fun _ ↦ preserves_pure _
  | none =>
    exact preserves_bind (preserves_modify fun _ hcovered ↦ hcovered) fun _ ↦ preserves_pure _

/-- A way to derive keys that are covered. -/
theorem derive_covers {make : Engine → Logged (Except Failure SymmetricKey × Engine)}
    (hmake : ∀ engine key, (make engine).value.1 = .ok key → (Object.key key).Covered)
    (target : Option String) (arrays : Locking → Logged Unit) :
    Preserves Covered (do
      making arrays
      keepKey target (← settle (← onEngine make))) := by
  refine preserves_bind (preserves_making arrays) fun _ ↦ ?_
  refine ensures_bind (M := fun result session ↦ session.Covered ∧
    ∀ key, result = .ok key → (Object.key key).Covered) ?_ ?_
  · exact ensures_onEngine fun session hcovered ↦ ⟨hcovered, hmake session.engine⟩
  · intro result
    apply ensures_fact
    intro hresult
    exact preserves_settle_bind fun key hkey ↦ keepKey_covers (hresult key hkey) target

theorem runKdf_covers (command : KdfCommand) : Preserves Covered (runKdf command) := by
  cases command with
  | new id feature hash fallback =>
    exact preserves_bind (covers_keep (Object.covered_of_free rfl) id) fun _ ↦ preserves_pure _
  | info id => exact preserves_bind (preserves_find _ id) fun _ ↦ preserves_pure _
  | makeKey id request target =>
    apply preserves_bind (preserves_find _ id)
    rintro ⟨context, fallback⟩
    cases fallback with
    | outsidePool => exact derive_covers (fun _ _ ↦ covered_of_makeKey.1) target _
    | emptyKey => exact derive_covers (fun _ _ ↦ covered_of_makeKey.2) target _
  | tryMakeKey id request target =>
    apply preserves_bind (preserves_find _ id)
    rintro ⟨context, fallback⟩
    exact derive_covers (fun _ _ ↦ covered_of_tryMakeKey) target _

theorem runKey_covers (command : KeyCommand) : Preserves Covered (runKey command) := by
  cases command with
  | ofBytes id data =>
    exact ensures_making_bind fun _ ↦
      preserves_bind (covers_keep (Object.covered_of_free rfl) id) fun _ ↦ preserves_pure _
  | info id => exact preserves_bind (preserves_find _ id) fun _ ↦ preserves_pure _
  | clone id target =>
    exact preserves_bind (preserves_find _ id) fun _ ↦ ensures_making_bind fun _ ↦
      preserves_bind (covers_keep (Object.covered_of_free rfl) target) fun _ ↦ preserves_pure _
  | equal left right =>
    exact preserves_bind (preserves_find _ left) fun _ ↦
      preserves_bind (preserves_find _ right) fun _ ↦ preserves_pure _
  | unwrap id target =>
    exact ensures_bind (take_covered asKey_eq_some id) fun key ↦
      ensures_fact fun hkey ↦ covers_keepArray hkey target
  | wrap id target =>
    apply ensures_bind (take_covered asArray_eq_some id)
    intro array
    apply ensures_fact
    intro harray
    have hkey : (Object.key ⟨array⟩).Covered := harray
    exact preserves_bind (covers_keep hkey target) fun _ ↦ preserves_pure _

theorem changeArray_covers (id : String) {change : SecureArray → Except Fault SecureArray}
    (hchange : ∀ array changed, (Object.array array).Covered → change array = .ok changed →
      (Object.array changed).Covered) :
    Preserves Covered (changeArray id change) := by
  apply ensures_bind (find_covered asArray_eq_some id)
  intro array
  apply ensures_fact
  intro harray
  refine preserves_settleAs_bind fun changed hchanged ↦ ?_
  exact preserves_bind (covers_replace (hchange array changed harray hchanged) id) fun _ ↦
    preserves_pure _

theorem runPool_covers (command : PoolCommand) : Preserves Covered (runPool command) := by
  cases command with
  | new id capacity =>
    refine preserves_bind (preserves_onEngine fun _ hcovered ↦ hcovered) fun _ ↦ ?_
    exact preserves_bind (covers_keep (Object.covered_of_free rfl) id) fun _ ↦
      preserves_bind preserves_get fun _ ↦ preserves_pure _
  | clone source target =>
    exact preserves_bind (preserves_findPool source) fun _ ↦
      preserves_bind (covers_keep (Object.covered_of_free rfl) target) fun _ ↦ preserves_pure _
  | reserve source target size =>
    refine preserves_bind (preserves_findPool source) fun _ ↦ ?_
    refine preserves_bind (preserves_onEngine fun _ hcovered ↦ hcovered) fun result ↦ ?_
    exact preserves_bind (preserves_settleAs _ result) fun lease ↦
      preserves_bind (covers_keep (Object.covered_lease lease) target) fun _ ↦ preserves_pure _
  | allocate source target size =>
    refine preserves_bind (preserves_findPool source) fun pool ↦ ?_
    refine ensures_bind (M := fun result session ↦ session.Covered ∧
      ∀ array, result = .ok array → (Object.array array).Covered) ?_ fun result ↦ ?_
    · exact ensures_onMemory fun _ hcovered ↦ ⟨hcovered, fun _ ↦ covered_of_allocate⟩
    · apply ensures_fact
      intro hresult
      exact preserves_settle_bind fun array harray ↦
        covers_keepArray (hresult array harray) target
  | info source => exact preserves_pure _

/-! ## Arrays for leases of the caller's -/

/-- The command makes an array for a lease that is longer than the lease is for. -/
def overdraws (session : Session) : Command → Bool
  | .array (.leased _ length name) =>
    match (session.slots.get? name).bind asLease with
    | some lease => lease.size < length ∧ length < SecureArray.lengthLimit
    | none => false
  | _ => false

theorem overdraws_leased {lease : Lease} {length : Nat}
    (hlease : (session.slots.get? name).bind asLease = some lease) (id : String) :
    session.overdraws (.array (.leased id length name)) = true ↔
      lease.size < length ∧ length < SecureArray.lengthLimit := by
  simp only [overdraws, hlease, decide_eq_true_eq]

theorem covered_of_leased {memory : Memory} {length : Nat} {lease : Lease} {array : SecureArray}
    (hlonger : ¬ (lease.size < length ∧ length < SecureArray.lengthLimit))
    (harray : (memory.leased length lease).value.1 = .ok array) :
    (Object.array array).Covered := by
  rcases Nat.lt_or_ge length SecureArray.lengthLimit with hshort | hlong
  · rw [Memory.leased_of_short hshort] at harray
    cases harray
    exact covered_zeros memory.toLocking (by omega)
  · rw [Memory.leased_of_long hlong] at harray
    cases harray

theorem leased_covers (id : String) (length : Nat) (name : String) :
    Ensures (fun session ↦ session.Covered ∧
        session.overdraws (.array (.leased id length name)) = false)
      (runArray (.leased id length name)) (fun _ ↦ Covered) Covered := by
  refine ensures_bind (M := fun moved session ↦ session.Covered ∧
    ¬ (moved.size < length ∧ length < SecureArray.lengthLimit)) ?_ fun moved ↦ ?_
  · refine ensures_take ?_ fun _ hallowed _ ↦ hallowed.1
    rintro session object moved ⟨hcovered, hallowed⟩ hobject hmoved
    refine ⟨hcovered.erase name, fun hlonger ↦ ?_⟩
    have hlease : (session.slots.get? name).bind asLease = some moved := by
      rw [hobject]
      exact hmoved
    rw [(overdraws_leased hlease id).2 hlonger] at hallowed
    cases hallowed
  · apply ensures_fact
    intro hlonger
    refine ensures_bind (M := fun result session ↦ session.Covered ∧
      ∀ array, result = .ok array → (Object.array array).Covered) ?_ fun result ↦ ?_
    · exact ensures_onMemory fun _ hcovered ↦ ⟨hcovered, fun _ ↦ covered_of_leased hlonger⟩
    · apply ensures_fact
      intro hresult
      exact preserves_settleAs_bind fun array harray ↦ covers_keepArray (hresult array harray) id

theorem runArray_covers (command : ArrayCommand) :
    Ensures (fun session ↦ session.Covered ∧ session.overdraws (.array command) = false)
      (runArray command) (fun _ ↦ Covered) Covered := by
  have hweaken {procedure : Procedure Reply} (hcovers : Preserves Covered procedure) :
      Ensures (fun session ↦ session.Covered ∧ session.overdraws (.array command) = false)
        procedure (fun _ ↦ Covered) Covered :=
    ensures_weaken hcovers fun _ hallowed ↦ hallowed.1
  cases command with
  | ofBytes id data =>
    exact hweaken (ensures_making_bind fun _ ↦ covers_keepArray (Object.covered_of_free rfl) id)
  | zeroed id length =>
    refine hweaken (ensures_making_bind fun _ ↦ ?_)
    refine preserves_settleAs_bind fun array harray ↦ covers_keepArray ?_ id
    exact Object.covered_of_free (SecureArray.lease_of_zeroedWith harray)
  | tryZeroed id length =>
    refine hweaken (ensures_making_bind fun _ ↦ ?_)
    refine preserves_settleAs_bind fun array harray ↦ covers_keepArray ?_ id
    exact Object.covered_of_free (SecureArray.lease_of_tryZeroed harray)
  | empty id => exact hweaken (covers_keepArray (Object.covered_of_free rfl) id)
  | leased id length lease => exact leased_covers id length lease
  | set id index value =>
    exact hweaken (changeArray_covers id fun _ _ ↦ covered_of_set)
  | truncate id length =>
    refine hweaken (changeArray_covers id fun array changed harray hchanged ↦ ?_)
    cases hchanged
    exact covered_truncate harray length
  | clone id target =>
    exact hweaken (preserves_bind (preserves_find _ id) fun _ ↦ ensures_making_bind fun _ ↦
      covers_keepArray (Object.covered_of_free rfl) target)
  | info id =>
    exact hweaken (preserves_bind (preserves_find _ id) fun _ ↦ preserves_pure _)
  | equal left right =>
    exact hweaken (preserves_bind (preserves_find _ left) fun _ ↦
      preserves_bind (preserves_find _ right) fun _ ↦ preserves_pure _)

theorem covered_run (hcovered : session.Covered) (hallowed : session.overdraws command = false) :
    (session.run command).value.2.Covered := by
  cases command with
  | engine command => exact (runEngine_covers command).after hcovered
  | provider command => exact (runProvider_covers command).after hcovered
  | hash command => exact (runHash_covers command).after hcovered
  | cipher command => exact (runCipher_covers command).after hcovered
  | kdf command => exact (runKdf_covers command).after hcovered
  | key command => exact (runKey_covers command).after hcovered
  | array command => exact Ensures.after (runArray_covers command) ⟨hcovered, hallowed⟩
  | pool command => exact (runPool_covers command).after hcovered
  | drop id => exact hcovered.erase id

/-- The array that is longer than its lease is in its slot afterwards. -/
theorem slot_run_of_overdraws {id : String} {length : Nat}
    (hoverdraws : session.overdraws (.array (.leased id length name)) = true) :
    ∃ array, (session.run (.array (.leased id length name))).value.2.slots.get? id =
      some (.array array) ∧ ¬ (Object.array array).Covered := by
  cases hlease : (session.slots.get? name).bind asLease with
  | none =>
    simp only [overdraws, hlease, Bool.false_eq_true] at hoverdraws
  | some lease =>
    obtain ⟨hlonger, hlimit⟩ := (overdraws_leased hlease id).1 hoverdraws
    let locking := session.engine.memory.toLocking
    let moved : Session := { session with slots := session.slots.erase name }
    have hmade := value_onMemory (fun memory ↦ memory.leased length lease) moved
    rw [Memory.leased_of_short hlimit] at hmade
    have hrun : (session.run (.array (.leased id length name))).value =
        ((keepArray id (.zeros locking (some lease) length)).run.run moved).value :=
      (value_bind_of_ok (value_take_of_some asLease hlease)).trans (value_bind_of_ok hmade)
    refine ⟨.zeros locking (some lease) length, ?_, fun hcovered ↦ ?_⟩
    · rw [hrun]
      exact moved.get?_slots_put id _
    · have hlength := hcovered lease rfl
      rw [Object.contents, SecureArray.zeros, List.length_replicate] at hlength
      omega

/-- One command leaves an array that is not covered exactly if it makes one longer than its
lease. -/
theorem covered_run_iff (hcovered : session.Covered) :
    (session.run command).value.2.Covered ↔ session.overdraws command = false := by
  refine ⟨fun hafter ↦ ?_, covered_run hcovered⟩
  cases hoverdraws : session.overdraws command with
  | false => rfl
  | true =>
    cases command with
    | array command =>
      cases command with
      | leased id length name =>
        obtain ⟨array, harray, hlonger⟩ := slot_run_of_overdraws hoverdraws
        exact absurd (hafter.of_get? harray) hlonger
      | _ => cases hoverdraws
    | _ => cases hoverdraws

/-! ## Runs -/

variable {commands : List Command}

theorem covered_turn_iff (hcovered : session.Covered) :
    (session.turn command).after.Covered ↔
      (session.turn command).before.overdraws (session.turn command).command = false :=
  covered_run_iff hcovered

theorem covered_turns_iff (hcovered : session.Covered) :
    (∀ turn ∈ session.turns commands, turn.after.Covered) ↔
      ∀ turn ∈ session.turns commands, turn.before.overdraws turn.command = false := by
  induction commands generalizing session with
  | nil => exact iff_of_true (List.forall_mem_nil _) (List.forall_mem_nil _)
  | cons command commands ih =>
    rw [turns, List.forall_mem_cons, List.forall_mem_cons, ← covered_turn_iff hcovered]
    exact and_congr_right ih

theorem covered_afterCommands (hcovered : session.Covered)
    (hallowed : ∀ turn ∈ session.turns commands, turn.before.overdraws turn.command = false) :
    (session.afterCommands commands).Covered := by
  induction commands generalizing session with
  | nil => exact hcovered
  | cons command commands ih =>
    rw [turns, List.forall_mem_cons] at hallowed
    exact ih (covered_run hcovered hallowed.1) hallowed.2

theorem Accounts.pooledBytes_le {ledger : Ledger} (haccounts : Accounts ledger [] session)
    (hcovered : session.Covered) (id : PoolId) :
    session.pooledBytes id ≤ (session.pool id).inUse ∧
      (session.pool id).inUse ≤ (session.pool id).capacity := by
  refine ⟨?_, haccounts.balanced.fits id⟩
  calc
    session.pooledBytes id ≤ session.charge id := hcovered.pooledBytes_le_charge id
    _ = (session.pool id).inUse := (haccounts.balanced.charged id).symm

/-- From the beginning of a session: all arrays are covered all the time exactly if none is ever
made longer than its lease, and then a pool bounds the bytes that are charged to it. -/
theorem pooledBytes_bounded (hstart : session = fresh ∨ session = started)
    (commands : List Command) :
    ((∀ turn ∈ session.turns commands, turn.after.Covered) ↔
        ∀ turn ∈ session.turns commands, turn.before.overdraws turn.command = false) ∧
      ((∀ turn ∈ session.turns commands, turn.before.overdraws turn.command = false) → ∀ id,
        (session.afterCommands commands).pooledBytes id ≤
            ((session.afterCommands commands).pool id).inUse ∧
          ((session.afterCommands commands).pool id).inUse ≤
            ((session.afterCommands commands).pool id).capacity) := by
  obtain ⟨hslots, ledger, haccounts⟩ :
      session.slots = [] ∧ ∃ ledger, Accounts ledger [] session := by
    obtain rfl | rfl := hstart
    · exact ⟨rfl, _, Reached.fresh.accounts⟩
    · exact ⟨rfl, _, Reached.started.accounts⟩
  have hcovered : session.Covered := by
    rw [Covered, hslots]
    exact List.forall_mem_nil _
  refine ⟨covered_turns_iff hcovered, fun hallowed id ↦ ?_⟩
  obtain ⟨ledger', hafter⟩ := haccounts.afterCommands commands
  exact hafter.pooledBytes_le (covered_afterCommands hcovered hallowed) id

/-- Fifty bytes for a lease of sixty, of which ten end up in a key. -/
theorem pooledBytes_bounded_fifty_of_sixty :
    let commands : List Command :=
      [.pool (.new "pool" 100), .pool (.reserve (.slot "pool") "lease" 60),
        .array (.leased "array" 50 "lease"), .array (.truncate "array" 10),
        .key (.wrap "array" "key")]
    (∀ turn ∈ fresh.turns commands, turn.before.overdraws turn.command = false) ∧
      (fresh.afterCommands commands).pooledBytes 0 = 10 ∧
      (fresh.afterCommands commands).pooledBytes 0 ≤
        ((fresh.afterCommands commands).pool 0).inUse := by
  intro commands
  have hallowed : ∀ turn ∈ fresh.turns commands,
      turn.before.overdraws turn.command = false := by
    decide +kernel
  have hbounded := (pooledBytes_bounded (.inl rfl) commands).2 hallowed 0
  exact ⟨hallowed, by decide +kernel, hbounded.1⟩

/-- Fifty bytes for a lease of one: the pool bounds what is charged to it, but not the bytes. -/
theorem pooledBytes_exceed_fifty_of_one :
    let session := fresh.afterCommands
      [.engine (.setPageLocking false), .pool (.new "pool" 100),
        .pool (.reserve (.slot "pool") "lease" 1), .array (.leased "array" 50 "lease")]
    session.pooledBytes 0 = 50 ∧ (session.pool 0).inUse = 1 := by
  decide +kernel

end Session

end StreamCrypto
