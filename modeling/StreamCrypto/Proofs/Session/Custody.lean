import StreamCrypto.Proofs.Kdf.Contract
import StreamCrypto.Proofs.Session.Answers
import StreamCrypto.Proofs.Session.Framing
import StreamCrypto.Proofs.Session.Turns

/-!
# Keys and arrays that are charged

A key that was derived in a pool is charged to it until it is dropped. On the way to that it may be
taken apart into its array, and the array may be changed, cut short and made a key again: the lease
goes along (`Passes`). Wherever it is, its bytes are among those in use, and dropping what holds it
gives back exactly them.
-/

namespace StreamCrypto.Session

open Procedure Kdf

variable {session : Session} {name holder : String} {object held : Object} {command : Command}
  {commands : List Command}

/-! ## Where an object goes -/

/-- A command that an object outlives, the slot that it is in after it, and what has become of
it. -/
inductive Passes (name : String) : Object → Command → String → Object → Prop
  | spared {object : Object} {command : Command} (hfills : command.fills? ≠ some name)
    (hreworks : command.reworks? ≠ some name) : Passes name object command name object
  | unwrapped (key : SymmetricKey) (target : String) :
    Passes name (.key key) (.key (.unwrap name target)) target (.array key.material)
  | wrapped (array : SecureArray) (target : String) :
    Passes name (.array array) (.key (.wrap name target)) target (.key ⟨array⟩)
  | truncated (array : SecureArray) (length : Nat) :
    Passes name (.array array) (.array (.truncate name length)) name
      (.array (array.truncate length))
  | set {array changed : SecureArray} {index : Nat} {value : UInt8}
    (hchanged : array.set index value = .ok changed) :
    Passes name (.array array) (.array (.set name index value)) name (.array changed)

/-- The same for commands one after the other. -/
inductive PassesAll : String → Object → List Command → String → Object → Prop
  | nil (name : String) (object : Object) : PassesAll name object [] name object
  | cons {name next holder : String} {object moved held : Object} {command : Command}
    {commands : List Command} (hfirst : Passes name object command next moved)
    (hrest : PassesAll next moved commands holder held) :
    PassesAll name object (command :: commands) holder held

theorem Passes.lease (hpasses : Passes name object command holder held) :
    held.lease? = object.lease? := by
  cases hpasses with
  | spared | unwrapped | wrapped | truncated => rfl
  | set hchanged => exact lease_of_set hchanged

theorem value_take_of_some {α : Type} (select : Object → Option α) {a : α}
    (hchosen : (session.slots.get? name).bind select = some a) :
    ((take select name).run.run session).value =
      (.ok a, { session with slots := session.slots.erase name }) :=
  value_bind_of_ok (value_find_of_some select hchosen)

theorem slot_changeArray {array changed : SecureArray}
    {change : SecureArray → Except Fault SecureArray}
    (hobject : session.slots.get? name = some (.array array))
    (hchanged : change array = .ok changed) :
    ((changeArray name change).run.run session).value.2.slots.get? name =
      some (.array changed) := by
  have hfound : (session.slots.get? name).bind asArray = some array := by
    rw [hobject]
    rfl
  have hrun : ((changeArray name change).run.run session).value =
      ((do
        let changed ← settleAs Failure.fault (change array)
        replace name (.array changed)
        pure (.array changed) : Procedure Reply).run.run session).value :=
    value_bind_of_ok (value_find_of_some asArray hfound)
  rw [hrun, hchanged]
  exact session.slots.get?_insert_self name _

theorem Passes.run (hpasses : Passes name object command holder held)
    (hobject : session.slots.get? name = some object) :
    (session.run command).value.2.slots.get? holder = some held := by
  cases hpasses with
  | spared hfills hreworks => exact (slot_run session hfills hreworks).trans hobject
  | unwrapped key =>
    have hrun : (session.run (.key (.unwrap name holder))).value =
        ((keepArray holder key.material).run.run
          { session with slots := session.slots.erase name }).value :=
      value_bind_of_ok (value_take_of_some asKey (by rw [hobject]; rfl))
    rw [hrun]
    exact get?_slots_put _ holder _
  | wrapped array =>
    have hrun : (session.run (.key (.wrap name holder))).value =
        ((do
          keep holder (.key ⟨array⟩)
          pure (.text (SymmetricKey.description array.bytes)) : Procedure Reply).run.run
            { session with slots := session.slots.erase name }).value :=
      value_bind_of_ok (value_take_of_some asArray (by rw [hobject]; rfl))
    rw [hrun]
    exact get?_slots_put _ holder _
  | truncated array length =>
    exact slot_changeArray hobject rfl
  | set hchanged => exact slot_changeArray hobject hchanged

theorem PassesAll.run (hpasses : PassesAll name object commands holder held)
    (hobject : session.slots.get? name = some object) :
    (session.afterCommands commands).slots.get? holder = some held := by
  induction hpasses generalizing session with
  | nil => exact hobject
  | cons hfirst _ ih => exact ih (hfirst.run hobject)

theorem PassesAll.lease (hpasses : PassesAll name object commands holder held) :
    held.lease? = object.lease? := by
  induction hpasses with
  | nil => rfl
  | cons hfirst _ ih => exact ih.trans hfirst.lease

/-! ## What is charged for it -/

/-- An object in a slot is charged to a pool, and dropping it gives back exactly that. -/
structure HoldsCharge (session : Session) (name : String) (lease : Lease) : Prop where
  found : ∃ object, session.slots.get? name = some object ∧ object.lease? = some lease
  counted : ((session.run (.drop name)).value.2.pool lease.pool).inUse + lease.size =
    (session.pool lease.pool).inUse

theorem Accounts.holdsCharge {ledger : Ledger} (haccounts : Accounts ledger [] session)
    (hobject : session.slots.get? name = some object) {lease : Lease}
    (hlease : object.lease? = some lease) : session.HoldsCharge name lease where
  found := ⟨object, hobject, hlease⟩
  counted := by
    have hdropped := haccounts.inUse_drop name lease.pool
    rw [hobject, Option.bind_some, hlease, Option.toList_some, chargeOf_cons,
      if_pos rfl] at hdropped
    exact hdropped

theorem Accounts.afterCommands {ledger : Ledger} (haccounts : Accounts ledger [] session)
    (commands : List Command) :
    ∃ ledger', Accounts ledger' [] (session.afterCommands commands) := by
  induction commands generalizing session ledger with
  | nil => exact ⟨ledger, haccounts⟩
  | cons command commands ih => exact ih (haccounts.run command)

/-! ## Derived keys -/

variable {context : KdfContext} {request : KeyRequest} {key : SymmetricKey} {after : Engine}

theorem value_tryMakeKey (hkdf : session.kdf? name = some context)
    (hattempt : (context.tryMakeKey request session.engine).value = (.ok key, after))
    (target : String) :
    (session.run (.kdf (.tryMakeKey name request (some target)))).value =
      (.ok (.derived key.material.bytes key.material.isPooled),
        { session with engine := after }.put target (.key key)) := by
  obtain ⟨object, hobject, hcontext⟩ := Option.bind_eq_some_iff.1 hkdf
  cases object with
  | kdf found fallback =>
    cases hcontext
    have hfound : ((findKdf name).run.run session).value = (.ok (context, fallback), session) :=
      value_find_of_some _ (by rw [hobject]; rfl)
    have hmade := value_onEngine (context.tryMakeKey request) session
    rw [hattempt] at hmade
    refine (value_bind_of_ok hfound).trans ?_
    refine (value_bind_of_ok (value_making _ session)).trans ?_
    exact value_bind_of_ok hmade
  | _ => cases hcontext

/-- A key that was derived into a slot is charged for its bytes until it is dropped. -/
structure ChargedUntilDropped (session derived : Session) (target : String) (key : SymmetricKey)
    (n : Nat) : Prop where
  found : derived.slots.get? target = some (.key key)
  /-- If it has replaced nothing that was charged. -/
  inUse : (session.slots.get? target).bind Object.lease? = none → ∀ id,
    (derived.pool id).inUse =
      if session.engine.securePool = some id then (session.pool id).inUse + n
      else (session.pool id).inUse
  kept : ∀ commands holder held id, PassesAll target (.key key) commands holder held →
    session.engine.securePool = some id →
      (derived.afterCommands commands).HoldsCharge holder ⟨id, n⟩

theorem chargedUntilDropped_of_accounts {ledger : Ledger} (haccounts : Accounts ledger [] session)
    (hkdf : session.kdf? name = some context)
    (hattempt : (context.tryMakeKey request session.engine).value = (.ok key, after))
    (target : String) :
    session.ChargedUntilDropped
      (session.run (.kdf (.tryMakeKey name request (some target)))).value.2 target key
      request.length := by
  have hrun := congrArg Prod.snd (value_tryMakeKey hkdf hattempt target)
  have hcharged := KdfContext.charged_of_ok haccounts.enginePool hattempt
  have hfound : (session.run (.kdf (.tryMakeKey name request (some target)))).value.2.slots.get?
      target = some (.key key) := by
    rw [hrun]
    exact get?_slots_put _ target _
  constructor
  case found => exact hfound
  case inUse =>
    intro hfree id
    rw [hrun]
    have hengine : ({ session with engine := after }.put target (.key key)).engine = after :=
      @engine_put { session with engine := after } target hfree (.key key)
    rw [pool, hengine, hcharged.pool id]
    by_cases hpool : session.engine.securePool = some id
    · rw [if_pos hpool, if_pos hpool, pool]
    · rw [if_neg hpool, if_neg hpool, pool]
  case kept =>
    intro commands holder held id hpasses hpool
    obtain ⟨ledger', hafter⟩ := (haccounts.run _).afterCommands commands
    refine hafter.holdsCharge (hpasses.run hfound) ?_
    calc
      held.lease? = key.material.lease := hpasses.lease
      _ = session.engine.leaseFor request.length := hcharged.lease
      _ = some ⟨id, request.length⟩ := Engine.leaseFor_of_some hpool _

/-- When there is a key, why there is none, and how long it is charged for. -/
theorem key_attempts_meet_contract (context : KdfContext) (request : KeyRequest) :
    (UInt64.ofNat (UInt32.size - 1) * UInt64.ofNat context.hash.digestLength).toNat =
        Pbkdf2.maximumLength context.hash ∧
      (∀ engine : Engine,
        (∀ id, engine.securePool = some id → id < engine.memory.pools.length) →
          context.MeetsContract request engine (context.tryMakeKey request engine)) ∧
      ∀ (reservations : List Reservation) (session : Session) (name target : String)
        (key : SymmetricKey) (after : Engine), Reached reservations session →
          session.kdf? name = some context →
          (context.tryMakeKey request session.engine).value = (.ok key, after) →
            session.ChargedUntilDropped
              (session.run (.kdf (.tryMakeKey name request (some target)))).value.2 target key
              request.length := by
  refine ⟨Pbkdf2.toNat_maximumLength context.hash, fun engine hpool ↦ ?_, ?_⟩
  · exact KdfContext.meetsContract hpool context request
  · intro reservations session name target key after hreached hkdf hattempt
    exact chargedUntilDropped_of_accounts hreached.accounts hkdf hattempt target

/-- A key of twenty bytes is charged to a pool of a hundred, also as an array that is cut short. -/
theorem key_attempts_meet_contract_twenty_of_hundred :
    let context := KdfContext.new .pbkdf2Sha1 .sha1
    let request : KeyRequest :=
      { secret := [1, 2, 3], salt := [4, 5], length := 20, iterations := 2 }
    ∃ reservations session key after, Reached reservations session ∧
      session.kdf? "context" = some context ∧
      (∀ id, session.engine.securePool = some id → id < session.engine.memory.pools.length) ∧
      (context.tryMakeKey request session.engine).value = (.ok key, after) ∧
      context.MeetsContract request session.engine (context.tryMakeKey request session.engine) ∧
      ((session.run (.kdf (.tryMakeKey "context" request (some "key")))).value.2.afterCommands
        [.key (.unwrap "key" "array"), .array (.truncate "array" 3)]).HoldsCharge "array"
          ⟨0, 20⟩ := by
  intro context request
  have hstarted := Reached.fresh.step (.engine (.start { Config.standard with poolBytes := 100 }))
  have hreached := hstarted.step (.kdf (.new "context" .pbkdf2Sha1 .sha1 .outsidePool))
  have hcontract := key_attempts_meet_contract context request
  have hpool := hreached.accounts.enginePool
  have hpasses : PassesAll "key" (.key (context.keyWith request {} (some ⟨0, 20⟩)))
      [.key (.unwrap "key" "array"), .array (.truncate "array" 3)] "array"
      (.array ((context.keyWith request {} (some ⟨0, 20⟩)).material.truncate 3)) :=
    .cons (.unwrapped _ "array") (.cons (.truncated _ 3) (.nil "array" _))
  have hkept := (hcontract.2.2 _ _ "context" "key" _ _ hreached rfl rfl).kept _ _ _ 0 hpasses rfl
  exact ⟨_, _, _, _, hreached, rfl, hpool, rfl, hcontract.2.1 _ hpool, hkept⟩

end StreamCrypto.Session
