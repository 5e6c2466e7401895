import StreamCrypto.Proofs.Session.Keeping

/-!
# The charges of a session

Four commands ask for a reservation: two of them directly, and two to derive a key. What they ask
for is known beforehand (`request?`), so that a run of any commands comes with the list of all
reservations that were asked for (`Reached`). The counts of a pool are the counts of this list, and
its charge is the sum of the leases that are alive.
-/

namespace StreamCrypto.Session

open Procedure

variable {ledger : Ledger} {session : Session}

/-- The reservation that a command asks for, as a pool and a size. -/
def request? (session : Session) : Command → Option (PoolId × Nat)
  | .pool (.reserve source _ size) => (session.poolOf? source).map fun id ↦ (id, size)
  | .pool (.allocate source _ size) => (session.poolOf? source).map fun id ↦ (id, size)
  | .kdf (.makeKey name request _) =>
    (session.kdf? name).bind fun context ↦ context.request? request session.engine
  | .kdf (.tryMakeKey name request _) =>
    (session.kdf? name).bind fun context ↦ context.request? request session.engine
  | _ => none

/-- The same with the answer of the pool. -/
def reservation? (session : Session) (command : Command) : Option Reservation :=
  (session.request? command).map fun (id, size) ↦ session.engine.memory.asked id size

/-- A session that commands lead to, and the reservations that they asked for, oldest first. -/
inductive Reached : List Reservation → Session → Prop
  | fresh : Reached [] Session.fresh
  | started : Reached [] Session.started
  | step {reservations : List Reservation} {session : Session}
      (hreached : Reached reservations session) (command : Command) :
    Reached (reservations ++ (session.reservation? command).toList)
      (session.run command).value.2

/-! ## Commands that reserve -/

/-- The accounts are in order once the request of a command has been served. -/
def Booked (ledger : Ledger) (held : List Lease) (session : Session) (command : Command) :
    Session → Prop :=
  Accounts (ledger.noteAny (session.reservation? command)) held

theorem booked_of_request?_eq_none (haccounts : Accounts ledger [] session) {command : Command}
    (hnone : session.request? command = none) : Booked ledger [] session command session := by
  unfold Booked reservation?
  rw [hnone]
  exact haccounts

theorem findPool_ensures (haccounts : Accounts ledger [] session) {command : Command}
    {source : PoolSource} {size : Nat}
    (hrequest : session.request? command = (session.poolOf? source).map fun id ↦ (id, size)) :
    Ensures (· = session) (findPool source)
      (fun id current ↦ current = session ∧ session.poolOf? source = some id)
      (Booked ledger [] session command) := by
  refine ensures_findPool ?_ ?_
  · rintro current id rfl hpool
    exact ⟨rfl, hpool⟩
  · rintro current rfl hpool
    exact booked_of_request?_eq_none haccounts (by rw [hrequest, hpool]; rfl)

/-- The one reservation of a command that asks a pool directly. -/
theorem booked_of_settles (haccounts : Accounts ledger [] session) {command : Command}
    {source : PoolSource} {id : PoolId} {size : Nat} {lease : Option Lease} {memory : Memory}
    (hrequest : session.request? command = (session.poolOf? source).map fun id ↦ (id, size))
    (hpool : session.poolOf? source = some id)
    (hsettles : session.engine.memory.Settles id size lease memory) :
    Booked ledger lease.toList session command
      { session with engine := { session.engine with memory } } := by
  have hserved := haccounts.serve (.asked hsettles) ?_
  · unfold Booked reservation?
    rw [hrequest, hpool]
    rw [List.append_nil] at hserved
    exact hserved
  · intro other size hother
    cases hother
    exact haccounts.lt_of_poolOf? hpool

theorem reserve_booked (haccounts : Accounts ledger [] session) (source : PoolSource)
    (target : String) (size : Nat) :
    Ensures (· = session) (runPool (.reserve source target size))
      (fun _ ↦ Booked ledger [] session (.pool (.reserve source target size)))
      (Booked ledger [] session (.pool (.reserve source target size))) := by
  apply ensures_bind (findPool_ensures haccounts rfl)
  intro id
  refine ensures_bind (M := fun result ↦ Booked ledger (result.toOption.bind some).toList session
    (.pool (.reserve source target size))) ?_ ?_
  · apply ensures_onMemory
    rintro current ⟨rfl, hpool⟩
    rw [Option.bind_fun_some]
    exact booked_of_settles haccounts rfl hpool (Memory.reserve_settles _ id size)
  · intro result
    apply ensures_bind (settleAs_ensures some _ result)
    intro lease
    exact ensures_bind (keep_ensures (.lease lease) nofun target) fun _ ↦ keeps_pure _

theorem allocate_booked (haccounts : Accounts ledger [] session) (source : PoolSource)
    (target : String) (size : Nat) :
    Ensures (· = session) (runPool (.allocate source target size))
      (fun _ ↦ Booked ledger [] session (.pool (.allocate source target size)))
      (Booked ledger [] session (.pool (.allocate source target size))) := by
  apply ensures_bind (findPool_ensures haccounts rfl)
  intro id
  refine ensures_bind (M := fun result ↦ Booked ledger
    (result.toOption.bind SecureArray.lease).toList session
    (.pool (.allocate source target size))) ?_ ?_
  · apply ensures_onMemory
    rintro current ⟨rfl, hpool⟩
    exact booked_of_settles haccounts rfl hpool (Memory.allocate_settles _ id size)
  · intro result
    exact ensures_bind (settle_ensures SecureArray.lease result) (keepArray_ensures target)

theorem findKdf_ensures (haccounts : Accounts ledger [] session) {command : Command}
    {name : String} {request : KeyRequest}
    (hrequest : session.request? command =
      (session.kdf? name).bind fun context ↦ context.request? request session.engine) :
    Ensures (· = session) (findKdf name)
      (fun found current ↦ current = session ∧
        session.request? command = found.1.request? request session.engine)
      (Booked ledger [] session command) := by
  refine ensures_find ?_ ?_
  · rintro current object found rfl hobject hselect
    refine ⟨rfl, ?_⟩
    rw [hrequest, kdf?, hobject]
    cases object with
    | kdf context fallback => cases hselect; rfl
    | _ => cases hselect
  · rintro current rfl hnone
    refine booked_of_request?_eq_none haccounts ?_
    rw [hrequest, kdf?]
    cases hobject : current.slots.get? name with
    | none => rfl
    | some object =>
      rw [hobject] at hnone
      cases object with
      | kdf context fallback => cases hnone
      | _ => rfl

theorem keepKey_ensures (target : Option String) (key : SymmetricKey) :
    Ensures (Accounts ledger key.material.lease.toList) (keepKey target key)
      (fun _ ↦ Accounts ledger []) (Accounts ledger []) := by
  cases target with
  | some id => exact ensures_bind (keep_ensures (.key key) nofun id) fun _ ↦ keeps_pure _
  | none =>
    refine ensures_bind (ensures_modify ?_) fun _ ↦ keeps_pure _
    intro session haccounts
    rw [← List.append_nil key.material.lease.toList] at haccounts
    exact haccounts.release

/-- A way to derive keys whose only charge is the lease of the key. -/
theorem derive_booked (haccounts : Accounts ledger [] session) {command : Command}
    {context : KdfContext} {request : KeyRequest} (target : Option String)
    (arrays : Locking → Logged Unit) (make : Engine → Logged (Except Failure SymmetricKey × Engine))
    (hrequest : session.request? command = context.request? request session.engine)
    (hserves : session.engine.Serves (context.request? request session.engine)
      (KdfContext.leaseOf (make session.engine).value.1) (make session.engine).value.2) :
    Ensures (· = session)
      (do
        making arrays
        keepKey target (← settle (← onEngine make)))
      (fun _ ↦ Booked ledger [] session command) (Booked ledger [] session command) := by
  refine ensures_making_bind fun _ ↦ ensures_bind (M := fun result ↦
    Booked ledger (KdfContext.leaseOf result).toList session command) ?_ ?_
  · apply ensures_onEngine
    rintro current rfl
    have hserved := haccounts.serve hserves fun id _ hasked ↦
      haccounts.enginePool id (KdfContext.securePool_of_request? hasked)
    rw [List.append_nil, ← hrequest] at hserved
    exact hserved
  · intro result
    exact ensures_bind (settle_ensures (fun key : SymmetricKey ↦ key.material.lease) result)
      (keepKey_ensures target)

theorem makeKey_booked (haccounts : Accounts ledger [] session) (name : String)
    (request : KeyRequest) (target : Option String) :
    Ensures (· = session) (runKdf (.makeKey name request target))
      (fun _ ↦ Booked ledger [] session (.kdf (.makeKey name request target)))
      (Booked ledger [] session (.kdf (.makeKey name request target))) := by
  apply ensures_bind (findKdf_ensures haccounts rfl)
  rintro ⟨context, fallback⟩ current ⟨rfl, hrequest⟩
  cases fallback with
  | outsidePool =>
    exact derive_booked haccounts target _ _ hrequest (context.makeKey_serves request _) _ rfl
  | emptyKey =>
    exact derive_booked haccounts target _ _ hrequest (context.makeKeyOrEmpty_serves request _) _
      rfl

theorem tryMakeKey_booked (haccounts : Accounts ledger [] session) (name : String)
    (request : KeyRequest) (target : Option String) :
    Ensures (· = session) (runKdf (.tryMakeKey name request target))
      (fun _ ↦ Booked ledger [] session (.kdf (.tryMakeKey name request target)))
      (Booked ledger [] session (.kdf (.tryMakeKey name request target))) := by
  apply ensures_bind (findKdf_ensures haccounts rfl)
  rintro ⟨context, fallback⟩ current ⟨rfl, hrequest⟩
  exact derive_booked haccounts target _ _ hrequest (context.tryMakeKey_serves request _) _ rfl

/-! ## Steps and runs -/

theorem booked_of_keeps {procedure : Procedure Reply} (hkeeps : Keeps ledger procedure)
    (haccounts : Accounts ledger [] session) {command : Command}
    (hnone : session.request? command = none) :
    Ensures (· = session) procedure (fun _ ↦ Booked ledger [] session command)
      (Booked ledger [] session command) := by
  unfold Booked reservation?
  rw [hnone]
  apply ensures_weaken hkeeps
  rintro current rfl
  exact haccounts

theorem runKdf_booked (haccounts : Accounts ledger [] session) (command : KdfCommand) :
    Ensures (· = session) (runKdf command) (fun _ ↦ Booked ledger [] session (.kdf command))
      (Booked ledger [] session (.kdf command)) := by
  cases command with
  | new id feature hash fallback =>
    refine booked_of_keeps ?_ haccounts rfl
    exact keeps_bind (keeps_keep (Object.plain_kdf _ fallback) id) fun _ ↦ keeps_pure _
  | info id =>
    refine booked_of_keeps ?_ haccounts rfl
    exact keeps_bind (keeps_find _ id) fun _ ↦ keeps_pure _
  | makeKey name request target => exact makeKey_booked haccounts name request target
  | tryMakeKey name request target => exact tryMakeKey_booked haccounts name request target

theorem runPool_booked (haccounts : Accounts ledger [] session) (command : PoolCommand) :
    Ensures (· = session) (runPool command) (fun _ ↦ Booked ledger [] session (.pool command))
      (Booked ledger [] session (.pool command)) := by
  cases command with
  | new id capacity => exact booked_of_keeps (newPool_keeps id capacity) haccounts rfl
  | clone source target => exact booked_of_keeps (clonePool_keeps source target) haccounts rfl
  | reserve source target size => exact reserve_booked haccounts source target size
  | allocate source target size => exact allocate_booked haccounts source target size
  | info source => exact booked_of_keeps (keeps_pure _) haccounts rfl

theorem action_booked (haccounts : Accounts ledger [] session) (command : Command) :
    Ensures (· = session) (action command) (fun _ ↦ Booked ledger [] session command)
      (Booked ledger [] session command) := by
  cases command with
  | engine command => exact booked_of_keeps (runEngine_keeps command) haccounts rfl
  | provider command => exact booked_of_keeps (runProvider_keeps command) haccounts rfl
  | hash command => exact booked_of_keeps (runHash_keeps command) haccounts rfl
  | cipher command => exact booked_of_keeps (runCipher_keeps command) haccounts rfl
  | kdf command => exact runKdf_booked haccounts command
  | key command => exact booked_of_keeps (runKey_keeps command) haccounts rfl
  | array command => exact booked_of_keeps (runArray_keeps command) haccounts rfl
  | pool command => exact runPool_booked haccounts command
  | drop id => exact booked_of_keeps (drop_keeps id) haccounts rfl

/-- One command: its reservation is noted, and the accounts are in order again. -/
theorem Accounts.run (haccounts : Accounts ledger [] session) (command : Command) :
    Accounts (ledger.noteAny (session.reservation? command)) [] (session.run command).value.2 :=
  (action_booked haccounts command).after rfl

theorem accounts_fresh : Accounts ⟨[], []⟩ [] fresh where
  names := List.nodup_nil
  pools := by simp [fresh]
  enginePool := by simp [fresh, Engine.fresh]
  balanced := Memory.Balanced.empty {}

/-- Any commands: what was asked for on the way is the ledger of the pools. -/
theorem Reached.accounts {reservations : List Reservation} {session : Session}
    (hreached : Reached reservations session) : Accounts ⟨[], reservations⟩ [] session := by
  induction hreached with
  | fresh => exact accounts_fresh
  | started =>
    have hstarted := accounts_fresh.start Config.standard
    exact ⟨hstarted.names, hstarted.pools, hstarted.enginePool, hstarted.balanced⟩
  | @step reservations session _ command ih =>
    have hstep := ih.run command
    cases hreservation : session.reservation? command with
    | none =>
      rw [hreservation] at hstep
      rw [Option.toList_none, List.append_nil]
      exact hstep
    | some reservation =>
      rw [hreservation] at hstep
      exact hstep

end StreamCrypto.Session
