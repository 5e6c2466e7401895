import StreamCrypto.Proofs.Session.Answers
import StreamCrypto.Proofs.Session.Extending
import StreamCrypto.Proofs.Session.Turns

/-!
# The engine is started once

Commands ask the engine to be started in three ways: directly, through a provider, and by asking a
provider for a context of a supported name, whatever its kind. The first such command of a run
starts it and gives its pool a capacity for ever; all later ones leave it alone. What the engine is
like is read off the commands so far (`Started`), and a run keeps it so (`engine_of_past`).
-/

namespace StreamCrypto

namespace SessionTurn

/-- The configuration that the turn has asked the engine to be started with. -/
def startConfig? (turn : SessionTurn) : Option Config := turn.before.startConfig? turn.command

def initializes (turn : SessionTurn) : Bool :=
  !turn.before.engine.initialized && turn.after.engine.initialized

/-- The turn was a call to start the engine that says it has done so. -/
def announces (turn : SessionTurn) : Bool :=
  match turn.command, turn.result with
  | .engine (.start _), .ok (.flag done) => done
  | _, _ => false

/-- What the turn has set page locking to. -/
def locking? (turn : SessionTurn) : Option Bool :=
  match turn.command with
  | .engine (.setPageLocking enabled) => some enabled
  | _ => if turn.initializes = true then turn.startConfig?.map Config.lockMemory else none

/-- The configurations of all requests to start the engine, oldest first. -/
def starts (past : List SessionTurn) : List Config := past.filterMap startConfig?

end SessionTurn

namespace Session

open Procedure SessionTurn

variable {past : List SessionTurn} {session : Session}

/-! ## One turn -/

/-- Apart from page locking, a command does to the engine what it requests, and extends it. -/
theorem requested_run (session : Session) (command : Command) :
    (session.run command).value.2.engine.initialized =
        (session.requested (session.startConfig? command)).initialized ∧
      (session.run command).value.2.engine.securePool =
        (session.requested (session.startConfig? command)).securePool ∧
      (session.requested (session.startConfig? command)).memory.pools.map Pool.capacity <+:
        (session.run command).value.2.engine.memory.pools.map Pool.capacity := by
  have hextends := session.extends_run command
  unfold prepared at hextends
  split at hextends
  · exact ⟨hextends.initialized, hextends.securePool, hextends.capacities⟩
  · exact ⟨hextends.initialized, hextends.securePool, hextends.capacities⟩

theorem requested_of_initialized (hstarted : session.engine.initialized = true)
    (config? : Option Config) : session.requested config? = session.engine := by
  cases config? with
  | none => rfl
  | some config => exact congrArg Prod.snd (Engine.start_of_initialized hstarted config)

theorem initializes_turn (session : Session) (command : Command) :
    (session.turn command).initializes = true ↔
      session.engine.initialized = false ∧ (session.startConfig? command).isSome = true := by
  have hafter := (session.requested_run command).1
  cases hstarted : session.engine.initialized with
  | true => simp [initializes, turn, hstarted]
  | false =>
    cases hconfig : session.startConfig? command with
    | none =>
      rw [hconfig, requested, hstarted] at hafter
      simp [initializes, turn, hafter]
    | some config =>
      rw [hconfig, requested, Engine.start_of_not_initialized (by simp [hstarted])] at hafter
      simp [initializes, turn, hstarted, hafter]

theorem run_start (session : Session) (config : Config) :
    (session.run (.engine (.start config))).value =
      (.ok (.flag (session.engine.start config).value.1),
        { session with engine := (session.engine.start config).value.2 }) := rfl

theorem initializes_of_announces {command : Command}
    (hannounces : (session.turn command).announces = true) :
    (session.turn command).initializes = true := by
  unfold announces turn at hannounces
  split at hannounces
  · next config done hcommand hresult =>
    simp only at hcommand hresult
    subst hcommand hannounces
    rw [run_start, Except.ok.injEq, Reply.flag.injEq] at hresult
    refine (session.initializes_turn _).2 ⟨?_, rfl⟩
    cases hstarted : session.engine.initialized with
    | false => rfl
    | true =>
      rw [Engine.start_of_initialized hstarted] at hresult
      cases hresult
  · cases hannounces

/-- The request of a command decides about page locking only if it is the one that counts. -/
theorem pageLocking_requested (session : Session) (command : Command) :
    (session.requested (session.startConfig? command)).memory.pageLocking =
      (if (session.turn command).initializes = true then
        (session.startConfig? command).map Config.lockMemory
      else none).getD session.engine.memory.pageLocking := by
  have hinitializes := session.initializes_turn command
  cases hstarted : session.engine.initialized with
  | true =>
    rw [hstarted] at hinitializes
    rw [requested_of_initialized hstarted, if_neg fun h ↦ Bool.noConfusion (hinitializes.1 h).1]
    rfl
  | false =>
    cases hconfig : session.startConfig? command with
    | none => simp [requested]
    | some config =>
      rw [hconfig] at hinitializes
      rw [if_pos (hinitializes.2 ⟨hstarted, rfl⟩), requested,
        Engine.pageLocking_start (by simp [hstarted])]
      rfl

theorem pageLocking_run (session : Session) (command : Command) :
    (session.run command).value.2.engine.memory.pageLocking =
      (session.turn command).locking?.getD session.engine.memory.pageLocking := by
  rw [(session.extends_run command).pageLocking]
  by_cases hlocking : ∃ enabled, command = .engine (.setPageLocking enabled)
  · obtain ⟨enabled, rfl⟩ := hlocking
    rfl
  · have hprepared : session.prepared command =
        session.requested (session.startConfig? command) := by
      unfold prepared
      split
      · next enabled => exact absurd ⟨enabled, rfl⟩ hlocking
      · rfl
    have hset : (session.turn command).locking? =
        if (session.turn command).initializes = true then
          (session.startConfig? command).map Config.lockMemory
        else none := by
      unfold locking?
      split
      · next enabled hcommand => exact absurd ⟨enabled, hcommand⟩ hlocking
      · rfl
    rw [hprepared, hset, pageLocking_requested]

/-! ## Runs -/

/-- The state of the engine, as the past decides it. -/
structure Started (past : List SessionTurn) (session : Session) : Prop where
  idle : starts past = [] →
    session.engine.initialized = false ∧ session.engine.securePool = none ∧
      past.countP announces = 0
  running : ∀ config, (starts past).head? = some config →
    session.engine.initialized = true ∧ past.countP announces ≤ 1 ∧
      ∃ id, session.engine.securePool = some id ∧
        (session.engine.memory.pools.map Pool.capacity)[id]? = some config.poolBytes
  locking : session.engine.memory.pageLocking = ((past.filterMap locking?).getLast?).getD true

theorem started_fresh : Started [] fresh where
  idle _ := ⟨rfl, rfl, rfl⟩
  running _ hconfig := by cases hconfig
  locking := rfl

theorem Started.initialized_iff (hstarted : Started past session) :
    session.engine.initialized = true ↔ starts past ≠ [] := by
  cases hstarts : starts past with
  | nil => simp [(hstarted.idle hstarts).1]
  | cons config rest =>
    simp [(hstarted.running config (by rw [hstarts]; rfl)).1]

theorem starts_concat (past : List SessionTurn) (session : Session) (command : Command) :
    starts (past ++ [session.turn command]) =
      starts past ++ (session.startConfig? command).toList := by
  rw [starts, List.filterMap_append]
  rfl

theorem Started.locking_turn (hstarted : Started past session) (command : Command) :
    (session.turn command).after.engine.memory.pageLocking =
      (((past ++ [session.turn command]).filterMap locking?).getLast?).getD true := by
  refine (session.pageLocking_run command).trans ?_
  rw [List.filterMap_append]
  cases hlocking : (session.turn command).locking? with
  | none =>
    rw [List.filterMap_cons_none hlocking, List.filterMap_nil, List.append_nil]
    exact hstarted.locking
  | some enabled =>
    rw [List.filterMap_cons_some hlocking, List.filterMap_nil, List.getLast?_concat]
    rfl

theorem getElem?_of_prefix {first second : List Nat} (hextends : first <+: second) {i n : Nat}
    (hget : first[i]? = some n) : second[i]? = some n := by
  obtain ⟨rest, rfl⟩ := hextends
  obtain ⟨hlt, -⟩ := List.getElem?_eq_some_iff.1 hget
  rw [List.getElem?_append_left hlt, hget]

theorem countP_announces_concat (past : List SessionTurn) {turn : SessionTurn} :
    (past ++ [turn]).countP announces =
      past.countP announces + if turn.announces = true then 1 else 0 := by
  rw [List.countP_append, List.countP_singleton]

/-- A turn that does not start the engine says nothing of the kind. -/
theorem countP_announces_of_not_initializes {command : Command}
    (hquiet : ¬ (session.turn command).initializes = true) :
    (past ++ [session.turn command]).countP announces = past.countP announces := by
  rw [countP_announces_concat, if_neg fun h ↦ hquiet (initializes_of_announces h)]
  rfl

/-- Once the engine has been started, a turn leaves its pool to it. -/
theorem Started.turn_of_initialized (hstarted : Started past session)
    (hinitialized : session.engine.initialized = true) (command : Command) :
    Started (past ++ [session.turn command]) (session.turn command).after := by
  have hstarts := hstarted.initialized_iff.1 hinitialized
  obtain ⟨hinit, hpool, hcapacities⟩ := session.requested_run command
  rw [requested_of_initialized hinitialized] at hinit hpool hcapacities
  have hquiet : ¬ (session.turn command).initializes = true := by
    rw [initializes_turn, hinitialized]
    simp
  constructor
  · intro hidle
    rw [starts_concat] at hidle
    exact absurd (List.append_eq_nil_iff.1 hidle).1 hstarts
  · intro config hconfig
    obtain ⟨first, rest, hfirst⟩ := List.exists_cons_of_ne_nil hstarts
    rw [starts_concat, hfirst, List.cons_append, List.head?_cons, ← List.head?_cons,
      ← hfirst] at hconfig
    obtain ⟨-, hcount, id, hid, hcapacity⟩ := hstarted.running config hconfig
    rw [countP_announces_of_not_initializes hquiet]
    refine ⟨hinit.trans hinitialized, hcount, id, hpool.trans hid, ?_⟩
    exact getElem?_of_prefix hcapacities hcapacity
  · exact hstarted.locking_turn command

/-- The first request starts the engine, and until then nothing does. -/
theorem Started.turn_of_not_initialized (hstarted : Started past session)
    (hnew : session.engine.initialized = false) (command : Command) :
    Started (past ++ [session.turn command]) (session.turn command).after := by
  have hstarts : starts past = [] := by
    cases hsome : starts past with
    | nil => rfl
    | cons config rest =>
      cases hnew.symm.trans (hstarted.initialized_iff.2 (by simp [hsome]))
  obtain ⟨-, hpool, hcount⟩ := hstarted.idle hstarts
  obtain ⟨hinit, hafter, hcapacities⟩ := session.requested_run command
  refine ⟨?_, ?_, hstarted.locking_turn command⟩
  · intro hidle
    rw [starts_concat, hstarts, List.nil_append, Option.toList_eq_nil_iff] at hidle
    rw [hidle] at hinit hafter
    have hquiet : ¬ (session.turn command).initializes = true := by
      rw [initializes_turn, hidle]
      simp
    rw [countP_announces_of_not_initializes hquiet]
    exact ⟨hinit.trans hnew, hafter.trans hpool, hcount⟩
  · intro config hconfig
    rw [starts_concat, hstarts, List.nil_append, Option.head?_toList] at hconfig
    rw [hconfig, requested, Engine.value_start_of_none (by simp [hnew]) hpool]
      at hinit hafter hcapacities
    refine ⟨hinit, ?_, session.engine.memory.pools.length, hafter, ?_⟩
    · rw [countP_announces_concat, hcount]
      split
      · exact Nat.le_refl _
      · exact Nat.zero_le _
    · exact getElem?_of_prefix hcapacities (by simp [Memory.newPool])

theorem Started.turn (hstarted : Started past session) (command : Command) :
    Started (past ++ [session.turn command]) (session.turn command).after := by
  cases hinitialized : session.engine.initialized with
  | true => exact hstarted.turn_of_initialized hinitialized command
  | false => exact hstarted.turn_of_not_initialized hinitialized command

theorem started_turns (commands : List Command) :
    Started (fresh.turns commands) (fresh.afterCommands commands) :=
  turns_invariant (fun _ _ command _ hstarted ↦ hstarted.turn command) started_fresh

/-! ## Requests after the first -/

/-- The slot that a command fills with a new context. -/
def created? : Command → Option String
  | .provider (.create _ id _) => some id
  | .provider (.createHash _ id _) => some id
  | .provider (.createCipher _ id _) => some id
  | .provider (.createKdf _ id _) => some id
  | _ => none

section Later

variable (hstarted : session.engine.initialized = true)

include hstarted

theorem engine_createKind_of_initialized {α : Type} (select : Context → Option α)
    (wrap : α → Object) (typeName : α → String) (provider name : String) {id : String}
    (hfree : (session.slots.get? id).bind Object.lease? = none) :
    Ensures (· = session) (createKind (Provider.createKind select) wrap typeName provider id name)
      (fun _ after ↦ after.engine = session.engine)
      (fun after ↦ after.engine = session.engine) := by
  refine withProvider_ensures (M := fun _ ↦ (· = session)) (fun _ ↦ rfl) ?_ ?_
  · intro owner howner
    rw [Provider.engine_createKind, engine_createContext howner,
      requested_of_initialized hstarted]
  · intro result
    refine ensures_bind (M := fun _ ↦ (· = session))
      (ensures_settleAs (fun _ _ h _ ↦ h) fun _ _ h _ ↦ h ▸ rfl) fun context ↦ ?_
    refine ensures_bind (M := fun _ after ↦ after.engine = session.engine) (ensures_modify ?_)
      fun _ ↦ ensures_pure fun _ h ↦ h
    rintro current rfl
    exact engine_put hfree _

theorem engine_create_of_initialized (provider name : String) {id : String}
    (hfree : (session.slots.get? id).bind Object.lease? = none) :
    Ensures (· = session) (runProvider (.create provider id name))
      (fun _ after ↦ after.engine = session.engine)
      (fun after ↦ after.engine = session.engine) := by
  refine withProvider_ensures (M := fun _ ↦ (· = session)) (fun _ ↦ rfl) ?_ ?_
  · intro owner howner
    rw [engine_createContext howner, requested_of_initialized hstarted]
  · intro context
    cases context with
    | none => exact ensures_pure fun _ h ↦ h ▸ rfl
    | some context =>
      refine ensures_bind (M := fun _ after ↦ after.engine = session.engine) (ensures_modify ?_)
        fun _ ↦ ensures_pure fun _ h ↦ h
      rintro current rfl
      exact engine_put hfree _

theorem engine_startProvider_of_initialized (id : String) :
    Ensures (· = session) (runProvider (.start id))
      (fun _ after ↦ after.engine = session.engine)
      (fun after ↦ after.engine = session.engine) := by
  refine withProvider_ensures (M := fun _ ↦ (· = session)) (fun _ ↦ rfl) ?_ fun _ ↦
    ensures_pure fun _ h ↦ h ▸ rfl
  intro provider _
  have hengine := requested_of_initialized hstarted (some provider.config)
  exact congrArg (fun engine ↦ { session with engine }) hengine

/-- A request that comes too late leaves the whole engine alone, if the context it may make drops
nothing that is charged. -/
theorem engine_run_of_initialized {command : Command}
    (hrequest : (session.startConfig? command).isSome = true)
    (hfree : ∀ id, created? command = some id →
      (session.slots.get? id).bind Object.lease? = none) :
    (session.run command).value.2.engine = session.engine := by
  unfold startConfig? at hrequest
  split at hrequest
  · exact requested_of_initialized hstarted (some _)
  · exact (engine_startProvider_of_initialized hstarted _).after rfl
  · exact (engine_create_of_initialized hstarted _ _ (hfree _ rfl)).after rfl
  · exact (engine_createKind_of_initialized hstarted _ _ _ _ _ (hfree _ rfl)).after rfl
  · exact (engine_createKind_of_initialized hstarted _ _ _ _ _ (hfree _ rfl)).after rfl
  · exact (engine_createKind_of_initialized hstarted _ _ _ _ _ (hfree _ rfl)).after rfl
  · cases hrequest

end Later

/-- No way to ask for a start, with any configuration, changes the engine. -/
structure Closed (engine : Engine) : Prop where
  start : ∀ config, (engine.start config).value = (false, engine)
  startEngine : ∀ provider : Provider, (provider.startEngine engine).value = engine
  createContext : ∀ (provider : Provider) name,
    (provider.createContext name engine).value.2 = engine
  createHash : ∀ (provider : Provider) name, (provider.createHash name engine).value.2 = engine
  createCipher : ∀ (provider : Provider) name, (provider.createCipher name engine).value.2 = engine
  createKdf : ∀ (provider : Provider) name, (provider.createKdf name engine).value.2 = engine

theorem closed_of_initialized {engine : Engine} (hstarted : engine.initialized = true) :
    Closed engine := by
  have hcreate (provider : Provider) (name : String) :
      (provider.createContext name engine).value.2 = engine := by
    rw [Provider.engine_createContext]
    split
    · rw [Engine.start_of_initialized hstarted]
    · rfl
  have hkind {α : Type} (select : Context → Option α) (provider : Provider) (name : String) :
      (provider.createKind select name engine).value.2 = engine :=
    (provider.engine_createKind select name engine).trans (hcreate provider name)
  exact {
    start := Engine.start_of_initialized hstarted
    startEngine := fun provider ↦
      congrArg Prod.snd (Engine.start_of_initialized hstarted provider.config)
    createContext := hcreate
    createHash := hkind _
    createCipher := hkind _
    createKdf := hkind _ }

/-! ## Every run -/

/-- All that the past decides about the engine, and what the next command can do to it. -/
structure EngineOf (past : List SessionTurn) (session : Session) : Prop where
  installed : session.engine.initialized = true ↔ session.engine.securePool.isSome = true
  initialized : session.engine.initialized = true ↔ starts past ≠ []
  /-- Unsupported names ask for nothing. -/
  first : ∀ command, (session.turn command).initializes = true ↔
    starts past = [] ∧ (session.startConfig? command).isSome = true
  capacity : ∀ config, (starts past).head? = some config →
    ∃ id, session.engine.securePool = some id ∧ (session.pool id).capacity = config.poolBytes
  pool : ∀ id command, session.engine.securePool = some id →
    (session.run command).value.2.engine.securePool = some id
  /-- There is never a pool in the way of the one that a start installs. -/
  unhindered : ∀ config, .poolAlreadyInstalled ∉ (session.engine.start config).events
  announced : past.countP announces ≤ 1
  closed : starts past ≠ [] → Closed session.engine
  later : ∀ command, starts past ≠ [] → (session.startConfig? command).isSome = true →
    (∀ id, created? command = some id → (session.slots.get? id).bind Object.lease? = none) →
      (session.run command).value.2.engine = session.engine
  locking : session.engine.memory.pageLocking = ((past.filterMap locking?).getLast?).getD true

theorem Started.installed (hstarted : Started past session) :
    session.engine.initialized = true ↔ session.engine.securePool.isSome = true := by
  cases hstarts : starts past with
  | nil =>
    obtain ⟨hnew, hpool, -⟩ := hstarted.idle hstarts
    simp [hnew, hpool]
  | cons config rest =>
    obtain ⟨hinit, -, id, hpool, -⟩ := hstarted.running config (by rw [hstarts]; rfl)
    simp [hinit, hpool]

theorem Started.announced (hstarted : Started past session) : past.countP announces ≤ 1 := by
  cases hstarts : starts past with
  | nil =>
    rw [(hstarted.idle hstarts).2.2]
    exact Nat.zero_le 1
  | cons config rest => exact (hstarted.running config (by rw [hstarts]; rfl)).2.1

theorem engineOf_of_started (hstarted : Started past session) : EngineOf past session where
  installed := hstarted.installed
  initialized := hstarted.initialized_iff
  first command := by
    rw [initializes_turn, ← Bool.not_eq_true, hstarted.initialized_iff, ne_eq, Classical.not_not]
  capacity config hconfig := by
    obtain ⟨-, -, id, hpool, hcapacity⟩ := hstarted.running config hconfig
    refine ⟨id, hpool, ?_⟩
    rw [Session.pool, Memory.capacity_pool, hcapacity, Option.getD_some]
  pool id command hpool := by
    have hinit := hstarted.installed.2 (by rw [hpool]; rfl)
    rw [(session.requested_run command).2.1, requested_of_initialized hinit, hpool]
  unhindered config hmem := by
    obtain ⟨hnew, hpool⟩ := (session.engine.poolAlreadyInstalled_mem_iff config).1 hmem
    rw [hstarted.installed.2 hpool] at hnew
    cases hnew
  announced := hstarted.announced
  closed hstarts := closed_of_initialized (hstarted.initialized_iff.2 hstarts)
  later command hstarts hrequest hfree :=
    engine_run_of_initialized (hstarted.initialized_iff.2 hstarts) hrequest hfree
  locking := hstarted.locking

/-- Every run of commands in a fresh process. -/
theorem engine_of_past (commands : List Command) :
    EngineOf (fresh.turns commands) (fresh.afterCommands commands) :=
  engineOf_of_started (started_turns commands)

end Session

end StreamCrypto
