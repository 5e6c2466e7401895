import StreamCrypto.Engine

/-!
# Starting the engine

The first call makes the pool and puts the configuration into force, whatever version it requires;
a version that is not met is worth a warning and no more. Every later call leaves the engine as it
is. A pool that is there before the first call stays; that is logged, and only then
(`poolAlreadyInstalled_mem_iff`).
-/

namespace StreamCrypto.Engine

variable {engine : Engine} {config : Config}

/-- The warning about a version that is not met. -/
def versionWarnings (config : Config) : List Event :=
  if Version.satisfies engineVersion config.requiredVersion = true then []
  else [.engineTooOld engineVersion config.requiredVersion]

/-- The engine with its pool when it is started. -/
def installing (engine : Engine) (config : Config) : Logged Engine :=
  (engine.setPageLocking config.lockMemory).installPool config.poolBytes

theorem start_of_not_initialized (hnew : ¬ engine.initialized = true) (config : Config) :
    engine.start config =
      ⟨(true, { (engine.installing config).value with initialized := true }),
        versionWarnings config ++ ((engine.installing config).events ++
          [.engineInitialized engineVersion config.poolBytes config.lockMemory])⟩ := by
  unfold start versionWarnings
  rw [if_neg hnew]
  cases Version.satisfies engineVersion config.requiredVersion with
  | false => rfl
  | true => rfl

theorem start_of_initialized (hstarted : engine.initialized = true) (config : Config) :
    (engine.start config).value = (false, engine) := by
  rw [start, if_pos hstarted]
  rfl

theorem installing_of_none (hnone : engine.securePool = none) (config : Config) :
    engine.installing config =
      pure { engine with
        securePool := some engine.memory.pools.length
        memory := { (engine.memory.newPool config.poolBytes).2 with
          pageLocking := config.lockMemory } } := by
  have hsame : (engine.setPageLocking config.lockMemory).securePool = none := hnone
  unfold installing installPool
  rw [hsame]
  rfl

theorem installing_of_some {id : PoolId} (hpool : engine.securePool = some id)
    (config : Config) :
    engine.installing config =
      ⟨engine.setPageLocking config.lockMemory, [.poolAlreadyInstalled]⟩ := by
  have hsame : (engine.setPageLocking config.lockMemory).securePool = some id := hpool
  unfold installing installPool
  rw [hsame]
  rfl

/-- The first start of an engine that has no pool yet. -/
theorem value_start_of_none (hnew : ¬ engine.initialized = true)
    (hnone : engine.securePool = none) (config : Config) :
    (engine.start config).value =
      (true,
        { initialized := true
          securePool := some engine.memory.pools.length
          memory := { (engine.memory.newPool config.poolBytes).2 with
            pageLocking := config.lockMemory } }) := by
  rw [start_of_not_initialized hnew, installing_of_none hnone]
  rfl

/-- The first start of an engine that has a pool. -/
theorem value_start_of_some (hnew : ¬ engine.initialized = true) {id : PoolId}
    (hpool : engine.securePool = some id) (config : Config) :
    (engine.start config).value =
      (true, { engine.setPageLocking config.lockMemory with initialized := true }) := by
  rw [start_of_not_initialized hnew, installing_of_some hpool]

/-- The first start puts its configuration into force, with either pool. -/
theorem pageLocking_start (hnew : ¬ engine.initialized = true) (config : Config) :
    (engine.start config).value.2.memory.pageLocking = config.lockMemory := by
  cases hpool : engine.securePool with
  | none => rw [value_start_of_none hnew hpool]
  | some id =>
    rw [value_start_of_some hnew hpool]
    rfl

theorem events_installing (engine : Engine) (config : Config) :
    (engine.installing config).events =
      if engine.securePool.isSome = true then [.poolAlreadyInstalled] else [] := by
  cases hpool : engine.securePool with
  | none =>
    rw [installing_of_none hpool]
    rfl
  | some id =>
    rw [installing_of_some hpool]
    rfl

theorem poolAlreadyInstalled_mem_iff (engine : Engine) (config : Config) :
    .poolAlreadyInstalled ∈ (engine.start config).events ↔
      engine.initialized = false ∧ engine.securePool.isSome = true := by
  by_cases hstarted : engine.initialized = true
  · rw [start, if_pos hstarted]
    simp [hstarted]
  · rw [start_of_not_initialized hstarted, events_installing, versionWarnings]
    cases Version.satisfies engineVersion config.requiredVersion with
    | false => simp [hstarted]
    | true => simp [hstarted]

end StreamCrypto.Engine
