import StreamCrypto.Proofs.Cipher.Calls

/-!
# Setting up succeeds or leaves no trace

Setting up checks three things in a fixed order: whether the context is active, the length of the
key, and the length of the initialization vector (`result_setup`). The engine looks at both lengths
again when it opens a transform. The two layers agree on every length
(`CipherAlgorithm.accepts_eq_takesKeyOf`), so whatever gets as far as the engine passes there too.

A success leaves a stream that has been given no data (`after_setup`). A failure changes the weak
key flag at most, and no call answers or logs anything else for that (`reports_flagging`). So a
stream that is running, and a context that is waiting to be set up, go on as if the call had not
been made.
-/

namespace StreamCrypto

theorem Mode.usesIv_iff (mode : Mode) : mode.usesIv = true ↔ mode = .cbc ∨ mode = .cfb := by
  cases mode <;> simp [usesIv]

/-- What the caller and the log get to know of a turn. -/
def CipherTurn.report (turn : CipherTurn) : CipherAnswer × List Event := (turn.answer, turn.events)

namespace CipherContext

/-! ## The weak key flag takes no part -/

/-- The context with its weak key flag set to some value. -/
def flagging (context : CipherContext) (weakKey : Bool) : CipherContext := { context with weakKey }

theorem setup_flagging (context : CipherContext) (weakKey : Bool) (direction : Direction)
    (key iv : Bytes) :
    ∃ later, (context.flagging weakKey).setup direction key iv =
      ⟨((context.setup direction key iv).value.1,
        (context.setup direction key iv).value.2.flagging later),
        (context.setup direction key iv).events⟩ := by
  have hsame : (context.flagging weakKey).isActive = context.isActive := rfl
  have hsetup := context.setup_setsUp direction key iv
  generalize context.setup direction key iv = outcome at hsetup ⊢
  cases hsetup with
  | active hactive => exact ⟨weakKey, setup_of_active (hsame.trans hactive)⟩
  | keyRejected hidle hkey => exact ⟨weakKey, setup_of_key_rejected (hsame.trans hidle) hkey⟩
  | ivRejected hidle hkey hiv =>
    exact ⟨context.algorithm.isWeakKey key, setup_of_iv_rejected (hsame.trans hidle) hkey hiv⟩
  | accepted hidle hkey hiv =>
    exact ⟨context.algorithm.isWeakKey key, setup_of_accepted (hsame.trans hidle) hkey hiv⟩

theorem turn_flagging (context : CipherContext) (weakKey : Bool) (call : CipherCall) :
    ((context.flagging weakKey).turn call).report = (context.turn call).report ∧
      ∃ later, ((context.flagging weakKey).turn call).after =
        (context.turn call).after.flagging later := by
  cases call with
  | setup direction key iv =>
    obtain ⟨later, hsetup⟩ := context.setup_flagging weakKey direction key iv
    simp only [turn, CipherTurn.report, hsetup]
    exact ⟨trivial, later, rfl⟩
  | update input =>
    rcases context.misuse_or_active with ⟨error, hmisuse⟩ | ⟨stream, hactive⟩
    · have hother : (context.flagging weakKey).misuse? = some error := hmisuse
      rw [turn_update_of_misuse hother, turn_update_of_misuse hmisuse]
      exact ⟨rfl, weakKey, rfl⟩
    · have hother : (context.flagging weakKey).lifecycle = .active stream := hactive
      rw [turn_update_of_active hother, turn_update_of_active hactive]
      exact ⟨rfl, weakKey, rfl⟩
  | finalize =>
    rcases context.misuse_or_active with ⟨error, hmisuse⟩ | ⟨stream, hactive⟩
    · have hother : (context.flagging weakKey).misuse? = some error := hmisuse
      rw [turn_finalize_of_misuse hother, turn_finalize_of_misuse hmisuse]
      exact ⟨rfl, weakKey, rfl⟩
    · have hother : (context.flagging weakKey).lifecycle = .active stream := hactive
      rw [turn_finalize_of_active hother, turn_finalize_of_active hactive]
      exact ⟨rfl, weakKey, rfl⟩

/-- Whatever is called, the flag is only carried along. -/
theorem reports_flagging (context : CipherContext) (weakKey : Bool) (calls : List CipherCall) :
    ((context.flagging weakKey).turns calls).map CipherTurn.report =
      (context.turns calls).map CipherTurn.report := by
  induction calls generalizing context weakKey with
  | nil => rfl
  | cons call calls ih =>
    obtain ⟨hreport, later, hafter⟩ := context.turn_flagging weakKey call
    rw [turns, turns, List.map_cons, List.map_cons, hreport, hafter, ih]

/-! ## What setting up promises -/

/-- The outcome of setting up, whatever was done with the context before. -/
structure SetupContract (context : CipherContext) (direction : Direction) (key iv : Bytes) :
    Prop where
  /-- The checks, in their order. -/
  result : (context.setup direction key iv).value.1 =
    if context.isActive = true then .error .alreadyKeyed
    else if context.algorithm.keyLength.accepts key.length = false then
      .error (.invalidKeyLength context.algorithm.name key.length context.algorithm.keyLength)
    else if (context.mode = .cbc ∨ context.mode = .cfb) ∧ iv.length ≠ context.blockSize then
      .error (.invalidIvLength context.blockSize iv.length)
    else .ok ()
  /-- A stream with this key and initialization vector that has been given no data. -/
  started : (context.setup direction key iv).value.1 = .ok () →
    (context.setup direction key iv).value.2 = context.started direction key iv
  neverBackend : ∀ stage reason,
    (context.setup direction key iv).value.1 ≠ .error (.backendSetup stage reason)
  /-- The contract of the context and the cipher of the engine take keys of the same lengths. -/
  layersAgree : ∀ length,
    context.algorithm.keyLength.accepts length = context.algorithm.takesKeyOf length
  /-- What the context lets through, the engine does not refuse. -/
  enginePasses : context.algorithm.keyLength.accepts key.length = true →
    (context.mode.usesIv = true → iv.length = context.blockSize) →
    ∃ cipher transform, context.algorithm.keyed? key = some cipher ∧
      Transform.start? cipher context.mode direction iv = some transform
  /-- Lifecycle, direction, key, initialization vector, pending bytes and chaining state are the
  old ones. -/
  kept : ∀ error, (context.setup direction key iv).value.1 = .error error →
    (context.setup direction key iv).value.2 =
      context.flagging (context.setup direction key iv).value.2.weakKey
  flagKept : ∀ error, (context.setup direction key iv).value.1 = .error error →
    (∀ expected actual, error ≠ .invalidIvLength expected actual) →
    (context.setup direction key iv).value.2.weakKey = context.weakKey
  flagNoted : ∀ expected actual,
    (context.setup direction key iv).value.1 = .error (.invalidIvLength expected actual) →
    (context.setup direction key iv).value.2.weakKey = context.algorithm.isWeakKey key
  /-- All later calls answer and log what they would have without this one. -/
  continues : ∀ error, (context.setup direction key iv).value.1 = .error error →
    ∀ calls, ((context.setup direction key iv).value.2.turns calls).map CipherTurn.report =
      (context.turns calls).map CipherTurn.report

variable {context : CipherContext} {direction : Direction} {key iv : Bytes}

theorem result_setup (context : CipherContext) (direction : Direction) (key iv : Bytes) :
    (context.setup direction key iv).value.1 =
      if context.isActive = true then .error .alreadyKeyed
      else if context.algorithm.keyLength.accepts key.length = false then
        .error (.invalidKeyLength context.algorithm.name key.length context.algorithm.keyLength)
      else if (context.mode = .cbc ∨ context.mode = .cfb) ∧ iv.length ≠ context.blockSize then
        .error (.invalidIvLength context.blockSize iv.length)
      else .ok () := by
  have hsetup := context.setup_setsUp direction key iv
  generalize context.setup direction key iv = outcome at hsetup ⊢
  cases hsetup with
  | active hactive => simp [hactive]
  | keyRejected hidle hkey => simp [hidle, hkey]
  | ivRejected hidle hkey hiv => simp [hidle, hkey, hiv.2, ← Mode.usesIv_iff, hiv.1]
  | accepted hidle hkey hiv =>
    have hfits : ¬ ((context.mode = .cbc ∨ context.mode = .cfb) ∧ iv.length ≠ context.blockSize) :=
      fun h ↦ h.2 (hiv (context.mode.usesIv_iff.2 h.1))
    simp [hidle, hkey, hfits]

theorem after_setup (hset : (context.setup direction key iv).value.1 = .ok ()) :
    (context.setup direction key iv).value.2 = context.started direction key iv := by
  have hsetup := context.setup_setsUp direction key iv
  generalize context.setup direction key iv = outcome at hsetup hset ⊢
  cases hsetup with
  | active | keyRejected | ivRejected => cases hset
  | accepted => rfl

/-- A failure leaves the context as it was, or has noted the key before it failed for the
initialization vector. -/
theorem after_failed_setup {error : Error}
    (hfailed : (context.setup direction key iv).value.1 = .error error) :
    ((context.setup direction key iv).value.2 = context ∧
        ∀ expected actual, error ≠ .invalidIvLength expected actual) ∨
      (context.setup direction key iv).value.2 =
          context.flagging (context.algorithm.isWeakKey key) ∧
        error = .invalidIvLength context.blockSize iv.length := by
  have hsetup := context.setup_setsUp direction key iv
  generalize context.setup direction key iv = outcome at hsetup hfailed ⊢
  cases hsetup with
  | active =>
    cases hfailed
    exact .inl ⟨rfl, nofun⟩
  | keyRejected =>
    cases hfailed
    exact .inl ⟨rfl, nofun⟩
  | ivRejected =>
    cases hfailed
    exact .inr ⟨rfl, rfl⟩
  | accepted => cases hfailed

theorem not_backendSetup (context : CipherContext) (direction : Direction) (key iv : Bytes)
    (stage reason : String) :
    (context.setup direction key iv).value.1 ≠ .error (.backendSetup stage reason) := by
  rw [result_setup]
  split
  · nofun
  · split
    · nofun
    · split
      · nofun
      · nofun

/-- Setting up succeeds exactly when its checks pass, fails in their order, and is atomic. -/
theorem setup_meets_contract (context : CipherContext) (direction : Direction) (key iv : Bytes) :
    SetupContract context direction key iv where
  result := result_setup context direction key iv
  started := after_setup
  neverBackend := not_backendSetup context direction key iv
  layersAgree := context.algorithm.accepts_eq_takesKeyOf
  enginePasses haccepted hiv :=
    ⟨_, _, CipherAlgorithm.keyed?_of_accepts haccepted, Transform.start?_eq_some fun huses ↦ by
      rw [CipherAlgorithm.blockSize_keyed]
      exact hiv huses⟩
  kept error hfailed := by
    rcases after_failed_setup hfailed with ⟨hafter, -⟩ | ⟨hafter, -⟩
    · rw [hafter]
      rfl
    · rw [hafter]
      rfl
  flagKept error hfailed hother := by
    rcases after_failed_setup hfailed with ⟨hafter, -⟩ | ⟨-, herror⟩
    · rw [hafter]
    · exact absurd herror (hother _ _)
  flagNoted expected actual hfailed := by
    rcases after_failed_setup hfailed with ⟨-, hother⟩ | ⟨hafter, -⟩
    · exact absurd rfl (hother expected actual)
    · rw [hafter]
      rfl
  continues error hfailed calls := by
    rcases after_failed_setup hfailed with ⟨hafter, -⟩ | ⟨hafter, -⟩
    · rw [hafter]
    · rw [hafter, reports_flagging]

end CipherContext

end StreamCrypto
