import StreamCrypto.Proofs.Cipher.Alike

/-!
# Keys that can be exchanged

Two keys are interchangeable, each for an algorithm of its own, if they make the same cipher and
both or neither are weak. A context that is given the one wherever another context is given the
other answers and logs the same through any calls, and the two only differ in the algorithm and the
key on record (`turns_rekeyed`). Which keys are interchangeable is not the subject of this module.
-/

namespace StreamCrypto

/-- Two keys of accepted lengths make the same cipher, and both or neither are weak. -/
structure Interchangeable (algorithm other : CipherAlgorithm) (key otherKey : Bytes) : Prop where
  accepted : algorithm.keyLength.accepts key.length = true
  accepted' : other.keyLength.accepts otherKey.length = true
  keyed : other.keyed otherKey = algorithm.keyed key
  weak : other.isWeakKey otherKey = algorithm.isWeakKey key

/-- The second call is the first one, but for a related key if it takes a key. -/
inductive CipherCall.Rekeyed (Keys : Bytes → Bytes → Prop) : CipherCall → CipherCall → Prop
  | setup {key otherKey : Bytes} (hkeys : Keys key otherKey) (direction : Direction)
    (iv : Bytes) : Rekeyed Keys (.setup direction key iv) (.setup direction otherKey iv)
  | update (input : Bytes) : Rekeyed Keys (.update input) (.update input)
  | finalize : Rekeyed Keys .finalize .finalize

theorem CipherCall.Rekeyed.imp {Keys Keys' : Bytes → Bytes → Prop}
    (himp : ∀ key otherKey, Keys key otherKey → Keys' key otherKey) (call other : CipherCall)
    (hcall : Rekeyed Keys call other) : Rekeyed Keys' call other := by
  cases hcall with
  | setup hkeys direction iv => exact .setup (himp _ _ hkeys) direction iv
  | update input => exact .update input
  | finalize => exact .finalize

/-- The second stream is the first one, but for a related key on record. -/
inductive Lifecycle.Rekeyed (Keys : Bytes → Bytes → Prop) : Lifecycle → Lifecycle → Prop
  | unkeyed : Rekeyed Keys .unkeyed .unkeyed
  | active (stream : CipherStream) {key : Bytes} (hkeys : Keys stream.key key) :
    Rekeyed Keys (.active stream) (.active { stream with key })
  | finished : Rekeyed Keys .finished .finished

/-- The second context is the first one, but for its algorithm and a related key on record. -/
def CipherContext.Rekeyed (Keys : Bytes → Bytes → Prop) (algorithm : CipherAlgorithm)
    (first second : CipherContext) : Prop :=
  ∃ lifecycle, second = { first with algorithm, lifecycle } ∧
    first.lifecycle.Rekeyed Keys lifecycle

/-- The turns answer and log the same, and leave contexts that differ in the algorithm and the key
on record only. -/
structure CipherTurn.Rekeyed (Keys : Bytes → Bytes → Prop) (algorithm : CipherAlgorithm)
    (first second : CipherTurn) : Prop where
  answer : second.answer = first.answer
  events : second.events = first.events
  after : first.after.Rekeyed Keys algorithm second.after

/-- The same with the trace, which shows how long a key is but nothing else of it. -/
structure CipherTurn.RekeyedWithTrace (Keys : Bytes → Bytes → Prop) (algorithm : CipherAlgorithm)
    (first second : CipherTurn) : Prop extends first.Rekeyed Keys algorithm second where
  traced : (∀ key otherKey, Keys key otherKey → key.length = otherKey.length) →
    ∀ locking, second.eventsWith locking = first.eventsWith locking

namespace CipherContext

variable {Keys : Bytes → Bytes → Prop} {context first second : CipherContext}
  {algorithm : CipherAlgorithm} {lifecycle : Lifecycle}

/-! ## The buffering -/

theorem key_advance (stream : CipherStream) (input : Bytes) :
    (context.advance stream input).2.key = stream.key := by
  cases hmode : context.mode.isStream with
  | true => rw [advance_of_isStream hmode]
  | false => rw [advance_of_blocks hmode]

section Blocks

variable (hsize : algorithm.blockSize = context.algorithm.blockSize)

include hsize

theorem heldLength_rekeyed :
    heldLength { context with algorithm, lifecycle } = context.heldLength := by
  have hblock : blockSize { context with algorithm, lifecycle } = context.blockSize := hsize
  unfold heldLength
  rw [hblock]

/-- The algorithm takes part in the buffering by its block size only, and the key not at all. -/
theorem advance_rekeyed (stream : CipherStream) (key input : Bytes) :
    advance { context with algorithm, lifecycle } { stream with key } input =
      ((context.advance stream input).1, { (context.advance stream input).2 with key }) := by
  cases hmode : context.mode.isStream with
  | true =>
    have hother : Mode.isStream { context with algorithm, lifecycle }.mode = true := hmode
    rw [advance_of_isStream hmode, advance_of_isStream hother]
  | false =>
    have hother : Mode.isStream { context with algorithm, lifecycle }.mode = false := hmode
    rw [advance_of_blocks hmode, advance_of_blocks hother, handed, heldLength_rekeyed hsize]
    rfl

theorem lastLength_rekeyed (stream : CipherStream) (key : Bytes) :
    lastLength { context with algorithm, lifecycle } { stream with key } =
      context.lastLength stream := by
  have hblock : blockSize { context with algorithm, lifecycle } = context.blockSize := hsize
  unfold lastLength
  rw [hblock]

theorem lastOutput_rekeyed (stream : CipherStream) (key : Bytes) :
    lastOutput { context with algorithm, lifecycle } { stream with key } =
      context.lastOutput stream := by
  have hblock : blockSize { context with algorithm, lifecycle } = context.blockSize := hsize
  unfold lastOutput
  rw [hblock]

end Blocks

/-! ## Turn by turn -/

/-- Both contexts are without a stream for one reason, or both have one stream with related keys
on record. -/
theorem Rekeyed.misuse_or_active (hrekeyed : first.Rekeyed Keys algorithm second) :
    (∃ error, first.misuse? = some error ∧ second.misuse? = some error) ∨
      ∃ stream key, first.lifecycle = .active stream ∧ Keys stream.key key ∧
        second = { first with algorithm, lifecycle := .active { stream with key } } := by
  obtain ⟨lifecycle, rfl, hlifecycle⟩ := hrekeyed
  unfold misuse?
  generalize first.lifecycle = before at hlifecycle ⊢
  cases hlifecycle with
  | unkeyed => exact .inl ⟨.notKeyed, rfl, rfl⟩
  | finished => exact .inl ⟨.finished, rfl, rfl⟩
  | active stream hkeys => exact .inr ⟨stream, _, rfl, hkeys, rfl⟩

/-- Apart from the key nothing that a context reports of its state is another. -/
theorem Rekeyed.status_eq (hrekeyed : first.Rekeyed Keys algorithm second) :
    Status.cipher second.isActive second.direction? second.weakKey =
      Status.cipher first.isActive first.direction? first.weakKey := by
  obtain ⟨lifecycle, rfl, hlifecycle⟩ := hrekeyed
  unfold isActive direction? stream?
  generalize first.lifecycle = before at hlifecycle ⊢
  cases hlifecycle with
  | unkeyed => rfl
  | finished => rfl
  | active stream hkeys => rfl

theorem Rekeyed.isActive_eq (hrekeyed : first.Rekeyed Keys algorithm second) :
    second.isActive = first.isActive := by
  injection hrekeyed.status_eq

section Turns

variable (hsize : algorithm.blockSize = first.algorithm.blockSize)
  (hrekeyed : first.Rekeyed Keys algorithm second)

include hsize hrekeyed

theorem turn_setup_rekeyed {key otherKey : Bytes} (hkeys : Keys key otherKey)
    (hinter : Interchangeable first.algorithm algorithm key otherKey) (direction : Direction)
    (iv : Bytes) :
    CipherTurn.Rekeyed Keys algorithm (first.turn (.setup direction key iv))
      (second.turn (.setup direction otherKey iv)) := by
  have hactive := hrekeyed.isActive_eq
  obtain ⟨lifecycle, rfl, hlifecycle⟩ := hrekeyed
  have hblock : blockSize { first with algorithm, lifecycle } = first.blockSize := hsize
  have hevents : weakKeyEvents { first with algorithm, lifecycle } otherKey =
      first.weakKeyEvents key := by
    simp only [weakKeyEvents, hinter.weak]
  have hsetup := first.setup_setsUp direction key iv
  simp only [turn]
  generalize first.setup direction key iv = outcome at hsetup ⊢
  cases hsetup with
  | active h =>
    rw [setup_of_active (hactive.trans h)]
    exact ⟨rfl, rfl, lifecycle, rfl, hlifecycle⟩
  | keyRejected hidle hrejected => exact absurd hinter.accepted (by simp [hrejected])
  | ivRejected hidle haccepted hrejected =>
    have hother : first.mode.usesIv = true ∧
        iv.length ≠ blockSize { first with algorithm, lifecycle } := by
      rw [hblock]
      exact hrejected
    rw [setup_of_iv_rejected (hactive.trans hidle) hinter.accepted' hother, hevents, hblock]
    refine ⟨rfl, rfl, lifecycle, ?_, hlifecycle⟩
    rw [noting, noting, hinter.weak]
  | accepted hidle haccepted hfits =>
    have hother : first.mode.usesIv = true →
        iv.length = blockSize { first with algorithm, lifecycle } := by
      rw [hblock]
      exact hfits
    rw [setup_of_accepted (hactive.trans hidle) hinter.accepted' hother, hevents]
    refine ⟨rfl, rfl, _, ?_, .active (first.startStream direction key iv) hkeys⟩
    simp only [started, startStream, startTransform, hinter.weak, hinter.keyed]

theorem turn_update_rekeyed (input : Bytes) :
    CipherTurn.Rekeyed Keys algorithm (first.turn (.update input))
      (second.turn (.update input)) := by
  rcases hrekeyed.misuse_or_active with ⟨error, hfirst, hsecond⟩ |
    ⟨stream, key, hactive, hkeys, rfl⟩
  · rw [turn_update_of_misuse hfirst, turn_update_of_misuse hsecond]
    exact ⟨rfl, rfl, hrekeyed⟩
  · rw [turn_update_of_active hactive, turn_update_of_active rfl, advance_rekeyed hsize]
    rw [← key_advance stream input] at hkeys
    exact ⟨rfl, rfl, _, rfl, .active _ hkeys⟩

theorem turn_finalize_rekeyed :
    CipherTurn.Rekeyed Keys algorithm (first.turn .finalize) (second.turn .finalize) := by
  rcases hrekeyed.misuse_or_active with ⟨error, hfirst, hsecond⟩ |
    ⟨stream, key, hactive, hkeys, rfl⟩
  · rw [turn_finalize_of_misuse hfirst, turn_finalize_of_misuse hsecond]
    exact ⟨rfl, rfl, hrekeyed⟩
  · rw [turn_finalize_of_active hactive, turn_finalize_of_active rfl, lastOutput_rekeyed hsize]
    exact ⟨rfl, rfl, _, rfl, .finished⟩

theorem turn_rekeyed {call other : CipherCall}
    (hcall : CipherCall.Rekeyed
      (fun key otherKey ↦ Keys key otherKey ∧
        Interchangeable first.algorithm algorithm key otherKey) call other) :
    CipherTurn.Rekeyed Keys algorithm (first.turn call) (second.turn other) := by
  cases hcall with
  | setup hkeys direction iv =>
    exact turn_setup_rekeyed hsize hrekeyed hkeys.1 hkeys.2 direction iv
  | update input => exact turn_update_rekeyed hsize hrekeyed input
  | finalize => exact turn_finalize_rekeyed hsize hrekeyed

/-- What is traced follows from the answers and from the lengths of keys and blocks. -/
theorem eventsWith_rekeyed {call other : CipherCall}
    (hcall : CipherCall.Rekeyed
      (fun key otherKey ↦ Keys key otherKey ∧
        Interchangeable first.algorithm algorithm key otherKey) call other)
    (hsame : ∀ key otherKey, Keys key otherKey → key.length = otherKey.length)
    (locking : Locking) :
    (second.turn other).eventsWith locking = (first.turn call).eventsWith locking := by
  obtain ⟨hanswer, hevents, -⟩ := turn_rekeyed hsize hrekeyed hcall
  rw [eventsWith_turn, eventsWith_turn]
  cases hcall with
  | @setup key otherKey hkeys direction iv =>
    have hblock : second.blockSize = first.blockSize := by
      obtain ⟨lifecycle, rfl, -⟩ := hrekeyed
      exact hsize
    have hname : second.feature = first.feature := by
      obtain ⟨lifecycle, rfl, -⟩ := hrekeyed
      rfl
    have hwarnings : second.weakKeyEvents otherKey = first.weakKeyEvents key := by
      obtain ⟨lifecycle, rfl, -⟩ := hrekeyed
      simp only [weakKeyEvents, hkeys.2.weak]
    have hresult : (second.setup direction otherKey iv).value.1 =
        (first.setup direction key iv).value.1 := by
      injection hanswer
    have hplain : (second.setup direction otherKey iv).events =
        (first.setup direction key iv).events := hevents
    rw [eventsWith, eventsWith, setupWith_eq, setupWith_eq, hresult, hplain, hwarnings, hblock,
      hname, CipherCall.argumentLengths, CipherCall.argumentLengths, hsame _ _ hkeys.1]
  | update input =>
    have hresult : (second.update input).1 = (first.update input).1 := by
      injection hanswer
    rw [eventsWith, eventsWith, events_updateWith, events_updateWith, hresult]
  | finalize =>
    refine congrArg (_ ++ ·) ?_
    rw [eventsWith, eventsWith]
    rcases hrekeyed.misuse_or_active with ⟨error, hfirst, hsecond⟩ |
      ⟨stream, key, hactive, -, rfl⟩
    · rw [finalizeWith_of_misuse hfirst, finalizeWith_of_misuse hsecond]
    · have hother : lifecycle { first with
          algorithm, lifecycle := .active { stream with key } } = .active { stream with key } := rfl
      rw [finalizeWith_of_active hactive, finalizeWith_of_active hother, lastLength_rekeyed hsize,
        lastOutput_rekeyed hsize]
      rfl

/-- Through any calls a context with another algorithm and another key on record answers and logs
the same, if interchangeable keys stand for each other in the calls. -/
theorem turns_rekeyed {calls others : List CipherCall}
    (hcalls : List.Forall₂ (CipherCall.Rekeyed fun key otherKey ↦ Keys key otherKey ∧
      Interchangeable first.algorithm algorithm key otherKey) calls others) :
    List.Forall₂ (CipherTurn.RekeyedWithTrace Keys algorithm) (first.turns calls)
      (second.turns others) := by
  induction calls generalizing first second others with
  | nil =>
    cases hcalls
    exact .nil
  | cons call calls ih =>
    cases hcalls with
    | cons hcall hrest =>
      have hturn : CipherTurn.RekeyedWithTrace Keys algorithm (first.turn call) (second.turn _) :=
        ⟨turn_rekeyed hsize hrekeyed hcall, eventsWith_rekeyed hsize hrekeyed hcall⟩
      have hsame : (first.turn call).after.algorithm = first.algorithm :=
        congrArg CipherParameters.algorithm (first.parameters_turn call)
      rw [← hsame] at hsize hrest
      exact .cons hturn (ih hsize hturn.after hrest)

end Turns

end CipherContext

end StreamCrypto
