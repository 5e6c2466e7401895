import StreamCrypto.Cipher.Arrays
import StreamCrypto.Proofs.Cipher.Calls
import StreamCrypto.Proofs.Memory.Locking

/-!
# Calls that make arrays

A call on a context makes arrays as it goes: for the pending block, the key and the initialization
vector when a stream starts, and for the output whenever there is one. What becomes of their pages
is traced. That is all that tells such a call from the call without arrays: bytes and contexts are
the same (`value_setupWith`, `bytesOf_updateWith`, `bytesOf_finalizeWith`), and so is what is logged
once the trace is left out (`withoutTrace_eventsWith`).
-/

namespace StreamCrypto

namespace CipherContext

variable {context : CipherContext} {locking : Locking} {direction : Direction} {key iv : Bytes}

/-! ## Setting up -/

theorem setupWith_of_error {error : Error} {after : CipherContext} {events : List Event}
    (hprepare : context.prepare direction key iv = ⟨(.error error, after), events⟩) :
    context.setupWith locking direction key iv = ⟨(.error error, after), events⟩ := by
  unfold setupWith
  rw [hprepare]
  exact Logged.bind_of_silent rfl

/-- The arrays of a stream are made between the opening of its transform and its start. -/
theorem setupWith_of_accepted (hidle : context.isActive = false)
    (haccepted : context.algorithm.keyLength.accepts key.length = true)
    (hiv : context.mode.usesIv = true → iv.length = context.blockSize) :
    context.setupWith locking direction key iv =
      ⟨(.ok (), context.started direction key iv),
        context.weakKeyEvents key ++
          ((locking.lockEach [context.blockSize, key.length, iv.length]).events ++
            [.contextSetUp context.feature direction])⟩ := by
  unfold setupWith
  rw [prepare_of_accepted hidle haccepted hiv]
  rfl

/-- What comes of it is the same as without arrays, and tells what is logged. -/
theorem setupWith_eq (context : CipherContext) (locking : Locking) (direction : Direction)
    (key iv : Bytes) :
    context.setupWith locking direction key iv =
      ⟨(context.setup direction key iv).value,
        match (context.setup direction key iv).value.1 with
        | .ok _ =>
          context.weakKeyEvents key ++
            ((locking.lockEach [context.blockSize, key.length, iv.length]).events ++
              [.contextSetUp context.feature direction])
        | .error _ => (context.setup direction key iv).events⟩ := by
  have hsetup := context.setup_setsUp direction key iv
  generalize context.setup direction key iv = outcome at hsetup ⊢
  cases hsetup with
  | active hactive => exact setupWith_of_error (prepare_of_active hactive)
  | keyRejected hidle hrejected =>
    exact setupWith_of_error (prepare_of_key_rejected hidle hrejected)
  | ivRejected hidle haccepted hrejected =>
    exact setupWith_of_error (prepare_of_iv_rejected hidle haccepted hrejected)
  | accepted hidle haccepted hiv => exact setupWith_of_accepted hidle haccepted hiv

theorem value_setupWith (context : CipherContext) (locking : Locking) (direction : Direction)
    (key iv : Bytes) :
    (context.setupWith locking direction key iv).value =
      (context.setup direction key iv).value := by
  rw [setupWith_eq]

/-! ## Taking data and ending -/

/-- An outcome with the bytes of its array in the place of the array. -/
def bytesOf (outcome : Except Error SecureArray × CipherContext) :
    Except Error Bytes × CipherContext :=
  (outcome.1.map SecureArray.bytes, outcome.2)

theorem bytesOf_updateWith (context : CipherContext) (locking : Locking) (input : Bytes) :
    bytesOf (context.updateWith locking input).value = context.update input := by
  unfold updateWith
  generalize context.update input = outcome
  obtain ⟨result, after⟩ := outcome
  cases result with
  | ok out => rfl
  | error error => rfl

theorem events_updateWith (context : CipherContext) (locking : Locking) (input : Bytes) :
    (context.updateWith locking input).events =
      match (context.update input).1 with
      | .ok out => (locking.lock out.length).events
      | .error _ => [] := by
  unfold updateWith
  generalize context.update input = outcome
  obtain ⟨result, after⟩ := outcome
  cases result with
  | ok out => simp [SecureArray.ofBytes, SecureArray.lock]
  | error error => rfl

theorem finalizeWith_of_misuse {error : Error} (hmisuse : context.misuse? = some error) :
    context.finalizeWith locking = ⟨(.error error, context), []⟩ := by
  unfold finalizeWith
  rcases eq_of_misuse hmisuse with ⟨hlifecycle, rfl⟩ | ⟨hlifecycle, rfl⟩
  · rw [hlifecycle]
    rfl
  · rw [hlifecycle]
    rfl

theorem finalizeWith_of_active {stream : CipherStream}
    (hactive : context.lifecycle = .active stream) :
    context.finalizeWith locking =
      ⟨((context.report (context.lastOutput stream)).value.map fun bytes ↦
          { bytes
            locked := (locking.lock (context.lastLength stream)).value &&
              (context.lastOutput stream).toBool },
        { context with lifecycle := .finished }),
        (locking.lock (context.lastLength stream)).events ++
          (context.report (context.lastOutput stream)).events⟩ := by
  unfold finalizeWith
  rw [hactive]
  change Logged.mk _ (_ ++ ((context.report (context.lastOutput stream)).events ++ [])) = _
  rw [List.append_nil]
  rfl

theorem bytesOf_finalizeWith (context : CipherContext) (locking : Locking) :
    bytesOf (context.finalizeWith locking).value = context.finalize.value := by
  rcases context.misuse_or_active with ⟨error, hmisuse⟩ | ⟨stream, hactive⟩
  · rw [finalizeWith_of_misuse hmisuse, finalize_of_misuse hmisuse]
    rfl
  · rw [finalizeWith_of_active hactive, finalize_of_active hactive]
    cases (context.report (context.lastOutput stream)).value with
    | ok out => rfl
    | error error => rfl

/-! ## Turns with their trace -/

/-- What a call logs, its trace included. -/
def eventsWith (context : CipherContext) (locking : Locking) : CipherCall → List Event
  | .setup direction key iv => (context.setupWith locking direction key iv).events
  | .update input => (context.updateWith locking input).events
  | .finalize => (context.finalizeWith locking).events

/-- What is logged of a weak key is more than traced. -/
theorem withoutTrace_weakKeyEvents (context : CipherContext) (key : Bytes) :
    Event.withoutTrace (context.weakKeyEvents key) = context.weakKeyEvents key := by
  unfold weakKeyEvents
  split
  · rfl
  · rfl

theorem withoutTrace_events_setup (context : CipherContext) (direction : Direction)
    (key iv : Bytes) :
    Event.withoutTrace (context.setup direction key iv).events =
      (context.setup direction key iv).events := by
  have hsetup := context.setup_setsUp direction key iv
  generalize context.setup direction key iv = outcome at hsetup ⊢
  cases hsetup with
  | active => rfl
  | keyRejected => rfl
  | ivRejected =>
    rw [Event.withoutTrace_append, withoutTrace_weakKeyEvents]
    rfl
  | accepted =>
    rw [Event.withoutTrace_append, withoutTrace_weakKeyEvents]
    rfl

theorem withoutTrace_events_report (context : CipherContext) (result : Except Error Bytes) :
    Event.withoutTrace (context.report result).events = (context.report result).events := by
  cases result with
  | ok out => rfl
  | error error =>
    cases hpolicy : context.policy with
    | strict =>
      rw [report_strict hpolicy]
      rfl
    | logAndContinue =>
      rw [report_lenient hpolicy]
      rfl

/-- Without its trace a call with arrays logs what the call without arrays does. -/
theorem withoutTrace_eventsWith (context : CipherContext) (locking : Locking)
    (call : CipherCall) :
    Event.withoutTrace (context.eventsWith locking call) = (context.turn call).events := by
  cases call with
  | setup direction key iv =>
    change _ = (context.setup direction key iv).events
    have hplain := context.withoutTrace_events_setup direction key iv
    have hsetup := context.setup_setsUp direction key iv
    rw [eventsWith, setupWith_eq]
    generalize context.setup direction key iv = outcome at hplain hsetup ⊢
    cases hsetup with
    | active => exact hplain
    | keyRejected => exact hplain
    | ivRejected => exact hplain
    | accepted =>
      simp only [Event.withoutTrace_append, withoutTrace_weakKeyEvents,
        Locking.withoutTrace_lockEach, List.nil_append]
      rfl
  | update input =>
    rw [eventsWith, events_updateWith]
    split
    · exact locking.withoutTrace_lock _
    · rfl
  | finalize =>
    change _ = context.finalize.events
    rw [eventsWith]
    rcases context.misuse_or_active with ⟨error, hmisuse⟩ | ⟨stream, hactive⟩
    · rw [finalizeWith_of_misuse hmisuse, finalize_of_misuse hmisuse]
      rfl
    · rw [finalizeWith_of_active hactive, finalize_of_active hactive, Event.withoutTrace_append,
        Locking.withoutTrace_lock, withoutTrace_events_report, List.nil_append]

end CipherContext

/-- The lengths of the arrays that are made for what a call is given. -/
def CipherCall.argumentLengths : CipherCall → List Nat
  | setup _ key iv => [key.length, iv.length]
  | update _ | finalize => []

/-- All that is logged around the call of a turn, the trace of the arrays that it is given
included. Those come after the three that a call makes at most. -/
def CipherTurn.eventsWith (turn : CipherTurn) (locking : Locking) : List Event :=
  ((locking.skip 3).lockEach turn.call.argumentLengths).events ++
    turn.before.eventsWith locking turn.call

namespace CipherContext

theorem eventsWith_turn (context : CipherContext) (locking : Locking) (call : CipherCall) :
    (context.turn call).eventsWith locking =
      ((locking.skip 3).lockEach call.argumentLengths).events ++
        context.eventsWith locking call := by
  cases call with
  | setup | update | finalize => rfl

theorem withoutTrace_eventsWith_turn (context : CipherContext) (locking : Locking)
    (call : CipherCall) :
    Event.withoutTrace ((context.turn call).eventsWith locking) = (context.turn call).events := by
  rw [eventsWith_turn, Event.withoutTrace_append, Locking.withoutTrace_lockEach, List.nil_append,
    withoutTrace_eventsWith]

end CipherContext

end StreamCrypto
