import StreamCrypto.Direction
import StreamCrypto.Error
import StreamCrypto.Feature

/-!
# Log events

What the library logs, by occasion, and how each event is reported: a level, a message and
named fields. A computation that logs returns its events in order beside its value.
-/

namespace StreamCrypto

inductive Level where
  | trace
  | debug
  | info
  | warn
  | error
  deriving DecidableEq, Repr

def Level.name : Level → String
  | trace => "TRACE"
  | debug => "DEBUG"
  | info => "INFO"
  | warn => "WARN"
  | error => "ERROR"

inductive Event where
  | unsupportedFeature (name : String)
  | engineAlreadyInitialized
  | engineTooOld (current required : String)
  | poolAlreadyInstalled
  | engineInitialized (version : String) (poolBytes : Nat) (lockMemory : Bool)
  | keyLengthRejected (feature : Feature) (length : Nat)
  | weakKey (feature : Feature)
  | setupFailed (feature : Feature) (error : Error)
  | contextSetUp (feature : Feature) (direction : Direction)
  /-- A failure at the end of a stream that is not returned. -/
  | finalizeFailed (feature : Feature) (error : Error)
  | keyDerived (feature : Feature) (keyLength iterations : Nat)
  | derivationFailed (feature : Feature) (cause : Failure)
  | derivingOutsidePool (feature : Feature) (keyLength : Nat)
  | poolExhausted (requested available capacity : Nat)
  /-- The pages of an array are not locked. -/
  | leftUnlocked (length : Nat) (cause : LockError)
  deriving DecidableEq, Repr

namespace Event

/-- The value of a field. -/
inductive Value where
  | text (value : String)
  | number (value : Nat)
  | flag (value : Bool)
  deriving DecidableEq, Repr

def level : Event → Level
  | leftUnlocked _ _ => .trace
  | unsupportedFeature _ | engineAlreadyInitialized | poolAlreadyInstalled | contextSetUp _ _
  | keyDerived _ _ _ => .debug
  | engineInitialized _ _ _ => .info
  | engineTooOld _ _ | keyLengthRejected _ _ | weakKey _ | setupFailed _ _
  | derivingOutsidePool _ _ | poolExhausted _ _ _ => .warn
  | finalizeFailed _ _ | derivationFailed _ _ => .error

def message : Event → String
  | unsupportedFeature _ => "unsupported feature requested"
  | engineAlreadyInitialized => "engine already initialized"
  | engineTooOld _ _ => "engine is older than required, continuing anyway"
  | poolAlreadyInstalled => "secure memory pool already installed"
  | engineInitialized _ _ _ => "engine initialized"
  | keyLengthRejected _ _ => "key length rejected"
  | weakKey _ => "weak key"
  | setupFailed _ _ => "cipher setup failed"
  | contextSetUp _ _ => "cipher context set up"
  | finalizeFailed _ _ => "cipher transform failed"
  | keyDerived _ _ _ => "key derived"
  | derivationFailed _ _ => "key derivation failed"
  | derivingOutsidePool _ _ => "deriving key outside the secure pool"
  | poolExhausted _ _ _ => "secure memory pool exhausted"
  | leftUnlocked _ _ => "secure buffer left unlocked"

def fields : Event → List (String × Value)
  | unsupportedFeature name => [("name", .text name)]
  | engineAlreadyInitialized | poolAlreadyInstalled => []
  | engineTooOld current required => [("have", .text current), ("need", .text required)]
  | engineInitialized version poolBytes lockMemory =>
    [("version", .text version), ("secure_pool_bytes", .number poolBytes),
      ("lock_memory", .flag lockMemory)]
  | keyLengthRejected feature length =>
    [("feature", .text feature.name), ("length", .number length)]
  | weakKey feature => [("feature", .text feature.name)]
  | setupFailed feature error => [("feature", .text feature.name), ("err", .text error.message)]
  | contextSetUp feature direction =>
    [("feature", .text feature.name), ("direction", .text direction.label)]
  | finalizeFailed feature error =>
    [("feature", .text feature.name), ("label", .text "finalize"), ("err", .text error.message)]
  | keyDerived feature keyLength iterations =>
    [("feature", .text feature.name), ("key_length", .number keyLength),
      ("iteration_count", .number iterations)]
  | derivationFailed feature cause =>
    [("feature", .text feature.name), ("err", .text cause.message)]
  | derivingOutsidePool feature keyLength =>
    [("feature", .text feature.name), ("key_length", .number keyLength)]
  | poolExhausted requested available capacity =>
    [("requested", .number requested), ("available", .number available),
      ("capacity", .number capacity)]
  | leftUnlocked length cause => [("len", .number length), ("err", .text cause.message)]

/-- The events that report errors, among others. -/
def errors (events : List Event) : List Event := events.filter fun event ↦ event.level = .error

theorem errors_append (first second : List Event) :
    errors (first ++ second) = errors first ++ errors second :=
  List.filter_append ..

/-- The events that are not only traced. -/
def withoutTrace (events : List Event) : List Event :=
  events.filter fun event ↦ event.level ≠ .trace

theorem withoutTrace_append (first second : List Event) :
    withoutTrace (first ++ second) = withoutTrace first ++ withoutTrace second :=
  List.filter_append ..

theorem errors_withoutTrace (events : List Event) :
    errors (withoutTrace events) = errors events := by
  unfold errors withoutTrace
  rw [List.filter_filter]
  congr 1
  funext event
  cases event.level <;> rfl

end Event

/-- A value with the events that were logged on the way to it. -/
structure Logged (α : Type) where
  value : α
  events : List Event := []

namespace Logged

def emit (event : Event) : Logged Unit := ⟨(), [event]⟩

instance : Monad Logged where
  pure value := ⟨value, []⟩
  bind first next :=
    let second := next first.value
    ⟨second.value, first.events ++ second.events⟩

variable {α β : Type}

@[simp] theorem value_pure (a : α) : (pure a : Logged α).value = a := rfl

@[simp] theorem events_pure (a : α) : (pure a : Logged α).events = [] := rfl

@[simp] theorem value_bind (first : Logged α) (next : α → Logged β) :
    (first >>= next).value = (next first.value).value := rfl

@[simp] theorem events_bind (first : Logged α) (next : α → Logged β) :
    (first >>= next).events = first.events ++ (next first.value).events := rfl

/-- A last step that logs nothing. -/
theorem bind_of_silent {first : Logged α} {next : α → Logged β} {b : β}
    (hnext : next first.value = pure b) : first >>= next = ⟨b, first.events⟩ := by
  change Logged.mk (next first.value).value (first.events ++ (next first.value).events) = _
  rw [hnext, events_pure, List.append_nil, value_pure]

@[simp] theorem value_emit (event : Event) : (emit event).value = () := rfl

@[simp] theorem events_emit (event : Event) : (emit event).events = [event] := rfl

end Logged

end StreamCrypto
