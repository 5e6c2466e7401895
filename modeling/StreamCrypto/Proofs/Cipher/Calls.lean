import StreamCrypto.Proofs.Cipher.Ending
import StreamCrypto.Session.Command

/-!
# Calls on a cipher context

Any use of a context is a list of calls, and each call makes a turn: what was there before, what
is answered and logged, and what is there afterwards. No call changes the parameters of a context
(`parameters_afterCalls`), and its feature and its policy take no part in what becomes of it
(`after_turn_relabel`). Two runs are compared turn by turn: it is enough that related contexts
make matching turns and stay related (`rel_turns`).
-/

namespace StreamCrypto

/-- What can be asked of a cipher context. -/
inductive CipherCall where
  | setup (direction : Direction) (key iv : Bytes)
  | update (input : Bytes)
  | finalize

inductive CipherAnswer where
  | ready (result : Except Error Unit)
  | output (result : Except Error Bytes)

/-- Why a call has failed. -/
def CipherAnswer.error? : CipherAnswer → Option Error
  | ready (.error error) | output (.error error) => some error
  | ready (.ok _) | output (.ok _) => none

/-- One call with all that comes of it. -/
structure CipherTurn where
  before : CipherContext
  call : CipherCall
  answer : CipherAnswer
  events : List Event
  after : CipherContext

/-- What a caller can tell after a turn: the answer, and what the context shows of itself. -/
structure CipherObservation where
  answer : CipherAnswer
  status : Status
  details : CipherDetails

def CipherTurn.observation (turn : CipherTurn) : CipherObservation where
  answer := turn.answer
  status := .cipher turn.after.isActive turn.after.direction? turn.after.weakKey
  details := turn.after.details

/-- What a context is made with. Its feature only names it. -/
structure CipherParameters where
  algorithm : CipherAlgorithm
  mode : Mode
  padding : Bool
  policy : FailurePolicy
  deriving DecidableEq

namespace CipherContext

def parameters (context : CipherContext) : CipherParameters :=
  ⟨context.algorithm, context.mode, context.padding, context.policy⟩

def turn (context : CipherContext) (call : CipherCall) : CipherTurn :=
  match call with
  | .setup direction key iv =>
    let (result, after) := (context.setup direction key iv).value
    ⟨context, call, .ready result, (context.setup direction key iv).events, after⟩
  | .update input =>
    let (result, after) := context.update input
    ⟨context, call, .output result, [], after⟩
  | .finalize =>
    let (result, after) := context.finalize.value
    ⟨context, call, .output result, context.finalize.events, after⟩

/-- The turns that calls make, one after the other. -/
def turns (context : CipherContext) : List CipherCall → List CipherTurn
  | [] => []
  | call :: calls => context.turn call :: (context.turn call).after.turns calls

/-- The context that calls lead to. -/
def afterCalls (context : CipherContext) : List CipherCall → CipherContext
  | [] => context
  | call :: calls => (context.turn call).after.afterCalls calls

theorem turns_append (context : CipherContext) (first second : List CipherCall) :
    context.turns (first ++ second) =
      context.turns first ++ (context.afterCalls first).turns second := by
  induction first generalizing context with
  | nil => rfl
  | cons call first ih => simp only [List.cons_append, turns, afterCalls, ih]

theorem afterCalls_append (context : CipherContext) (first second : List CipherCall) :
    context.afterCalls (first ++ second) = (context.afterCalls first).afterCalls second := by
  induction first generalizing context with
  | nil => rfl
  | cons call first ih => exact ih _

/-- What one turn preserves of a context and its past, a run preserves. -/
theorem turns_invariant {Holds : List CipherTurn → CipherContext → Prop}
    (hstep : ∀ past context call, Holds past context →
      Holds (past ++ [context.turn call]) (context.turn call).after)
    {past : List CipherTurn} {context : CipherContext} (hholds : Holds past context)
    (calls : List CipherCall) :
    Holds (past ++ context.turns calls) (context.afterCalls calls) := by
  induction calls generalizing past context with
  | nil => rwa [turns, List.append_nil]
  | cons call calls ih =>
    have hrest := ih (hstep past context call hholds)
    rwa [List.append_assoc] at hrest

/-- Two runs of the same calls match turn by turn if related contexts make matching turns and
stay related. -/
theorem rel_turns {Related : CipherContext → CipherContext → Prop}
    {Match : CipherTurn → CipherTurn → Prop}
    (hstep : ∀ first second call, Related first second →
      Match (first.turn call) (second.turn call) ∧
        Related (first.turn call).after (second.turn call).after)
    {first second : CipherContext} (hrelated : Related first second) (calls : List CipherCall)
    (i : Nat) : Option.Rel Match (first.turns calls)[i]? (second.turns calls)[i]? := by
  induction calls generalizing first second i with
  | nil => exact .none
  | cons call calls ih =>
    have hturn := hstep first second call hrelated
    cases i with
    | zero => exact .some hturn.1
    | succ i => exact ih hturn.2 i

/-! ## Calls without a stream -/

/-- Why a context can neither take data nor end a stream. -/
def misuse? (context : CipherContext) : Option Error :=
  match context.lifecycle with
  | .unkeyed => some .notKeyed
  | .finished => some .finished
  | .active _ => none

variable {context : CipherContext} {error : Error}

theorem misuse_or_active (context : CipherContext) :
    (∃ error, context.misuse? = some error) ∨ ∃ stream, context.lifecycle = .active stream := by
  unfold misuse?
  cases context.lifecycle with
  | unkeyed => exact .inl ⟨.notKeyed, rfl⟩
  | finished => exact .inl ⟨.finished, rfl⟩
  | active stream => exact .inr ⟨stream, rfl⟩

theorem eq_of_misuse (hmisuse : context.misuse? = some error) :
    (context.lifecycle = .unkeyed ∧ error = .notKeyed) ∨
      (context.lifecycle = .finished ∧ error = .finished) := by
  unfold misuse? at hmisuse
  cases hlifecycle : context.lifecycle with
  | unkeyed =>
    rw [hlifecycle] at hmisuse
    cases hmisuse
    exact .inl ⟨rfl, rfl⟩
  | finished =>
    rw [hlifecycle] at hmisuse
    cases hmisuse
    exact .inr ⟨rfl, rfl⟩
  | active stream =>
    rw [hlifecycle] at hmisuse
    cases hmisuse

theorem isActive_of_misuse (hmisuse : context.misuse? = some error) :
    context.isActive = false := by
  rcases eq_of_misuse hmisuse with ⟨hlifecycle, -⟩ | ⟨hlifecycle, -⟩
  · simp [isActive, stream?, hlifecycle]
  · simp [isActive, stream?, hlifecycle]

theorem update_of_misuse (hmisuse : context.misuse? = some error) (input : Bytes) :
    context.update input = (.error error, context) := by
  rcases eq_of_misuse hmisuse with ⟨hlifecycle, rfl⟩ | ⟨hlifecycle, rfl⟩
  · simp [update, hlifecycle]
  · simp [update, hlifecycle]

theorem finalize_of_misuse (hmisuse : context.misuse? = some error) :
    context.finalize = ⟨(.error error, context), []⟩ := by
  rcases eq_of_misuse hmisuse with ⟨hlifecycle, rfl⟩ | ⟨hlifecycle, rfl⟩
  · unfold finalize
    rw [hlifecycle]
    rfl
  · unfold finalize
    rw [hlifecycle]
    rfl

/-! ## Turns by what the context is in -/

theorem turn_setup_of_accepted {direction : Direction} {key iv : Bytes}
    (hidle : context.isActive = false)
    (haccepted : context.algorithm.keyLength.accepts key.length = true)
    (hiv : context.mode.usesIv = true → iv.length = context.blockSize) :
    context.turn (.setup direction key iv) =
      ⟨context, .setup direction key iv, .ready (.ok ()),
        context.weakKeyEvents key ++ [.contextSetUp context.feature direction],
        context.started direction key iv⟩ := by
  simp only [turn, setup_of_accepted hidle haccepted hiv]

theorem turn_update_of_misuse (hmisuse : context.misuse? = some error) (input : Bytes) :
    context.turn (.update input) =
      ⟨context, .update input, .output (.error error), [], context⟩ := by
  simp only [turn, update_of_misuse hmisuse]

theorem turn_finalize_of_misuse (hmisuse : context.misuse? = some error) :
    context.turn .finalize = ⟨context, .finalize, .output (.error error), [], context⟩ := by
  simp only [turn, finalize_of_misuse hmisuse]

variable {stream : CipherStream}

theorem turn_update_of_active (hactive : context.lifecycle = .active stream) (input : Bytes) :
    context.turn (.update input) =
      ⟨context, .update input, .output (.ok (context.advance stream input).1), [],
        { context with lifecycle := .active (context.advance stream input).2 }⟩ := by
  simp only [turn, update_of_active hactive]

theorem turn_finalize_of_active (hactive : context.lifecycle = .active stream) :
    context.turn .finalize =
      ⟨context, .finalize, .output (context.report (context.lastOutput stream)).value,
        (context.report (context.lastOutput stream)).events,
        { context with lifecycle := .finished }⟩ := by
  simp only [turn, finalize_of_active hactive]

theorem turn_finalize_of_ok (hactive : context.lifecycle = .active stream) {out : Bytes}
    (hresult : context.lastOutput stream = .ok out) :
    context.turn .finalize =
      ⟨context, .finalize, .output (.ok out), [], { context with lifecycle := .finished }⟩ := by
  rw [turn_finalize_of_active hactive, hresult, report_ok]

/-! ## Parameters -/

/-- A call changes the weak key flag and the lifecycle only. -/
theorem exists_after_turn_eq (context : CipherContext) (call : CipherCall) :
    ∃ weakKey lifecycle, (context.turn call).after = { context with weakKey, lifecycle } := by
  cases call with
  | setup direction key iv =>
    have hsetup := context.setup_setsUp direction key iv
    simp only [turn]
    generalize context.setup direction key iv = outcome at hsetup ⊢
    cases hsetup with
    | active => exact ⟨_, _, rfl⟩
    | keyRejected => exact ⟨_, _, rfl⟩
    | ivRejected => exact ⟨_, _, rfl⟩
    | accepted => exact ⟨_, _, rfl⟩
  | update input =>
    rcases context.misuse_or_active with ⟨error, hmisuse⟩ | ⟨stream, hactive⟩
    · rw [turn_update_of_misuse hmisuse]
      exact ⟨_, _, rfl⟩
    · rw [turn_update_of_active hactive]
      exact ⟨_, _, rfl⟩
  | finalize =>
    rcases context.misuse_or_active with ⟨error, hmisuse⟩ | ⟨stream, hactive⟩
    · rw [turn_finalize_of_misuse hmisuse]
      exact ⟨_, _, rfl⟩
    · rw [turn_finalize_of_active hactive]
      exact ⟨_, _, rfl⟩

theorem parameters_turn (context : CipherContext) (call : CipherCall) :
    (context.turn call).after.parameters = context.parameters := by
  obtain ⟨weakKey, lifecycle, hafter⟩ := context.exists_after_turn_eq call
  rw [hafter]
  rfl

theorem feature_turn (context : CipherContext) (call : CipherCall) :
    (context.turn call).after.feature = context.feature := by
  obtain ⟨weakKey, lifecycle, hafter⟩ := context.exists_after_turn_eq call
  rw [hafter]

theorem parameters_afterCalls (context : CipherContext) (calls : List CipherCall) :
    (context.afterCalls calls).parameters = context.parameters := by
  induction calls generalizing context with
  | nil => rfl
  | cons call calls ih => exact (ih _).trans (context.parameters_turn call)

/-- The context with another name and another policy. -/
def relabel (context : CipherContext) (feature : Feature) (policy : FailurePolicy) :
    CipherContext :=
  { context with feature, policy }

theorem value_setup_relabel (context : CipherContext) (feature : Feature) (policy : FailurePolicy)
    (direction : Direction) (key iv : Bytes) :
    ((context.relabel feature policy).setup direction key iv).value =
      ((context.setup direction key iv).value.1,
        (context.setup direction key iv).value.2.relabel feature policy) := by
  have hsame : (context.relabel feature policy).isActive = context.isActive := rfl
  have hsetup := context.setup_setsUp direction key iv
  generalize context.setup direction key iv = outcome at hsetup ⊢
  cases hsetup with
  | active hactive => exact congrArg Logged.value (setup_of_active (hsame.trans hactive))
  | keyRejected hidle hkey =>
    exact congrArg Logged.value (setup_of_key_rejected (hsame.trans hidle) hkey)
  | ivRejected hidle hkey hiv =>
    exact congrArg Logged.value (setup_of_iv_rejected (hsame.trans hidle) hkey hiv)
  | accepted hidle hkey hiv =>
    exact congrArg Logged.value (setup_of_accepted (hsame.trans hidle) hkey hiv)

theorem update_relabel (context : CipherContext) (feature : Feature) (policy : FailurePolicy)
    (input : Bytes) :
    (context.relabel feature policy).update input =
      ((context.update input).1, (context.update input).2.relabel feature policy) := by
  rcases context.misuse_or_active with ⟨error, hmisuse⟩ | ⟨stream, hactive⟩
  · have hother : (context.relabel feature policy).misuse? = some error := hmisuse
    rw [update_of_misuse hother, update_of_misuse hmisuse]
  · have hother : (context.relabel feature policy).lifecycle = .active stream := hactive
    rw [update_of_active hother, update_of_active hactive]
    rfl

/-- Neither the feature nor the policy takes part in what becomes of a context. -/
theorem after_turn_relabel (context : CipherContext) (feature : Feature) (policy : FailurePolicy)
    (call : CipherCall) :
    ((context.relabel feature policy).turn call).after =
      (context.turn call).after.relabel feature policy := by
  cases call with
  | setup direction key iv =>
    exact congrArg Prod.snd (context.value_setup_relabel feature policy direction key iv)
  | update input => exact congrArg Prod.snd (context.update_relabel feature policy input)
  | finalize =>
    rcases context.misuse_or_active with ⟨error, hmisuse⟩ | ⟨stream, hactive⟩
    · have hother : (context.relabel feature policy).misuse? = some error := hmisuse
      simp only [turn, finalize_of_misuse hother, finalize_of_misuse hmisuse]
    · have hother : (context.relabel feature policy).lifecycle = .active stream := hactive
      simp only [turn, finalize_of_active hother, finalize_of_active hactive]
      rfl

end CipherContext

end StreamCrypto
