import StreamCrypto.Proofs.Cipher.Lifecycle
import StreamCrypto.Proofs.Cipher.Updates

/-!
# What a context reports of itself

A context tells its direction, its key and initialization vector, and whether its key is weak. The
first two come from the stream it holds, but the weak key flag is kept beside it, is set before
setting up is known to succeed, and is never cleared. So that they agree is a fact about runs. Two
things are read off the past: what the context was last set up with (`latestBinding?`), and the last
key that got past the checks of setting up that come before it is looked at (`latestKey?`). An
active context is the one that was set up like that and given the data since (`Bound`), and the flag
is about the latter key. A key that fails for its initialization vector leaves no stream, so while
there is one, both are the same key.
-/

namespace StreamCrypto

/-- What a context is set up with. -/
structure CipherBinding where
  direction : Direction
  key : Bytes
  iv : Bytes

/-- The event is a warning about a weak key. -/
def Event.warnsOfKey (event : Event) : Bool := event.level = .warn ∧ event.message = "weak key"

theorem Event.warnsOfKey_weakKey (feature : Feature) :
    (Event.weakKey feature).warnsOfKey = true :=
  decide_eq_true ⟨rfl, rfl⟩

namespace CipherTurn

/-- What the turn has set the context up with, if it succeeded in that. -/
def binding? (turn : CipherTurn) : Option CipherBinding :=
  match turn.call, turn.answer with
  | .setup direction key iv, .ready (.ok _) => some ⟨direction, key, iv⟩
  | _, _ => none

/-- The key of a call to set up that passes the check that the context is not active and the check
of the length of the key. -/
def noted? (turn : CipherTurn) : Option Bytes :=
  match turn.call with
  | .setup _ key _ =>
    if turn.before.isActive = false ∧
        turn.before.algorithm.keyLength.accepts key.length = true then some key
    else none
  | .update _ | .finalize => none

/-- The data that the turn brings. -/
def input (turn : CipherTurn) : Bytes :=
  match turn.call with
  | .update input => input
  | .setup _ _ _ | .finalize => []

/-- What the context was last set up with. -/
def latestBinding? (past : List CipherTurn) : Option CipherBinding :=
  (past.filterMap binding?).getLast?

/-- The last key that was looked at. -/
def latestKey? (past : List CipherTurn) : Option Bytes := (past.filterMap noted?).getLast?

/-- The data since the context was last set up. -/
def dataSince (past : List CipherTurn) : Bytes :=
  (past.rtakeWhile fun turn ↦ !turn.keys).flatMap input

variable {past : List CipherTurn} {turn : CipherTurn}

theorem getLast?_filterMap_concat {α β : Type} (f : α → Option β) (past : List α) (last : α) :
    ((past ++ [last]).filterMap f).getLast? = (f last).or (past.filterMap f).getLast? := by
  rw [List.filterMap_append, List.getLast?_append]
  cases hlast : f last with
  | none => rw [List.filterMap_cons_none hlast, List.filterMap_nil, List.getLast?_nil]
  | some b => rw [List.filterMap_cons_some hlast, List.filterMap_nil, List.getLast?_singleton]

theorem dataSince_concat_of_keys (hkeys : turn.keys = true) : dataSince (past ++ [turn]) = [] := by
  rw [dataSince, List.rtakeWhile_concat_neg _ _ _ (by simp [hkeys]), List.flatMap_nil]

theorem dataSince_concat_of_not_keys (hkeys : turn.keys = false) :
    dataSince (past ++ [turn]) = dataSince past ++ turn.input := by
  rw [dataSince, List.rtakeWhile_concat_pos _ _ _ (by simp [hkeys]), List.flatMap_append,
    List.flatMap_singleton]
  rfl

end CipherTurn

namespace CipherContext

open CipherTurn

variable {past : List CipherTurn} {context : CipherContext}

/-! ## The stream -/

/-- An active context is as it was last set up, and has been given the data since. -/
def Bound (past : List CipherTurn) (context : CipherContext) : Prop :=
  context.isActive = true →
    ∃ binding, latestBinding? past = some binding ∧
      context = context.fed binding.direction binding.key binding.iv (dataSince past)

theorem bound_of_not_active (hidle : context.isActive = false) : Bound past context :=
  fun hactive ↦ nomatch hidle.symm.trans hactive

/-- A turn that neither sets up nor brings data leaves the stream as it is. -/
theorem Bound.concat (hbound : Bound past context) {turn : CipherTurn}
    (hbinding : turn.binding? = none) (hkeys : turn.keys = false) (hinput : turn.input = []) :
    Bound (past ++ [turn]) context := by
  intro hactive
  obtain ⟨binding, hlatest, hfed⟩ := hbound hactive
  refine ⟨binding, ?_, ?_⟩
  · rw [latestBinding?, getLast?_filterMap_concat, hbinding, Option.none_or]
    exact hlatest
  · rwa [dataSince_concat_of_not_keys hkeys, hinput, List.append_nil]

theorem Bound.turn_setup (hbound : Bound past context) (direction : Direction) (key iv : Bytes) :
    Bound (past ++ [context.turn (.setup direction key iv)])
      (context.turn (.setup direction key iv)).after := by
  have hsetup := context.setup_setsUp direction key iv
  simp only [turn]
  generalize context.setup direction key iv = outcome at hsetup ⊢
  cases hsetup with
  | active => exact hbound.concat rfl rfl rfl
  | keyRejected hidle => exact bound_of_not_active hidle
  | ivRejected hidle => exact bound_of_not_active hidle
  | accepted =>
    refine fun _ ↦ ⟨⟨direction, key, iv⟩, ?_, ?_⟩
    · rw [latestBinding?, getLast?_filterMap_concat]
      rfl
    · rw [dataSince_concat_of_keys rfl]
      exact started_eq_fed context direction key iv

theorem Bound.turn_update (hbound : Bound past context) (input : Bytes) :
    Bound (past ++ [context.turn (.update input)]) (context.turn (.update input)).after := by
  rcases context.misuse_or_active with ⟨error, hmisuse⟩ | ⟨stream, hactive⟩
  · rw [turn_update_of_misuse hmisuse]
    exact bound_of_not_active (isActive_of_misuse hmisuse)
  · have hisActive : context.isActive = true := by simp [isActive, stream?, hactive]
    obtain ⟨⟨direction, key, iv⟩, hlatest, hfed⟩ := hbound hisActive
    obtain ⟨out, hturn, -⟩ :=
      turn_update_fed context direction key iv (dataSince past) input
    rw [← hfed] at hturn
    rw [hturn]
    refine fun _ ↦ ⟨⟨direction, key, iv⟩, ?_, ?_⟩
    · rw [latestBinding?, getLast?_filterMap_concat]
      exact hlatest
    · rw [dataSince_concat_of_not_keys rfl]
      rfl

theorem Bound.turn (hbound : Bound past context) (call : CipherCall) :
    Bound (past ++ [context.turn call]) (context.turn call).after := by
  cases call with
  | setup direction key iv => exact hbound.turn_setup direction key iv
  | update input => exact hbound.turn_update input
  | finalize =>
    rcases context.misuse_or_active with ⟨error, hmisuse⟩ | ⟨stream, hactive⟩
    · rw [turn_finalize_of_misuse hmisuse]
      exact bound_of_not_active (isActive_of_misuse hmisuse)
    · rw [turn_finalize_of_active hactive]
      exact bound_of_not_active rfl

/-! ## The weak key flag -/

/-- The flag changes exactly when a key is looked at. -/
theorem weakKey_turn (context : CipherContext) (call : CipherCall) :
    (context.turn call).after.weakKey =
      (context.turn call).noted?.elim context.weakKey context.algorithm.isWeakKey := by
  cases call with
  | setup direction key iv =>
    have hsetup := context.setup_setsUp direction key iv
    simp only [turn]
    generalize context.setup direction key iv = outcome at hsetup ⊢
    cases hsetup with
    | active hactive => simp [noted?, hactive]
    | keyRejected hidle hrejected => simp [noted?, hrejected]
    | ivRejected hidle haccepted => simp [noted?, hidle, haccepted, noting]
    | accepted hidle haccepted => simp [noted?, hidle, haccepted, started]
  | update input =>
    rcases context.misuse_or_active with ⟨error, hmisuse⟩ | ⟨stream, hactive⟩
    · rw [turn_update_of_misuse hmisuse]
      rfl
    · rw [turn_update_of_active hactive]
      rfl
  | finalize =>
    rcases context.misuse_or_active with ⟨error, hmisuse⟩ | ⟨stream, hactive⟩
    · rw [turn_finalize_of_misuse hmisuse]
      rfl
    · rw [turn_finalize_of_active hactive]
      rfl

/-- The one warning that a weak key calls for, if it is looked at. -/
def warningsOf (context : CipherContext) (key? : Option Bytes) : List Event :=
  if key?.any context.algorithm.isWeakKey = true then [.weakKey context.feature] else []

theorem filter_weakKeyEvents_append (context : CipherContext) (key : Bytes) {event : Event}
    (hother : event.warnsOfKey = false) :
    (context.weakKeyEvents key ++ [event]).filter Event.warnsOfKey =
      context.warningsOf (some key) := by
  unfold weakKeyEvents warningsOf
  by_cases hweak : context.algorithm.isWeakKey key = true
  · simp [hweak, hother, Event.warnsOfKey_weakKey]
  · simp [hweak, hother]

theorem warnings_turn (context : CipherContext) (call : CipherCall) :
    (context.turn call).events.filter Event.warnsOfKey =
      context.warningsOf (context.turn call).noted? := by
  cases call with
  | setup direction key iv =>
    have hsetup := context.setup_setsUp direction key iv
    simp only [turn]
    generalize context.setup direction key iv = outcome at hsetup ⊢
    cases hsetup with
    | active hactive => simp [noted?, hactive, warningsOf]
    | keyRejected hidle hrejected =>
      simp [noted?, hrejected, warningsOf, Event.warnsOfKey, Event.message]
    | ivRejected hidle haccepted =>
      rw [filter_weakKeyEvents_append context key (by simp [Event.warnsOfKey, Event.message])]
      simp [noted?, hidle, haccepted]
    | accepted hidle haccepted =>
      rw [filter_weakKeyEvents_append context key (by simp [Event.warnsOfKey, Event.message])]
      simp [noted?, hidle, haccepted]
  | update input => rfl
  | finalize =>
    rcases context.misuse_or_active with ⟨error, hmisuse⟩ | ⟨stream, hactive⟩
    · rw [turn_finalize_of_misuse hmisuse]
      rfl
    · rw [turn_finalize_of_active hactive]
      cases hresult : context.lastOutput stream with
      | ok out => rw [report_ok]; rfl
      | error error =>
        cases hpolicy : context.policy with
        | strict => rw [report_strict hpolicy]; rfl
        | logAndContinue =>
          rw [report_lenient hpolicy]
          simp [noted?, warningsOf, Event.warnsOfKey, Event.message]

/-! ## Runs -/

/-- The stream of an active context is the one of a binding, with the data since it was made. -/
structure Runs (context : CipherContext) (binding : CipherBinding) (data : Bytes) : Prop where
  direction : context.direction? = some binding.direction
  bound : context.details.bound = some (binding.key, binding.iv)
  /-- The transform has only been given what is handed over of that data. -/
  transform : context.stream?.map CipherStream.transform =
    some ((context.startTransform binding.direction binding.key binding.iv).apply
      (data.take (context.handedOver binding.direction data.length))).2
  weakKey : context.weakKey = context.algorithm.isWeakKey binding.key

theorem runs_fed (context : CipherContext) (binding : CipherBinding) (data : Bytes) :
    (context.fed binding.direction binding.key binding.iv data).Runs binding data :=
  ⟨rfl, rfl, rfl, rfl⟩

/-- All that a context reports, by what its past was. -/
structure Reports (past : List CipherTurn) (context : CipherContext) : Prop where
  isActive_iff : context.isActive = true ↔ Keyed past ∧ ¬ Ended past
  /-- Through any data and any calls to set up that are refused. -/
  active : context.isActive = true →
    ∃ binding, latestBinding? past = some binding ∧ context.Runs binding (dataSince past)
  weakKey : context.weakKey = (latestKey? past).elim false context.algorithm.isWeakKey
  warned : ∀ turn ∈ past, turn.events.filter Event.warnsOfKey = context.warningsOf turn.noted?

/-- What the reports of a context are derived from. -/
structure Reporting (past : List CipherTurn) (context : CipherContext) : Prop where
  standing : Standing past context
  bound : Bound past context
  weakKey : context.weakKey = (latestKey? past).elim false context.algorithm.isWeakKey
  warned : ∀ turn ∈ past, turn.events.filter Event.warnsOfKey = context.warningsOf turn.noted?

theorem reporting_new (feature : Feature) (algorithm : CipherAlgorithm) (mode : Mode)
    (padding : Bool) (policy : FailurePolicy) :
    Reporting [] ((new feature algorithm mode padding).withPolicy policy) where
  standing := (standing_unkeyed rfl).2 (by simp [Keyed])
  bound := bound_of_not_active rfl
  weakKey := rfl
  warned _ hturn := absurd hturn List.not_mem_nil

theorem Reporting.turn (hreporting : Reporting past context) (call : CipherCall) :
    Reporting (past ++ [context.turn call]) (context.turn call).after where
  standing := standing_turn hreporting.standing call
  bound := hreporting.bound.turn call
  weakKey := by
    have halgorithm : (context.turn call).after.algorithm = context.algorithm :=
      congrArg CipherParameters.algorithm (context.parameters_turn call)
    rw [weakKey_turn, halgorithm, latestKey?, getLast?_filterMap_concat, hreporting.weakKey]
    cases (context.turn call).noted? with
    | none => rfl
    | some key => rfl
  warned turn hturn := by
    have hsame (key? : Option Bytes) :
        (context.turn call).after.warningsOf key? = context.warningsOf key? := by
      obtain ⟨weakKey, lifecycle, hafter⟩ := context.exists_after_turn_eq call
      rw [hafter]
      rfl
    rw [hsame]
    rcases List.mem_append.1 hturn with hpast | hlast
    · exact hreporting.warned turn hpast
    · rw [List.mem_singleton.1 hlast]
      exact context.warnings_turn call

theorem reports_of_reporting (hreporting : Reporting past context) : Reports past context where
  isActive_iff := (misuse_iff_of_standing hreporting.standing).2.2
  active hactive := by
    obtain ⟨binding, hlatest, hfed⟩ := hreporting.bound hactive
    refine ⟨binding, hlatest, ?_⟩
    rw [hfed]
    exact context.runs_fed binding _
  weakKey := hreporting.weakKey
  warned := hreporting.warned

/-- Every run of a new context. -/
theorem reports_afterCalls (feature : Feature) (algorithm : CipherAlgorithm) (mode : Mode)
    (padding : Bool) (policy : FailurePolicy) (calls : List CipherCall) :
    Reports (((new feature algorithm mode padding).withPolicy policy).turns calls)
      (((new feature algorithm mode padding).withPolicy policy).afterCalls calls) :=
  reports_of_reporting (@turns_invariant Reporting (fun _ _ call hreporting ↦ hreporting.turn call)
    [] _ (reporting_new feature algorithm mode padding policy) calls)

end CipherContext

end StreamCrypto
