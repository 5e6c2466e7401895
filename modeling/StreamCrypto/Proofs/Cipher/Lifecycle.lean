import Mathlib.Data.List.DropRight
import StreamCrypto.Proofs.Cipher.Leniency

/-!
# The lifecycle of a context, read off its past

Where a context stands is decided by two questions about the calls before: whether it has ever
been set up, and whether it has been asked to end since it last was. Every turn keeps the lifecycle
in step with the answers (`standing_turn`), and so every run does (`standing_turns`). Which calls
are refused, and that a stream never survives its end, follows for every run
(`lifecycle_of_past`). The policy takes no part in this.
-/

namespace StreamCrypto

namespace CipherTurn

/-- The turn has set the context up. -/
def keys (turn : CipherTurn) : Bool :=
  match turn.answer with
  | .ready (.ok _) => true
  | .ready (.error _) | .output _ => false

/-- The turn was a call to end the stream. -/
def asksToEnd (turn : CipherTurn) : Bool :=
  match turn.call with
  | .finalize => true
  | .setup _ _ _ | .update _ => false

/-- The context has been set up. -/
def Keyed (past : List CipherTurn) : Prop := ∃ turn ∈ past, turn.keys = true

/-- The context has been asked to end since it was last set up. -/
def Ended (past : List CipherTurn) : Prop :=
  ∃ turn ∈ past.rtakeWhile (fun turn ↦ !turn.keys), turn.asksToEnd = true

variable {past : List CipherTurn} {turn : CipherTurn}

theorem keyed_concat : Keyed (past ++ [turn]) ↔ Keyed past ∨ turn.keys = true := by
  simp [Keyed, or_and_right, exists_or]

theorem keyed_concat_of_keys (hkeys : turn.keys = true) : Keyed (past ++ [turn]) :=
  keyed_concat.2 (.inr hkeys)

theorem keyed_concat_of_not_keys (hkeys : turn.keys = false) :
    Keyed (past ++ [turn]) ↔ Keyed past := by
  simp [keyed_concat, hkeys]

theorem not_ended_concat_of_keys (hkeys : turn.keys = true) : ¬ Ended (past ++ [turn]) := by
  rw [Ended, List.rtakeWhile_concat_neg _ _ _ (by simp [hkeys])]
  simp

theorem ended_concat_of_not_keys (hkeys : turn.keys = false) :
    Ended (past ++ [turn]) ↔ Ended past ∨ turn.asksToEnd = true := by
  rw [Ended, List.rtakeWhile_concat_pos _ _ _ (by simp [hkeys])]
  simp [Ended, or_and_right, exists_or]

end CipherTurn

namespace CipherContext

open CipherTurn

/-- The lifecycle is the one that the past calls for. -/
def Standing (past : List CipherTurn) (context : CipherContext) : Prop :=
  match context.lifecycle with
  | .unkeyed => ¬ Keyed past
  | .active _ => Keyed past ∧ ¬ Ended past
  | .finished => Keyed past ∧ Ended past

variable {past : List CipherTurn} {context : CipherContext}

/-- A turn that neither sets up nor asks to end makes no difference to where a context stands. -/
theorem standing_concat {turn : CipherTurn} (hkeys : turn.keys = false)
    (hends : turn.asksToEnd = false) :
    Standing (past ++ [turn]) context ↔ Standing past context := by
  simp only [Standing, keyed_concat_of_not_keys hkeys, ended_concat_of_not_keys hkeys, hends,
    Bool.false_eq_true, or_false]

theorem standing_unkeyed (hunkeyed : context.lifecycle = .unkeyed) :
    Standing past context ↔ ¬ Keyed past := by
  rw [Standing, hunkeyed]

theorem standing_active {stream : CipherStream} (hactive : context.lifecycle = .active stream) :
    Standing past context ↔ Keyed past ∧ ¬ Ended past := by
  rw [Standing, hactive]

theorem standing_finished (hfinished : context.lifecycle = .finished) :
    Standing past context ↔ Keyed past ∧ Ended past := by
  rw [Standing, hfinished]

theorem standing_turn_setup (hstanding : Standing past context) (direction : Direction)
    (key iv : Bytes) :
    Standing (past ++ [context.turn (.setup direction key iv)])
      (context.turn (.setup direction key iv)).after := by
  have hsetup := context.setup_setsUp direction key iv
  simp only [turn]
  generalize context.setup direction key iv = outcome at hsetup ⊢
  cases hsetup with
  | active => exact (standing_concat rfl rfl).2 hstanding
  | keyRejected => exact (standing_concat rfl rfl).2 hstanding
  | ivRejected => exact (standing_concat rfl rfl).2 hstanding
  | accepted =>
    exact (standing_active rfl).2 ⟨keyed_concat_of_keys rfl, not_ended_concat_of_keys rfl⟩

theorem standing_turn_update (hstanding : Standing past context) (input : Bytes) :
    Standing (past ++ [context.turn (.update input)]) (context.turn (.update input)).after := by
  rcases context.misuse_or_active with ⟨error, hmisuse⟩ | ⟨stream, hactive⟩
  · rw [turn_update_of_misuse hmisuse]
    exact (standing_concat rfl rfl).2 hstanding
  · rw [turn_update_of_active hactive]
    exact (standing_concat rfl rfl).2 ((standing_active rfl).2
      ((standing_active hactive).1 hstanding))

/-- A stream that was active has ended, and a context without a stream stays where it is. -/
theorem standing_turn_finalize (hstanding : Standing past context) :
    Standing (past ++ [context.turn .finalize]) (context.turn .finalize).after := by
  rcases context.misuse_or_active with ⟨error, hmisuse⟩ | ⟨stream, hactive⟩
  · rw [turn_finalize_of_misuse hmisuse]
    rcases eq_of_misuse hmisuse with ⟨hunkeyed, -⟩ | ⟨hfinished, -⟩
    · rw [standing_unkeyed hunkeyed] at hstanding ⊢
      rwa [keyed_concat_of_not_keys rfl]
    · rw [standing_finished hfinished] at hstanding ⊢
      exact ⟨keyed_concat.2 (.inl hstanding.1), (ended_concat_of_not_keys rfl).2 (.inr rfl)⟩
  · rw [turn_finalize_of_active hactive]
    have hkeyed := ((standing_active hactive).1 hstanding).1
    exact (standing_finished rfl).2
      ⟨keyed_concat.2 (.inl hkeyed), (ended_concat_of_not_keys rfl).2 (.inr rfl)⟩

theorem standing_turn (hstanding : Standing past context) (call : CipherCall) :
    Standing (past ++ [context.turn call]) (context.turn call).after := by
  cases call with
  | setup direction key iv => exact standing_turn_setup hstanding direction key iv
  | update input => exact standing_turn_update hstanding input
  | finalize => exact standing_turn_finalize hstanding

theorem standing_turns (hstanding : Standing past context) (calls : List CipherCall) :
    Standing (past ++ context.turns calls) (context.afterCalls calls) :=
  @turns_invariant Standing (fun _ _ call hbefore ↦ standing_turn hbefore call) past context
    hstanding calls

theorem afterCalls_withPolicy (context : CipherContext) (policy : FailurePolicy)
    (calls : List CipherCall) :
    (context.withPolicy policy).afterCalls calls =
      (context.afterCalls calls).withPolicy policy := by
  induction calls generalizing context with
  | nil => rfl
  | cons call calls ih =>
    rw [afterCalls, after_turn_withPolicy, ih]
    rfl

/-! ## What is refused, and what changes the lifecycle -/

/-- All that the lifecycle of a context decides, by what the past was. -/
structure LifecycleOf (past : List CipherTurn) (context : CipherContext) : Prop where
  setup_alreadyKeyed : ∀ direction key iv,
    (context.setup direction key iv).value.1 = .error .alreadyKeyed ↔ Keyed past ∧ ¬ Ended past
  update_notKeyed : ∀ input, (context.update input).1 = .error .notKeyed ↔ ¬ Keyed past
  update_finished : ∀ input,
    (context.update input).1 = .error .finished ↔ Keyed past ∧ Ended past
  update_active : Keyed past ∧ ¬ Ended past → ∀ input,
    ∃ out, (context.update input).1 = .ok out
  finalize_notKeyed : context.finalize.value.1 = .error .notKeyed ↔ ¬ Keyed past
  finalize_finished : context.finalize.value.1 = .error .finished ↔ Keyed past ∧ Ended past
  /-- Whatever the end of the stream returns. -/
  finalize_active : Keyed past ∧ ¬ Ended past →
    context.finalize.value.2.lifecycle = .finished ∧
      context.finalize.value.2.details.bound = none ∧
        context.finalize.value.2.direction? = none
  setup_failed : ∀ direction key iv error,
    (context.setup direction key iv).value.1 = .error error →
      (context.setup direction key iv).value.2.lifecycle = context.lifecycle
  /-- Not even the weak key flag is touched. -/
  update_misuse : ∀ input error, error = .notKeyed ∨ error = .finished →
    (context.update input).1 = .error error → (context.update input).2 = context
  finalize_misuse : ∀ error, error = .notKeyed ∨ error = .finished →
    context.finalize.value.1 = .error error → context.finalize.value.2 = context

theorem setup_alreadyKeyed_iff (context : CipherContext) (direction : Direction) (key iv : Bytes) :
    (context.setup direction key iv).value.1 = .error .alreadyKeyed ↔
      context.isActive = true := by
  have hsetup := context.setup_setsUp direction key iv
  generalize context.setup direction key iv = outcome at hsetup ⊢
  cases hsetup with
  | active hactive => simp [hactive]
  | keyRejected hidle => simp [hidle]
  | ivRejected hidle => simp [hidle]
  | accepted hidle => simp [hidle]

theorem lifecycle_of_setup_error {direction : Direction} {key iv : Bytes} {error : Error}
    (hfailed : (context.setup direction key iv).value.1 = .error error) :
    (context.setup direction key iv).value.2.lifecycle = context.lifecycle := by
  have hsetup := context.setup_setsUp direction key iv
  generalize context.setup direction key iv = outcome at hsetup hfailed ⊢
  cases hsetup with
  | active => rfl
  | keyRejected => rfl
  | ivRejected => rfl
  | accepted => cases hfailed

/-- Data is only refused for want of a stream. -/
theorem update_error_iff (context : CipherContext) (input : Bytes) (error : Error) :
    (context.update input).1 = .error error ↔ context.misuse? = some error := by
  rcases context.misuse_or_active with ⟨misuse, hmisuse⟩ | ⟨stream, hactive⟩
  · rw [update_of_misuse hmisuse, hmisuse, Except.error.injEq, Option.some.injEq]
  · simp [update_of_active hactive, misuse?, hactive]

theorem report_error (context : CipherContext) {result : Except Error Bytes} {error : Error}
    (hreport : (context.report result).value = .error error) : result = .error error := by
  cases result with
  | ok out => cases hreport
  | error other =>
    cases hpolicy : context.policy with
    | strict => rwa [report_strict hpolicy] at hreport
    | logAndContinue =>
      rw [report_lenient hpolicy] at hreport
      cases hreport

/-- The end of a stream has failures of its own, but they are all about its data. -/
theorem finalize_error_iff (context : CipherContext) {error : Error}
    (hmisuse : error.isOfData = false) :
    context.finalize.value.1 = .error error ↔ context.misuse? = some error := by
  rcases context.misuse_or_active with ⟨misuse, hother⟩ | ⟨stream, hactive⟩
  · rw [finalize_of_misuse hother, hother, Except.error.injEq, Option.some.injEq]
  · have hnone : context.misuse? = none := by simp [misuse?, hactive]
    have hdata (hfails : context.finalize.value.1 = .error error) : error.isOfData = true := by
      rw [finalize_of_active hactive] at hfails
      exact isOfData_of_lastOutput (context.report_error hfails)
    simp only [hnone, reduceCtorEq, iff_false]
    intro hfails
    cases hmisuse.symm.trans (hdata hfails)

/-- Where a context stands, told by how it takes calls. -/
theorem misuse_iff_of_standing (hstanding : Standing past context) :
    (context.misuse? = some .notKeyed ↔ ¬ Keyed past) ∧
      (context.misuse? = some .finished ↔ Keyed past ∧ Ended past) ∧
        (context.isActive = true ↔ Keyed past ∧ ¬ Ended past) := by
  cases hlifecycle : context.lifecycle with
  | unkeyed =>
    rw [standing_unkeyed hlifecycle] at hstanding
    simp [misuse?, isActive, stream?, hlifecycle, hstanding]
  | active stream =>
    rw [standing_active hlifecycle] at hstanding
    simp [misuse?, isActive, stream?, hlifecycle, hstanding]
  | finished =>
    rw [standing_finished hlifecycle] at hstanding
    simp [misuse?, isActive, stream?, hlifecycle, hstanding]

theorem lifecycleOf_of_standing (hstanding : Standing past context) :
    LifecycleOf past context := by
  obtain ⟨hnotKeyed, hfinished, hactive⟩ := misuse_iff_of_standing hstanding
  have hstream (hrunning : Keyed past ∧ ¬ Ended past) :
      ∃ stream, context.lifecycle = .active stream := by
    rcases context.misuse_or_active with ⟨error, hmisuse⟩ | hstream
    · cases (isActive_of_misuse hmisuse).symm.trans (hactive.2 hrunning)
    · exact hstream
  have hkind {error : Error} (herror : error = .notKeyed ∨ error = .finished) :
      error.isOfData = false := by
    rcases herror with rfl | rfl
    · rfl
    · rfl
  exact {
    setup_alreadyKeyed := fun direction key iv ↦
      (context.setup_alreadyKeyed_iff direction key iv).trans hactive
    update_notKeyed := fun input ↦ (context.update_error_iff input _).trans hnotKeyed
    update_finished := fun input ↦ (context.update_error_iff input _).trans hfinished
    update_active := by
      intro hrunning input
      obtain ⟨stream, hlifecycle⟩ := hstream hrunning
      rw [update_of_active hlifecycle]
      exact ⟨_, rfl⟩
    finalize_notKeyed := (context.finalize_error_iff rfl).trans hnotKeyed
    finalize_finished := (context.finalize_error_iff rfl).trans hfinished
    finalize_active := by
      intro hrunning
      obtain ⟨stream, hlifecycle⟩ := hstream hrunning
      rw [finalize_of_active hlifecycle]
      exact ⟨rfl, rfl, rfl⟩
    setup_failed := fun _ _ _ _ hfailed ↦ lifecycle_of_setup_error hfailed
    update_misuse := by
      intro input error _ hfailed
      rw [update_of_misuse ((context.update_error_iff input error).1 hfailed)]
    finalize_misuse := by
      intro error herror hfailed
      rw [finalize_of_misuse ((context.finalize_error_iff (hkind herror)).1 hfailed)] }

/-- Every run of a new context: the lifecycle follows from the calls so far and their answers.
The past may be that of the same calls under another policy. -/
theorem lifecycle_of_past (feature : Feature) (algorithm : CipherAlgorithm) (mode : Mode)
    (padding : Bool) (policy other : FailurePolicy) (calls : List CipherCall) :
    LifecycleOf (((new feature algorithm mode padding).withPolicy other).turns calls)
        (((new feature algorithm mode padding).withPolicy policy).afterCalls calls) ∧
      (((new feature algorithm mode padding).withPolicy policy).afterCalls calls).lifecycle =
        (((new feature algorithm mode padding).withPolicy other).afterCalls calls).lifecycle := by
  have hnew : Standing [] ((new feature algorithm mode padding).withPolicy other) := by
    rw [standing_unkeyed rfl]
    rintro ⟨turn, hturn, -⟩
    cases hturn
  have hlifecycle :
      (((new feature algorithm mode padding).withPolicy policy).afterCalls calls).lifecycle =
        (((new feature algorithm mode padding).withPolicy other).afterCalls calls).lifecycle := by
    rw [afterCalls_withPolicy, afterCalls_withPolicy]
    rfl
  have hstanding := standing_turns hnew calls
  rw [List.nil_append, Standing, ← hlifecycle] at hstanding
  exact ⟨lifecycleOf_of_standing hstanding, hlifecycle⟩

end CipherContext

end StreamCrypto
