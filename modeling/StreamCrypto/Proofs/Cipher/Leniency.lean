import StreamCrypto.Proofs.Cipher.Calls

/-!
# The lenient policy against the strict one

The same calls on two contexts that differ in their policy only: turn by turn they stay the same
context up to the policy, and they answer the same, except where the strict one fails at the end of
a stream for what it was fed. There the lenient one answers with no bytes and logs the failure as
its one error event (`softens_turn`). Misuse and failures of setting up are never masked, and there
are no other error events.
-/

namespace StreamCrypto

/-- A failure that comes from the data of a stream. -/
def Error.isOfData : Error → Bool
  | incompleteBlock _ _ | invalidPadding => true
  | _ => false

/-- A failure that comes from calls in the wrong order. -/
def Error.isMisuse : Error → Bool
  | notKeyed | finished | alreadyKeyed => true
  | _ => false

/-- The failure of data that a turn ends a stream with. -/
def CipherTurn.dataFailure? (turn : CipherTurn) : Option Error :=
  match turn.call, turn.answer with
  | .finalize, .output (.error error) => if error.isOfData = true then some error else none
  | _, _ => none

/-- How a lenient turn follows from the strict turn in its place. -/
structure Softens (strict lenient : CipherTurn) : Prop where
  /-- Lifecycle, direction, key, initialization vector and weak key flag are the same. -/
  after : lenient.after = strict.after.withPolicy .logAndContinue
  answer : lenient.answer =
    match strict.dataFailure? with
    | some _ => .output (.ok [])
    | none => strict.answer
  misuse : ∀ error, error.isMisuse = true →
    (lenient.answer.error? = some error ↔ strict.answer.error? = some error)
  setup : ∀ direction key iv, strict.call = .setup direction key iv →
    lenient.answer = strict.answer
  update : ∀ input, strict.call = .update input → strict.before.isActive = true →
    ∃ out, strict.answer = .output (.ok out) ∧ lenient.answer = .output (.ok out)
  strictErrors : Event.errors strict.events = []
  lenientErrors : (Event.errors lenient.events).map Event.fields =
    match strict.dataFailure? with
    | some error =>
      [[("feature", .text strict.before.feature.name), ("label", .text "finalize"),
        ("err", .text error.message)]]
    | none => []

/-- A turn in which the strict context has no failure to mask. -/
theorem softens_of_answer_eq {strict lenient : CipherTurn}
    (hafter : lenient.after = strict.after.withPolicy .logAndContinue)
    (hanswer : lenient.answer = strict.answer) (hdata : strict.dataFailure? = none)
    (hupdate : ∀ input, strict.call = .update input → strict.before.isActive = true →
      ∃ out, strict.answer = .output (.ok out))
    (hstrict : Event.errors strict.events = []) (hlenient : Event.errors lenient.events = []) :
    Softens strict lenient where
  after := hafter
  answer := by rw [hdata, hanswer]
  misuse error _ := by rw [hanswer]
  setup _ _ _ _ := hanswer
  update input hcall hactive := by
    obtain ⟨out, hout⟩ := hupdate input hcall hactive
    exact ⟨out, hout, hanswer.trans hout⟩
  strictErrors := hstrict
  lenientErrors := by
    rw [hdata, hlenient]
    rfl

section Ending

variable {context other : CipherContext} {strict lenient : CipherTurn} {after next : CipherContext}

/-- An end of a stream that both contexts answer alike. -/
theorem softens_of_ending_eq {result : Except Error Bytes}
    (hstrict : strict = ⟨context, .finalize, .output result, [], after⟩)
    (hlenient : lenient = ⟨other, .finalize, .output result, [], next⟩)
    (hafter : next = after.withPolicy .logAndContinue)
    (hkept : ∀ error, result = .error error → error.isOfData = false) :
    Softens strict lenient := by
  subst hstrict hlenient
  refine softens_of_answer_eq hafter rfl ?_ nofun rfl rfl
  cases result with
  | ok out => rfl
  | error error => simp [CipherTurn.dataFailure?, hkept error rfl]

theorem not_isMisuse_of_isOfData {error : Error} (hdata : error.isOfData = true) :
    error.isMisuse = false := by
  cases error with
  | incompleteBlock | invalidPadding => rfl
  | _ => cases hdata

/-- An end of a stream whose failure the lenient context drops. -/
theorem softens_of_masked {error : Error}
    (hstrict : strict = ⟨context, .finalize, .output (.error error), [], after⟩)
    (hlenient : lenient =
      ⟨other, .finalize, .output (.ok []), [.finalizeFailed context.feature error], next⟩)
    (hafter : next = after.withPolicy .logAndContinue) (hdata : error.isOfData = true) :
    Softens strict lenient := by
  subst hstrict hlenient
  have hmasked : CipherTurn.dataFailure?
      ⟨context, .finalize, .output (.error error), [], after⟩ = some error := if_pos hdata
  exact {
    after := hafter
    answer := by rw [hmasked]
    misuse := by
      intro misuse hmisuse
      have hother : error ≠ misuse := by
        rintro rfl
        cases (not_isMisuse_of_isOfData hdata).symm.trans hmisuse
      simp [CipherAnswer.error?, hother]
    setup := nofun
    update := nofun
    strictErrors := rfl
    lenientErrors := by
      rw [hmasked]
      rfl }

end Ending

namespace CipherContext

theorem errors_setup (context : CipherContext) (direction : Direction) (key iv : Bytes) :
    Event.errors (context.setup direction key iv).events = [] := by
  have hweak : Event.errors (context.weakKeyEvents key) = [] := by
    unfold weakKeyEvents
    split
    · rfl
    · rfl
  have happend (event : Event) (hlevel : event.level ≠ .error) :
      Event.errors (context.weakKeyEvents key ++ [event]) = [] := by
    have hevent : Event.errors [event] = [] := by simp [Event.errors, hlevel]
    calc
      _ = Event.errors (context.weakKeyEvents key) ++ Event.errors [event] :=
        List.filter_append _ _
      _ = [] := by rw [hweak, hevent, List.append_nil]
  have hsetup := context.setup_setsUp direction key iv
  generalize context.setup direction key iv = outcome at hsetup ⊢
  cases hsetup with
  | active => rfl
  | keyRejected => rfl
  | ivRejected => exact happend _ nofun
  | accepted => exact happend _ nofun

section Active

variable {context : CipherContext} {stream : CipherStream}
  (hactive : context.lifecycle = .active stream)

include hactive

theorem turn_finalize_strict (hstrict : context.policy = .strict) {error : Error}
    (hresult : context.lastOutput stream = .error error) :
    context.turn .finalize =
      ⟨context, .finalize, .output (.error error), [],
        { context with lifecycle := .finished }⟩ := by
  simp only [turn, finalize_of_active hactive, hresult, report_strict hstrict]

theorem turn_finalize_lenient (hlenient : context.policy = .logAndContinue) {error : Error}
    (hresult : context.lastOutput stream = .error error) :
    context.turn .finalize =
      ⟨context, .finalize, .output (.ok []), [.finalizeFailed context.feature error],
        { context with lifecycle := .finished }⟩ := by
  simp only [turn, finalize_of_active hactive, hresult, report_lenient hlenient]

end Active

/-- The end of a stream can only fail for what the stream was fed. -/
theorem isOfData_of_lastOutput {context : CipherContext} {stream : CipherStream} {error : Error}
    (hfails : context.lastOutput stream = .error error) : error.isOfData = true := by
  simp only [lastOutput] at hfails
  repeat' split at hfails
  all_goals
    cases hfails
    try rfl

theorem isOfData_of_misuse {context : CipherContext} {error : Error}
    (hmisuse : context.misuse? = some error) : error.isOfData = false := by
  rcases eq_of_misuse hmisuse with ⟨-, rfl⟩ | ⟨-, rfl⟩
  · rfl
  · rfl

variable {context : CipherContext}

theorem after_turn_withPolicy (context : CipherContext) (policy : FailurePolicy)
    (call : CipherCall) :
    ((context.withPolicy policy).turn call).after =
      (context.turn call).after.withPolicy policy := by
  calc
    _ = (context.turn call).after.relabel context.feature policy :=
      context.after_turn_relabel context.feature policy call
    _ = (context.turn call).after.relabel (context.turn call).after.feature policy := by
      rw [feature_turn]

/-- One call on a strict context and on the lenient one that is otherwise the same. -/
theorem softens_turn (hstrict : context.policy = .strict) (call : CipherCall) :
    Softens (context.turn call) ((context.withPolicy .logAndContinue).turn call) := by
  have hafter := context.after_turn_withPolicy .logAndContinue call
  cases call with
  | setup direction key iv =>
    have hvalue := context.value_setup_relabel context.feature .logAndContinue direction key iv
    have hanswer := congrArg (fun value ↦ CipherAnswer.ready value.1) hvalue
    exact softens_of_answer_eq hafter hanswer rfl nofun (errors_setup ..) (errors_setup ..)
  | update input =>
    have hvalue := context.update_relabel context.feature .logAndContinue input
    have hanswer := congrArg (fun value ↦ CipherAnswer.output value.1) hvalue
    refine softens_of_answer_eq hafter hanswer rfl ?_ rfl rfl
    intro _ _ hactive
    rcases context.misuse_or_active with ⟨error, hmisuse⟩ | ⟨stream, hstream⟩
    · cases (isActive_of_misuse hmisuse).symm.trans hactive
    · refine ⟨(context.advance stream input).1, ?_⟩
      simp only [turn, update_of_active hstream]
  | finalize =>
    rcases context.misuse_or_active with ⟨error, hmisuse⟩ | ⟨stream, hactive⟩
    · have hother : (context.withPolicy .logAndContinue).misuse? = some error := hmisuse
      refine softens_of_ending_eq (turn_finalize_of_misuse hmisuse)
        (turn_finalize_of_misuse hother) rfl ?_
      rintro _ ⟨⟩
      exact isOfData_of_misuse hmisuse
    · have hother : (context.withPolicy .logAndContinue).lifecycle = .active stream := hactive
      cases hresult : context.lastOutput stream with
      | ok out =>
        have hsame : (context.withPolicy .logAndContinue).lastOutput stream = .ok out := hresult
        refine softens_of_ending_eq (turn_finalize_of_ok hactive hresult)
          (turn_finalize_of_ok hother hsame) rfl ?_
        intro _ herror
        cases herror
      | error error =>
        have hsame : (context.withPolicy .logAndContinue).lastOutput stream = .error error :=
          hresult
        exact softens_of_masked (turn_finalize_strict hactive hstrict hresult)
          (turn_finalize_lenient hother rfl hsame) rfl (isOfData_of_lastOutput hresult)

/-- A lenient context goes along with the strict one through any calls and differs from it only in
the failures that it drops. -/
theorem lenient_softens_strict (context : CipherContext) (calls : List CipherCall) (i : Nat) :
    Option.Rel Softens ((context.withPolicy .strict).turns calls)[i]?
      ((context.withPolicy .logAndContinue).turns calls)[i]? := by
  have hstep (first second : CipherContext) (call : CipherCall)
      (hrelated : first.policy = .strict ∧ second = first.withPolicy .logAndContinue) :
      Softens (first.turn call) (second.turn call) ∧
        (first.turn call).after.policy = .strict ∧
          (second.turn call).after = (first.turn call).after.withPolicy .logAndContinue := by
    obtain ⟨hstrict, rfl⟩ := hrelated
    have hpolicy : (first.turn call).after.policy = first.policy :=
      congrArg CipherParameters.policy (first.parameters_turn call)
    exact ⟨softens_turn hstrict call, hpolicy.trans hstrict, first.after_turn_withPolicy _ call⟩
  exact rel_turns hstep ⟨rfl, rfl⟩ calls i

end CipherContext

end StreamCrypto
