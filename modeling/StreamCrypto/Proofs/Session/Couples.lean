import StreamCrypto.Proofs.Alike
import StreamCrypto.Session.Run

/-!
# Rules for pairs of procedures

Two procedures are run side by side, each on a session of its own. They are coupled if they log the
same and end alike: both return, or both are refused for one reason. As for a single procedure there
is one rule for each way to make a procedure, and the rule for a sequence has a middle condition.
-/

namespace StreamCrypto.Session.Procedure

open Logged

variable {α β γ δ : Type}

/-- Both procedures return, or both are refused for one reason. -/
def Ends (Q : α → β → Session → Session → Prop) (R : Session → Session → Prop) :
    Except Refused α × Session → Except Refused β × Session → Prop
  | (.ok a, after), (.ok b, after') => Q a b after after'
  | (.error refused, after), (.error refused', after') => refused = refused' ∧ R after after'
  | (.ok _, _), (.error _, _) | (.error _, _), (.ok _, _) => False

/-- What holds after both ends alike needs no case distinction. -/
theorem Ends.alike {V : α → β → Prop} {R : Session → Session → Prop}
    {one : Except Refused α × Session} {two : Except Refused β × Session}
    (hends : Ends (fun a b after after' ↦ V a b ∧ R after after') R one two) :
    ResultsAlike V one.1 two.1 ∧ R one.2 two.2 := by
  obtain ⟨result, after⟩ := one
  obtain ⟨result', after'⟩ := two
  cases result with
  | ok a =>
    cases result' with
    | ok b => exact hends
    | error refused => cases hends
  | error refused =>
    cases result' with
    | ok b => cases hends
    | error refused' => exact hends

/-- From sessions with `P`, the procedures log the same and lead to `Q` with their values, or are
refused alike and lead to `R`. -/
def Couples (P : Session → Session → Prop) (first : Procedure α) (second : Procedure β)
    (Q : α → β → Session → Session → Prop) (R : Session → Session → Prop) : Prop :=
  ∀ session other, P session other →
    Agrees (Ends Q R) (first.run.run session) (second.run.run other)

variable {P R : Session → Session → Prop} {Q : α → β → Session → Session → Prop}

theorem couples_pure {a : α} {b : β} (h : ∀ session other, P session other → Q a b session other) :
    Couples P (pure a) (pure b) Q R :=
  fun session other hP ↦ ⟨rfl, h session other hP⟩

theorem couples_bind {first : Procedure γ} {second : Procedure δ} {next : γ → Procedure α}
    {next' : δ → Procedure β} {M : γ → δ → Session → Session → Prop}
    (hfirst : Couples P first second M R)
    (hnext : ∀ c d, Couples (M c d) (next c) (next' d) Q R) :
    Couples P (first >>= next) (second >>= next') Q R := by
  intro session other hP
  rw [ExceptT.run_bind, ExceptT.run_bind, StateT.run_bind, StateT.run_bind]
  apply agrees_bind (hfirst session other hP)
  rintro ⟨result, middle⟩ ⟨result', middle'⟩ hmiddle
  cases result with
  | ok c =>
    cases result' with
    | ok d => exact hnext c d middle middle' hmiddle
    | error refused => cases hmiddle
  | error refused =>
    cases result' with
    | ok d => cases hmiddle
    | error refused' => exact agrees_pure hmiddle

theorem couples_weaken {S T : Session → Session → Prop} {first : Procedure α}
    {second : Procedure β} {U : α → β → Session → Session → Prop}
    (hcouples : Couples P first second Q R) (h : ∀ session other, S session other → P session other)
    (hQ : ∀ a b after after', Q a b after after' → U a b after after')
    (hR : ∀ after after', R after after' → T after after') : Couples S first second U T := by
  intro session other hS
  obtain ⟨hevents, hends⟩ := hcouples session other (h session other hS)
  refine ⟨hevents, ?_⟩
  generalize (first.run.run session).value = one at hends ⊢
  generalize (second.run.run other).value = two at hends ⊢
  obtain ⟨result, after⟩ := one
  obtain ⟨result', after'⟩ := two
  cases result with
  | ok a =>
    cases result' with
    | ok b => exact hQ a b after after' hends
    | error refused => cases hends
  | error refused =>
    cases result' with
    | ok b => cases hends
    | error refused' => exact ⟨hends.1, hR after after' hends.2⟩

theorem couples_get {T : Session → Session → Session → Session → Prop}
    (h : ∀ session other, P session other → T session other session other) :
    Couples P get get T R :=
  fun session other hP ↦ ⟨rfl, h session other hP⟩

theorem couples_modify {change change' : Session → Session}
    {T : PUnit → PUnit → Session → Session → Prop}
    (h : ∀ session other, P session other → T ⟨⟩ ⟨⟩ (change session) (change' other)) :
    Couples P (modify change) (modify change') T R :=
  fun session other hP ↦ ⟨rfl, h session other hP⟩

theorem couples_throw {refused : Refused}
    (h : ∀ session other, P session other → R session other) :
    Couples P (throw refused) (throw refused) Q R :=
  fun session other hP ↦ ⟨rfl, rfl, h session other hP⟩

theorem run_log (logged : Logged α) (session : Session) :
    (log logged).run.run session = ⟨(.ok logged.value, session), logged.events⟩ := by
  change Logged.mk (Except.ok logged.value, session) (logged.events ++ [] ++ []) = _
  rw [List.append_nil, List.append_nil]

theorem couples_log {logged : Logged α} {logged' : Logged β} {Values : α → β → Prop}
    (hlogged : Agrees Values logged logged')
    (h : ∀ a b session other, Values a b → P session other → Q a b session other) :
    Couples P (log logged) (log logged') Q R := by
  intro session other hP
  rw [run_log, run_log]
  exact ⟨hlogged.events, h _ _ session other hlogged.value hP⟩

theorem couples_settle {Values : α → β → Prop} {result : Except Failure α}
    {result' : Except Failure β} (hresults : ResultsAlike Values result result')
    (hok : ∀ a b session other, Values a b → P session other → Q a b session other)
    (herror : ∀ session other, P session other → R session other) :
    Couples P (settle result) (settle result') Q R := by
  cases result with
  | ok a =>
    cases result' with
    | ok b => exact couples_pure fun session other hP ↦ hok a b session other hresults hP
    | error failure => cases hresults
  | error failure =>
    cases result' with
    | ok b => cases hresults
    | error failure' =>
      cases hresults
      exact couples_throw herror

theorem couples_settleAs {ε : Type} {wrap : ε → Failure} {Values : α → β → Prop}
    {result : Except ε α} {result' : Except ε β} (hresults : ResultsAlike Values result result')
    (hok : ∀ a b session other, Values a b → P session other → Q a b session other)
    (herror : ∀ session other, P session other → R session other) :
    Couples P (settleAs wrap result) (settleAs wrap result') Q R := by
  refine couples_settle ?_ hok herror
  cases result with
  | ok a =>
    cases result' with
    | ok b => exact hresults
    | error error => cases hresults
  | error error =>
    cases result' with
    | ok b => cases hresults
    | error error' => exact congrArg wrap hresults

theorem run_onEngine (change : Engine → Logged (α × Engine)) (session : Session) :
    (onEngine change).run.run session = ⟨(.ok (change session.engine).value.1,
      { session with engine := (change session.engine).value.2 }),
      (change session.engine).events⟩ := by
  change Logged.mk (Except.ok (change session.engine).value.1,
    { session with engine := (change session.engine).value.2 })
    ([] ++ (((change session.engine).events ++ [] ++ []) ++ ([] ++ []))) = _
  simp only [List.append_nil, List.nil_append]

theorem couples_onEngine {change : Engine → Logged (α × Engine)}
    {change' : Engine → Logged (β × Engine)}
    (h : ∀ session other, P session other →
      Agrees (fun one two ↦ Q one.1 two.1 { session with engine := one.2 }
        { other with engine := two.2 }) (change session.engine) (change' other.engine)) :
    Couples P (onEngine change) (onEngine change') Q R := by
  intro session other hP
  have hchange := h session other hP
  rw [run_onEngine, run_onEngine]
  exact ⟨hchange.events, hchange.value⟩

theorem run_find (select : Object → Option α) (id : String) (session : Session) :
    (find select id).run.run session = pure (match (session.slots.get? id).bind select with
      | some chosen => (.ok chosen, session)
      | none => (.error (.noObject id), session)) := by
  have hrest : (find select id).run.run session = (match (session.slots.get? id).bind select with
      | some chosen => (pure chosen : Procedure α)
      | none => throw (Refused.noObject id)).run.run session := rfl
  rw [hrest]
  cases (session.slots.get? id).bind select with
  | none => rfl
  | some chosen => rfl

/-- Both slots hold what is looked for, or neither does. -/
theorem couples_find {V : α → β → Prop} {select : Object → Option α} {select' : Object → Option β}
    {id : String}
    (h : ∀ session other, P session other →
      Option.Rel V ((session.slots.get? id).bind select) ((other.slots.get? id).bind select'))
    (hfound : ∀ session other a b, P session other → V a b →
      (session.slots.get? id).bind select = some a →
        (other.slots.get? id).bind select' = some b → Q a b session other)
    (hmissing : ∀ session other, P session other → R session other) :
    Couples P (find select id) (find select' id) Q R := by
  intro session other hP
  have hchosen := h session other hP
  have hboth := fun a b ↦ hfound session other a b hP
  rw [run_find, run_find]
  generalize (session.slots.get? id).bind select = one at hchosen hboth ⊢
  generalize (other.slots.get? id).bind select' = two at hchosen hboth ⊢
  cases hchosen with
  | none => exact agrees_pure ⟨rfl, hmissing session other hP⟩
  | some hV => exact agrees_pure (hboth _ _ hV rfl rfl)

end StreamCrypto.Session.Procedure
