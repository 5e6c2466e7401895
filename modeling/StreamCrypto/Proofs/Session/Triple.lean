import StreamCrypto.Session.Run

/-!
# Rules for procedures

A procedure is described by three conditions on sessions: one before it, one after it that may
speak of the value it returns, and one after it in case that it is refused. There is one rule for
each way to make a procedure, so that a command is taken apart along its own text. What a
procedure logs is left out.
-/

namespace StreamCrypto.Session.Procedure

variable {α β : Type}

theorem value_bind_of_ok {first : Procedure β} {next : β → Procedure α} {session middle : Session}
    {b : β} (hfirst : (first.run.run session).value = (.ok b, middle)) :
    ((first >>= next).run.run session).value = ((next b).run.run middle).value := by
  rw [ExceptT.run_bind, StateT.run_bind, Logged.value_bind, hfirst]

theorem value_bind_of_error {first : Procedure β} {next : β → Procedure α}
    {session middle : Session} {refused : Refused}
    (hfirst : (first.run.run session).value = (.error refused, middle)) :
    ((first >>= next).run.run session).value = (.error refused, middle) := by
  rw [ExceptT.run_bind, StateT.run_bind, Logged.value_bind, hfirst]
  rfl

theorem value_get (session : Session) :
    ((get : Procedure Session).run.run session).value = (.ok session, session) := rfl

theorem value_onEngine (change : Engine → Logged (α × Engine)) (session : Session) :
    ((onEngine change).run.run session).value = (.ok (change session.engine).value.1,
      { session with engine := (change session.engine).value.2 }) := rfl

theorem value_onMemory (change : Memory → Logged (α × Memory)) (session : Session) :
    ((onMemory change).run.run session).value =
      (.ok (change session.engine.memory).value.1, { session with engine := { session.engine with
        memory := (change session.engine.memory).value.2 } }) := rfl

theorem value_making (make : Locking → Logged α) (session : Session) :
    ((making make).run.run session).value =
      (.ok (make session.engine.memory.toLocking).value, session) := rfl

theorem value_find_of_some (select : Object → Option α) {id : String} {session : Session} {a : α}
    (hchosen : (session.slots.get? id).bind select = some a) :
    ((find select id).run.run session).value = (.ok a, session) := by
  unfold find
  rw [value_bind_of_ok (value_get session), hchosen]
  rfl

theorem value_find_of_none (select : Object → Option α) {id : String} {session : Session}
    (hmissing : (session.slots.get? id).bind select = none) :
    ((find select id).run.run session).value = (.error (.noObject id), session) := by
  unfold find
  rw [value_bind_of_ok (value_get session), hmissing]
  rfl

/-- From a session with `P` the procedure leads to `Q` with its value, or is refused with `R`. -/
def Ensures (P : Session → Prop) (procedure : Procedure α) (Q : α → Session → Prop)
    (R : Session → Prop) : Prop :=
  ∀ session, P session →
    match (procedure.run.run session).value with
    | (.ok a, after) => Q a after
    | (.error _, after) => R after

variable {P R : Session → Prop} {Q : α → Session → Prop}

theorem ensures_pure {a : α} (h : ∀ session, P session → Q a session) :
    Ensures P (pure a) Q R := h

theorem ensures_bind {first : Procedure β} {next : β → Procedure α} {M : β → Session → Prop}
    (hfirst : Ensures P first M R) (hnext : ∀ b, Ensures (M b) (next b) Q R) :
    Ensures P (first >>= next) Q R := by
  intro session hP
  have hmiddle := hfirst session hP
  cases hvalue : (first.run.run session).value with
  | mk outcome middle =>
    rw [hvalue] at hmiddle
    cases outcome with
    | error refused =>
      rw [value_bind_of_error hvalue]
      exact hmiddle
    | ok b =>
      rw [value_bind_of_ok hvalue]
      exact hnext b middle hmiddle

/-- What holds after a procedure in any case holds of the session after it. -/
theorem Ensures.after {S : Session → Prop} {procedure : Procedure α}
    (hprocedure : Ensures P procedure (fun _ ↦ S) S) {session : Session} (hP : P session) :
    S (procedure.run.run session).value.2 := by
  have hafter := hprocedure session hP
  cases hvalue : (procedure.run.run session).value with
  | mk outcome after =>
    rw [hvalue] at hafter
    cases outcome with
    | error refused => exact hafter
    | ok a => exact hafter

theorem ensures_weaken {S : Session → Prop} {procedure : Procedure α}
    (hprocedure : Ensures P procedure Q R) (h : ∀ session, S session → P session) :
    Ensures S procedure Q R :=
  fun session hS ↦ hprocedure session (h session hS)

/-- A condition that does not speak of the session may be assumed. -/
theorem ensures_fact {fact : Prop} {procedure : Procedure α}
    (h : fact → Ensures P procedure Q R) :
    Ensures (fun session ↦ P session ∧ fact) procedure Q R :=
  fun session hP ↦ h hP.2 session hP.1

theorem ensures_get {T : Session → Session → Prop} (h : ∀ session, P session → T session session) :
    Ensures P get T R := h

theorem ensures_modify {change : Session → Session} {T : PUnit → Session → Prop}
    (h : ∀ session, P session → T ⟨⟩ (change session)) : Ensures P (modify change) T R := h

theorem ensures_throw {refused : Refused} (h : ∀ session, P session → R session) :
    Ensures P (throw refused) Q R := h

theorem ensures_log {logged : Logged α} (h : ∀ session, P session → Q logged.value session) :
    Ensures P (log logged) Q R := h

/-- Making arrays leaves the session as it is, and what follows may be served by any locking. -/
theorem ensures_making_bind {make : Locking → Logged β} {next : β → Procedure α}
    (hnext : ∀ locking, Ensures P (next (make locking).value) Q R) :
    Ensures P (making make >>= next) Q R := by
  intro session hP
  rw [value_bind_of_ok (value_making make session)]
  exact hnext _ session hP

theorem ensures_settleAs {ε : Type} {wrap : ε → Failure} {result : Except ε α}
    (hok : ∀ session a, P session → result = .ok a → Q a session)
    (herror : ∀ session error, P session → result = .error error → R session) :
    Ensures P (settleAs wrap result) Q R := by
  intro session hP
  cases hresult : result with
  | error error => exact herror session error hP hresult
  | ok a => exact hok session a hP hresult

theorem ensures_settle {result : Except Failure α}
    (hok : ∀ session a, P session → result = .ok a → Q a session)
    (herror : ∀ session failure, P session → result = .error failure → R session) :
    Ensures P (settle result) Q R := by
  intro session hP
  cases hresult : result with
  | error failure => exact herror session failure hP hresult
  | ok a => exact hok session a hP hresult

theorem ensures_onEngine {change : Engine → Logged (α × Engine)}
    (h : ∀ session, P session → Q (change session.engine).value.1
      { session with engine := (change session.engine).value.2 }) :
    Ensures P (onEngine change) Q R := h

theorem ensures_onMemory {change : Memory → Logged (α × Memory)}
    (h : ∀ session, P session → Q (change session.engine.memory).value.1
      { session with engine := { session.engine with
        memory := (change session.engine.memory).value.2 } }) :
    Ensures P (onMemory change) Q R := h

theorem ensures_find {select : Object → Option α} {id : String}
    (hfound : ∀ session object a, P session → session.slots.get? id = some object →
      select object = some a → Q a session)
    (hmissing : ∀ session, P session → (session.slots.get? id).bind select = none →
      R session) :
    Ensures P (find select id) Q R := by
  intro session hP
  cases hchosen : (session.slots.get? id).bind select with
  | none =>
    rw [value_find_of_none select hchosen]
    exact hmissing session hP hchosen
  | some a =>
    rw [value_find_of_some select hchosen]
    obtain ⟨object, hobject, hselect⟩ := Option.bind_eq_some_iff.1 hchosen
    exact hfound session object a hP hobject hselect

theorem ensures_take {select : Object → Option α} {id : String}
    (hfound : ∀ session object a, P session → session.slots.get? id = some object →
      select object = some a → Q a { session with slots := session.slots.erase id })
    (hmissing : ∀ session, P session → (session.slots.get? id).bind select = none →
      R session) :
    Ensures P (take select id) Q R := by
  apply ensures_bind (ensures_find hfound hmissing)
  intro a
  exact ensures_bind (M := fun _ ↦ Q a) (ensures_modify fun _ hmoved ↦ hmoved) fun _ ↦
    ensures_pure fun _ hmoved ↦ hmoved

/-! ## Conditions that are kept -/

/-- The condition is kept, also if the procedure is refused. -/
def Preserves (P : Session → Prop) (procedure : Procedure α) : Prop :=
  Ensures P procedure (fun _ ↦ P) P

theorem preserves_pure (a : α) : Preserves P (pure a : Procedure α) :=
  ensures_pure fun _ hP ↦ hP

theorem preserves_bind {first : Procedure β} {next : β → Procedure α} (hfirst : Preserves P first)
    (hnext : ∀ b, Preserves P (next b)) : Preserves P (first >>= next) :=
  ensures_bind hfirst hnext

theorem preserves_get : Preserves P get :=
  ensures_get fun _ hP ↦ hP

theorem preserves_throw (refused : Refused) : Preserves P (throw refused : Procedure α) :=
  ensures_throw fun _ hP ↦ hP

theorem preserves_log (logged : Logged α) : Preserves P (log logged) :=
  ensures_log fun _ hP ↦ hP

theorem preserves_making (make : Locking → Logged α) : Preserves P (making make) :=
  preserves_bind preserves_get fun session ↦
    preserves_log (make session.engine.memory.toLocking)

theorem preserves_settle (result : Except Failure α) : Preserves P (settle result) := by
  cases result with
  | error failure => exact preserves_throw _
  | ok a => exact preserves_pure a

theorem preserves_settleAs {ε : Type} (wrap : ε → Failure) (result : Except ε α) :
    Preserves P (settleAs wrap result) :=
  preserves_settle _

/-- What comes after a result may assume that it is not an error. -/
theorem preserves_settle_bind {result : Except Failure β} {next : β → Procedure α}
    (hnext : ∀ b, result = .ok b → Preserves P (next b)) :
    Preserves P (settle result >>= next) :=
  ensures_bind (M := fun b session ↦ P session ∧ result = .ok b)
    (ensures_settle (fun _ _ hP hresult ↦ ⟨hP, hresult⟩) fun _ _ hP _ ↦ hP)
    fun b ↦ ensures_fact (hnext b)

theorem preserves_settleAs_bind {ε : Type} {wrap : ε → Failure} {result : Except ε β}
    {next : β → Procedure α} (hnext : ∀ b, result = .ok b → Preserves P (next b)) :
    Preserves P (settleAs wrap result >>= next) :=
  ensures_bind (M := fun b session ↦ P session ∧ result = .ok b)
    (ensures_settleAs (fun _ _ hP hresult ↦ ⟨hP, hresult⟩) fun _ _ hP _ ↦ hP)
    fun b ↦ ensures_fact (hnext b)

theorem preserves_find (select : Object → Option α) (id : String) : Preserves P (find select id) :=
  ensures_find (fun _ _ _ hP _ _ ↦ hP) fun _ hP _ ↦ hP

theorem preserves_modify {change : Session → Session}
    (h : ∀ session, P session → P (change session)) : Preserves P (modify change) := h

theorem preserves_onEngine {change : Engine → Logged (α × Engine)}
    (h : ∀ session, P session →
      P { session with engine := (change session.engine).value.2 }) :
    Preserves P (onEngine change) := h

theorem preserves_readKey (key : KeySource) : Preserves P (readKey key) := by
  cases key with
  | bytes bytes => exact preserves_pure bytes
  | slot id => exact preserves_bind (preserves_find _ id) fun _ ↦ preserves_pure _

theorem preserves_findPool (source : PoolSource) : Preserves P (findPool source) := by
  cases source with
  | slot id => exact preserves_find _ id
  | engine =>
    apply preserves_bind preserves_get
    intro session
    cases session.engine.securePool with
    | none => exact preserves_throw _
    | some pool => exact preserves_pure pool

theorem Preserves.after {procedure : Procedure α} (hprocedure : Preserves P procedure)
    {session : Session} (hP : P session) : P (procedure.run.run session).value.2 :=
  Ensures.after hprocedure hP

end StreamCrypto.Session.Procedure
