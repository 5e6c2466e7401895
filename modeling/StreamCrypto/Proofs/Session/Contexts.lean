import StreamCrypto.Proofs.Cipher.Reporting
import StreamCrypto.Proofs.Session.Framing
import StreamCrypto.Proofs.Session.Secrecy
import StreamCrypto.Proofs.Session.Turns

/-!
# Cipher contexts in a session

A context in a slot only goes through the calls that commands make on it, whatever else is done in
the session: to other objects, to the engine, and in particular to the key it was set up with,
which may be dropped, cut short or moved since. A call reads the key in a slot once, and the context
keeps what was read.
-/

namespace StreamCrypto

/-- The reply that shows an answer. -/
def CipherAnswer.reply : CipherAnswer → Except Refused Reply
  | .ready (.ok _) => .ok .done
  | .output (.ok out) => .ok (.bytes out)
  | .ready (.error error) | .output (.error error) => .error (.failure (.error error))

namespace Session

open Procedure

/-- The call that a command makes on the context in a slot. -/
def callOn? (session : Session) (id : String) : Command → Option CipherCall
  | .cipher (.setup other direction key iv) =>
    if other = id then (session.key? key).map (.setup direction · iv) else none
  | .cipher (.update other data) => if other = id then some (.update data) else none
  | .cipher (.finalize other) => if other = id then some .finalize else none
  | _ => none

end Session

/-- The call that a turn has made on the context in a slot. -/
def SessionTurn.callOn? (id : String) (turn : SessionTurn) : Option CipherCall :=
  turn.before.callOn? id turn.command

namespace Session

open Procedure

variable {id : String} {context : CipherContext} {session : Session}

/-- There is a cipher context in a slot. -/
def Holds (id : String) (context : CipherContext) (session : Session) : Prop :=
  session.slots.get? id = some (.cipher context)

theorem holds_iff : Holds id context session ↔ session.cipher? id = some context := by
  unfold Holds cipher?
  constructor
  · intro hholds
    rw [hholds]
    rfl
  · intro hcontext
    obtain ⟨object, hobject, hchosen⟩ := Option.bind_eq_some_iff.1 hcontext
    cases object with
    | cipher context =>
      cases hchosen
      exact hobject
    | _ => cases hchosen

/-! ## Calls -/

section

variable {α β : Type}

theorem run_bind_of_silent {first : Procedure β} {next : β → Procedure α}
    {session middle : Session} {b : β}
    (hfirst : first.run.run session = ⟨(.ok b, middle), []⟩) :
    (first >>= next).run.run session = (next b).run.run middle := by
  rw [ExceptT.run_bind, StateT.run_bind, hfirst]
  rfl

theorem run_find_of_some {select : Object → Option α} {a : α}
    (hchosen : (session.slots.get? id).bind select = some a) :
    (find select id).run.run session = ⟨(.ok a, session), []⟩ := by
  rw [run_find, hchosen]
  rfl

theorem run_findCipher (hholds : Holds id context session) :
    (findCipher id).run.run session = ⟨(.ok context, session), []⟩ :=
  run_find_of_some (by rw [hholds]; rfl)

theorem run_readKey {key : KeySource} {bytes : Bytes} (hkey : session.key? key = some bytes) :
    (readKey key).run.run session = ⟨(.ok bytes, session), []⟩ := by
  cases key with
  | bytes written =>
    cases hkey
    rfl
  | slot other =>
    obtain ⟨key, hchosen, rfl⟩ := Option.map_eq_some_iff.1 hkey
    exact run_bind_of_silent (run_find_of_some hchosen)

/-- What is traced of arrays comes before what the rest logs. -/
theorem run_making_bind {make : Locking → Logged β} {next : β → Procedure α}
    {outcome : Except Refused α × Session} {events : List Event}
    (hnext : (next (make session.engine.memory.toLocking).value).run.run session =
      ⟨outcome, events⟩) :
    (making make >>= next).run.run session =
      ⟨outcome, (make session.engine.memory.toLocking).events ++ events⟩ := by
  have hmade : (making make).run.run session =
      ⟨(.ok (make session.engine.memory.toLocking).value, session),
        (make session.engine.memory.toLocking).events⟩ :=
    (run_bind_of_silent rfl).trans (run_log _ session)
  rw [ExceptT.run_bind, StateT.run_bind, hmade]
  exact congrArg (fun logged : Logged (Except Refused α × Session) ↦
    Logged.mk logged.value (_ ++ logged.events)) hnext

/-- The same where the rest logs nothing. -/
theorem run_making_last {make : Locking → Logged β} {next : β → Procedure α}
    {outcome : Except Refused α × Session}
    (hnext : (next (make session.engine.memory.toLocking).value).run.run session =
      ⟨outcome, []⟩) :
    (making make >>= next).run.run session =
      ⟨outcome, (make session.engine.memory.toLocking).events⟩ := by
  rw [run_making_bind hnext, List.append_nil]

end

theorem run_finishSetup (outcome : Except Error Unit × CipherContext) :
    (do finishCipher id outcome; pure .done : Procedure Reply).run.run session =
      ⟨((CipherAnswer.ready outcome.1).reply, session.store id (.cipher outcome.2)), []⟩ := by
  obtain ⟨result, after⟩ := outcome
  cases result with
  | ok done => rfl
  | error error => rfl

theorem run_finishOutput (outcome : Except Error SecureArray × CipherContext) :
    (do
      let out ← finishCipher id outcome
      pure (.bytes out.bytes) : Procedure Reply).run.run session =
      ⟨((CipherAnswer.output (CipherContext.bytesOf outcome).1).reply,
        session.store id (.cipher (CipherContext.bytesOf outcome).2)), []⟩ := by
  obtain ⟨result, after⟩ := outcome
  cases result with
  | ok out => rfl
  | error error => rfl

/-- A command that makes a call on a context answers and logs what the context does. -/
theorem run_of_callOn {command : Command} {call : CipherCall}
    (hholds : Holds id context session) (hcall : session.callOn? id command = some call) :
    session.run command =
      ⟨((context.turn call).answer.reply, session.store id (.cipher (context.turn call).after)),
        (context.turn call).eventsWith session.engine.memory.toLocking⟩ := by
  rw [CipherContext.eventsWith_turn]
  unfold callOn? at hcall
  split at hcall
  · next other direction key iv =>
    split at hcall
    · next hother =>
      subst hother
      obtain ⟨bytes, hkey, rfl⟩ := Option.map_eq_some_iff.1 hcall
      refine (run_bind_of_silent (run_findCipher hholds)).trans ?_
      refine (run_bind_of_silent (run_readKey hkey)).trans ?_
      refine run_making_bind (run_making_last ?_)
      rw [CipherContext.value_setupWith]
      exact run_finishSetup _
    · cases hcall
  · next other data =>
    split at hcall
    · next hother =>
      subst hother
      cases hcall
      have hfinish := @run_finishOutput other session (context.updateWith
        session.engine.memory.toLocking data).value
      rw [CipherContext.bytesOf_updateWith] at hfinish
      refine (run_bind_of_silent (run_findCipher hholds)).trans ?_
      exact run_making_last hfinish
    · cases hcall
  · next other =>
    split at hcall
    · next hother =>
      subst hother
      cases hcall
      have hfinish := @run_finishOutput other session (context.finalizeWith
        session.engine.memory.toLocking).value
      rw [CipherContext.bytesOf_finalizeWith] at hfinish
      refine (run_bind_of_silent (run_findCipher hholds)).trans ?_
      exact run_making_last hfinish
    · cases hcall
  · cases hcall

/-! ## Everything else -/

/-- A call with a key that is not there comes to nothing. -/
theorem run_setup_of_missing (hholds : Holds id context session) {key : KeySource}
    (hkey : session.key? key = none) (direction : Direction) (iv : Bytes) :
    (session.run (.cipher (.setup id direction key iv))).value.2 = session := by
  cases key with
  | bytes bytes => cases hkey
  | slot other =>
    have hmissing : (session.slots.get? other).bind asKey = none := Option.map_eq_none_iff.1 hkey
    have hread : ((readKey (.slot other)).run.run session).value =
        (.error (.noObject other), session) :=
      value_bind_of_error (value_find_of_none asKey hmissing)
    have hsetup : (session.run (.cipher (.setup id direction (.slot other) iv))).value =
        (.error (.noObject other), session) := by
      refine (value_bind_of_ok (congrArg Logged.value (run_findCipher hholds))).trans ?_
      exact value_bind_of_error hread
    exact congrArg Prod.snd hsetup

/-- A command that changes objects of another kind is refused. -/
theorem Holds.run_of_reworks {command : Command} (hholds : Holds id context session)
    (hreworks : command.reworks? = some id) (hcall : session.callOn? id command = none) :
    (session.run command).value.2 = session := by
  have hmissing {α : Type} {select : Object → Option α}
      (hselect : select (.cipher context) = none) :
      (session.slots.get? id).bind select = none := by
    rw [hholds]
    exact hselect
  cases command with
  | hash command =>
    cases command with
    | update | finalize | clear =>
      cases hreworks
      exact congrArg Prod.snd (value_bind_of_error (value_find_of_none _ (hmissing rfl)))
    | _ => cases hreworks
  | cipher command =>
    cases command with
    | setup other direction key iv =>
      cases hreworks
      rw [callOn?, if_pos rfl] at hcall
      exact run_setup_of_missing hholds (Option.map_eq_none_iff.1 hcall) direction iv
    | update | finalize =>
      cases hreworks
      exact nomatch hcall.symm.trans (if_pos rfl)
    | _ => cases hreworks
  | key command =>
    cases command with
    | unwrap | wrap =>
      cases hreworks
      exact congrArg Prod.snd
        (value_bind_of_error (value_bind_of_error (value_find_of_none _ (hmissing rfl))))
    | _ => cases hreworks
  | array command =>
    cases command with
    | set | truncate =>
      cases hreworks
      exact congrArg Prod.snd (value_bind_of_error (value_find_of_none _ (hmissing rfl)))
    | leased =>
      cases hreworks
      exact congrArg Prod.snd
        (value_bind_of_error (value_bind_of_error (value_find_of_none _ (hmissing rfl))))
    | _ => cases hreworks
  | _ => cases hreworks

/-- A command that makes no call on a context and puts nothing in its place leaves it alone. -/
theorem Holds.run {command : Command} (hholds : Holds id context session)
    (hfills : command.fills? ≠ some id) (hcall : session.callOn? id command = none) :
    Holds id context (session.run command).value.2 := by
  by_cases hreworks : command.reworks? = some id
  · rwa [hholds.run_of_reworks hreworks hcall]
  · exact (slot_run session hfills hreworks).trans hholds

/-! ## Runs -/

/-- The calls that turns have made on the context in a slot. -/
def callsOn (id : String) (past : List SessionTurn) : List CipherCall :=
  past.filterMap (SessionTurn.callOn? id)

/-- The turns that have made a call on the context in a slot. -/
def turnsOn (id : String) (past : List SessionTurn) : List SessionTurn :=
  past.filter fun turn ↦ (turn.callOn? id).isSome

/-- The context in a slot has gone through the calls of the past, and nothing else. -/
structure Drives (id : String) (context : CipherContext) (past : List SessionTurn)
    (session : Session) : Prop where
  found : session.cipher? id = some (context.afterCalls (callsOn id past))
  results : (turnsOn id past).map SessionTurn.result =
    (context.turns (callsOn id past)).map fun turn ↦ turn.answer.reply
  events : (turnsOn id past).map (fun turn ↦ Event.withoutTrace turn.events) =
    (context.turns (callsOn id past)).map CipherTurn.events
  /-- With what is traced of arrays, under the page locking of the time. -/
  traced : List.Forall₂
    (fun turn made ↦ turn.events = made.eventsWith turn.before.engine.memory.toLocking)
    (turnsOn id past) (context.turns (callsOn id past))

variable {past : List SessionTurn}

theorem drives_nil (hfound : session.cipher? id = some context) : Drives id context [] session :=
  ⟨hfound, rfl, rfl, .nil⟩

theorem Drives.turn (hdrives : Drives id context past session) {command : Command}
    (hfills : command.fills? ≠ some id) :
    Drives id context (past ++ [session.turn command]) (session.turn command).after := by
  have hholds := holds_iff.2 hdrives.found
  cases hcall : session.callOn? id command with
  | none =>
    have hturn : (session.turn command).callOn? id = none := hcall
    have hcalls : callsOn id (past ++ [session.turn command]) = callsOn id past := by
      simp [callsOn, hturn]
    have hturns : turnsOn id (past ++ [session.turn command]) = turnsOn id past := by
      simp [turnsOn, hturn]
    constructor
    · rw [hcalls]
      exact holds_iff.1 (hholds.run hfills hcall)
    · rw [hcalls, hturns]
      exact hdrives.results
    · rw [hcalls, hturns]
      exact hdrives.events
    · rw [hcalls, hturns]
      exact hdrives.traced
  | some call =>
    have hturn : (session.turn command).callOn? id = some call := hcall
    have hrun := run_of_callOn hholds hcall
    have hcalls : callsOn id (past ++ [session.turn command]) = callsOn id past ++ [call] := by
      simp [callsOn, hturn]
    have hturns : turnsOn id (past ++ [session.turn command]) =
        turnsOn id past ++ [session.turn command] := by
      simp [turnsOn, hturn]
    constructor
    · have hafter : Holds id ((context.afterCalls (callsOn id past)).turn call).after
          (session.turn command).after := by
        rw [Session.turn, hrun]
        exact session.slots.get?_insert_self id _
      rw [hcalls, CipherContext.afterCalls_append]
      exact holds_iff.1 hafter
    · rw [hcalls, hturns, CipherContext.turns_append, List.map_append, List.map_append,
        hdrives.results]
      exact congrArg (_ ++ [·]) (congrArg (fun logged ↦ (Logged.value logged).1) hrun)
    · rw [hcalls, hturns, CipherContext.turns_append, List.map_append, List.map_append,
        hdrives.events]
      refine congrArg (_ ++ [·]) ?_
      rw [← CipherContext.withoutTrace_eventsWith_turn]
      exact congrArg Event.withoutTrace (congrArg Logged.events hrun)
    · rw [hcalls, hturns, CipherContext.turns_append]
      exact List.rel_append hdrives.traced (.cons (congrArg Logged.events hrun) .nil)

theorem drives_turns (hfound : session.cipher? id = some context) {commands : List Command}
    (hfills : ∀ command ∈ commands, command.fills? ≠ some id) :
    Drives id context (session.turns commands) (session.afterCommands commands) :=
  turns_invariant (fun _ _ command hcommand hdrives ↦ hdrives.turn (hfills command hcommand))
    (drives_nil hfound)

/-- A new context reports what it runs with, after any calls on it; and whatever is done in its
session, it goes through the calls on it only. -/
theorem context_reports_what_it_runs_with (feature : Feature) (algorithm : CipherAlgorithm)
    (mode : Mode) (padding : Bool) (policy : FailurePolicy) :
    let context := (CipherContext.new feature algorithm mode padding).withPolicy policy
    (∀ calls, (context.afterCalls calls).parameters = ⟨algorithm, mode, padding, policy⟩ ∧
        CipherContext.Reports (context.turns calls) (context.afterCalls calls)) ∧
      ∀ (session : Session) (id : String) (commands : List Command),
        session.cipher? id = some context →
          (∀ command ∈ commands, command.fills? ≠ some id) →
            Drives id context (session.turns commands) (session.afterCommands commands) := by
  intro context
  refine ⟨fun calls ↦ ⟨context.parameters_afterCalls calls, ?_⟩, ?_⟩
  · exact CipherContext.reports_afterCalls feature algorithm mode padding policy calls
  · intro session id commands hfound hfills
    exact drives_turns hfound hfills

/-- A context for DES and a weak key. -/
def withWeakKey : List Command :=
  [.cipher (.new "context" .desCbc .des .cbc false (some .strict)),
    .key (.ofBytes "key" [1, 1, 1, 1, 1, 1, 1, 1])]

/-- Setting up a context with a key that is moved, cut short, moved back and dropped after that. -/
def losingKey : List Command :=
  [.cipher (.setup "context" .encode (.slot "key") [0, 0, 0, 0, 0, 0, 0, 0]),
    .key (.unwrap "key" "array"), .array (.truncate "array" 3), .key (.wrap "array" "key"),
    .cipher (.update "context" [1, 2, 3]), .drop "key"]

theorem context_reports_what_it_runs_with_losing_key :
    (∀ command ∈ losingKey, command.fills? ≠ some "context") ∧
      Drives "context" ((CipherContext.new .desCbc .des .cbc false).withPolicy .strict)
        ((fresh.afterCommands withWeakKey).turns losingKey)
        ((fresh.afterCommands withWeakKey).afterCommands losingKey) ∧
      (((fresh.afterCommands withWeakKey).afterCommands losingKey).cipher? "context").map
          (fun context ↦ (context.details.bound, context.weakKey)) =
        some (some ([1, 1, 1, 1, 1, 1, 1, 1], [0, 0, 0, 0, 0, 0, 0, 0]), true) := by
  have hfills : ∀ command ∈ losingKey, command.fills? ≠ some "context" := by decide
  have hdrives :=
    (context_reports_what_it_runs_with .desCbc .des .cbc false .strict).2
      (fresh.afterCommands withWeakKey) "context" losingKey rfl hfills
  exact ⟨hfills, hdrives, by rfl⟩

end Session

end StreamCrypto
