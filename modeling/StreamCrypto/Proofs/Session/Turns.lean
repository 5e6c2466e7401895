import StreamCrypto.Session.Run

/-!
# Turns of a session

A run of commands, command by command: what was there before, what came back and was logged, and
what is there afterwards. What one turn preserves of a session and its past, a run preserves
(`turns_invariant`).
-/

namespace StreamCrypto

/-- One command with all that comes of it. -/
structure SessionTurn where
  before : Session
  command : Command
  result : Except Refused Reply
  events : List Event
  after : Session

namespace Session

def turn (session : Session) (command : Command) : SessionTurn where
  before := session
  command := command
  result := (session.run command).value.1
  events := (session.run command).events
  after := (session.run command).value.2

/-- The turns that commands make, one after the other. -/
def turns (session : Session) : List Command → List SessionTurn
  | [] => []
  | command :: commands => session.turn command :: (session.turn command).after.turns commands

/-- The session that commands lead to. -/
def afterCommands (session : Session) : List Command → Session
  | [] => session
  | command :: commands => (session.turn command).after.afterCommands commands

theorem turns_invariant {Holds : List SessionTurn → Session → Prop} {commands : List Command}
    (hstep : ∀ past session, ∀ command ∈ commands, Holds past session →
      Holds (past ++ [session.turn command]) (session.turn command).after)
    {past : List SessionTurn} {session : Session} (hholds : Holds past session) :
    Holds (past ++ session.turns commands) (session.afterCommands commands) := by
  induction commands generalizing past session with
  | nil => rwa [turns, List.append_nil]
  | cons command commands ih =>
    have hturn := hstep past session command List.mem_cons_self hholds
    have hrest := ih (fun past session next hnext ↦ hstep past session next (.tail _ hnext)) hturn
    rwa [List.append_assoc] at hrest

end Session

end StreamCrypto
