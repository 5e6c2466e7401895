import StreamCrypto.Event

/-!
# Page locking

A secure array asks the operating system to keep its pages in memory. The system may refuse; the
array is used all the same, and the refusal is only traced. What the system answers is a parameter
here: a list of answers for the arrays that a call makes. Nothing but the trace and the flag of the
array depends on it (`withoutTrace_lock`).
-/

namespace StreamCrypto

structure Locking where
  /-- Whether arrays ask for locks at all. -/
  pageLocking : Bool := true
  /-- Why the first, the second and so on of the arrays that a call makes get no lock, if so. The
  system refuses nothing to those beyond the list. -/
  refusals : List (Option LockError) := []
  deriving DecidableEq, Repr

namespace Locking

/-- What is left for the arrays after the first ones. -/
def skip (locking : Locking) (count : Nat) : Locking :=
  { locking with refusals := locking.refusals.drop count }

/-- Asks for the pages of an array of `length` bytes, and returns whether they are locked. An empty
array has none. -/
def lock (locking : Locking) (length : Nat) : Logged Bool :=
  if length = 0 ∨ locking.pageLocking = false then pure false
  else
    match locking.refusals.head?.join with
    | none => pure true
    | some cause => do
      Logged.emit (.leftUnlocked length cause)
      pure false

/-- The same for arrays of which nothing but their lengths is of interest. -/
def lockEach (locking : Locking) : (lengths : List Nat) → Logged Unit
  | [] => pure ()
  | length :: lengths => do
    let _ ← locking.lock length
    (locking.skip 1).lockEach lengths

theorem withoutTrace_lock (locking : Locking) (length : Nat) :
    Event.withoutTrace (locking.lock length).events = [] := by
  unfold lock
  split
  · rfl
  · split
    · rfl
    · rfl

theorem withoutTrace_lockEach (locking : Locking) (lengths : List Nat) :
    Event.withoutTrace (locking.lockEach lengths).events = [] := by
  induction lengths generalizing locking with
  | nil => rfl
  | cons length lengths ih =>
    rw [lockEach, Logged.events_bind, Event.withoutTrace_append, withoutTrace_lock, ih,
      List.nil_append]

end Locking

end StreamCrypto
