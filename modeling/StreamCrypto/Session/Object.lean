import StreamCrypto.Provider

/-!
# Objects in a session

A session keeps objects under names of the caller's choice. An object that goes away gives
back what it charges to a pool.
-/

namespace StreamCrypto

/-- Which way of deriving keys a context offers under `makeKey`. -/
inductive KdfFallback where
  | outsidePool
  | emptyKey
  deriving DecidableEq, Repr

inductive Object where
  | provider (provider : Provider)
  | hash (context : DigestContext)
  | cipher (context : CipherContext)
  | kdf (context : KdfContext) (fallback : KdfFallback)
  | pool (id : PoolId)
  | lease (lease : Lease)
  | array (array : SecureArray)
  | key (key : SymmetricKey)

namespace Object

/-- What the object charges to a pool. -/
def lease? : Object → Option Lease
  | lease l => some l
  | array a => a.lease
  | key k => k.material.lease
  | provider _ | hash _ | cipher _ | kdf _ _ | pool _ => none

def ofContext : Context → Object
  | .hash context => hash context
  | .cipher context => cipher context
  | .kdf context => kdf context .outsidePool

end Object

/-- Objects under distinct names. -/
abbrev Slots := List (String × Object)

namespace Slots

def get? (slots : Slots) (name : String) : Option Object := slots.lookup name

def erase (slots : Slots) (name : String) : Slots := slots.filter fun slot ↦ slot.1 != name

def insert (slots : Slots) (name : String) (object : Object) : Slots :=
  (name, object) :: slots.erase name

@[simp] theorem get?_insert_self (slots : Slots) (name : String) (object : Object) :
    (slots.insert name object).get? name = some object :=
  List.lookup_cons_self

theorem get?_erase_of_ne (slots : Slots) {name other : String} (hother : other ≠ name) :
    (slots.erase name).get? other = slots.get? other := by
  induction slots with
  | nil => rfl
  | cons slot slots ih =>
    obtain ⟨first, object⟩ := slot
    unfold get? erase at ih ⊢
    by_cases hfirst : first = name
    · subst hfirst
      have hlookup : (other == first) = false := beq_false_of_ne hother
      simp [List.lookup_cons, hlookup, ih]
    · simp [List.lookup_cons, hfirst, ih]

theorem insert_insert (slots : Slots) (name : String) (first second : Object) :
    (slots.insert name first).insert name second = slots.insert name second := by
  simp [insert, erase, List.filter_filter]

theorem get?_insert_of_ne (slots : Slots) {name other : String} (hother : other ≠ name)
    (object : Object) : (slots.insert name object).get? other = slots.get? other := by
  have hlookup : (other == name) = false := beq_false_of_ne hother
  rw [← get?_erase_of_ne slots hother]
  simp [insert, get?, List.lookup_cons, hlookup]

end Slots

structure Session where
  engine : Engine
  slots : Slots := []

namespace Session

/-- A session with an engine that has not been started. -/
def fresh : Session := { engine := Engine.fresh }

/-- A session with an engine that was started with the standard configuration. -/
def started : Session :=
  { engine := (Engine.fresh.start Config.standard).value.2 }

/-- Gives back what an object charges. -/
def discard (session : Session) (object : Option Object) : Session :=
  { session with engine := session.engine.release (object.bind Object.lease?) }

/-- Empties a slot and drops what was there. -/
def drop (session : Session) (name : String) : Session :=
  let old := session.slots.get? name
  discard { session with slots := session.slots.erase name } old

/-- Fills a slot and drops what was there. -/
def put (session : Session) (name : String) (object : Object) : Session :=
  let old := session.slots.get? name
  discard { session with slots := session.slots.insert name object } old

@[simp] theorem get?_slots_put (session : Session) (name : String) (object : Object) :
    (session.put name object).slots.get? name = some object :=
  session.slots.get?_insert_self name object

/-- Puts the next state of an object in its slot. -/
def store (session : Session) (name : String) (object : Object) : Session :=
  { session with slots := session.slots.insert name object }

end Session

end StreamCrypto
