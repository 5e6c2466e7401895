import StreamCrypto.Proofs.Cipher.Alike
import StreamCrypto.Proofs.Kdf.Alike
import StreamCrypto.Proofs.Session.Couples

/-!
# Sessions that differ in secret bytes only

Two sessions are alike if they have the same engine and, under every name, objects that differ in
secret bytes only. Procedures mirror each other if they keep sessions alike, log the same and end
alike. What only looks a slot up, fills it or uses the engine mirrors itself.
-/

namespace StreamCrypto

open Logged

/-- Digests of one kind, whatever they have read. -/
structure DigestContext.Alike (first second : DigestContext) : Prop where
  feature : first.feature = second.feature
  algorithm : first.algorithm = second.algorithm

/-- A digest is as long as its algorithm says. -/
theorem DigestContext.Alike.finalizeWith_agrees {first second : DigestContext}
    (halike : first.Alike second) (locking : Locking) :
    Agrees (fun one other ↦ one.1.Alike other.1 ∧ one.2.Alike other.2)
      (first.finalizeWith locking) (second.finalizeWith locking) := by
  have hlength (context : DigestContext) :
      context.hasher.finish.length = context.algorithm.digestLength :=
    context.algorithm.length_output _
  have hlengths : first.hasher.finish.length = second.hasher.finish.length := by
    rw [hlength, hlength, halike.algorithm]
  exact agrees_bind (SecureArray.ofBytes_agrees hlengths locking) fun _ _ hdigests ↦
    agrees_pure ⟨hdigests, halike.feature, halike.algorithm⟩

/-- Objects that differ in secret bytes only. -/
inductive Object.Alike : Object → Object → Prop
  | provider (provider : Provider) : Alike (.provider provider) (.provider provider)
  | hash {first second : DigestContext} (halike : first.Alike second) :
      Alike (.hash first) (.hash second)
  | cipher {first second : CipherContext} (halike : first.Alike second) :
      Alike (.cipher first) (.cipher second)
  | kdf (context : KdfContext) (fallback : KdfFallback) :
      Alike (.kdf context fallback) (.kdf context fallback)
  | pool (id : PoolId) : Alike (.pool id) (.pool id)
  | lease (lease : Lease) : Alike (.lease lease) (.lease lease)
  | array {first second : SecureArray} (halike : first.Alike second) :
      Alike (.array first) (.array second)
  | key {first second : SymmetricKey} (halike : first.Alike second) :
      Alike (.key first) (.key second)

theorem Object.Alike.lease? {first second : Object} (halike : first.Alike second) :
    first.lease? = second.lease? := by
  cases halike with
  | array halike => exact halike.lease
  | key halike => exact SecureArray.Alike.lease halike
  | provider | hash | cipher | kdf | pool | lease => rfl

theorem Slots.get?_erase_self (slots : Slots) (name : String) :
    (slots.erase name).get? name = none := by
  induction slots with
  | nil => rfl
  | cons slot slots ih =>
    obtain ⟨first, object⟩ := slot
    unfold get? erase at ih ⊢
    by_cases hfirst : first = name
    · simp [hfirst, ih]
    · have hlookup : (name == first) = false := beq_false_of_ne (Ne.symm hfirst)
      simp [List.lookup_cons, hfirst, hlookup, ih]

namespace Session

/-- Sessions that differ in secret bytes only. -/
structure Alike (first second : Session) : Prop where
  engine : first.engine = second.engine
  slots : ∀ id, Option.Rel Object.Alike (first.slots.get? id) (second.slots.get? id)

theorem alike_empty (engine : Engine) : Alike { engine } { engine } := ⟨rfl, fun _ ↦ .none⟩

variable {first second : Session} (halike : first.Alike second)

include halike

theorem Alike.withEngine (engine : Engine) :
    Alike { first with engine } { second with engine } :=
  ⟨rfl, halike.slots⟩

theorem Alike.discard {one other : Option Object} (hobjects : Option.Rel Object.Alike one other) :
    (first.discard one).Alike (second.discard other) := by
  have hlease : one.bind Object.lease? = other.bind Object.lease? := by
    cases hobjects with
    | none => rfl
    | some hobjects => exact hobjects.lease?
  unfold Session.discard
  rw [hlease, halike.engine]
  exact halike.withEngine _

theorem Alike.erase (name : String) :
    Alike { first with slots := first.slots.erase name }
      { second with slots := second.slots.erase name } := by
  refine ⟨halike.engine, fun id ↦ ?_⟩
  by_cases hid : id = name
  · subst hid
    simp only [Slots.get?_erase_self]
    exact .none
  · simp only [Slots.get?_erase_of_ne _ hid]
    exact halike.slots id

theorem Alike.drop (name : String) : (first.drop name).Alike (second.drop name) :=
  (halike.erase name).discard (halike.slots name)

theorem Alike.store (name : String) {one other : Object} (hobjects : one.Alike other) :
    (first.store name one).Alike (second.store name other) := by
  refine ⟨halike.engine, fun id ↦ ?_⟩
  unfold Session.store
  by_cases hid : id = name
  · subst hid
    simp only [Slots.get?_insert_self]
    exact .some hobjects
  · simp only [Slots.get?_insert_of_ne _ hid]
    exact halike.slots id

theorem Alike.put (name : String) {one other : Object} (hobjects : one.Alike other) :
    (first.put name one).Alike (second.put name other) :=
  (halike.store name hobjects).discard (halike.slots name)

/-- What is chosen from alike slots. -/
theorem Alike.bind_slots {α β : Type} {V : α → β → Prop} {select : Object → Option α}
    {select' : Object → Option β}
    (hselect : ∀ one other : Object, one.Alike other → Option.Rel V (select one) (select' other))
    (id : String) :
    Option.Rel V ((first.slots.get? id).bind select) ((second.slots.get? id).bind select') := by
  have hobjects := halike.slots id
  generalize first.slots.get? id = one at hobjects ⊢
  generalize second.slots.get? id = two at hobjects ⊢
  cases hobjects with
  | none => exact .none
  | some hobjects => exact hselect _ _ hobjects

end Session

/-! ## Procedures -/

namespace Session.Procedure

variable {α β γ δ : Type} {V : α → β → Prop}

/-- The procedures log the same on alike sessions, end alike and leave the sessions alike. -/
def Mirrors (V : α → β → Prop) (first : Procedure α) (second : Procedure β) : Prop :=
  Couples Session.Alike first second (fun a b session other ↦ V a b ∧ session.Alike other)
    Session.Alike

theorem mirrors_pure {a : α} {b : β} (h : V a b) : Mirrors V (pure a) (pure b) :=
  couples_pure fun _ _ halike ↦ ⟨h, halike⟩

theorem mirrors_bind {W : γ → δ → Prop} {first : Procedure γ} {second : Procedure δ}
    {next : γ → Procedure α} {next' : δ → Procedure β} (hfirst : Mirrors W first second)
    (hnext : ∀ c d, W c d → Mirrors V (next c) (next' d)) :
    Mirrors V (first >>= next) (second >>= next') :=
  couples_bind hfirst fun c d session other hmiddle ↦
    hnext c d hmiddle.1 session other hmiddle.2

theorem mirrors_get : Mirrors Session.Alike get get :=
  couples_get fun _ _ halike ↦ ⟨halike, halike⟩

theorem mirrors_modify {change change' : Session → Session}
    (h : ∀ session other, session.Alike other → (change session).Alike (change' other)) :
    Mirrors Eq (modify change) (modify change') :=
  couples_modify fun session other halike ↦ ⟨rfl, h session other halike⟩

theorem mirrors_throw (refused : Refused) :
    Mirrors V (throw refused : Procedure α) (throw refused : Procedure β) :=
  couples_throw fun _ _ halike ↦ halike

theorem mirrors_settle {result : Except Failure α} {result' : Except Failure β}
    (hresults : ResultsAlike V result result') : Mirrors V (settle result) (settle result') :=
  couples_settle hresults (fun _ _ _ _ hV halike ↦ ⟨hV, halike⟩) fun _ _ halike ↦ halike

theorem mirrors_settleAs {ε : Type} {wrap : ε → Failure} {result : Except ε α}
    {result' : Except ε β} (hresults : ResultsAlike V result result') :
    Mirrors V (settleAs wrap result) (settleAs wrap result') :=
  couples_settleAs hresults (fun _ _ _ _ hV halike ↦ ⟨hV, halike⟩) fun _ _ halike ↦ halike

theorem mirrors_log {logged : Logged α} {logged' : Logged β} (h : Agrees V logged logged') :
    Mirrors V (log logged) (log logged') :=
  couples_log h fun _ _ _ _ hV halike ↦ ⟨hV, halike⟩

theorem mirrors_onEngine {change : Engine → Logged (α × Engine)}
    {change' : Engine → Logged (β × Engine)}
    (h : ∀ engine, Agrees (fun one two ↦ V one.1 two.1 ∧ one.2 = two.2) (change engine)
      (change' engine)) :
    Mirrors V (onEngine change) (onEngine change') := by
  refine couples_onEngine fun session other halike ↦ ?_
  rw [← halike.engine]
  obtain ⟨hevents, hvalue, hengine⟩ := h session.engine
  refine ⟨hevents, hvalue, ?_⟩
  rw [← hengine]
  exact halike.withEngine _

theorem mirrors_making {make : Locking → Logged α} {make' : Locking → Logged β}
    (h : ∀ locking, Agrees V (make locking) (make' locking)) :
    Mirrors V (making make) (making make') := by
  refine mirrors_bind mirrors_get fun session other halike ↦ ?_
  rw [← halike.engine]
  exact mirrors_log (h _)

theorem mirrors_find {select : Object → Option α} {select' : Object → Option β}
    (hselect : ∀ one other : Object, one.Alike other → Option.Rel V (select one) (select' other))
    (id : String) : Mirrors V (find select id) (find select' id) :=
  couples_find (fun _ _ halike ↦ halike.bind_slots hselect id)
    (fun _ _ _ _ halike hV _ _ ↦ ⟨hV, halike⟩) fun _ _ halike ↦ halike

/-! ## Procedures that mirror themselves -/

theorem mirrors_onEngine_self (change : Engine → Logged (α × Engine)) :
    Mirrors Eq (onEngine change) (onEngine change) :=
  mirrors_onEngine fun _ ↦ ⟨rfl, rfl, rfl⟩

theorem mirrors_onMemory_self (change : Memory → Logged (α × Memory)) :
    Mirrors Eq (onMemory change) (onMemory change) :=
  mirrors_onEngine_self _

theorem mirrors_making_self (make : Locking → Logged α) :
    Mirrors Eq (making make) (making make) :=
  mirrors_making fun _ ↦ agrees_self _

theorem mirrors_settle_self (result : Except Failure α) :
    Mirrors Eq (settle result) (settle result) := by
  refine mirrors_settle ?_
  cases result with
  | ok a => exact rfl
  | error failure => exact rfl

theorem mirrors_settleAs_self {ε : Type} (wrap : ε → Failure) (result : Except ε α) :
    Mirrors Eq (settleAs wrap result) (settleAs wrap result) :=
  mirrors_settle_self _

theorem mirrors_keep (id : String) {one other : Object} (hobjects : one.Alike other) :
    Mirrors Eq (keep id one) (keep id other) :=
  mirrors_modify fun _ _ halike ↦ halike.put id hobjects

theorem mirrors_replace (id : String) {one other : Object} (hobjects : one.Alike other) :
    Mirrors Eq (replace id one) (replace id other) :=
  mirrors_modify fun _ _ halike ↦ halike.store id hobjects

theorem mirrors_take {select : Object → Option α} {select' : Object → Option β}
    (hselect : ∀ one other : Object, one.Alike other → Option.Rel V (select one) (select' other))
    (id : String) : Mirrors V (take select id) (take select' id) := by
  refine mirrors_bind (mirrors_find hselect id) fun a b hV ↦ ?_
  refine mirrors_bind (mirrors_modify fun _ _ halike ↦ halike.erase id) fun _ _ _ ↦ ?_
  exact mirrors_pure hV

theorem mirrors_findProvider (id : String) : Mirrors Eq (findProvider id) (findProvider id) := by
  refine mirrors_find (fun one other hobjects ↦ ?_) id
  cases hobjects with
  | provider => exact .some rfl
  | hash | cipher | kdf | pool | lease | array | key => exact .none

theorem mirrors_findHash (id : String) :
    Mirrors DigestContext.Alike (findHash id) (findHash id) := by
  refine mirrors_find (fun one other hobjects ↦ ?_) id
  cases hobjects with
  | hash halike => exact .some halike
  | provider | cipher | kdf | pool | lease | array | key => exact .none

theorem mirrors_findKdf (id : String) : Mirrors Eq (findKdf id) (findKdf id) := by
  refine mirrors_find (fun one other hobjects ↦ ?_) id
  cases hobjects with
  | kdf => exact .some rfl
  | provider | hash | cipher | pool | lease | array | key => exact .none

def asCipher : Object → Option CipherContext
  | .cipher context => some context
  | _ => none

theorem findCipher_eq : findCipher = find asCipher := rfl

theorem asCipher_alike (one other : Object) (hobjects : one.Alike other) :
    Option.Rel CipherContext.Alike (asCipher one) (asCipher other) := by
  cases hobjects with
  | cipher halike => exact .some halike
  | provider | hash | kdf | pool | lease | array | key => exact .none

theorem mirrors_findCipher (id : String) :
    Mirrors CipherContext.Alike (findCipher id) (findCipher id) := by
  rw [findCipher_eq]
  exact mirrors_find asCipher_alike id

theorem asKey_alike (one other : Object) (hobjects : one.Alike other) :
    Option.Rel SymmetricKey.Alike (asKey one) (asKey other) := by
  cases hobjects with
  | key halike => exact .some halike
  | provider | hash | cipher | kdf | pool | lease | array => exact .none

theorem asArray_alike (one other : Object) (hobjects : one.Alike other) :
    Option.Rel SecureArray.Alike (asArray one) (asArray other) := by
  cases hobjects with
  | array halike => exact .some halike
  | provider | hash | cipher | kdf | pool | lease | key => exact .none

theorem asLease_alike (one other : Object) (hobjects : one.Alike other) :
    Option.Rel Eq (asLease one) (asLease other) := by
  cases hobjects with
  | lease => exact .some rfl
  | provider | hash | cipher | kdf | pool | array | key => exact .none

theorem mirrors_findPool (source : PoolSource) :
    Mirrors Eq (findPool source) (findPool source) := by
  cases source with
  | slot id =>
    refine mirrors_find (fun one other hobjects ↦ ?_) id
    cases hobjects with
    | pool => exact .some rfl
    | provider | hash | cipher | kdf | lease | array | key => exact .none
  | engine =>
    refine mirrors_bind mirrors_get fun session other halike ↦ ?_
    rw [← halike.engine]
    cases session.engine.securePool with
    | none => exact mirrors_throw _
    | some pool => exact mirrors_pure rfl

end Session.Procedure

end StreamCrypto
