import StreamCrypto.Event
import StreamCrypto.Memory.SecureArray

/-!
# Two computations side by side

Relations between what two computations give: results that fail alike or have related values, and
computations that log the same. They are used for computations that differ in secret bytes only,
where the values are related by the number of their bytes.
-/

namespace StreamCrypto

variable {ε α β γ δ : Type}

/-- Both results are the same failure, or both are values that are related. -/
def ResultsAlike (Values : α → β → Prop) : Except ε α → Except ε β → Prop
  | .ok first, .ok second => Values first second
  | .error first, .error second => first = second
  | .ok _, .error _ | .error _, .ok _ => False

theorem ResultsAlike.toBool {Values : α → β → Prop} {first : Except ε α} {second : Except ε β}
    (hresults : ResultsAlike Values first second) : first.toBool = second.toBool := by
  cases first with
  | ok a =>
    cases second with
    | ok b => rfl
    | error failure => cases hresults
  | error failure =>
    cases second with
    | ok b => cases hresults
    | error failure' => rfl

/-- Arrays that differ in the values of their bytes only. -/
structure SecureArray.Alike (first second : SecureArray) : Prop where
  length : first.bytes.length = second.bytes.length
  lease : first.lease = second.lease
  locked : first.locked = second.locked

theorem SecureArray.Alike.refl (array : SecureArray) : array.Alike array := ⟨rfl, rfl, rfl⟩

namespace Logged

/-- The same is logged, and the values are related. -/
structure Agrees (Related : α → β → Prop) (first : Logged α) (second : Logged β) : Prop where
  events : first.events = second.events
  value : Related first.value second.value

variable {Related : γ → δ → Prop}

theorem agrees_self (logged : Logged α) : Agrees Eq logged logged := ⟨rfl, rfl⟩

theorem agrees_pure {c : γ} {d : δ} (h : Related c d) :
    Agrees Related (pure c : Logged γ) (pure d) := ⟨rfl, h⟩

theorem agrees_bind {Middle : α → β → Prop} {first : Logged α} {second : Logged β}
    {next : α → Logged γ} {other : β → Logged δ} (hfirst : Agrees Middle first second)
    (hnext : ∀ a b, Middle a b → Agrees Related (next a) (other b)) :
    Agrees Related (first >>= next) (second >>= other) := by
  have hrest := hnext first.value second.value hfirst.value
  refine ⟨?_, hrest.value⟩
  rw [events_bind, events_bind, hfirst.events, hrest.events]

end Logged

/-! ## Arrays as they are made -/

/-- What asks for its pages to be locked shows its length and no more. -/
theorem SecureArray.lock_agrees {first second : SecureArray}
    (hlength : first.bytes.length = second.bytes.length) (hlease : first.lease = second.lease)
    (locking : Locking) :
    Logged.Agrees SecureArray.Alike (first.lock locking) (second.lock locking) := by
  unfold lock
  rw [hlength]
  apply Logged.agrees_bind (Logged.agrees_self _)
  rintro locked _ rfl
  exact Logged.agrees_pure ⟨hlength, hlease, rfl⟩

theorem SecureArray.ofBytes_agrees {first second : Bytes} (hlength : first.length = second.length)
    (locking : Locking) :
    Logged.Agrees SecureArray.Alike (ofBytes locking first) (ofBytes locking second) :=
  @lock_agrees { bytes := first } { bytes := second } hlength rfl locking

/-- Keys of one length, with one lease, in arrays that are locked or not alike. -/
def SymmetricKey.Alike (first second : SymmetricKey) : Prop :=
  first.material.Alike second.material

theorem SymmetricKey.ofBytes_agrees {first second : Bytes} (hlength : first.length = second.length)
    (locking : Locking) :
    Logged.Agrees SymmetricKey.Alike (ofBytes locking first) (ofBytes locking second) :=
  Logged.agrees_bind (SecureArray.ofBytes_agrees hlength locking) fun _ _ halike ↦
    Logged.agrees_pure halike

end StreamCrypto
