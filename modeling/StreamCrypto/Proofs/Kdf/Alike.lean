import StreamCrypto.Kdf.Context
import StreamCrypto.Proofs.Alike
import StreamCrypto.Proofs.Kdf.Length

/-!
# Key derivations that differ in secret bytes only

A request for a key tells by its length and its number of iterations what becomes of it: what is
logged, what goes wrong, what is charged, and how long the key is. The secret and the salt, even
their lengths, only tell the bytes of the key. This holds of all three ways to derive a key.
-/

namespace StreamCrypto

open Kdf Logged

/-- Requests that differ in the secret and the salt only. -/
structure KeyRequest.Alike (first second : KeyRequest) : Prop where
  length : first.length = second.length
  iterations : first.iterations = second.iterations

theorem Kdf.Pbkdf2.derive_of_refused {algorithm : HashAlgorithm} {length iterations : Nat}
    {error : Error} (hcheck : check algorithm length iterations = .error error)
    (secret salt : Bytes) : derive algorithm secret salt iterations length = .error error := by
  unfold derive
  rw [hcheck]
  rfl

namespace KdfContext

/-- Alike keys, or the same failure, and the same engine. -/
def KeysAlike {ε : Type} (first second : Except ε SymmetricKey × Engine) : Prop :=
  ResultsAlike SymmetricKey.Alike first.1 second.1 ∧ first.2 = second.2

theorem KeysAlike.cases {ε : Type} {one other : Except ε SymmetricKey × Engine}
    (halike : KeysAlike one other) :
    (∃ key key' after, one = (.ok key, after) ∧ other = (.ok key', after) ∧ key.Alike key') ∨
      ∃ error after, one = (.error error, after) ∧ other = (.error error, after) := by
  obtain ⟨result, after⟩ := one
  obtain ⟨result', after'⟩ := other
  obtain ⟨hresult, hafter⟩ := halike
  cases hafter
  cases result with
  | ok key =>
    cases result' with
    | ok key' => exact .inl ⟨key, key', after, rfl, rfl, hresult⟩
    | error error => cases hresult
  | error error =>
    cases result' with
    | ok key => cases hresult
    | error error' =>
      cases hresult
      exact .inr ⟨error, after, rfl, rfl⟩

theorem giveUp_agrees (context : KdfContext) (cause : Failure) (engine : Engine) :
    Agrees KeysAlike (context.giveUp cause engine) (context.giveUp cause engine) :=
  ⟨rfl, .refl _, rfl⟩

variable (context : KdfContext) {first second : KeyRequest} (halike : first.Alike second)

include halike

theorem check_alike : context.check first = context.check second := by
  rw [check, check, halike.length, halike.iterations]

theorem fill_alike (buffer : SecureArray) :
    ResultsAlike SymmetricKey.Alike (context.fill first buffer) (context.fill second buffer) := by
  unfold fill
  rw [halike.iterations]
  rcases Pbkdf2.check_eq_ok_or context.hash buffer.bytes.length second.iterations with
    hcheck | ⟨reason, hcheck⟩
  · rw [Pbkdf2.derive_of_check hcheck, Pbkdf2.derive_of_check hcheck]
    exact ⟨(Pbkdf2.length_derived _ _).trans (Pbkdf2.length_derived _ _).symm, rfl, rfl⟩
  · rw [Pbkdf2.derive_of_refused hcheck, Pbkdf2.derive_of_refused hcheck]
    rfl

theorem fillOrDrop_alike (buffer : SecureArray) (engine : Engine) :
    KeysAlike (context.fillOrDrop first buffer engine)
      (context.fillOrDrop second buffer engine) := by
  have hfill := context.fill_alike halike buffer
  unfold fillOrDrop
  generalize context.fill first buffer = one at hfill ⊢
  generalize context.fill second buffer = other at hfill ⊢
  cases one with
  | ok key =>
    cases other with
    | ok key' => exact ⟨hfill, rfl⟩
    | error error => cases hfill
  | error error =>
    cases other with
    | ok key => cases hfill
    | error error' => exact ⟨hfill, rfl⟩

theorem fillOrGiveUp_agrees (buffer : SecureArray) (engine : Engine) :
    Agrees KeysAlike (context.fillOrGiveUp first buffer engine)
      (context.fillOrGiveUp second buffer engine) := by
  unfold fillOrGiveUp
  rcases (context.fillOrDrop_alike halike buffer engine).cases with
    ⟨key, key', after, hone, hother, hkeys⟩ | ⟨error, after, hone, hother⟩
  · rw [hone, hother]
    exact agrees_pure ⟨hkeys, rfl⟩
  · rw [hone, hother]
    exact context.giveUp_agrees (.error error) after

theorem makeKeyOutsidePool_agrees (engine : Engine) :
    Agrees KeysAlike (context.makeKeyOutsidePool first engine)
      (context.makeKeyOutsidePool second engine) := by
  unfold makeKeyOutsidePool
  rw [halike.length]
  apply agrees_bind (agrees_self _)
  intro _ _ _
  apply agrees_bind (agrees_self _)
  rintro result _ rfl
  cases result with
  | ok buffer => exact context.fillOrGiveUp_agrees halike buffer engine
  | error cause => exact context.giveUp_agrees (.lock cause) engine

/-! ## The three ways to derive a key -/

theorem tryMakeKey_agrees (engine : Engine) :
    Agrees KeysAlike (context.tryMakeKey first engine) (context.tryMakeKey second engine) := by
  unfold tryMakeKey
  rw [context.check_alike halike, halike.length, halike.iterations]
  cases context.check second with
  | error error => exact agrees_pure ⟨rfl, rfl⟩
  | ok _ =>
    apply agrees_bind (agrees_self _)
    rintro ⟨result, charged⟩ _ rfl
    cases result with
    | error failure => exact agrees_pure ⟨rfl, rfl⟩
    | ok buffer =>
      simp only
      rcases (context.fillOrDrop_alike halike buffer charged).cases with
        ⟨key, key', after, hone, hother, hkeys⟩ | ⟨error, after, hone, hother⟩
      · rw [hone, hother]
        exact agrees_bind (agrees_self _) fun _ _ _ ↦ agrees_pure ⟨hkeys, rfl⟩
      · rw [hone, hother]
        exact agrees_pure ⟨rfl, rfl⟩

theorem makeKeyOrEmpty_agrees (engine : Engine) :
    Agrees KeysAlike (context.makeKeyOrEmpty first engine)
      (context.makeKeyOrEmpty second engine) := by
  unfold makeKeyOrEmpty
  apply agrees_bind (context.tryMakeKey_agrees halike engine)
  intro one other houtcome
  rcases houtcome.cases with ⟨key, key', after, rfl, rfl, hkeys⟩ | ⟨failure, after, rfl, rfl⟩
  · exact agrees_pure ⟨hkeys, rfl⟩
  · cases failure with
    | error error => exact context.giveUp_agrees (.error error) after
    | lock cause => exact agrees_pure ⟨rfl, rfl⟩
    | fault fault => exact agrees_pure ⟨rfl, rfl⟩

theorem makeKey_agrees (engine : Engine) :
    Agrees KeysAlike (context.makeKey first engine) (context.makeKey second engine) := by
  unfold makeKey
  rw [context.check_alike halike, halike.length]
  cases context.check second with
  | error error => exact context.giveUp_agrees (.error error) engine
  | ok _ =>
    apply agrees_bind (agrees_self _)
    rintro ⟨result, charged⟩ _ rfl
    cases result with
    | ok buffer => exact context.fillOrGiveUp_agrees halike buffer charged
    | error failure =>
      cases failure with
      | error error =>
        cases error with
        | poolExhausted requested available =>
          exact context.makeKeyOutsidePool_agrees halike charged
        | _ => exact context.giveUp_agrees _ charged
      | lock cause => exact agrees_pure ⟨rfl, rfl⟩
      | fault fault => exact agrees_pure ⟨rfl, rfl⟩

end KdfContext

end StreamCrypto
