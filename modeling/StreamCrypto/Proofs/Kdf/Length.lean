import StreamCrypto.Kdf.Pbkdf2

/-!
# The length of a derived key

The codes of a secret are digests, so all blocks of a row have the length of a digest, and a row
with enough of them has as many bytes as are asked for. Every request that is not refused is served
(`derive_of_check`), with a key of the length that was asked for (`length_derived`), and that is
far from what memory can hold.
-/

namespace StreamCrypto.Kdf

open Digest

theorem Hmac.Prepared.length_code (algorithm : HashAlgorithm)
    (prepared : Hmac.Prepared algorithm.compression) (message : Bytes) :
    (prepared.code message).length = algorithm.digestLength :=
  algorithm.length_output _

namespace Pbkdf2

section Blocks

variable {code : Bytes → Bytes} {width : Nat} (hcode : ∀ message, (code message).length = width)

include hcode

theorem length_chain (count : Nat) (last : Bytes) {sum : Bytes} (hsum : sum.length = width) :
    (chain code count last sum).length = width := by
  induction count generalizing last sum with
  | zero => exact hsum
  | succ count ih =>
    have hxor : (Bytes.xor sum (code last)).length = width := by
      rw [Bytes.length_xor, hsum, hcode, Nat.min_self]
    exact ih _ hxor

theorem length_block (salt : Bytes) (iterations number : Nat) :
    (block code salt iterations number).length = width :=
  length_chain hcode _ _ (hcode _)

theorem length_keystream (salt : Bytes) (iterations count : Nat) :
    (keystream code salt iterations count).length = count * width := by
  simp [keystream, List.length_flatMap, length_block hcode, List.map_const']

end Blocks

/-- What `derive` returns unless the request is refused. -/
def derived (algorithm : HashAlgorithm) (secret salt : Bytes) (iterations length : Nat) : Bytes :=
  (keystream (Hmac.Prepared.ofSecret algorithm.compression secret).code salt iterations
    ((length + algorithm.digestLength - 1) / algorithm.digestLength)).take length

variable {algorithm : HashAlgorithm} {iterations length : Nat}

theorem derive_of_check (hcheck : check algorithm length iterations = .ok ())
    (secret salt : Bytes) :
    derive algorithm secret salt iterations length =
      .ok (derived algorithm secret salt iterations length) := by
  unfold derive
  rw [hcheck]
  rfl

theorem length_derived (secret salt : Bytes) :
    (derived algorithm secret salt iterations length).length = length := by
  have hcode := Hmac.Prepared.length_code algorithm
    (Hmac.Prepared.ofSecret algorithm.compression secret)
  have hwidth := algorithm.digestLength_pos
  have henough : length ≤ (length + algorithm.digestLength - 1) / algorithm.digestLength *
      algorithm.digestLength := by
    have hdivision := Nat.div_add_mod' (length + algorithm.digestLength - 1) algorithm.digestLength
    have hremainder := Nat.mod_lt (length + algorithm.digestLength - 1) hwidth
    omega
  rw [derived, List.length_take, length_keystream hcode, Nat.min_eq_left henough]

theorem refusal?_eq_none_iff : refusal? algorithm length iterations = none ↔
    iterations ≠ 0 ∧ length ≠ 0 ∧ length ≤ maximumLength algorithm := by
  unfold refusal?
  by_cases hiterations : iterations = 0
  · simp [hiterations]
  by_cases hlength : length = 0
  · simp [hiterations, hlength]
  by_cases hlong : maximumLength algorithm < length
  · simp [hiterations, hlength, hlong]
  · simp [hiterations, hlength, hlong, Nat.le_of_not_lt hlong]

theorem check_eq_ok_or (algorithm : HashAlgorithm) (length iterations : Nat) :
    check algorithm length iterations = .ok () ∨
      ∃ reason, check algorithm length iterations = .error (.derivation reason) := by
  unfold check
  cases refusal? algorithm length iterations with
  | none => exact .inl rfl
  | some refusal => exact .inr ⟨refusal.reason, rfl⟩

theorem check_eq_ok_iff : check algorithm length iterations = .ok () ↔
    iterations ≠ 0 ∧ length ≠ 0 ∧ length ≤ maximumLength algorithm := by
  rw [← refusal?_eq_none_iff]
  unfold check
  cases refusal? algorithm length iterations with
  | none => simp
  | some refusal => simp

theorem length_bounds_of_check (hcheck : check algorithm length iterations = .ok ()) :
    0 < length ∧ length ≤ maximumLength algorithm :=
  have haccepted := check_eq_ok_iff.1 hcheck
  ⟨Nat.pos_of_ne_zero haccepted.2.1, haccepted.2.2⟩

end Pbkdf2

end StreamCrypto.Kdf
