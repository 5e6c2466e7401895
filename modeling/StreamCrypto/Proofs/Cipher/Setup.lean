import StreamCrypto.Cipher.Context
import StreamCrypto.Proofs.Mode.Inverse

/-!
# Setting up a cipher context

What a context holds once it has been set up with a key that its algorithm accepts and a fitting
initialization vector: a transform at its start, nothing pending, and a lawful cipher
(`setup_eq_ok`, `sound_start`). The transforms of the two directions are opposite.
-/

namespace StreamCrypto

open Mode

namespace CipherAlgorithm

theorem blockSize_pos (algorithm : CipherAlgorithm) : 0 < algorithm.blockSize := by
  cases algorithm <;> decide

theorem blockSize_le (algorithm : CipherAlgorithm) : algorithm.blockSize ≤ 16 := by
  cases algorithm <;> decide

/-- The contract admits exactly the lengths that the cipher is defined for. -/
theorem accepts_eq_takesKeyOf (algorithm : CipherAlgorithm) (length : Nat) :
    algorithm.keyLength.accepts length = algorithm.takesKeyOf length := by
  rw [Bool.eq_iff_iff]
  cases algorithm with
  | blowfish => simp [keyLength, KeyLength.accepts, takesKeyOf, Nat.mod_one]
  | aes128 | aes192 | aes256 | tripledes | des =>
    simp only [keyLength, KeyLength.accepts_fixed_iff, takesKeyOf, decide_eq_true_eq]

theorem keyed?_of_accepts {algorithm : CipherAlgorithm} {key : Bytes}
    (haccepted : algorithm.keyLength.accepts key.length = true) :
    algorithm.keyed? key = some (algorithm.keyed key) :=
  if_pos ((algorithm.accepts_eq_takesKeyOf key.length).symm.trans haccepted)

end CipherAlgorithm

namespace Transform

/-- A transform that has not been given any data. -/
def start (cipher : BlockCipher) (mode : Mode) (direction : Direction) (iv : Bytes) : Transform :=
  match mode with
  | .ecb => ecb cipher direction
  | .cbc => cbc cipher direction iv
  | .cfb => cfb cipher direction (Cfb.start iv)

theorem opposite_start (cipher : BlockCipher) (mode : Mode) (direction : Direction) (iv : Bytes) :
    (start cipher mode direction iv).opposite = start cipher mode direction.opposite iv := by
  cases mode <;> rfl

theorem takes_start_iff (cipher : BlockCipher) (mode : Mode) (direction : Direction)
    (iv data : Bytes) : (start cipher mode direction iv).Takes data ↔
      mode.isStream = true ∨ cipher.blockSize ∣ data.length := by
  cases mode <;> simp [start, Takes, Mode.isStream]

theorem sound_start {cipher : BlockCipher} (hlawful : cipher.Lawful) {mode : Mode}
    (direction : Direction) {iv : Bytes}
    (hiv : mode.usesIv = true → iv.length = cipher.blockSize) :
    (start cipher mode direction iv).Sound := by
  cases mode with
  | ecb => exact hlawful
  | cbc => exact ⟨hlawful, hiv rfl⟩
  | cfb => trivial

theorem start?_eq_some {cipher : BlockCipher} {mode : Mode} {direction : Direction} {iv : Bytes}
    (hiv : mode.usesIv = true → iv.length = cipher.blockSize) :
    start? cipher mode direction iv = some (start cipher mode direction iv) := by
  cases mode with
  | ecb => rfl
  | cbc => exact if_pos (hiv rfl)
  | cfb => exact if_pos (hiv rfl)

theorem opened_eq_ok {algorithm : CipherAlgorithm} {mode : Mode} {direction : Direction}
    {key iv : Bytes} (haccepted : algorithm.keyLength.accepts key.length = true)
    (hiv : mode.usesIv = true → iv.length = algorithm.blockSize) :
    opened algorithm mode direction key iv =
      .ok (start (algorithm.keyed key) mode direction iv) := by
  have hlength : ¬ (mode.usesIv = true ∧ iv.length ≠ algorithm.blockSize) :=
    fun h ↦ h.2 (hiv h.1)
  have hstart : start? (algorithm.keyed key) mode direction iv =
      some (start (algorithm.keyed key) mode direction iv) :=
    start?_eq_some fun h ↦ by rw [CipherAlgorithm.blockSize_keyed]; exact hiv h
  rw [opened, if_neg hlength, CipherAlgorithm.keyed?_of_accepts haccepted]
  simp only [hstart]

end Transform

namespace CipherContext

/-- The transform that a context opens for a key it accepts. -/
def startTransform (context : CipherContext) (direction : Direction) (key iv : Bytes) :
    Transform :=
  Transform.start (context.algorithm.keyed key) context.mode direction iv

/-- A stream that has not been given any data. -/
def startStream (context : CipherContext) (direction : Direction) (key iv : Bytes) :
    CipherStream :=
  { direction, transform := context.startTransform direction key iv, pending := [], key, iv }

/-- A context right after it has been set up. -/
def started (context : CipherContext) (direction : Direction) (key iv : Bytes) : CipherContext :=
  { context with
    weakKey := context.algorithm.isWeakKey key
    lifecycle := .active (context.startStream direction key iv) }

theorem opposite_startTransform (context : CipherContext) (direction : Direction)
    (key iv : Bytes) : (context.startTransform direction key iv).opposite =
      context.startTransform direction.opposite key iv :=
  Transform.opposite_start _ _ _ _

theorem sound_startTransform {context : CipherContext} (direction : Direction) (key : Bytes)
    {iv : Bytes} (hiv : context.mode.usesIv = true → iv.length = context.blockSize) :
    (context.startTransform direction key iv).Sound :=
  Transform.sound_start (context.algorithm.lawful_keyed key) direction fun h ↦ by
    rw [CipherAlgorithm.blockSize_keyed]
    exact hiv h

/-! ## What setting up can do -/

variable {context : CipherContext} {direction : Direction} {key iv : Bytes}

/-- The warning about a weak key. -/
def weakKeyEvents (context : CipherContext) (key : Bytes) : List Event :=
  if context.algorithm.isWeakKey key = true then [.weakKey context.feature] else []

/-- A context that has looked at a key of an accepted length. -/
def noting (context : CipherContext) (key : Bytes) : CipherContext :=
  { context with weakKey := context.algorithm.isWeakKey key }

theorem prepare_of_active (hactive : context.isActive = true) :
    context.prepare direction key iv = ⟨(.error .alreadyKeyed, context), []⟩ :=
  if_pos hactive

theorem prepare_of_key_rejected (hidle : context.isActive = false)
    (hrejected : context.algorithm.keyLength.accepts key.length = false) :
    context.prepare direction key iv =
      ⟨(.error (.invalidKeyLength context.algorithm.name key.length context.algorithm.keyLength),
        context), [.keyLengthRejected context.feature key.length]⟩ := by
  unfold prepare
  rw [hidle, if_neg Bool.false_ne_true, if_pos hrejected]
  rfl

theorem prepare_of_iv_rejected (hidle : context.isActive = false)
    (haccepted : context.algorithm.keyLength.accepts key.length = true)
    (hrejected : context.mode.usesIv = true ∧ iv.length ≠ context.blockSize) :
    context.prepare direction key iv =
      ⟨(.error (.invalidIvLength context.blockSize iv.length), context.noting key),
        context.weakKeyEvents key ++
          [.setupFailed context.feature (.invalidIvLength context.blockSize iv.length)]⟩ := by
  have hopened : Transform.opened context.algorithm context.mode direction key iv =
      .error (.invalidIvLength context.blockSize iv.length) := if_pos hrejected
  simp only [prepare, hidle, haccepted, hopened, Bool.false_eq_true, Bool.true_eq_false, if_false,
    weakKeyEvents, noting]
  split
  · rfl
  · rfl

theorem prepare_of_accepted (hidle : context.isActive = false)
    (haccepted : context.algorithm.keyLength.accepts key.length = true)
    (hiv : context.mode.usesIv = true → iv.length = context.blockSize) :
    context.prepare direction key iv =
      ⟨(.ok (context.startTransform direction key iv), context.noting key),
        context.weakKeyEvents key⟩ := by
  have hopened : Transform.opened context.algorithm context.mode direction key iv =
      .ok (context.startTransform direction key iv) := Transform.opened_eq_ok haccepted hiv
  simp only [prepare, hidle, haccepted, hopened, Bool.false_eq_true, Bool.true_eq_false, if_false,
    weakKeyEvents, noting]
  split
  · rfl
  · rfl

/-- Without a transform there is nothing more to do. -/
theorem setup_of_error {error : Error} {after : CipherContext} {events : List Event}
    (hprepare : context.prepare direction key iv = ⟨(.error error, after), events⟩) :
    context.setup direction key iv = ⟨(.error error, after), events⟩ := by
  unfold setup
  rw [hprepare]
  exact Logged.bind_of_silent rfl

theorem setup_of_active (hactive : context.isActive = true) :
    context.setup direction key iv = ⟨(.error .alreadyKeyed, context), []⟩ :=
  setup_of_error (prepare_of_active hactive)

theorem setup_of_key_rejected (hidle : context.isActive = false)
    (hrejected : context.algorithm.keyLength.accepts key.length = false) :
    context.setup direction key iv =
      ⟨(.error (.invalidKeyLength context.algorithm.name key.length context.algorithm.keyLength),
        context), [.keyLengthRejected context.feature key.length]⟩ :=
  setup_of_error (prepare_of_key_rejected hidle hrejected)

theorem setup_of_iv_rejected (hidle : context.isActive = false)
    (haccepted : context.algorithm.keyLength.accepts key.length = true)
    (hrejected : context.mode.usesIv = true ∧ iv.length ≠ context.blockSize) :
    context.setup direction key iv =
      ⟨(.error (.invalidIvLength context.blockSize iv.length), context.noting key),
        context.weakKeyEvents key ++
          [.setupFailed context.feature (.invalidIvLength context.blockSize iv.length)]⟩ :=
  setup_of_error (prepare_of_iv_rejected hidle haccepted hrejected)

theorem setup_of_accepted (hidle : context.isActive = false)
    (haccepted : context.algorithm.keyLength.accepts key.length = true)
    (hiv : context.mode.usesIv = true → iv.length = context.blockSize) :
    context.setup direction key iv =
      ⟨(.ok (), context.started direction key iv),
        context.weakKeyEvents key ++ [.contextSetUp context.feature direction]⟩ := by
  unfold setup
  rw [prepare_of_accepted hidle haccepted hiv]
  rfl

/-- The four ways that setting up can end, with all that it leaves and logs. -/
inductive SetsUp (context : CipherContext) (direction : Direction) (key iv : Bytes) :
    Logged (Except Error Unit × CipherContext) → Prop
  | active (hactive : context.isActive = true) :
    SetsUp context direction key iv ⟨(.error .alreadyKeyed, context), []⟩
  | keyRejected (hidle : context.isActive = false)
      (hrejected : context.algorithm.keyLength.accepts key.length = false) :
    SetsUp context direction key iv
      ⟨(.error (.invalidKeyLength context.algorithm.name key.length context.algorithm.keyLength),
        context), [.keyLengthRejected context.feature key.length]⟩
  | ivRejected (hidle : context.isActive = false)
      (haccepted : context.algorithm.keyLength.accepts key.length = true)
      (hrejected : context.mode.usesIv = true ∧ iv.length ≠ context.blockSize) :
    SetsUp context direction key iv
      ⟨(.error (.invalidIvLength context.blockSize iv.length), context.noting key),
        context.weakKeyEvents key ++
          [.setupFailed context.feature (.invalidIvLength context.blockSize iv.length)]⟩
  | accepted (hidle : context.isActive = false)
      (haccepted : context.algorithm.keyLength.accepts key.length = true)
      (hiv : context.mode.usesIv = true → iv.length = context.blockSize) :
    SetsUp context direction key iv
      ⟨(.ok (), context.started direction key iv),
        context.weakKeyEvents key ++ [.contextSetUp context.feature direction]⟩

theorem setup_setsUp (context : CipherContext) (direction : Direction) (key iv : Bytes) :
    SetsUp context direction key iv (context.setup direction key iv) := by
  cases hactive : context.isActive with
  | true =>
    rw [setup_of_active hactive]
    exact .active hactive
  | false =>
    cases hkey : context.algorithm.keyLength.accepts key.length with
    | false =>
      rw [setup_of_key_rejected hactive hkey]
      exact .keyRejected hactive hkey
    | true =>
      by_cases hiv : context.mode.usesIv = true ∧ iv.length ≠ context.blockSize
      · rw [setup_of_iv_rejected hactive hkey hiv]
        exact .ivRejected hactive hkey hiv
      · have hfits (huses : context.mode.usesIv = true) : iv.length = context.blockSize :=
          Decidable.not_not.1 fun hne ↦ hiv ⟨huses, hne⟩
        rw [setup_of_accepted hactive hkey hfits]
        exact .accepted hactive hkey hfits

theorem setup_eq_ok (hidle : context.isActive = false)
    (haccepted : context.algorithm.keyLength.accepts key.length = true)
    (hiv : context.mode.usesIv = true → iv.length = context.blockSize) :
    (context.setup direction key iv).value = (.ok (), context.started direction key iv) :=
  congrArg Logged.value (setup_of_accepted hidle haccepted hiv)

end CipherContext

end StreamCrypto
