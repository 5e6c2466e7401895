import StreamCrypto.Proofs.Cipher.Updates
import StreamCrypto.Proofs.Mode.Feedback

/-!
# CFB contexts as byte streams

In CFB every piece of data comes back at once and at its own length, the outputs joined are the
textbook CFB of the pieces joined, and the end of the stream neither adds to them nor fails
(`cfb_stream_eq_standard`). Padding has nothing to do here: a context without it makes the same
turns.
-/

namespace StreamCrypto

def CipherTurn.withPadding (padding : Bool) (turn : CipherTurn) : CipherTurn :=
  { turn with
    before := { turn.before with padding }
    after := { turn.after with padding } }

namespace CipherContext

def withPadding (context : CipherContext) (padding : Bool) : CipherContext :=
  { context with padding }

variable {context : CipherContext} {direction : Direction} {key iv : Bytes}

/-! ## The outputs of a stream -/

section Stream

variable (hmode : context.mode.isStream = true)
  (hiv : context.mode.usesIv = true → iv.length = context.blockSize)

include hmode hiv

/-- Nothing of a piece is held back. -/
theorem length_eq_of_continues {piece out : Bytes}
    (hcontinues : context.Continues direction key iv piece out) : out.length = piece.length := by
  obtain ⟨total, hlength⟩ := length_of_continues hiv hcontinues
  have hall (total : Nat) : context.handedOver direction total = total := if_pos hmode
  rw [hall, hall] at hlength
  exact Nat.add_left_cancel hlength

/-- A whole stream, from setting up to ending. -/
theorem answers_of_isStream (hidle : context.isActive = false)
    (haccepted : context.algorithm.keyLength.accepts key.length = true) (pieces : List Bytes) :
    ∃ outs : List Bytes,
      (context.turns (.setup direction key iv :: (pieces.map .update ++ [.finalize]))).map
          CipherTurn.answer =
        .ready (.ok ()) :: (outs.map (fun out ↦ .output (.ok out)) ++ [.output (.ok [])]) ∧
      outs.map List.length = pieces.map List.length ∧
      outs.flatten =
        context.outputOf (context.startStream direction key iv) pieces.flatten := by
  obtain ⟨outs, hanswers, hafter, hcontinue, hjoined⟩ :=
    turns_updates_started context direction key iv pieces
  have hlengths : outs.map List.length = pieces.map List.length := by
    rw [← List.forall₂_eq_eq_eq, List.forall₂_map_left_iff, List.forall₂_map_right_iff]
    exact hcontinue.flip.imp fun _ _ hcontinues ↦ length_eq_of_continues hmode hiv hcontinues
  have hlast : (context.fed direction key iv pieces.flatten).turn .finalize =
      ⟨context.fed direction key iv pieces.flatten, .finalize, .output (.ok []), [],
        { context.fed direction key iv pieces.flatten with lifecycle := .finished }⟩ :=
    turn_finalize_of_ok rfl (lastOutput_stream hmode pieces.flatten)
  refine ⟨outs, ?_, hlengths, hjoined⟩
  calc
    _ = .ready (.ok ()) :: ((context.started direction key iv).turns
          (pieces.map .update ++ [.finalize])).map CipherTurn.answer := by
      rw [turns, turn_setup_of_accepted hidle haccepted hiv, List.map_cons]
    _ = _ := by
      rw [turns_append, List.map_append, hanswers, hafter, turns, hlast]
      rfl

end Stream

/-! ## Padding -/

theorem setup_withPadding (context : CipherContext) (padding : Bool) (direction : Direction)
    (key iv : Bytes) :
    (context.withPadding padding).setup direction key iv =
      ⟨((context.setup direction key iv).value.1,
        (context.setup direction key iv).value.2.withPadding padding),
        (context.setup direction key iv).events⟩ := by
  have hsame : (context.withPadding padding).isActive = context.isActive := rfl
  have hsetup := context.setup_setsUp direction key iv
  generalize context.setup direction key iv = outcome at hsetup ⊢
  cases hsetup with
  | active hactive => exact setup_of_active (hsame.trans hactive)
  | keyRejected hidle hkey => exact setup_of_key_rejected (hsame.trans hidle) hkey
  | ivRejected hidle hkey hiv => exact setup_of_iv_rejected (hsame.trans hidle) hkey hiv
  | accepted hidle hkey hiv => exact setup_of_accepted (hsame.trans hidle) hkey hiv

theorem turn_withPadding (hmode : context.mode.isStream = true) (padding : Bool)
    (call : CipherCall) :
    (context.withPadding padding).turn call = (context.turn call).withPadding padding := by
  cases call with
  | setup direction key iv =>
    simp only [turn, setup_withPadding]
    rfl
  | update input =>
    rcases context.misuse_or_active with ⟨error, hmisuse⟩ | ⟨stream, hactive⟩
    · have hother : (context.withPadding padding).misuse? = some error := hmisuse
      rw [turn_update_of_misuse hother, turn_update_of_misuse hmisuse]
      rfl
    · have hother : (context.withPadding padding).lifecycle = .active stream := hactive
      have hadvance : (context.withPadding padding).advance stream input =
          context.advance stream input := by
        have hstream : (context.withPadding padding).mode.isStream = true := hmode
        simp only [advance, hmode, hstream, if_true]
      rw [turn_update_of_active hother, turn_update_of_active hactive, hadvance]
      rfl
  | finalize =>
    rcases context.misuse_or_active with ⟨error, hmisuse⟩ | ⟨stream, hactive⟩
    · have hother : (context.withPadding padding).misuse? = some error := hmisuse
      rw [turn_finalize_of_misuse hother, turn_finalize_of_misuse hmisuse]
      rfl
    · have hother : (context.withPadding padding).lifecycle = .active stream := hactive
      rw [turn_finalize_of_ok hother (if_pos hmode), turn_finalize_of_ok hactive (if_pos hmode)]
      rfl

/-- Whatever is called, the padding flag of a stream mode is only carried along. -/
theorem turns_withPadding (hmode : context.mode.isStream = true) (padding : Bool)
    (calls : List CipherCall) :
    (context.withPadding padding).turns calls =
      (context.turns calls).map (CipherTurn.withPadding padding) := by
  induction calls generalizing context with
  | nil => rfl
  | cons call calls ih =>
    have hkept : (context.turn call).after.mode = context.mode :=
      congrArg CipherParameters.mode (context.parameters_turn call)
    have hrest := @ih (context.turn call).after (by rw [hkept]; exact hmode)
    calc
      _ = (context.turn call).withPadding padding ::
          ((context.turn call).after.withPadding padding).turns calls := by
        rw [turns, turn_withPadding hmode]
        rfl
      _ = _ := by rw [hrest, turns, List.map_cons]

/-! ## CFB -/

theorem outputOf_eq_cfb (hmode : context.mode = .cfb) (hiv : iv.length = context.blockSize)
    (data : Bytes) :
    context.outputOf (context.startStream direction key iv) data =
      Mode.Standard.cfb (context.algorithm.keyed key) direction iv data := by
  have hall : context.handedOver direction data.length = data.length := by
    rw [handedOver, hmode]
    rfl
  have hstart : (context.startStream direction key iv).transform =
      .cfb (context.algorithm.keyed key) direction (Mode.Cfb.start iv) := by
    rw [startStream, startTransform, hmode]
    rfl
  have hblock : iv.length = (context.algorithm.keyed key).blockSize := by
    rw [CipherAlgorithm.blockSize_keyed]
    exact hiv
  calc
    _ = (Transform.apply (.cfb (context.algorithm.keyed key) direction (Mode.Cfb.start iv))
          data).1 := by
      rw [← hstart]
      simp only [outputOf, startStream, hall, List.take_length]
    _ = _ := Mode.Cfb.run_eq_cfb (context.algorithm.lawful_keyed key) hblock data

/-- A context in CFB, whatever its padding flag, its policy and its past: data comes back piece by
piece as the textbook CFB of all of it, and the stream ends well at any length. With another
padding flag the context makes the same turns. -/
theorem cfb_stream_eq_standard {context : CipherContext} {direction : Direction} {key iv : Bytes}
    (hmode : context.mode = .cfb) (hidle : context.isActive = false)
    (haccepted : context.algorithm.keyLength.accepts key.length = true)
    (hiv : iv.length = context.blockSize) (pieces : List Bytes) :
    (∃ outs : List Bytes,
      (context.turns (.setup direction key iv :: (pieces.map .update ++ [.finalize]))).map
          CipherTurn.answer =
        .ready (.ok ()) :: (outs.map (fun out ↦ .output (.ok out)) ++ [.output (.ok [])]) ∧
      outs.map List.length = pieces.map List.length ∧
      outs.flatten =
        Mode.Standard.cfb (context.algorithm.keyed key) direction iv pieces.flatten) ∧
    ∀ padding calls, (context.withPadding padding).turns calls =
      (context.turns calls).map (CipherTurn.withPadding padding) := by
  have hstream : context.mode.isStream = true := by
    rw [hmode]
    rfl
  obtain ⟨outs, hanswers, hlengths, hjoined⟩ :=
    @answers_of_isStream context direction key iv hstream (fun _ ↦ hiv) hidle haccepted pieces
  refine ⟨⟨outs, hanswers, hlengths, ?_⟩, turns_withPadding hstream⟩
  exact hjoined.trans (outputOf_eq_cfb hmode hiv pieces.flatten)

/-- Ten bytes of DES ciphertext in two pieces that end inside a block. -/
theorem cfb_stream_des_ten_bytes :
    ∃ outs : List Bytes,
      ((CipherContext.new .desCfb .des .cfb true).turns
          [.setup .decode (List.replicate 8 0x31) (List.replicate 8 0), .update [1, 2, 3],
            .update (List.replicate 7 9), .finalize]).map CipherTurn.answer =
        .ready (.ok ()) :: (outs.map (fun out ↦ .output (.ok out)) ++ [.output (.ok [])]) ∧
      outs.map List.length = [3, 7] ∧
      outs.flatten =
        Mode.Standard.cfb (CipherAlgorithm.des.keyed (List.replicate 8 0x31)) .decode
          (List.replicate 8 0) (1 :: 2 :: 3 :: List.replicate 7 9) :=
  (@cfb_stream_eq_standard (CipherContext.new .desCfb .des .cfb true) .decode
    (List.replicate 8 0x31) (List.replicate 8 0) rfl rfl rfl rfl [[1, 2, 3], List.replicate 7 9]).1

end CipherContext

end StreamCrypto
