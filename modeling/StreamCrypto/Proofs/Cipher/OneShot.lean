import StreamCrypto.Proofs.Cipher.Ending
import StreamCrypto.Proofs.Mode.Standard

/-!
# Block streams against the standard modes

In ECB and CBC, what a stream returns is what the standard mode makes of the whole data, however
the data is cut into pieces. The three endings are those of `Ending`: without padding a partial
block is an error, encryption completes the message, and decryption removes a valid padding.
-/

namespace StreamCrypto.CipherContext

open Padding

/-- What the standard mode of a context makes of whole blocks. -/
def standard (context : CipherContext) (direction : Direction) (key iv message : Bytes) : Bytes :=
  Mode.Standard.transform (context.algorithm.keyed key) context.mode.usesIv direction iv message

variable {context : CipherContext} {direction : Direction} {key iv : Bytes}

theorem apply_startTransform_eq_standard (hmode : context.mode.isStream = false) {message : Bytes}
    (hwhole : context.blockSize ∣ message.length) :
    ((context.startTransform direction key iv).apply message).1 =
      context.standard direction key iv message := by
  have hkeyed : (context.algorithm.keyed key).blockSize ∣ message.length := by
    rw [CipherAlgorithm.blockSize_keyed]
    exact hwhole
  unfold startTransform standard
  cases hcase : context.mode with
  | ecb => exact Mode.Standard.ecbRun_eq_transform _ direction iv hkeyed
  | cbc => exact Mode.Standard.cbcRun_eq_transform _ direction iv hkeyed
  | cfb => rw [hcase] at hmode; cases hmode

theorem length_standard (hmode : context.mode.isStream = false)
    (hiv : context.mode.usesIv = true → iv.length = context.blockSize) {message : Bytes}
    (hwhole : context.blockSize ∣ message.length) :
    (context.standard direction key iv message).length = message.length := by
  rw [← apply_startTransform_eq_standard hmode hwhole]
  exact Transform.length_apply (sound_startTransform direction key hiv)
    ((takes_startTransform_iff context direction key iv message).2 (.inr hwhole))

theorem outputOf_eq_standard (hmode : context.mode.isStream = false) (data : Bytes) :
    context.outputOf (context.startStream direction key iv) data =
      context.standard direction key iv
        (data.take (context.handedOver direction data.length)) := by
  have hwhole := (context.whole_take_handedOver direction data).resolve_left (by simp [hmode])
  exact apply_startTransform_eq_standard hmode hwhole

/-- Every whole block is handed over unless the context withholds the last one. -/
theorem handedOver_of_not_withholds (hmode : context.mode.isStream = false)
    (hpasses : ¬ context.Withholds direction) (total : Nat) :
    context.handedOver direction total = context.blockSize * (total / context.blockSize) := by
  have hdivide := Nat.div_add_mod total context.blockSize
  rw [handedOver, hmode, if_neg Bool.false_ne_true, heldLength_of_not_withholds hpasses]
  omega

/-! ## The ending of a stream that has been fed -/

theorem finalize_fed (hstrict : context.policy = .strict) (data : Bytes) :
    (context.fed direction key iv data).finalize.value.1 =
      context.lastOutput (context.after (context.startStream direction key iv) data) :=
  finalize_strict rfl hstrict

variable (hmode : context.mode.isStream = false) (hstrict : context.policy = .strict)
  (data : Bytes)

include hmode hstrict

theorem finalize_fed_unpadded (hpadding : context.padding = false) :
    context.outputOf (context.startStream direction key iv) data =
        context.standard direction key iv
          (data.take (context.blockSize * (data.length / context.blockSize))) ∧
      (context.fed direction key iv data).finalize.value.1 =
        if context.blockSize ∣ data.length then .ok []
        else .error (.incompleteBlock (data.length % context.blockSize) context.blockSize) := by
  have hpasses : ¬ context.Withholds direction := by
    rintro ⟨_, hpadded⟩
    simp [hpadding] at hpadded
  rw [finalize_fed hstrict, lastOutput_unpadded hmode hpadding, outputOf_eq_standard hmode,
    handedOver_of_not_withholds hmode hpasses]
  exact ⟨rfl, rfl⟩

theorem finalize_fed_encode (hiv : context.mode.usesIv = true → iv.length = context.blockSize)
    (hpadding : context.padding = true) :
    ∃ last, (context.fed .encode key iv data).finalize.value.1 = .ok last ∧
      last.length = context.blockSize ∧
      context.outputOf (context.startStream .encode key iv) data ++ last =
        context.standard .encode key iv (padded context.blockSize data) := by
  have hfits (message : Bytes) (hwhole : context.Whole message) :
      (context.startStream .encode key iv).transform.Takes message :=
    (takes_startTransform_iff context .encode key iv message).2 hwhole
  have hpasses : ¬ context.Withholds .encode := by
    rintro ⟨hdecode, _⟩
    cases hdecode
  have hpadded := dvd_length_padded context.blockSize_pos data
  obtain ⟨last, hlast, hjoined⟩ := lastOutput_encode hfits hmode hpadding rfl data
  have hstandard : context.outputOf (context.startStream .encode key iv) data ++ last =
      context.standard .encode key iv (padded context.blockSize data) := by
    calc
      _ = ((context.startTransform .encode key iv).apply (padded context.blockSize data)).1 :=
        hjoined
      _ = _ := apply_startTransform_eq_standard hmode hpadded
  refine ⟨last, (finalize_fed hstrict data).trans hlast, ?_, hstandard⟩
  have hlength := congrArg List.length hstandard
  rw [length_standard hmode hiv hpadded, outputOf_eq_standard hmode, List.length_append,
    length_standard hmode hiv
      ((context.whole_take_handedOver .encode data).resolve_left (by simp [hmode])),
    List.length_take, handedOver_of_not_withholds hmode hpasses, padded, List.length_append,
    List.length_replicate] at hlength
  have hdivide := Nat.div_add_mod data.length context.blockSize
  have hremainder := Nat.mod_lt data.length context.blockSize_pos
  omega

theorem finalize_fed_decode (hiv : context.mode.usesIv = true → iv.length = context.blockSize)
    (hpadding : context.padding = true) :
    (∀ content, (∃ last, (context.fed .decode key iv data).finalize.value.1 = .ok last ∧
        content = context.outputOf (context.startStream .decode key iv) data ++ last) ↔
      data ≠ [] ∧ context.blockSize ∣ data.length ∧
        Closes context.blockSize content (context.standard .decode key iv data)) ∧
      (¬ context.blockSize ∣ data.length →
        (context.fed .decode key iv data).finalize.value.1 =
          .error (.incompleteBlock (data.length % context.blockSize) context.blockSize)) ∧
      (context.blockSize ∣ data.length →
        (∀ content, ¬ Closes context.blockSize content (context.standard .decode key iv data)) →
        (context.fed .decode key iv data).finalize.value.1 = .error .invalidPadding) := by
  have hfits (message : Bytes) (hwhole : context.Whole message) :
      (context.startStream .decode key iv).transform.Takes message :=
    (takes_startTransform_iff context .decode key iv message).2 hwhole
  have hsound : (context.startStream .decode key iv).transform.Sound :=
    sound_startTransform .decode key hiv
  rw [finalize_fed hstrict]
  by_cases hwhole : context.blockSize ∣ data.length
  · by_cases hdata : data = []
    · subst hdata
      have hlast : context.lastOutput (context.after (context.startStream .decode key iv) []) =
          .error .invalidPadding := lastOutput_decode_nil hmode hpadding rfl
      rw [hlast]
      simp
    · have hstandard : ((context.startTransform .decode key iv).apply data).1 =
          context.standard .decode key iv data := apply_startTransform_eq_standard hmode hwhole
      obtain ⟨hcloses, hnone⟩ :=
        lastOutput_decode_whole hfits hsound hmode hpadding rfl hdata hwhole
      rw [← hstandard]
      refine ⟨fun content ↦ ?_, fun hpartial ↦ absurd hwhole hpartial, fun _ ↦ hnone⟩
      rw [← hcloses content]
      exact ⟨fun h ↦ ⟨hdata, hwhole, h⟩, fun h ↦ h.2.2⟩
  · have hlast : context.lastOutput (context.after (context.startStream .decode key iv) data) =
        .error (.incompleteBlock (data.length % context.blockSize) context.blockSize) :=
      lastOutput_decode_partial hmode hpadding rfl hwhole
    rw [hlast]
    simp [hwhole]

omit hmode hstrict

/-! ## Whole streams -/

/-- A strict context in a block mode agrees with the standard mode, for any pieces. -/
theorem block_stream_eq_standard {context : CipherContext} {direction : Direction}
    {key iv : Bytes} (hmode : context.mode.isStream = false)
    (hstrict : context.policy = .strict) (hidle : context.isActive = false)
    (haccepted : context.algorithm.keyLength.accepts key.length = true)
    (hiv : context.mode.usesIv = true → iv.length = context.blockSize) (pieces : List Bytes) :
    ∃ ready outs fed, (context.setup direction key iv).value = (.ok (), ready) ∧
      ready.feed pieces = .ok (outs, fed) ∧
      (context.padding = false →
        outs = context.standard direction key iv (pieces.flatten.take
            (context.blockSize * (pieces.flatten.length / context.blockSize))) ∧
          fed.finalize.value.1 =
            if context.blockSize ∣ pieces.flatten.length then .ok []
            else .error (.incompleteBlock (pieces.flatten.length % context.blockSize)
              context.blockSize)) ∧
      (context.padding = true → direction = .encode →
        ∃ last, fed.finalize.value.1 = .ok last ∧ last.length = context.blockSize ∧
          outs ++ last =
            context.standard .encode key iv (padded context.blockSize pieces.flatten)) ∧
      (context.padding = true → direction = .decode →
        (∀ content, (∃ last, fed.finalize.value.1 = .ok last ∧ content = outs ++ last) ↔
          pieces.flatten ≠ [] ∧ context.blockSize ∣ pieces.flatten.length ∧
            Closes context.blockSize content
              (context.standard .decode key iv pieces.flatten)) ∧
        (¬ context.blockSize ∣ pieces.flatten.length →
          fed.finalize.value.1 =
            .error (.incompleteBlock (pieces.flatten.length % context.blockSize)
              context.blockSize)) ∧
        (context.blockSize ∣ pieces.flatten.length →
          (∀ content, ¬ Closes context.blockSize content
            (context.standard .decode key iv pieces.flatten)) →
          fed.finalize.value.1 = .error .invalidPadding)) := by
  refine ⟨context.started direction key iv,
    context.outputOf (context.startStream direction key iv) pieces.flatten,
    context.fed direction key iv pieces.flatten, setup_eq_ok hidle haccepted hiv,
    feed_started context direction key iv pieces, ?_, ?_, ?_⟩
  · intro hpadding
    exact finalize_fed_unpadded hmode hstrict pieces.flatten hpadding
  · rintro hpadding rfl
    exact finalize_fed_encode hmode hstrict pieces.flatten hiv hpadding
  · rintro hpadding rfl
    exact finalize_fed_decode hmode hstrict pieces.flatten hiv hpadding

/-- Twelve bytes of DES ciphertext, cut badly: the block and a half is noticed at the end. -/
theorem block_stream_des_cbc_twelve_bytes :
    ∃ ready outs fed,
      ((CipherContext.new .desCbc .des .cbc true).setup .decode (List.replicate 8 0x31)
        (List.replicate 8 0)).value = (.ok (), ready) ∧
      ready.feed [[1, 2, 3], [], List.replicate 9 7] = .ok (outs, fed) ∧
      fed.finalize.value.1 = .error (.incompleteBlock 4 8) := by
  obtain ⟨ready, outs, fed, hsetup, hfeed, -, -, hdecode⟩ :=
    @block_stream_eq_standard (CipherContext.new .desCbc .des .cbc true) .decode
      (List.replicate 8 0x31) (List.replicate 8 0) rfl rfl rfl (by decide) (by decide)
      [[1, 2, 3], [], List.replicate 9 7]
  exact ⟨ready, outs, fed, hsetup, hfeed, (hdecode rfl rfl).2.1 (by decide)⟩

end StreamCrypto.CipherContext
