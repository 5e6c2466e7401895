import StreamCrypto.Proofs.Cipher.OneShot

/-!
# Decryption undoes encryption

Every mode and padding, through whole streams that are cut anywhere. `Enciphers` says in one
equation which ciphertext belongs to a content. An encoding stream returns it
(`run_encode_of_enciphers`), and a strict decoding stream succeeds on nothing else
(`run_decode_eq_ok_iff`), so that both round trips hold. The two contexts need the same algorithm,
mode and padding, but not the same feature, policy or past.
-/

namespace StreamCrypto.CipherContext

open Padding

/-- What is encrypted for a content: the content, filled up to whole blocks if there is padding. -/
def message (context : CipherContext) (content : Bytes) : Bytes :=
  if context.mode.isStream = true ∨ context.padding = false then content
  else padded context.blockSize content

/-- A stream ends well after `data`, and `out` is all that it returns. -/
def Returns (context : CipherContext) (stream : CipherStream) (data out : Bytes) : Prop :=
  ∃ last, context.lastOutput (context.after stream data) = .ok last ∧
    out = context.outputOf stream data ++ last

/-- The ciphertext of a content that can be encrypted. -/
def Enciphers (context : CipherContext) (key iv content ciphertext : Bytes) : Prop :=
  context.Whole (context.message content) ∧
    ciphertext = ((context.startTransform .encode key iv).apply (context.message content)).1

/-- Two contexts for one cipher, whatever their features, policies and pasts. -/
structure SameCipher (first second : CipherContext) : Prop where
  algorithm : first.algorithm = second.algorithm
  mode : first.mode = second.mode
  padding : first.padding = second.padding

/-! ## Messages -/

variable {context : CipherContext}

theorem message_of_padded (hmode : context.mode.isStream = false)
    (hpadding : context.padding = true) (content : Bytes) :
    context.message content = padded context.blockSize content :=
  if_neg (by simp [hmode, hpadding])

theorem whole_message_iff (context : CipherContext) (content : Bytes) :
    context.Whole (context.message content) ↔
      context.mode.isStream = true ∨ context.padding = true ∨
        context.blockSize ∣ content.length := by
  cases hmode : context.mode.isStream with
  | true => simp [Whole, hmode]
  | false =>
    cases hpadding : context.padding with
    | true =>
      have hpadded := dvd_length_padded context.blockSize_pos content
      simp [Whole, hmode, message_of_padded hmode hpadding, hpadded]
    | false => simp [Whole, message, hmode, hpadding]

theorem handedOver_of_whole {direction : Direction} {data : Bytes} (hwhole : context.Whole data)
    (hpasses : context.mode.isStream = true ∨ context.padding = false) :
    context.handedOver direction data.length = data.length := by
  cases hmode : context.mode.isStream with
  | true => exact if_pos hmode
  | false =>
    have hunpadded := hpasses.resolve_left (by simp [hmode])
    have hdvd := hwhole.resolve_left (by simp [hmode])
    rw [handedOver_of_not_withholds hmode (by rintro ⟨_, hpadded⟩; simp [hunpadded] at hpadded),
      Nat.mul_div_cancel' hdvd]

/-! ## What a stream returns -/

variable {stream : CipherStream}

theorem returns_of_unpadded_iff
    (hpasses : context.mode.isStream = true ∨ context.padding = false) (data out : Bytes) :
    context.Returns stream data out ↔
      context.Whole data ∧ out = (stream.transform.apply data).1 := by
  have houtput (hwhole : context.Whole data) :
      context.outputOf stream data = (stream.transform.apply data).1 := by
    rw [outputOf, handedOver_of_whole hwhole hpasses, List.take_length]
  cases hmode : context.mode.isStream with
  | true =>
    have hwhole : context.Whole data := .inl hmode
    simp [Returns, lastOutput_stream hmode, houtput hwhole, hwhole]
  | false =>
    have hunpadded := hpasses.resolve_left (by simp [hmode])
    have hlast : context.lastOutput (context.after stream data) = _ :=
      lastOutput_unpadded hmode hunpadded data
    by_cases hdvd : context.blockSize ∣ data.length
    · have hwhole : context.Whole data := .inr hdvd
      rw [if_pos hdvd] at hlast
      simp [Returns, hlast, houtput hwhole, hwhole]
    · rw [if_neg hdvd] at hlast
      simp [Returns, hlast, Whole, hmode, hdvd]

variable (hfits : ∀ data, context.Whole data → stream.transform.Takes data)

include hfits

theorem returns_encode_iff (hdirection : stream.direction = .encode) (data out : Bytes) :
    context.Returns stream data out ↔
      context.Whole (context.message data) ∧
        out = (stream.transform.apply (context.message data)).1 := by
  by_cases hpasses : context.mode.isStream = true ∨ context.padding = false
  · have hmessage : context.message data = data := if_pos hpasses
    rw [hmessage]
    exact returns_of_unpadded_iff hpasses data out
  · simp only [not_or, Bool.not_eq_true, Bool.not_eq_false] at hpasses
    have hwhole := (context.whole_message_iff data).2 (.inr (.inl hpasses.2))
    obtain ⟨last, hlast, hjoined⟩ :=
      lastOutput_encode hfits hpasses.1 hpasses.2 hdirection data
    rw [← message_of_padded hpasses.1 hpasses.2] at hjoined
    simp [Returns, hlast, hjoined, hwhole]

theorem returns_decode_iff (hsound : stream.transform.Sound)
    (hdirection : stream.direction = .decode) (data out : Bytes) :
    context.Returns stream data out ↔
      context.Whole data ∧ context.message out = (stream.transform.apply data).1 := by
  by_cases hpasses : context.mode.isStream = true ∨ context.padding = false
  · have hmessage : context.message out = out := if_pos hpasses
    rw [hmessage]
    exact returns_of_unpadded_iff hpasses data out
  · simp only [not_or, Bool.not_eq_true, Bool.not_eq_false] at hpasses
    obtain ⟨hmode, hpadding⟩ := hpasses
    rw [message_of_padded hmode hpadding]
    by_cases hdvd : context.blockSize ∣ data.length
    · have hwhole : context.Whole data := .inr hdvd
      by_cases hdata : data = []
      · subst hdata
        have hnonempty : ¬ padded context.blockSize out = [] := by
          obtain ⟨count, hpositive, -, heq⟩ := closes_padded context.blockSize_pos out
          rw [heq]
          simp
          omega
        simp [Returns, lastOutput_decode_nil hmode hpadding hdirection, hnonempty]
      · have hlength := Transform.length_apply hsound (hfits data hwhole)
        have hclosed := (lastOutput_decode_whole hfits hsound hmode hpadding hdirection hdata
          hdvd).1 out
        rw [closes_iff_eq_padded context.blockSize_pos (by rw [hlength]; exact hdvd)] at hclosed
        rw [Returns, ← hclosed, eq_comm]
        simp [hwhole]
    · have hlast := lastOutput_decode_partial hmode hpadding hdirection hdvd
      simp [Returns, hlast, Whole, hmode, hdvd]

omit hfits

/-! ## Whole streams -/

section Run

variable {direction : Direction} {key iv : Bytes} (hidle : context.isActive = false)
  (haccepted : context.algorithm.keyLength.accepts key.length = true)
  (hiv : context.mode.usesIv = true → iv.length = context.blockSize)

include hidle haccepted hiv

theorem run_eq (pieces : List Bytes) : context.run direction key iv pieces =
    (context.fed direction key iv pieces.flatten).finalize.value.1.map fun last ↦
      context.outputOf (context.startStream direction key iv) pieces.flatten ++ last := by
  unfold run
  rw [setup_eq_ok hidle haccepted hiv]
  change ((context.started direction key iv).feed pieces >>= fun fed ↦
    fed.2.finalize.value.1 >>= fun last ↦ pure (fed.1 ++ last)) = _
  rw [feed_started]
  rfl

/-- No policy touches a stream that ends well. -/
theorem run_of_returns {pieces : List Bytes} {out : Bytes}
    (hreturns : context.Returns (context.startStream direction key iv) pieces.flatten out) :
    context.run direction key iv pieces = .ok out := by
  obtain ⟨last, hlast, rfl⟩ := hreturns
  have hfinalize : (context.fed direction key iv pieces.flatten).finalize.value.1 = .ok last :=
    finalize_of_ok rfl hlast
  rw [run_eq hidle haccepted hiv, hfinalize]
  rfl

theorem run_strict_eq_ok_iff (hstrict : context.policy = .strict) (pieces : List Bytes)
    (out : Bytes) : context.run direction key iv pieces = .ok out ↔
      context.Returns (context.startStream direction key iv) pieces.flatten out := by
  rw [run_eq hidle haccepted hiv, finalize_fed hstrict, Returns]
  cases context.lastOutput
      (context.after (context.startStream direction key iv) pieces.flatten) with
  | error error => simp [Except.map]
  | ok last => simp [Except.map, eq_comm]

theorem run_encode_of_enciphers {pieces : List Bytes} {ciphertext : Bytes}
    (henciphers : context.Enciphers key iv pieces.flatten ciphertext) :
    context.run .encode key iv pieces = .ok ciphertext := by
  refine run_of_returns hidle haccepted hiv ?_
  rw [returns_encode_iff (fun data ↦ (takes_startTransform_iff context .encode key iv data).2) rfl]
  exact henciphers

/-- Whatever an encoding stream returns is a ciphertext. A policy that drops the failure at the
end of a partial block leaves the ciphertext of the blocks before it. -/
theorem exists_enciphers_of_run_encode {pieces : List Bytes} {ciphertext : Bytes}
    (hrun : context.run .encode key iv pieces = .ok ciphertext) :
    ∃ content, context.Enciphers key iv content ciphertext := by
  have hfits (data : Bytes) (hwhole : context.Whole data) :
      (context.startStream .encode key iv).transform.Takes data :=
    (takes_startTransform_iff context .encode key iv data).2 hwhole
  rw [run_eq hidle haccepted hiv] at hrun
  cases hfinalize : (context.fed .encode key iv pieces.flatten).finalize.value.1 with
  | error error => simp [hfinalize, Except.map] at hrun
  | ok last =>
    rw [hfinalize] at hrun
    obtain rfl := Except.ok.inj hrun
    rcases lastOutput_of_finalize rfl hfinalize with hlast | ⟨⟨error, hlast⟩, rfl⟩
    · exact ⟨pieces.flatten, (returns_encode_iff hfits rfl _ _).1 ⟨last, hlast, rfl⟩⟩
    · have hwhole := context.whole_take_handedOver .encode pieces.flatten
      generalize hdone : pieces.flatten.take
        (context.handedOver .encode pieces.flatten.length) = done at hwhole
      have hmessage : context.message done = done := by
        refine if_pos (Decidable.byContradiction fun hpadded ↦ ?_)
        simp only [not_or, Bool.not_eq_true, Bool.not_eq_false] at hpadded
        obtain ⟨last, hok, -⟩ := lastOutput_encode hfits hpadded.1 hpadded.2 rfl pieces.flatten
        exact nomatch hlast.symm.trans hok
      refine ⟨done, hmessage.symm ▸ hwhole, ?_⟩
      rw [hmessage, ← hdone]
      exact List.append_nil _

end Run

/-! ## Both directions -/

theorem whole_congr {first second : Bytes} (hlength : first.length = second.length) :
    context.Whole first ↔ context.Whole second := by
  simp only [Whole, hlength]

/-- The transform of the other direction restores what the transform of one has made. -/
theorem apply_apply_opposite (direction : Direction) (key : Bytes) {iv : Bytes}
    (hiv : context.mode.usesIv = true → iv.length = context.blockSize) {data : Bytes}
    (hwhole : context.Whole data) :
    context.Whole ((context.startTransform direction key iv).apply data).1 ∧
      ((context.startTransform direction.opposite key iv).apply
        ((context.startTransform direction key iv).apply data).1).1 = data := by
  have hsound := sound_startTransform direction key hiv
  have htakes := (takes_startTransform_iff context direction key iv data).2 hwhole
  refine ⟨(whole_congr (Transform.length_apply hsound htakes)).2 hwhole, ?_⟩
  calc
    _ = ((context.startTransform direction key iv).opposite.apply
        ((context.startTransform direction key iv).apply data).1).1 := by
      rw [opposite_startTransform]
    _ = data := congrArg Prod.fst (Transform.apply_opposite_apply hsound htakes)

/-- The ciphertexts of a content are those that decrypt to its message. -/
theorem enciphers_iff {key iv : Bytes}
    (hiv : context.mode.usesIv = true → iv.length = context.blockSize)
    (content ciphertext : Bytes) :
    context.Enciphers key iv content ciphertext ↔ context.Whole ciphertext ∧
      context.message content = ((context.startTransform .decode key iv).apply ciphertext).1 := by
  constructor
  · rintro ⟨hwhole, rfl⟩
    obtain ⟨hcipher, hback⟩ := apply_apply_opposite .encode key hiv hwhole
    exact ⟨hcipher, hback.symm⟩
  · rintro ⟨hwhole, hmessage⟩
    obtain ⟨hplain, hback⟩ := apply_apply_opposite .decode key hiv hwhole
    unfold Enciphers
    rw [hmessage]
    exact ⟨hplain, hback.symm⟩

theorem SameCipher.enciphers_iff {first second : CipherContext} (hsame : SameCipher first second)
    (key iv content ciphertext : Bytes) :
    first.Enciphers key iv content ciphertext ↔ second.Enciphers key iv content ciphertext := by
  obtain ⟨halgorithm, hmode, hpadding⟩ := hsame
  cases first
  cases second
  cases halgorithm
  cases hmode
  cases hpadding
  exact Iff.rfl

/-- What a padded ciphertext decrypts to ends in its padding. -/
theorem Enciphers.closes_standard {key iv content ciphertext : Bytes}
    (henciphers : context.Enciphers key iv content ciphertext)
    (hiv : context.mode.usesIv = true → iv.length = context.blockSize)
    (hmode : context.mode.isStream = false) (hpadding : context.padding = true) :
    ciphertext ≠ [] ∧
      Closes context.blockSize content (context.standard .decode key iv ciphertext) := by
  obtain ⟨hwhole, hmessage⟩ := (enciphers_iff hiv content ciphertext).1 henciphers
  have hdvd := hwhole.resolve_left (by simp [hmode])
  rw [message_of_padded hmode hpadding, apply_startTransform_eq_standard hmode hdvd] at hmessage
  have hcloses := closes_padded context.blockSize_pos content
  rw [hmessage] at hcloses
  refine ⟨?_, hcloses⟩
  rintro rfl
  obtain ⟨count, hpositive, -, heq⟩ := hcloses
  have hlength := congrArg List.length heq
  rw [length_standard hmode hiv hdvd, List.length_append, List.length_replicate,
    List.length_nil] at hlength
  omega

section Decode

variable {key iv : Bytes} (hidle : context.isActive = false)
  (haccepted : context.algorithm.keyLength.accepts key.length = true)
  (hiv : context.mode.usesIv = true → iv.length = context.blockSize)

include hiv in
theorem returns_decode_iff_enciphers (content ciphertext : Bytes) :
    context.Returns (context.startStream .decode key iv) ciphertext content ↔
      context.Enciphers key iv content ciphertext := by
  rw [enciphers_iff hiv]
  exact returns_decode_iff (fun data ↦ (takes_startTransform_iff context .decode key iv data).2)
    (sound_startTransform .decode key hiv) rfl ciphertext content

include hidle haccepted hiv

theorem run_decode_of_enciphers {pieces : List Bytes} {content : Bytes}
    (henciphers : context.Enciphers key iv content pieces.flatten) :
    context.run .decode key iv pieces = .ok content :=
  run_of_returns hidle haccepted hiv
    ((returns_decode_iff_enciphers hiv content pieces.flatten).2 henciphers)

theorem run_decode_eq_ok_iff (hstrict : context.policy = .strict) (pieces : List Bytes)
    (content : Bytes) : context.run .decode key iv pieces = .ok content ↔
      context.Enciphers key iv content pieces.flatten := by
  rw [run_strict_eq_ok_iff hidle haccepted hiv hstrict, returns_decode_iff_enciphers hiv]

end Decode

/-! ## Round trips -/

/-- Decryption restores the content. No failure policy is needed for that. -/
theorem run_decode_run_encode {encoder decoder : CipherContext}
    (hsame : SameCipher encoder decoder) (hencoder : encoder.isActive = false)
    (hdecoder : decoder.isActive = false) {key iv : Bytes}
    (haccepted : encoder.algorithm.keyLength.accepts key.length = true)
    (hiv : encoder.mode.usesIv = true → iv.length = encoder.blockSize) {content : Bytes}
    (hcontent : encoder.mode.isStream = true ∨ encoder.padding = true ∨
      encoder.blockSize ∣ content.length) :
    ∃ ciphertext,
      (∀ chunks, chunks.flatten = content →
        encoder.run .encode key iv chunks = .ok ciphertext) ∧
      ∀ pieces, pieces.flatten = ciphertext →
        decoder.run .decode key iv pieces = .ok content := by
  have haccepted' : decoder.algorithm.keyLength.accepts key.length = true :=
    hsame.algorithm ▸ haccepted
  have hiv' : decoder.mode.usesIv = true → iv.length = decoder.blockSize := by
    rw [← hsame.mode, blockSize, ← hsame.algorithm]
    exact hiv
  obtain ⟨ciphertext, henciphers⟩ :
      ∃ ciphertext, encoder.Enciphers key iv content ciphertext :=
    ⟨_, (encoder.whole_message_iff content).2 hcontent, rfl⟩
  refine ⟨ciphertext, ?_, ?_⟩
  · rintro chunks rfl
    exact run_encode_of_enciphers hencoder haccepted hiv henciphers
  · intro pieces hpieces
    refine run_decode_of_enciphers hdecoder haccepted' hiv' ?_
    rw [hpieces, ← hsame.enciphers_iff]
    exact henciphers

theorem run_decode_run_encode_aes128_cbc_five_bytes :
    ∃ ciphertext,
      (CipherContext.new .aes128CbcPkcs7 .aes128 .cbc true).run .encode (List.replicate 16 7)
        (List.replicate 16 1) [[104, 97], [], [108, 108, 111]] = .ok ciphertext ∧
      (CipherContext.new .aes128CbcPkcs7 .aes128 .cbc true).run .decode (List.replicate 16 7)
        (List.replicate 16 1) [ciphertext.take 3, ciphertext.drop 3] =
          .ok [104, 97, 108, 108, 111] := by
  obtain ⟨ciphertext, hencode, hdecode⟩ :=
    @run_decode_run_encode (CipherContext.new .aes128CbcPkcs7 .aes128 .cbc true)
      (CipherContext.new .aes128CbcPkcs7 .aes128 .cbc true) ⟨rfl, rfl, rfl⟩ rfl rfl
      (List.replicate 16 7) (List.replicate 16 1) (by decide) (by decide)
      [104, 97, 108, 108, 111] (.inr (.inl rfl))
  exact ⟨ciphertext, hencode _ rfl, hdecode _ (by simp)⟩

/-- A strict decoding stream accepts nothing but ciphertexts, and encryption restores them. -/
theorem run_decode_ok_iff_exists_run_encode {encoder decoder : CipherContext}
    (hsame : SameCipher encoder decoder) (hencoder : encoder.isActive = false)
    (hdecoder : decoder.isActive = false) (hstrict : decoder.policy = .strict) {key iv : Bytes}
    (haccepted : decoder.algorithm.keyLength.accepts key.length = true)
    (hiv : decoder.mode.usesIv = true → iv.length = decoder.blockSize) (pieces : List Bytes) :
    ((∃ content, decoder.run .decode key iv pieces = .ok content) ↔
        ∃ chunks, encoder.run .encode key iv chunks = .ok pieces.flatten) ∧
      ∀ content, decoder.run .decode key iv pieces = .ok content →
        (∀ chunks, chunks.flatten = content →
          encoder.run .encode key iv chunks = .ok pieces.flatten) ∧
        (∀ others, decoder.run .decode key iv others = .ok content →
          others.flatten = pieces.flatten) ∧
        decoder.Whole pieces.flatten ∧
        (decoder.mode.isStream = false → decoder.padding = true →
          pieces.flatten ≠ [] ∧ Closes decoder.blockSize content
            (decoder.standard .decode key iv pieces.flatten)) := by
  have haccepted' : encoder.algorithm.keyLength.accepts key.length = true :=
    hsame.algorithm ▸ haccepted
  have hiv' : encoder.mode.usesIv = true → iv.length = encoder.blockSize := by
    rw [hsame.mode, blockSize, hsame.algorithm]
    exact hiv
  have hdecodes := run_decode_eq_ok_iff hdecoder haccepted hiv hstrict
  have hencodes (content : Bytes)
      (hrun : decoder.run .decode key iv pieces = .ok content) (chunks : List Bytes)
      (hchunks : chunks.flatten = content) :
      encoder.run .encode key iv chunks = .ok pieces.flatten := by
    refine run_encode_of_enciphers hencoder haccepted' hiv' ?_
    rw [hchunks, hsame.enciphers_iff, ← hdecodes]
    exact hrun
  refine ⟨⟨?_, ?_⟩, ?_⟩
  · rintro ⟨content, hrun⟩
    exact ⟨[content], hencodes content hrun [content] List.flatten_singleton⟩
  · rintro ⟨chunks, hrun⟩
    obtain ⟨content, henciphers⟩ :=
      exists_enciphers_of_run_encode hencoder haccepted' hiv' hrun
    exact ⟨content, (hdecodes pieces content).2 ((hsame.enciphers_iff ..).1 henciphers)⟩
  · intro content hrun
    have henciphers := (hdecodes pieces content).1 hrun
    have hwhole := ((enciphers_iff hiv content pieces.flatten).1 henciphers).1
    refine ⟨hencodes content hrun, ?_, hwhole, ?_⟩
    · intro others hothers
      exact ((hdecodes others content).1 hothers).2.trans henciphers.2.symm
    · intro hmode hpadding
      exact henciphers.closes_standard hiv hmode hpadding

/-- Two blocks of DES ciphertext, cut inside the first one, stand for nine bytes and for nothing
else. The empty text is not a ciphertext under padding, so no content has it. -/
theorem run_decode_ok_iff_exists_run_encode_des_cbc_nine_bytes :
    let context := CipherContext.new .desCbcPkcs7 .des .cbc true
    let run (direction : Direction) (pieces : List Bytes) : Except Error Bytes :=
      context.run direction (List.replicate 8 0x31) (List.replicate 8 7) pieces
    let ciphertext : Bytes :=
      [0xa2, 0x8b, 0x6a, 0x3f, 0xbc, 0x97, 0xf4, 0xf3,
       0xff, 0xdd, 0x51, 0x49, 0x37, 0x78, 0x1c, 0xf8]
    run .decode [ciphertext.take 3, [], ciphertext.drop 3] = .ok (List.replicate 9 5) ∧
      run .encode [[5], List.replicate 8 5] = .ok ciphertext ∧
      (∀ others, run .decode others = .ok (List.replicate 9 5) → others.flatten = ciphertext) ∧
      ¬ ∃ chunks, run .encode chunks = .ok [] := by
  intro context run ciphertext
  have hdecode : run .decode [ciphertext.take 3, [], ciphertext.drop 3] =
      .ok (List.replicate 9 5) := by
    decide +kernel
  have haccepts (pieces : List Bytes) :=
    @run_decode_ok_iff_exists_run_encode context context ⟨rfl, rfl, rfl⟩ rfl rfl rfl
      (List.replicate 8 0x31) (List.replicate 8 7) (by decide) (fun _ ↦ rfl) pieces
  obtain ⟨hencode, hothers, -⟩ := (haccepts _).2 _ hdecode
  refine ⟨hdecode, hencode _ rfl, hothers, fun hempty ↦ ?_⟩
  obtain ⟨content, hcontent⟩ := (haccepts []).1.2 hempty
  have hrejected : run .decode [] = .error .invalidPadding := by decide +kernel
  exact nomatch hrejected.symm.trans hcontent

end StreamCrypto.CipherContext
