import StreamCrypto.Proofs.Cipher.Feed

/-!
# Ending a stream

What a stream returns at its end, by what its context does with partial blocks: first read off what
is pending (`lastOutput_unpadded_eq` and the two lemmas after it), then off the whole data. Without
padding it checks that none is left (`lastOutput_unpadded`); with padding, encryption completes the
message (`lastOutput_encode`), and decryption succeeds exactly on the closed messages
(`lastOutput_decode_whole`). The policy only matters for failures.
-/

namespace StreamCrypto.CipherContext

open Padding

variable {context : CipherContext} {stream : CipherStream}

theorem lastOutput_stream (hmode : context.mode.isStream = true) (data : Bytes) :
    context.lastOutput (context.after stream data) = .ok [] :=
  if_pos hmode

theorem lastOutput_unpadded_eq (hmode : context.mode.isStream = false)
    (hpadding : context.padding = false) (stream : CipherStream) :
    context.lastOutput stream =
      if stream.pending.length = 0 then .ok []
      else .error (.incompleteBlock stream.pending.length context.blockSize) := by
  simp only [lastOutput, hmode, hpadding, Bool.false_eq_true, if_false, if_true,
    List.length_eq_zero_iff]

theorem lastOutput_encode_eq (hmode : context.mode.isStream = false)
    (hpadding : context.padding = true) (hencode : stream.direction = .encode) :
    context.lastOutput stream =
      .ok (stream.transform.apply (Padding.pad context.blockSize stream.pending)).1 := by
  simp only [lastOutput, hmode, hpadding, hencode, Bool.false_eq_true, Bool.true_eq_false,
    if_false]

/-- The end of padded ciphertext: the length of what is pending decides, and of a whole block the
verdict on its padding. -/
theorem lastOutput_decode_eq (hmode : context.mode.isStream = false)
    (hpadding : context.padding = true) (hdecode : stream.direction = .decode) :
    context.lastOutput stream =
      if stream.pending.length = 0 then .error .invalidPadding
      else if stream.pending.length ≠ context.blockSize then
        .error (.incompleteBlock stream.pending.length context.blockSize)
      else
        match Padding.contentLength? (stream.transform.apply stream.pending).1 with
        | none => .error .invalidPadding
        | some length => .ok ((stream.transform.apply stream.pending).1.take length) := by
  cases hcontent : Padding.contentLength? (stream.transform.apply stream.pending).1 with
  | none =>
    simp only [lastOutput, hmode, hpadding, hdecode, hcontent, Bool.false_eq_true,
      Bool.true_eq_false, if_false, List.length_eq_zero_iff]
  | some length =>
    simp only [lastOutput, hmode, hpadding, hdecode, hcontent, Bool.false_eq_true,
      Bool.true_eq_false, if_false, List.length_eq_zero_iff]

theorem length_pending_after (stream : CipherStream) (hmode : context.mode.isStream = false)
    (data : Bytes) :
    (context.after stream data).pending.length =
      context.heldLength stream.direction data.length := by
  have hle := context.heldLength_le stream.direction data.length
  simp only [after, List.length_drop, handedOver, hmode, Bool.false_eq_true, if_false]
  omega

theorem lastOutput_unpadded (hmode : context.mode.isStream = false)
    (hpadding : context.padding = false) (data : Bytes) :
    context.lastOutput (context.after stream data) =
      if context.blockSize ∣ data.length then .ok []
      else .error (.incompleteBlock (data.length % context.blockSize) context.blockSize) := by
  have hpasses : ¬ context.Withholds stream.direction := by
    rintro ⟨_, hpadded⟩
    rw [hpadding] at hpadded
    cases hpadded
  have hlength := length_pending_after stream hmode data
  rw [heldLength_of_not_withholds hpasses] at hlength
  simp only [lastOutput_unpadded_eq hmode hpadding, hlength, Nat.dvd_iff_mod_eq_zero]

variable (hfits : ∀ data, context.Whole data → stream.transform.Takes data)

include hfits

/-- The message cut where the stream has cut it. -/
theorem apply_take_append (data rest : Bytes) :
    (stream.transform.apply
        (data.take (context.handedOver stream.direction data.length) ++ rest)).1 =
      context.outputOf stream data ++ ((context.after stream data).transform.apply rest).1 := by
  rw [stream.transform.apply_append (hfits _ (context.whole_take_handedOver _ data)) rest]
  rfl

theorem lastOutput_encode (hmode : context.mode.isStream = false)
    (hpadding : context.padding = true) (hdirection : stream.direction = .encode)
    (data : Bytes) :
    ∃ last, context.lastOutput (context.after stream data) = .ok last ∧
      context.outputOf stream data ++ last =
        (stream.transform.apply (padded context.blockSize data)).1 := by
  have hafter : (context.after stream data).direction = .encode := hdirection
  refine ⟨((context.after stream data).transform.apply
    (pad context.blockSize (context.after stream data).pending)).1, ?_, ?_⟩
  · exact lastOutput_encode_eq hmode hpadding hafter
  · have hpasses : ¬ context.Withholds stream.direction := by
      rintro ⟨hdecode, _⟩
      rw [hdirection] at hdecode
      cases hdecode
    have hwhole := (context.whole_take_handedOver stream.direction data).resolve_left
      (by rw [hmode]; simp)
    have hpending := length_pending_after stream hmode data
    rw [heldLength_of_not_withholds hpasses] at hpending
    have hshort : (context.after stream data).pending.length < context.blockSize := by
      rw [hpending]
      exact Nat.mod_lt _ context.blockSize_pos
    have hpadded := pad_eq hwhole hshort
    simp only [after, List.take_append_drop] at hpadded
    rw [← hpadded, ← apply_take_append hfits]
    rfl

variable (hsound : stream.transform.Sound)

include hsound

theorem length_outputOf (data : Bytes) :
    (context.outputOf stream data).length =
      context.handedOver stream.direction data.length := by
  rw [outputOf, Transform.length_apply hsound (hfits _ (context.whole_take_handedOver _ data)),
    List.length_take, Nat.min_eq_left (context.handedOver_le _ _)]

/-- The last block of padded ciphertext, as the stream decrypts it at its end. -/
theorem exists_last_block (hmode : context.mode.isStream = false)
    (hpadding : context.padding = true) (hdirection : stream.direction = .decode)
    {data : Bytes} (hdata : data ≠ []) (hwhole : context.blockSize ∣ data.length) :
    ∃ block, block.length = context.blockSize ∧
      (stream.transform.apply data).1 = context.outputOf stream data ++ block ∧
      (contentLength? block = none →
        context.lastOutput (context.after stream data) = .error .invalidPadding) ∧
      ∀ length, contentLength? block = some length →
        context.lastOutput (context.after stream data) = .ok (block.take length) := by
  have hholds : context.Withholds stream.direction := ⟨hdirection, hpadding⟩
  have hafter : (context.after stream data).direction = .decode := hdirection
  have hpositive := List.length_pos_iff.2 hdata
  have hpending := length_pending_after stream hmode data
  rw [heldLength_of_dvd hholds (Nat.mod_eq_zero_of_dvd hwhole),
    Nat.min_eq_right (Nat.le_of_dvd hpositive hwhole)] at hpending
  have hcut := apply_take_append hfits data (context.after stream data).pending
  have hjoined : data.take (context.handedOver stream.direction data.length) ++
      (context.after stream data).pending = data := List.take_append_drop _ _
  rw [hjoined] at hcut
  have hlast := lastOutput_decode_eq hmode hpadding hafter
  rw [hpending, if_neg context.blockSize_pos.ne', if_neg (not_not_intro rfl)] at hlast
  refine ⟨((context.after stream data).transform.apply (context.after stream data).pending).1,
    ?_, hcut, ?_, ?_⟩
  · have hlength := congrArg List.length hcut
    rw [Transform.length_apply hsound (hfits _ (.inr hwhole)), List.length_append,
      length_outputOf hfits hsound] at hlength
    have hle := context.handedOver_le stream.direction data.length
    have hdrop : (context.after stream data).pending.length =
        data.length - context.handedOver stream.direction data.length := List.length_drop
    omega
  · intro hnone
    rw [hlast, hnone]
  · intro length hlength
    rw [hlast, hlength]

/-- Of whole blocks, the end of the stream accepts exactly the closed messages. -/
theorem lastOutput_decode_whole (hmode : context.mode.isStream = false)
    (hpadding : context.padding = true) (hdirection : stream.direction = .decode)
    {data : Bytes} (hdata : data ≠ []) (hwhole : context.blockSize ∣ data.length) :
    (∀ content, Closes context.blockSize content (stream.transform.apply data).1 ↔
        ∃ last, context.lastOutput (context.after stream data) = .ok last ∧
          content = context.outputOf stream data ++ last) ∧
      ((∀ content, ¬ Closes context.blockSize content (stream.transform.apply data).1) →
        context.lastOutput (context.after stream data) = .error .invalidPadding) := by
  obtain ⟨block, hlength, happly, hinvalid, hvalid⟩ :=
    exists_last_block hfits hsound hmode hpadding hdirection hdata hwhole
  have hsmall : block.length ≤ 255 := by
    have hsize := context.algorithm.blockSize_le
    have hblock : block.length = context.algorithm.blockSize := hlength
    omega
  have hcloses (content : Bytes) :
      Closes context.blockSize content (stream.transform.apply data).1 ↔
        ∃ length, contentLength? block = some length ∧
          content = context.outputOf stream data ++ block.take length := by
    rw [happly, ← hlength]
    exact closes_append_iff hsmall
  constructor
  · intro content
    rw [hcloses]
    cases hcheck : contentLength? block with
    | none => simp [hinvalid hcheck]
    | some length => simp [hvalid length hcheck]
  · intro hnone
    cases hcheck : contentLength? block with
    | none => exact hinvalid hcheck
    | some length => exact absurd ((hcloses _).2 ⟨length, hcheck, rfl⟩) (hnone _)

omit hfits hsound

theorem lastOutput_decode_nil (hmode : context.mode.isStream = false)
    (hpadding : context.padding = true) (hdirection : stream.direction = .decode) :
    context.lastOutput (context.after stream []) = .error .invalidPadding := by
  have hafter : (context.after stream []).direction = .decode := hdirection
  have hpending : (context.after stream []).pending = [] := List.drop_nil
  rw [lastOutput_decode_eq hmode hpadding hafter, hpending]
  rfl

theorem lastOutput_decode_partial (hmode : context.mode.isStream = false)
    (hpadding : context.padding = true) (hdirection : stream.direction = .decode)
    {data : Bytes} (hpartial : ¬ context.blockSize ∣ data.length) :
    context.lastOutput (context.after stream data) =
      .error (.incompleteBlock (data.length % context.blockSize) context.blockSize) := by
  rw [Nat.dvd_iff_mod_eq_zero] at hpartial
  have hafter : (context.after stream data).direction = .decode := hdirection
  have hlength := length_pending_after stream hmode data
  rw [heldLength_of_not_dvd hpartial] at hlength
  have hshort : data.length % context.blockSize ≠ context.blockSize :=
    Nat.ne_of_lt (Nat.mod_lt _ context.blockSize_pos)
  rw [lastOutput_decode_eq hmode hpadding hafter, hlength, if_neg hpartial, if_pos hshort]

/-! ## Under a policy -/

theorem finalize_of_active (hactive : context.lifecycle = .active stream) :
    context.finalize =
      ⟨((context.report (context.lastOutput stream)).value,
        { context with lifecycle := .finished }),
        (context.report (context.lastOutput stream)).events⟩ := by
  unfold finalize
  rw [hactive]
  exact Logged.bind_of_silent rfl

theorem report_ok (context : CipherContext) (out : Bytes) :
    context.report (.ok out) = ⟨.ok out, []⟩ := rfl

theorem report_strict (hstrict : context.policy = .strict) (result : Except Error Bytes) :
    context.report result = ⟨result, []⟩ := by
  unfold report
  rw [hstrict]
  cases result with
  | error error => rfl
  | ok out => rfl

theorem report_lenient (hlenient : context.policy = .logAndContinue) (error : Error) :
    context.report (.error error) = ⟨.ok [], [.finalizeFailed context.feature error]⟩ := by
  unfold report
  rw [hlenient]
  rfl

theorem finalize_of_ok (hactive : context.lifecycle = .active stream) {last : Bytes}
    (hlast : context.lastOutput stream = .ok last) : context.finalize.value.1 = .ok last := by
  rw [finalize_of_active hactive, hlast, report_ok]

theorem finalize_strict (hactive : context.lifecycle = .active stream)
    (hstrict : context.policy = .strict) :
    context.finalize.value.1 = context.lastOutput stream := by
  rw [finalize_of_active hactive, report_strict hstrict]

/-- A stream that ends well under any policy has ended well or has had its failure dropped. -/
theorem lastOutput_of_finalize (hactive : context.lifecycle = .active stream) {last : Bytes}
    (hlast : context.finalize.value.1 = .ok last) :
    context.lastOutput stream = .ok last ∨
      (∃ error, context.lastOutput stream = .error error) ∧ last = [] := by
  rw [finalize_of_active hactive] at hlast
  cases hresult : context.lastOutput stream with
  | ok out =>
    rw [hresult] at hlast
    exact .inl hlast
  | error error =>
    rw [hresult] at hlast
    refine .inr ⟨⟨error, rfl⟩, ?_⟩
    cases hpolicy : context.policy with
    | strict =>
      rw [report_strict hpolicy] at hlast
      cases hlast
    | logAndContinue =>
      rw [report_lenient hpolicy] at hlast
      cases hlast
      rfl

end StreamCrypto.CipherContext
