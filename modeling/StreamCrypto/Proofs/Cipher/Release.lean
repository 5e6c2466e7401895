import Mathlib.Algebra.Order.Floor.Div
import Mathlib.Order.Bounds.Basic
import StreamCrypto.Proofs.Cipher.OneShot
import StreamCrypto.Proofs.Cipher.Updates

/-!
# When a stream gives out its blocks

How much a context in a block mode has returned is decided by how much it has been fed, whatever
the pieces. Every whole block comes out at once, except that decryption with padding keeps the last
one until its padding has been checked (`handedOver_of_not_withholds`, `handedOver_of_withholds`).
No rule that returns whole blocks and keeps that last one could return more at any time
(`isGreatest_handedOver`). The end of a stream adds at most a block, and nothing if it fails.
-/

namespace StreamCrypto

/-- The bytes that a turn has given out. -/
def CipherTurn.given (turn : CipherTurn) : Bytes :=
  match turn.answer with
  | .output (.ok out) => out
  | .output (.error _) | .ready _ => []

/-- The turn has returned an output, and no failure has been masked. -/
def CipherTurn.Succeeds (turn : CipherTurn) : Prop :=
  (∃ out, turn.answer = .output (.ok out)) ∧ turn.events = []

namespace CipherContext

variable {context : CipherContext} {direction : Direction} {key iv : Bytes}

/-! ## How much is handed over -/

/-- `count` of the first `total` bytes may be out: whole blocks, and not all of the data if the
context withholds its last block. -/
def MayRelease (context : CipherContext) (direction : Direction) (total count : Nat) : Prop :=
  context.blockSize ∣ count ∧ count ≤ total ∧
    (context.Withholds direction → 0 < total → count < total)

section Block

variable (hmode : context.mode.isStream = false)

include hmode

theorem handedOver_add_heldLength (direction : Direction) (total : Nat) :
    context.handedOver direction total + context.heldLength direction total = total := by
  rw [handedOver, hmode, if_neg Bool.false_ne_true]
  exact Nat.sub_add_cancel (context.heldLength_le direction total)

theorem dvd_handedOver (direction : Direction) (total : Nat) :
    context.blockSize ∣ context.handedOver direction total := by
  rw [handedOver, hmode, if_neg Bool.false_ne_true]
  exact context.dvd_sub_heldLength direction total

theorem handedOver_of_withholds (hholds : context.Withholds direction) (total : Nat) :
    context.handedOver direction total =
      context.blockSize * (total ⌈/⌉ context.blockSize - 1) := by
  obtain ⟨count, hcount⟩ := dvd_handedOver hmode direction total
  have hsum := handedOver_add_heldLength hmode direction total
  have hle := context.heldLength_le_blockSize direction total
  have hblock := context.blockSize_pos
  rcases Nat.eq_zero_or_pos total with rfl | hpos
  · rw [zero_ceilDiv, Nat.zero_sub, Nat.mul_zero]
    omega
  · have hheld := heldLength_pos hholds hpos
    -- What is held rounds the quotient up by one.
    have hceil : total ⌈/⌉ context.blockSize = count + 1 := by
      have hshort : (context.heldLength direction total - 1) / context.blockSize = 0 :=
        Nat.div_eq_of_lt (by omega)
      have htotal : total + context.blockSize - 1 =
          context.heldLength direction total - 1 + context.blockSize * (count + 1) := by
        rw [Nat.mul_succ]
        omega
      rw [Nat.ceilDiv_eq_add_pred_div, htotal, Nat.add_mul_div_left _ _ hblock, hshort,
        Nat.zero_add]
    rw [hceil, Nat.add_sub_cancel, hcount]

/-- Nothing more could be out already. -/
theorem isGreatest_handedOver (direction : Direction) (total : Nat) :
    IsGreatest {count | context.MayRelease direction total count}
      (context.handedOver direction total) := by
  have hsum := handedOver_add_heldLength hmode direction total
  have hdvd := dvd_handedOver hmode direction total
  constructor
  · refine ⟨hdvd, by omega, fun hholds hpos ↦ ?_⟩
    have hheld := heldLength_pos hholds hpos
    omega
  · rintro count ⟨hwhole, hle, hlast⟩
    by_contra hmore
    -- A multiple that is greater is greater by a block, which is as much as can be held.
    have hblock := Nat.le_of_dvd (by omega) (Nat.dvd_sub hwhole hdvd)
    have hheld := context.heldLength_le_blockSize direction total
    have hall : count = total := by omega
    by_cases hholds : context.Withholds direction
    · have hlt := hlast hholds (by omega)
      omega
    · have hlt := heldLength_lt hholds total
      omega

end Block

/-! ## What the end of a stream adds -/

section Ending

variable {stream : CipherStream}
  (hfits : ∀ data, context.Whole data → stream.transform.Takes data)
  (hsound : stream.transform.Sound) (hmode : context.mode.isStream = false)
  (hpadding : context.padding = true)

include hfits hsound hmode hpadding

theorem length_encoded (hdirection : stream.direction = .encode) (data : Bytes) :
    ∃ last, context.lastOutput (context.after stream data) = .ok last ∧
      (context.outputOf stream data ++ last).length =
        context.blockSize * (data.length / context.blockSize + 1) := by
  obtain ⟨last, hlast, hjoined⟩ := lastOutput_encode hfits hmode hpadding hdirection data
  have hwhole := Padding.dvd_length_padded context.blockSize_pos data
  refine ⟨last, hlast, ?_⟩
  rw [hjoined, Transform.length_apply hsound (hfits _ (.inr hwhole)),
    Padding.length_padded context.blockSize_pos]

/-- Decryption removes at least one byte of padding and at most a block. -/
theorem length_decoded (hdirection : stream.direction = .decode) {data last : Bytes}
    (hlast : context.lastOutput (context.after stream data) = .ok last) :
    data.length ≤ (context.outputOf stream data ++ last).length + context.blockSize ∧
      (context.outputOf stream data ++ last).length < data.length := by
  have hdata : data ≠ [] := by
    rintro rfl
    rw [lastOutput_decode_nil hmode hpadding hdirection] at hlast
    cases hlast
  have hwhole : context.blockSize ∣ data.length := by
    by_contra hpartial
    rw [lastOutput_decode_partial hmode hpadding hdirection hpartial] at hlast
    cases hlast
  obtain ⟨block, hblock, happly, hinvalid, hvalid⟩ :=
    exists_last_block hfits hsound hmode hpadding hdirection hdata hwhole
  have hlength := congrArg List.length happly
  rw [Transform.length_apply hsound (hfits _ (.inr hwhole)), List.length_append] at hlength
  have hsmall : block.length ≤ 255 := by
    have hsize : context.blockSize ≤ 16 := context.algorithm.blockSize_le
    omega
  cases hcontent : Padding.contentLength? block with
  | none =>
    rw [hinvalid hcontent] at hlast
    cases hlast
  | some length =>
    rw [hvalid length hcontent] at hlast
    cases hlast
    have hshort := ((Padding.contentLength?_eq_some_iff hsmall).1 hcontent).1
    rw [List.length_append, List.length_take]
    omega

end Ending

/-- The end of a stream succeeds with what it gives out, or gives out nothing. -/
theorem turn_finalize_cases {stream : CipherStream} (hactive : context.lifecycle = .active stream) :
    (∃ last, context.lastOutput stream = .ok last ∧ (context.turn .finalize).Succeeds ∧
        (context.turn .finalize).given = last) ∨
      (∃ error, context.lastOutput stream = .error error) ∧
        ¬ (context.turn .finalize).Succeeds ∧ (context.turn .finalize).given = [] := by
  cases hresult : context.lastOutput stream with
  | ok last =>
    rw [turn_finalize_of_ok hactive hresult]
    exact .inl ⟨last, rfl, ⟨⟨last, rfl⟩, rfl⟩, rfl⟩
  | error error =>
    refine .inr ⟨⟨error, rfl⟩, ?_⟩
    rw [turn_finalize_of_active hactive, hresult]
    cases hpolicy : context.policy with
    | strict =>
      rw [report_strict hpolicy]
      refine ⟨?_, rfl⟩
      rintro ⟨⟨out, hout⟩, -⟩
      cases hout
    | logAndContinue =>
      rw [report_lenient hpolicy]
      refine ⟨?_, rfl⟩
      rintro ⟨-, hsilent⟩
      cases hsilent

/-! ## The schedule -/

/-- What a stream has given out after some data in any pieces, and what its end adds. -/
structure OnSchedule (context : CipherContext) (direction : Direction) (key iv data : Bytes)
    (outs : List Bytes) (ending : CipherTurn) : Prop where
  total : outs.flatten.length =
    if direction = .decode ∧ context.padding = true then
      if data.length = 0 then 0
      else context.blockSize * (data.length ⌈/⌉ context.blockSize - 1)
    else context.blockSize * (data.length / context.blockSize)
  each : ∀ out ∈ outs, context.blockSize ∣ out.length
  earliest : IsGreatest {count | context.MayRelease direction data.length count}
    outs.flatten.length
  /-- The block that is last so far takes no part in what is out. -/
  withheld : direction = .decode ∧ context.padding = true → data ≠ [] →
    ∃ before last, data = before ++ last ∧ context.blockSize ∣ before.length ∧
      1 ≤ last.length ∧ last.length ≤ context.blockSize ∧
      outs.flatten = context.standard direction key iv before
  failing : ¬ ending.Succeeds → ending.given = []
  encoded : context.padding = true → direction = .encode →
    ending.Succeeds ∧ outs.flatten.length + ending.given.length =
      context.blockSize * (data.length / context.blockSize + 1)
  decoded : context.padding = true → direction = .decode → ending.Succeeds →
    data.length ≤ outs.flatten.length + ending.given.length + context.blockSize ∧
      outs.flatten.length + ending.given.length < data.length

section Schedule

variable (hmode : context.mode.isStream = false)
  (hiv : context.mode.usesIv = true → iv.length = context.blockSize)

include hmode

theorem length_released (direction : Direction) (total : Nat) :
    context.handedOver direction total =
      if direction = .decode ∧ context.padding = true then
        if total = 0 then 0 else context.blockSize * (total ⌈/⌉ context.blockSize - 1)
      else context.blockSize * (total / context.blockSize) := by
  split
  · next hholds =>
    split
    · next hnone =>
      have hle := context.handedOver_le direction total
      omega
    · exact handedOver_of_withholds hmode hholds total
  · next hpasses => exact handedOver_of_not_withholds hmode hpasses total

theorem outputOf_eq_standard_of_withholds (hholds : context.Withholds direction) {data : Bytes}
    (hdata : data ≠ []) :
    ∃ before last, data = before ++ last ∧ context.blockSize ∣ before.length ∧
      1 ≤ last.length ∧ last.length ≤ context.blockSize ∧
      context.outputOf (context.startStream direction key iv) data =
        context.standard direction key iv before := by
  have hsum := handedOver_add_heldLength hmode direction data.length
  have hheld := heldLength_pos hholds (List.length_pos_iff.2 hdata)
  have hblock := context.heldLength_le_blockSize direction data.length
  refine ⟨data.take (context.handedOver direction data.length),
    data.drop (context.handedOver direction data.length), (List.take_append_drop _ _).symm, ?_, ?_,
    ?_, outputOf_eq_standard hmode data⟩
  · rw [List.length_take, Nat.min_eq_left (context.handedOver_le _ _)]
    exact dvd_handedOver hmode direction data.length
  · rw [List.length_drop]
    omega
  · rw [List.length_drop]
    omega

include hiv

theorem dvd_length_of_continues {piece out : Bytes}
    (hcontinues : context.Continues direction key iv piece out) :
    context.blockSize ∣ out.length := by
  obtain ⟨total, hlength⟩ := length_of_continues hiv hcontinues
  have hboth := dvd_handedOver hmode direction (total + piece.length)
  rw [← hlength] at hboth
  exact (Nat.dvd_add_right (dvd_handedOver hmode direction total)).1 hboth

theorem onSchedule_fed {data : Bytes} {outs : List Bytes}
    (houts : outs.flatten = context.outputOf (context.startStream direction key iv) data)
    (heach : ∀ out ∈ outs, context.blockSize ∣ out.length) :
    context.OnSchedule direction key iv data outs
      ((context.fed direction key iv data).turn .finalize) := by
  have hfits (message : Bytes) (hwhole : context.Whole message) :
      (context.startStream direction key iv).transform.Takes message :=
    (takes_startTransform_iff context direction key iv message).2 hwhole
  have hsound : (context.startStream direction key iv).transform.Sound :=
    sound_startTransform direction key hiv
  have hlength : outs.flatten.length = context.handedOver direction data.length := by
    rw [houts]
    exact length_outputOf hfits hsound data
  have hending := @turn_finalize_cases (context.fed direction key iv data) _ rfl
  have hsame : (context.fed direction key iv data).lastOutput
      (context.after (context.startStream direction key iv) data) =
        context.lastOutput (context.after (context.startStream direction key iv) data) := rfl
  rw [hsame] at hending
  constructor
  · rw [hlength, length_released hmode]
  · exact heach
  · rw [hlength]
    exact isGreatest_handedOver hmode direction data.length
  · intro hholds hdata
    rw [houts]
    exact outputOf_eq_standard_of_withholds hmode hholds hdata
  · intro hfails
    rcases hending with ⟨last, -, hsucceeds, -⟩ | ⟨-, -, hgiven⟩
    · exact absurd hsucceeds hfails
    · exact hgiven
  · rintro hpadding rfl
    obtain ⟨out, hout, hjoined⟩ := length_encoded hfits hsound hmode hpadding rfl data
    rcases hending with ⟨last, hlast, hsucceeds, hgiven⟩ | ⟨⟨error, herror⟩, -⟩
    · rw [hout, Except.ok.injEq] at hlast
      rw [hgiven, ← hlast, houts, ← List.length_append]
      exact ⟨hsucceeds, hjoined⟩
    · rw [hout] at herror
      cases herror
  · rintro hpadding rfl hsucceeds
    rcases hending with ⟨last, hlast, -, hgiven⟩ | ⟨-, hfails, -⟩
    · rw [hgiven, houts, ← List.length_append]
      exact length_decoded hfits hsound hmode hpadding rfl hlast
    · exact absurd hsucceeds hfails

end Schedule

/-- A context that has been set up in a block mode takes any pieces and keeps to its schedule,
under any policy. -/
theorem released_on_schedule {context ready : CipherContext} {direction : Direction}
    {key iv : Bytes} (hmode : context.mode.isStream = false)
    (hready : (context.setup direction key iv).value = (.ok (), ready)) (pieces : List Bytes) :
    ∃ outs : List Bytes,
      (ready.turns (pieces.map .update)).map CipherTurn.answer =
        outs.map (fun out ↦ .output (.ok out)) ∧
      outs.length = pieces.length ∧
      context.OnSchedule direction key iv pieces.flatten outs
        ((ready.afterCalls (pieces.map .update)).turn .finalize) := by
  obtain ⟨rfl, hiv⟩ := eq_started_of_setup hready
  obtain ⟨outs, hanswers, hafter, hcontinue, hjoined⟩ :=
    turns_updates_started context direction key iv pieces
  refine ⟨outs, hanswers, hcontinue.length_eq.symm, ?_⟩
  rw [hafter]
  have heach : List.Forall₂ (fun out piece ↦ context.blockSize ∣ out.length ∧
      context.Continues direction key iv piece out) outs pieces :=
    hcontinue.flip.imp fun _ _ hcontinues ↦
      ⟨dvd_length_of_continues hmode hiv hcontinues, hcontinues⟩
  exact onSchedule_fed hmode hiv hjoined ((List.forall₂_and_left outs pieces).1 heach).1

/-- Two blocks of DES ciphertext in three pieces: one block is out before the end, and what comes
out in all is shorter than the ciphertext whenever the padding is valid. -/
theorem released_on_schedule_des_cbc_sixteen_bytes :
    ∃ ready, ((CipherContext.new .desCbcPkcs7 .des .cbc true).setup .decode
        (List.replicate 8 0x31) (List.replicate 8 0)).value = (.ok (), ready) ∧
      ∃ outs : List Bytes,
        (ready.turns [.update [1, 2, 3], .update (List.replicate 12 7), .update [9]]).map
            CipherTurn.answer = outs.map (fun out ↦ .output (.ok out)) ∧
        outs.flatten.length = 8 ∧
        (((ready.afterCalls [.update [1, 2, 3], .update (List.replicate 12 7),
            .update [9]]).turn .finalize).Succeeds →
          outs.flatten.length + ((ready.afterCalls [.update [1, 2, 3],
            .update (List.replicate 12 7), .update [9]]).turn .finalize).given.length < 16) := by
  have hready : ((CipherContext.new .desCbcPkcs7 .des .cbc true).setup .decode
      (List.replicate 8 0x31) (List.replicate 8 0)).value =
        (.ok (), (CipherContext.new .desCbcPkcs7 .des .cbc true).started .decode
          (List.replicate 8 0x31) (List.replicate 8 0)) := setup_eq_ok rfl (by decide) (by decide)
  obtain ⟨outs, hanswers, -, hschedule⟩ :=
    released_on_schedule rfl hready [[1, 2, 3], List.replicate 12 7, [9]]
  exact ⟨_, hready, outs, hanswers, hschedule.total, fun hsucceeds ↦
    (hschedule.decoded rfl rfl hsucceeds).2⟩

end CipherContext

end StreamCrypto
