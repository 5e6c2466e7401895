import Mathlib.Data.List.Forall2
import StreamCrypto.Proofs.Cipher.Calls

/-!
# Runs of updates

A context that has been set up takes any number of pieces of data. No piece is refused, and each one
moves the context on from what it is after the data so far to what it is after that data and the
piece (`turn_update_fed`); its output continues the output so far. So the outputs of a run, joined,
are those of its pieces, joined (`turns_updates_fed`). Everything here holds in every mode.
-/

namespace StreamCrypto

namespace CipherContext

variable {context : CipherContext} {direction : Direction} {key iv : Bytes}

/-- What a call to set up has done if it succeeded. -/
theorem eq_started_of_setup {ready : CipherContext}
    (hready : (context.setup direction key iv).value = (.ok (), ready)) :
    ready = context.started direction key iv ∧
      (context.mode.usesIv = true → iv.length = context.blockSize) := by
  have hsetup := context.setup_setsUp direction key iv
  generalize context.setup direction key iv = outcome at hsetup hready
  cases hsetup with
  | active => cases hready
  | keyRejected => cases hready
  | ivRejected => cases hready
  | accepted _ _ hiv =>
    cases hready
    exact ⟨rfl, hiv⟩

/-- No data has been given to a context that has just been set up. -/
theorem started_eq_fed (context : CipherContext) (direction : Direction) (key iv : Bytes) :
    context.started direction key iv = context.fed direction key iv [] := by
  rw [fed, after_nil context rfl, started]

/-- One more piece of data for a context that has been fed some. -/
theorem turn_update_fed (context : CipherContext) (direction : Direction)
    (key iv data piece : Bytes) :
    ∃ out, (context.fed direction key iv data).turn (.update piece) =
        ⟨context.fed direction key iv data, .update piece, .output (.ok out), [],
          context.fed direction key iv (data ++ piece)⟩ ∧
      context.outputOf (context.startStream direction key iv) data ++ out =
        context.outputOf (context.startStream direction key iv) (data ++ piece) := by
  obtain ⟨hstep, hout⟩ := advance_after (context.startStream direction key iv)
    (fun data ↦ (takes_startTransform_iff context direction key iv data).2) data piece
  have hlocal : (context.fed direction key iv data).advance
      (context.after (context.startStream direction key iv) data) piece =
        context.advance (context.after (context.startStream direction key iv) data) piece := rfl
  refine ⟨_, ?_, hout⟩
  rw [turn_update_of_active rfl, hlocal, hstep]
  rfl

/-- `out` is what a context that has been set up returns for `piece` at some point. -/
def Continues (context : CipherContext) (direction : Direction) (key iv piece out : Bytes) : Prop :=
  ∃ data, context.outputOf (context.startStream direction key iv) data ++ out =
    context.outputOf (context.startStream direction key iv) (data ++ piece)

/-- Any pieces of data are taken, and their outputs continue the output so far. -/
theorem turns_updates_fed (context : CipherContext) (direction : Direction) (key iv data : Bytes)
    (pieces : List Bytes) :
    ∃ outs : List Bytes,
      ((context.fed direction key iv data).turns (pieces.map .update)).map CipherTurn.answer =
        outs.map (fun out ↦ .output (.ok out)) ∧
      (context.fed direction key iv data).afterCalls (pieces.map .update) =
        context.fed direction key iv (data ++ pieces.flatten) ∧
      List.Forall₂ (context.Continues direction key iv) pieces outs ∧
      context.outputOf (context.startStream direction key iv) data ++ outs.flatten =
        context.outputOf (context.startStream direction key iv) (data ++ pieces.flatten) := by
  induction pieces generalizing data with
  | nil => exact ⟨[], rfl, by simp [afterCalls], .nil, by simp⟩
  | cons piece pieces ih =>
    obtain ⟨out, hturn, hout⟩ := turn_update_fed context direction key iv data piece
    obtain ⟨outs, hanswers, hafter, hcontinue, hjoined⟩ := ih (data ++ piece)
    refine ⟨out :: outs, ?_, ?_, .cons ⟨data, hout⟩ hcontinue, ?_⟩
    · simp only [List.map_cons, turns, hturn, hanswers]
    · simp only [List.map_cons, afterCalls, hturn, hafter, List.flatten_cons, List.append_assoc]
    · rw [List.flatten_cons, ← List.append_assoc, hout, hjoined, List.flatten_cons,
        List.append_assoc]

/-- The same from the beginning. -/
theorem turns_updates_started (context : CipherContext) (direction : Direction) (key iv : Bytes)
    (pieces : List Bytes) :
    ∃ outs : List Bytes,
      ((context.started direction key iv).turns (pieces.map .update)).map CipherTurn.answer =
        outs.map (fun out ↦ .output (.ok out)) ∧
      (context.started direction key iv).afterCalls (pieces.map .update) =
        context.fed direction key iv pieces.flatten ∧
      List.Forall₂ (context.Continues direction key iv) pieces outs ∧
      outs.flatten = context.outputOf (context.startStream direction key iv) pieces.flatten := by
  have houts : context.outputOf (context.startStream direction key iv) [] = [] := by
    simp [outputOf]
  have hfed := turns_updates_fed context direction key iv [] pieces
  rwa [houts, ← started_eq_fed] at hfed

/-- How much a piece returns is how much further the stream has got with handing over. -/
theorem length_of_continues
    (hiv : context.mode.usesIv = true → iv.length = context.blockSize) {piece out : Bytes}
    (hcontinues : context.Continues direction key iv piece out) :
    ∃ total, context.handedOver direction total + out.length =
      context.handedOver direction (total + piece.length) := by
  have hsound : (context.startStream direction key iv).transform.Sound :=
    sound_startTransform direction key hiv
  have hlength (data : Bytes) :
      (context.outputOf (context.startStream direction key iv) data).length =
        context.handedOver direction data.length :=
    length_outputOf (fun data ↦ (takes_startTransform_iff context direction key iv data).2)
      hsound data
  obtain ⟨data, hout⟩ := hcontinues
  refine ⟨data.length, ?_⟩
  have htotal := congrArg List.length hout
  rwa [List.length_append, hlength, hlength, List.length_append] at htotal

end CipherContext

end StreamCrypto
