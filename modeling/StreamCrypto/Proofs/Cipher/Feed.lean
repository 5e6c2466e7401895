import StreamCrypto.Proofs.Cipher.Setup
import StreamCrypto.Proofs.Padding

/-!
# Feeding a stream piece by piece

How much of a stream has been transformed depends only on how long it is: all but what
`heldLength` says of the whole length (`heldLength_add`). So the state of a stream after any
pieces is the one after their concatenation in one piece: `advance_after` for one more piece,
`feed_eq` for any number of them.
-/

namespace StreamCrypto.CipherContext

/-- Takes pieces of data one after the other: their outputs, joined, and the context after the
last of them, unless one of them fails. -/
def feed (context : CipherContext) : List Bytes → Except Error (Bytes × CipherContext)
  | [] => .ok ([], context)
  | piece :: pieces =>
    match context.update piece with
    | (.error error, _) => .error error
    | (.ok out, next) => (next.feed pieces).map fun (outs, last) ↦ (out ++ outs, last)

/-- A whole stream, from setting up to ending: the output of all calls, if all of them succeed. -/
def run (context : CipherContext) (direction : Direction) (key iv : Bytes)
    (pieces : List Bytes) : Except Error Bytes := do
  let (result, ready) := (context.setup direction key iv).value
  result
  let (outs, fed) ← ready.feed pieces
  let last ← fed.finalize.value.1
  pure (outs ++ last)

theorem update_of_active {context : CipherContext} {stream : CipherStream}
    (hactive : context.lifecycle = .active stream) (input : Bytes) :
    context.update input = (.ok (context.advance stream input).1,
      { context with lifecycle := .active (context.advance stream input).2 }) := by
  unfold update
  rw [hactive]

/-! ## Bytes that are held back -/

/-- The last whole block is held back, even if nothing follows it. -/
def Withholds (context : CipherContext) (direction : Direction) : Prop :=
  direction = .decode ∧ context.padding = true

variable {context : CipherContext} {direction : Direction}

theorem blockSize_pos (context : CipherContext) : 0 < context.blockSize :=
  context.algorithm.blockSize_pos

theorem heldLength_of_not_withholds (hpasses : ¬ context.Withholds direction) (total : Nat) :
    context.heldLength direction total = total % context.blockSize :=
  if_neg fun h ↦ hpasses ⟨h.1, h.2.1⟩

theorem heldLength_of_not_dvd {total : Nat} (hpartial : total % context.blockSize ≠ 0) :
    context.heldLength direction total = total % context.blockSize :=
  if_neg fun h ↦ hpartial h.2.2

theorem heldLength_of_dvd (hholds : context.Withholds direction) {total : Nat}
    (hwhole : total % context.blockSize = 0) :
    context.heldLength direction total = min total context.blockSize :=
  if_pos ⟨hholds.1, hholds.2, hwhole⟩

theorem heldLength_le (context : CipherContext) (direction : Direction) (total : Nat) :
    context.heldLength direction total ≤ total := by
  simp only [heldLength]
  split
  · exact Nat.min_le_left _ _
  · exact Nat.mod_le _ _

theorem heldLength_lt (hpasses : ¬ context.Withholds direction) (total : Nat) :
    context.heldLength direction total < context.blockSize := by
  rw [heldLength_of_not_withholds hpasses]
  exact Nat.mod_lt _ context.blockSize_pos

/-- There is never more to keep than one block. -/
theorem heldLength_le_blockSize (context : CipherContext) (direction : Direction) (total : Nat) :
    context.heldLength direction total ≤ context.blockSize := by
  simp only [heldLength]
  split
  · exact Nat.min_le_right _ _
  · exact Nat.le_of_lt (Nat.mod_lt _ context.blockSize_pos)

/-- What is handed over is a whole number of blocks. -/
theorem dvd_sub_heldLength (context : CipherContext) (direction : Direction) (total : Nat) :
    context.blockSize ∣ total - context.heldLength direction total := by
  simp only [heldLength]
  split
  · next h =>
    rcases Nat.le_total total context.blockSize with hle | hle
    · rw [Nat.min_eq_left hle, Nat.sub_self]
      exact Nat.dvd_zero _
    · rw [Nat.min_eq_right hle]
      exact Nat.dvd_sub (Nat.dvd_of_mod_eq_zero h.2.2) (Nat.dvd_refl _)
  · exact Nat.dvd_sub_mod _

/-- A stream that withholds keeps something back as soon as there is anything. -/
theorem heldLength_pos (hholds : context.Withholds direction) {total : Nat} (hpos : 0 < total) :
    0 < context.heldLength direction total := by
  by_cases hwhole : total % context.blockSize = 0
  · rw [heldLength_of_dvd hholds hwhole]
    exact Nat.lt_min.2 ⟨hpos, context.blockSize_pos⟩
  · rw [heldLength_of_not_dvd hwhole]
    exact Nat.pos_of_ne_zero hwhole

/-- Bytes that come later are held back as if nothing had been handed over before. -/
theorem heldLength_add (context : CipherContext) (direction : Direction) (total more : Nat) :
    context.heldLength direction (context.heldLength direction total + more) =
      context.heldLength direction (total + more) := by
  obtain ⟨count, hcount⟩ := context.dvd_sub_heldLength direction total
  have hle := context.heldLength_le direction total
  generalize hheld : context.heldLength direction total = held at hcount hle ⊢
  obtain rfl : total = context.blockSize * count + held := by omega
  have hmod : (context.blockSize * count + held + more) % context.blockSize =
      (held + more) % context.blockSize := by
    rw [Nat.add_assoc, Nat.mul_add_mod]
  by_cases hholds : context.Withholds direction
  · by_cases hwhole : (held + more) % context.blockSize = 0
    · rw [heldLength_of_dvd hholds hwhole, heldLength_of_dvd hholds (hmod.trans hwhole)]
      rcases Nat.eq_zero_or_pos count with rfl | hcountPos
      · rw [Nat.mul_zero, Nat.zero_add]
      · -- Something was handed over, so something is held, and with what comes it fills a block.
        have htotal := Nat.mul_pos context.blockSize_pos hcountPos
        have hheldPos := heldLength_pos hholds (Nat.add_pos_left htotal held)
        rw [hheld] at hheldPos
        have hblock := Nat.le_of_dvd (Nat.add_pos_left hheldPos more)
          (Nat.dvd_of_mod_eq_zero hwhole)
        rw [Nat.min_eq_right hblock, Nat.min_eq_right (by omega)]
    · rw [heldLength_of_not_dvd hwhole, heldLength_of_not_dvd (hmod ▸ hwhole), hmod]
  · rw [heldLength_of_not_withholds hholds, heldLength_of_not_withholds hholds, hmod]

/-! ## The state after some data -/

/-- How many of the first `total` bytes of a stream have been transformed. -/
def handedOver (context : CipherContext) (direction : Direction) (total : Nat) : Nat :=
  if context.mode.isStream = true then total else total - context.heldLength direction total

/-- Data that the transform of a context can take: any in a stream mode, else whole blocks. -/
def Whole (context : CipherContext) (data : Bytes) : Prop :=
  context.mode.isStream = true ∨ context.blockSize ∣ data.length

/-- What a stream has returned for its first bytes. -/
def outputOf (context : CipherContext) (stream : CipherStream) (data : Bytes) : Bytes :=
  (stream.transform.apply (data.take (context.handedOver stream.direction data.length))).1

/-- The stream after its first bytes. -/
def after (context : CipherContext) (stream : CipherStream) (data : Bytes) : CipherStream :=
  { stream with
    transform :=
      (stream.transform.apply (data.take (context.handedOver stream.direction data.length))).2
    pending := data.drop (context.handedOver stream.direction data.length) }

theorem handedOver_le (context : CipherContext) (direction : Direction) (total : Nat) :
    context.handedOver direction total ≤ total := by
  unfold handedOver
  split
  · exact Nat.le_refl _
  · exact Nat.sub_le _ _

theorem whole_take_handedOver (context : CipherContext) (direction : Direction) (data : Bytes) :
    context.Whole (data.take (context.handedOver direction data.length)) := by
  by_cases hmode : context.mode.isStream = true
  · exact .inl hmode
  · refine .inr ?_
    rw [List.length_take, Nat.min_eq_left (context.handedOver_le direction data.length),
      handedOver, if_neg hmode]
    exact context.dvd_sub_heldLength direction data.length

theorem after_nil (context : CipherContext) {stream : CipherStream}
    (hpending : stream.pending = []) : context.after stream [] = stream := by
  cases stream
  cases hpending
  simp [after]

/-- What is handed over for the next piece, counted in bytes that were not handed over yet. -/
theorem handedOver_add (direction : Direction) (hmode : context.mode.isStream = false)
    (total more : Nat) :
    context.handedOver direction (total + more) = context.handedOver direction total +
      (total - context.handedOver direction total + more -
        context.heldLength direction (total - context.handedOver direction total + more)) := by
  have hle := context.heldLength_le direction total
  have hnext := context.heldLength_le direction (context.heldLength direction total + more)
  have hmore := context.heldLength_add direction total more
  simp only [handedOver, hmode, Bool.false_eq_true, if_false]
  rw [Nat.sub_sub_self hle, ← hmore]
  omega

/-- One piece of data: the stream moves on from its state after some data to its state after
that data and the piece, and returns what is new in the output. -/
theorem advance_after (stream : CipherStream)
    (hfits : ∀ data, context.Whole data → stream.transform.Takes data) (data input : Bytes) :
    context.advance (context.after stream data) input =
        ((context.advance (context.after stream data) input).1,
          context.after stream (data ++ input)) ∧
      context.outputOf stream data ++ (context.advance (context.after stream data) input).1 =
        context.outputOf stream (data ++ input) := by
  have htakes := hfits _ (context.whole_take_handedOver stream.direction data)
  cases hmode : context.mode.isStream with
  | true =>
    have hall (total : Nat) : context.handedOver stream.direction total = total := if_pos hmode
    simp only [after, hall, List.take_length] at htakes ⊢
    have happend := stream.transform.apply_append htakes input
    simp only [advance, hmode, if_true, outputOf, hall, List.take_length, happend,
      List.drop_length, and_self]
  | false =>
    have hsum := handedOver_add stream.direction hmode data.length input.length
    have hle := context.handedOver_le stream.direction data.length
    simp only [after, outputOf, List.length_append, hsum] at htakes ⊢
    generalize context.handedOver stream.direction data.length = first at htakes hle hsum ⊢
    -- The new data is handed over from where the old data stopped.
    have htake (count : Nat) : (data ++ input).take (first + count) =
        data.take first ++ (data.drop first ++ input).take count := by
      rw [List.take_add, List.take_append_of_le_length hle, List.drop_append_of_le_length hle]
    have hdrop (count : Nat) : (data ++ input).drop (first + count) =
        (data.drop first ++ input).drop count := by
      rw [← List.drop_drop, List.drop_append_of_le_length hle]
    have happend (piece : Bytes) := stream.transform.apply_append htakes piece
    simp only [advance, hmode, Bool.false_eq_true, if_false, htake, hdrop, happend,
      List.length_append, List.length_drop, and_self]

/-- Any pieces: all of them are taken, and they leave what their concatenation leaves. -/
theorem feed_eq (context : CipherContext) (stream : CipherStream)
    (hfits : ∀ data, context.Whole data → stream.transform.Takes data) (data : Bytes)
    (pieces : List Bytes) :
    ∃ outs, { context with lifecycle := .active (context.after stream data) }.feed pieces =
        .ok (outs, { context with
          lifecycle := .active (context.after stream (data ++ pieces.flatten)) }) ∧
      context.outputOf stream data ++ outs = context.outputOf stream (data ++ pieces.flatten) := by
  induction pieces generalizing data with
  | nil => exact ⟨[], by simp [feed]⟩
  | cons piece pieces ih =>
    obtain ⟨hstep, hout⟩ := advance_after stream hfits data piece
    obtain ⟨outs, hrest, hjoined⟩ := ih (data ++ piece)
    refine ⟨(context.advance (context.after stream data) piece).1 ++ outs, ?_, ?_⟩
    · have hupdate : { context with lifecycle := .active (context.after stream data) }.update
          piece = (.ok (context.advance (context.after stream data) piece).1,
            { context with lifecycle := .active (context.after stream (data ++ piece)) }) := by
        have hlocal : { context with lifecycle := .active (context.after stream data) }.advance
            (context.after stream data) piece =
              context.advance (context.after stream data) piece := rfl
        rw [update_of_active rfl, hlocal, hstep]
      simp only [feed, hupdate, hrest, Except.map, List.flatten_cons, List.append_assoc]
    · rw [← List.append_assoc, hout, hjoined, List.flatten_cons, List.append_assoc]

/-- What a context takes for whole, its transform takes. -/
theorem takes_startTransform_iff (context : CipherContext) (direction : Direction)
    (key iv data : Bytes) :
    (context.startTransform direction key iv).Takes data ↔ context.Whole data := by
  rw [startTransform, Transform.takes_start_iff, CipherAlgorithm.blockSize_keyed]
  rfl

/-- A context that has been set up and then given some data. -/
def fed (context : CipherContext) (direction : Direction) (key iv data : Bytes) : CipherContext :=
  { context.started direction key iv with
    lifecycle := .active (context.after (context.startStream direction key iv) data) }

theorem feed_started (context : CipherContext) (direction : Direction) (key iv : Bytes)
    (pieces : List Bytes) :
    (context.started direction key iv).feed pieces =
      .ok (context.outputOf (context.startStream direction key iv) pieces.flatten,
        context.fed direction key iv pieces.flatten) := by
  obtain ⟨outs, hfeed, hjoined⟩ := feed_eq (context.started direction key iv)
    (context.startStream direction key iv)
    (fun data ↦ (takes_startTransform_iff context direction key iv data).2) [] pieces
  rw [after_nil _ rfl] at hfeed
  have houts : context.outputOf (context.startStream direction key iv) [] = [] := by
    simp [outputOf]
  have hjoined : context.outputOf (context.startStream direction key iv) [] ++ outs =
      context.outputOf (context.startStream direction key iv) pieces.flatten := hjoined
  rw [houts, List.nil_append] at hjoined
  rw [← hjoined]
  exact hfeed

end StreamCrypto.CipherContext
