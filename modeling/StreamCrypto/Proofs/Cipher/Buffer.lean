import Mathlib.Data.Nat.PSub
import StreamCrypto.Proofs.Cipher.Updates

/-!
# Streams in fixed buffers

A stream needs room for one block only: what it has not handed over yet stays at the beginning of a
buffer of that length, and what it hands over is copied together from that buffer and the new data.
Here every slice, copy and subtraction on the way is checked, and there is no result if one of them
is out of bounds. On any pieces of data all of them are in bounds (`advance?_of_holds`,
`finish?_of_holds`), and the stream returns what a context returns that keeps its pending bytes in a
list of their own. What the transform is given is always whole blocks in ECB and CBC, so it never
leaves a partial block as it is (`buffered_run_in_bounds`).
-/

namespace StreamCrypto

/-! ## Checked access -/

namespace Bytes

/-- The bytes from `start` up to `stop`, if there are so many. -/
def slice? (data : Bytes) (start stop : Nat) : Option Bytes :=
  if start ≤ stop ∧ stop ≤ data.length then some ((data.take stop).drop start) else none

/-- Copies `source` over the bytes from `start` up to `stop`, if there are so many in both. -/
def overwrite? (data : Bytes) (start stop : Nat) (source : Bytes) : Option Bytes := do
  let old ← data.slice? start stop
  if old.length = source.length then some (data.take start ++ source ++ data.drop stop) else none

/-- Sets all bytes from `start` on, if there is such a place. -/
def fillFrom? (data : Bytes) (start : Nat) (byte : UInt8) : Option Bytes := do
  let old ← data.slice? start data.length
  some (data.take start ++ List.replicate old.length byte)

variable {data source : Bytes} {start stop : Nat}

theorem slice?_eq (hordered : start ≤ stop) (hinside : stop ≤ data.length) :
    data.slice? start stop = some ((data.take stop).drop start) :=
  if_pos ⟨hordered, hinside⟩

theorem overwrite?_eq (hordered : start ≤ stop) (hinside : stop ≤ data.length)
    (hsource : source.length = stop - start) :
    data.overwrite? start stop source = some (data.take start ++ source ++ data.drop stop) := by
  have hlength : ((data.take stop).drop start).length = source.length := by
    rw [List.length_drop, List.length_take, Nat.min_eq_left hinside, hsource]
  rw [overwrite?, slice?_eq hordered hinside]
  exact if_pos hlength

theorem fillFrom?_eq (hinside : start ≤ data.length) (byte : UInt8) :
    data.fillFrom? start byte =
      some (data.take start ++ List.replicate (data.length - start) byte) := by
  rw [fillFrom?, slice?_eq hinside (Nat.le_refl _), List.take_length]
  change some (_ ++ List.replicate (data.drop start).length byte) = _
  rw [List.length_drop]

end Bytes

/-- A stream with its pending bytes at the beginning of a buffer. -/
structure BufferedStream where
  direction : Direction
  transform : Transform
  buffer : Bytes
  /-- How many bytes of the buffer are pending. -/
  used : Nat

namespace BufferedStream

def pending (stream : BufferedStream) : Bytes := stream.buffer.take stream.used

/-- The first `count` bytes of what is pending and then new, copied into a buffer of their own. -/
def gather? (stream : BufferedStream) (input : Bytes) (count : Nat) : Option Bytes := do
  let fromPending := min stream.used count
  let front ← stream.buffer.slice? 0 fromPending
  let output ← Bytes.overwrite? (List.replicate count 0) 0 fromPending front
  let fromInput ← count.psub fromPending
  let back ← input.slice? 0 fromInput
  output.overwrite? fromPending count back

/-- The buffer and its use once the first `count` bytes are gone: what is left of it moves to the
beginning, and the rest of the input comes after that. -/
def refill? (stream : BufferedStream) (input : Bytes) (count : Nat) : Option (Bytes × Nat) := do
  let fromPending := min stream.used count
  let fromInput ← count.psub fromPending
  let kept ← stream.used.psub fromPending
  let left ← stream.buffer.slice? fromPending stream.used
  let moved ← stream.buffer.overwrite? 0 kept left
  let rest ← input.slice? fromInput input.length
  let buffer ← moved.overwrite? kept (kept + rest.length) rest
  some (buffer, kept + rest.length)

/-- The last block of a padded message. -/
def lastBlock? (stream : BufferedStream) (blockSize : Nat) : Option Bytes := do
  let count ← blockSize.psub stream.used
  let front ← stream.buffer.slice? 0 stream.used
  let block ← Bytes.overwrite? (List.replicate blockSize 0) 0 stream.used front
  block.fillFrom? stream.used (UInt8.ofNat count)

section Access

variable {stream : BufferedStream} (hused : stream.used ≤ stream.buffer.length)

include hused

theorem length_pending : stream.pending.length = stream.used := by
  rw [pending, List.length_take, Nat.min_eq_left hused]

theorem gather?_eq (input : Bytes) {count : Nat} (henough : count ≤ stream.used + input.length) :
    stream.gather? input count = some ((stream.pending ++ input).take count) := by
  unfold gather?
  generalize hfirst : min stream.used count = first
  have hfront : (stream.buffer.take first).length = first := by
    rw [List.length_take, Nat.min_eq_left (by omega)]
  have hback : (input.take (count - first)).length = count - first := by
    rw [List.length_take, Nat.min_eq_left (by omega)]
  have hcopied : Bytes.overwrite? (List.replicate count 0) 0 first (stream.buffer.take first) =
      some (stream.buffer.take first ++ List.replicate (count - first) 0) := by
    rw [Bytes.overwrite?_eq (Nat.zero_le _) (by rw [List.length_replicate]; omega) hfront,
      List.take_zero, List.nil_append, List.drop_replicate]
  have hfilled : Bytes.overwrite? (stream.buffer.take first ++ List.replicate (count - first) 0)
      first count (input.take (count - first)) =
        some (stream.buffer.take first ++ input.take (count - first)) := by
    have hlength : (stream.buffer.take first ++ List.replicate (count - first) (0 : UInt8)).length =
        count := by
      rw [List.length_append, hfront, List.length_replicate]
      omega
    rw [Bytes.overwrite?_eq (by omega) (Nat.le_of_eq hlength.symm) hback, List.take_left' hfront,
      List.drop_of_length_le (Nat.le_of_eq hlength), List.append_nil]
  have hjoined : stream.buffer.take first ++ input.take (count - first) =
      (stream.pending ++ input).take count := by
    have hrest : count - first = count - stream.used := by omega
    rw [List.take_append, length_pending hused, pending, List.take_take, Nat.min_comm count,
      hfirst, hrest]
  simp only [Bytes.slice?_eq (Nat.zero_le first) (show first ≤ stream.buffer.length by omega),
    Bytes.slice?_eq (Nat.zero_le _) (show count - first ≤ input.length by omega),
    Nat.psub_eq_sub (show first ≤ count by omega), List.drop_zero, Option.bind_eq_bind,
    Option.bind_some, hcopied, hfilled, hjoined]

theorem refill?_eq (input : Bytes) {count : Nat} (henough : count ≤ stream.used + input.length)
    (hroom : stream.used + input.length - count ≤ stream.buffer.length) :
    ∃ buffer, stream.refill? input count = some (buffer, stream.used + input.length - count) ∧
      buffer.length = stream.buffer.length ∧
      buffer.take (stream.used + input.length - count) = (stream.pending ++ input).drop count := by
  unfold refill?
  generalize hfirst : min stream.used count = first
  generalize hleft : stream.pending.drop first = left
  generalize hrest : input.drop (count - first) = rest
  have hkept : left.length = stream.used - first := by
    rw [← hleft, List.length_drop, length_pending hused]
  have hnew : left.length + rest.length = stream.used + input.length - count := by
    rw [hkept, ← hrest, List.length_drop]
    omega
  have hmoved : stream.buffer.overwrite? 0 left.length left =
      some (left ++ stream.buffer.drop left.length) := by
    rw [Bytes.overwrite?_eq (Nat.zero_le _) (by omega) rfl, List.take_zero, List.nil_append]
  have hlength : (left ++ stream.buffer.drop left.length).length = stream.buffer.length := by
    rw [List.length_append, List.length_drop]
    omega
  have hwritten : Bytes.overwrite? (left ++ stream.buffer.drop left.length) left.length
      (left.length + rest.length) rest =
        some (left ++ rest ++
          (left ++ stream.buffer.drop left.length).drop (left.length + rest.length)) := by
    rw [Bytes.overwrite?_eq (by omega) (by omega) (by omega), List.take_left]
  rw [← hnew]
  -- Behind what is pending now, the buffer still has what was there before.
  refine ⟨left ++ rest ++
    (left ++ stream.buffer.drop left.length).drop (left.length + rest.length), ?_, ?_, ?_⟩
  · have hpending : (stream.buffer.take stream.used).drop first = left := hleft
    simp only [Nat.psub_eq_sub (show first ≤ count by omega),
      Nat.psub_eq_sub (show first ≤ stream.used by omega),
      Bytes.slice?_eq (show first ≤ stream.used by omega) hused,
      Bytes.slice?_eq (show count - first ≤ input.length by omega) (Nat.le_refl _),
      List.take_length, hpending, hrest, ← hkept, Option.bind_eq_bind, Option.bind_some, hmoved,
      hwritten]
  · rw [List.length_append, List.length_append, List.length_drop, hlength]
    omega
  -- If more than the old bytes goes, all of them go, and `first` stops at their end.
  · have hgone : stream.pending.drop first = stream.pending.drop count := by
      rcases Nat.le_total count stream.used with hle | hle
      · rw [← hfirst, Nat.min_eq_right hle]
      · have hlength := length_pending hused
        rw [List.drop_of_length_le (by omega), List.drop_of_length_le (by omega)]
    have hunread : count - first = count - stream.used := by omega
    rw [← List.length_append, List.take_left, List.drop_append, length_pending hused, ← hleft,
      ← hrest, hgone, hunread]

theorem lastBlock?_eq {blockSize : Nat} (hroom : stream.used ≤ blockSize) :
    stream.lastBlock? blockSize = some (Padding.pad blockSize stream.pending) := by
  have hlength := length_pending hused
  have hcopied : Bytes.overwrite? (List.replicate blockSize 0) 0 stream.used stream.pending =
      some (stream.pending ++ List.replicate (blockSize - stream.used) 0) := by
    rw [Bytes.overwrite?_eq (Nat.zero_le _) (by rwa [List.length_replicate]) hlength,
      List.take_zero, List.nil_append, List.drop_replicate]
  have hblock : (stream.pending ++ List.replicate (blockSize - stream.used) (0 : UInt8)).length =
      blockSize := by
    rw [List.length_append, hlength, List.length_replicate]
    omega
  have hfilled (byte : UInt8) :
      Bytes.fillFrom? (stream.pending ++ List.replicate (blockSize - stream.used) 0) stream.used
        byte = some (stream.pending ++ List.replicate (blockSize - stream.used) byte) := by
    rw [Bytes.fillFrom?_eq (by omega), hblock, List.take_left' hlength]
  have hfront : stream.buffer.slice? 0 stream.used = some stream.pending := by
    rw [Bytes.slice?_eq (Nat.zero_le _) hused]
    rfl
  rw [lastBlock?, Nat.psub_eq_sub hroom, hfront]
  simp only [Option.bind_eq_bind, Option.bind_some, hcopied, hfilled, Padding.pad, hlength]

end Access

end BufferedStream

/-- What the transform is given at a time, and what it makes of it. -/
structure HandOver where
  input : Bytes
  output : Bytes

/-- How a stream ends: the block that the transform is given, if it is given one, and the result. -/
structure BufferedEnding where
  input : Option Bytes
  result : Except Error Bytes

namespace CipherContext

/-! ## Feeding and ending -/

/-- A stream that has just been set up has an empty buffer of one block. -/
def startBuffered (context : CipherContext) (direction : Direction) (key iv : Bytes) :
    BufferedStream where
  direction := direction
  transform := context.startTransform direction key iv
  buffer := List.replicate context.blockSize 0
  used := 0

/-- The next piece of data. -/
def advance? (context : CipherContext) (stream : BufferedStream) (input : Bytes) :
    Option (HandOver × BufferedStream) :=
  if context.mode.isStream = true then
    let (output, transform) := stream.transform.apply input
    some (⟨input, output⟩, { stream with transform })
  else do
    let total := stream.used + input.length
    let count ← total.psub (context.heldLength stream.direction total)
    let handed ← stream.gather? input count
    let (buffer, used) ← stream.refill? input count
    let (output, transform) := stream.transform.apply handed
    some (⟨handed, output⟩, { stream with transform, buffer, used })

/-- Pieces of data one after the other. -/
def advanceAll? (context : CipherContext) (stream : BufferedStream) :
    List Bytes → Option (List HandOver × BufferedStream)
  | [] => some ([], stream)
  | piece :: pieces => do
    let (first, next) ← context.advance? stream piece
    let (rest, last) ← context.advanceAll? next pieces
    some (first :: rest, last)

/-- The end of the stream. What is cut off the last block of plaintext has to be in that block. -/
def finish? (context : CipherContext) (stream : BufferedStream) : Option BufferedEnding :=
  if context.mode.isStream = true then
    some ⟨none, .ok []⟩
  else if context.padding = false then
    if stream.used ≠ 0 then some ⟨none, .error (.incompleteBlock stream.used context.blockSize)⟩
    else some ⟨none, .ok []⟩
  else
    match stream.direction with
    | .encode => do
      let block ← stream.lastBlock? context.blockSize
      some ⟨some block, .ok (stream.transform.apply block).1⟩
    | .decode =>
      if stream.used ≠ context.blockSize then
        if stream.used = 0 then some ⟨none, .error .invalidPadding⟩
        else some ⟨none, .error (.incompleteBlock stream.used context.blockSize)⟩
      else do
        let block ← stream.buffer.slice? 0 stream.buffer.length
        let content := (stream.transform.apply block).1
        match Padding.contentLength? content with
        | none => some ⟨some block, .error .invalidPadding⟩
        | some length => do
          let kept ← content.slice? 0 length
          some ⟨some block, .ok kept⟩

end CipherContext

/-! ## Standing for a stream -/

/-- The buffered stream holds what the other one holds. -/
structure BufferedStream.Holds (context : CipherContext) (buffered : BufferedStream)
    (stream : CipherStream) : Prop where
  direction : buffered.direction = stream.direction
  transform : buffered.transform = stream.transform
  pending : buffered.pending = stream.pending
  room : buffered.buffer.length = context.blockSize
  used_le : buffered.used ≤ context.blockSize
  /-- In a stream mode nothing is ever pending. -/
  used_stream : context.mode.isStream = true → buffered.used = 0

theorem BufferedStream.Holds.used_le_length {context : CipherContext} {buffered : BufferedStream}
    {stream : CipherStream} (hholds : buffered.Holds context stream) :
    buffered.used ≤ buffered.buffer.length := by
  rw [hholds.room]
  exact hholds.used_le

namespace CipherContext

section Step

variable {context : CipherContext} {buffered : BufferedStream} {stream : CipherStream}
  (hholds : buffered.Holds context stream) (input : Bytes)

include hholds

theorem advance?_of_holds_of_stream (hmode : context.mode.isStream = true) :
    ∃ next, context.advance? buffered input =
        some (⟨input, (context.advance stream input).1⟩, next) ∧
      next.Holds context (context.advance stream input).2 ∧
      input ++ (context.advance stream input).2.pending = stream.pending ++ input := by
  have hadvance : context.advance stream input = ((stream.transform.apply input).1,
      { stream with transform := (stream.transform.apply input).2 }) := if_pos hmode
  have hbuffered : context.advance? buffered input =
      some (⟨input, (buffered.transform.apply input).1⟩,
        { buffered with transform := (buffered.transform.apply input).2 }) := if_pos hmode
  have hnone : stream.pending = [] := by
    rw [← hholds.pending, BufferedStream.pending, hholds.used_stream hmode, List.take_zero]
  rw [hadvance, hbuffered, hholds.transform]
  refine ⟨_, rfl, { hholds with transform := rfl }, ?_⟩
  rw [hnone, List.append_nil, List.nil_append]

theorem advance?_of_holds_of_block (hmode : context.mode.isStream = false) :
    ∃ handed next, context.advance? buffered input =
        some (⟨handed, (context.advance stream input).1⟩, next) ∧
      next.Holds context (context.advance stream input).2 ∧
      handed ++ (context.advance stream input).2.pending = stream.pending ++ input ∧
      context.blockSize ∣ handed.length := by
  have hpending := BufferedStream.length_pending hholds.used_le_length
  generalize hunread : stream.pending ++ input = unread
  have hlength : unread.length = buffered.used + input.length := by
    rw [← hunread, List.length_append, ← hholds.pending, hpending]
  generalize hcount : unread.length - context.heldLength stream.direction unread.length = count
  have hheld := context.heldLength_le stream.direction unread.length
  have hblock := context.heldLength_le_blockSize stream.direction unread.length
  have hadvance : context.advance stream input = ((stream.transform.apply (unread.take count)).1,
      { stream with
        transform := (stream.transform.apply (unread.take count)).2
        pending := unread.drop count }) := by
    rw [← hcount, ← hunread]
    exact if_neg (ne_true_of_eq_false hmode)
  have henough : count ≤ buffered.used + input.length := by omega
  have hroom : buffered.used + input.length - count ≤ buffered.buffer.length := by
    rw [hholds.room]
    omega
  obtain ⟨buffer, hrefill, hbuffer, hrest⟩ :=
    BufferedStream.refill?_eq hholds.used_le_length input henough hroom
  have hgather := BufferedStream.gather?_eq hholds.used_le_length input henough
  rw [hholds.pending, hunread] at hgather hrest
  have hbuffered : context.advance? buffered input =
      some (⟨unread.take count, (buffered.transform.apply (unread.take count)).1⟩,
        ⟨buffered.direction, (buffered.transform.apply (unread.take count)).2, buffer,
          buffered.used + input.length - count⟩) := by
    have htotal : (buffered.used + input.length).psub
        (context.heldLength buffered.direction (buffered.used + input.length)) = some count := by
      rw [← hlength, hholds.direction, Nat.psub_eq_sub hheld, hcount]
    rw [advance?, if_neg (ne_true_of_eq_false hmode)]
    simp only [htotal, hgather, hrefill, Option.bind_eq_bind, Option.bind_some]
  rw [hadvance, hbuffered, hholds.transform]
  refine ⟨_, _, rfl, ?_, List.take_append_drop count unread, ?_⟩
  · exact {
      direction := hholds.direction
      transform := rfl
      pending := hrest
      room := hbuffer.trans hholds.room
      used_le := hroom.trans (Nat.le_of_eq hholds.room)
      used_stream := fun hstream ↦ absurd hstream (ne_true_of_eq_false hmode) }
  · rw [List.length_take, ← hcount, Nat.min_eq_left (Nat.sub_le _ _)]
    exact context.dvd_sub_heldLength stream.direction unread.length

/-- One piece of data is taken within the bounds of the buffer. -/
theorem advance?_of_holds :
    ∃ handed next, context.advance? buffered input =
        some (⟨handed, (context.advance stream input).1⟩, next) ∧
      next.Holds context (context.advance stream input).2 ∧
      handed ++ (context.advance stream input).2.pending = stream.pending ++ input ∧
      context.Whole handed := by
  cases hmode : context.mode.isStream with
  | true =>
    obtain ⟨next, hstep, hnext, hjoined⟩ := advance?_of_holds_of_stream hholds input hmode
    exact ⟨input, next, hstep, hnext, hjoined, .inl hmode⟩
  | false =>
    obtain ⟨handed, next, hstep, hnext, hjoined, hwhole⟩ :=
      advance?_of_holds_of_block hholds input hmode
    exact ⟨handed, next, hstep, hnext, hjoined, .inr hwhole⟩

omit input

theorem length_pending_of_holds : stream.pending.length = buffered.used := by
  rw [← hholds.pending, BufferedStream.length_pending hholds.used_le_length]

theorem finish?_unpadded (hmode : context.mode.isStream = false)
    (hpadding : context.padding = false) :
    context.finish? buffered = some ⟨none, context.lastOutput stream⟩ := by
  rw [lastOutput_unpadded_eq hmode hpadding, length_pending_of_holds hholds, finish?,
    if_neg (ne_true_of_eq_false hmode), if_pos hpadding]
  by_cases hnone : buffered.used = 0
  · rw [if_neg (not_not_intro hnone), if_pos hnone]
  · rw [if_pos hnone, if_neg hnone]

theorem finish?_encode (hmode : context.mode.isStream = false) (hpadding : context.padding = true)
    (hencode : stream.direction = .encode) :
    context.finish? buffered =
      some ⟨some (Padding.pad context.blockSize stream.pending), context.lastOutput stream⟩ := by
  have hblock := BufferedStream.lastBlock?_eq hholds.used_le_length hholds.used_le
  rw [hholds.pending] at hblock
  rw [lastOutput_encode_eq hmode hpadding hencode, finish?, if_neg (ne_true_of_eq_false hmode),
    if_neg (ne_false_of_eq_true hpadding), hholds.direction, hencode, hholds.transform]
  simp only [hblock, Option.bind_eq_bind, Option.bind_some]

theorem finish?_decode_partial (hmode : context.mode.isStream = false)
    (hpadding : context.padding = true) (hdecode : stream.direction = .decode)
    (hpartial : buffered.used ≠ context.blockSize) :
    context.finish? buffered = some ⟨none, context.lastOutput stream⟩ := by
  rw [lastOutput_decode_eq hmode hpadding hdecode, length_pending_of_holds hholds, finish?,
    if_neg (ne_true_of_eq_false hmode), if_neg (ne_false_of_eq_true hpadding), hholds.direction,
    hdecode]
  simp only [if_pos hpartial]
  by_cases hnone : buffered.used = 0
  · rw [if_pos hnone, if_pos hnone]
  · rw [if_neg hnone, if_neg hnone]

theorem finish?_decode_whole (hmode : context.mode.isStream = false)
    (hpadding : context.padding = true) (hdecode : stream.direction = .decode)
    (hwhole : buffered.used = context.blockSize) :
    context.finish? buffered = some ⟨some stream.pending, context.lastOutput stream⟩ := by
  have hblock : buffered.buffer.slice? 0 buffered.buffer.length = some stream.pending := by
    rw [Bytes.slice?_eq (Nat.zero_le _) (Nat.le_refl _), ← hholds.pending,
      BufferedStream.pending, hwhole, hholds.room]
    rfl
  rw [lastOutput_decode_eq hmode hpadding hdecode, length_pending_of_holds hholds,
    if_neg (hwhole ▸ context.blockSize_pos.ne'), if_neg (not_not_intro hwhole), finish?,
    if_neg (ne_true_of_eq_false hmode), if_neg (ne_false_of_eq_true hpadding), hholds.direction,
    hdecode, hholds.transform]
  simp only [if_neg (not_not_intro hwhole), hblock, Option.bind_eq_bind, Option.bind_some]
  cases hcontent : Padding.contentLength? (stream.transform.apply stream.pending).1 with
  | none => rfl
  | some count =>
    simp only [Bytes.slice?_eq (Nat.zero_le _) (Padding.contentLength?_le hcontent),
      Option.bind_some, List.drop_zero]

/-- The end is reached within the bounds of the buffer, with a whole block or with none. -/
theorem finish?_of_holds :
    ∃ given, context.finish? buffered = some ⟨given, context.lastOutput stream⟩ ∧
      ∀ block ∈ given, context.Whole block := by
  have hnothing (block : Bytes) (hblock : block ∈ (none : Option Bytes)) : context.Whole block :=
    absurd hblock (Option.not_mem_none block)
  cases hmode : context.mode.isStream with
  | true =>
    have hlast : context.lastOutput stream = .ok [] := if_pos hmode
    rw [hlast]
    exact ⟨none, if_pos hmode, hnothing⟩
  | false =>
    cases hpadding : context.padding with
    | false => exact ⟨none, finish?_unpadded hholds hmode hpadding, hnothing⟩
    | true =>
      cases hdirection : stream.direction with
      | encode =>
        refine ⟨_, finish?_encode hholds hmode hpadding hdirection, ?_⟩
        rintro block ⟨⟩
        have hroom : stream.pending.length ≤ context.blockSize := by
          rw [length_pending_of_holds hholds]
          exact hholds.used_le
        exact .inr ⟨1, by rw [Padding.length_pad hroom, Nat.mul_one]⟩
      | decode =>
        by_cases hwhole : buffered.used = context.blockSize
        · refine ⟨_, finish?_decode_whole hholds hmode hpadding hdirection hwhole, ?_⟩
          rintro block ⟨⟩
          exact .inr ⟨1, by rw [length_pending_of_holds hholds, hwhole, Nat.mul_one]⟩
        · exact ⟨none, finish?_decode_partial hholds hmode hpadding hdirection hwhole, hnothing⟩

end Step

/-! ## Runs -/

/-- What a stream in a buffer has given its transform, what it keeps, and what its end adds. -/
structure WholeHandOvers (context : CipherContext) (direction : Direction) (key iv data : Bytes)
    (handOvers : List HandOver) (last : BufferedStream) (ending : BufferedEnding) : Prop where
  /-- Nothing is lost, doubled or out of order. -/
  joined : (handOvers.map HandOver.input).flatten ++ last.pending = data
  transformed : (handOvers.map HandOver.output).flatten =
    ((context.startTransform direction key iv).apply
      (handOvers.map HandOver.input).flatten).1
  room : last.buffer.length = context.blockSize
  used_lt : context.mode.isStream = false → ¬ context.Withholds direction →
    last.used < context.blockSize
  used_withheld : context.mode.isStream = false → context.Withholds direction →
    last.used ≤ context.blockSize ∧ (data ≠ [] → 1 ≤ last.used)
  used_stream : context.mode.isStream = true → last.used = 0
  whole : context.mode.isStream = false →
    ∀ given ∈ handOvers.map HandOver.input ++ ending.input.toList,
      context.blockSize ∣ given.length ∧ Bytes.partialBlock context.blockSize given = []

section Run

variable {context : CipherContext} {direction : Direction} {key iv : Bytes}

theorem holds_startBuffered (context : CipherContext) (direction : Direction) (key iv : Bytes) :
    (context.startBuffered direction key iv).Holds context
      (context.after (context.startStream direction key iv) []) := by
  rw [after_nil context rfl]
  exact {
    direction := rfl
    transform := rfl
    pending := rfl
    room := List.length_replicate
    used_le := Nat.zero_le _
    used_stream := fun _ ↦ rfl }

/-- One more piece for a context that has been fed some. -/
theorem advance?_fed {buffered : BufferedStream} {data : Bytes}
    (hholds : buffered.Holds context (context.after (context.startStream direction key iv) data))
    (piece : Bytes) :
    ∃ handed out next, context.advance? buffered piece = some (⟨handed, out⟩, next) ∧
      next.Holds context (context.after (context.startStream direction key iv) (data ++ piece)) ∧
      handed ++ next.pending = buffered.pending ++ piece ∧ context.Whole handed ∧
      (context.fed direction key iv data).turn (.update piece) =
        ⟨context.fed direction key iv data, .update piece, .output (.ok out), [],
          context.fed direction key iv (data ++ piece)⟩ := by
  obtain ⟨hadvance, hout⟩ := advance_after (context.startStream direction key iv)
    (fun data ↦ (takes_startTransform_iff context direction key iv data).2) data piece
  obtain ⟨out, hturn, hanswer⟩ := turn_update_fed context direction key iv data piece
  obtain rfl := List.append_cancel_left (hanswer.trans hout.symm)
  obtain ⟨handed, next, hstep, hnext, hjoined, hwhole⟩ := advance?_of_holds hholds piece
  rw [congrArg Prod.snd hadvance] at hnext hjoined
  rw [← hnext.pending, ← hholds.pending] at hjoined
  exact ⟨handed, _, next, hstep, hnext, hjoined, hwhole, hturn⟩

theorem advanceAll?_fed {buffered : BufferedStream} {data : Bytes}
    (hholds : buffered.Holds context (context.after (context.startStream direction key iv) data))
    (pieces : List Bytes) :
    ∃ handOvers last, context.advanceAll? buffered pieces = some (handOvers, last) ∧
      last.Holds context
        (context.after (context.startStream direction key iv) (data ++ pieces.flatten)) ∧
      (handOvers.map HandOver.input).flatten ++ last.pending =
        buffered.pending ++ pieces.flatten ∧
      (∀ handOver ∈ handOvers, context.Whole handOver.input) ∧
      ((context.fed direction key iv data).turns (pieces.map .update)).map CipherTurn.answer =
        (handOvers.map HandOver.output).map (fun out ↦ .output (.ok out)) := by
  induction pieces generalizing buffered data with
  | nil =>
    refine ⟨[], buffered, rfl, ?_, ?_, nofun, rfl⟩
    · rwa [List.flatten_nil, List.append_nil]
    · rw [List.map_nil, List.flatten_nil, List.nil_append, List.append_nil]
  | cons piece pieces ih =>
    obtain ⟨handed, out, next, hstep, hnext, hjoined, hwhole, hturn⟩ := advance?_fed hholds piece
    obtain ⟨handOvers, last, hsteps, hlast, hrest, hwholes, hanswers⟩ := ih hnext
    refine ⟨⟨handed, out⟩ :: handOvers, last, ?_, ?_, ?_, ?_, ?_⟩
    · simp only [advanceAll?, hstep, hsteps, Option.bind_eq_bind, Option.bind_some]
    · rwa [List.flatten_cons, ← List.append_assoc]
    · rw [List.map_cons, List.flatten_cons, List.append_assoc, hrest, ← List.append_assoc, hjoined,
        List.append_assoc, List.flatten_cons]
    · exact List.forall_mem_cons.2 ⟨hwhole, hwholes⟩
    · simp only [List.map_cons, turns, hturn, hanswers]

theorem wholeHandOvers_of_holds {data : Bytes} {handOvers : List HandOver}
    {last : BufferedStream} {ending : BufferedEnding}
    (hholds : last.Holds context (context.after (context.startStream direction key iv) data))
    (hjoined : (handOvers.map HandOver.input).flatten ++ last.pending = data)
    (houtputs : (handOvers.map HandOver.output).flatten =
      context.outputOf (context.startStream direction key iv) data)
    (hwholes : ∀ handOver ∈ handOvers, context.Whole handOver.input)
    (hending : ∀ block ∈ ending.input, context.Whole block) :
    context.WholeHandOvers direction key iv data handOvers last ending := by
  have hused (hmode : context.mode.isStream = false) :
      last.used = context.heldLength direction data.length := by
    rw [← BufferedStream.length_pending hholds.used_le_length, hholds.pending,
      length_pending_after _ hmode]
    rfl
  have hboth : (handOvers.map HandOver.input).flatten ++ last.pending =
      data.take (context.handedOver direction data.length) ++ last.pending := by
    calc
      _ = data := hjoined
      _ = data.take (context.handedOver direction data.length) ++
          data.drop (context.handedOver direction data.length) :=
        (List.take_append_drop _ data).symm
      _ = _ := by
        rw [hholds.pending]
        rfl
  have hgiven := List.append_cancel_right hboth
  refine ⟨hjoined, ?_, hholds.room, ?_, ?_, hholds.used_stream, ?_⟩
  · rw [houtputs, hgiven]
    rfl
  · intro hmode hpasses
    rw [hused hmode]
    exact heldLength_lt hpasses data.length
  · intro hmode hwithholds
    refine ⟨hholds.used_le, fun hdata ↦ ?_⟩
    rw [hused hmode]
    exact heldLength_pos hwithholds (List.length_pos_iff.2 hdata)
  · intro hmode given hgiven
    have hwhole : context.Whole given := by
      rcases List.mem_append.1 hgiven with hupdate | hend
      · obtain ⟨handOver, hmem, rfl⟩ := List.mem_map.1 hupdate
        exact hwholes handOver hmem
      · exact hending given (Option.mem_toList.1 hend)
    have hdvd := hwhole.resolve_left (ne_true_of_eq_false hmode)
    exact ⟨hdvd, Bytes.partialBlock_eq_nil hdvd⟩

end Run

/-- A context that has been set up answers as one that keeps its pending bytes in a buffer of one
block: all accesses to the buffer are in bounds, and the transform is given whole blocks. -/
theorem buffered_run_in_bounds {context ready : CipherContext} {direction : Direction}
    {key iv : Bytes} (hready : (context.setup direction key iv).value = (.ok (), ready))
    (pieces : List Bytes) :
    ∃ handOvers last ending stream,
      context.advanceAll? (context.startBuffered direction key iv) pieces =
        some (handOvers, last) ∧
      context.finish? last = some ending ∧
      (ready.turns (pieces.map .update)).map CipherTurn.answer =
        (handOvers.map HandOver.output).map (fun out ↦ .output (.ok out)) ∧
      (ready.afterCalls (pieces.map .update)).lifecycle = .active stream ∧
      last.Holds context stream ∧
      ((ready.afterCalls (pieces.map .update)).turn .finalize).answer =
        .output (context.report ending.result).value ∧
      context.WholeHandOvers direction key iv pieces.flatten handOvers last ending := by
  obtain ⟨rfl, -⟩ := eq_started_of_setup hready
  obtain ⟨outs, houts, hafter, -, hjoinedOuts⟩ :=
    turns_updates_started context direction key iv pieces
  obtain ⟨handOvers, last, hsteps, hlast, hjoined, hwholes, hanswers⟩ :=
    advanceAll?_fed (context.holds_startBuffered direction key iv) pieces
  obtain ⟨given, hfinish, hending⟩ := finish?_of_holds hlast
  rw [← started_eq_fed] at hanswers
  have hsame : handOvers.map HandOver.output = outs := by
    have hmapped := hanswers.symm.trans houts
    refine (List.map_inj_right fun first second hequal ↦ ?_).1 hmapped
    cases hequal
    rfl
  have hfinalize := @turn_finalize_of_active (context.fed direction key iv pieces.flatten) _ rfl
  refine ⟨handOvers, last, _, _, hsteps, hfinish, hanswers, ?_, hlast, ?_, ?_⟩
  · rw [hafter]
    rfl
  · rw [hafter, hfinalize]
    rfl
  · exact wholeHandOvers_of_holds hlast hjoined (hsame ▸ hjoinedOuts) hwholes hending

/-- Two blocks of DES ciphertext in three pieces: the first block goes to the transform, and the
other one is in the buffer at the end. -/
theorem buffered_run_in_bounds_des_cbc_sixteen_bytes :
    ∃ ready, ((CipherContext.new .desCbcPkcs7 .des .cbc true).setup .decode
        (List.replicate 8 0x31) (List.replicate 8 0)).value = (.ok (), ready) ∧
      ∃ handOvers last,
        (CipherContext.new .desCbcPkcs7 .des .cbc true).advanceAll?
            ((CipherContext.new .desCbcPkcs7 .des .cbc true).startBuffered .decode
              (List.replicate 8 0x31) (List.replicate 8 0))
            [[1, 2, 3], List.replicate 12 7, [9]] = some (handOvers, last) ∧
        (handOvers.map HandOver.input).flatten ++ last.pending =
          [1, 2, 3] ++ List.replicate 12 7 ++ [9] ∧
        1 ≤ last.used ∧ last.used ≤ 8 := by
  have hready : ((CipherContext.new .desCbcPkcs7 .des .cbc true).setup .decode
      (List.replicate 8 0x31) (List.replicate 8 0)).value =
        (.ok (), (CipherContext.new .desCbcPkcs7 .des .cbc true).started .decode
          (List.replicate 8 0x31) (List.replicate 8 0)) := setup_eq_ok rfl (by decide) (by decide)
  obtain ⟨handOvers, last, _, _, hsteps, -, -, -, -, -, hwhole⟩ :=
    buffered_run_in_bounds hready [[1, 2, 3], List.replicate 12 7, [9]]
  have hused := hwhole.used_withheld rfl ⟨rfl, rfl⟩
  exact ⟨_, hready, handOvers, last, hsteps, hwhole.joined, hused.2 (by decide), hused.1⟩

end CipherContext

end StreamCrypto
