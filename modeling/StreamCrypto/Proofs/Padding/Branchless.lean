import Mathlib.Data.Nat.PSub
import StreamCrypto.Proofs.Cipher.Ending

/-!
# The padding check without branches

What a last block holds is secret until its padding is known to be right, so the check does the same
work on every block: it goes through all bytes with a verdict that one wrong byte turns down for
good, and compares with bytes only. Here each subtraction is checked not to fall below zero, and
each number that becomes a byte to fit into one, and there is no result if one of them does not. On
blocks of one to 255 bytes, and on no others, there is a result (`check?_isSome_iff`), and it is the
one of the plain definition, where the last bytes of a block say how many of them there are
(`check?_gives_verdict`). Nothing is said about the time that the check takes.
-/

namespace StreamCrypto

namespace Padding

/-! ## The plain definition -/

/-- The bytes of a block from `length` on are its padding: there is one at least, and each of them
says how many there are. -/
structure EndsAt (block : Bytes) (length : Nat) : Prop where
  lt : length < block.length
  value : ∀ byte ∈ block.drop length, byte.toNat = block.length - length

theorem endsAt_iff {block : Bytes} (hsmall : block.length ≤ 255) (length : Nat) :
    EndsAt block length ↔ contentLength? block = some length := by
  rw [contentLength?_eq_some_iff hsmall, List.eq_replicate_iff, List.length_drop]
  have hvalue (byte : UInt8) : byte = UInt8.ofNat (block.length - length) ↔
      byte.toNat = block.length - length := by
    rw [← UInt8.toNat_inj, toNat_ofNat_of_le (by omega)]
  simp only [hvalue, true_and]
  exact ⟨fun h ↦ ⟨h.lt, h.value⟩, fun h ↦ ⟨h.1, h.2⟩⟩

/-- The last byte leaves no choice. -/
theorem EndsAt.length_eq {block : Bytes} {length : Nat} (hends : EndsAt block length)
    {count : UInt8} (hlast : block.getLast? = some count) :
    length = block.length - count.toNat := by
  have hdrop : (block.drop length).getLast? = some count := by
    rw [List.getLast?_drop, if_neg (Nat.not_le.2 hends.lt), hlast]
  have hvalue := hends.value count (List.mem_of_getLast? hdrop)
  have hlt := hends.lt
  omega

/-- What the plain definition says of a block: the length of its content, or that there is none. -/
structure Verdict (block : Bytes) (result : Except Error Nat) : Prop where
  ok_iff : ∀ length, result = .ok length ↔ EndsAt block length
  error_iff : ∀ error, result = .error error ↔
    error = .invalidPadding ∧ ¬ ∃ length, EndsAt block length
  /-- There is at most one length, read off the last byte. -/
  length_eq : ∃ count, block.getLast? = some count ∧
    ∀ length, EndsAt block length → length = block.length - count.toNat

/-! ## The check -/

/-- A number as a byte, if none of its bits is lost. -/
def exactByte? (number : Nat) : Option UInt8 :=
  if (UInt8.ofNat number).toNat = number then some (UInt8.ofNat number) else none

/-- Both comparisons are made. -/
def atMost (left right : UInt8) : Bool := decide (left < right) || left == right

/-- The verdict once the byte at `place` of a block of `size` bytes has been looked at. -/
def checkByte? (size : Nat) (count : UInt8) (valid : Bool) (place : Nat) (byte : UInt8) :
    Option Bool := do
  let left ← size.psub place
  let distance ← exactByte? left
  let covered := atMost distance count
  some (valid && (!covered || byte == count))

/-- The verdict once the bytes from `place` on have been looked at. -/
def checkFrom? (size : Nat) (count : UInt8) (valid : Bool) (place : Nat) : Bytes → Option Bool
  | [] => some valid
  | byte :: rest => do
    let next ← checkByte? size count valid place byte
    checkFrom? size count next (place + 1) rest

/-- The length of the content of a last block. -/
def check? (block : Bytes) : Option (Except Error Nat) := do
  let size := block.length
  let last ← size.psub 1
  let count ← block[last]?
  let width ← exactByte? size
  let valid ← checkFrom? size count (!(count == 0) && atMost count width) 0 block
  if valid = true then do
    let length ← size.psub count.toNat
    some (.ok length)
  else some (.error .invalidPadding)

theorem exactByte?_eq_some {number : Nat} (hsmall : number ≤ 255) :
    exactByte? number = some (UInt8.ofNat number) :=
  if_pos (toNat_ofNat_of_le hsmall)

theorem exactByte?_eq_none {number : Nat} (hlarge : 255 < number) : exactByte? number = none := by
  have hlost : ¬ (UInt8.ofNat number).toNat = number := by
    have hbyte := (UInt8.ofNat number).toNat_lt
    omega
  exact if_neg hlost

theorem atMost_eq (left right : UInt8) : atMost left right = decide (left ≤ right) := by
  rw [Bool.eq_iff_iff]
  simp only [atMost, Bool.or_eq_true, decide_eq_true_eq, beq_iff_eq]
  exact UInt8.le_iff_lt_or_eq.symm

/-! ## The check and the plain definition -/

theorem checkByte?_eq (place : Nat) {left : Nat} (hsmall : left ≤ 255) (count : UInt8)
    (valid : Bool) (byte : UInt8) :
    checkByte? (place + left) count valid place byte =
      some (valid && fits count (UInt8.ofNat left) byte) := by
  rw [checkByte?, Nat.psub_eq_sub (Nat.le_add_right place left), Nat.add_sub_cancel_left,
    fits, ← atMost_eq]
  simp only [Option.bind_eq_bind, Option.bind_some, exactByte?_eq_some hsmall]

/-- However the verdict stands before some bytes, each of them is measured against its distance from
the end of the block. -/
theorem checkFrom?_eq (count : UInt8) (valid : Bool) (place : Nat) {rest : Bytes}
    (hsmall : rest.length ≤ 255) :
    checkFrom? (place + rest.length) count valid place rest =
      some (valid && allFit count rest) := by
  induction rest generalizing valid place with
  | nil => rw [checkFrom?, allFit, Bool.and_true]
  | cons byte rest ih =>
    rw [List.length_cons] at hsmall
    have hbyte := checkByte?_eq place hsmall count valid byte
    -- The next place and the bytes that are left after it still add up to the size of the block.
    have hsize : place + (rest.length + 1) = place + 1 + rest.length := by omega
    have hrest := ih (valid && fits count (UInt8.ofNat (rest.length + 1)) byte) (place + 1)
      (by omega)
    rw [List.length_cons, checkFrom?, hbyte, hsize, allFit, ← Bool.and_assoc]
    exact hrest

theorem exists_getLast? {block : Bytes} (hnonempty : 1 ≤ block.length) :
    ∃ count, block.getLast? = some count :=
  ⟨_, List.getLast?_eq_some_getLast (List.length_pos_iff.1 hnonempty)⟩

theorem check?_eq {block : Bytes} (hnonempty : 1 ≤ block.length) (hsmall : block.length ≤ 255) :
    check? block = some ((contentLength? block).elim (.error .invalidPadding) .ok) := by
  obtain ⟨count, hlast⟩ := exists_getLast? hnonempty
  have hplace : block[block.length - 1]? = some count := by
    rw [← List.getLast?_eq_getElem?, hlast]
  have hchecked := checkFrom?_eq count (!(count == 0) && atMost count (UInt8.ofNat block.length)) 0
    hsmall
  rw [Nat.zero_add] at hchecked
  have hvalid : (!(count == 0) && atMost count (UInt8.ofNat block.length) && allFit count block) =
        true ↔
      count ≠ 0 ∧ count ≤ UInt8.ofNat block.length ∧ allFit count block = true := by
    simp only [atMost_eq, Bool.and_eq_true, Bool.not_eq_true', beq_eq_false_iff_ne,
      decide_eq_true_eq, and_assoc, ne_eq]
  simp only [check?, Nat.psub_eq_sub hnonempty, hplace, exactByte?_eq_some hsmall, hchecked,
    Option.bind_eq_bind, Option.bind_some, hvalid, contentLength?, hlast]
  split
  · next hholds =>
    have hroom : count.toNat ≤ block.length := by
      have hle := UInt8.le_iff_toNat_le.1 hholds.2.1
      rwa [toNat_ofNat_of_le hsmall] at hle
    rw [Nat.psub_eq_sub hroom]
    rfl
  · rfl

theorem verdict_elim {block : Bytes} (hnonempty : 1 ≤ block.length)
    (hsmall : block.length ≤ 255) :
    Verdict block ((contentLength? block).elim (.error .invalidPadding) .ok) := by
  obtain ⟨count, hlast⟩ := exists_getLast? hnonempty
  refine ⟨fun length ↦ ?_, fun error ↦ ?_, count, hlast, fun length hends ↦ hends.length_eq hlast⟩
  · rw [endsAt_iff hsmall]
    cases contentLength? block <;> simp
  · simp only [endsAt_iff hsmall]
    cases contentLength? block <;> simp [eq_comm]

/-- The bounds on the length of a block are what the check needs, and all that it needs. -/
theorem check?_isSome_iff (block : Bytes) :
    (check? block).isSome = true ↔ 1 ≤ block.length ∧ block.length ≤ 255 := by
  constructor
  · intro hsome
    refine ⟨Nat.pos_of_ne_zero ?_, Nat.not_lt.1 ?_⟩
    · intro hempty
      rw [List.length_eq_zero_iff.1 hempty] at hsome
      cases hsome
    · intro hlarge
      have hnone : check? block = none := by
        rw [check?, exactByte?_eq_none hlarge]
        cases block.length.psub 1 with
        | none => rfl
        | some last => cases block[last]? <;> simp
      rw [hnone] at hsome
      cases hsome
  · rintro ⟨hnonempty, hsmall⟩
    rw [check?_eq hnonempty hsmall]
    rfl

end Padding

namespace CipherContext

/-- A padded decoding stream with one block left, which decrypts to `block`. -/
structure LeftWith (context : CipherContext) (stream : CipherStream) (block : Bytes) : Prop where
  mode : context.mode.isStream = false
  padding : context.padding = true
  direction : stream.direction = .decode
  pending : stream.pending.length = context.blockSize
  decrypted : (stream.transform.apply stream.pending).1 = block

/-- The stream ends with the content in front of the padding, or with the error of the check. -/
theorem lastOutput_of_check? {context : CipherContext} {stream : CipherStream} {block : Bytes}
    (hleft : context.LeftWith stream block) {result : Except Error Nat}
    (hcheck : Padding.check? block = some result) :
    context.lastOutput stream = result.map fun length ↦ block.take length := by
  obtain ⟨hnonempty, hsmall⟩ :=
    (Padding.check?_isSome_iff block).1 (Option.isSome_of_eq_some hcheck)
  rw [Padding.check?_eq hnonempty hsmall] at hcheck
  obtain rfl := Option.some.inj hcheck
  rw [lastOutput_decode_eq hleft.mode hleft.padding hleft.direction, hleft.pending,
    if_neg context.blockSize_pos.ne', if_neg (not_not_intro rfl), hleft.decrypted]
  cases Padding.contentLength? block <;> rfl

end CipherContext

namespace Padding

/-- The check goes wrong nowhere and finds what the plain definition says. A stream finds the same
in its last block, and so it ends with the content in front of the padding or with the error. -/
theorem check?_gives_verdict {block : Bytes} (hnonempty : 1 ≤ block.length)
    (hsmall : block.length ≤ 255) :
    ∃ result, check? block = some result ∧ Verdict block result ∧
      contentLength? block = result.toOption ∧
      ∀ (context : CipherContext) (stream : CipherStream), context.LeftWith stream block →
        context.lastOutput stream = result.map fun length ↦ block.take length := by
  have hcheck := check?_eq hnonempty hsmall
  refine ⟨_, hcheck, verdict_elim hnonempty hsmall, ?_, fun context stream hleft ↦ ?_⟩
  · cases contentLength? block <;> rfl
  · exact CipherContext.lastOutput_of_check? hleft hcheck

/-- Three bytes of padding in a block of eight. -/
theorem check?_gives_verdict_three_of_eight :
    ∃ result, check? [9, 8, 7, 6, 5, 3, 3, 3] = some result ∧
      Verdict [9, 8, 7, 6, 5, 3, 3, 3] result ∧ result = .ok 5 := by
  obtain ⟨result, hcheck, hverdict, -⟩ :=
    @check?_gives_verdict [9, 8, 7, 6, 5, 3, 3, 3] (by decide) (by decide)
  exact ⟨result, hcheck, hverdict, (hverdict.ok_iff 5).2 ⟨by decide, by simp⟩⟩

end Padding

end StreamCrypto
