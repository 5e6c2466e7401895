import StreamCrypto.Padding

/-!
# What the padding check accepts

The check folds over every byte of a last block and counts from its end. It accepts exactly the
blocks that end in `n` bytes of value `n` (`contentLength?_eq_some_iff`), for blocks whose length
a byte can hold. `Closes` says the same of a whole message, and on messages of whole blocks there
is one way to close each content (`closes_iff_eq_padded`).
-/

namespace StreamCrypto.Padding

/-- `message` is `content` and then `n` bytes of value `n`, from one to a block of them. -/
def Closes (blockSize : Nat) (content message : Bytes) : Prop :=
  ∃ count, 1 ≤ count ∧ count ≤ blockSize ∧
    message = content ++ List.replicate count (UInt8.ofNat count)

/-- The content, filled up to the next whole number of blocks. -/
def padded (blockSize : Nat) (content : Bytes) : Bytes :=
  content ++ List.replicate (blockSize - content.length % blockSize)
    (UInt8.ofNat (blockSize - content.length % blockSize))

/-! ## The check -/

theorem toNat_ofNat_of_le {n : Nat} (hsmall : n ≤ 255) : (UInt8.ofNat n).toNat = n := by
  rw [UInt8.toNat_ofNat']
  omega

theorem fits_iff {count byte : UInt8} {distance : Nat} (hsmall : distance ≤ 255) :
    fits count (UInt8.ofNat distance) byte = true ↔ (distance ≤ count.toNat → byte = count) := by
  have hle : UInt8.ofNat distance ≤ count ↔ distance ≤ count.toNat := by
    rw [UInt8.le_iff_toNat_le, toNat_ofNat_of_le hsmall]
  simp only [fits, Bool.or_eq_true, Bool.not_eq_true', decide_eq_false_iff_not, beq_iff_eq, hle]
  exact Decidable.imp_iff_not_or.symm

theorem allFit_iff (count : UInt8) {block : Bytes} (hsmall : block.length ≤ 255) :
    allFit count block = true ↔ block.drop (block.length - count.toNat) =
      List.replicate (min block.length count.toNat) count := by
  induction block with
  | nil => simp [allFit]
  | cons byte rest ih =>
    rw [List.length_cons] at hsmall
    rw [allFit, Bool.and_eq_true, fits_iff hsmall, ih (by omega), List.length_cons]
    by_cases hcovered : rest.length + 1 ≤ count.toNat
    · have hrest : rest.length - count.toNat = 0 := by omega
      rw [Nat.sub_eq_zero_of_le hcovered, hrest, Nat.min_eq_left hcovered,
        Nat.min_eq_left (by omega), List.drop_zero, List.drop_zero, List.replicate_succ,
        List.cons.injEq]
      exact and_congr_left' ⟨fun h ↦ h hcovered, fun h _ ↦ h⟩
    · have hdrop : rest.length + 1 - count.toNat = rest.length - count.toNat + 1 := by omega
      rw [hdrop, List.drop_succ_cons, Nat.min_eq_right (by omega), Nat.min_eq_right (by omega)]
      exact ⟨fun h ↦ h.2, fun h ↦ ⟨fun hle ↦ absurd hle hcovered, h⟩⟩

/-- The content is part of the block, whatever its length. -/
theorem contentLength?_le {block : Bytes} {length : Nat}
    (hsome : contentLength? block = some length) : length ≤ block.length := by
  unfold contentLength? at hsome
  split at hsome
  · cases hsome
  · split at hsome
    · cases hsome
      exact Nat.sub_le _ _
    · cases hsome

theorem contentLength?_eq_some_iff {block : Bytes} (hsmall : block.length ≤ 255) {length : Nat} :
    contentLength? block = some length ↔ length < block.length ∧
      block.drop length =
        List.replicate (block.length - length) (UInt8.ofNat (block.length - length)) := by
  constructor
  · intro hsome
    unfold contentLength? at hsome
    split at hsome
    · cases hsome
    · next count hlast =>
      split at hsome
      · next hvalid =>
        obtain ⟨hnonzero, hbound, hfit⟩ := hvalid
        rw [UInt8.le_iff_toNat_le, toNat_ofNat_of_le hsmall] at hbound
        rw [allFit_iff count hsmall, Nat.min_eq_right hbound] at hfit
        have hpositive : 0 < count.toNat := UInt8.pos_iff_ne_zero.2 hnonzero
        obtain rfl : block.length - count.toNat = length := Option.some.inj hsome
        rw [Nat.sub_sub_self hbound, UInt8.ofNat_toNat]
        exact ⟨by omega, hfit⟩
      · cases hsome
  · rintro ⟨hlt, hdrop⟩
    generalize hcount : block.length - length = count at hdrop
    have hvalue := toNat_ofNat_of_le (n := count) (by omega)
    have hlast : block.getLast? = some (UInt8.ofNat count) := by
      rw [← List.take_append_drop length block, hdrop, List.getLast?_append,
        List.getLast?_replicate, if_neg (by omega), Option.some_or]
    have hnonzero : UInt8.ofNat count ≠ 0 := by
      rw [← UInt8.pos_iff_ne_zero, UInt8.lt_iff_toNat_lt, hvalue]
      simp
      omega
    have hbound : UInt8.ofNat count ≤ UInt8.ofNat block.length := by
      rw [UInt8.le_iff_toNat_le, hvalue, toNat_ofNat_of_le hsmall]
      omega
    have hfit : allFit (UInt8.ofNat count) block = true := by
      rw [allFit_iff _ hsmall, hvalue, ← hcount, Nat.sub_sub_self (by omega), hcount, hdrop,
        Nat.min_eq_right (by omega)]
    simp only [contentLength?, hlast]
    rw [if_pos ⟨hnonzero, hbound, hfit⟩, hvalue, ← hcount, Nat.sub_sub_self (by omega)]

/-! ## Whole messages -/

/-- Only the last block of a message decides whether it is closed, and what it holds. -/
theorem closes_append_iff {first block content : Bytes} (hsmall : block.length ≤ 255) :
    Closes block.length content (first ++ block) ↔
      ∃ length, contentLength? block = some length ∧ content = first ++ block.take length := by
  constructor
  · rintro ⟨count, hpositive, hbound, heq⟩
    have hlength := congrArg List.length heq
    rw [List.length_append, List.length_append, List.length_replicate] at hlength
    have hcontent : content = first ++ block.take (block.length - count) := by
      have htake := congrArg (List.take content.length) heq
      rw [List.take_left, List.take_append, List.take_of_length_le (by omega)] at htake
      rw [← htake]
      congr 2
      omega
    have hdrop : block.drop (block.length - count) =
        List.replicate count (UInt8.ofNat count) := by
      have hrest := congrArg (List.drop content.length) heq
      rw [List.drop_left, List.drop_append, List.drop_of_length_le (by omega),
        List.nil_append] at hrest
      rw [← hrest]
      congr 1
      omega
    refine ⟨block.length - count, ?_, hcontent⟩
    rw [contentLength?_eq_some_iff hsmall, Nat.sub_sub_self hbound]
    exact ⟨by omega, hdrop⟩
  · rintro ⟨length, hsome, rfl⟩
    obtain ⟨hlt, hdrop⟩ := (contentLength?_eq_some_iff hsmall).1 hsome
    refine ⟨block.length - length, by omega, Nat.sub_le _ _, ?_⟩
    rw [← hdrop, List.append_assoc, List.take_append_drop]

theorem closes_padded {blockSize : Nat} (hpos : 0 < blockSize) (content : Bytes) :
    Closes blockSize content (padded blockSize content) := by
  have hlt := Nat.mod_lt content.length hpos
  exact ⟨blockSize - content.length % blockSize, by omega, Nat.sub_le _ _, rfl⟩

theorem length_pad {blockSize : Nat} {rest : Bytes} (hrest : rest.length ≤ blockSize) :
    (pad blockSize rest).length = blockSize := by
  rw [pad, List.length_append, List.length_replicate, Nat.add_sub_cancel' hrest]

theorem length_padded {blockSize : Nat} (hpos : 0 < blockSize) (content : Bytes) :
    (padded blockSize content).length = blockSize * (content.length / blockSize + 1) := by
  have hlt := Nat.mod_lt content.length hpos
  have hdivide := Nat.div_add_mod content.length blockSize
  rw [padded, List.length_append, List.length_replicate, Nat.mul_succ]
  omega

theorem dvd_length_padded {blockSize : Nat} (hpos : 0 < blockSize) (content : Bytes) :
    blockSize ∣ (padded blockSize content).length :=
  ⟨_, length_padded hpos content⟩

/-- The number of padding bytes follows from the length of the content. -/
theorem closes_iff_eq_padded {blockSize : Nat} (hpos : 0 < blockSize) {content message : Bytes}
    (hwhole : blockSize ∣ message.length) :
    Closes blockSize content message ↔ message = padded blockSize content := by
  constructor
  · rintro ⟨count, hpositive, hbound, rfl⟩
    rw [List.length_append, List.length_replicate] at hwhole
    have hlt := Nat.mod_lt content.length hpos
    have hdivide := Nat.div_add_mod content.length blockSize
    have hsum : blockSize ∣ content.length % blockSize + count := by
      rw [← hdivide, Nat.add_assoc] at hwhole
      exact (Nat.dvd_add_right (Nat.dvd_mul_right _ _)).1 (by simpa using hwhole)
    obtain ⟨factor, hfactor⟩ := hsum
    have hone : factor = 1 := by
      have hlow : 0 < factor := Nat.pos_of_ne_zero (by rintro rfl; omega)
      have hhigh : factor < 2 := by
        refine Nat.lt_of_mul_lt_mul_left (a := blockSize) ?_
        omega
      omega
    rw [hone, Nat.mul_one] at hfactor
    have hcount : blockSize - content.length % blockSize = count := by omega
    rw [padded, hcount]
  · rintro rfl
    exact closes_padded hpos content

/-- The last block of a message is what the padding makes of its partial block. -/
theorem pad_eq {blockSize : Nat} {first rest : Bytes}
    (hfirst : blockSize ∣ first.length) (hrest : rest.length < blockSize) :
    first ++ pad blockSize rest = padded blockSize (first ++ rest) := by
  obtain ⟨count, hcount⟩ := hfirst
  rw [pad, padded, List.length_append, hcount, Nat.mul_add_mod, Nat.mod_eq_of_lt hrest,
    List.append_assoc]

end StreamCrypto.Padding
