import StreamCrypto.Cipher.Des.Inverse
import StreamCrypto.Cipher.WeakKey

/-!
# The bits of a DES key schedule

Every round key is a selection of key bits, and two selections are the same if their bits are
(`select_eq_select_iff`). So a question about round keys is one about key bits. One list of
round keys is another one in reverse order exactly if the bits agree wherever the two
schedules meet (`roundKeys_eq_reverse_iff`). The positions in use are all but the last one of
every byte, so the round keys are the same for keys that differ in parity bits only
(`roundKeys_eq_of_withoutParity_eq`).
-/

namespace StreamCrypto.Bytes

/-! ## Bits of a word and of its bytes

Bits are counted from 0 at the least significant end, bytes at the other end. -/

theorem getLsbD_word32 (a b c d : UInt8) {i j : Nat} (hi : i < 4) (hj : j < 8) :
    (word32 a b c d).toBitVec.getLsbD (8 * (3 - i) + j) =
      ([a, b, c, d].getD i 0).toBitVec.getLsbD j := by
  simp only [word32, UInt32.toBitVec_or, UInt32.toBitVec_shiftLeft, UInt8.toBitVec_toUInt32,
    UInt32.toBitVec_ofNat, BitVec.getLsbD_or, BitVec.getLsbD_setWidth]
  obtain rfl | rfl | rfl | rfl : i = 0 ∨ i = 1 ∨ i = 2 ∨ i = 3 := by omega
  all_goals
    simp
    grind

theorem getLsbD_word64_low (high low : UInt32) {i : Nat} (hi : i < 32) :
    (word64 high low).toBitVec.getLsbD i = low.toBitVec.getLsbD i := by
  simp only [word64, UInt64.toBitVec_or, UInt64.toBitVec_shiftLeft, UInt32.toBitVec_toUInt64,
    UInt64.toBitVec_ofNat, BitVec.getLsbD_or, BitVec.getLsbD_setWidth]
  simp [hi]
  omega

theorem getLsbD_word64_high (high low : UInt32) {i : Nat} (hi : i < 32) :
    (word64 high low).toBitVec.getLsbD (32 + i) = high.toBitVec.getLsbD i := by
  simp only [word64, UInt64.toBitVec_or, UInt64.toBitVec_shiftLeft, UInt32.toBitVec_toUInt64,
    UInt64.toBitVec_ofNat, BitVec.getLsbD_or, BitVec.getLsbD_setWidth]
  simp
  grind

theorem getLsbD_toWord64BigEndian {data : Bytes} (eight : data.length = 8) {i j : Nat}
    (hi : i < 8) (hj : j < 8) :
    (toWord64BigEndian data).toBitVec.getLsbD (8 * (7 - i) + j) =
      (data.getD i 0).toBitVec.getLsbD j := by
  obtain ⟨a, b, c, d, e, f, g, h, rfl⟩ := exists_eight_bytes eight
  have hword : toWord64BigEndian [a, b, c, d, e, f, g, h] =
      word64 (word32 a b c d) (word32 e f g h) := rfl
  rw [hword]
  by_cases hhalf : i < 4
  · have hplace : 8 * (7 - i) + j = 32 + (8 * (3 - i) + j) := by omega
    rw [hplace, getLsbD_word64_high _ _ (by omega), getLsbD_word32 a b c d hhalf hj]
    obtain rfl | rfl | rfl | rfl : i = 0 ∨ i = 1 ∨ i = 2 ∨ i = 3 := by omega
    all_goals rfl
  · obtain ⟨k, rfl⟩ := Nat.exists_eq_add_of_le (Nat.le_of_not_lt hhalf)
    have hlow : k < 4 := by omega
    have hplace : 8 * (7 - (4 + k)) + j = 8 * (3 - k) + j := by omega
    rw [hplace, getLsbD_word64_low _ _ (by omega), getLsbD_word32 e f g h hlow hj]
    obtain rfl | rfl | rfl | rfl : k = 0 ∨ k = 1 ∨ k = 2 ∨ k = 3 := by omega
    all_goals rfl

end StreamCrypto.Bytes

namespace StreamCrypto.Cipher.Des

/-! ## Selections as lists of bits -/

/-- The bit at a position, counted from 1 at the most significant bit. -/
def wordBit (word : UInt64) (position : Nat) : Bool :=
  word.toBitVec.getLsbD ((64 - position) % 64)

theorem select_eq_select_iff {first second : List Nat} (hsame : first.length = second.length)
    (hshort : first.length ≤ 64) (word other : UInt64) :
    select 64 first word = select 64 second other ↔
      first.map (wordBit word) = second.map (wordBit other) := by
  constructor
  · intro h
    rw [← List.reverse_inj, ← List.map_reverse, ← List.map_reverse]
    apply List.ext_getElem (by simp [hsame])
    intro i hfirst hsecond
    simp only [List.length_map, List.length_reverse] at hfirst hsecond
    have hbit := congrArg (·.toBitVec.getLsbD i) h
    simp only [getLsbD_select 64 _ _ (Nat.lt_of_lt_of_le hfirst hshort)] at hbit
    rw [List.getElem?_eq_getElem (by simpa using hfirst),
      List.getElem?_eq_getElem (by simpa using hsecond)] at hbit
    simpa [wordBit] using hbit
  · intro h
    apply UInt64.toBitVec_inj.1
    apply BitVec.eq_of_getLsbD_eq
    intro i hsmall
    have hbit := congrArg (·.reverse[i]?.getD false) h
    simp only [← List.map_reverse, List.getElem?_map] at hbit
    rw [getLsbD_select 64 _ _ hsmall, getLsbD_select 64 _ _ hsmall]
    exact hbit

/-- Two maps give the same list if they agree on the pairs of items in the same place. -/
theorem map_eq_map_iff_zip {α β γ : Type} {f : α → γ} {g : β → γ} {xs : List α} {ys : List β}
    (hsame : xs.length = ys.length) :
    xs.map f = ys.map g ↔ ∀ pair ∈ xs.zip ys, f pair.1 = g pair.2 := by
  induction xs generalizing ys with
  | nil =>
    cases ys with
    | nil => simp
    | cons y ys => simp at hsame
  | cons x xs ih =>
    cases ys with
    | nil => simp at hsame
    | cons y ys =>
      have hrest := ih (Nat.succ.inj hsame)
      simp only [List.map_cons, List.cons.injEq, List.zip_cons_cons, List.forall_mem_cons, hrest]

/-! ## Round keys -/

theorem length_of_mem_roundKeyPositions {positions : List Nat}
    (hmem : positions ∈ roundKeyPositions) : positions.length = 48 := by
  obtain ⟨rotation, -, rfl⟩ := List.mem_map.1 hmem
  rw [positionsAfter, List.length_map]
  rfl

/-- Where two schedules meet if one is to be the other in reverse: a position for each of the
48 bits of each of the sixteen round keys, next to the position for the same bit of the round
key at the same distance from the end. -/
def meetings : List (Nat × Nat) :=
  (roundKeyPositions.zip roundKeyPositions.reverse).flatMap fun rounds ↦
    rounds.1.zip rounds.2

theorem roundKeys_eq_reverse_iff (word other : UInt64) :
    roundKeys other = (roundKeys word).reverse ↔
      ∀ meeting ∈ meetings, wordBit other meeting.1 = wordBit word meeting.2 := by
  have hround : ∀ rounds ∈ roundKeyPositions.zip roundKeyPositions.reverse,
      (select 64 rounds.1 other = select 64 rounds.2 word ↔
        ∀ meeting ∈ rounds.1.zip rounds.2, wordBit other meeting.1 = wordBit word meeting.2) := by
    intro rounds hrounds
    obtain ⟨hfirst, hsecond⟩ := List.of_mem_zip hrounds
    have hlength := length_of_mem_roundKeyPositions hfirst
    have hsame : rounds.1.length = rounds.2.length := by
      rw [hlength, length_of_mem_roundKeyPositions (List.mem_reverse.1 hsecond)]
    rw [select_eq_select_iff hsame (by omega), map_eq_map_iff_zip hsame]
  rw [roundKeys, roundKeys, ← List.map_reverse, map_eq_map_iff_zip (by simp), meetings,
    List.forall_mem_flatMap]
  exact forall₂_congr hround

/-- The positions of a key that are in use, first those of the left half. -/
def keyPositions : List Nat := leftKeyPositions ++ rightKeyPositions

theorem rotateLeft_perm {α : Type} (xs : List α) (rotation : Nat) :
    (xs.rotateLeft rotation).Perm xs := by
  simp only [List.rotateLeft]
  split
  · exact .refl xs
  · have hcut := List.take_append_drop (rotation % xs.length) xs
    exact List.perm_append_comm.trans (.of_eq hcut)

/-- Rotating the halves moves their positions around, and no choice goes past the end. -/
theorem mem_keyPositions_of_mem_positionsAfter {rotation position : Nat}
    (hmem : position ∈ positionsAfter rotation) : position ∈ keyPositions := by
  have hbound : ∀ choice ∈ roundKeyChoice, choice - 1 < 56 := by decide
  obtain ⟨choice, hchoice, rfl⟩ := List.mem_map.1 hmem
  have hperm : (leftKeyPositions.rotateLeft rotation ++
      rightKeyPositions.rotateLeft rotation).Perm keyPositions :=
    (rotateLeft_perm _ _).append (rotateLeft_perm _ _)
  have hinside := hbound choice hchoice
  rw [← show keyPositions.length = 56 from rfl, ← hperm.length_eq] at hinside
  rw [← hperm.mem_iff, List.getD_eq_getElem?_getD, List.getElem?_eq_getElem hinside,
    Option.getD_some]
  exact List.getElem_mem hinside

theorem mem_keyPositions_of_mem_roundKeyPositions {positions : List Nat}
    (hpositions : positions ∈ roundKeyPositions) {position : Nat}
    (hmem : position ∈ positions) : position ∈ keyPositions := by
  obtain ⟨rotation, -, rfl⟩ := List.mem_map.1 hpositions
  exact mem_keyPositions_of_mem_positionsAfter hmem

theorem roundKeys_congr {word other : UInt64}
    (h : ∀ position ∈ keyPositions, wordBit word position = wordBit other position) :
    roundKeys word = roundKeys other := by
  refine List.map_congr_left fun positions hpositions ↦ ?_
  have hlength := length_of_mem_roundKeyPositions hpositions
  rw [select_eq_select_iff rfl (by omega)]
  exact List.map_congr_left fun position hposition ↦
    h position (mem_keyPositions_of_mem_roundKeyPositions hpositions hposition)

/-! ## Keys as byte strings -/

def keyBit (key : Bytes) (position : Nat) : Bool :=
  wordBit (Bytes.toWord64BigEndian key) position

variable {key other : Bytes}

theorem keyBit_eq_getLsbD (eight : key.length = 8) {i j : Nat} (hi : i < 8) (hj : j < 8) :
    keyBit key (8 * i + 8 - j) = (key.getD i 0).toBitVec.getLsbD j := by
  have hplace : (64 - (8 * i + 8 - j)) % 64 = 8 * (7 - i) + j := by omega
  rw [keyBit, wordBit, hplace, Bytes.getLsbD_toWord64BigEndian eight hi hj]

/-- The positions in use are those of the upper seven bits of the eight bytes. -/
theorem mem_keyPositions_iff {position : Nat} :
    position ∈ keyPositions ↔ ∃ i < 8, ∃ j < 8, j ≠ 0 ∧ position = 8 * i + 8 - j := by
  have hupper : ∀ i < 8, ∀ j < 8, j ≠ 0 → 8 * i + 8 - j ∈ keyPositions := by decide
  have hused : ∀ position ∈ keyPositions, position < 64 ∧ position % 8 ≠ 0 := by decide
  constructor
  · intro hmem
    have h := hused position hmem
    exact ⟨position / 8, by omega, 8 - position % 8, by omega, by omega, by omega⟩
  · rintro ⟨i, hi, j, hj, hne, rfl⟩
    exact hupper i hi j hj hne

open WeakKey (withoutParity)

@[simp] theorem length_withoutParity (key : Bytes) :
    (withoutParity key).length = key.length :=
  List.length_map _

/-- The mask clears the lowest bit of a byte. -/
theorem getLsbD_and_mask (byte : UInt8) {j : Nat} (hj : j < 8) :
    (byte &&& 0xfe).toBitVec.getLsbD j = (decide (j ≠ 0) && byte.toBitVec.getLsbD j) := by
  have hmask : ∀ j < 8, (0xfe : UInt8).toBitVec.getLsbD j = decide (j ≠ 0) := by decide
  rw [UInt8.toBitVec_and, BitVec.getLsbD_and, hmask j hj, Bool.and_comm]

theorem keyBit_withoutParity (eight : key.length = 8) {i j : Nat} (hi : i < 8) (hj : j < 8) :
    keyBit (withoutParity key) (8 * i + 8 - j) =
      (decide (j ≠ 0) && keyBit key (8 * i + 8 - j)) := by
  have hbyte : (withoutParity key).getD i 0 = key.getD i 0 &&& 0xfe := by
    simp [withoutParity, eight, hi]
  rw [keyBit_eq_getLsbD ((length_withoutParity key).trans eight) hi hj, hbyte,
    getLsbD_and_mask _ hj, keyBit_eq_getLsbD eight hi hj]

theorem eq_of_keyBit_eq (eight : key.length = 8) (eight' : other.length = 8)
    (h : ∀ i < 8, ∀ j < 8, keyBit key (8 * i + 8 - j) = keyBit other (8 * i + 8 - j)) :
    key = other := by
  apply List.ext_getElem (eight.trans eight'.symm)
  intro i hi hi'
  apply UInt8.toBitVec_inj.1
  apply BitVec.eq_of_getLsbD_eq
  intro j hj
  have hbit := h i (by omega) j hj
  rw [keyBit_eq_getLsbD eight (by omega) hj, keyBit_eq_getLsbD eight' (by omega) hj] at hbit
  simpa [hi, hi'] using hbit

/-- Keys are the same up to parity if they have the same bits in use. -/
theorem withoutParity_eq_iff (eight : key.length = 8) (eight' : other.length = 8) :
    withoutParity key = withoutParity other ↔
      ∀ position ∈ keyPositions, keyBit key position = keyBit other position := by
  constructor
  · intro h position hposition
    obtain ⟨i, hi, j, hj, hne, rfl⟩ := mem_keyPositions_iff.1 hposition
    have hbit := congrArg (keyBit · (8 * i + 8 - j)) h
    simpa [keyBit_withoutParity eight hi hj, keyBit_withoutParity eight' hi hj, hne] using hbit
  · intro h
    apply eq_of_keyBit_eq (by simpa using eight) (by simpa using eight')
    intro i hi j hj
    rw [keyBit_withoutParity eight hi hj, keyBit_withoutParity eight' hi hj]
    by_cases hne : j = 0
    · simp [hne]
    · rw [h _ (mem_keyPositions_iff.2 ⟨i, hi, j, hj, hne, rfl⟩)]

theorem roundKeys_eq_of_withoutParity_eq (eight : key.length = 8) (eight' : other.length = 8)
    (h : withoutParity key = withoutParity other) :
    roundKeys (Bytes.toWord64BigEndian key) = roundKeys (Bytes.toWord64BigEndian other) :=
  roundKeys_congr ((withoutParity_eq_iff eight eight').1 h)

end StreamCrypto.Cipher.Des
