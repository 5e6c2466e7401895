import StreamCrypto.Cipher.Lawful
import StreamCrypto.Mode.Transform

/-!
# Transforms undo each other

A transform and the one for the other direction in the same state restore what the first was
given, and end in the same state again (`apply_opposite_apply`). For ECB and CBC this needs a
lawful cipher and whole blocks; CFB only combines with a keystream that both directions make
alike, so that it holds of any cipher and any data. No law of a concrete cipher is used here.
-/

namespace StreamCrypto

def Direction.opposite : Direction → Direction
  | encode => decode
  | decode => encode

namespace Bytes

theorem xor_xor_cancel {data mask : Bytes} (hlength : data.length ≤ mask.length) :
    xor (xor data mask) mask = data := by
  unfold xor
  induction data generalizing mask with
  | nil => rfl
  | cons byte data ih =>
    cases mask with
    | nil => simp at hlength
    | cons key mask =>
      have hrest := ih (Nat.le_of_succ_le_succ hlength)
      rw [List.zipWith_cons_cons, List.zipWith_cons_cons, hrest, UInt8.xor_assoc,
        UInt8.xor_self, UInt8.xor_zero]

theorem length_of_mem_takeBlocks {size count : Nat} {data : Bytes}
    (henough : size * count ≤ data.length) :
    ∀ block ∈ takeBlocks size count data, block.length = size := by
  induction count generalizing data with
  | zero => simp [takeBlocks]
  | succ count ih =>
    rw [Nat.mul_succ] at henough
    intro block hblock
    rcases List.mem_cons.1 hblock with rfl | hrest
    · rw [List.length_take]
      omega
    · exact ih (by rw [List.length_drop]; omega) block hrest

theorem length_of_mem_blocks {size : Nat} {data : Bytes} :
    ∀ block ∈ blocks size data, block.length = size :=
  length_of_mem_takeBlocks (Nat.mul_div_le _ _)

/-- Blocks that are joined and cut again are the same blocks. -/
theorem blocks_flatten {size : Nat} (hpos : 0 < size) {pieces : List Bytes}
    (hpieces : ∀ piece ∈ pieces, piece.length = size) :
    blocks size pieces.flatten = pieces := by
  induction pieces with
  | nil => simp [blocks, takeBlocks]
  | cons piece pieces ih =>
    have hpiece : piece.length = size := hpieces piece List.mem_cons_self
    have hfirst : blocks size piece = [piece] := by
      rw [blocks, hpiece, Nat.div_self hpos, takeBlocks, takeBlocks, ← hpiece, List.take_length]
    rw [List.flatten_cons, blocks_append hpos ⟨1, by rw [hpiece, Nat.mul_one]⟩, hfirst,
      ih fun other hother ↦ hpieces other (List.mem_cons_of_mem _ hother)]
    rfl

theorem flatten_blocks {size : Nat} {data : Bytes} (hwhole : size ∣ data.length) :
    (blocks size data).flatten = data := by
  have hjoined := flatten_blocks_append_partialBlock size data
  rwa [partialBlock_eq_nil hwhole, List.append_nil] at hjoined

theorem length_flatten_of_forall {size : Nat} {pieces : List Bytes}
    (hpieces : ∀ piece ∈ pieces, piece.length = size) :
    pieces.flatten.length = size * pieces.length := by
  induction pieces with
  | nil => rfl
  | cons piece pieces ih =>
    rw [List.flatten_cons, List.length_append, hpieces piece List.mem_cons_self,
      ih fun other hother ↦ hpieces other (List.mem_cons_of_mem _ hother), List.length_cons,
      Nat.mul_succ, Nat.add_comm]

end Bytes

namespace Mode

variable {σ α β : Type}

/-- What every step keeps of the state and gives as an output holds of a whole map. -/
theorem mapAccum_invariant {step : σ → α → β × σ} (Valid : σ → Prop) (Item : α → Prop)
    (Out : β → Prop)
    (hstep : ∀ state item, Valid state → Item item →
      Out (step state item).1 ∧ Valid (step state item).2)
    {state : σ} (hstate : Valid state) {items : List α} (hitems : ∀ item ∈ items, Item item) :
    (∀ out ∈ (mapAccum step state items).1, Out out) ∧ Valid (mapAccum step state items).2 := by
  induction items generalizing state with
  | nil => exact ⟨by simp, hstate⟩
  | cons item items ih =>
    have hfirst := hstep state item hstate (hitems item List.mem_cons_self)
    have hrest := ih hfirst.2 fun other hother ↦ hitems other (List.mem_cons_of_mem _ hother)
    rw [mapAccum_cons]
    refine ⟨?_, hrest.2⟩
    intro out hout
    rcases List.mem_cons.1 hout with rfl | hlater
    · exact hfirst.1
    · exact hrest.1 out hlater

/-- A map is undone item by item, if the state that undoes an item is the one that made it. -/
theorem mapAccum_inverse {step : σ → α → β × σ} {back : σ → β → α × σ} (Valid : σ → Prop)
    (Item : α → Prop)
    (hstep : ∀ state item, Valid state → Item item →
      back state (step state item).1 = (item, (step state item).2) ∧ Valid (step state item).2)
    {state : σ} (hstate : Valid state) {items : List α} (hitems : ∀ item ∈ items, Item item) :
    mapAccum back state (mapAccum step state items).1 =
      (items, (mapAccum step state items).2) := by
  induction items generalizing state with
  | nil => rfl
  | cons item items ih =>
    obtain ⟨hback, hnext⟩ := hstep state item hstate (hitems item List.mem_cons_self)
    have hrest := ih hnext fun other hother ↦ hitems other (List.mem_cons_of_mem _ hother)
    rw [mapAccum_cons, mapAccum_cons, hback, hrest]

/-! ## ECB -/

namespace Ecb

theorem length_transformBlock {cipher : BlockCipher} (hlawful : cipher.Lawful)
    (direction : Direction) {block : Bytes} (hblock : block.length = cipher.blockSize) :
    (transformBlock cipher direction block).length = cipher.blockSize := by
  cases direction with
  | encode => exact hlawful.length_encrypt hblock
  | decode => exact hlawful.length_decrypt hblock

theorem transformBlock_opposite {cipher : BlockCipher} (hlawful : cipher.Lawful)
    (direction : Direction) {block : Bytes} (hblock : block.length = cipher.blockSize) :
    transformBlock cipher direction.opposite (transformBlock cipher direction block) = block := by
  cases direction with
  | encode => exact hlawful.decrypt_encrypt hblock
  | decode => exact hlawful.encrypt_decrypt hblock

variable {cipher : BlockCipher} (hlawful : cipher.Lawful) (direction : Direction) {data : Bytes}
  (hwhole : cipher.blockSize ∣ data.length)

include hwhole in
theorem run_eq_flatten : run cipher direction data =
    ((Bytes.blocks cipher.blockSize data).map (transformBlock cipher direction)).flatten := by
  rw [run, Bytes.partialBlock_eq_nil hwhole, List.append_nil, List.flatMap]

include hlawful in
theorem length_of_mem_outputs :
    ∀ out ∈ (Bytes.blocks cipher.blockSize data).map (transformBlock cipher direction),
      out.length = cipher.blockSize := by
  intro out hout
  obtain ⟨block, hblock, rfl⟩ := List.mem_map.1 hout
  exact length_transformBlock hlawful direction (Bytes.length_of_mem_blocks block hblock)

include hlawful hwhole

theorem length_run : (run cipher direction data).length = data.length := by
  calc
    _ = ((Bytes.blocks cipher.blockSize data).map
        (transformBlock cipher direction)).flatten.length := by
      rw [run_eq_flatten direction hwhole]
    _ = cipher.blockSize * (data.length / cipher.blockSize) := by
      rw [Bytes.length_flatten_of_forall (length_of_mem_outputs hlawful direction),
        List.length_map, Bytes.blocks, Bytes.length_takeBlocks]
    _ = data.length := Nat.mul_div_cancel' hwhole

theorem run_opposite_run :
    run cipher direction.opposite (run cipher direction data) = data := by
  have hagain : cipher.blockSize ∣ (run cipher direction data).length := by
    rwa [length_run hlawful direction hwhole]
  have hblocks : (Bytes.blocks cipher.blockSize data).map
      (transformBlock cipher direction.opposite ∘ transformBlock cipher direction) =
        Bytes.blocks cipher.blockSize data := by
    conv => rhs; rw [← List.map_id (Bytes.blocks cipher.blockSize data)]
    exact List.map_congr_left fun block hblock ↦
      transformBlock_opposite hlawful direction (Bytes.length_of_mem_blocks block hblock)
  calc
    _ = ((Bytes.blocks cipher.blockSize (run cipher direction data)).map
        (transformBlock cipher direction.opposite)).flatten :=
      run_eq_flatten direction.opposite hagain
    _ = (((Bytes.blocks cipher.blockSize data).map (transformBlock cipher direction)).map
        (transformBlock cipher direction.opposite)).flatten := by
      rw [run_eq_flatten direction hwhole,
        Bytes.blocks_flatten cipher.blockSize_pos (length_of_mem_outputs hlawful direction)]
    _ = (Bytes.blocks cipher.blockSize data).flatten := by rw [List.map_map, hblocks]
    _ = data := Bytes.flatten_blocks hwhole

end Ecb

/-! ## CBC -/

namespace Cbc

theorem length_transformBlock {cipher : BlockCipher} (hlawful : cipher.Lawful)
    (direction : Direction) {previous block : Bytes}
    (hprevious : previous.length = cipher.blockSize) (hblock : block.length = cipher.blockSize) :
    (transformBlock cipher direction previous block).1.length = cipher.blockSize ∧
      (transformBlock cipher direction previous block).2.length = cipher.blockSize := by
  cases direction with
  | encode =>
    have hmixed : (Bytes.xor block previous).length = cipher.blockSize := by
      rw [Bytes.length_xor, hblock, hprevious, Nat.min_self]
    exact ⟨hlawful.length_encrypt hmixed, hlawful.length_encrypt hmixed⟩
  | decode =>
    refine ⟨?_, hblock⟩
    change (Bytes.xor (cipher.decrypt block) previous).length = cipher.blockSize
    rw [Bytes.length_xor, hlawful.length_decrypt hblock, hprevious, Nat.min_self]

theorem transformBlock_opposite {cipher : BlockCipher} (hlawful : cipher.Lawful)
    (direction : Direction) {previous block : Bytes}
    (hprevious : previous.length = cipher.blockSize) (hblock : block.length = cipher.blockSize) :
    transformBlock cipher direction.opposite previous
        (transformBlock cipher direction previous block).1 =
      (block, (transformBlock cipher direction previous block).2) := by
  cases direction with
  | encode =>
    have hmixed : (Bytes.xor block previous).length = cipher.blockSize := by
      rw [Bytes.length_xor, hblock, hprevious, Nat.min_self]
    have hcancel : Bytes.xor (Bytes.xor block previous) previous = block :=
      Bytes.xor_xor_cancel (Nat.le_of_eq (hblock.trans hprevious.symm))
    simp only [transformBlock, Direction.opposite, hlawful.decrypt_encrypt hmixed, hcancel]
  | decode =>
    have hcancel : Bytes.xor (Bytes.xor (cipher.decrypt block) previous) previous =
        cipher.decrypt block :=
      Bytes.xor_xor_cancel (Nat.le_of_eq ((hlawful.length_decrypt hblock).trans hprevious.symm))
    simp only [transformBlock, Direction.opposite, hcancel, hlawful.encrypt_decrypt hblock]

variable {cipher : BlockCipher} (hlawful : cipher.Lawful) (direction : Direction)
  {previous : Bytes} (hprevious : previous.length = cipher.blockSize) {data : Bytes}
  (hwhole : cipher.blockSize ∣ data.length)

include hwhole in
theorem run_eq_mapAccum : run cipher direction previous data =
    ((mapAccum (transformBlock cipher direction) previous
        (Bytes.blocks cipher.blockSize data)).1.flatten,
      (mapAccum (transformBlock cipher direction) previous
        (Bytes.blocks cipher.blockSize data)).2) := by
  simp only [run, Bytes.partialBlock_eq_nil hwhole, List.append_nil]

include hlawful hprevious

theorem mapAccum_blocks (data : Bytes) :
    (∀ out ∈ (mapAccum (transformBlock cipher direction) previous
        (Bytes.blocks cipher.blockSize data)).1, out.length = cipher.blockSize) ∧
      (mapAccum (transformBlock cipher direction) previous
        (Bytes.blocks cipher.blockSize data)).2.length = cipher.blockSize :=
  mapAccum_invariant (fun state : Bytes ↦ state.length = cipher.blockSize)
    (fun item : Bytes ↦ item.length = cipher.blockSize)
    (fun out : Bytes ↦ out.length = cipher.blockSize)
    (fun _ _ hstate hitem ↦ length_transformBlock hlawful direction hstate hitem)
    hprevious Bytes.length_of_mem_blocks

include hwhole

theorem length_run : (run cipher direction previous data).1.length = data.length ∧
    (run cipher direction previous data).2.length = cipher.blockSize := by
  have hblocks := mapAccum_blocks hlawful direction hprevious data
  rw [run_eq_mapAccum direction hwhole]
  refine ⟨?_, hblocks.2⟩
  rw [Bytes.length_flatten_of_forall hblocks.1, length_mapAccum, Bytes.blocks,
    Bytes.length_takeBlocks, Nat.mul_div_cancel' hwhole]

theorem run_opposite_run :
    run cipher direction.opposite previous (run cipher direction previous data).1 =
      (data, (run cipher direction previous data).2) := by
  have hlength := (length_run hlawful direction hprevious hwhole).1
  have hagain : cipher.blockSize ∣ (run cipher direction previous data).1.length := by
    rwa [hlength]
  have hblocks := (mapAccum_blocks hlawful direction hprevious data).1
  have hinverse : mapAccum (transformBlock cipher direction.opposite) previous
      (mapAccum (transformBlock cipher direction) previous
        (Bytes.blocks cipher.blockSize data)).1 =
      (Bytes.blocks cipher.blockSize data, (mapAccum (transformBlock cipher direction) previous
        (Bytes.blocks cipher.blockSize data)).2) := by
    refine mapAccum_inverse (fun state : Bytes ↦ state.length = cipher.blockSize)
      (fun item : Bytes ↦ item.length = cipher.blockSize) ?_ hprevious Bytes.length_of_mem_blocks
    intro state item hstate hitem
    exact ⟨transformBlock_opposite hlawful direction hstate hitem,
      (length_transformBlock hlawful direction hstate hitem).2⟩
  rw [run_eq_mapAccum direction.opposite hagain, run_eq_mapAccum direction hwhole,
    Bytes.blocks_flatten cipher.blockSize_pos hblocks, hinverse, Bytes.flatten_blocks hwhole]

end Cbc

/-! ## CFB -/

namespace Cfb

theorem transformByte_opposite (cipher : BlockCipher) (direction : Direction)
    (register : Register) (byte : UInt8) :
    transformByte cipher direction.opposite register
        (transformByte cipher direction register byte).1 =
      (byte, (transformByte cipher direction register byte).2) := by
  have hcancel (key : UInt8) : byte ^^^ key ^^^ key = byte := by
    rw [UInt8.xor_assoc, UInt8.xor_self, UInt8.xor_zero]
  cases direction <;> simp only [transformByte, Direction.opposite, hcancel]

theorem run_opposite_run (cipher : BlockCipher) (direction : Direction) (register : Register)
    (data : Bytes) :
    run cipher direction.opposite register (run cipher direction register data).1 =
      (data, (run cipher direction register data).2) :=
  mapAccum_inverse (fun _ ↦ True) (fun _ ↦ True)
    (fun state byte _ _ ↦ ⟨transformByte_opposite cipher direction state byte, trivial⟩)
    trivial fun _ _ ↦ trivial

end Cfb

end Mode

/-! ## Transforms -/

namespace Transform

open Mode

/-- The transform for the other direction, in the same state. -/
def opposite : Transform → Transform
  | ecb cipher direction => ecb cipher direction.opposite
  | cbc cipher direction previous => cbc cipher direction.opposite previous
  | cfb cipher direction register => cfb cipher direction.opposite register

/-- The cipher is lawful if blocks of it have to be undone, and a block to be chained is one. -/
def Sound : Transform → Prop
  | ecb cipher _ => cipher.Lawful
  | cbc cipher _ previous => cipher.Lawful ∧ previous.length = cipher.blockSize
  | cfb _ _ _ => True

@[simp] theorem apply_nil (transform : Transform) : transform.apply [] = ([], transform) := by
  cases transform <;>
    simp [apply, Ecb.run, Cbc.run, Cfb.run, Bytes.blocks, Bytes.takeBlocks, Bytes.partialBlock]

theorem length_apply {transform : Transform} (hsound : transform.Sound) {data : Bytes}
    (htakes : transform.Takes data) : (transform.apply data).1.length = data.length := by
  cases transform with
  | ecb cipher direction => exact Ecb.length_run hsound direction htakes
  | cbc cipher direction previous =>
    exact (Cbc.length_run hsound.1 direction hsound.2 htakes).1
  | cfb cipher direction register => exact Cfb.length_run cipher direction register data

theorem sound_apply {transform : Transform} (hsound : transform.Sound) {data : Bytes}
    (htakes : transform.Takes data) : (transform.apply data).2.Sound := by
  cases transform with
  | ecb cipher direction => exact hsound
  | cbc cipher direction previous =>
    exact ⟨hsound.1, (Cbc.length_run hsound.1 direction hsound.2 htakes).2⟩
  | cfb cipher direction register => trivial

theorem takes_apply_iff (transform : Transform) (data other : Bytes) :
    (transform.apply data).2.Takes other ↔ transform.Takes other := by
  cases transform with
  | ecb cipher direction => exact Iff.rfl
  | cbc cipher direction previous => exact Iff.rfl
  | cfb cipher direction register => exact Iff.rfl

/-- What one transform has made, the opposite one restores, and both reach the same state. -/
theorem apply_opposite_apply {transform : Transform} (hsound : transform.Sound) {data : Bytes}
    (htakes : transform.Takes data) :
    transform.opposite.apply (transform.apply data).1 =
      (data, (transform.apply data).2.opposite) := by
  cases transform with
  | ecb cipher direction =>
    have hrun := Ecb.run_opposite_run hsound direction htakes
    simp only [opposite, apply, hrun]
  | cbc cipher direction previous =>
    have hrun := Cbc.run_opposite_run hsound.1 direction hsound.2 htakes
    simp only [opposite, apply, hrun]
  | cfb cipher direction register =>
    have hrun := Cfb.run_opposite_run cipher direction register data
    simp only [opposite, apply, hrun]

end Transform

end StreamCrypto
