import StreamCrypto.Bytes.Basic

/-!
# Blocks of byte strings

A byte string is its whole blocks of a size, followed by a partial block
(`flatten_blocks_append_partialBlock`). Cutting it after a whole number of blocks cuts the
list of blocks and leaves the partial block (`blocks_append`, `partialBlock_append`). The
whole blocks can also be had by number (`blocks_eq_map_block`).
-/

namespace StreamCrypto.Bytes

/-- The first `count` pieces of `size` bytes. -/
def takeBlocks (size : Nat) : (count : Nat) → Bytes → List Bytes
  | 0, _ => []
  | count + 1, data => data.take size :: takeBlocks size count (data.drop size)

/-- The whole blocks of `size` bytes that `data` begins with. -/
def blocks (size : Nat) (data : Bytes) : List Bytes :=
  takeBlocks size (data.length / size) data

/-- What follows the whole blocks; it is shorter than one block. -/
def partialBlock (size : Nat) (data : Bytes) : Bytes :=
  data.drop (size * (data.length / size))

/-- Block `i` of a text, counted from 0. -/
def block (size : Nat) (data : Bytes) (i : Nat) : Bytes :=
  (data.drop (size * i)).take size

/-- The pieces of `size` bytes that `data` falls into. The last one may be shorter. -/
def chunks (size : Nat) (data : Bytes) : List Bytes :=
  match partialBlock size data with
  | [] => blocks size data
  | rest => blocks size data ++ [rest]

/-! ## Cutting -/

theorem length_takeBlocks (size count : Nat) (data : Bytes) :
    (takeBlocks size count data).length = count := by
  induction count generalizing data with
  | zero => rfl
  | succ count ih => simp [takeBlocks, ih]

theorem flatten_takeBlocks (size count : Nat) (data : Bytes) :
    (takeBlocks size count data).flatten = data.take (size * count) := by
  induction count generalizing data with
  | zero => simp [takeBlocks]
  | succ count ih =>
    simp only [takeBlocks, List.flatten_cons, ih]
    rw [Nat.mul_succ, Nat.add_comm, List.take_add]

theorem takeBlocks_append (size count : Nat) (data rest : Bytes) (h : size * count ≤ data.length) :
    takeBlocks size count (data ++ rest) = takeBlocks size count data := by
  induction count generalizing data with
  | zero => rfl
  | succ count ih =>
    rw [Nat.mul_succ] at h
    simp only [takeBlocks]
    rw [List.take_append_of_le_length (by omega), List.drop_append_of_le_length (by omega), ih]
    rw [List.length_drop]
    omega

theorem takeBlocks_add (size first second : Nat) (data : Bytes) :
    takeBlocks size (first + second) data =
      takeBlocks size first data ++ takeBlocks size second (data.drop (size * first)) := by
  induction first generalizing data with
  | zero => simp [takeBlocks]
  | succ first ih =>
    rw [Nat.succ_add]
    simp only [takeBlocks, ih, List.cons_append, List.drop_drop]
    congr 3
    rw [Nat.mul_succ, Nat.add_comm]

theorem blocks_append {size : Nat} (pos : 0 < size) {data : Bytes}
    (whole : size ∣ data.length) (rest : Bytes) :
    blocks size (data ++ rest) = blocks size data ++ blocks size rest := by
  obtain ⟨count, h⟩ := whole
  unfold blocks
  rw [List.length_append, h, Nat.mul_add_div pos, Nat.mul_div_cancel_left _ pos, takeBlocks_add,
    takeBlocks_append _ _ _ _ (by omega), ← h, List.drop_left]

theorem partialBlock_append {size : Nat} (pos : 0 < size) {data : Bytes}
    (whole : size ∣ data.length) (rest : Bytes) :
    partialBlock size (data ++ rest) = partialBlock size rest := by
  obtain ⟨count, h⟩ := whole
  unfold partialBlock
  rw [List.length_append, h, Nat.mul_add_div pos, Nat.mul_add, ← h, List.drop_append]
  simp

theorem flatten_blocks_append_partialBlock (size : Nat) (data : Bytes) :
    (blocks size data).flatten ++ partialBlock size data = data := by
  rw [blocks, flatten_takeBlocks, partialBlock, List.take_append_drop]

theorem partialBlock_eq_nil {size : Nat} {data : Bytes} (whole : size ∣ data.length) :
    partialBlock size data = [] := by
  rw [partialBlock, Nat.mul_div_cancel' whole, List.drop_length]

theorem dvd_length_flatten_blocks (size : Nat) (data : Bytes) :
    size ∣ (blocks size data).flatten.length := by
  rw [blocks, flatten_takeBlocks, List.length_take, Nat.min_eq_left (Nat.mul_div_le _ _)]
  exact Nat.dvd_mul_right _ _

/-- Without its partial block a byte string has the same whole blocks. -/
theorem blocks_flatten_blocks {size : Nat} (pos : 0 < size) (data : Bytes) :
    blocks size (blocks size data).flatten = blocks size data := by
  have h := Nat.mul_div_le data.length size
  rw [blocks, blocks, flatten_takeBlocks, List.length_take, Nat.min_eq_left h,
    Nat.mul_div_cancel_left _ pos]
  have front := takeBlocks_append size (data.length / size)
    (data.take (size * (data.length / size))) (data.drop (size * (data.length / size)))
    (Nat.le_of_eq (by rw [List.length_take, Nat.min_eq_left h]))
  rw [List.take_append_drop] at front
  exact front.symm

theorem partialBlock_partialBlock_append {size : Nat} (pos : 0 < size) (data rest : Bytes) :
    partialBlock size (partialBlock size data ++ rest) = partialBlock size (data ++ rest) := by
  conv => rhs; rw [← flatten_blocks_append_partialBlock size data, List.append_assoc]
  rw [partialBlock_append pos (dvd_length_flatten_blocks size data)]

/-! ## Blocks by number -/

theorem block_drop (size : Nat) (data : Bytes) (i : Nat) :
    block size (data.drop size) i = block size data (i + 1) := by
  unfold block
  rw [List.drop_drop, Nat.mul_succ, Nat.add_comm]

theorem takeBlocks_eq_map_block (size count : Nat) (data : Bytes) :
    takeBlocks size count data = (List.range count).map (block size data) := by
  induction count generalizing data with
  | zero => rfl
  | succ count ih =>
    have hrest : takeBlocks size count (data.drop size) =
        (List.range count).map fun i ↦ block size data (i + 1) := by
      rw [ih]
      exact List.map_congr_left fun i _ ↦ block_drop size data i
    rw [takeBlocks, hrest, List.range_succ_eq_map, List.map_cons, List.map_map]
    rfl

theorem blocks_eq_map_block (size : Nat) (data : Bytes) :
    blocks size data = (List.range (data.length / size)).map (block size data) :=
  takeBlocks_eq_map_block _ _ _

end StreamCrypto.Bytes
