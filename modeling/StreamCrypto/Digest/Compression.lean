import StreamCrypto.Bytes.Blocks

/-!
# Digests by iterated compression

A compression function absorbs one block into a chaining state. A message is digested by
appending a terminator that makes it a whole number of blocks and records its length. The
state after every block is a function of the text and of the number of the block
(`Compression.chained`), and the digest is read off the last state: `Compression.digest`.

A `Hasher` works while the message arrives in pieces. It keeps the chaining state, the bytes
that do not fill a block yet, and the number of bytes seen, and absorbs whole blocks as they
come. What a hasher has read determines it, and finishing it yields the digest of what it has
read (`HasRead.finish`), however that was cut into pieces (`HasRead.update`).
-/

namespace StreamCrypto.Digest

/-- Digests of 32-bit words have blocks of sixteen words. -/
theorem sixtyFour_pos : 0 < 64 := by decide

/-- What distinguishes one digest of this family from another. -/
structure Compression where
  State : Type
  blockSize : Nat
  blockSize_pos : 0 < blockSize := by decide
  initial : State
  absorb : State → Bytes → State
  /-- How many bytes of the terminator record the length. -/
  lengthWidth : Nat
  /-- The length field for a number of bits. -/
  lengthField : Nat → Bytes
  /-- The digest that a final state stands for. -/
  output : State → Bytes

namespace Compression

/-- The number of zero bytes between the marker byte and the length field. -/
def fillLength (c : Compression) (messageLength : Nat) : Nat :=
  (c.blockSize - (messageLength + 1 + c.lengthWidth) % c.blockSize) % c.blockSize

/-- The bytes that follow a message of `messageLength` bytes. -/
def terminator (c : Compression) (messageLength : Nat) : Bytes :=
  0x80 :: List.replicate (c.fillLength messageLength) 0 ++ c.lengthField (8 * messageLength)

/-- Absorbs the whole blocks of `data`. -/
def absorbBlocks (c : Compression) (state : c.State) (data : Bytes) : c.State :=
  (Bytes.blocks c.blockSize data).foldl c.absorb state

/-- Bytes after a whole number of blocks are absorbed after those blocks. -/
theorem absorbBlocks_append (c : Compression) (state : c.State) {data : Bytes}
    (whole : c.blockSize ∣ data.length) (rest : Bytes) :
    c.absorbBlocks state (data ++ rest) = c.absorbBlocks (c.absorbBlocks state data) rest := by
  simp only [absorbBlocks, Bytes.blocks_append c.blockSize_pos whole, List.foldl_append]

/-- The whole blocks of a message can be absorbed before the rest is known. -/
theorem absorbBlocks_partialBlock (c : Compression) (state : c.State) (data rest : Bytes) :
    c.absorbBlocks (c.absorbBlocks state data) (Bytes.partialBlock c.blockSize data ++ rest) =
      c.absorbBlocks state (data ++ rest) := by
  have whole : c.blockSize ∣ (Bytes.blocks c.blockSize data).flatten.length :=
    Bytes.dvd_length_flatten_blocks c.blockSize data
  calc
    _ = c.absorbBlocks (c.absorbBlocks state (Bytes.blocks c.blockSize data).flatten)
          (Bytes.partialBlock c.blockSize data ++ rest) := by
      simp only [absorbBlocks, Bytes.blocks_flatten_blocks c.blockSize_pos]
    _ = c.absorbBlocks state ((Bytes.blocks c.blockSize data).flatten ++
          (Bytes.partialBlock c.blockSize data ++ rest)) :=
      (absorbBlocks_append c state whole _).symm
    _ = _ := by rw [← List.append_assoc, Bytes.flatten_blocks_append_partialBlock]

/-- The chaining state after the first blocks of a text, each taken by its number. -/
def chained (c : Compression) (text : Bytes) : (count : Nat) → c.State
  | 0 => c.initial
  | i + 1 => c.absorb (c.chained text i) (Bytes.block c.blockSize text i)

/-- The digest of a whole message. -/
def digest (c : Compression) (message : Bytes) : Bytes :=
  let text := message ++ c.terminator message.length
  c.output (c.chained text (text.length / c.blockSize))

theorem absorbBlocks_initial (c : Compression) (text : Bytes) :
    c.absorbBlocks c.initial text = c.chained text (text.length / c.blockSize) := by
  rw [absorbBlocks, Bytes.blocks_eq_map_block, List.foldl_map]
  induction text.length / c.blockSize with
  | zero => rfl
  | succ count ih =>
    rw [List.range_succ, List.foldl_append, ih]
    rfl

end Compression

/-- A digest of a message that is still arriving. -/
structure Hasher (c : Compression) where
  state : c.State
  /-- The end of the message so far that does not fill a block. -/
  pending : Bytes
  /-- The number of message bytes so far. -/
  length : Nat

namespace Hasher

variable {c : Compression}

def new (c : Compression) : Hasher c := ⟨c.initial, [], 0⟩

def update (hasher : Hasher c) (data : Bytes) : Hasher c :=
  let unread := hasher.pending ++ data
  { state := c.absorbBlocks hasher.state unread
    pending := Bytes.partialBlock c.blockSize unread
    length := hasher.length + data.length }

/-- The digest of the message so far. -/
def finish (hasher : Hasher c) : Bytes :=
  c.output (c.absorbBlocks hasher.state (hasher.pending ++ c.terminator hasher.length))

/-- The hasher is in the state that reading `message` leads to. -/
structure HasRead (hasher : Hasher c) (message : Bytes) : Prop where
  state : hasher.state = c.absorbBlocks c.initial message
  pending : hasher.pending = Bytes.partialBlock c.blockSize message
  length : hasher.length = message.length

theorem hasRead_new (c : Compression) : (new c).HasRead [] where
  state := by simp [new, Compression.absorbBlocks, Bytes.blocks, Bytes.takeBlocks]
  pending := by simp [new, Bytes.partialBlock]
  length := rfl

theorem HasRead.update {hasher : Hasher c} {message : Bytes} (h : hasher.HasRead message)
    (data : Bytes) : (hasher.update data).HasRead (message ++ data) where
  state := by
    simp only [Hasher.update, h.state, h.pending, Compression.absorbBlocks_partialBlock]
  pending := by
    simp only [Hasher.update, h.pending, Bytes.partialBlock_partialBlock_append c.blockSize_pos]
  length := by simp [Hasher.update, h.length]

theorem HasRead.finish {hasher : Hasher c} {message : Bytes} (h : hasher.HasRead message) :
    hasher.finish = c.digest message := by
  rw [Hasher.finish, h.state, h.pending, h.length, Compression.absorbBlocks_partialBlock,
    Compression.absorbBlocks_initial, Compression.digest]

end Hasher

end StreamCrypto.Digest
