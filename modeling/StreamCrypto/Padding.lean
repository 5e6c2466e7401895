import StreamCrypto.Bytes.Basic

/-!
# Padding

A message is filled up to a whole number of blocks with bytes that each say how many of
them there are; there is always at least one. The check of a last block looks at every
byte of it, whatever the others are.
-/

namespace StreamCrypto.Padding

/-- The last block of a message that ends in `rest`, which is shorter than a block. -/
def pad (blockSize : Nat) (rest : Bytes) : Bytes :=
  let count := blockSize - rest.length
  rest ++ List.replicate count (UInt8.ofNat count)

/-- Whether a byte that has `distance - 1` bytes after it may stand in a block whose last
byte is `count`: it repeats the count if it belongs to the padding. -/
def fits (count distance byte : UInt8) : Bool :=
  !(distance ≤ count) || byte == count

/-- Checks each byte against its distance from the end of the block. -/
def allFit (count : UInt8) : Bytes → Bool
  | [] => true
  | byte :: rest => fits count (UInt8.ofNat (rest.length + 1)) byte && allFit count rest

/-- How many bytes of a last block are content, if its padding is right. -/
def contentLength? (block : Bytes) : Option Nat :=
  match block.getLast? with
  | none => none
  | some count =>
    if count ≠ 0 ∧ count ≤ UInt8.ofNat block.length ∧ allFit count block = true then
      some (block.length - count.toNat)
    else none

end StreamCrypto.Padding
