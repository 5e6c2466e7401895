import StreamCrypto.Bytes.Words
import StreamCrypto.Cipher.Block
import StreamCrypto.Cipher.Feistel
import StreamCrypto.Cipher.PiDigits

/-!
# Blowfish

Sixteen Feistel rounds on blocks of two 32-bit words, with one more subkey combined into
a word before them and one after them. The subkeys and the substitution boxes start as
digits of pi. The key is combined into the subkeys, and then all of them are replaced, two
words at a time, by repeatedly encrypting a block with what has been replaced so far.
-/

namespace StreamCrypto.Cipher.Blowfish

open Feistel

/-- Four boxes of 256 words, one after the other. -/
abbrev Boxes := Vector UInt32 1024

structure Schedule where
  /-- The subkey that is combined into a block before the rounds. -/
  before : UInt32
  rounds : List UInt32
  /-- The subkey that is combined into a block after the rounds. -/
  after : UInt32
  boxes : Boxes

def lookup (boxes : Boxes) (box : Fin 4) (byte : UInt8) : UInt32 :=
  have : 256 * box.val + byte.toNat < 1024 := by
    have := byte.toNat_lt
    omega
  boxes[256 * box.val + byte.toNat]

/-- The words that the four bytes of a word select from the boxes, combined. -/
def substitute (boxes : Boxes) (word : UInt32) : UInt32 :=
  ((lookup boxes 0 (word >>> 24).toUInt8 + lookup boxes 1 (word >>> 16).toUInt8) ^^^
    lookup boxes 2 (word >>> 8).toUInt8) + lookup boxes 3 word.toUInt8

/-- The function of a round. -/
def mix (boxes : Boxes) (key half : UInt32) : UInt32 := substitute boxes half ^^^ key

namespace Schedule

def crypt (s : Schedule) (block : Halves UInt32) : Halves UInt32 :=
  let h := network (mix s.boxes) s.rounds ⟨block.right, block.left ^^^ s.before⟩
  ⟨h.right ^^^ s.after, h.left⟩

/-- The schedule that decrypts what a schedule encrypts. -/
def reversed (s : Schedule) : Schedule :=
  { s with before := s.after, rounds := s.rounds.reverse, after := s.before }

def ofSubkeys (subkeys : List UInt32) (boxes : Boxes) : Schedule where
  before := subkeys.headD 0
  rounds := (subkeys.drop 1).take 16
  after := subkeys.getD 17 0
  boxes := boxes

end Schedule

/-! ## Key expansion -/

/-- The digits of pi as 32-bit words. -/
def piWords : List UInt32 :=
  PiDigits.rows.flatMap fun row ↦ Bytes.words32BigEndian (Bytes.ofNatBigEndian 32 row)

def initialSubkeys : List UInt32 := piWords.take 18

def initialBoxes : Boxes :=
  let words := (piWords.drop 18).toArray
  Vector.ofFn fun i ↦ words.getD i.val 0

/-- The first 72 bytes of a key that is written over and over again, as words. -/
def cycledKey (key : Bytes) : List UInt32 :=
  Bytes.words32BigEndian ((List.replicate 72 key).flatten.take 72)

/-- Replaces the subkeys `2 * i` and `2 * i + 1`. -/
def replaceSubkeys (boxes : Boxes) (current : List UInt32 × Halves UInt32) (i : Nat) :
    List UInt32 × Halves UInt32 :=
  let block := (Schedule.ofSubkeys current.1 boxes).crypt current.2
  ((current.1.set (2 * i) block.left).set (2 * i + 1) block.right, block)

/-- Replaces the box entries `2 * i` and `2 * i + 1`. -/
def replaceEntries (subkeys : List UInt32) (current : Boxes × Halves UInt32) (i : Nat) :
    Boxes × Halves UInt32 :=
  let (boxes, h) := current
  let block := (Schedule.ofSubkeys subkeys boxes).crypt h
  ((boxes.setIfInBounds (2 * i) block.left).setIfInBounds (2 * i + 1) block.right, block)

def schedule (key : Bytes) : Schedule :=
  let mixed := List.zipWith (· ^^^ ·) initialSubkeys (cycledKey key)
  let (subkeys, block) := (List.range 9).foldl (replaceSubkeys initialBoxes) (mixed, ⟨0, 0⟩)
  let (boxes, _) := (List.range 512).foldl (replaceEntries subkeys) (initialBoxes, block)
  Schedule.ofSubkeys subkeys boxes

/-! ## The cipher -/

def ofBytes (block : Bytes) : Halves UInt32 :=
  match Bytes.words32BigEndian block with
  | left :: right :: _ => ⟨left, right⟩
  | _ => ⟨0, 0⟩

def toBytes (h : Halves UInt32) : Bytes :=
  Bytes.ofWord32BigEndian h.left ++ Bytes.ofWord32BigEndian h.right

def cipher (key : Bytes) : BlockCipher :=
  let s := schedule key
  let r := s.reversed
  { blockSize := 8
    blockSize_pos := eight_pos
    encrypt := fun block ↦ toBytes (s.crypt (ofBytes block))
    decrypt := fun block ↦ toBytes (r.crypt (ofBytes block)) }

end StreamCrypto.Cipher.Blowfish
