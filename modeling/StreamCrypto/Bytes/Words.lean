import StreamCrypto.Bytes.Basic

/-!
# Words in byte strings

Machine words of 32 and 64 bits are read from byte strings and written to them in either
byte order. Bytes that do not fill a word are not read. In big-endian order, reading undoes
writing and writing undoes reading.
-/

namespace StreamCrypto.Bytes

/-- The 32-bit word with the given bytes, the most significant one first. -/
@[inline] def word32 (a b c d : UInt8) : UInt32 :=
  a.toUInt32 <<< 24 ||| b.toUInt32 <<< 16 ||| c.toUInt32 <<< 8 ||| d.toUInt32

def words32BigEndian : Bytes → List UInt32
  | a :: b :: c :: d :: rest => word32 a b c d :: words32BigEndian rest
  | _ => []

def words32LittleEndian : Bytes → List UInt32
  | a :: b :: c :: d :: rest => word32 d c b a :: words32LittleEndian rest
  | _ => []

/-- The 64-bit word with the given halves, the most significant one first. -/
@[inline] def word64 (high low : UInt32) : UInt64 :=
  high.toUInt64 <<< 32 ||| low.toUInt64

def joinHalves : List UInt32 → List UInt64
  | high :: low :: rest => word64 high low :: joinHalves rest
  | _ => []

def words64BigEndian (data : Bytes) : List UInt64 := joinHalves (words32BigEndian data)

def ofWord32BigEndian (word : UInt32) : Bytes :=
  [(word >>> 24).toUInt8, (word >>> 16).toUInt8, (word >>> 8).toUInt8, word.toUInt8]

def ofWord32LittleEndian (word : UInt32) : Bytes :=
  [word.toUInt8, (word >>> 8).toUInt8, (word >>> 16).toUInt8, (word >>> 24).toUInt8]

/-- The first word of a byte string, or zero if there is none. -/
def toWord64BigEndian (data : Bytes) : UInt64 :=
  match words32BigEndian data with
  | high :: low :: _ => word64 high low
  | _ => 0

def ofWord64BigEndian (word : UInt64) : Bytes :=
  ofWord32BigEndian (word >>> 32).toUInt32 ++ ofWord32BigEndian word.toUInt32

/-! ## Reading and writing -/

theorem ofWord32BigEndian_word32 (a b c d : UInt8) :
    ofWord32BigEndian (word32 a b c d) = [a, b, c, d] := by
  simp only [ofWord32BigEndian, word32, List.cons.injEq, and_true]
  refine ⟨?_, ?_, ?_, ?_⟩ <;>
  · apply UInt8.toBitVec_inj.1
    apply BitVec.eq_of_getLsbD_eq
    intro i hi
    simp only [UInt32.toBitVec_or, UInt32.toBitVec_shiftLeft, UInt8.toBitVec_toUInt32,
      UInt32.toBitVec_toUInt8, UInt32.toBitVec_shiftRight, UInt32.toBitVec_ofNat,
      BitVec.getLsbD_or, BitVec.getLsbD_setWidth]
    simp
    grind

theorem words32BigEndian_ofWord32BigEndian (word : UInt32) (rest : Bytes) :
    words32BigEndian (ofWord32BigEndian word ++ rest) = word :: words32BigEndian rest := by
  simp only [ofWord32BigEndian, List.cons_append, List.nil_append, words32BigEndian,
    List.cons.injEq, and_true, word32]
  apply UInt32.toBitVec_inj.1
  apply BitVec.eq_of_getLsbD_eq
  intro i hi
  simp only [UInt32.toBitVec_or, UInt32.toBitVec_shiftLeft, UInt8.toBitVec_toUInt32,
    UInt32.toBitVec_toUInt8, UInt32.toBitVec_shiftRight, UInt32.toBitVec_ofNat,
    BitVec.getLsbD_or, BitVec.getLsbD_setWidth]
  simp
  grind

theorem word64_halves (word : UInt64) :
    word64 (word >>> 32).toUInt32 word.toUInt32 = word := by
  apply UInt64.toBitVec_inj.1
  apply BitVec.eq_of_getLsbD_eq
  intro i hi
  simp only [word64, UInt64.toBitVec_or, UInt64.toBitVec_shiftLeft, UInt32.toBitVec_toUInt64,
    UInt64.toBitVec_toUInt32, UInt64.toBitVec_shiftRight, UInt64.toBitVec_ofNat,
    BitVec.getLsbD_or, BitVec.getLsbD_setWidth]
  simp
  grind

theorem high_word64 (high low : UInt32) : (word64 high low >>> 32).toUInt32 = high := by
  apply UInt32.toBitVec_inj.1
  apply BitVec.eq_of_getLsbD_eq
  intro i hi
  simp only [word64, UInt64.toBitVec_or, UInt64.toBitVec_shiftLeft, UInt32.toBitVec_toUInt64,
    UInt64.toBitVec_toUInt32, UInt64.toBitVec_shiftRight, UInt64.toBitVec_ofNat]
  simp
  grind

theorem low_word64 (high low : UInt32) : (word64 high low).toUInt32 = low := by
  apply UInt32.toBitVec_inj.1
  apply BitVec.eq_of_getLsbD_eq
  intro i hi
  simp only [word64, UInt64.toBitVec_or, UInt64.toBitVec_shiftLeft, UInt32.toBitVec_toUInt64,
    UInt64.toBitVec_toUInt32, UInt64.toBitVec_ofNat]
  simp

@[simp] theorem length_ofWord32BigEndian (word : UInt32) : (ofWord32BigEndian word).length = 4 :=
  rfl

@[simp] theorem length_ofWord64BigEndian (word : UInt64) : (ofWord64BigEndian word).length = 8 :=
  rfl

theorem toWord64BigEndian_ofWord64BigEndian (word : UInt64) :
    toWord64BigEndian (ofWord64BigEndian word) = word := by
  have h := words32BigEndian_ofWord32BigEndian word.toUInt32 []
  rw [List.append_nil] at h
  simp only [toWord64BigEndian, ofWord64BigEndian, words32BigEndian_ofWord32BigEndian, h,
    word64_halves]

/-- A byte string of eight bytes, byte by byte. -/
theorem exists_eight_bytes {data : Bytes} (h : data.length = 8) :
    ∃ a b c d e f g i : UInt8, data = [a, b, c, d, e, f, g, i] := by
  match data, h with
  | [a, b, c, d, e, f, g, i], _ => exact ⟨a, b, c, d, e, f, g, i, rfl⟩

theorem ofWord64BigEndian_toWord64BigEndian {data : Bytes} (h : data.length = 8) :
    ofWord64BigEndian (toWord64BigEndian data) = data := by
  obtain ⟨a, b, c, d, e, f, g, i, rfl⟩ := exists_eight_bytes h
  simp only [toWord64BigEndian, words32BigEndian, ofWord64BigEndian, high_word64, low_word64,
    ofWord32BigEndian_word32, List.cons_append, List.nil_append]

end StreamCrypto.Bytes
