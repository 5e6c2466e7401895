import StreamCrypto.Cipher.Des

/-!
# Bits of a selection

A selection is determined by where each of its bits comes from (`getLsbD_select`). Bits are
counted from 0 at the least significant end here, while positions are counted from 1 at
the other end. A twofold selection that brings every bit back to its place changes
nothing (`select_select`).
-/

namespace StreamCrypto.Cipher.Des

theorem getLsbD_bitAt (width : Nat) (word : UInt64) (position i : Nat) :
    (bitAt width word position).toBitVec.getLsbD i =
      (decide (i = 0) && word.toBitVec.getLsbD ((width - position) % 64)) := by
  have one : (1 : UInt64).toBitVec.getLsbD i = decide (i = 0) := by
    simp [UInt64.toBitVec_ofNat]
  simp only [bitAt, UInt64.toBitVec_and, BitVec.getLsbD_and, one, UInt64.toBitVec_shiftRight]
  by_cases h : i = 0
  · subst h
    simp
  · simp [h]

theorem getLsbD_select (width : Nat) (positions : List Nat) (word : UInt64) {i : Nat}
    (small : i < 64) :
    (select width positions word).toBitVec.getLsbD i =
      (positions.reverse[i]?.map fun position ↦
        word.toBitVec.getLsbD ((width - position) % 64)).getD false := by
  unfold select
  rw [List.foldl_eq_foldr_reverse]
  induction positions.reverse generalizing i with
  | nil => simp
  | cons position rest ih =>
    simp only [List.foldr_cons, UInt64.toBitVec_or, BitVec.getLsbD_or, getLsbD_bitAt,
      UInt64.toBitVec_shiftLeft]
    cases i with
    | zero => simp
    | succ i =>
      have smaller : i < 64 := Nat.lt_of_succ_lt small
      simpa [small, BitVec.getLsbD_eq_getElem smaller] using ih smaller

/-- Where the bit at `i` of a twofold selection from 64 bits comes from. -/
def source? (outer inner : List Nat) (i : Nat) : Option Nat :=
  outer.reverse[i]?.bind fun position ↦
    inner.reverse[(64 - position) % 64]?.map fun position ↦ (64 - position) % 64

theorem select_select {outer inner : List Nat} (h : ∀ i < 64, source? outer inner i = some i)
    (word : UInt64) : select 64 outer (select 64 inner word) = word := by
  apply UInt64.toBitVec_inj.1
  apply BitVec.eq_of_getLsbD_eq
  intro i small
  have origin := h i small
  simp only [source?, Option.bind_eq_some_iff, Option.map_eq_some_iff] at origin
  obtain ⟨first, hFirst, second, hSecond, same⟩ := origin
  rw [getLsbD_select 64 outer _ small, hFirst, Option.map_some, Option.getD_some,
    getLsbD_select 64 inner _ (Nat.mod_lt _ (by decide)), hSecond, Option.map_some,
    Option.getD_some, same]

end StreamCrypto.Cipher.Des
