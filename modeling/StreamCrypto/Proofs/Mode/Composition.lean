import Mathlib.Algebra.BigOperators.Ring.List
import Mathlib.Algebra.Ring.Nat
import StreamCrypto.Proofs.Cipher.Setup

/-!
# Transforms over many pieces

A transform that is given data in pieces gives back, all in all, what it would have made of the
pieces joined, and is the same afterwards (`apply_flatten`). So the pieces that the transform of the
other direction is given need not be the ones that the first transform returned: any way to cut the
same bytes will do, as long as it leaves whole blocks where the mode works on blocks
(`applyAll_opposite`), and the bytes that are still to come are not needed to restore the earlier
ones (`fst_applyAll_opposite`). All of this holds at any point of a run, and not only for transforms
at their beginning (`opened_composes_and_restores`). Data that ends inside a block is not the
subject of this module, except in CFB.
-/

namespace StreamCrypto

/-- Data that a mode works on as it is: whole blocks, or any data in a stream mode. -/
def Mode.Admits (mode : Mode) (blockSize : Nat) (data : Bytes) : Prop :=
  mode.isStream = true ∨ blockSize ∣ data.length

namespace Transform

/-- Transforms pieces of data one after the other. -/
def applyAll (transform : Transform) (pieces : List Bytes) : List Bytes × Transform :=
  Mode.mapAccum apply transform pieces

theorem applyAll_cons (transform : Transform) (piece : Bytes) (pieces : List Bytes) :
    transform.applyAll (piece :: pieces) =
      ((transform.apply piece).1 :: ((transform.apply piece).2.applyAll pieces).1,
        ((transform.apply piece).2.applyAll pieces).2) :=
  Mode.mapAccum_cons _ _ _ _

/-- Where data is cut in two makes no difference, neither to the output nor to the transform after
it. -/
structure Composes (Admitted : Bytes → Prop) (transform : Transform) : Prop where
  length_apply : ∀ data, Admitted data → (transform.apply data).1.length = data.length
  apply_append : ∀ first second, Admitted first → Admitted second →
    transform.apply (first ++ second) =
      ((transform.apply first).1 ++ ((transform.apply first).2.apply second).1,
        ((transform.apply first).2.apply second).2)

/-- Whatever `first` makes of some pieces, `second` restores as much of it as it is given, and it
may be given it in other pieces. -/
def Restores (Admitted : Bytes → Prop) (first second : Transform) : Prop :=
  ∀ pieces recut, (∀ piece ∈ pieces, Admitted piece) → (∀ piece ∈ recut, Admitted piece) →
    recut.flatten <+: (first.applyAll pieces).1.flatten →
      (second.applyAll recut).1.flatten = pieces.flatten.take recut.flatten.length

variable {transform : Transform}

/-! ## Pieces -/

/-- How many bytes a transform works on at a time. -/
def unit : Transform → Nat
  | ecb cipher _ | cbc cipher _ _ => cipher.blockSize
  | cfb _ _ _ => 1

theorem takes_iff_dvd (transform : Transform) (data : Bytes) :
    transform.Takes data ↔ transform.unit ∣ data.length := by
  cases transform with
  | ecb cipher direction => exact Iff.rfl
  | cbc cipher direction previous => exact Iff.rfl
  | cfb cipher direction register => exact iff_of_true trivial (one_dvd _)

theorem takes_flatten {pieces : List Bytes} (htakes : ∀ piece ∈ pieces, transform.Takes piece) :
    transform.Takes pieces.flatten := by
  rw [takes_iff_dvd, List.length_flatten]
  refine List.dvd_sum fun length hlength ↦ ?_
  obtain ⟨piece, hpiece, rfl⟩ := List.mem_map.1 hlength
  exact (takes_iff_dvd transform piece).1 (htakes piece hpiece)

theorem apply_flatten {pieces : List Bytes} (htakes : ∀ piece ∈ pieces, transform.Takes piece) :
    transform.apply pieces.flatten =
      ((transform.applyAll pieces).1.flatten, (transform.applyAll pieces).2) := by
  induction pieces generalizing transform with
  | nil => exact apply_nil transform
  | cons piece pieces ih =>
    obtain ⟨hpiece, hpieces⟩ := List.forall_mem_cons.1 htakes
    have hrest := ih fun other hother ↦
      (takes_apply_iff transform piece other).2 (hpieces other hother)
    rw [List.flatten_cons, apply_append transform hpiece, hrest, applyAll_cons, List.flatten_cons]

/-! ## Both directions -/

theorem takes_opposite_iff (transform : Transform) (data : Bytes) :
    transform.opposite.Takes data ↔ transform.Takes data := by
  cases transform with
  | ecb cipher direction => exact Iff.rfl
  | cbc cipher direction previous => exact Iff.rfl
  | cfb cipher direction register => exact Iff.rfl

/-- The first bytes of the output are the output for the first bytes. -/
theorem fst_apply_take (hsound : transform.Sound) {data : Bytes} {count : Nat}
    (hcount : count ≤ data.length) (htakes : transform.Takes (data.take count)) :
    (transform.apply (data.take count)).1 = (transform.apply data).1.take count := by
  have hlength : (transform.apply (data.take count)).1.length = count := by
    rw [length_apply hsound htakes, List.length_take_of_le hcount]
  have happend := transform.apply_append htakes (data.drop count)
  rw [List.take_append_drop] at happend
  rw [happend, List.take_left' hlength]

section Opposite

variable (hsound : transform.Sound) {pieces recut : List Bytes}
  (hrecut : ∀ piece ∈ recut, transform.Takes piece)

include hsound hrecut

/-- However the output for some data is cut, the other direction restores the data from it. -/
theorem applyAll_opposite {data : Bytes} (htakes : transform.Takes data)
    (hall : recut.flatten = (transform.apply data).1) :
    (transform.opposite.applyAll recut).1.flatten = data ∧
      (transform.opposite.applyAll recut).2 = (transform.apply data).2.opposite := by
  have hback := apply_flatten fun piece hpiece ↦
    (takes_opposite_iff transform piece).2 (hrecut piece hpiece)
  have hundone := apply_opposite_apply hsound htakes
  rw [← hall, hback] at hundone
  exact Prod.mk.inj hundone

/-- The same for a part of the output. -/
theorem fst_applyAll_opposite (hpieces : ∀ piece ∈ pieces, transform.Takes piece)
    (hpart : recut.flatten <+: (transform.applyAll pieces).1.flatten) :
    (transform.opposite.applyAll recut).1.flatten =
      pieces.flatten.take recut.flatten.length := by
  have hforth := apply_flatten hpieces
  have hlength := length_apply hsound (takes_flatten hpieces)
  rw [hforth] at hlength
  have hcount : recut.flatten.length ≤ pieces.flatten.length := hlength ▸ hpart.length_le
  have htakes : transform.Takes (pieces.flatten.take recut.flatten.length) := by
    rw [takes_iff_dvd, List.length_take_of_le hcount, ← takes_iff_dvd]
    exact takes_flatten hrecut
  -- A part of the output is the whole output for as many bytes of the input.
  refine (applyAll_opposite hsound hrecut htakes ?_).1
  rw [fst_apply_take hsound hcount htakes, hforth]
  exact List.prefix_iff_eq_take.1 hpart

end Opposite

/-! ## Runs -/

/-- A transform in a state that it can be in, for which all that is admitted is suitable data. -/
structure Serves (Admitted : Bytes → Prop) (transform : Transform) : Prop where
  sound : transform.Sound
  takes : ∀ data, Admitted data → transform.Takes data

variable {Admitted : Bytes → Prop} {pieces : List Bytes}

theorem serves_start {cipher : BlockCipher} (hlawful : cipher.Lawful) {mode : Mode}
    (direction : Direction) {iv : Bytes}
    (hiv : mode.usesIv = true → iv.length = cipher.blockSize) :
    Serves (mode.Admits cipher.blockSize) (start cipher mode direction iv) where
  sound := sound_start hlawful direction hiv
  takes data := (takes_start_iff cipher mode direction iv data).2

theorem serves_apply (hserves : Serves Admitted transform) {data : Bytes} (hdata : Admitted data) :
    Serves Admitted (transform.apply data).2 where
  sound := sound_apply hserves.sound (hserves.takes data hdata)
  takes other hother := (takes_apply_iff transform data other).2 (hserves.takes other hother)

theorem serves_applyAll (hserves : Serves Admitted transform)
    (hpieces : ∀ piece ∈ pieces, Admitted piece) :
    Serves Admitted (transform.applyAll pieces).2 :=
  (Mode.mapAccum_invariant (Serves Admitted) Admitted (fun _ ↦ True)
    (fun _ _ hstate hitem ↦ ⟨trivial, serves_apply hstate hitem⟩) hserves hpieces).2

theorem composes_of_serves (hserves : Serves Admitted transform) :
    Composes Admitted transform where
  length_apply data hdata := length_apply hserves.sound (hserves.takes data hdata)
  apply_append first second hfirst _ := transform.apply_append (hserves.takes first hfirst) second

theorem Serves.takes_all (hserves : Serves Admitted transform)
    (hpieces : ∀ piece ∈ pieces, Admitted piece) : ∀ piece ∈ pieces, transform.Takes piece :=
  fun piece hpiece ↦ hserves.takes piece (hpieces piece hpiece)

theorem restores_opposite (hserves : Serves Admitted transform) :
    Restores Admitted transform transform.opposite :=
  fun _ _ hpieces hrecut hpart ↦ fst_applyAll_opposite hserves.sound (hserves.takes_all hrecut)
    (hserves.takes_all hpieces) hpart

/-- A transform that has been opened, whatever it has been given since, may be given the rest in any
pieces. The one opened for the other direction with the same key and initialization vector may be
given all that came out so far in any pieces too: it has then restored all that went in, and goes on
restoring what comes next. -/
theorem opened_composes_and_restores {algorithm : CipherAlgorithm} {mode : Mode} {key iv : Bytes}
    (haccepted : algorithm.keyLength.accepts key.length = true)
    (hiv : mode.usesIv = true → iv.length = algorithm.blockSize) (direction : Direction) :
    ∃ first second, opened algorithm mode direction key iv = .ok first ∧
      opened algorithm mode direction.opposite key iv = .ok second ∧
      ∀ before, (∀ piece ∈ before, mode.Admits algorithm.blockSize piece) →
        Composes (mode.Admits algorithm.blockSize) (first.applyAll before).2 ∧
        ∀ recut, (∀ piece ∈ recut, mode.Admits algorithm.blockSize piece) →
          recut.flatten = (first.applyAll before).1.flatten →
            (second.applyAll recut).1.flatten = before.flatten ∧
            Restores (mode.Admits algorithm.blockSize) (first.applyAll before).2
              (second.applyAll recut).2 := by
  have hserves : Serves (mode.Admits algorithm.blockSize)
      (start (algorithm.keyed key) mode direction iv) := by
    rw [← algorithm.blockSize_keyed key] at hiv ⊢
    exact serves_start (algorithm.lawful_keyed key) direction hiv
  refine ⟨_, _, opened_eq_ok haccepted hiv, opened_eq_ok haccepted hiv, fun before hbefore ↦ ?_⟩
  have hlater := serves_applyAll hserves hbefore
  refine ⟨composes_of_serves hlater, fun recut hrecut hall ↦ ?_⟩
  have hforth := apply_flatten (hserves.takes_all hbefore)
  obtain ⟨hrestored, hstate⟩ := applyAll_opposite hserves.sound (hserves.takes_all hrecut)
    (takes_flatten (hserves.takes_all hbefore)) (hforth ▸ hall)
  rw [opposite_start] at hrestored hstate
  rw [hstate, hforth]
  exact ⟨hrestored, restores_opposite hlater⟩

/-- Ten bytes of DES in CFB, encrypted in pieces of three and seven bytes and decrypted in pieces of
four and six. -/
theorem opened_composes_and_restores_des_cfb_ten_bytes :
    ∃ first second,
      opened .des .cfb .encode (List.replicate 8 0x31) (List.replicate 8 0) = .ok first ∧
      opened .des .cfb .decode (List.replicate 8 0x31) (List.replicate 8 0) = .ok second ∧
      (second.applyAll
        [(first.applyAll [[1, 2, 3], List.replicate 7 9]).1.flatten.take 4,
          (first.applyAll [[1, 2, 3], List.replicate 7 9]).1.flatten.drop 4]).1.flatten =
        [1, 2, 3, 9, 9, 9, 9, 9, 9, 9] := by
  obtain ⟨first, second, hfirst, hsecond, hrun⟩ :=
    @opened_composes_and_restores .des .cfb (List.replicate 8 0x31) (List.replicate 8 0) rfl
      (fun _ ↦ rfl) .encode
  have hrestored := ((hrun [[1, 2, 3], List.replicate 7 9] fun _ _ ↦ .inl rfl).2
    [(first.applyAll [[1, 2, 3], List.replicate 7 9]).1.flatten.take 4,
      (first.applyAll [[1, 2, 3], List.replicate 7 9]).1.flatten.drop 4] (fun _ _ ↦ .inl rfl)
    (by rw [List.flatten_cons, List.flatten_singleton, List.take_append_drop])).1
  exact ⟨first, second, hfirst, hsecond, hrestored⟩

end Transform

end StreamCrypto
