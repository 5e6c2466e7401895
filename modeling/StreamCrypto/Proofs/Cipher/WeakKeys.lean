import StreamCrypto.Proofs.Cipher.KeySchedule
import StreamCrypto.Proofs.Cipher.Setup
import StreamCrypto.Proofs.Mode.Standard

/-!
# The listed keys are the weak and semi-weak keys of DES

A key is weak or semi-weak if its round keys in reverse order are those of some key, so that
encryption with the other key undoes encryption with this one (`Reverses.ecbUndoes`). Such a
key has only four bits to choose: the positions in use fall into four strands, and a schedule
and its reverse meet often enough that all bits of a strand have to be the same
(`Reverses.striped`). The table lists the sixteen keys with this property, each one together
with the key that swaps the strands of either half and so reverses it
(`isWeakDes_iff_striped`, `Striped.exists_reverses`).
-/

namespace StreamCrypto.Cipher.Des

open WeakKey

/-- The round keys of the first key are those of the second one in reverse order. -/
def Reverses (other key : Bytes) : Prop :=
  roundKeys (Bytes.toWord64BigEndian other) = (roundKeys (Bytes.toWord64BigEndian key)).reverse

variable {key other : Bytes}

theorem Reverses.symm (h : Reverses other key) : Reverses key other := by
  rw [Reverses, h, List.reverse_reverse]

theorem reverses_iff : Reverses other key ↔
    ∀ meeting ∈ meetings, keyBit other meeting.1 = keyBit key meeting.2 :=
  roundKeys_eq_reverse_iff _ _

theorem mem_keyPositions_of_mem_meetings {meeting : Nat × Nat} (hmem : meeting ∈ meetings) :
    meeting.1 ∈ keyPositions ∧ meeting.2 ∈ keyPositions := by
  obtain ⟨rounds, hrounds, hpair⟩ := List.mem_flatMap.1 hmem
  obtain ⟨hfirst, hsecond⟩ := List.of_mem_zip hrounds
  obtain ⟨hone, htwo⟩ := List.of_mem_zip hpair
  exact ⟨mem_keyPositions_of_mem_roundKeyPositions hfirst hone,
    mem_keyPositions_of_mem_roundKeyPositions (List.mem_reverse.1 hsecond) htwo⟩

/-! ## Strands -/

/-- The upper bits of every byte, three in the first four bytes and four in the others, make
up the left half of a key, and the lower bits the right half. Each half falls into two
strands, for the bytes with an even and with an odd number. -/
structure Strand where
  right : Bool
  odd : Bool
  deriving DecidableEq

def strandOf (position : Nat) : Strand :=
  let byte := (position - 1) / 8
  let bit := (position - 1) % 8
  ⟨decide ((if byte < 4 then 3 else 4) ≤ bit), decide (byte % 2 = 1)⟩

/-- The other strand of the same half. -/
def Strand.twin (strand : Strand) : Strand := { strand with odd := !strand.odd }

@[simp] theorem Strand.twin_twin (strand : Strand) : strand.twin.twin = strand := by
  simp [twin]

/-- Round keys and their mirror images take a bit from twin strands. -/
theorem strandOf_meeting :
    ∀ meeting ∈ meetings, strandOf meeting.1 = (strandOf meeting.2).twin := by
  decide +kernel

/-- The bits in use are the same all along each strand. -/
def Striped (pattern : Strand → Bool) (key : Bytes) : Prop :=
  ∀ position ∈ keyPositions, keyBit key position = pattern (strandOf position)

instance (pattern : Strand → Bool) (key : Bytes) : Decidable (Striped pattern key) :=
  inferInstanceAs (Decidable (∀ position ∈ keyPositions, _))

theorem Striped.reverses {pattern : Strand → Bool} (h : Striped pattern key)
    (hother : Striped (fun strand ↦ pattern strand.twin) other) : Reverses other key := by
  rw [reverses_iff]
  intro meeting hmeeting
  obtain ⟨hfirst, hsecond⟩ := mem_keyPositions_of_mem_meetings hmeeting
  calc
    keyBit other meeting.1 = pattern (strandOf meeting.1).twin := hother _ hfirst
    _ = pattern (strandOf meeting.2) := by
      rw [strandOf_meeting meeting hmeeting, Strand.twin_twin]
    _ = keyBit key meeting.2 := (h _ hsecond).symm

/-! ## Hubs -/

/-- The positions of a key that a position of the reversing key meets. -/
def met (hub : Nat) : List Nat :=
  (meetings.filter (·.1 = hub)).map (·.2)

theorem Reverses.keyBit_eq (h : Reverses other key) {hub position : Nat}
    (hmet : position ∈ met hub) : keyBit key position = keyBit other hub := by
  obtain ⟨meeting, hmem, rfl⟩ := List.mem_map.1 hmet
  obtain ⟨hmeeting, hhub⟩ := List.mem_filter.1 hmem
  rw [← reverses_iff.1 h meeting hmeeting, of_decide_eq_true hhub]

/-- Two positions of the reversing key that between them meet a whole strand, and a position
of the strand that both of them meet. -/
structure Hubs where
  first : Nat
  second : Nat
  shared : Nat

def Strand.hubs : Strand → Hubs
  | ⟨false, false⟩ => ⟨60, 11, 49⟩
  | ⟨false, true⟩ => ⟨34, 50, 57⟩
  | ⟨true, false⟩ => ⟨28, 47, 55⟩
  | ⟨true, true⟩ => ⟨22, 39, 63⟩

-- Every round leaves out four bits of either half, so one hub alone may miss some of a strand.
theorem met_hubs :
    (∀ position ∈ keyPositions, position ∈ met (strandOf position).hubs.first ∨
      position ∈ met (strandOf position).hubs.second) ∧
    ∀ right odd, (Strand.mk right odd).hubs.shared ∈ met (Strand.mk right odd).hubs.first ∧
      (Strand.mk right odd).hubs.shared ∈ met (Strand.mk right odd).hubs.second := by
  decide +kernel

/-- The bits of a strand are those of its two hubs, and these are the same. -/
theorem Reverses.striped (h : Reverses other key) :
    Striped (fun strand ↦ keyBit key strand.hubs.shared) key := by
  intro position hposition
  obtain ⟨hfirst, hsecond⟩ := met_hubs.2 (strandOf position).right (strandOf position).odd
  rcases met_hubs.1 position hposition with hmet | hmet
  · exact (h.keyBit_eq hmet).trans (h.keyBit_eq hfirst).symm
  · exact (h.keyBit_eq hmet).trans (h.keyBit_eq hsecond).symm

/-! ## The table -/

theorem desTable_wellFormed :
    ∀ entry ∈ desTable, entry.length = 8 ∧ withoutParity entry = entry := by
  decide

theorem desTable_striped :
    ∀ entry ∈ desTable, Striped (fun strand ↦ keyBit entry strand.hubs.shared) entry := by
  decide +kernel

/-- There is an entry for each of the sixteen patterns. -/
theorem desTable_complete (pattern : Strand → Bool) :
    ∃ entry ∈ desTable, Striped pattern entry := by
  have hbits : ∀ a b c d : Bool, ∃ entry ∈ desTable, ∀ position ∈ keyPositions,
      keyBit entry position =
        bif (strandOf position).right then bif (strandOf position).odd then d else c
        else bif (strandOf position).odd then b else a := by
    decide +kernel
  obtain ⟨entry, hmem, hentry⟩ := hbits (pattern ⟨false, false⟩) (pattern ⟨false, true⟩)
    (pattern ⟨true, false⟩) (pattern ⟨true, true⟩)
  refine ⟨entry, hmem, fun position hposition ↦ (hentry position hposition).trans ?_⟩
  rcases strandOf position with ⟨_ | _, _ | _⟩ <;> rfl

theorem Striped.withoutParity_eq {pattern : Strand → Bool} (h : Striped pattern key)
    (hother : Striped pattern other) (eight : key.length = 8) (eight' : other.length = 8) :
    withoutParity key = withoutParity other :=
  (withoutParity_eq_iff eight eight').2 fun position hposition ↦
    (h position hposition).trans (hother position hposition).symm

/-- Bytes in pairs are equal all along only if neither list ends before the other, which the
length check is for. -/
theorem isWeakDes_iff_mem (key : Bytes) :
    isWeakDes key = true ↔ withoutParity key ∈ desTable := by
  have hentry {entry : Bytes} (hmem : entry ∈ desTable) :
      (key.length = 8 ∧ ∀ pair ∈ (withoutParity key).zip entry, pair.1 = pair.2) ↔
        entry = withoutParity key := by
    obtain ⟨eight, -⟩ := desTable_wellFormed entry hmem
    rw [← length_withoutParity key]
    constructor
    · rintro ⟨eight', hpairs⟩
      refine (List.forall₂_eq_eq_eq ▸ List.forall₂_iff_zip.2 ⟨eight'.trans eight.symm, ?_⟩ :
        withoutParity key = entry).symm
      exact fun hpair ↦ hpairs _ hpair
    · rintro rfl
      refine ⟨eight, fun pair hpair ↦ ?_⟩
      exact (List.forall₂_iff_zip.1 (List.forall₂_refl _)).2 hpair
  simp only [isWeakDes, List.any_eq_true, Bool.and_eq_true, List.all_eq_true, beq_iff_eq]
  constructor
  · rintro ⟨entry, hmem, hsame⟩
    rwa [← (hentry hmem).1 hsame]
  · exact fun hmem ↦ ⟨_, hmem, (hentry hmem).2 rfl⟩

theorem isWeakDes_iff_striped (key : Bytes) :
    isWeakDes key = true ↔ key.length = 8 ∧ ∃ pattern, Striped pattern key := by
  rw [isWeakDes_iff_mem]
  constructor
  · intro hmem
    obtain ⟨hlength, hentry⟩ := desTable_wellFormed _ hmem
    have eight : key.length = 8 := by simpa using hlength
    have hbits := (withoutParity_eq_iff hlength eight).1 hentry
    exact ⟨eight, fun strand ↦ keyBit (withoutParity key) strand.hubs.shared,
      fun position hposition ↦
        (hbits position hposition).symm.trans (desTable_striped _ hmem position hposition)⟩
  · rintro ⟨eight, pattern, hstriped⟩
    obtain ⟨entry, hmem, hentry⟩ := desTable_complete pattern
    obtain ⟨eight', hsame⟩ := desTable_wellFormed entry hmem
    rwa [hstriped.withoutParity_eq hentry eight eight', hsame]

/-- The entry for the swapped pattern reverses a striped key. -/
theorem Striped.exists_reverses {pattern : Strand → Bool} (h : Striped pattern key) :
    ∃ other : Bytes, other.length = 8 ∧ Reverses other key := by
  obtain ⟨entry, hmem, hentry⟩ := desTable_complete fun strand ↦ pattern strand.twin
  exact ⟨entry, (desTable_wellFormed entry hmem).1, h.reverses hentry⟩

/-! ## Encryption undone by encryption -/

theorem Reverses.encrypt_eq (h : Reverses other key) :
    (cipher other).encrypt = (cipher key).decrypt := by
  rw [Reverses] at h
  simp only [cipher, h]

theorem Reverses.ecbRun_eq (h : Reverses other key) (data : Bytes) :
    Mode.Ecb.run (cipher other) .encode data = Mode.Ecb.run (cipher key) .decode data := by
  simp only [Mode.Ecb.run, Mode.Ecb.transformBlock, h.encrypt_eq]
  rfl

/-- Encryption of whole blocks in ECB with one key gives back what encryption with another key
was given. The initialization vectors are not looked at. -/
def EcbUndoes (other key : Bytes) : Prop :=
  ∀ iv iv' data : Bytes, 8 ∣ data.length → ∃ first second,
    Transform.opened .des .ecb .encode key iv = .ok first ∧
    Transform.opened .des .ecb .encode other iv' = .ok second ∧
    (second.apply (first.apply data).1).1 = data

theorem Reverses.ecbUndoes (h : Reverses other key) (eight : key.length = 8)
    (eight' : other.length = 8) : EcbUndoes other key := by
  have hopened {key : Bytes} (eight : key.length = 8) (iv : Bytes) :
      Transform.opened .des .ecb .encode key iv = .ok (.ecb (cipher key) .encode) :=
    Transform.opened_eq_ok (by rw [eight]; decide) nofun
  intro iv iv' data hwhole
  refine ⟨_, _, hopened eight iv, hopened eight' iv', ?_⟩
  calc
    _ = Mode.Ecb.run (cipher other) .encode (Mode.Ecb.run (cipher key) .encode data) := rfl
    _ = Mode.Ecb.run (cipher key) .decode (Mode.Ecb.run (cipher key) .encode data) :=
      h.ecbRun_eq _
    _ = data := Mode.Ecb.run_opposite_run (lawful_cipher key) .encode hwhole

end StreamCrypto.Cipher.Des

namespace StreamCrypto.CipherAlgorithm

open Cipher

/-- A last piece of fewer than eight bytes never counts. -/
theorem isWeakDes_of_short {key : Bytes} (hshort : key.length < 8) :
    WeakKey.isWeakDes key = false := by
  rw [WeakKey.isWeakDes, List.any_eq_false]
  intro entry _
  simp [hshort.ne]

theorem isWeakKey_tripledes_iff (key : Bytes) :
    tripledes.isWeakKey key = true ↔
      ∃ i, 8 * i + 8 ≤ key.length ∧ des.isWeakKey ((key.drop (8 * i)).take 8) = true := by
  have hlast : WeakKey.isWeakDes (Bytes.partialBlock 8 key) = false := by
    refine isWeakDes_of_short ?_
    rw [Bytes.partialBlock, List.length_drop]
    omega
  have hwhole : (Bytes.chunks 8 key).any WeakKey.isWeakDes =
      (Bytes.blocks 8 key).any WeakKey.isWeakDes := by
    unfold Bytes.chunks
    split
    · rfl
    · rw [List.any_append, List.any_cons, List.any_nil, hlast, Bool.or_false, Bool.or_false]
  simp only [isWeakKey, hwhole, Bytes.blocks_eq_map_block, List.any_map, List.any_eq_true,
    List.mem_range, Function.comp_apply, Bytes.block]
  refine exists_congr fun i ↦ and_congr_left fun _ ↦ ?_
  omega

/-- The weak keys of DES are those with a key that reverses them, and encryption with either
one undoes encryption with the other. Those of triple DES are the keys with a weak piece. -/
theorem weak_iff_reversible (key : Bytes) :
    (des.isWeakKey key = true ↔
      key.length = 8 ∧ ∃ other : Bytes, other.length = 8 ∧ Des.Reverses other key) ∧
    (des.isWeakKey key = true → ∀ other : Bytes, other.length = 8 → Des.Reverses other key →
      des.isWeakKey other = true ∧ Des.EcbUndoes other key) ∧
    (tripledes.isWeakKey key = true ↔
      ∃ i, 8 * i + 8 ≤ key.length ∧ des.isWeakKey ((key.drop (8 * i)).take 8) = true) := by
  have hweak {key other : Bytes} (eight : key.length = 8) (h : Des.Reverses other key) :
      des.isWeakKey key = true :=
    (Des.isWeakDes_iff_striped key).2 ⟨eight, _, h.striped⟩
  refine ⟨⟨?_, ?_⟩, ?_, isWeakKey_tripledes_iff key⟩
  · intro h
    obtain ⟨eight, pattern, hstriped⟩ := (Des.isWeakDes_iff_striped key).1 h
    exact ⟨eight, hstriped.exists_reverses⟩
  · rintro ⟨eight, other, -, hreverses⟩
    exact hweak eight hreverses
  · intro h other eight' hreverses
    obtain ⟨eight, -⟩ := (Des.isWeakDes_iff_striped key).1 h
    exact ⟨hweak eight' hreverses.symm, hreverses.ecbUndoes eight eight'⟩

/-- A semi-weak key with its parity bits set, and its partner. -/
theorem weak_iff_reversible_semiweak :
    let key : Bytes := [0x01, 0xfe, 0x01, 0xfe, 0x01, 0xfe, 0x01, 0xfe]
    let other : Bytes := [0xfe, 0x01, 0xfe, 0x01, 0xfe, 0x01, 0xfe, 0x01]
    des.isWeakKey key = true ∧ Des.Reverses other key ∧ des.isWeakKey other = true ∧
      Des.EcbUndoes other key := by
  intro key other
  have hweak : des.isWeakKey key = true := by decide
  have hstriped : Des.Striped (fun strand ↦ strand.odd) key := by decide +kernel
  have hother : Des.Striped (fun strand ↦ !strand.odd) other := by decide +kernel
  have hreverses : Des.Reverses other key := hstriped.reverses hother
  exact ⟨hweak, hreverses, (weak_iff_reversible key).2.1 hweak other rfl hreverses⟩

end StreamCrypto.CipherAlgorithm
