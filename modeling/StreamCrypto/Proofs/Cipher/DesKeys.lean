import StreamCrypto.Proofs.Cipher.Exchange
import StreamCrypto.Proofs.Cipher.Rekeying
import StreamCrypto.Proofs.Cipher.WeakKeys

/-!
# Different keys for one DES cipher

The three steps of triple DES collapse to one if their keys are the same, since the middle step
undoes the first (`encrypt_same`). So triple DES with a tripled key is DES (`tripled_of_eight`). And
neither the key schedule nor the table of weak keys looks at the lowest bit of a key byte, so keys
that differ in those bits only make one cipher (`sameButParity_interchangeable`). In both cases the
keys can be exchanged in all calls on a context, and no answer tells.
-/

namespace StreamCrypto.Cipher

/-! ## The same key three times -/

namespace TripleDes

theorem encrypt_same (keys : List UInt64) : encrypt keys keys keys = Des.crypt keys := by
  funext block
  rw [encrypt, Des.crypt_reverse_crypt]

theorem decrypt_same (keys : List UInt64) : decrypt keys keys keys = Des.crypt keys.reverse := by
  funext block
  rw [decrypt, Des.crypt_crypt_reverse]

/-- The second key is three copies of the first, which is a key of DES. -/
def Tripled (key otherKey : Bytes) : Prop := key.length = 8 ∧ otherKey = key ++ key ++ key

variable {key : Bytes}

/-- Every piece of a tripled key is the key. -/
theorem take_drop_tripled (eight : key.length = 8) {i : Nat} (hi : i < 3) :
    ((key ++ key ++ key).drop (8 * i)).take 8 = key := by
  obtain rfl | rfl | rfl : i = 0 ∨ i = 1 ∨ i = 2 := by omega
  · simp [eight]
  · simp [eight]
  · rw [List.drop_left' (by simp [eight])]
    exact List.take_of_length_le eight.le

theorem cipher_tripled (eight : key.length = 8) : cipher (key ++ key ++ key) = Des.cipher key := by
  have hkeys {i : Nat} (hi : i < 3) : roundKeysAt (key ++ key ++ key) (8 * i) =
      Des.roundKeys (Bytes.toWord64BigEndian key) := by
    rw [roundKeysAt, take_drop_tripled eight hi]
  have hfirst := hkeys (show 0 < 3 by decide)
  have hsecond := hkeys (show 1 < 3 by decide)
  have hthird := hkeys (show 2 < 3 by decide)
  simp only [Nat.mul_zero, Nat.mul_one, Nat.reduceMul] at hfirst hsecond hthird
  simp only [cipher, Des.cipher, hfirst, hsecond, hthird, encrypt_same, decrypt_same]

theorem isWeakKey_tripled (eight : key.length = 8) :
    CipherAlgorithm.tripledes.isWeakKey (key ++ key ++ key) =
      CipherAlgorithm.des.isWeakKey key := by
  rw [Bool.eq_iff_iff, CipherAlgorithm.isWeakKey_tripledes_iff]
  constructor
  · rintro ⟨i, hi, hweak⟩
    simp only [List.length_append, eight] at hi
    rwa [take_drop_tripled eight (by omega)] at hweak
  · intro hweak
    refine ⟨0, by simp [eight], ?_⟩
    rwa [take_drop_tripled eight (by decide)]

theorem Tripled.interchangeable {otherKey : Bytes} (htripled : Tripled key otherKey) :
    Interchangeable .des .tripledes key otherKey := by
  obtain ⟨eight, rfl⟩ := htripled
  exact
    { accepted := by rw [eight]; rfl
      accepted' := by rw [List.length_append, List.length_append, eight]; rfl
      keyed := cipher_tripled eight
      weak := isWeakKey_tripled eight }

end TripleDes

/-! ## Parity bits -/

/-- The keys agree on all bits but the lowest one of each byte. -/
def SameButParity (key otherKey : Bytes) : Prop :=
  List.Forall₂ (fun byte other : UInt8 ↦
    ∀ j ≠ 0, byte.toBitVec.getLsbD j = other.toBitVec.getLsbD j) key otherKey

namespace SameButParity

open WeakKey (withoutParity)

variable {key otherKey : Bytes}

theorem refl (key : Bytes) : SameButParity key key :=
  List.forall₂_same.2 fun _ _ _ _ ↦ rfl

theorem piece (hsame : SameButParity key otherKey) (offset : Nat) :
    SameButParity ((key.drop offset).take 8) ((otherKey.drop offset).take 8) :=
  List.forall₂_take 8 (List.forall₂_drop offset hsame)

theorem and_mask_eq_iff {byte other : UInt8} :
    byte &&& 0xfe = other &&& 0xfe ↔
      ∀ j ≠ 0, byte.toBitVec.getLsbD j = other.toBitVec.getLsbD j := by
  constructor
  · intro hmasked j hne
    by_cases hj : j < 8
    · have hbit := congrArg (·.toBitVec.getLsbD j) hmasked
      simpa only [Des.getLsbD_and_mask _ hj, hne, ne_eq, not_false_eq_true, decide_true,
        Bool.true_and] using hbit
    · rw [BitVec.getLsbD_of_ge _ j (by omega), BitVec.getLsbD_of_ge _ j (by omega)]
  · intro hbits
    apply UInt8.toBitVec_inj.1
    apply BitVec.eq_of_getLsbD_eq
    intro j hj
    rw [Des.getLsbD_and_mask byte hj, Des.getLsbD_and_mask other hj]
    by_cases hlowest : j = 0
    · simp [hlowest]
    · rw [hbits j hlowest]

/-- The mask of the weak key check keeps exactly the bits that count. -/
theorem iff_withoutParity_eq :
    SameButParity key otherKey ↔ withoutParity key = withoutParity otherKey := by
  rw [withoutParity, withoutParity, ← List.forall₂_eq_eq_eq, List.forall₂_map_left_iff,
    List.forall₂_map_right_iff]
  simp only [and_mask_eq_iff, SameButParity]

instance (key otherKey : Bytes) : Decidable (SameButParity key otherKey) :=
  decidable_of_iff _ iff_withoutParity_eq.symm

theorem isWeakDes_eq (hsame : SameButParity key otherKey) :
    WeakKey.isWeakDes otherKey = WeakKey.isWeakDes key := by
  rw [WeakKey.isWeakDes, WeakKey.isWeakDes, iff_withoutParity_eq.1 hsame, hsame.length_eq]

theorem roundKeys_eq (hsame : SameButParity key otherKey) (eight : key.length = 8) :
    Des.roundKeys (Bytes.toWord64BigEndian otherKey) =
      Des.roundKeys (Bytes.toWord64BigEndian key) :=
  (Des.roundKeys_eq_of_withoutParity_eq eight (hsame.length_eq.symm.trans eight)
    (iff_withoutParity_eq.1 hsame)).symm

theorem interchangeable_des (hsame : SameButParity key otherKey) (eight : key.length = 8) :
    Interchangeable .des .des key otherKey where
  accepted := by rw [eight]; rfl
  accepted' := by rw [← hsame.length_eq, eight]; rfl
  keyed := by simp only [CipherAlgorithm.keyed, Des.cipher, hsame.roundKeys_eq eight]
  weak := hsame.isWeakDes_eq

theorem interchangeable_tripledes (hsame : SameButParity key otherKey)
    (htwentyfour : key.length = 24) : Interchangeable .tripledes .tripledes key otherKey := by
  have hpiece {offset : Nat} (hoffset : offset + 8 ≤ 24) :
      TripleDes.roundKeysAt otherKey offset = TripleDes.roundKeysAt key offset := by
    refine (hsame.piece offset).roundKeys_eq ?_
    rw [List.length_take, List.length_drop, htwentyfour]
    omega
  exact
    { accepted := by rw [htwentyfour]; rfl
      accepted' := by rw [← hsame.length_eq, htwentyfour]; rfl
      keyed := by
        simp only [CipherAlgorithm.keyed, TripleDes.cipher, hpiece (show 0 + 8 ≤ 24 by decide),
          hpiece (show 8 + 8 ≤ 24 by decide), hpiece (show 16 + 8 ≤ 24 by decide)]
      weak := by
        rw [Bool.eq_iff_iff, CipherAlgorithm.isWeakKey_tripledes_iff,
          CipherAlgorithm.isWeakKey_tripledes_iff, hsame.length_eq]
        refine exists_congr fun i ↦ and_congr_right fun _ ↦ ?_
        exact Bool.eq_iff_iff.1 (hsame.piece (8 * i)).isWeakDes_eq }

theorem interchangeable {algorithm : CipherAlgorithm}
    (hdes : algorithm = .des ∨ algorithm = .tripledes)
    (haccepted : algorithm.keyLength.accepts key.length = true)
    (hsame : SameButParity key otherKey) : Interchangeable algorithm algorithm key otherKey := by
  obtain rfl | rfl := hdes
  · exact hsame.interchangeable_des ((KeyLength.accepts_fixed_iff _ _).1 haccepted)
  · exact hsame.interchangeable_tripledes ((KeyLength.accepts_fixed_iff _ _).1 haccepted)

end SameButParity

end StreamCrypto.Cipher

namespace StreamCrypto

open Cipher

/-- The answer of a turn, and what the context tells of its state afterwards. The key on record is
left out. -/
def CipherTurn.outcome (turn : CipherTurn) : CipherAnswer × Status :=
  (turn.answer, turn.observation.status)

theorem CipherTurn.Rekeyed.outcome_eq {Keys : Bytes → Bytes → Prop}
    {algorithm : CipherAlgorithm} {first second : CipherTurn}
    (hrekeyed : first.Rekeyed Keys algorithm second) :
    second.outcome = first.outcome :=
  Prod.ext hrekeyed.answer hrekeyed.after.status_eq

theorem Lifecycle.Rekeyed.refl {Keys : Bytes → Bytes → Prop} (hrefl : ∀ key, Keys key key)
    (lifecycle : Lifecycle) : lifecycle.Rekeyed Keys lifecycle := by
  cases lifecycle with
  | unkeyed => exact .unkeyed
  | active stream => exact .active stream (hrefl stream.key)
  | finished => exact .finished

namespace CipherContext

/-- Triple DES with tripled keys is DES: no call has another outcome, whether it sets up, takes
data or ends a stream. -/
theorem outcomes_tripled (feature other : Feature) (mode : Mode) (padding : Bool)
    (policy : FailurePolicy) {calls others : List CipherCall}
    (hcalls : List.Forall₂ (CipherCall.Rekeyed TripleDes.Tripled) calls others) :
    (((new other .tripledes mode padding).withPolicy policy).turns others).map
        CipherTurn.outcome =
      (((new feature .des mode padding).withPolicy policy).turns calls).map
        CipherTurn.outcome := by
  let single := (new feature .des mode padding).withPolicy policy
  let triple := (new feature .tripledes mode padding).withPolicy policy
  have hrekeyed : single.Rekeyed TripleDes.Tripled .tripledes triple :=
    ⟨.unkeyed, rfl, .unkeyed⟩
  have hinter := hcalls.imp (CipherCall.Rekeyed.imp fun key otherKey htripled ↦
    And.intro htripled htripled.interchangeable)
  have hsize : CipherAlgorithm.tripledes.blockSize = single.algorithm.blockSize := rfl
  have hturns := turns_rekeyed hsize hrekeyed hinter
  -- The features tell the two contexts apart in what they log only.
  have hname := congrArg (List.map fun seen ↦ (seen.answer, seen.status))
    (triple.observations_relabel other others)
  rw [List.map_map, List.map_map] at hname
  refine Eq.trans hname ?_
  rw [← List.forall₂_eq_eq_eq, List.forall₂_map_left_iff, List.forall₂_map_right_iff]
  exact hturns.flip.imp fun second first hturn ↦ hturn.outcome_eq

/-- A message of eleven bytes in two pieces, with padding. -/
theorem outcomes_tripled_cbc_eleven_bytes :
    let key : Bytes := [0x13, 0x34, 0x57, 0x79, 0x9b, 0xbc, 0xdf, 0xf1]
    let iv : Bytes := List.replicate 8 7
    let pieces : List CipherCall :=
      [.update (List.replicate 3 1), .update (List.replicate 8 2), .finalize]
    List.Forall₂ (CipherCall.Rekeyed TripleDes.Tripled) (.setup .encode key iv :: pieces)
        (.setup .encode (key ++ key ++ key) iv :: pieces) ∧
      (((new .tripledesCbc .tripledes .cbc true).withPolicy .strict).turns
          (.setup .encode (key ++ key ++ key) iv :: pieces)).map CipherTurn.outcome =
        (((new .desCbc .des .cbc true).withPolicy .strict).turns
          (.setup .encode key iv :: pieces)).map CipherTurn.outcome := by
  intro key iv pieces
  have hcalls : List.Forall₂ (CipherCall.Rekeyed TripleDes.Tripled)
      (.setup .encode key iv :: pieces) (.setup .encode (key ++ key ++ key) iv :: pieces) :=
    .cons (.setup ⟨rfl, rfl⟩ .encode iv) (.cons (.update _) (.cons (.update _)
      (.cons .finalize .nil)))
  exact ⟨hcalls, outcomes_tripled .desCbc .tripledesCbc .cbc true .strict hcalls⟩

/-- Parity bits never matter: with keys that agree on all other bits, the calls have the same
outcomes and log the same, whatever becomes of the pages of their arrays, and only the keys on
record differ, in those bits. -/
theorem turns_sameButParity {context : CipherContext}
    (hdes : context.algorithm = .des ∨ context.algorithm = .tripledes)
    {calls others : List CipherCall}
    (hcalls : List.Forall₂ (CipherCall.Rekeyed fun key otherKey ↦
      context.algorithm.keyLength.accepts key.length = true ∧ SameButParity key otherKey)
      calls others) :
    List.Forall₂ (fun first second ↦ second.outcome = first.outcome ∧
        second.events = first.events ∧
        (∀ locking, second.eventsWith locking = first.eventsWith locking) ∧
        first.after.Rekeyed SameButParity context.algorithm second.after)
      (context.turns calls) (context.turns others) := by
  have hrekeyed : context.Rekeyed SameButParity context.algorithm context :=
    ⟨context.lifecycle, rfl, .refl SameButParity.refl _⟩
  have hinter := hcalls.imp (CipherCall.Rekeyed.imp fun key otherKey hkeys ↦
    And.intro hkeys.2 (hkeys.2.interchangeable hdes hkeys.1))
  exact (turns_rekeyed rfl hrekeyed hinter).imp fun first second hturn ↦
    ⟨hturn.outcome_eq, hturn.events, hturn.traced fun _ _ hsame ↦ hsame.length_eq, hturn.after⟩

/-- A triple DES key whose first piece is weak, with all of its parity bits flipped. -/
theorem turns_sameButParity_weak_piece :
    let context := (new .tripledesCbc .tripledes .cbc true).withPolicy .strict
    let key : Bytes := List.replicate 8 0x01 ++ List.replicate 16 0x32
    let otherKey : Bytes := List.replicate 8 0x00 ++ List.replicate 16 0x33
    let iv : Bytes := List.replicate 8 7
    let pieces : List CipherCall := [.update (List.replicate 11 2), .finalize]
    SameButParity key otherKey ∧ context.algorithm.isWeakKey key = true ∧
      List.Forall₂ (fun first second ↦ second.outcome = first.outcome ∧
          second.events = first.events ∧
          (∀ locking, second.eventsWith locking = first.eventsWith locking) ∧
          first.after.Rekeyed SameButParity context.algorithm second.after)
        (context.turns (.setup .encode key iv :: pieces))
        (context.turns (.setup .encode otherKey iv :: pieces)) := by
  intro context key otherKey iv pieces
  have hsame : SameButParity key otherKey := by decide
  have hcalls : List.Forall₂ (CipherCall.Rekeyed fun key otherKey ↦
      context.algorithm.keyLength.accepts key.length = true ∧ SameButParity key otherKey)
      (.setup .encode key iv :: pieces) (.setup .encode otherKey iv :: pieces) :=
    .cons (.setup ⟨by decide, hsame⟩ .encode iv) (.cons (.update _) (.cons .finalize .nil))
  exact ⟨hsame, by decide, turns_sameButParity (.inr rfl) hcalls⟩

end CipherContext

end StreamCrypto
