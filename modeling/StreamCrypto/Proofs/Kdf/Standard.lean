import StreamCrypto.Proofs.Kdf.Agreement

/-!
# Derived keys are standard

The standard is written down here without prepared keys, hashers and running sums: a code of a
message under a secret (`hmac`), the chain of codes behind one block (`link`), a block as the
exclusive or of its chain (`block`), and the row of all blocks. A key is the beginning of that row.
That is all there is to the bytes of a key, so that neither the engine, nor the buffer that the key
is written to, nor the keys before it matter, and shorter keys begin longer ones.
-/

namespace StreamCrypto

namespace Bytes

theorem xor_replicate_zero {bytes : Bytes} {width : Nat} (hlength : bytes.length = width) :
    xor (List.replicate width 0) bytes = bytes := by
  subst hlength
  induction bytes with
  | nil => rfl
  | cons byte bytes ih =>
    rw [List.length_cons, List.replicate_succ]
    exact congrArg₂ List.cons UInt8.zero_xor ih

theorem map_xor (bytes : Bytes) (pad : UInt8) :
    bytes.map (· ^^^ pad) = xor bytes (List.replicate bytes.length pad) := by
  induction bytes with
  | nil => rfl
  | cons byte bytes ih => exact congrArg (List.cons (byte ^^^ pad)) ih

end Bytes

namespace Kdf.Standard

/-! ## The standard -/

section

variable (algorithm : HashAlgorithm) (secret salt : Bytes)

def blockSize : Nat := algorithm.compression.blockSize

/-- The bytes that stand for a secret. One that is longer than a block is digested. -/
def shortened : Bytes :=
  if secret.length ≤ blockSize algorithm then secret else algorithm.digest secret

/-- A secret as one block, with zeros after its bytes. -/
def keyBlock : Bytes :=
  (List.range (blockSize algorithm)).map fun i ↦ (shortened algorithm secret).getD i 0

/-- The code of a message under a secret. -/
def hmac (message : Bytes) : Bytes :=
  let masked (pad : UInt8) : Bytes :=
    Bytes.xor (keyBlock algorithm secret) (List.replicate (blockSize algorithm) pad)
  algorithm.digest (masked 0x5c ++ algorithm.digest (masked 0x36 ++ message))

/-- The codes behind the block of a number, counted from 0. -/
def link (number : Nat) : Nat → Bytes
  | 0 => hmac algorithm secret (salt ++ Bytes.ofNatBigEndian 4 number)
  | i + 1 => hmac algorithm secret (link number i)

/-- The block of a number: the exclusive or of as many codes as there are iterations. -/
def block (iterations number : Nat) : Bytes :=
  ((List.range iterations).map (link algorithm secret salt number)).foldl Bytes.xor
    (List.replicate algorithm.digestLength 0)

/-- The first blocks, numbered from 1. -/
def blocks (iterations count : Nat) : Bytes :=
  (List.range count).flatMap fun i ↦ block algorithm secret salt iterations (i + 1)

/-- All blocks that have a number of 32 bits. -/
def row (iterations : Nat) : Bytes := blocks algorithm secret salt iterations (UInt32.size - 1)

end

/-! ## Codes -/

variable {algorithm : HashAlgorithm} {secret salt : Bytes} {iterations : Nat}

theorem digestLength_le_blockSize (algorithm : HashAlgorithm) :
    algorithm.digestLength ≤ blockSize algorithm := by
  cases algorithm <;> decide

theorem length_shortened (algorithm : HashAlgorithm) (secret : Bytes) :
    (shortened algorithm secret).length ≤ blockSize algorithm := by
  unfold shortened
  split
  · next hshort => exact hshort
  · rw [algorithm.length_digest]
    exact digestLength_le_blockSize algorithm

theorem length_keyBlock (algorithm : HashAlgorithm) (secret : Bytes) :
    (keyBlock algorithm secret).length = blockSize algorithm := by
  rw [keyBlock, List.length_map, List.length_range]

/-- Zeros after a list, as its elements by default. -/
theorem append_zeros (bytes : Bytes) {width : Nat} (hlength : bytes.length ≤ width) :
    bytes ++ List.replicate (width - bytes.length) 0 =
      (List.range width).map fun i ↦ bytes.getD i 0 := by
  apply List.ext_getElem
  · simp [hlength]
  · intro i hi _
    by_cases hinside : i < bytes.length
    · simp [hinside]
    · simp [List.getElem_append_right (Nat.le_of_not_lt hinside), hinside]

theorem blockKey_eq (algorithm : HashAlgorithm) (secret : Bytes) :
    Hmac.blockKey algorithm.compression secret = keyBlock algorithm secret :=
  append_zeros _ (length_shortened algorithm secret)

theorem code_ofSecret (algorithm : HashAlgorithm) (secret message : Bytes) :
    (Hmac.Prepared.ofSecret algorithm.compression secret).code message =
      hmac algorithm secret message := by
  have hread (first second : Bytes) :
      (((Digest.Hasher.new algorithm.compression).update first).update second).finish =
        algorithm.digest (first ++ second) :=
    (((Digest.Hasher.hasRead_new _).update first).update second).finish
  simp only [Hmac.Prepared.code, Hmac.Prepared.ofSecret, hread, hmac, blockKey_eq, Hmac.innerPad,
    Hmac.outerPad, Bytes.map_xor, length_keyBlock]

theorem length_link (algorithm : HashAlgorithm) (secret salt : Bytes) (number i : Nat) :
    (link algorithm secret salt number i).length = algorithm.digestLength := by
  cases i with
  | zero => exact algorithm.length_digest _
  | succ i => exact algorithm.length_digest _

/-! ## Blocks -/

/-- A chain goes on with the next links. -/
theorem chain_eq (algorithm : HashAlgorithm) (secret salt : Bytes) (number count i : Nat)
    (sum : Bytes) :
    Pbkdf2.chain (hmac algorithm secret) count (link algorithm secret salt number i) sum =
      ((List.range' (i + 1) count).map (link algorithm secret salt number)).foldl Bytes.xor
        sum := by
  induction count generalizing i sum with
  | zero => rfl
  | succ count ih => exact ih (i + 1) _

theorem block_eq (hiterations : 0 < iterations) (algorithm : HashAlgorithm) (secret salt : Bytes)
    (number : Nat) :
    Pbkdf2.block (hmac algorithm secret) salt iterations number =
      block algorithm secret salt iterations number := by
  obtain ⟨count, rfl⟩ := Nat.exists_eq_add_one_of_ne_zero (Nat.ne_of_gt hiterations)
  have hfirst := length_link algorithm secret salt number 0
  calc
    _ = ((List.range' 1 count).map (link algorithm secret salt number)).foldl Bytes.xor
          (link algorithm secret salt number 0) :=
      chain_eq algorithm secret salt number count 0 _
    _ = ((List.range' 0 (count + 1)).map (link algorithm secret salt number)).foldl Bytes.xor
          (List.replicate algorithm.digestLength 0) := by
      rw [List.range'_succ, List.map_cons, List.foldl_cons, Bytes.xor_replicate_zero hfirst]
    _ = block algorithm secret salt (count + 1) number := by
      rw [block, List.range_eq_range']

theorem keystream_eq (hiterations : 0 < iterations) (algorithm : HashAlgorithm)
    (secret salt : Bytes) (count : Nat) :
    Pbkdf2.keystream (Hmac.Prepared.ofSecret algorithm.compression secret).code salt iterations
        count = blocks algorithm secret salt iterations count := by
  have hcode : (Hmac.Prepared.ofSecret algorithm.compression secret).code = hmac algorithm secret :=
    funext fun message ↦ code_ofSecret algorithm secret message
  simp only [Pbkdf2.keystream, hcode, block_eq hiterations, blocks]

theorem blocks_extended (algorithm : HashAlgorithm) (secret salt : Bytes) (iterations : Nat)
    {count more : Nat} (hcount : count ≤ more) :
    blocks algorithm secret salt iterations count <+:
      blocks algorithm secret salt iterations more := by
  obtain ⟨extra, rfl⟩ := Nat.exists_eq_add_of_le hcount
  rw [blocks, blocks, List.range_add, List.flatMap_append]
  exact List.prefix_append _ _

/-! ## Keys -/

/-- What is derived is the beginning of the row, and as long as is asked for. -/
theorem derived_begins_row (hiterations : 0 < iterations) {length : Nat}
    (hlength : length ≤ Pbkdf2.maximumLength algorithm) (secret salt : Bytes) :
    Pbkdf2.derived algorithm secret salt iterations length <+:
      row algorithm secret salt iterations := by
  have hcount : (length + algorithm.digestLength - 1) / algorithm.digestLength ≤
      UInt32.size - 1 := by
    have hwidth := algorithm.digestLength_pos
    rw [← Nat.lt_add_one_iff, Nat.div_lt_iff_lt_mul hwidth, Nat.add_one_mul]
    unfold Pbkdf2.maximumLength at hlength
    omega
  rw [Pbkdf2.derived, keystream_eq hiterations]
  exact (List.take_prefix _ _).trans (blocks_extended algorithm secret salt iterations hcount)

end Kdf.Standard

/-! ## Contexts -/

namespace KdfContext

open Kdf

/-- The standard key for a request: the first bytes of the row of blocks. -/
structure Standard (context : KdfContext) (request : KeyRequest) (key : Bytes) : Prop where
  length : key.length = request.length
  row : key <+: Standard.row context.hash request.secret request.salt request.iterations

/-- Of all requests that differ in their lengths only, the shorter keys begin the longer ones. -/
theorem Standard.extends {context : KdfContext} {request : KeyRequest} {m n : Nat}
    {short long : Bytes} (hshort : context.Standard { request with length := m } short)
    (hlong : context.Standard { request with length := n } long) (hle : m ≤ n) :
    short <+: long := by
  apply List.prefix_of_prefix_length_le hshort.row hlong.row
  rw [hshort.length, hlong.length]
  exact hle

variable {context : KdfContext} {request : KeyRequest}

theorem standard_keyBytes (hcheck : context.check request = .ok ()) :
    context.Standard request (context.keyBytes request) where
  length := context.length_keyBytes request
  row := by
    obtain ⟨hiterations, -, hlength⟩ := Pbkdf2.check_eq_ok_iff.1 hcheck
    exact Standard.derived_begins_row (Nat.pos_of_ne_zero hiterations) hlength _ _

/-- A result, if it is a key that is not empty, is the standard one. -/
def StandardOrEmpty (context : KdfContext) (request : KeyRequest)
    (result : Except Failure SymmetricKey) : Prop :=
  ∀ key, result = .ok key → key.material.bytes ≠ [] → context.Standard request key.material.bytes

/-- How the keys that a context derives compare with the standard, whatever the engine is like. -/
structure DerivesStandard (context : KdfContext) (request : KeyRequest) (engine : Engine) :
    Prop where
  attempt : ∀ key, (context.tryMakeKey request engine).value.1 = .ok key →
    context.Standard request key.material.bytes
  making : context.StandardOrEmpty request (context.makeKey request engine).value.1
  emptying : context.StandardOrEmpty request (context.makeKeyOrEmpty request engine).value.1
  /-- With the way out of the pool there is always a key. -/
  made : 1 ≤ request.iterations → 1 ≤ request.length →
    request.length ≤ Pbkdf2.maximumLength context.hash →
      ∃ key, (context.makeKey request engine).value.1 = .ok key ∧
        context.Standard request key.material.bytes

theorem standardOrEmpty_empty (context : KdfContext) (request : KeyRequest) :
    context.StandardOrEmpty request (.ok .empty) := by
  rintro _ ⟨⟩ hnonempty
  exact absurd rfl hnonempty

theorem standardOrEmpty_keyWith (hcheck : context.check request = .ok ()) (locking : Locking)
    (lease : Option Lease) :
    context.StandardOrEmpty request (.ok (context.keyWith request locking lease)) := by
  rintro _ ⟨⟩ _
  exact standard_keyBytes hcheck

theorem derivesStandard_of_check (hcheck : context.check request = .ok ()) (engine : Engine) :
    context.DerivesStandard request engine := by
  have hstandard := standard_keyBytes hcheck
  have hbuffers := engine.outputBuffer_buffers (length_lt_of_check hcheck)
  generalize houtput : engine.outputBuffer request.length = output at hbuffers
  cases hbuffers with
  | served lease after =>
    have hattempt := tryMakeKey_of_buffer hcheck houtput
    constructor
    · rw [hattempt]
      rintro _ ⟨⟩
      exact hstandard
    · rw [makeKey_of_buffer hcheck houtput]
      exact standardOrEmpty_keyWith hcheck _ lease
    · rw [makeKeyOrEmpty_of_ok hattempt]
      exact standardOrEmpty_keyWith hcheck _ lease
    · rw [makeKey_of_buffer hcheck houtput]
      exact fun _ _ _ ↦ ⟨_, rfl, hstandard⟩
  | exhausted =>
    have hattempt := tryMakeKey_of_failure hcheck houtput
    constructor
    · rw [hattempt]
      exact nofun
    · rw [makeKey_of_exhausted hcheck houtput]
      exact standardOrEmpty_keyWith hcheck _ none
    · rw [makeKeyOrEmpty_of_error hattempt]
      exact context.standardOrEmpty_empty request
    · rw [makeKey_of_exhausted hcheck houtput]
      exact fun _ _ _ ↦ ⟨_, rfl, hstandard⟩

theorem derivesStandard_of_refused {reason : String}
    (hcheck : context.check request = .error (.derivation reason)) (engine : Engine) :
    context.DerivesStandard request engine where
  attempt := by
    rw [tryMakeKey_of_refused hcheck]
    exact nofun
  making := by
    rw [makeKey_of_refused hcheck]
    exact context.standardOrEmpty_empty request
  emptying := by
    rw [makeKeyOrEmpty_of_refused hcheck]
    exact context.standardOrEmpty_empty request
  made hiterations hpositive hlength := by
    have haccepted : context.check request = .ok () :=
      Pbkdf2.check_eq_ok_iff.2
        ⟨Nat.ne_of_gt hiterations, Nat.ne_of_gt hpositive, hlength⟩
    rw [haccepted] at hcheck
    cases hcheck

/-- Every key that is derived is the standard one for its request, and shorter keys begin longer
ones. -/
theorem derived_keys_standard (context : KdfContext) :
    (∀ request engine, context.DerivesStandard request engine) ∧
      ∀ (request : KeyRequest) (m n : Nat) (short long : Bytes), m ≤ n →
        context.Standard { request with length := m } short →
          context.Standard { request with length := n } long → short <+: long := by
  refine ⟨fun request engine ↦ ?_, fun _ _ _ _ _ hle hshort hlong ↦ hshort.extends hlong hle⟩
  rcases Pbkdf2.check_eq_ok_or context.hash request.length request.iterations with
    hcheck | ⟨reason, hcheck⟩
  · exact derivesStandard_of_check hcheck engine
  · exact derivesStandard_of_refused hcheck engine

/-- A key of ten bytes that fits the pool begins one of twenty bytes that does not. -/
theorem derived_keys_standard_ten_of_twenty :
    let context := new .pbkdf2Sha1 .sha1
    let request : KeyRequest :=
      { secret := [1, 2, 3], salt := [4, 5], length := 20, iterations := 2 }
    let engine : Engine := { securePool := some 0, memory := { pools := [{ capacity := 10 }] } }
    ∃ short long, short.material.isPooled = true ∧ long.material.isPooled = false ∧
      (context.tryMakeKey { request with length := 10 } engine).value.1 = .ok short ∧
      (context.makeKey request engine).value.1 = .ok long ∧
      context.Standard request long.material.bytes ∧
      short.material.bytes <+: long.material.bytes := by
  intro context request engine
  have hstandard := derived_keys_standard context
  have hlength : request.length ≤ Pbkdf2.maximumLength context.hash := by decide
  obtain ⟨long, hmade, hlong⟩ :=
    (hstandard.1 request engine).made (by decide) (by decide) hlength
  have hshort := (hstandard.1 { request with length := 10 } engine).attempt _ rfl
  have hprefix := hstandard.2 request 10 20 _ _ (by decide) hshort hlong
  have houtside : long.material.isPooled = false := by
    cases hmade
    rfl
  exact ⟨_, long, rfl, houtside, rfl, hmade, hlong, hprefix⟩

end KdfContext

end StreamCrypto
