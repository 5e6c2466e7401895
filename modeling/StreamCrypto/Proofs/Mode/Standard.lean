import StreamCrypto.Mode.Transform

/-!
# The standard block modes of a whole message

ECB and CBC in textbook form. Every block of the result is given by its number, as a function
of the message, the initialization vector and the ciphertext block before it; nothing is
carried along. The running transforms compute exactly this on messages of whole blocks
(`ecbRun_eq_transform`, `cbcRun_eq_transform`). CFB, which has no need of whole blocks, is not
the subject of this module.
-/

namespace StreamCrypto.Mode.Standard

open Bytes (block blocks_eq_map_block)

/-- The CBC ciphertext block before plaintext block `i` of a message. -/
def chained (cipher : BlockCipher) (iv message : Bytes) : Nat → Bytes
  | 0 => iv
  | i + 1 =>
    cipher.encrypt (Bytes.xor (block cipher.blockSize message i) (chained cipher iv message i))

/-- The block before block `i` of a CBC ciphertext. -/
def preceding (size : Nat) (iv ciphertext : Bytes) : Nat → Bytes
  | 0 => iv
  | i + 1 => block size ciphertext i

def ecbBlock (cipher : BlockCipher) (direction : Direction) (message : Bytes) (i : Nat) : Bytes :=
  match direction with
  | .encode => cipher.encrypt (block cipher.blockSize message i)
  | .decode => cipher.decrypt (block cipher.blockSize message i)

def cbcBlock (cipher : BlockCipher) (direction : Direction) (iv message : Bytes) (i : Nat) :
    Bytes :=
  match direction with
  | .encode => chained cipher iv message (i + 1)
  | .decode =>
    Bytes.xor (cipher.decrypt (block cipher.blockSize message i))
      (preceding cipher.blockSize iv message i)

/-- A message of whole blocks, transformed block by block. Only CBC looks at the
initialization vector. -/
def transform (cipher : BlockCipher) (chaining : Bool) (direction : Direction)
    (iv message : Bytes) : Bytes :=
  (List.range (message.length / cipher.blockSize)).flatMap fun i ↦
    if chaining = true then cbcBlock cipher direction iv message i
    else ecbBlock cipher direction message i

/-! ## The running modes -/

/-- A state that is known for every number carries a map along numbered items. -/
theorem mapAccum_map_range {σ α β : Type} (step : σ → α → β × σ) (item : Nat → α)
    (state : Nat → σ) (hstep : ∀ i, (step (state i) (item i)).2 = state (i + 1)) (count : Nat) :
    mapAccum step (state 0) ((List.range count).map item) =
      ((List.range count).map fun i ↦ (step (state i) (item i)).1, state count) := by
  induction count with
  | zero => rfl
  | succ count ih =>
    rw [List.range_succ, List.map_append, mapAccum_append, ih]
    simp only [List.map_cons, List.map_nil, mapAccum_cons, mapAccum_nil, hstep, List.map_append]

theorem ecbRun_eq_transform (cipher : BlockCipher) (direction : Direction) (iv : Bytes)
    {message : Bytes} (hwhole : cipher.blockSize ∣ message.length) :
    Ecb.run cipher direction message = transform cipher false direction iv message := by
  have hblock (i : Nat) :
      Ecb.transformBlock cipher direction (block cipher.blockSize message i) =
        ecbBlock cipher direction message i := by
    cases direction <;> rfl
  simp only [Ecb.run, transform, Bytes.partialBlock_eq_nil hwhole, List.append_nil,
    blocks_eq_map_block, List.flatMap_map, hblock, Bool.false_eq_true, if_false]

theorem mapAccum_cbc_encode (cipher : BlockCipher) (iv message : Bytes) (count : Nat) :
    mapAccum (Cbc.transformBlock cipher .encode) iv
        ((List.range count).map (block cipher.blockSize message)) =
      ((List.range count).map (cbcBlock cipher .encode iv message),
        chained cipher iv message count) :=
  mapAccum_map_range _ _ (chained cipher iv message) (fun _ ↦ rfl) count

theorem mapAccum_cbc_decode (cipher : BlockCipher) (iv message : Bytes) (count : Nat) :
    mapAccum (Cbc.transformBlock cipher .decode) iv
        ((List.range count).map (block cipher.blockSize message)) =
      ((List.range count).map (cbcBlock cipher .decode iv message),
        preceding cipher.blockSize iv message count) :=
  mapAccum_map_range _ _ (preceding cipher.blockSize iv message) (fun _ ↦ rfl) count

theorem cbcRun_eq_transform (cipher : BlockCipher) (direction : Direction) (iv : Bytes)
    {message : Bytes} (hwhole : cipher.blockSize ∣ message.length) :
    (Cbc.run cipher direction iv message).1 = transform cipher true direction iv message := by
  have houtputs : (mapAccum (Cbc.transformBlock cipher direction) iv
      (Bytes.blocks cipher.blockSize message)).1 =
        (List.range (message.length / cipher.blockSize)).map
          (cbcBlock cipher direction iv message) := by
    rw [blocks_eq_map_block]
    cases direction with
    | encode => rw [mapAccum_cbc_encode]
    | decode => rw [mapAccum_cbc_decode]
  simp only [Cbc.run, transform, houtputs, Bytes.partialBlock_eq_nil hwhole, List.append_nil,
    if_true, List.flatMap]

end StreamCrypto.Mode.Standard
