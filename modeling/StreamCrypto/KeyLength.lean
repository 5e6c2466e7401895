/-!
# Key length contracts

Which numbers of bytes a cipher takes as a key: those between two bounds that are a
multiple of a unit.
-/

namespace StreamCrypto

structure KeyLength where
  minimum : Nat
  maximum : Nat
  multiple : Nat
  deriving DecidableEq, Repr

namespace KeyLength

/-- The contract that only one length meets. -/
def fixed (length : Nat) : KeyLength := ⟨length, length, 1⟩

/-- No length is a multiple of zero, not even zero. -/
def accepts (contract : KeyLength) (length : Nat) : Bool :=
  decide (contract.minimum ≤ length ∧ length ≤ contract.maximum ∧ contract.multiple ≠ 0 ∧
    length % contract.multiple = 0)

def text (contract : KeyLength) : String :=
  if contract.minimum = contract.maximum then
    toString contract.minimum
  else
    toString contract.minimum ++ "..=" ++ toString contract.maximum ++ " step " ++
      toString contract.multiple

theorem accepts_fixed_iff (length n : Nat) : (fixed length).accepts n = true ↔ n = length := by
  simp [accepts, fixed, Nat.mod_one]
  omega

end KeyLength

end StreamCrypto
