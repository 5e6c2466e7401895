/-!
# Feistel networks

A block is a pair of words. A round replaces the left word by the right one, and the
right word by the left one combined with a function of the right one and a round key.
After the last round the words are exchanged, so that the same network with the round
keys in reverse order undoes it, whatever the round function is: `network_reverse_network`.
-/

namespace StreamCrypto.Cipher.Feistel

structure Halves (ω : Type) where
  left : ω
  right : ω
  deriving DecidableEq, Repr

variable {κ ω : Type} [XorOp ω]

def Halves.swap (h : Halves ω) : Halves ω := ⟨h.right, h.left⟩

@[specialize] def round (mix : κ → ω → ω) (h : Halves ω) (key : κ) : Halves ω :=
  ⟨h.right, h.left ^^^ mix key h.right⟩

/-- All rounds, and the exchange of the words at the end. -/
@[specialize] def network (mix : κ → ω → ω) (keys : List κ) (h : Halves ω) : Halves ω :=
  (keys.foldl (round mix) h).swap

theorem round_swap_round (mix : κ → ω → ω) (cancel : ∀ x y : ω, x ^^^ y ^^^ y = x)
    (h : Halves ω) (key : κ) : (round mix (round mix h key).swap key).swap = h := by
  simp [round, Halves.swap, cancel]

theorem network_reverse_network (mix : κ → ω → ω) (cancel : ∀ x y : ω, x ^^^ y ^^^ y = x)
    (keys : List κ) (h : Halves ω) : network mix keys.reverse (network mix keys h) = h := by
  induction keys generalizing h with
  | nil => rfl
  | cons key keys ih =>
    have inner := congrArg Halves.swap (ih (round mix h key))
    simp only [network, List.reverse_cons, List.foldl_append, List.foldl_cons,
      List.foldl_nil] at inner ⊢
    rw [show keys.reverse.foldl (round mix) (keys.foldl (round mix) (round mix h key)).swap =
      (round mix h key).swap from inner]
    exact round_swap_round mix cancel h key

end StreamCrypto.Cipher.Feistel
