import StreamCrypto.Memory.SecureArray

/-!
# Arrays as they are made

Of a new array everything is known in full: its bytes, its lease, whether its pages are locked, and
what is traced if they are not. There is an array of zeros for every length below a limit. What is
traced reports no error (`errors_lock`).
-/

namespace StreamCrypto

variable {locking : Locking} {length : Nat}

theorem Locking.errors_lock (locking : Locking) (length : Nat) :
    Event.errors (locking.lock length).events = [] := by
  rw [← Event.errors_withoutTrace, withoutTrace_lock]
  rfl

namespace SecureArray

/-- An array of zeros right after it has been made. -/
def zeros (locking : Locking) (lease : Option Lease) (length : Nat) : SecureArray where
  bytes := List.replicate length 0
  lease := lease
  locked := (locking.lock length).value

theorem lock_replicate (locking : Locking) (lease : Option Lease) (length : Nat) :
    lock { bytes := List.replicate length 0, lease } locking =
      ⟨zeros locking lease length, (locking.lock length).events⟩ := by
  unfold lock zeros
  rw [List.length_replicate]
  exact Logged.bind_of_silent rfl

theorem zeroedWith_of_long (hlong : lengthLimit ≤ length) (lease : Option Lease) :
    zeroedWith locking lease length = pure (.error .capacityOverflow) :=
  if_pos hlong

theorem zeroedWith_of_short (hshort : length < lengthLimit) (lease : Option Lease) :
    zeroedWith locking lease length =
      ⟨.ok (zeros locking lease length), (locking.lock length).events⟩ := by
  unfold zeroedWith
  rw [if_neg (Nat.not_le.2 hshort), lock_replicate]
  exact Logged.bind_of_silent rfl

theorem lease_of_zeroedWith {lease : Option Lease} {array : SecureArray}
    (harray : (zeroedWith locking lease length).value = .ok array) : array.lease = lease := by
  rcases Nat.lt_or_ge length lengthLimit with hshort | hlong
  · rw [zeroedWith_of_short hshort] at harray
    cases harray
    rfl
  · rw [zeroedWith_of_long hlong] at harray
    cases harray

theorem tryZeroed_of_shortage {cause : LockError} (hshortage : shortage? length = some cause) :
    tryZeroed locking length = pure (.error cause) := by
  unfold tryZeroed
  rw [hshortage]

theorem tryZeroed_of_none (henough : shortage? length = none) :
    tryZeroed locking length =
      ⟨.ok (zeros locking none length), (locking.lock length).events⟩ := by
  unfold tryZeroed
  rw [henough, ofBytes, lock_replicate]
  exact Logged.bind_of_silent rfl

theorem lease_of_tryZeroed {array : SecureArray}
    (harray : (tryZeroed locking length).value = .ok array) : array.lease = none := by
  cases hshortage : shortage? length with
  | some cause =>
    rw [tryZeroed_of_shortage hshortage] at harray
    cases harray
  | none =>
    rw [tryZeroed_of_none hshortage] at harray
    cases harray
    rfl

theorem memoryLimit_lt : memoryLimit < lengthLimit := by decide

theorem shortage?_of_lt (hlength : length < memoryLimit) : shortage? length = none := by
  have hlimit := memoryLimit_lt
  unfold shortage?
  rw [if_neg (by omega), if_neg (by omega)]

end SecureArray

end StreamCrypto
