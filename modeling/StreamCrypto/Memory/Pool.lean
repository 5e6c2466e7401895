import StreamCrypto.Event

/-!
# Pools

A pool holds no memory. It meters how many bytes may be charged to it at once, and counts
the reservations that it granted and refused.
-/

namespace StreamCrypto

structure Pool where
  capacity : Nat
  /-- The bytes that are charged at present. -/
  inUse : Nat := 0
  /-- The reservations granted so far. -/
  granted : Nat := 0
  /-- The reservations refused so far. -/
  refused : Nat := 0
  deriving DecidableEq, Repr

namespace Pool

def available (pool : Pool) : Nat := pool.capacity - pool.inUse

/-- Charges `size` bytes if so many are available. -/
def reserve (pool : Pool) (size : Nat) : Logged (Except Error Unit × Pool) :=
  if pool.available < size then do
    Logged.emit (.poolExhausted size pool.available pool.capacity)
    pure (.error (.poolExhausted size pool.available), { pool with refused := pool.refused + 1 })
  else
    pure (.ok (), { pool with inUse := pool.inUse + size, granted := pool.granted + 1 })

/-- Takes a charge back. -/
def release (pool : Pool) (size : Nat) : Pool := { pool with inUse := pool.inUse - size }

end Pool

end StreamCrypto
