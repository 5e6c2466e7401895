import StreamCrypto.Digest.Compression

/-!
# HMAC

A message authentication code over any digest of the family. The key is combined with two
pads; one digest of the first padded key and the message is digested again behind the
second. A prepared key has absorbed both padded keys, and can be used for many messages.
-/

namespace StreamCrypto.Kdf.Hmac

open Digest

/-- The key as exactly one block. A key longer than a block is digested first. -/
def blockKey (c : Compression) (secret : Bytes) : Bytes :=
  let short := if secret.length ≤ c.blockSize then secret else c.digest secret
  short ++ List.replicate (c.blockSize - short.length) 0

def innerPad (key : Bytes) : Bytes := key.map (· ^^^ 0x36)

def outerPad (key : Bytes) : Bytes := key.map (· ^^^ 0x5c)

/-- The code of a whole message. -/
def code (c : Compression) (secret message : Bytes) : Bytes :=
  let key := blockKey c secret
  c.digest (outerPad key ++ c.digest (innerPad key ++ message))

structure Prepared (c : Compression) where
  inner : Hasher c
  outer : Hasher c

namespace Prepared

variable {c : Compression}

def ofSecret (c : Compression) (secret : Bytes) : Prepared c :=
  let key := blockKey c secret
  { inner := (Hasher.new c).update (innerPad key)
    outer := (Hasher.new c).update (outerPad key) }

def code (prepared : Prepared c) (message : Bytes) : Bytes :=
  (prepared.outer.update (prepared.inner.update message).finish).finish

end Prepared

end StreamCrypto.Kdf.Hmac
