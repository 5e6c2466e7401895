import StreamCrypto.Cipher.Algorithm

/-!
# Weak keys

DES has four weak and twelve semi-weak keys: encryption with such a key is undone by
encryption with the same or another one. They are listed with the lowest bit of every byte
cleared, since the cipher ignores those bits. A triple DES key is weak if one of its
pieces is.
-/

namespace StreamCrypto.Cipher.WeakKey

/-- The weak keys, followed by the semi-weak keys with each one next to its partner. -/
def desTable : List Bytes :=
  [[0x00, 0x00, 0x00, 0x00, 0x00, 0x00, 0x00, 0x00],
   [0xfe, 0xfe, 0xfe, 0xfe, 0xfe, 0xfe, 0xfe, 0xfe],
   [0xe0, 0xe0, 0xe0, 0xe0, 0xf0, 0xf0, 0xf0, 0xf0],
   [0x1e, 0x1e, 0x1e, 0x1e, 0x0e, 0x0e, 0x0e, 0x0e],
   [0x00, 0xfe, 0x00, 0xfe, 0x00, 0xfe, 0x00, 0xfe],
   [0xfe, 0x00, 0xfe, 0x00, 0xfe, 0x00, 0xfe, 0x00],
   [0x1e, 0xe0, 0x1e, 0xe0, 0x0e, 0xf0, 0x0e, 0xf0],
   [0xe0, 0x1e, 0xe0, 0x1e, 0xf0, 0x0e, 0xf0, 0x0e],
   [0x00, 0xe0, 0x00, 0xe0, 0x00, 0xf0, 0x00, 0xf0],
   [0xe0, 0x00, 0xe0, 0x00, 0xf0, 0x00, 0xf0, 0x00],
   [0x1e, 0xfe, 0x1e, 0xfe, 0x0e, 0xfe, 0x0e, 0xfe],
   [0xfe, 0x1e, 0xfe, 0x1e, 0xfe, 0x0e, 0xfe, 0x0e],
   [0x00, 0x1e, 0x00, 0x1e, 0x00, 0x0e, 0x00, 0x0e],
   [0x1e, 0x00, 0x1e, 0x00, 0x0e, 0x00, 0x0e, 0x00],
   [0xe0, 0xfe, 0xe0, 0xfe, 0xf0, 0xfe, 0xf0, 0xfe],
   [0xfe, 0xe0, 0xfe, 0xe0, 0xfe, 0xf0, 0xfe, 0xf0]]

/-- The key without its parity bits. -/
def withoutParity (key : Bytes) : Bytes := key.map (· &&& 0xfe)

/-- Whether a key has eight bytes and they are those of an entry. -/
def isWeakDes (key : Bytes) : Bool :=
  desTable.any fun entry ↦
    key.length == 8 && ((withoutParity key).zip entry).all fun (byte, listed) ↦ byte == listed

end StreamCrypto.Cipher.WeakKey

namespace StreamCrypto.CipherAlgorithm

open Cipher

/-- Whether a key is known to be weak. Every piece of a triple DES key is looked at, a shorter
last one included; the other ciphers have no listed keys. -/
def isWeakKey (algorithm : CipherAlgorithm) (key : Bytes) : Bool :=
  match algorithm with
  | des => WeakKey.isWeakDes key
  | tripledes => (Bytes.chunks 8 key).any WeakKey.isWeakDes
  | aes128 | aes192 | aes256 | blowfish => false

end StreamCrypto.CipherAlgorithm
