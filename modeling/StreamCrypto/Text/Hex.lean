import StreamCrypto.Bytes.Basic

/-!
# Hexadecimal text of byte strings

Two lowercase digits for each byte, the high half first.
-/

namespace StreamCrypto.Text.Hex

def digit (value : UInt8) : Char :=
  Char.ofNat (if value < 10 then 48 + value.toNat else 87 + value.toNat)

def encodeChars (data : Bytes) : List Char :=
  data.flatMap fun (byte : UInt8) ↦ [digit (byte >>> 4), digit (byte &&& 15)]

def encode (data : Bytes) : String := String.ofList (encodeChars data)

/-- The value of a lowercase digit. -/
def digitValue? (c : Char) : Option UInt8 :=
  if '0' ≤ c ∧ c ≤ '9' then some (UInt8.ofNat (c.toNat - 48))
  else if 'a' ≤ c ∧ c ≤ 'f' then some (UInt8.ofNat (c.toNat - 87))
  else none

def decodeChars? : List Char → Option Bytes
  | [] => some []
  | high :: low :: rest => do
    let h ← digitValue? high
    let l ← digitValue? low
    let bytes ← decodeChars? rest
    pure ((h <<< 4 ||| l) :: bytes)
  | [_] => none

/-- Refuses uppercase digits, other characters and an odd number of digits. -/
def decode? (text : String) : Option Bytes := decodeChars? text.toList

end StreamCrypto.Text.Hex
