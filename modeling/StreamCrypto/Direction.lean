/-!
# Direction

Whether a cipher context encrypts or decrypts.
-/

namespace StreamCrypto

inductive Direction where
  | encode
  | decode
  deriving DecidableEq, Repr

namespace Direction

def name : Direction → String
  | encode => "encode"
  | decode => "decode"

/-- The name that log events use. -/
def label : Direction → String
  | encode => "Encode"
  | decode => "Decode"

end Direction

end StreamCrypto
