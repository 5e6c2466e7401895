import StreamCrypto.Cipher.Algorithm
import StreamCrypto.Digest.Algorithm
import StreamCrypto.Error
import StreamCrypto.Mode.Basic

/-!
# Features

The closed list of what a provider supports, in the order in which it is announced. Every
feature has a name and the parameters of the contexts that are made for it. Names are
compared exactly.
-/

namespace StreamCrypto

inductive Category where
  | hash
  | cipher
  | kdf
  deriving DecidableEq, Repr

def Category.name : Category → String
  | hash => "hash"
  | cipher => "cipher"
  | kdf => "kdf"

/-- The name that descriptions of contexts use. -/
def Category.label : Category → String
  | hash => "Hash"
  | cipher => "Cipher"
  | kdf => "Kdf"

/-- The parameters of a feature. -/
inductive Algorithm where
  | hash (algorithm : HashAlgorithm)
  | cipher (algorithm : CipherAlgorithm) (mode : Mode) (padding : Bool)
  /-- Key derivation over a digest. -/
  | kdf (algorithm : HashAlgorithm)
  deriving DecidableEq, Repr

namespace Algorithm

def category : Algorithm → Category
  | hash _ => .hash
  | cipher _ _ _ => .cipher
  | kdf _ => .kdf

/-- Whether the last block is padded. -/
def padding : Algorithm → Bool
  | cipher _ _ padding => padding
  | hash _ | kdf _ => false

end Algorithm

inductive Feature where
  | sha1
  | md4
  | md5
  | ripemd160
  | sha256
  | sha384
  | sha512
  | aes128Ecb
  | aes128Cfb
  | aes128Cbc
  | aes192Ecb
  | aes192Cfb
  | aes192Cbc
  | aes256Ecb
  | aes256Cfb
  | aes256Cbc
  | blowfishEcb
  | tripledesEcb
  | desEcb
  | desCbc
  | desCfb
  | pbkdf2Sha1
  | aes128CbcPkcs7
  | aes192CbcPkcs7
  | aes256CbcPkcs7
  | blowfishCbc
  | blowfishCbcPkcs7
  | blowfishCfb
  | tripledesCbc
  | desEcbPkcs7
  | desCbcPkcs7
  deriving DecidableEq, Repr

namespace Feature

/-- All features in the order in which they are announced. -/
def all : List Feature :=
  [sha1, md4, md5, ripemd160, sha256, sha384, sha512, aes128Ecb, aes128Cfb, aes128Cbc,
   aes192Ecb, aes192Cfb, aes192Cbc, aes256Ecb, aes256Cfb, aes256Cbc, blowfishEcb,
   tripledesEcb, desEcb, desCbc, desCfb, pbkdf2Sha1, aes128CbcPkcs7, aes192CbcPkcs7,
   aes256CbcPkcs7, blowfishCbc, blowfishCbcPkcs7, blowfishCfb, tripledesCbc, desEcbPkcs7,
   desCbcPkcs7]

def name : Feature → String
  | sha1 => "sha1"
  | md4 => "md4"
  | md5 => "md5"
  | ripemd160 => "ripemd160"
  | sha256 => "sha256"
  | sha384 => "sha384"
  | sha512 => "sha512"
  | aes128Ecb => "aes128-ecb"
  | aes128Cfb => "aes128-cfb"
  | aes128Cbc => "aes128-cbc"
  | aes192Ecb => "aes192-ecb"
  | aes192Cfb => "aes192-cfb"
  | aes192Cbc => "aes192-cbc"
  | aes256Ecb => "aes256-ecb"
  | aes256Cfb => "aes256-cfb"
  | aes256Cbc => "aes256-cbc"
  | blowfishEcb => "blowfish-ecb"
  | tripledesEcb => "tripledes-ecb"
  | desEcb => "des-ecb"
  | desCbc => "des-cbc"
  | desCfb => "des-cfb"
  | pbkdf2Sha1 => "pbkdf2(sha1)"
  | aes128CbcPkcs7 => "aes128-cbc-pkcs7"
  | aes192CbcPkcs7 => "aes192-cbc-pkcs7"
  | aes256CbcPkcs7 => "aes256-cbc-pkcs7"
  | blowfishCbc => "blowfish-cbc"
  | blowfishCbcPkcs7 => "blowfish-cbc-pkcs7"
  | blowfishCfb => "blowfish-cfb"
  | tripledesCbc => "tripledes-cbc"
  | desEcbPkcs7 => "des-ecb-pkcs7"
  | desCbcPkcs7 => "des-cbc-pkcs7"

def algorithm : Feature → Algorithm
  | sha1 => .hash .sha1
  | md4 => .hash .md4
  | md5 => .hash .md5
  | ripemd160 => .hash .ripemd160
  | sha256 => .hash .sha256
  | sha384 => .hash .sha384
  | sha512 => .hash .sha512
  | aes128Ecb => .cipher .aes128 .ecb false
  | aes128Cfb => .cipher .aes128 .cfb false
  | aes128Cbc => .cipher .aes128 .cbc false
  | aes192Ecb => .cipher .aes192 .ecb false
  | aes192Cfb => .cipher .aes192 .cfb false
  | aes192Cbc => .cipher .aes192 .cbc false
  | aes256Ecb => .cipher .aes256 .ecb false
  | aes256Cfb => .cipher .aes256 .cfb false
  | aes256Cbc => .cipher .aes256 .cbc false
  | blowfishEcb => .cipher .blowfish .ecb false
  | tripledesEcb => .cipher .tripledes .ecb false
  | desEcb => .cipher .des .ecb false
  | desCbc => .cipher .des .cbc false
  | desCfb => .cipher .des .cfb false
  | pbkdf2Sha1 => .kdf .sha1
  | aes128CbcPkcs7 => .cipher .aes128 .cbc true
  | aes192CbcPkcs7 => .cipher .aes192 .cbc true
  | aes256CbcPkcs7 => .cipher .aes256 .cbc true
  | blowfishCbc => .cipher .blowfish .cbc false
  | blowfishCbcPkcs7 => .cipher .blowfish .cbc true
  | blowfishCfb => .cipher .blowfish .cfb false
  | tripledesCbc => .cipher .tripledes .cbc false
  | desEcbPkcs7 => .cipher .des .ecb true
  | desCbcPkcs7 => .cipher .des .cbc true

def category (feature : Feature) : Category := feature.algorithm.category

/-- The place of a feature in the list. -/
def index (feature : Feature) : Nat := all.idxOf feature

def names : List String := all.map name

def ofName? (name : String) : Option Feature := all.find? fun feature ↦ feature.name == name

/-- The feature of a name, or the name as unsupported. -/
def parse (name : String) : Except Error Feature :=
  match ofName? name with
  | some feature => .ok feature
  | none => .error (.unsupportedAlgorithm name)

end Feature

end StreamCrypto
