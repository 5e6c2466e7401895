/-!
# Configuration

What a provider is configured with: the budget of secure memory, whether memory pages are
locked, what happens to failures on the data path, and the engine version it requires.
-/

namespace StreamCrypto

/-- What a cipher context does when data cannot be transformed. -/
inductive FailurePolicy where
  /-- The failure is returned. -/
  | strict
  /-- The failure is logged, and the output is empty. -/
  | logAndContinue
  deriving DecidableEq, Repr

def FailurePolicy.name : FailurePolicy → String
  | strict => "strict"
  | logAndContinue => "log_and_continue"

def defaultPoolBytes : Nat := 16384

def minimumEngineVersion : String := "0.1.0"

structure Config where
  poolBytes : Nat := defaultPoolBytes
  lockMemory : Bool := true
  policy : FailurePolicy := .strict
  requiredVersion : String := minimumEngineVersion
  deriving DecidableEq, Repr

namespace Config

def standard : Config := {}

def lenient : Config := { policy := .logAndContinue }

def withRequiredVersion (config : Config) (version : String) : Config :=
  { config with requiredVersion := version }

end Config

end StreamCrypto
