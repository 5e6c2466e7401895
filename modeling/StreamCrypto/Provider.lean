import StreamCrypto.Cipher.Context
import StreamCrypto.Digest.Context
import StreamCrypto.Kdf.Context

/-!
# Providers

A provider makes contexts for the features that are asked for by name. The first context
made by any provider starts the engine with the configuration of that provider.
-/

namespace StreamCrypto

inductive Context where
  | hash (context : DigestContext)
  | cipher (context : CipherContext)
  | kdf (context : KdfContext)

namespace Context

def category : Context → Category
  | hash _ => .hash
  | cipher _ => .cipher
  | kdf _ => .kdf

def feature : Context → Feature
  | hash context => context.feature
  | cipher context => context.feature
  | kdf context => context.feature

def description (context : Context) : String :=
  "Context(" ++ context.category.label ++ ", \"" ++ context.feature.name ++ "\")"

end Context

def providerName : String := "tesseract-provider"

structure Provider where
  config : Config := {}
  deriving DecidableEq, Repr

namespace Provider

/-- Starts the engine if that has not been done. -/
def startEngine (provider : Provider) (engine : Engine) : Logged Engine := do
  let (_, after) ← engine.start provider.config
  pure after

/-- The context for the parameters of a feature. -/
def newContext (provider : Provider) (feature : Feature) : Context :=
  match feature.algorithm with
  | .hash algorithm => .hash (.new feature algorithm)
  | .cipher algorithm mode padding =>
    .cipher ((CipherContext.new feature algorithm mode padding).withPolicy provider.config.policy)
  | .kdf algorithm => .kdf (.new feature algorithm)

def contextFor (provider : Provider) (feature : Feature) (engine : Engine) :
    Logged (Context × Engine) := do
  let ready ← if engine.initialized = true then pure engine else provider.startEngine engine
  pure (provider.newContext feature, ready)

/-- A context for the feature of a name, if there is one. An unknown name leaves the
engine as it is. -/
def createContext (provider : Provider) (name : String) (engine : Engine) :
    Logged (Option Context × Engine) :=
  match Feature.ofName? name with
  | some feature => do
    let (context, after) ← provider.contextFor feature engine
    pure (some context, after)
  | none => do
    Logged.emit (.unsupportedFeature name)
    pure (none, engine)

/-- A context of one kind. The engine is started even if the kind turns out wrong. -/
def createKind {α : Type} (select : Context → Option α) (provider : Provider) (name : String)
    (engine : Engine) : Logged (Except Error α × Engine) := do
  let (context, after) ← provider.createContext name engine
  match context.bind select with
  | some chosen => pure (.ok chosen, after)
  | none => pure (.error (.unsupportedAlgorithm name), after)

def createHash : Provider → String → Engine → Logged (Except Error DigestContext × Engine) :=
  createKind fun
    | .hash context => some context
    | _ => none

def createCipher : Provider → String → Engine → Logged (Except Error CipherContext × Engine) :=
  createKind fun
    | .cipher context => some context
    | _ => none

def createKdf : Provider → String → Engine → Logged (Except Error KdfContext × Engine) :=
  createKind fun
    | .kdf context => some context
    | _ => none

end Provider

end StreamCrypto
