import StreamCrypto.Proofs.Naming
import StreamCrypto.Proofs.Cipher.Rekeying
import StreamCrypto.Provider

/-!
# Contexts by name

A provider that is asked for a name answers in one of two ways, however it is asked. Either the name
is known, and there is one context for it (`Supports`): the one for the parameters that the name
spells, under the failure policy of the provider, and the helper for its category returns it. Or the
name is not known, and it is returned as unsupported (`Lacks`). A context notes the name that it was
made for, and puts it in the log, but the name has no part in any of its answers
(`sameAnswers_ofParameters`).
-/

namespace StreamCrypto

/-! ## Answers -/

namespace DigestContext

inductive Call where
  | update (data : Bytes)
  | clear
  | finalize

/-- The digest, if one is asked for, and the context after the call. -/
def turn (context : DigestContext) : Call → Option Bytes × DigestContext
  | .update data => (none, context.update data)
  | .clear => (none, context.clear)
  | .finalize => (some context.finalize.1, context.finalize.2)

/-- What a context answers to calls one after the other. -/
def answers (context : DigestContext) : List Call → List (Option Bytes)
  | [] => []
  | call :: calls => (context.turn call).1 :: (context.turn call).2.answers calls

def relabel (context : DigestContext) (feature : Feature) : DigestContext :=
  { context with feature }

theorem turn_relabel (context : DigestContext) (feature : Feature) (call : Call) :
    (context.relabel feature).turn call =
      ((context.turn call).1, (context.turn call).2.relabel feature) := by
  cases call <;> rfl

theorem answers_relabel (context : DigestContext) (feature : Feature) (calls : List Call) :
    (context.relabel feature).answers calls = context.answers calls := by
  induction calls generalizing context with
  | nil => rfl
  | cons call calls ih => rw [answers, turn_relabel, ih, answers]

end DigestContext

namespace KdfContext

def relabel (context : KdfContext) (feature : Feature) : KdfContext := { context with feature }

variable (context : KdfContext) (feature : Feature) (request : KeyRequest) (engine : Engine)

theorem fillOrDrop_relabel (buffer : SecureArray) :
    (context.relabel feature).fillOrDrop request buffer engine =
      context.fillOrDrop request buffer engine :=
  rfl

theorem value_tryMakeKey_relabel :
    ((context.relabel feature).tryMakeKey request engine).value =
      (context.tryMakeKey request engine).value := by
  have hcheck : (context.relabel feature).check request = context.check request := rfl
  unfold tryMakeKey
  rw [hcheck]
  cases context.check request with
  | error error => rfl
  | ok =>
    simp only [Logged.value_bind, fillOrDrop_relabel]
    generalize (engine.outputBuffer request.length).value = outcome
    obtain ⟨buffer, charged⟩ := outcome
    cases buffer with
    | error failure => rfl
    | ok buffer =>
      dsimp only
      generalize context.fillOrDrop request buffer charged = filled
      obtain ⟨result, after⟩ := filled
      cases result <;> rfl

theorem value_fillOrGiveUp_relabel (buffer : SecureArray) :
    ((context.relabel feature).fillOrGiveUp request buffer engine).value =
      (context.fillOrGiveUp request buffer engine).value := by
  unfold fillOrGiveUp
  rw [fillOrDrop_relabel]
  generalize context.fillOrDrop request buffer engine = filled
  obtain ⟨result, after⟩ := filled
  cases result <;> rfl

theorem value_makeKeyOutsidePool_relabel :
    ((context.relabel feature).makeKeyOutsidePool request engine).value =
      (context.makeKeyOutsidePool request engine).value := by
  unfold makeKeyOutsidePool
  simp only [Logged.value_bind]
  cases (SecureArray.tryZeroed engine.memory.toLocking request.length).value with
  | ok buffer => exact value_fillOrGiveUp_relabel context feature request engine buffer
  | error cause => rfl

theorem value_makeKey_relabel :
    ((context.relabel feature).makeKey request engine).value =
      (context.makeKey request engine).value := by
  have hcheck : (context.relabel feature).check request = context.check request := rfl
  unfold makeKey
  rw [hcheck]
  cases context.check request with
  | error error => rfl
  | ok =>
    rw [Logged.value_bind, Logged.value_bind]
    generalize (engine.outputBuffer request.length).value = outcome
    obtain ⟨buffer, charged⟩ := outcome
    dsimp only
    split
    · exact value_fillOrGiveUp_relabel context feature request charged _
    · exact value_makeKeyOutsidePool_relabel context feature request charged
    · rfl
    · rfl

end KdfContext

namespace Context

/-- A context made with parameters, whatever it is called. -/
def ofParameters (label : Feature) (policy : FailurePolicy) : Algorithm → Context
  | .hash algorithm => hash (.new label algorithm)
  | .cipher algorithm mode padding =>
    cipher ((CipherContext.new label algorithm mode padding).withPolicy policy)
  | .kdf algorithm => kdf (.new label algorithm)

/-- No calls tell the contexts apart. Keys are derived from any engine that there is by then. -/
def SameAnswers : Context → Context → Prop
  | hash first, hash second =>
    first.algorithm.digestLength = second.algorithm.digestLength ∧
      ∀ calls, first.answers calls = second.answers calls
  | cipher first, cipher second =>
    first.algorithm = second.algorithm ∧
      ∀ calls, (first.turns calls).map CipherTurn.observation =
        (second.turns calls).map CipherTurn.observation
  | kdf first, kdf second =>
    first.hash = second.hash ∧ ∀ request engine,
      (first.makeKey request engine).value = (second.makeKey request engine).value ∧
        (first.tryMakeKey request engine).value = (second.tryMakeKey request engine).value
  | _, _ => False

/-- Only the parameters and the policy decide what a context answers. -/
theorem sameAnswers_ofParameters (first second : Feature) (policy : FailurePolicy)
    (algorithm : Algorithm) :
    (ofParameters first policy algorithm).SameAnswers (ofParameters second policy algorithm) := by
  cases algorithm with
  | hash algorithm =>
    exact ⟨rfl, fun calls ↦ DigestContext.answers_relabel (.new second algorithm) first calls⟩
  | cipher algorithm mode padding =>
    exact ⟨rfl, fun calls ↦ CipherContext.observations_relabel
      ((CipherContext.new second algorithm mode padding).withPolicy policy) first calls⟩
  | kdf algorithm =>
    exact ⟨rfl, fun request engine ↦
      ⟨KdfContext.value_makeKey_relabel (.new second algorithm) first request engine,
        KdfContext.value_tryMakeKey_relabel (.new second algorithm) first request engine⟩⟩

theorem category_ofParameters (label : Feature) (policy : FailurePolicy) (algorithm : Algorithm) :
    (ofParameters label policy algorithm).category = algorithm.category := by
  cases algorithm <;> rfl

theorem feature_ofParameters (label : Feature) (policy : FailurePolicy) (algorithm : Algorithm) :
    (ofParameters label policy algorithm).feature = label := by
  cases algorithm <;> rfl

end Context

/-! ## Ways of asking -/

namespace Provider

variable (provider : Provider) (name : String) (engine : Engine)

/-- What the helper for a category returns, as a context of any kind. -/
def created : Category → Except Error Context
  | .hash => (provider.createHash name engine).value.1.map .hash
  | .cipher => (provider.createCipher name engine).value.1.map .cipher
  | .kdf => (provider.createKdf name engine).value.1.map .kdf

theorem newContext_eq_ofParameters (feature : Feature) :
    provider.newContext feature =
      .ofParameters feature provider.config.policy feature.algorithm := by
  unfold newContext Context.ofParameters
  cases feature.algorithm <;> rfl

theorem context_contextFor (feature : Feature) :
    (provider.contextFor feature engine).value.1 = provider.newContext feature := by
  unfold contextFor
  by_cases hstarted : engine.initialized = true
  · rw [if_pos hstarted]
    rfl
  · rw [if_neg hstarted]
    rfl

theorem context_createContext :
    (provider.createContext name engine).value.1 =
      (Feature.ofName? name).map provider.newContext := by
  unfold createContext
  cases Feature.ofName? name with
  | none => rfl
  | some feature => exact congrArg some (context_contextFor provider engine feature)

theorem result_createKind {α : Type} (select : Context → Option α) :
    (createKind select provider name engine).value.1 =
      match (provider.createContext name engine).value.1.bind select with
      | some chosen => Except.ok chosen
      | none => .error (.unsupportedAlgorithm name) := by
  unfold createKind
  rw [Logged.value_bind]
  generalize (provider.createContext name engine).value = outcome
  obtain ⟨context, after⟩ := outcome
  dsimp only
  cases context.bind select <;> rfl

/-- A helper that selects the contexts of one category. -/
theorem map_createKind {α : Type} {select : Context → Option α} {wrap : α → Context}
    {category : Category}
    (hselect : ∀ context, (select context).map wrap =
      if category = context.category then some context else none) :
    (createKind select provider name engine).value.1.map wrap =
      match (provider.createContext name engine).value.1 with
      | some context =>
        if category = context.category then .ok context else .error (.unsupportedAlgorithm name)
      | none => .error (.unsupportedAlgorithm name) := by
  rw [result_createKind]
  cases (provider.createContext name engine).value.1 with
  | none => rfl
  | some context =>
    have hcontext := hselect context
    rw [Option.bind_some]
    by_cases hcategory : category = context.category
    · rw [if_pos hcategory] at hcontext
      obtain ⟨chosen, hchosen, hwrapped⟩ := Option.map_eq_some_iff.1 hcontext
      simp only [hchosen, if_pos hcategory, Except.map, hwrapped]
    · rw [if_neg hcategory] at hcontext
      simp only [Option.map_eq_none_iff.1 hcontext, if_neg hcategory, Except.map]

/-- A helper returns the context of a name if it is of its category. -/
theorem created_eq (category : Category) :
    provider.created name engine category =
      match (provider.createContext name engine).value.1 with
      | some context =>
        if category = context.category then .ok context else .error (.unsupportedAlgorithm name)
      | none => .error (.unsupportedAlgorithm name) := by
  cases category with
  | hash => exact map_createKind provider name engine fun context ↦ by cases context <;> rfl
  | cipher => exact map_createKind provider name engine fun context ↦ by cases context <;> rfl
  | kdf => exact map_createKind provider name engine fun context ↦ by cases context <;> rfl

/-- The provider makes one context for a name, which spells the parameters of its feature. -/
structure Supports (feature : Feature) (context : Context) : Prop where
  known : Feature.ofName? name = some feature
  parsed : Feature.parse name = .ok feature
  listed : Feature.names.count name = 1
  created : (provider.createContext name engine).value.1 = some context
  helped : ∀ category, provider.created name engine category =
    if category = feature.category then .ok context else .error (.unsupportedAlgorithm name)
  category : context.category = feature.category
  typeName : context.feature.name = name
  spelled : ∀ algorithm : Algorithm, algorithm.written = name ↔ algorithm = feature.algorithm
  unshared : ∀ other : Feature, other.algorithm = feature.algorithm → other = feature
  direct : context = .ofParameters feature provider.config.policy feature.algorithm
  /-- The name is no parameter. -/
  sameAnswers : ∀ label, context.SameAnswers
    (.ofParameters label provider.config.policy feature.algorithm)

/-- The provider makes nothing for a name, and returns the name as it is. -/
structure Lacks : Prop where
  unknown : Feature.ofName? name = none
  unparsed : Feature.parse name = .error (.unsupportedAlgorithm name)
  unlisted : name ∉ Feature.names
  created : (provider.createContext name engine).value.1 = none
  helped : ∀ category,
    provider.created name engine category = .error (.unsupportedAlgorithm name)

theorem supports_of_known {feature : Feature} (hknown : Feature.ofName? name = some feature) :
    provider.Supports name engine feature
      (.ofParameters feature provider.config.policy feature.algorithm) := by
  have hcreated : (provider.createContext name engine).value.1 =
      some (.ofParameters feature provider.config.policy feature.algorithm) := by
    rw [context_createContext, hknown, Option.map_some, newContext_eq_ofParameters]
  constructor
  · exact hknown
  · rw [Feature.parse, hknown]
  · exact Feature.count_names hknown
  · exact hcreated
  · intro category
    rw [created_eq, hcreated, Feature.category,
      ← Context.category_ofParameters feature provider.config.policy]
  · exact Context.category_ofParameters _ _ _
  · rw [Context.feature_ofParameters]
    exact Feature.ofName?_eq_some_iff.1 hknown
  · exact Feature.written_eq_iff hknown
  · exact fun other hshared ↦ Feature.algorithm_injective hshared
  · rfl
  · exact fun label ↦ Context.sameAnswers_ofParameters _ _ _ _

theorem lacks_of_unknown (hunknown : Feature.ofName? name = none) :
    provider.Lacks name engine := by
  have hcreated : (provider.createContext name engine).value.1 = none := by
    rw [context_createContext, hunknown, Option.map_none]
  constructor
  · exact hunknown
  · rw [Feature.parse, hunknown]
  · exact Feature.ofName?_eq_none_iff.1 hunknown
  · exact hcreated
  · intro category
    rw [created_eq, hcreated]

/-- All ways of asking a provider for a name agree. -/
theorem supports_or_lacks :
    (∃ feature context, provider.Supports name engine feature context) ∨
      provider.Lacks name engine := by
  cases hfound : Feature.ofName? name with
  | some feature => exact .inl ⟨feature, _, supports_of_known provider name engine hfound⟩
  | none => exact .inr (lacks_of_unknown provider name engine hfound)

end Provider

end StreamCrypto
