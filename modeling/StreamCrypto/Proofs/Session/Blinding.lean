import StreamCrypto.Proofs.Session.Alike

/-!
# Commands that differ in secret bytes only

Commands are alike if they do the same with keys, initialization vectors, data, secrets and salts of
equal lengths. A reply counts by what it shows once only the lengths of byte strings are left. On
alike sessions all alike commands but those for ciphers log the same, are refused alike, reply alike
and leave alike sessions. To compare two secrets tells about them what no length does, so that is
left out.
-/

namespace StreamCrypto

/-! ## Replies -/

/-- As many zeros as there are bytes. -/
def hidden (data : Bytes) : Bytes := List.replicate data.length 0

theorem hidden_eq_of_length_eq {first second : Bytes} (h : first.length = second.length) :
    hidden first = hidden second := by
  rw [hidden, hidden, h]

theorem length_hidden (data : Bytes) : (hidden data).length = data.length :=
  List.length_replicate

theorem description_eq_of_length_eq {key key' : Bytes} (hkey : key.length = key'.length) :
    SymmetricKey.description key = SymmetricKey.description key' := by
  unfold SymmetricKey.description
  rw [hkey]

theorem ivDescription_eq_of_length_eq {iv iv' : Bytes} (hiv : iv.length = iv'.length) :
    ivDescription iv = ivDescription iv' := by
  unfold ivDescription
  rw [hiv]

def CipherDetails.hidden (details : CipherDetails) : CipherDetails :=
  { details with bound := details.bound.map fun bound ↦ (StreamCrypto.hidden bound.1,
      StreamCrypto.hidden bound.2) }

namespace Reply

/-- The reply with nothing left of secret bytes but how many there are. -/
def hidden : Reply → Reply
  | bytes value => bytes (StreamCrypto.hidden value)
  | derived value isPooled => derived (StreamCrypto.hidden value) isPooled
  | key value => key (StreamCrypto.hidden value)
  | array value => array { value with bytes := StreamCrypto.hidden value.bytes }
  | cipher typeName blockSize keyLength details =>
    cipher typeName blockSize keyLength details.hidden
  | reply => reply

/-- The descriptions of the keys in the reply. -/
def texts : Reply → List String
  | derived value _ | key value => [SymmetricKey.description value]
  | _ => []

theorem texts_hidden (reply : Reply) : reply.hidden.texts = reply.texts := by
  cases reply with
  | derived value pooled =>
    simp only [hidden, texts, SymmetricKey.description, length_hidden]
  | key value => simp only [hidden, texts, SymmetricKey.description, length_hidden]
  | _ => rfl

/-- Replies that name keys alike, and that are the same once secret bytes are hidden, unless their
lengths are not to be compared. -/
structure Alike (compared : Prop) (first second : Reply) : Prop where
  texts : first.texts = second.texts
  hidden : compared → first.hidden = second.hidden

variable {compared : Prop}

theorem alike_of_hidden_eq {first second : Reply} (h : first.hidden = second.hidden) :
    Alike compared first second where
  texts := by rw [← texts_hidden, h, texts_hidden]
  hidden _ := h

theorem Alike.refl (reply : Reply) : Alike compared reply reply := ⟨rfl, fun _ ↦ rfl⟩

end Reply

/-! ## Commands -/

/-- Keys that are written out with one length, or that are in the same slot. -/
inductive KeySource.Alike : KeySource → KeySource → Prop
  | bytes {key key' : Bytes} (hkey : key.length = key'.length) : Alike (.bytes key) (.bytes key')
  | slot (id : String) : Alike (.slot id) (.slot id)

/-- Requests with a secret and a salt of equal lengths. -/
structure KeyRequest.SameLengths (first second : KeyRequest) : Prop extends first.Alike second where
  secret : first.secret.length = second.secret.length
  salt : first.salt.length = second.salt.length

inductive HashCommand.Alike : HashCommand → HashCommand → Prop
  | new (id : String) (feature : Feature) (algorithm : HashAlgorithm) :
      Alike (.new id feature algorithm) (.new id feature algorithm)
  | update (id : String) {data data' : Bytes} (hdata : data.length = data'.length) :
      Alike (.update id data) (.update id data')
  | finalize (id : String) : Alike (.finalize id) (.finalize id)
  | clear (id : String) : Alike (.clear id) (.clear id)
  | clone (id target : String) : Alike (.clone id target) (.clone id target)
  | info (id : String) : Alike (.info id) (.info id)

inductive CipherCommand.Alike : CipherCommand → CipherCommand → Prop
  | new (id : String) (feature : Feature) (algorithm : CipherAlgorithm) (mode : Mode)
      (padding : Bool) (policy : Option FailurePolicy) :
      Alike (.new id feature algorithm mode padding policy)
        (.new id feature algorithm mode padding policy)
  | setup (id : String) (direction : Direction) {key key' : KeySource} {iv iv' : Bytes}
      (hkey : key.Alike key') (hiv : iv.length = iv'.length) :
      Alike (.setup id direction key iv) (.setup id direction key' iv')
  | update (id : String) {data data' : Bytes} (hdata : data.length = data'.length) :
      Alike (.update id data) (.update id data')
  | finalize (id : String) : Alike (.finalize id) (.finalize id)
  | info (id : String) : Alike (.info id) (.info id)

inductive KdfCommand.Alike : KdfCommand → KdfCommand → Prop
  | new (id : String) (feature : Feature) (hash : HashAlgorithm) (fallback : KdfFallback) :
      Alike (.new id feature hash fallback) (.new id feature hash fallback)
  | info (id : String) : Alike (.info id) (.info id)
  | makeKey (id : String) {request request' : KeyRequest}
      (hrequest : request.SameLengths request') (target : Option String) :
      Alike (.makeKey id request target) (.makeKey id request' target)
  | tryMakeKey (id : String) {request request' : KeyRequest}
      (hrequest : request.SameLengths request') (target : Option String) :
      Alike (.tryMakeKey id request target) (.tryMakeKey id request' target)

inductive KeyCommand.Alike : KeyCommand → KeyCommand → Prop
  | ofBytes (id : String) {data data' : Bytes} (hdata : data.length = data'.length) :
      Alike (.ofBytes id data) (.ofBytes id data')
  | info (id : String) : Alike (.info id) (.info id)
  | clone (id target : String) : Alike (.clone id target) (.clone id target)
  | unwrap (id target : String) : Alike (.unwrap id target) (.unwrap id target)
  | wrap (id target : String) : Alike (.wrap id target) (.wrap id target)

inductive ArrayCommand.Alike : ArrayCommand → ArrayCommand → Prop
  | ofBytes (id : String) {data data' : Bytes} (hdata : data.length = data'.length) :
      Alike (.ofBytes id data) (.ofBytes id data')
  | zeroed (id : String) (length : Nat) : Alike (.zeroed id length) (.zeroed id length)
  | tryZeroed (id : String) (length : Nat) : Alike (.tryZeroed id length) (.tryZeroed id length)
  | empty (id : String) : Alike (.empty id) (.empty id)
  | leased (id : String) (length : Nat) (lease : String) :
      Alike (.leased id length lease) (.leased id length lease)
  | set (id : String) (index : Nat) (value value' : UInt8) :
      Alike (.set id index value) (.set id index value')
  | truncate (id : String) (length : Nat) : Alike (.truncate id length) (.truncate id length)
  | clone (id target : String) : Alike (.clone id target) (.clone id target)
  | info (id : String) : Alike (.info id) (.info id)

/-- Commands that differ in secret bytes only, and do not compare secrets. -/
inductive Command.Alike : Command → Command → Prop
  | engine (command : EngineCommand) : Alike (.engine command) (.engine command)
  | provider (command : ProviderCommand) : Alike (.provider command) (.provider command)
  | hash {first second : HashCommand} (h : first.Alike second) : Alike (.hash first) (.hash second)
  | cipher {first second : CipherCommand} (h : first.Alike second) :
      Alike (.cipher first) (.cipher second)
  | kdf {first second : KdfCommand} (h : first.Alike second) : Alike (.kdf first) (.kdf second)
  | key {first second : KeyCommand} (h : first.Alike second) : Alike (.key first) (.key second)
  | array {first second : ArrayCommand} (h : first.Alike second) :
      Alike (.array first) (.array second)
  | pool (command : PoolCommand) : Alike (.pool command) (.pool command)
  | drop (id : String) : Alike (.drop id) (.drop id)

namespace Session

open Procedure

/-- Alike replies whose lengths are compared. -/
abbrev Answers (first second : Procedure Reply) : Prop := Mirrors (Reply.Alike True) first second

theorem answers_pure (reply : Reply) : Answers (pure reply) (pure reply) :=
  mirrors_pure (.refl reply)

/-! ## Engine, providers and pools -/

theorem mirrors_runEngine (command : EngineCommand) :
    Answers (runEngine command) (runEngine command) := by
  cases command with
  | state =>
    refine mirrors_bind mirrors_get fun session other halike ↦ ?_
    rw [← halike.engine]
    exact answers_pure _
  | start config =>
    refine mirrors_bind (mirrors_onEngine_self _) fun done _ hdone ↦ ?_
    subst hdone
    exact answers_pure _
  | setPageLocking enabled =>
    have hchange (session other : Session) (halike : session.Alike other) :
        Session.Alike { session with engine := session.engine.setPageLocking enabled }
          { other with engine := other.engine.setPageLocking enabled } := by
      rw [← halike.engine]
      exact halike.withEngine _
    refine mirrors_bind (mirrors_modify hchange) fun _ _ _ ↦ ?_
    refine mirrors_bind mirrors_get fun session other halike ↦ ?_
    rw [← halike.engine]
    exact answers_pure _
  | setRefusals refusals =>
    have hchange (session other : Session) (halike : session.Alike other) :
        Session.Alike { session with engine := session.engine.setRefusals refusals }
          { other with engine := other.engine.setRefusals refusals } := by
      rw [← halike.engine]
      exact halike.withEngine _
    exact mirrors_bind (mirrors_modify hchange) fun _ _ _ ↦ answers_pure _

/-- What a provider makes holds no secrets yet. -/
theorem alike_newContext (provider : Provider) (feature : Feature) :
    (Object.ofContext (provider.newContext feature)).Alike
      (.ofContext (provider.newContext feature)) := by
  unfold Provider.newContext
  cases feature.algorithm with
  | hash algorithm => exact .hash ⟨rfl, rfl⟩
  | cipher algorithm mode padding => exact .cipher (CipherContext.alike_new _ _ _ _ _)
  | kdf algorithm => exact .kdf _ _

theorem createContext_made (provider : Provider) (name : String) (engine : Engine) :
    (provider.createContext name engine).value.1 =
      (Feature.ofName? name).map provider.newContext := by
  unfold Provider.createContext
  cases Feature.ofName? name with
  | none => rfl
  | some feature =>
    have hmade : (provider.contextFor feature engine).value.1 = provider.newContext feature := by
      unfold Provider.contextFor
      split
      · rfl
      · rfl
    exact congrArg some hmade

theorem createKind_made {α : Type} (select : Context → Option α) (provider : Provider)
    (name : String) (engine : Engine) :
    (provider.createKind select name engine).value.1 =
      match ((Feature.ofName? name).map provider.newContext).bind select with
      | some chosen => .ok chosen
      | none => .error (.unsupportedAlgorithm name) := by
  rw [← createContext_made provider name engine]
  unfold Provider.createKind
  rw [Logged.value_bind]
  generalize (provider.createContext name engine).value = outcome
  obtain ⟨context, after⟩ := outcome
  change (match context.bind select with
    | some chosen => (pure (.ok chosen, after) : Logged (Except Error α × Engine))
    | none => pure (.error (.unsupportedAlgorithm name), after)).value.1 = _
  cases context.bind select with
  | none => rfl
  | some chosen => rfl

theorem mirrors_createKind {α : Type} {select : Context → Option α} {wrap : α → Object}
    (hselect : ∀ context chosen, select context = some chosen →
      wrap chosen = Object.ofContext context) (typeName : α → String)
    (provider id name : String) :
    Answers (createKind (Provider.createKind select) wrap typeName provider id name)
      (createKind (Provider.createKind select) wrap typeName provider id name) := by
  refine mirrors_bind (mirrors_findProvider provider) fun owner _ howner ↦ ?_
  subst howner
  have hmade (engine : Engine) : ResultsAlike (fun one other ↦ one = other ∧
      (wrap one).Alike (wrap other)) (owner.createKind select name engine).value.1
      (owner.createKind select name engine).value.1 := by
    rw [createKind_made]
    cases Feature.ofName? name with
    | none => exact rfl
    | some feature =>
      rw [Option.map_some, Option.bind_some]
      cases hchosen : select (owner.newContext feature) with
      | none => exact rfl
      | some chosen =>
        refine ⟨rfl, ?_⟩
        rw [hselect _ chosen hchosen]
        exact alike_newContext owner feature
  refine mirrors_bind (mirrors_onEngine fun engine ↦ ⟨rfl, hmade engine, rfl⟩)
    fun result result' hresults ↦ ?_
  refine mirrors_bind (mirrors_settleAs hresults) fun context _ hcontext ↦ ?_
  obtain ⟨hsame, halike⟩ := hcontext
  subst hsame
  exact mirrors_bind (mirrors_keep id halike) fun _ _ _ ↦ answers_pure _

theorem mirrors_runProvider (command : ProviderCommand) :
    Answers (runProvider command) (runProvider command) := by
  cases command with
  | new id config => exact mirrors_bind (mirrors_keep id (.provider _)) fun _ _ _ ↦ answers_pure _
  | start id =>
    refine mirrors_bind (mirrors_findProvider id) fun owner _ howner ↦ ?_
    subst howner
    exact mirrors_bind (mirrors_onEngine_self _) fun _ _ _ ↦ answers_pure _
  | features id => exact mirrors_bind (mirrors_findProvider id) fun _ _ _ ↦ answers_pure _
  | create provider id name =>
    refine mirrors_bind (mirrors_findProvider provider) fun owner _ howner ↦ ?_
    subst howner
    have hmade (engine : Engine) : Option.Rel (fun one other ↦ one = other ∧
        (Object.ofContext one).Alike (.ofContext other))
        (owner.createContext name engine).value.1 (owner.createContext name engine).value.1 := by
      rw [createContext_made]
      cases Feature.ofName? name with
      | none => exact .none
      | some feature => exact .some ⟨rfl, alike_newContext owner feature⟩
    refine mirrors_bind (mirrors_onEngine fun engine ↦ ⟨rfl, hmade engine, rfl⟩)
      fun made made' hmades ↦ ?_
    cases hmades with
    | none => exact answers_pure _
    | some hcontext =>
      obtain ⟨hsame, halike⟩ := hcontext
      subst hsame
      exact mirrors_bind (mirrors_keep id halike) fun _ _ _ ↦ answers_pure _
  | createHash provider id name =>
    refine mirrors_createKind (fun context chosen hchosen ↦ ?_) _ provider id name
    cases context with
    | hash context => cases hchosen; rfl
    | cipher context => cases hchosen
    | kdf context => cases hchosen
  | createCipher provider id name =>
    refine mirrors_createKind (fun context chosen hchosen ↦ ?_) _ provider id name
    cases context with
    | hash context => cases hchosen
    | cipher context => cases hchosen; rfl
    | kdf context => cases hchosen
  | createKdf provider id name =>
    refine mirrors_createKind (fun context chosen hchosen ↦ ?_) _ provider id name
    cases context with
    | hash context => cases hchosen
    | cipher context => cases hchosen
    | kdf context => cases hchosen; rfl

/-! ## Arrays and keys -/

theorem array_alike {array array' : SecureArray} (halike : array.Alike array') :
    Reply.Alike True (.array array) (.array array') := by
  refine Reply.alike_of_hidden_eq ?_
  simp only [Reply.hidden, hidden_eq_of_length_eq halike.length, halike.lease, halike.locked]

theorem mirrors_keepArray (id : String) {array array' : SecureArray}
    (halike : array.Alike array') : Answers (keepArray id array) (keepArray id array') :=
  mirrors_bind (mirrors_keep id (.array halike)) fun _ _ _ ↦ mirrors_pure (array_alike halike)

theorem mirrors_changeArray (id : String)
    {change change' : SecureArray → Except Fault SecureArray}
    (h : ∀ array array', array.Alike array' →
      ResultsAlike SecureArray.Alike (change array) (change' array')) :
    Answers (changeArray id change) (changeArray id change') := by
  refine mirrors_bind (mirrors_find asArray_alike id) fun array array' halike ↦ ?_
  refine mirrors_bind (mirrors_settleAs (h array array' halike)) fun changed changed' hnext ↦ ?_
  refine mirrors_bind (mirrors_replace id (.array hnext)) fun _ _ _ ↦ ?_
  exact mirrors_pure (array_alike hnext)

theorem set_alike {array array' : SecureArray} (halike : array.Alike array') (index : Nat)
    (value value' : UInt8) :
    ResultsAlike SecureArray.Alike (array.set index value) (array'.set index value') := by
  unfold SecureArray.set
  rw [halike.length]
  split
  · refine ⟨?_, halike.lease, halike.locked⟩
    simp only [List.length_set, halike.length]
  · rfl

theorem mirrors_runArray {command command' : ArrayCommand} (halike : command.Alike command') :
    Answers (runArray command) (runArray command') := by
  cases halike with
  | ofBytes id hdata =>
    exact mirrors_bind (mirrors_making fun locking ↦ SecureArray.ofBytes_agrees hdata locking)
      fun _ _ harrays ↦ mirrors_keepArray id harrays
  | zeroed id length =>
    refine mirrors_bind (mirrors_making_self _) fun result _ hresult ↦ ?_
    subst hresult
    refine mirrors_bind (mirrors_settleAs_self _ _) fun array _ harray ↦ ?_
    subst harray
    exact mirrors_keepArray id (.refl array)
  | tryZeroed id length =>
    refine mirrors_bind (mirrors_making_self _) fun result _ hresult ↦ ?_
    subst hresult
    refine mirrors_bind (mirrors_settleAs_self _ _) fun array _ harray ↦ ?_
    subst harray
    exact mirrors_keepArray id (.refl array)
  | empty id => exact mirrors_keepArray id (.refl _)
  | leased id length lease =>
    refine mirrors_bind (mirrors_take asLease_alike lease) fun moved _ hmoved ↦ ?_
    subst hmoved
    refine mirrors_bind (mirrors_onMemory_self _) fun result _ hresult ↦ ?_
    subst hresult
    refine mirrors_bind (mirrors_settleAs_self _ _) fun array _ harray ↦ ?_
    subst harray
    exact mirrors_keepArray id (.refl array)
  | set id index value value' =>
    exact mirrors_changeArray id fun _ _ harrays ↦ set_alike harrays index value value'
  | truncate id length =>
    refine mirrors_changeArray id fun array array' harrays ↦ ⟨?_, harrays.lease, harrays.locked⟩
    simp only [SecureArray.truncate, List.length_take, harrays.length]
  | clone id target =>
    refine mirrors_bind (mirrors_find asArray_alike id) fun array array' harrays ↦ ?_
    exact mirrors_bind (mirrors_making (SecureArray.ofBytes_agrees harrays.length))
      fun _ _ hcopies ↦ mirrors_keepArray target hcopies
  | info id =>
    exact mirrors_bind (mirrors_find asArray_alike id) fun _ _ harrays ↦
      mirrors_pure (array_alike harrays)

theorem mirrors_runKey {command command' : KeyCommand} (halike : command.Alike command') :
    Answers (runKey command) (runKey command') := by
  cases halike with
  | ofBytes id hdata =>
    refine mirrors_bind (mirrors_making (SymmetricKey.ofBytes_agrees hdata))
      fun key key' hkeys ↦ ?_
    refine mirrors_bind (mirrors_keep id (.key hkeys)) fun _ _ _ ↦ ?_
    rw [description_eq_of_length_eq hdata]
    exact answers_pure _
  | info id =>
    refine mirrors_bind (mirrors_find asKey_alike id) fun key key' hkeys ↦ ?_
    refine mirrors_pure (Reply.alike_of_hidden_eq ?_)
    simp only [Reply.hidden, hidden_eq_of_length_eq (SecureArray.Alike.length hkeys)]
  | clone id target =>
    refine mirrors_bind (mirrors_find asKey_alike id) fun key key' hkeys ↦ ?_
    refine mirrors_bind (mirrors_making (SymmetricKey.ofBytes_agrees
      (SecureArray.Alike.length hkeys))) fun copy copy' hcopies ↦ ?_
    have hpooled : copy.material.isPooled = copy'.material.isPooled := by
      rw [SecureArray.isPooled, SecureArray.isPooled, SecureArray.Alike.lease hcopies]
    rw [hpooled]
    exact mirrors_bind (mirrors_keep target (.key hcopies)) fun _ _ _ ↦ answers_pure _
  | unwrap id target =>
    exact mirrors_bind (mirrors_take asKey_alike id) fun _ _ hkeys ↦ mirrors_keepArray target hkeys
  | wrap id target =>
    refine mirrors_bind (mirrors_take asArray_alike id) fun array array' harrays ↦ ?_
    refine mirrors_bind (mirrors_keep target (.key harrays)) fun _ _ _ ↦ ?_
    rw [description_eq_of_length_eq harrays.length]
    exact answers_pure _

theorem mirrors_runPool (command : PoolCommand) : Answers (runPool command) (runPool command) := by
  cases command with
  | new id capacity =>
    refine mirrors_bind (mirrors_onMemory_self _) fun pool _ hpool ↦ ?_
    subst hpool
    refine mirrors_bind (mirrors_keep id (.pool pool)) fun _ _ _ ↦ ?_
    refine mirrors_bind mirrors_get fun session other halike ↦ ?_
    rw [← halike.engine]
    exact answers_pure _
  | clone source target =>
    refine mirrors_bind (mirrors_findPool source) fun pool _ hpool ↦ ?_
    subst hpool
    exact mirrors_bind (mirrors_keep target (.pool pool)) fun _ _ _ ↦ answers_pure _
  | reserve source target size =>
    refine mirrors_bind (mirrors_findPool source) fun pool _ hpool ↦ ?_
    subst hpool
    refine mirrors_bind (mirrors_onMemory_self _) fun result _ hresult ↦ ?_
    subst hresult
    refine mirrors_bind (mirrors_settleAs_self _ _) fun lease _ hlease ↦ ?_
    subst hlease
    exact mirrors_bind (mirrors_keep target (.lease lease)) fun _ _ _ ↦ answers_pure _
  | allocate source target size =>
    refine mirrors_bind (mirrors_findPool source) fun pool _ hpool ↦ ?_
    subst hpool
    refine mirrors_bind (mirrors_onMemory_self _) fun result _ hresult ↦ ?_
    subst hresult
    refine mirrors_bind (mirrors_settle_self _) fun array _ harray ↦ ?_
    subst harray
    exact mirrors_keepArray target (.refl array)
  | info pool => exact answers_pure _

/-! ## Digests and derived keys -/

theorem mirrors_runHash {command command' : HashCommand} (halike : command.Alike command') :
    Answers (runHash command) (runHash command') := by
  cases halike with
  | new id feature algorithm =>
    exact mirrors_bind (mirrors_keep id (.hash ⟨rfl, rfl⟩)) fun _ _ _ ↦ answers_pure _
  | update id hdata =>
    refine mirrors_bind (mirrors_findHash id) fun context context' hcontexts ↦ ?_
    exact mirrors_bind (mirrors_replace id (.hash ⟨hcontexts.feature, hcontexts.algorithm⟩))
      fun _ _ _ ↦ answers_pure _
  | finalize id =>
    refine mirrors_bind (mirrors_findHash id) fun context context' hcontexts ↦ ?_
    refine mirrors_bind (mirrors_making hcontexts.finalizeWith_agrees) fun one other hdigests ↦ ?_
    obtain ⟨hdigest, hafter⟩ := hdigests
    refine mirrors_bind (mirrors_replace id (.hash hafter)) fun _ _ _ ↦ ?_
    refine mirrors_pure (Reply.alike_of_hidden_eq ?_)
    simp only [Reply.hidden, hidden_eq_of_length_eq hdigest.length]
  | clear id =>
    refine mirrors_bind (mirrors_findHash id) fun context context' hcontexts ↦ ?_
    exact mirrors_bind (mirrors_replace id (.hash ⟨hcontexts.feature, hcontexts.algorithm⟩))
      fun _ _ _ ↦ answers_pure _
  | clone id target =>
    refine mirrors_bind (mirrors_findHash id) fun context context' hcontexts ↦ ?_
    exact mirrors_bind (mirrors_keep target (.hash hcontexts)) fun _ _ _ ↦ answers_pure _
  | info id =>
    refine mirrors_bind (mirrors_findHash id) fun context context' hcontexts ↦ ?_
    rw [hcontexts.feature, hcontexts.algorithm]
    exact answers_pure _

theorem mirrors_keepKey (target : Option String) {key key' : SymmetricKey}
    (hkeys : key.Alike key') : Answers (keepKey target key) (keepKey target key') := by
  have hreply : Reply.Alike True (.derived key.material.bytes key.material.isPooled)
      (.derived key'.material.bytes key'.material.isPooled) := by
    refine Reply.alike_of_hidden_eq ?_
    simp only [Reply.hidden, SecureArray.isPooled, SecureArray.Alike.lease hkeys,
      hidden_eq_of_length_eq (SecureArray.Alike.length hkeys)]
  cases target with
  | none =>
    refine mirrors_bind (mirrors_modify fun session other hsessions ↦ ?_) fun _ _ _ ↦
      mirrors_pure hreply
    exact hsessions.discard (.some (.key hkeys))
  | some id => exact mirrors_bind (mirrors_keep id (.key hkeys)) fun _ _ _ ↦ mirrors_pure hreply

theorem mirrors_derive (target : Option String) {salt salt' : Bytes}
    (hsalt : salt.length = salt'.length)
    {make make' : Engine → Logged (Except Failure SymmetricKey × Engine)}
    (h : ∀ engine, Logged.Agrees KdfContext.KeysAlike (make engine) (make' engine)) :
    Answers
      (do
        making fun locking ↦ (locking.skip 1).lockEach [salt.length]
        keepKey target (← settle (← onEngine make)))
      (do
        making fun locking ↦ (locking.skip 1).lockEach [salt'.length]
        keepKey target (← settle (← onEngine make'))) := by
  rw [hsalt]
  refine mirrors_bind (mirrors_making_self _) fun _ _ _ ↦ ?_
  refine mirrors_bind (mirrors_onEngine h) fun result result' hresults ↦ ?_
  exact mirrors_bind (mirrors_settle hresults) fun _ _ hkeys ↦ mirrors_keepKey target hkeys

theorem mirrors_runKdf {command command' : KdfCommand} (halike : command.Alike command') :
    Answers (runKdf command) (runKdf command') := by
  cases halike with
  | new id feature hash fallback =>
    exact mirrors_bind (mirrors_keep id (.kdf _ _)) fun _ _ _ ↦ answers_pure _
  | info id =>
    refine mirrors_bind (mirrors_findKdf id) fun found _ hfound ↦ ?_
    subst hfound
    exact answers_pure _
  | makeKey id hrequest target =>
    refine mirrors_bind (mirrors_findKdf id) fun found _ hfound ↦ ?_
    subst hfound
    obtain ⟨context, fallback⟩ := found
    cases fallback with
    | outsidePool =>
      exact mirrors_derive target hrequest.salt (context.makeKey_agrees hrequest.toAlike)
    | emptyKey =>
      exact mirrors_derive target hrequest.salt (context.makeKeyOrEmpty_agrees hrequest.toAlike)
  | tryMakeKey id hrequest target =>
    refine mirrors_bind (mirrors_findKdf id) fun found _ hfound ↦ ?_
    subst hfound
    exact mirrors_derive target hrequest.salt (found.1.tryMakeKey_agrees hrequest.toAlike)

end Session

end StreamCrypto
