import StreamCrypto.Proofs.Session.Triple

/-!
# What commands leave of slots

A command writes to two slots at most: to one it puts something new in or empties (`fills?`), and to
one whose object it takes out or puts the next state of in its place (`reworks?`). What is in any
other slot stays there as it is, whether the command succeeds or is refused (`slot_run`).
-/

namespace StreamCrypto

namespace Command

/-- The slot that a command puts something new in, or empties, whatever is there. -/
def fills? : Command → Option String
  | .provider (.new id _) | .provider (.create _ id _) | .provider (.createHash _ id _) => some id
  | .provider (.createCipher _ id _) | .provider (.createKdf _ id _) => some id
  | .hash (.new id _ _) | .cipher (.new id _ _ _ _ _) | .kdf (.new id _ _ _) => some id
  | .hash (.clone _ target) => some target
  | .kdf (.makeKey _ _ target?) | .kdf (.tryMakeKey _ _ target?) => target?
  | .key (.ofBytes id _) => some id
  | .key (.clone _ target) | .key (.unwrap _ target) | .key (.wrap _ target) => some target
  | .array (.ofBytes id _) | .array (.zeroed id _) | .array (.tryZeroed id _) => some id
  | .array (.empty id) | .array (.leased id _ _) | .array (.clone _ id) => some id
  | .pool (.new id _) | .pool (.clone _ id) => some id
  | .pool (.reserve _ target _) | .pool (.allocate _ target _) => some target
  | .drop id => some id
  | _ => none

/-- The slot whose object a command changes or takes out, if it is of the right kind. -/
def reworks? : Command → Option String
  | .hash (.update id _) | .hash (.finalize id) | .hash (.clear id) => some id
  | .cipher (.setup id _ _ _) | .cipher (.update id _) | .cipher (.finalize id) => some id
  | .key (.unwrap id _) | .key (.wrap id _) => some id
  | .array (.leased _ _ id) | .array (.set id _ _) | .array (.truncate id _) => some id
  | _ => none

variable {command : Command} {id other : String}

theorem ne_of_fills (hfills : command.fills? ≠ some id) (hother : command.fills? = some other) :
    other ≠ id :=
  fun h ↦ hfills (hother.trans (congrArg some h))

theorem ne_of_reworks (hreworks : command.reworks? ≠ some id)
    (hother : command.reworks? = some other) : other ≠ id :=
  fun h ↦ hreworks (hother.trans (congrArg some h))

end Command

namespace Session

open Procedure Command

variable {id : String} {found : Option Object}

/-- The slot is left as it is. -/
def Spares (id : String) (found : Option Object) {α : Type} (procedure : Procedure α) : Prop :=
  Preserves (fun session ↦ session.slots.get? id = found) procedure

section

variable {α : Type} {other : String}

theorem spares_onEngine (change : Engine → Logged (α × Engine)) :
    Spares id found (onEngine change) :=
  preserves_onEngine fun _ hfound ↦ hfound

theorem spares_onMemory (change : Memory → Logged (α × Memory)) :
    Spares id found (onMemory change) :=
  spares_onEngine _

theorem spares_replace (hother : other ≠ id) (object : Object) :
    Spares id found (replace other object) :=
  preserves_modify fun session hfound ↦
    (session.slots.get?_insert_of_ne hother.symm object).trans hfound

theorem spares_keep (hother : other ≠ id) (object : Object) : Spares id found (keep other object) :=
  preserves_modify fun session hfound ↦
    (session.slots.get?_insert_of_ne hother.symm object).trans hfound

theorem spares_take (hother : other ≠ id) (select : Object → Option α) :
    Spares id found (take select other) :=
  preserves_bind (preserves_find select other) fun a ↦
    preserves_bind
      (preserves_modify fun session hfound ↦
        (session.slots.get?_erase_of_ne hother.symm).trans hfound)
      fun _ ↦ preserves_pure a

theorem spares_keepArray (hother : other ≠ id) (array : SecureArray) :
    Spares id found (keepArray other array) :=
  preserves_bind (spares_keep hother _) fun _ ↦ preserves_pure _

theorem spares_changeArray (hother : other ≠ id)
    (change : SecureArray → Except Fault SecureArray) :
    Spares id found (changeArray other change) :=
  preserves_bind (preserves_find _ other) fun _ ↦
    preserves_bind (preserves_settleAs _ _) fun changed ↦
    preserves_bind (spares_replace hother (.array changed)) fun _ ↦ preserves_pure _

theorem spares_finishCipher (hother : other ≠ id) (outcome : Except Error α × CipherContext) :
    Spares id found (finishCipher other outcome) :=
  preserves_bind (spares_replace hother _) fun _ ↦ preserves_settleAs _ outcome.1

theorem spares_keepKey {target : Option String} (htarget : target ≠ some id) (key : SymmetricKey) :
    Spares id found (keepKey target key) := by
  cases target with
  | some other =>
    exact preserves_bind (spares_keep (fun h ↦ htarget (congrArg some h)) _) fun _ ↦
      preserves_pure _
  | none => exact preserves_bind (preserves_modify fun _ hfound ↦ hfound) fun _ ↦ preserves_pure _

theorem spares_createKind {create : Provider → String → Engine → Logged (Except Error α × Engine)}
    {wrap : α → Object} {typeName : α → String} (hother : other ≠ id) (provider name : String) :
    Spares id found (createKind create wrap typeName provider other name) :=
  preserves_bind (preserves_find _ provider) fun _ ↦ preserves_bind (spares_onEngine _) fun _ ↦
    preserves_bind (preserves_settleAs _ _) fun _ ↦
      preserves_bind (spares_keep hother _) fun _ ↦ preserves_pure _

end

/-! ## Families of commands -/

theorem runEngine_spares (command : EngineCommand) : Spares id found (runEngine command) := by
  cases command with
  | state => exact preserves_bind preserves_get fun _ ↦ preserves_pure _
  | start config => exact preserves_bind (spares_onEngine _) fun _ ↦ preserves_pure _
  | setPageLocking enabled =>
    exact preserves_bind (preserves_modify fun _ hfound ↦ hfound) fun _ ↦
      preserves_bind preserves_get fun _ ↦ preserves_pure _
  | setRefusals refusals =>
    exact preserves_bind (preserves_modify fun _ hfound ↦ hfound) fun _ ↦ preserves_pure _

theorem runProvider_spares {command : ProviderCommand}
    (hfills : (Command.provider command).fills? ≠ some id) :
    Spares id found (runProvider command) := by
  cases command with
  | new other config =>
    exact preserves_bind (spares_keep (ne_of_fills hfills rfl) _) fun _ ↦ preserves_pure _
  | start other =>
    exact preserves_bind (preserves_find _ other) fun _ ↦
      preserves_bind (spares_onEngine _) fun _ ↦ preserves_pure _
  | features other => exact preserves_bind (preserves_find _ other) fun _ ↦ preserves_pure _
  | create provider other name =>
    refine preserves_bind (preserves_find _ provider) fun _ ↦
      preserves_bind (spares_onEngine _) fun created ↦ ?_
    cases created with
    | none => exact preserves_pure _
    | some context =>
      exact preserves_bind (spares_keep (ne_of_fills hfills rfl) _) fun _ ↦ preserves_pure _
  | createHash provider other name =>
    exact spares_createKind (ne_of_fills hfills rfl) provider name
  | createCipher provider other name =>
    exact spares_createKind (ne_of_fills hfills rfl) provider name
  | createKdf provider other name =>
    exact spares_createKind (ne_of_fills hfills rfl) provider name

theorem runHash_spares {command : HashCommand} (hfills : (Command.hash command).fills? ≠ some id)
    (hreworks : (Command.hash command).reworks? ≠ some id) :
    Spares id found (runHash command) := by
  cases command with
  | new other feature algorithm =>
    exact preserves_bind (spares_keep (ne_of_fills hfills rfl) _) fun _ ↦ preserves_pure _
  | update other data =>
    exact preserves_bind (preserves_find _ other) fun _ ↦
      preserves_bind (spares_replace (ne_of_reworks hreworks rfl) _) fun _ ↦ preserves_pure _
  | finalize other =>
    exact preserves_bind (preserves_find _ other) fun _ ↦
      preserves_bind (preserves_making _) fun _ ↦
        preserves_bind (spares_replace (ne_of_reworks hreworks rfl) _) fun _ ↦ preserves_pure _
  | clear other =>
    exact preserves_bind (preserves_find _ other) fun _ ↦
      preserves_bind (spares_replace (ne_of_reworks hreworks rfl) _) fun _ ↦ preserves_pure _
  | clone other target =>
    exact preserves_bind (preserves_find _ other) fun _ ↦
      preserves_bind (spares_keep (ne_of_fills hfills rfl) _) fun _ ↦ preserves_pure _
  | info other => exact preserves_bind (preserves_find _ other) fun _ ↦ preserves_pure _

theorem runCipher_spares {command : CipherCommand}
    (hfills : (Command.cipher command).fills? ≠ some id)
    (hreworks : (Command.cipher command).reworks? ≠ some id) :
    Spares id found (runCipher command) := by
  cases command with
  | new other feature algorithm mode padding policy =>
    exact preserves_bind (spares_keep (ne_of_fills hfills rfl) _) fun _ ↦ preserves_pure _
  | setup other direction key iv =>
    have hother := ne_of_reworks hreworks rfl
    exact preserves_bind (preserves_find _ other) fun _ ↦
      preserves_bind (preserves_readKey key) fun _ ↦ preserves_bind (preserves_making _) fun _ ↦
        preserves_bind (preserves_making _) fun outcome ↦
          preserves_bind (spares_finishCipher hother outcome) fun _ ↦ preserves_pure _
  | update other data =>
    have hother := ne_of_reworks hreworks rfl
    exact preserves_bind (preserves_find _ other) fun _ ↦
      preserves_bind (preserves_making _) fun outcome ↦
        preserves_bind (spares_finishCipher hother outcome) fun _ ↦ preserves_pure _
  | finalize other =>
    have hother := ne_of_reworks hreworks rfl
    exact preserves_bind (preserves_find _ other) fun _ ↦
      preserves_bind (preserves_making _) fun outcome ↦
        preserves_bind (spares_finishCipher hother outcome) fun _ ↦ preserves_pure _
  | info other => exact preserves_bind (preserves_find _ other) fun _ ↦ preserves_pure _

theorem runKdf_spares {command : KdfCommand} (hfills : (Command.kdf command).fills? ≠ some id) :
    Spares id found (runKdf command) := by
  cases command with
  | new other feature hash fallback =>
    exact preserves_bind (spares_keep (ne_of_fills hfills rfl) _) fun _ ↦ preserves_pure _
  | info other => exact preserves_bind (preserves_find _ other) fun _ ↦ preserves_pure _
  | makeKey other request target =>
    exact preserves_bind (preserves_find _ other) fun _ ↦
      preserves_bind (preserves_making _) fun _ ↦ preserves_bind (spares_onEngine _) fun _ ↦
        preserves_bind (preserves_settle _) fun key ↦ spares_keepKey hfills key
  | tryMakeKey other request target =>
    exact preserves_bind (preserves_find _ other) fun _ ↦
      preserves_bind (preserves_making _) fun _ ↦ preserves_bind (spares_onEngine _) fun _ ↦
        preserves_bind (preserves_settle _) fun key ↦ spares_keepKey hfills key

theorem runKey_spares {command : KeyCommand} (hfills : (Command.key command).fills? ≠ some id)
    (hreworks : (Command.key command).reworks? ≠ some id) : Spares id found (runKey command) := by
  cases command with
  | ofBytes other data =>
    exact preserves_bind (preserves_making _) fun _ ↦
      preserves_bind (spares_keep (ne_of_fills hfills rfl) _) fun _ ↦ preserves_pure _
  | info other => exact preserves_bind (preserves_find _ other) fun _ ↦ preserves_pure _
  | clone other target =>
    exact preserves_bind (preserves_find _ other) fun _ ↦
      preserves_bind (preserves_making _) fun _ ↦
        preserves_bind (spares_keep (ne_of_fills hfills rfl) _) fun _ ↦ preserves_pure _
  | equal left right =>
    exact preserves_bind (preserves_find _ left) fun _ ↦
      preserves_bind (preserves_find _ right) fun _ ↦ preserves_pure _
  | unwrap other target =>
    exact preserves_bind (spares_take (ne_of_reworks hreworks rfl) _) fun _ ↦
      spares_keepArray (ne_of_fills hfills rfl) _
  | wrap other target =>
    exact preserves_bind (spares_take (ne_of_reworks hreworks rfl) _) fun _ ↦
      preserves_bind (spares_keep (ne_of_fills hfills rfl) _) fun _ ↦ preserves_pure _

theorem runArray_spares {command : ArrayCommand} (hfills : (Command.array command).fills? ≠ some id)
    (hreworks : (Command.array command).reworks? ≠ some id) :
    Spares id found (runArray command) := by
  cases command with
  | ofBytes other data =>
    exact preserves_bind (preserves_making _) (spares_keepArray (ne_of_fills hfills rfl))
  | zeroed other length =>
    exact preserves_bind (preserves_making _) fun _ ↦
      preserves_bind (preserves_settleAs _ _) (spares_keepArray (ne_of_fills hfills rfl))
  | tryZeroed other length =>
    exact preserves_bind (preserves_making _) fun _ ↦
      preserves_bind (preserves_settleAs _ _) (spares_keepArray (ne_of_fills hfills rfl))
  | empty other => exact spares_keepArray (ne_of_fills hfills rfl) _
  | leased other length lease =>
    exact preserves_bind (spares_take (ne_of_reworks hreworks rfl) _) fun _ ↦
      preserves_bind (spares_onMemory _) fun _ ↦
        preserves_bind (preserves_settleAs _ _) (spares_keepArray (ne_of_fills hfills rfl))
  | set other index value => exact spares_changeArray (ne_of_reworks hreworks rfl) _
  | truncate other length => exact spares_changeArray (ne_of_reworks hreworks rfl) _
  | clone other target =>
    exact preserves_bind (preserves_find _ other) fun _ ↦
      preserves_bind (preserves_making _) (spares_keepArray (ne_of_fills hfills rfl))
  | info other => exact preserves_bind (preserves_find _ other) fun _ ↦ preserves_pure _
  | equal left right =>
    exact preserves_bind (preserves_find _ left) fun _ ↦
      preserves_bind (preserves_find _ right) fun _ ↦ preserves_pure _

theorem runPool_spares {command : PoolCommand} (hfills : (Command.pool command).fills? ≠ some id) :
    Spares id found (runPool command) := by
  cases command with
  | new other capacity =>
    exact preserves_bind (spares_onMemory _) fun _ ↦
      preserves_bind (spares_keep (ne_of_fills hfills rfl) _) fun _ ↦
        preserves_bind preserves_get fun _ ↦ preserves_pure _
  | clone source target =>
    exact preserves_bind (preserves_findPool source) fun _ ↦
      preserves_bind (spares_keep (ne_of_fills hfills rfl) _) fun _ ↦ preserves_pure _
  | reserve source target size =>
    exact preserves_bind (preserves_findPool source) fun _ ↦
      preserves_bind (spares_onMemory _) fun _ ↦ preserves_bind (preserves_settleAs _ _) fun _ ↦
        preserves_bind (spares_keep (ne_of_fills hfills rfl) _) fun _ ↦ preserves_pure _
  | allocate source target size =>
    exact preserves_bind (preserves_findPool source) fun _ ↦
      preserves_bind (spares_onMemory _) fun _ ↦
        preserves_bind (preserves_settle _) (spares_keepArray (ne_of_fills hfills rfl))
  | info source => exact preserves_pure _

theorem drop_spares {other : String} (hother : other ≠ id) :
    Spares id found (action (.drop other)) :=
  preserves_bind
    (preserves_modify fun session hfound ↦
      (session.slots.get?_erase_of_ne hother.symm).trans hfound)
    fun _ ↦ preserves_pure _

theorem action_spares {command : Command} (hfills : command.fills? ≠ some id)
    (hreworks : command.reworks? ≠ some id) : Spares id found (action command) := by
  cases command with
  | engine command => exact runEngine_spares command
  | provider command => exact runProvider_spares hfills
  | hash command => exact runHash_spares hfills hreworks
  | cipher command => exact runCipher_spares hfills hreworks
  | kdf command => exact runKdf_spares hfills
  | key command => exact runKey_spares hfills hreworks
  | array command => exact runArray_spares hfills hreworks
  | pool command => exact runPool_spares hfills
  | drop other => exact drop_spares (ne_of_fills hfills rfl)

/-- What is in a slot that a command does not write to stays there. -/
theorem slot_run (session : Session) {command : Command} (hfills : command.fills? ≠ some id)
    (hreworks : command.reworks? ≠ some id) :
    (session.run command).value.2.slots.get? id = session.slots.get? id :=
  (action_spares hfills hreworks).after rfl

end Session

end StreamCrypto
