import Mathlib.Data.List.Forall2
import StreamCrypto.Proofs.Session.Blinding
import StreamCrypto.Proofs.Session.Turns

/-!
# Secret bytes stay hidden

Two runs of commands that differ in secret bytes only cannot be told apart by what they log, by
their failures, by the lengths of what they return, by where their contexts stand, by the pools or
by any description (`secret_bytes_stay_hidden`). Two verdicts have to agree: whether a key is weak,
and whether the padding at the end of a stream is valid. Each turn on alike sessions shows alike and
leaves alike sessions (`Alike.shows_turn`), and so every run does.
-/

namespace StreamCrypto

/-! ## What is seen of a context -/

/-- A context without its secret bytes, but with the descriptions of its key and initialization
vector. -/
structure CipherView where
  feature : Feature
  parameters : CipherParameters
  /-- Why data is refused, if it is. -/
  misuse? : Option Error
  direction? : Option Direction
  weakKey : Bool
  texts : Option (String × String)
  deriving DecidableEq

namespace CipherContext

def view (context : CipherContext) : CipherView where
  feature := context.feature
  parameters := context.parameters
  misuse? := context.misuse?
  direction? := context.direction?
  weakKey := context.weakKey
  texts := context.stream?.map fun stream ↦
    (SymmetricKey.description stream.key, ivDescription stream.iv)

variable {first second : CipherContext}

theorem Alike.view (halike : first.Alike second) : first.view = second.view := by
  obtain ⟨lifecycle, rfl, hlifecycle⟩ := halike
  unfold CipherContext.view misuse? direction? stream? parameters
  generalize first.lifecycle = before at hlifecycle ⊢
  cases hlifecycle with
  | unkeyed => rfl
  | finished => rfl
  | active hstreams =>
    simp only [Option.map_some, hstreams.direction, description_eq_of_length_eq hstreams.key,
      ivDescription_eq_of_length_eq hstreams.iv]

theorem Alike.hidden_details (halike : first.Alike second) :
    first.details.hidden = second.details.hidden := by
  obtain ⟨lifecycle, rfl, hlifecycle⟩ := halike
  unfold details CipherDetails.hidden stream?
  generalize first.lifecycle = before at hlifecycle ⊢
  cases hlifecycle with
  | unkeyed => rfl
  | finished => rfl
  | active hstreams =>
    simp only [Option.map_some, hidden_eq_of_length_eq hstreams.key,
      hidden_eq_of_length_eq hstreams.iv]

end CipherContext

namespace Session

open Procedure

def cipher? (session : Session) (id : String) : Option CipherContext :=
  (session.slots.get? id).bind asCipher

/-- The key that a source stands for, if its slot holds one. -/
def key? (session : Session) : KeySource → Option Bytes
  | .bytes bytes => some bytes
  | .slot id => ((session.slots.get? id).bind asKey).map fun key ↦ key.material.bytes

/-- Whether the key of a command that sets a context up is weak. -/
def weakKeyVerdict? (session : Session) : Command → Option Bool
  | .cipher (.setup id _ key _) =>
    (session.cipher? id).bind fun context ↦ (session.key? key).map context.algorithm.isWeakKey
  | _ => none

/-- Whether the padding is valid, for a command that ends a stream of padded ciphertext. -/
def paddingVerdict? (session : Session) : Command → Option Bool
  | .cipher (.finalize id) => (session.cipher? id).bind CipherContext.paddingVerdict?
  | _ => none

/-- Alike sessions before alike commands, with the same verdict on a key and this one on a
padding. -/
structure Facing (command command' : Command) (verdict : Option Bool) (session other : Session) :
    Prop where
  alike : session.Alike other
  weakKey : session.weakKeyVerdict? command = other.weakKeyVerdict? command'
  first : session.paddingVerdict? command = verdict
  second : other.paddingVerdict? command' = verdict

/-! ## Ciphers -/

theorem mirrors_finishCipher {α : Type} {Values : α → α → Prop} (id : String)
    {one other : Except Error α × CipherContext}
    (halike : CipherContext.TurnsAlike Values one other) :
    Mirrors Values (finishCipher id one) (finishCipher id other) :=
  mirrors_bind (mirrors_replace id (.cipher halike.2)) fun _ _ _ ↦ mirrors_settleAs halike.1

theorem mirrors_cipherNew (id : String) (feature : Feature) (algorithm : CipherAlgorithm)
    (mode : Mode) (padding : Bool) (policy : Option FailurePolicy) :
    Answers (runCipher (.new id feature algorithm mode padding policy))
      (runCipher (.new id feature algorithm mode padding policy)) :=
  mirrors_bind (mirrors_keep id (.cipher (CipherContext.alike_new _ _ _ _ _)))
    fun _ _ _ ↦ answers_pure _

theorem mirrors_cipherUpdate (id : String) {data data' : Bytes}
    (hdata : data.length = data'.length) :
    Answers (runCipher (.update id data)) (runCipher (.update id data')) := by
  refine mirrors_bind (mirrors_findCipher id) fun context context' hcontexts ↦ ?_
  refine mirrors_bind (mirrors_making fun locking ↦
    CipherContext.updateWith_agrees hcontexts locking hdata) fun outcome outcome' houtcomes ↦ ?_
  refine mirrors_bind (mirrors_finishCipher id houtcomes) fun out out' harrays ↦ ?_
  exact mirrors_pure (Reply.alike_of_hidden_eq
    (congrArg Reply.bytes (hidden_eq_of_length_eq harrays.length)))

theorem mirrors_cipherInfo (id : String) :
    Answers (runCipher (.info id)) (runCipher (.info id)) := by
  refine mirrors_bind (mirrors_findCipher id) fun context context' hcontexts ↦ ?_
  have hdetails := hcontexts.hidden_details
  obtain ⟨lifecycle, rfl, -⟩ := hcontexts
  refine mirrors_pure (Reply.alike_of_hidden_eq ?_)
  exact congrArg (fun details ↦ Reply.cipher _ _ _ details) hdetails

/-- Contexts that are found in alike sessions, with what is known of both. -/
theorem couples_findCipher {P : Session → Session → Prop}
    {M : CipherContext → CipherContext → Session → Session → Prop} {id : String}
    (halike : ∀ session other, P session other → session.Alike other)
    (h : ∀ session other context context', P session other → context.Alike context' →
      session.cipher? id = some context → other.cipher? id = some context' →
        M context context' session other) :
    Couples P (findCipher id) (findCipher id) M Session.Alike := by
  rw [findCipher_eq]
  exact couples_find
    (fun session other hP ↦ (halike session other hP).bind_slots asCipher_alike id) h halike

/-- Keys that are read from alike sources, with what is known of both. -/
theorem couples_readKey {P : Session → Session → Prop}
    {M : Bytes → Bytes → Session → Session → Prop} {key key' : KeySource} (hkey : key.Alike key')
    (halike : ∀ session other, P session other → session.Alike other)
    (h : ∀ session other bytes bytes', P session other → bytes.length = bytes'.length →
      session.key? key = some bytes → other.key? key' = some bytes' →
        M bytes bytes' session other) :
    Couples P (readKey key) (readKey key') M Session.Alike := by
  cases hkey with
  | bytes hlength =>
    exact couples_pure fun session other hP ↦ h session other _ _ hP hlength rfl rfl
  | slot id =>
    refine couples_bind (M := fun one two session other ↦
      M one.material.bytes two.material.bytes session other) ?_ fun one two ↦
        couples_pure fun session other hM ↦ hM
    refine couples_find (fun session other hP ↦ (halike session other hP).bind_slots asKey_alike id)
      ?_ halike
    intro session other one two hP hkeys hone hother
    apply h session other _ _ hP (SecureArray.Alike.length hkeys)
    · rw [key?, hone, Option.map_some]
    · rw [key?, hother, Option.map_some]

theorem mirrors_setup {context context' : CipherContext} (halike : context.Alike context')
    (id : String) (direction : Direction) {key key' iv iv' : Bytes}
    (hkey : key.length = key'.length) (hiv : iv.length = iv'.length)
    (hweak : context.algorithm.isWeakKey key = context'.algorithm.isWeakKey key')
    {compared : Prop} :
    Mirrors (Reply.Alike compared)
      (do
        making fun locking ↦ (locking.skip 3).lockEach [key.length, iv.length]
        finishCipher id (← making fun locking ↦ context.setupWith locking direction key iv)
        pure .done)
      (do
        making fun locking ↦ (locking.skip 3).lockEach [key'.length, iv'.length]
        finishCipher id (← making fun locking ↦ context'.setupWith locking direction key' iv')
        pure .done) := by
  rw [hkey, hiv]
  refine mirrors_bind (mirrors_making_self _) fun _ _ _ ↦ ?_
  refine mirrors_bind (mirrors_making fun locking ↦
    CipherContext.setupWith_agrees halike locking direction hkey hiv hweak)
    fun outcome outcome' houtcomes ↦ ?_
  exact mirrors_bind (mirrors_finishCipher id houtcomes) fun _ _ _ ↦ mirrors_pure (.refl _)

theorem couples_setup (id : String) (direction : Direction) {key key' : KeySource}
    {iv iv' : Bytes} (hkey : key.Alike key') (hiv : iv.length = iv'.length)
    (verdict : Option Bool) :
    Couples
      (Facing (.cipher (.setup id direction key iv)) (.cipher (.setup id direction key' iv'))
        verdict)
      (runCipher (.setup id direction key iv)) (runCipher (.setup id direction key' iv'))
      (fun reply reply' session other ↦ reply.Alike (verdict = none) reply' ∧ session.Alike other)
      Session.Alike := by
  refine couples_bind (M := fun context context' session other ↦ (context.Alike context' ∧
    (session.key? key).map context.algorithm.isWeakKey =
      (other.key? key').map context'.algorithm.isWeakKey) ∧ session.Alike other) ?_ ?_
  · refine couples_findCipher (fun _ _ hfacing ↦ hfacing.alike) ?_
    intro session other context context' hfacing hcontexts hone hother
    have hweak := hfacing.weakKey
    rw [weakKeyVerdict?, weakKeyVerdict?, hone, hother] at hweak
    exact ⟨⟨hcontexts, hweak⟩, hfacing.alike⟩
  intro context context'
  refine couples_bind (M := fun bytes bytes' session other ↦ (context.Alike context' ∧
    bytes.length = bytes'.length ∧
    context.algorithm.isWeakKey bytes = context'.algorithm.isWeakKey bytes') ∧
    session.Alike other) ?_ ?_
  · refine couples_readKey hkey (fun _ _ hmiddle ↦ hmiddle.2) ?_
    intro session other bytes bytes' hmiddle hlength hone hother
    have hweak := hmiddle.1.2
    rw [hone, hother, Option.map_some, Option.map_some, Option.some.injEq] at hweak
    exact ⟨⟨hmiddle.1.1, hlength, hweak⟩, hmiddle.2⟩
  · intro bytes bytes' session other hmiddle
    obtain ⟨⟨hcontexts, hlength, hweak⟩, hsessions⟩ := hmiddle
    exact mirrors_setup hcontexts id direction hlength hiv hweak session other hsessions

theorem mirrors_finalize {context context' : CipherContext} (halike : context.Alike context')
    (hverdict : context.paddingVerdict? = context'.paddingVerdict?) (id : String) :
    Mirrors (Reply.Alike (context.paddingVerdict? = none))
      (do
        let out ← finishCipher id (← making context.finalizeWith)
        pure (.bytes out.bytes))
      (do
        let out ← finishCipher id (← making context'.finalizeWith)
        pure (.bytes out.bytes)) := by
  refine mirrors_bind (mirrors_making (CipherContext.finalizeWith_agrees halike hverdict))
    fun outcome outcome' houtcomes ↦ ?_
  refine mirrors_bind (mirrors_finishCipher id houtcomes) fun out out' harrays ↦ ?_
  refine mirrors_pure ⟨rfl, fun hnone ↦ ?_⟩
  exact congrArg Reply.bytes (hidden_eq_of_length_eq (harrays hnone).length)

theorem couples_finalize (id : String) (verdict : Option Bool) :
    Couples (Facing (.cipher (.finalize id)) (.cipher (.finalize id)) verdict)
      (runCipher (.finalize id)) (runCipher (.finalize id))
      (fun reply reply' session other ↦ reply.Alike (verdict = none) reply' ∧ session.Alike other)
      Session.Alike := by
  refine couples_bind (M := fun context context' session other ↦ (context.Alike context' ∧
    context.paddingVerdict? = verdict ∧ context'.paddingVerdict? = verdict) ∧
    session.Alike other) ?_ ?_
  · refine couples_findCipher (fun _ _ hfacing ↦ hfacing.alike) ?_
    intro session other context context' hfacing hcontexts hone hother
    have hfirst := hfacing.first
    have hsecond := hfacing.second
    rw [paddingVerdict?, hone] at hfirst
    rw [paddingVerdict?, hother] at hsecond
    exact ⟨⟨hcontexts, hfirst, hsecond⟩, hfacing.alike⟩
  · intro context context' session other hmiddle
    obtain ⟨⟨hcontexts, hfirst, hsecond⟩, hsessions⟩ := hmiddle
    have hmirrors := mirrors_finalize hcontexts (hfirst.trans hsecond.symm) id
    rw [hfirst] at hmirrors
    exact hmirrors session other hsessions

/-! ## All commands -/

/-- Replies that are alike in full are alike where less is compared. -/
theorem couples_of_answers {command command' : Command} {first second : Procedure Reply}
    (h : Answers first second) (verdict : Option Bool) :
    Couples (Facing command command' verdict) first second
      (fun reply reply' session other ↦ reply.Alike (verdict = none) reply' ∧ session.Alike other)
      Session.Alike :=
  couples_weaken h (fun _ _ hfacing ↦ hfacing.alike)
    (fun _ _ _ _ hanswers ↦ ⟨⟨hanswers.1.texts, fun _ ↦ hanswers.1.hidden trivial⟩, hanswers.2⟩)
    fun _ _ halike ↦ halike

theorem couples_action {command command' : Command} (halike : command.Alike command')
    (verdict : Option Bool) :
    Couples (Facing command command' verdict) (action command) (action command')
      (fun reply reply' session other ↦ reply.Alike (verdict = none) reply' ∧ session.Alike other)
      Session.Alike := by
  cases halike with
  | engine command => exact couples_of_answers (mirrors_runEngine command) verdict
  | provider command => exact couples_of_answers (mirrors_runProvider command) verdict
  | hash h => exact couples_of_answers (mirrors_runHash h) verdict
  | kdf h => exact couples_of_answers (mirrors_runKdf h) verdict
  | key h => exact couples_of_answers (mirrors_runKey h) verdict
  | array h => exact couples_of_answers (mirrors_runArray h) verdict
  | pool command => exact couples_of_answers (mirrors_runPool command) verdict
  | drop id =>
    refine couples_of_answers ?_ verdict
    exact mirrors_bind (mirrors_modify fun _ _ h ↦ h.drop id) fun _ _ _ ↦ answers_pure _
  | cipher h =>
    cases h with
    | new id feature algorithm mode padding policy =>
      exact couples_of_answers (mirrors_cipherNew id feature algorithm mode padding policy) verdict
    | setup id direction hkey hiv => exact couples_setup id direction hkey hiv verdict
    | update id hdata => exact couples_of_answers (mirrors_cipherUpdate id hdata) verdict
    | finalize id => exact couples_finalize id verdict
    | info id => exact couples_of_answers (mirrors_cipherInfo id) verdict

end Session

/-! ## Turns -/

def KeySource.texts : KeySource → List String
  | bytes key => [SymmetricKey.description key]
  | slot _ => []

/-- The descriptions of the keys and initialization vectors in a command. A salt is one, too. -/
def Command.texts : Command → List String
  | cipher (.setup _ _ source iv) => source.texts ++ [ivDescription iv]
  | kdf (.makeKey _ request _) | kdf (.tryMakeKey _ request _) => [ivDescription request.salt]
  | key (.ofBytes _ data) => [SymmetricKey.description data]
  | _ => []

theorem Command.Alike.texts {command command' : Command} (halike : command.Alike command') :
    command.texts = command'.texts := by
  cases halike with
  | cipher h =>
    cases h with
    | setup id direction hkey hiv =>
      cases hkey with
      | bytes hkey =>
        simp only [Command.texts, KeySource.texts, description_eq_of_length_eq hkey,
          ivDescription_eq_of_length_eq hiv]
      | slot id => simp only [Command.texts, ivDescription_eq_of_length_eq hiv]
    | new | update | finalize | info => rfl
  | kdf h =>
    cases h with
    | makeKey id hrequest target | tryMakeKey id hrequest target =>
      simp only [Command.texts, ivDescription_eq_of_length_eq hrequest.salt]
    | new | info => rfl
  | key h =>
    cases h with
    | ofBytes id hdata => simp only [Command.texts, description_eq_of_length_eq hdata]
    | info | clone | unwrap | wrap => rfl
  | engine | provider | hash | array | pool | drop => rfl

namespace SessionTurn

/-- Turns that differ in secret bytes only, with equal verdicts on keys and paddings. -/
structure Corresponds (first second : SessionTurn) : Prop where
  command : first.command.Alike second.command
  weakKey : first.before.weakKeyVerdict? first.command =
    second.before.weakKeyVerdict? second.command
  padding : first.before.paddingVerdict? first.command =
    second.before.paddingVerdict? second.command

/-- Turns that cannot be told apart without secret bytes. Only where a padding has been checked may
they return different numbers of bytes. -/
structure ShowsAlike (first second : SessionTurn) : Prop where
  events : first.events = second.events
  result : ResultsAlike (Reply.Alike (first.before.paddingVerdict? first.command = none))
    first.result second.result
  engine : first.after.engine = second.after.engine
  ciphers : ∀ id, (first.after.cipher? id).map CipherContext.view =
    (second.after.cipher? id).map CipherContext.view
  /-- The keys and initialization vectors passed in. -/
  texts : first.command.texts = second.command.texts
  /-- The keys in slots. -/
  keys : ∀ id, (first.after.key? (.slot id)).map SymmetricKey.description =
    (second.after.key? (.slot id)).map SymmetricKey.description

end SessionTurn

namespace Session

open Procedure

variable {session other : Session} (halike : session.Alike other)

include halike

theorem Alike.view_cipher? (id : String) :
    (session.cipher? id).map CipherContext.view = (other.cipher? id).map CipherContext.view := by
  have hfound := halike.bind_slots asCipher_alike id
  unfold cipher?
  generalize (session.slots.get? id).bind asCipher = one at hfound ⊢
  generalize (other.slots.get? id).bind asCipher = two at hfound ⊢
  cases hfound with
  | none => rfl
  | some hcontexts => exact congrArg some hcontexts.view

theorem Alike.description_key? (id : String) :
    (session.key? (.slot id)).map SymmetricKey.description =
      (other.key? (.slot id)).map SymmetricKey.description := by
  have hfound := halike.bind_slots asKey_alike id
  simp only [key?]
  generalize (session.slots.get? id).bind asKey = one at hfound ⊢
  generalize (other.slots.get? id).bind asKey = two at hfound ⊢
  cases hfound with
  | none => rfl
  | some hkeys => exact congrArg some (description_eq_of_length_eq (SecureArray.Alike.length hkeys))

theorem Alike.shows_turn {command command' : Command}
    (hcorresponds : (session.turn command).Corresponds (other.turn command')) :
    (session.turn command).ShowsAlike (other.turn command') ∧
      (session.turn command).after.Alike (other.turn command').after := by
  obtain ⟨hevents, hends⟩ := couples_action hcorresponds.command
    (session.paddingVerdict? command) session other
    ⟨halike, hcorresponds.weakKey, rfl, hcorresponds.padding.symm⟩
  have hboth : ResultsAlike (Reply.Alike (session.paddingVerdict? command = none))
      (session.turn command).result (other.turn command').result ∧
      (session.turn command).after.Alike (other.turn command').after := hends.alike
  obtain ⟨hresults, hafter⟩ := hboth
  exact ⟨⟨hevents, hresults, hafter.engine, hafter.view_cipher?, hcorresponds.command.texts,
    hafter.description_key?⟩, hafter⟩

theorem Alike.shows_turns {commands others : List Command}
    (hcorresponds : List.Forall₂ SessionTurn.Corresponds (session.turns commands)
      (other.turns others)) :
    List.Forall₂ SessionTurn.ShowsAlike (session.turns commands) (other.turns others) := by
  induction commands generalizing session other others with
  | nil =>
    cases others with
    | nil => exact .nil
    | cons command' others => cases hcorresponds
  | cons command commands ih =>
    cases others with
    | nil => cases hcorresponds
    | cons command' others =>
      obtain ⟨hfirst, hrest⟩ := List.forall₂_cons.1 hcorresponds
      obtain ⟨hshows, hafter⟩ := halike.shows_turn hfirst
      exact .cons hshows (ih hafter hrest)

omit halike

/-- Two runs from one engine, of commands that differ in secret bytes only: turn for turn they
cannot be told apart, given equal verdicts on keys and paddings. The engine knows which locks the
operating system refuses, so that what is traced about them is the same as well. -/
theorem secret_bytes_stay_hidden (engine : Engine) (commands others : List Command)
    (hcorresponds : List.Forall₂ SessionTurn.Corresponds (turns { engine } commands)
      (turns { engine } others)) :
    List.Forall₂ SessionTurn.ShowsAlike (turns { engine } commands) (turns { engine } others) :=
  (alike_empty engine).shows_turns hcorresponds

/-- The commands that encipher a message with DES. -/
def encipherDes (key iv data : Bytes) : List Command :=
  [.cipher (.new "c" .desCbc .des .cbc true none), .cipher (.setup "c" .encode (.bytes key) iv),
    .cipher (.update "c" data), .cipher (.finalize "c")]

/-- Two weak keys, messages of eleven bytes, and no lock for the first array of any call: the block
of the stream, the output, and the block at the end. -/
theorem secret_bytes_stay_hidden_weak_keys :
    let engine := Engine.fresh.setRefusals [some (.system "Cannot allocate memory (os error 12)")]
    let first := turns { engine }
      (encipherDes (List.replicate 8 0x01) (List.replicate 8 0) (List.replicate 11 5))
    let second := turns { engine }
      (encipherDes (List.replicate 8 0xfe) (List.replicate 8 7) (List.replicate 11 9))
    (first.flatMap SessionTurn.events).map Event.level =
        [.warn, .trace, .debug, .trace, .trace] ∧
      List.Forall₂ SessionTurn.ShowsAlike first second := by
  intro engine first second
  refine ⟨by decide +kernel, secret_bytes_stay_hidden engine _ _ ?_⟩
  refine .cons ⟨.cipher (.new ..), rfl, rfl⟩ ?_
  refine .cons ⟨.cipher (.setup "c" .encode (.bytes rfl) rfl), ?_, ?_⟩ ?_
  · decide +kernel
  · decide +kernel
  refine .cons ⟨.cipher (.update "c" rfl), ?_, ?_⟩ ?_
  · decide +kernel
  · decide +kernel
  refine .cons ⟨.cipher (.finalize "c"), ?_, ?_⟩ .nil
  · decide +kernel
  · decide +kernel

end Session

end StreamCrypto
