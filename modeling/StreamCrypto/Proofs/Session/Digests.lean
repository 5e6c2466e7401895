import StreamCrypto.Proofs.Session.Triple

/-!
# Digests of a session

Digest contexts are made, fed, read, cleared and copied in any order, in any number of slots.
Beside the session runs a record of the message in each slot: the bytes that the context there was
fed since it was made, read or cleared, where a copy takes over the message of its original. The
record knows nothing of blocks or of chaining states. Every command keeps the two in step
(`Tracks.afterHash`), so every digest is the one of the recorded message (`Tracks.digestsOf`).
Nothing is said about contexts that other commands make or replace.
-/

namespace StreamCrypto

open Digest Session.Procedure

/-! ## Messages -/

/-- What a digest context was fed since its message began. -/
structure DigestMessage where
  algorithm : HashAlgorithm
  bytes : Bytes

/-- The standard digest of the message. -/
def DigestMessage.digest (message : DigestMessage) : Bytes :=
  message.algorithm.digest message.bytes

def DigestMessage.append (message : DigestMessage) (data : Bytes) : DigestMessage :=
  { message with bytes := message.bytes ++ data }

/-- The next message of the same context. -/
def DigestMessage.next (message : DigestMessage) : DigestMessage := { message with bytes := [] }

/-- The slot whose context a command needs. -/
def HashCommand.source? : HashCommand → Option String
  | new _ _ _ => none
  | update id _ | finalize id | clear id | clone id _ | info id => some id

/-- The slot that a command fills or whose context it changes. -/
def HashCommand.target? : HashCommand → Option String
  | new id _ _ | update id _ | finalize id | clear id | clone _ id => some id
  | info _ => none

/-- The messages in slots. -/
abbrev Messages := String → Option DigestMessage

namespace Messages

/-- There is no digest context. -/
def empty : Messages := fun _ ↦ none

def set (messages : Messages) (id : String) (message? : Option DigestMessage) : Messages :=
  fun other ↦ if other = id then message? else messages other

@[simp] theorem set_self (messages : Messages) (id : String) (message? : Option DigestMessage) :
    messages.set id message? id = message? :=
  if_pos rfl

theorem set_of_ne (messages : Messages) {id other : String} (hother : other ≠ id)
    (message? : Option DigestMessage) : messages.set id message? other = messages other :=
  if_neg hother

theorem set_eq_self (messages : Messages) (id : String) :
    messages.set id (messages id) = messages := by
  funext other
  by_cases hother : other = id
  · rw [hother, set_self]
  · exact messages.set_of_ne hother _

/-- The messages after a command. -/
def after (messages : Messages) : HashCommand → Messages
  | .new id _ algorithm => messages.set id (some ⟨algorithm, []⟩)
  | .update id data => messages.set id ((messages id).map (·.append data))
  | .finalize id | .clear id => messages.set id ((messages id).map .next)
  | .clone id target => (messages id).elim messages fun message ↦ messages.set target (some message)
  | .info _ => messages

def afterAll (messages : Messages) (history : List HashCommand) : Messages :=
  history.foldl after messages

theorem after_of_missing {messages : Messages} {command : HashCommand} {id : String}
    (hsource : command.source? = some id) (hmissing : messages id = none) :
    messages.after command = messages := by
  cases command with
  | new => cases hsource
  | update | finalize | clear =>
    cases hsource
    simp only [after, hmissing, Option.map_none]
    rw [← hmissing]
    exact messages.set_eq_self id
  | clone =>
    cases hsource
    simp only [after, hmissing, Option.elim_none]
  | info => rfl

theorem after_of_ne {messages : Messages} {command : HashCommand} {id : String}
    (htarget : command.target? ≠ some id) : messages.after command id = messages id := by
  cases command with
  | new other | update other | finalize other | clear other =>
    have hother : id ≠ other := fun h ↦ htarget (h ▸ rfl)
    exact messages.set_of_ne hother _
  | clone source other =>
    have hother : id ≠ other := fun h ↦ htarget (h ▸ rfl)
    cases hmessage : messages source with
    | none => simp [after, hmessage]
    | some message => simp [after, hmessage, messages.set_of_ne hother]
  | info => rfl

/-- A message that arrives in pieces is joined. -/
theorem afterAll_updates (messages : Messages) (id : String) (pieces : List Bytes) :
    messages.afterAll (pieces.map (.update id)) id =
      (messages id).map (·.append pieces.flatten) := by
  induction pieces generalizing messages with
  | nil => simp [afterAll, DigestMessage.append]
  | cons piece pieces ih =>
    calc
      _ = (messages.after (.update id piece)).afterAll (pieces.map (.update id)) id := rfl
      _ = (messages.after (.update id piece) id).map (·.append pieces.flatten) := ih _
      _ = ((messages id).map (·.append piece)).map (·.append pieces.flatten) := by
        rw [after, set_self]
      _ = _ := by
        rw [Option.map_map]
        congr 1
        funext message
        simp [DigestMessage.append]

end Messages

/-! ## Contexts -/

/-- The context is in the state that its message leads to. -/
structure DigestContext.Reads (context : DigestContext) (message : DigestMessage) : Prop where
  algorithm : context.algorithm = message.algorithm
  hasher : context.hasher.HasRead message.bytes

namespace DigestContext

variable {context : DigestContext} {message : DigestMessage}

theorem reads_new (feature : Feature) (algorithm : HashAlgorithm) :
    (new feature algorithm).Reads ⟨algorithm, []⟩ :=
  ⟨rfl, Hasher.hasRead_new _⟩

theorem Reads.update (hreads : context.Reads message) (data : Bytes) :
    (context.update data).Reads (message.append data) :=
  ⟨hreads.algorithm, hreads.hasher.update data⟩

theorem Reads.clear (hreads : context.Reads message) : context.clear.Reads message.next :=
  ⟨hreads.algorithm, Hasher.hasRead_new _⟩

theorem Reads.finish (hreads : context.Reads message) :
    context.hasher.finish = message.digest := by
  rw [hreads.hasher.finish, DigestMessage.digest, ← hreads.algorithm]
  rfl

end DigestContext

/-! ## Commands -/

def Object.digest? : Object → Option DigestContext
  | hash context => some context
  | _ => none

namespace Session

def digest? (session : Session) (id : String) : Option DigestContext :=
  (session.slots.get? id).bind Object.digest?

def replyTo (session : Session) (command : HashCommand) : Except Refused Reply :=
  (session.run (.hash command)).value.1

def afterHash (session : Session) (command : HashCommand) : Session :=
  (session.run (.hash command)).value.2

def afterHashing (session : Session) (history : List HashCommand) : Session :=
  history.foldl afterHash session

variable {session : Session} {id : String} {context : DigestContext}

theorem value_findHash_of_some (hcontext : session.digest? id = some context) :
    ((findHash id).run.run session).value = (.ok context, session) :=
  value_find_of_some _ hcontext

theorem value_findHash_of_none (hmissing : session.digest? id = none) :
    ((findHash id).run.run session).value = (.error (.noObject id), session) :=
  value_find_of_none _ hmissing

theorem run_hash_of_missing {command : HashCommand} (hsource : command.source? = some id)
    (hmissing : session.digest? id = none) :
    (session.run (.hash command)).value = (.error (.noObject id), session) := by
  cases command with
  | new => cases hsource
  | update | finalize | clear | clone | info =>
    cases hsource
    exact value_bind_of_error (value_findHash_of_none hmissing)

theorem run_hash_update (hcontext : session.digest? id = some context) (data : Bytes) :
    (session.run (.hash (.update id data))).value =
      (.ok .done, session.store id (.hash (context.update data))) :=
  value_bind_of_ok (value_findHash_of_some hcontext)

theorem run_hash_finalize (hcontext : session.digest? id = some context) :
    (session.run (.hash (.finalize id))).value =
      (.ok (.bytes context.hasher.finish), session.store id (.hash context.clear)) :=
  value_bind_of_ok (value_findHash_of_some hcontext)

theorem run_hash_clear (hcontext : session.digest? id = some context) :
    (session.run (.hash (.clear id))).value =
      (.ok .done, session.store id (.hash context.clear)) :=
  value_bind_of_ok (value_findHash_of_some hcontext)

theorem run_hash_clone (hcontext : session.digest? id = some context) (target : String) :
    (session.run (.hash (.clone id target))).value =
      (.ok .done, session.put target (.hash context)) :=
  value_bind_of_ok (value_findHash_of_some hcontext)

theorem run_hash_info (hcontext : session.digest? id = some context) :
    (session.run (.hash (.info id))).value =
      (.ok (.hash context.feature.name none context.algorithm.digestLength), session) :=
  value_bind_of_ok (value_findHash_of_some hcontext)

/-! ## Messages and contexts in step -/

theorem digest?_store_self (session : Session) (id : String) (context : DigestContext) :
    (session.store id (.hash context)).digest? id = some context := by
  simp [digest?, store, Object.digest?]

theorem digest?_store_of_ne (session : Session) {id other : String} (hother : other ≠ id)
    (context : DigestContext) :
    (session.store id (.hash context)).digest? other = session.digest? other := by
  simp [digest?, store, Slots.get?_insert_of_ne _ hother]

/-- The contexts in slots are those of the messages. -/
def Tracks (session : Session) (messages : Messages) : Prop :=
  ∀ id, Option.Rel DigestContext.Reads (session.digest? id) (messages id)

variable {messages : Messages}

theorem Tracks.store (htracks : session.Tracks messages) {message : DigestMessage}
    (hreads : context.Reads message) (id : String) :
    (session.store id (.hash context)).Tracks (messages.set id (some message)) := by
  intro other
  by_cases hother : other = id
  · rw [hother, digest?_store_self, Messages.set_self]
    exact .some hreads
  · rw [digest?_store_of_ne session hother, messages.set_of_ne hother]
    exact htracks other

theorem Tracks.put (htracks : session.Tracks messages) {message : DigestMessage}
    (hreads : context.Reads message) (id : String) :
    (session.put id (.hash context)).Tracks (messages.set id (some message)) :=
  htracks.store hreads id

theorem tracks_empty (engine : Engine) : Tracks { engine } .empty := fun _ ↦ .none

theorem Tracks.missing_or_reads (htracks : session.Tracks messages) (id : String) :
    (session.digest? id = none ∧ messages id = none) ∨
      ∃ context message, session.digest? id = some context ∧ messages id = some message ∧
        context.Reads message := by
  have hslot := htracks id
  generalize session.digest? id = found at hslot ⊢
  generalize messages id = recorded at hslot ⊢
  cases hslot with
  | none => exact .inl ⟨rfl, rfl⟩
  | some hreads => exact .inr ⟨_, _, rfl, rfl, hreads⟩

/-- One command keeps the contexts and the messages in step. -/
theorem Tracks.afterHash (htracks : session.Tracks messages) (command : HashCommand) :
    (session.afterHash command).Tracks (messages.after command) := by
  unfold Session.afterHash
  -- Making a context is the one command that needs none; the others find theirs or do nothing.
  cases hsource : command.source? with
  | none =>
    cases command with
    | new id feature algorithm =>
      exact htracks.put (DigestContext.reads_new feature algorithm) id
    | _ => cases hsource
  | some id =>
    rcases htracks.missing_or_reads id with
      ⟨hcontext, hmessage⟩ | ⟨context, message, hcontext, hmessage, hreads⟩
    · rw [run_hash_of_missing hsource hcontext, Messages.after_of_missing hsource hmessage]
      exact htracks
    · cases command with
      | new => cases hsource
      | update _ data =>
        cases hsource
        rw [run_hash_update hcontext, Messages.after, hmessage]
        exact htracks.store (hreads.update data) id
      | finalize =>
        cases hsource
        rw [run_hash_finalize hcontext, Messages.after, hmessage]
        exact htracks.store hreads.clear id
      | clear =>
        cases hsource
        rw [run_hash_clear hcontext, Messages.after, hmessage]
        exact htracks.store hreads.clear id
      | clone _ target =>
        cases hsource
        rw [run_hash_clone hcontext, Messages.after, hmessage]
        exact htracks.put hreads target
      | info =>
        cases hsource
        rw [run_hash_info hcontext]
        exact htracks

theorem Tracks.afterHashing (htracks : session.Tracks messages) (history : List HashCommand) :
    (session.afterHashing history).Tracks (messages.afterAll history) := by
  induction history generalizing session messages with
  | nil => exact htracks
  | cons command history ih => exact ih (htracks.afterHash command)

/-! ## Digests -/

/-- The reply to reading a digest, for a message if there is one in the slot. -/
def digestReply (id : String) : Option DigestMessage → Except Refused Reply
  | some message => .ok (.bytes message.digest)
  | none => .error (.noObject id)

theorem Tracks.replyTo_finalize (htracks : session.Tracks messages) (id : String) :
    session.replyTo (.finalize id) = digestReply id (messages id) := by
  unfold replyTo
  rcases htracks.missing_or_reads id with
    ⟨hcontext, hmessage⟩ | ⟨context, message, hcontext, hmessage, hreads⟩
  · rw [run_hash_of_missing rfl hcontext, hmessage]
    rfl
  · rw [run_hash_finalize hcontext, hmessage, hreads.finish]
    rfl

/-- Clearing a context whose digest was just read changes nothing. -/
theorem afterHashing_finalize_clear (session : Session) (id : String) :
    session.afterHashing [.finalize id, .clear id] = session.afterHashing [.finalize id] := by
  change (session.afterHash (.finalize id)).afterHash (.clear id) = session.afterHash (.finalize id)
  cases hcontext : session.digest? id with
  | none =>
    have hkept : session.afterHash (.finalize id) = session :=
      congrArg Prod.snd (run_hash_of_missing rfl hcontext)
    rw [hkept]
    exact congrArg Prod.snd (run_hash_of_missing rfl hcontext)
  | some context =>
    have hread : session.afterHash (.finalize id) = session.store id (.hash context.clear) :=
      congrArg Prod.snd (run_hash_finalize hcontext)
    have hcleared : (session.store id (.hash context.clear)).digest? id = some context.clear :=
      session.digest?_store_self id context.clear
    rw [hread]
    calc
      _ = (session.store id (.hash context.clear)).store id (.hash context.clear.clear) :=
        congrArg Prod.snd (run_hash_clear hcleared)
      _ = session.store id (.hash context.clear) := by
        simp only [store, Slots.insert_insert]
        rfl

/-- How a slot answers for the message in it. -/
structure DigestsOf (session : Session) (id : String) (message? : Option DigestMessage) : Prop where
  digest : session.replyTo (.finalize id) = digestReply id message?
  length : ∀ message, message? = some message →
    message.digest.length = message.algorithm.digestLength
  /-- The cuts do not matter. -/
  pieces : ∀ pieces : List Bytes,
    (session.afterHashing (pieces.map (.update id))).replyTo (.finalize id) =
      digestReply id (message?.map (·.append pieces.flatten))
  again : (session.afterHash (.finalize id)).replyTo (.finalize id) =
    digestReply id (message?.map .next)
  clear : session.afterHashing [.finalize id, .clear id] = session.afterHashing [.finalize id]
  copy : ∀ target, message?.isSome = true →
    (session.afterHash (.clone id target)).replyTo (.finalize target) = digestReply target message?
  frame : ∀ command : HashCommand, command.target? ≠ some id →
    (session.afterHash command).replyTo (.finalize id) = session.replyTo (.finalize id)

theorem Tracks.digestsOf (htracks : session.Tracks messages) (id : String) :
    session.DigestsOf id (messages id) where
  digest := htracks.replyTo_finalize id
  length message _ := message.algorithm.length_digest message.bytes
  pieces pieces := by
    rw [(htracks.afterHashing _).replyTo_finalize, Messages.afterAll_updates]
  again := by
    rw [(htracks.afterHash _).replyTo_finalize, Messages.after, Messages.set_self]
  clear := session.afterHashing_finalize_clear id
  copy target hmessage := by
    obtain ⟨message, hmessage⟩ := Option.isSome_iff_exists.1 hmessage
    rw [(htracks.afterHash _).replyTo_finalize, Messages.after, hmessage]
    simp
  frame command htarget := by
    rw [(htracks.afterHash command).replyTo_finalize, htracks.replyTo_finalize,
      Messages.after_of_ne htarget]

/-- Whatever was done with digest contexts, each one digests what it was fed since its message
began. -/
theorem digestsOf_afterHashing (engine : Engine) (history : List HashCommand) (id : String) :
    (afterHashing { engine } history).DigestsOf id (Messages.empty.afterAll history id) :=
  ((tracks_empty engine).afterHashing history).digestsOf id

end Session

end StreamCrypto
