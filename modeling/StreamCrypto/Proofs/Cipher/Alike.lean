import StreamCrypto.Proofs.Alike
import StreamCrypto.Proofs.Cipher.Arrays

/-!
# Contexts that differ in secret bytes only

Two contexts are alike if all that tells them apart is the bytes of their keys, of their
initialization vectors and of what they were fed, and not how many there are. Calls with keys, data
and so on of equal lengths answer, log and leave alike (`setupWith_agrees`, `updateWith_agrees`,
`finalizeWith_agrees`), apart from two verdicts that do look at bytes: whether a key is weak, and
whether a padding is valid. This takes in what is traced of the arrays that are made on the way: a
padding is removed from an array only once the array has been made for the whole block.
-/

namespace StreamCrypto

namespace CipherContext

/-! ## Streams -/

/-- The transform of a stream takes what its context hands over, and gives as much back. What is
pending for encryption leaves room for padding. -/
structure Fits (algorithm : CipherAlgorithm) (mode : Mode) (stream : CipherStream) : Prop where
  sound : stream.transform.Sound
  takes : ∀ data : Bytes, mode.isStream = true ∨ algorithm.blockSize ∣ data.length →
    stream.transform.Takes data
  room : stream.direction = .encode → stream.pending.length < algorithm.blockSize

variable {context : CipherContext} {stream : CipherStream}

theorem fits_startStream (context : CipherContext) (direction : Direction) (key : Bytes)
    {iv : Bytes} (hiv : context.mode.usesIv = true → iv.length = context.blockSize) :
    Fits context.algorithm context.mode (context.startStream direction key iv) where
  sound := sound_startTransform direction key hiv
  takes data := (takes_startTransform_iff context direction key iv data).2
  room _ := context.blockSize_pos

theorem whole_of_length {data : Bytes} (hlength : data.length = context.blockSize) :
    context.Whole data := by
  refine .inr ⟨1, ?_⟩
  rw [hlength, Nat.mul_one]

/-- The data that a stream hands over next in a block mode. -/
def handed (context : CipherContext) (stream : CipherStream) (input : Bytes) : Bytes :=
  (stream.pending ++ input).take ((stream.pending ++ input).length -
    context.heldLength stream.direction (stream.pending ++ input).length)

theorem length_handed (context : CipherContext) (stream : CipherStream) (input : Bytes) :
    (context.handed stream input).length = stream.pending.length + input.length -
      context.heldLength stream.direction (stream.pending.length + input.length) := by
  rw [handed, List.length_take, List.length_append]
  exact Nat.min_eq_left (Nat.sub_le _ _)

theorem whole_handed (context : CipherContext) (stream : CipherStream) (input : Bytes) :
    context.Whole (context.handed stream input) := by
  refine .inr ?_
  rw [length_handed]
  exact context.dvd_sub_heldLength stream.direction _

theorem advance_of_isStream (hmode : context.mode.isStream = true) (input : Bytes) :
    context.advance stream input = ((stream.transform.apply input).1,
      { stream with transform := (stream.transform.apply input).2 }) := by
  simp only [advance, hmode, if_true]

theorem advance_of_blocks (hmode : context.mode.isStream = false) (input : Bytes) :
    context.advance stream input = ((stream.transform.apply (context.handed stream input)).1,
      { stream with
        transform := (stream.transform.apply (context.handed stream input)).2
        pending := (stream.pending ++ input).drop ((stream.pending ++ input).length -
          context.heldLength stream.direction (stream.pending ++ input).length) }) := by
  simp only [advance, hmode, Bool.false_eq_true, if_false, handed]

/-- Taking data leaves a transform that fits as before. -/
theorem Fits.apply (hfits : Fits context.algorithm context.mode stream) {data : Bytes}
    (hwhole : context.Whole data) {pending : Bytes}
    (hroom : stream.direction = .encode → pending.length < context.blockSize) :
    Fits context.algorithm context.mode
      { stream with transform := (stream.transform.apply data).2, pending } where
  sound := Transform.sound_apply hfits.sound (hfits.takes data hwhole)
  takes other hother :=
    (stream.transform.takes_apply_iff data other).2 (hfits.takes other hother)
  room := hroom

/-- Encryption keeps less than a block. -/
theorem heldLength_encode_lt (context : CipherContext) (total : Nat) :
    context.heldLength .encode total < context.blockSize := by
  have hpasses : ¬ context.Withholds .encode := fun hholds ↦ nomatch hholds.1
  rw [heldLength_of_not_withholds hpasses]
  exact Nat.mod_lt _ context.blockSize_pos

theorem Fits.advance (hfits : Fits context.algorithm context.mode stream) (input : Bytes) :
    Fits context.algorithm context.mode (context.advance stream input).2 := by
  cases hmode : context.mode.isStream with
  | true =>
    rw [advance_of_isStream hmode]
    exact hfits.apply (.inl hmode) hfits.room
  | false =>
    rw [advance_of_blocks hmode]
    refine hfits.apply (context.whole_handed stream input) ?_
    intro hencode
    have hle := context.heldLength_le stream.direction (stream.pending ++ input).length
    rw [List.length_drop, Nat.sub_sub_self hle, hencode]
    exact context.heldLength_encode_lt _

theorem Fits.length_apply (hfits : Fits context.algorithm context.mode stream) {data : Bytes}
    (hwhole : context.Whole data) : (stream.transform.apply data).1.length = data.length :=
  Transform.length_apply hfits.sound (hfits.takes data hwhole)

/-- Streams that differ in secret bytes only. -/
structure StreamsAlike (algorithm : CipherAlgorithm) (mode : Mode) (first second : CipherStream) :
    Prop where
  direction : first.direction = second.direction
  pending : first.pending.length = second.pending.length
  key : first.key.length = second.key.length
  iv : first.iv.length = second.iv.length
  first : Fits algorithm mode first
  second : Fits algorithm mode second

variable {first second : CipherStream}

/-- Of data of equal length, alike streams return as much and stay alike. -/
theorem StreamsAlike.advance (halike : StreamsAlike context.algorithm context.mode first second)
    {input other : Bytes} (hinput : input.length = other.length) :
    (context.advance first input).1.length = (context.advance second other).1.length ∧
      StreamsAlike context.algorithm context.mode (context.advance first input).2
        (context.advance second other).2 := by
  have hfirst := halike.first.advance input
  have hsecond := halike.second.advance other
  cases hmode : context.mode.isStream with
  | true =>
    rw [advance_of_isStream hmode] at hfirst hsecond ⊢
    rw [advance_of_isStream hmode]
    refine ⟨?_, halike.direction, halike.pending, halike.key, halike.iv, hfirst, hsecond⟩
    rw [halike.first.length_apply (.inl hmode), halike.second.length_apply (.inl hmode), hinput]
  | false =>
    rw [advance_of_blocks hmode] at hfirst hsecond ⊢
    rw [advance_of_blocks hmode]
    refine ⟨?_, halike.direction, ?_, halike.key, halike.iv, hfirst, hsecond⟩
    · rw [halike.first.length_apply (context.whole_handed first input),
        halike.second.length_apply (context.whole_handed second other), length_handed,
        length_handed, halike.pending, halike.direction, hinput]
    · simp only [List.length_drop, List.length_append, halike.pending, halike.direction, hinput]

/-! ## The end of a stream -/

/-- Whether the padding at the end of a stream is valid, where that is asked: a stream of padded
ciphertext of whole blocks. -/
def streamVerdict? (context : CipherContext) (stream : CipherStream) : Option Bool :=
  if context.mode.isStream = false ∧ context.padding = true ∧ stream.direction = .decode ∧
      stream.pending.length = context.blockSize then
    some (Padding.contentLength? (stream.transform.apply stream.pending).1).isSome
  else none

/-- Outputs of one length, unless their lengths are not to be compared. -/
def LengthsAlike (compared : Prop) (first second : Bytes) : Prop :=
  compared → first.length = second.length

theorem streamVerdict?_of_block (hmode : context.mode.isStream = false)
    (hpadding : context.padding = true) (hdecode : stream.direction = .decode)
    (hblock : stream.pending.length = context.blockSize) :
    context.streamVerdict? stream =
      some (Padding.contentLength? (stream.transform.apply stream.pending).1).isSome :=
  if_pos ⟨hmode, hpadding, hdecode, hblock⟩

/-- Padded ciphertext: alike streams wait for the same block, and the verdict on it is given. -/
theorem StreamsAlike.lastOutput_decode
    (halike : StreamsAlike context.algorithm context.mode first second)
    (hverdict : context.streamVerdict? first = context.streamVerdict? second)
    (hmode : context.mode.isStream = false) (hpadding : context.padding = true)
    (hfirst : first.direction = .decode) (hsecond : second.direction = .decode) :
    ResultsAlike (LengthsAlike (context.streamVerdict? first = none)) (context.lastOutput first)
      (context.lastOutput second) := by
  rw [lastOutput_decode_eq hmode hpadding hfirst, lastOutput_decode_eq hmode hpadding hsecond,
    halike.pending]
  split
  · rfl
  split
  · rfl
  next hblock =>
    have hblock := Decidable.not_not.1 hblock
    rw [streamVerdict?_of_block hmode hpadding hfirst (halike.pending.trans hblock),
      streamVerdict?_of_block hmode hpadding hsecond hblock, Option.some.injEq] at hverdict
    rw [streamVerdict?_of_block hmode hpadding hfirst (halike.pending.trans hblock)]
    cases hone : Padding.contentLength? (first.transform.apply first.pending).1 with
    | none =>
      cases hother : Padding.contentLength? (second.transform.apply second.pending).1 with
      | none => rfl
      | some length =>
        rw [hone, hother] at hverdict
        cases hverdict
    | some length =>
      cases hother : Padding.contentLength? (second.transform.apply second.pending).1 with
      | none =>
        rw [hone, hother] at hverdict
        cases hverdict
      | some length => exact nofun

theorem StreamsAlike.lastOutput
    (halike : StreamsAlike context.algorithm context.mode first second)
    (hverdict : context.streamVerdict? first = context.streamVerdict? second) :
    ResultsAlike (LengthsAlike (context.streamVerdict? first = none)) (context.lastOutput first)
      (context.lastOutput second) := by
  cases hmode : context.mode.isStream with
  | true =>
    have hempty (stream : CipherStream) : context.lastOutput stream = .ok [] := if_pos hmode
    rw [hempty, hempty]
    exact fun _ ↦ rfl
  | false =>
    cases hpadding : context.padding with
    | false =>
      rw [lastOutput_unpadded_eq hmode hpadding, lastOutput_unpadded_eq hmode hpadding,
        halike.pending]
      split
      · exact fun _ ↦ rfl
      · rfl
    | true =>
      have hdirection := halike.direction
      cases hfirst : first.direction with
      | encode =>
        have hsecond := hdirection.symm.trans hfirst
        have hpad {stream : CipherStream} (hfits : Fits context.algorithm context.mode stream)
            (hencode : stream.direction = .encode) :
            (Padding.pad context.blockSize stream.pending).length = context.blockSize :=
          Padding.length_pad (Nat.le_of_lt (hfits.room hencode))
        have hone := hpad halike.first hfirst
        have hother := hpad halike.second hsecond
        rw [lastOutput_encode_eq hmode hpadding hfirst,
          lastOutput_encode_eq hmode hpadding hsecond]
        intro _
        rw [halike.first.length_apply (whole_of_length hone),
          halike.second.length_apply (whole_of_length hother), hone, hother]
      | decode =>
        exact halike.lastOutput_decode hverdict hmode hpadding hfirst
          (hdirection.symm.trans hfirst)

/-- The array for a last block is made before anything is known of the padding. -/
theorem StreamsAlike.lastLength
    (halike : StreamsAlike context.algorithm context.mode first second) :
    context.lastLength first = context.lastLength second := by
  rw [CipherContext.lastLength, CipherContext.lastLength, halike.direction, halike.pending]

/-! ## Contexts -/

/-- Lifecycles that differ in secret bytes only. -/
inductive LifecyclesAlike (algorithm : CipherAlgorithm) (mode : Mode) :
    Lifecycle → Lifecycle → Prop
  | unkeyed : LifecyclesAlike algorithm mode .unkeyed .unkeyed
  | active {first second : CipherStream} (halike : StreamsAlike algorithm mode first second) :
    LifecyclesAlike algorithm mode (.active first) (.active second)
  | finished : LifecyclesAlike algorithm mode .finished .finished

/-- Contexts that differ in secret bytes only. -/
def Alike (first second : CipherContext) : Prop :=
  ∃ lifecycle, second = { first with lifecycle } ∧
    LifecyclesAlike first.algorithm first.mode first.lifecycle lifecycle

/-- The verdict at the end of the stream of a context, if there is one. -/
def paddingVerdict? (context : CipherContext) : Option Bool :=
  context.stream?.bind context.streamVerdict?

/-- A result and the context after it. -/
def TurnsAlike {α : Type} (Values : α → α → Prop)
    (one other : Except Error α × CipherContext) : Prop :=
  ResultsAlike Values one.1 other.1 ∧ one.2.Alike other.2

theorem alike_new (feature : Feature) (algorithm : CipherAlgorithm) (mode : Mode)
    (padding : Bool) (policy : FailurePolicy) :
    ((new feature algorithm mode padding).withPolicy policy).Alike
      ((new feature algorithm mode padding).withPolicy policy) :=
  ⟨.unkeyed, rfl, .unkeyed⟩

theorem alike_started (context : CipherContext) (lifecycle : Lifecycle) (direction : Direction)
    {key other iv iv' : Bytes} (hkey : key.length = other.length) (hiv : iv.length = iv'.length)
    (hweak : context.algorithm.isWeakKey key = context.algorithm.isWeakKey other)
    (hfits : context.mode.usesIv = true → iv.length = context.blockSize) :
    (context.started direction key iv).Alike
      (CipherContext.started { context with lifecycle } direction other iv') := by
  have hfirst := fits_startStream context direction key hfits
  have hsecond := fits_startStream context direction other fun h ↦ hiv.symm.trans (hfits h)
  refine ⟨.active (context.startStream direction other iv'), ?_,
    .active ⟨rfl, rfl, hkey, hiv, hfirst, hsecond⟩⟩
  rw [started, started, ← hweak]
  rfl

section Calls

variable {first second : CipherContext} (halike : first.Alike second)

include halike

/-- Both contexts are without a stream for one reason, or both have one. -/
theorem Alike.misuse_or_active :
    (∃ error, first.misuse? = some error ∧ second.misuse? = some error) ∨
      ∃ stream other, first.lifecycle = .active stream ∧ second.lifecycle = .active other ∧
        StreamsAlike first.algorithm first.mode stream other := by
  obtain ⟨lifecycle, rfl, hlifecycle⟩ := halike
  unfold misuse?
  generalize first.lifecycle = before at hlifecycle ⊢
  cases hlifecycle with
  | unkeyed => exact .inl ⟨.notKeyed, rfl, rfl⟩
  | finished => exact .inl ⟨.finished, rfl, rfl⟩
  | active hstreams => exact .inr ⟨_, _, rfl, rfl, hstreams⟩

theorem Alike.isActive : second.isActive = first.isActive := by
  rcases halike.misuse_or_active with ⟨error, hfirst, hsecond⟩ | ⟨stream, other, hfirst, hsecond, -⟩
  · rw [isActive_of_misuse hfirst, isActive_of_misuse hsecond]
  · simp only [CipherContext.isActive, stream?, hfirst, hsecond, Option.isSome]

theorem setup_agrees (direction : Direction) {key other iv iv' : Bytes}
    (hkey : key.length = other.length) (hiv : iv.length = iv'.length)
    (hweak : first.algorithm.isWeakKey key = second.algorithm.isWeakKey other) :
    Logged.Agrees (TurnsAlike Eq) (first.setup direction key iv)
      (second.setup direction other iv') := by
  have hactive := halike.isActive
  obtain ⟨lifecycle, rfl, hlifecycle⟩ := halike
  have hevents : CipherContext.weakKeyEvents { first with lifecycle } other =
      first.weakKeyEvents key := by
    simp only [weakKeyEvents, hweak]
  have hsetup := first.setup_setsUp direction key iv
  generalize first.setup direction key iv = outcome at hsetup ⊢
  cases hsetup with
  | active h =>
    rw [setup_of_active (hactive.trans h)]
    exact ⟨rfl, rfl, lifecycle, rfl, hlifecycle⟩
  | keyRejected hidle hrejected =>
    rw [hkey] at hrejected ⊢
    rw [setup_of_key_rejected (hactive.trans hidle) hrejected]
    exact ⟨rfl, rfl, lifecycle, rfl, hlifecycle⟩
  | ivRejected hidle haccepted hrejected =>
    rw [hkey] at haccepted
    rw [hiv] at hrejected ⊢
    rw [setup_of_iv_rejected (hactive.trans hidle) haccepted hrejected, hevents]
    refine ⟨rfl, rfl, lifecycle, ?_, hlifecycle⟩
    rw [noting, noting, hweak]
  | accepted hidle haccepted hfits =>
    have hother : first.mode.usesIv = true → iv'.length = first.blockSize :=
      fun h ↦ hiv.symm.trans (hfits h)
    rw [hkey] at haccepted
    rw [setup_of_accepted (hactive.trans hidle) haccepted hother, hevents]
    exact ⟨rfl, rfl, first.alike_started lifecycle direction hkey hiv hweak hfits⟩

theorem setupWith_agrees (locking : Locking) (direction : Direction) {key other iv iv' : Bytes}
    (hkey : key.length = other.length) (hiv : iv.length = iv'.length)
    (hweak : first.algorithm.isWeakKey key = second.algorithm.isWeakKey other) :
    Logged.Agrees (TurnsAlike Eq) (first.setupWith locking direction key iv)
      (second.setupWith locking direction other iv') := by
  obtain ⟨hevents, hresult, hafter⟩ := setup_agrees halike direction hkey hiv hweak
  obtain ⟨lifecycle, rfl, -⟩ := halike
  have hwarnings : CipherContext.weakKeyEvents { first with lifecycle } other =
      first.weakKeyEvents key := by
    simp only [weakKeyEvents, hweak]
  rw [setupWith_eq, setupWith_eq, hwarnings, hkey, hiv]
  refine ⟨?_, hresult, hafter⟩
  generalize (first.setup direction key iv).value.1 = one at hresult ⊢
  generalize (CipherContext.setup { first with lifecycle } direction other iv').value.1 = two
    at hresult ⊢
  cases one with
  | ok done =>
    cases two with
    | ok done' => rfl
    | error error => cases hresult
  | error error =>
    cases two with
    | ok done => cases hresult
    | error error' => exact hevents

theorem update_agrees {input other : Bytes} (hinput : input.length = other.length) :
    TurnsAlike (fun one two ↦ one.length = two.length) (first.update input)
      (second.update other) := by
  rcases halike.misuse_or_active with ⟨error, hfirst, hsecond⟩ |
    ⟨stream, stream', hfirst, hsecond, hstreams⟩
  · rw [update_of_misuse hfirst, update_of_misuse hsecond]
    exact ⟨rfl, halike⟩
  · rw [update_of_active hfirst, update_of_active hsecond]
    obtain ⟨hlength, hnext⟩ := hstreams.advance hinput
    obtain ⟨lifecycle, rfl, -⟩ := halike
    exact ⟨hlength, _, rfl, .active hnext⟩

theorem updateWith_agrees (locking : Locking) {input other : Bytes}
    (hinput : input.length = other.length) :
    Logged.Agrees (TurnsAlike SecureArray.Alike) (first.updateWith locking input)
      (second.updateWith locking other) := by
  have hturns := update_agrees halike hinput
  unfold updateWith
  generalize first.update input = one at hturns ⊢
  generalize second.update other = two at hturns ⊢
  obtain ⟨result, after⟩ := one
  obtain ⟨result', after'⟩ := two
  obtain ⟨hresults, hafter⟩ := hturns
  cases result with
  | ok out =>
    cases result' with
    | ok out' =>
      exact Logged.agrees_bind (SecureArray.ofBytes_agrees hresults locking)
        fun _ _ harrays ↦ Logged.agrees_pure ⟨harrays, hafter⟩
    | error error => cases hresults
  | error error =>
    cases result' with
    | ok out => cases hresults
    | error error' => exact Logged.agrees_pure ⟨hresults, hafter⟩

end Calls

theorem report_agrees (context : CipherContext) {compared : Prop}
    {one other : Except Error Bytes} (hresults : ResultsAlike (LengthsAlike compared) one other) :
    Logged.Agrees (ResultsAlike (LengthsAlike compared)) (context.report one)
      (context.report other) := by
  cases one with
  | ok out =>
    cases other with
    | ok out' => exact ⟨rfl, hresults⟩
    | error error => cases hresults
  | error error =>
    cases other with
    | ok out' => cases hresults
    | error error' =>
      cases hresults
      refine ⟨rfl, ?_⟩
      cases hpolicy : context.policy with
      | strict =>
        rw [report_strict hpolicy]
        rfl
      | logAndContinue =>
        rw [report_lenient hpolicy]
        exact fun _ ↦ rfl

/-- Outputs in arrays that tell them apart by their bytes only, unless their lengths are not to be
compared. -/
def ArraysAlike (compared : Prop) (first second : SecureArray) : Prop :=
  compared → first.Alike second

theorem arraysAlike_map {compared : Prop} {one other : Except Error Bytes}
    (hresults : ResultsAlike (LengthsAlike compared) one other) {locked locked' : Bool}
    (hlocked : locked = locked') :
    ResultsAlike (ArraysAlike compared) (one.map fun bytes ↦ { bytes, locked })
      (other.map fun bytes ↦ { bytes, locked := locked' }) := by
  cases one with
  | ok out =>
    cases other with
    | ok out' => exact fun hcompared ↦ ⟨hresults hcompared, rfl, hlocked⟩
    | error error => cases hresults
  | error error =>
    cases other with
    | ok out => cases hresults
    | error error' => exact hresults

theorem finalizeWith_agrees {first second : CipherContext} (halike : first.Alike second)
    (hverdict : first.paddingVerdict? = second.paddingVerdict?) (locking : Locking) :
    Logged.Agrees (TurnsAlike (ArraysAlike (first.paddingVerdict? = none)))
      (first.finalizeWith locking) (second.finalizeWith locking) := by
  rcases halike.misuse_or_active with ⟨error, hfirst, hsecond⟩ |
    ⟨stream, stream', hfirst, hsecond, hstreams⟩
  · rw [finalizeWith_of_misuse hfirst, finalizeWith_of_misuse hsecond]
    exact ⟨rfl, rfl, halike⟩
  · rw [finalizeWith_of_active hfirst, finalizeWith_of_active hsecond]
    have hone : first.paddingVerdict? = first.streamVerdict? stream := by
      rw [paddingVerdict?, stream?, hfirst, Option.bind_some]
    have hother : second.paddingVerdict? = second.streamVerdict? stream' := by
      rw [paddingVerdict?, stream?, hsecond, Option.bind_some]
    rw [hone, hother] at hverdict
    rw [hone]
    obtain ⟨lifecycle, rfl, -⟩ := halike
    have hlast := hstreams.lastOutput hverdict
    obtain ⟨hevents, hreport⟩ := first.report_agrees hlast
    refine ⟨?_, ?_, .finished, rfl, .finished⟩
    · exact congrArg₂ (· ++ ·)
        (congrArg (fun length ↦ (locking.lock length).events) hstreams.lastLength) hevents
    · refine arraysAlike_map hreport (congrArg₂ (· && ·) ?_ hlast.toBool)
      exact congrArg (fun length ↦ (locking.lock length).value) hstreams.lastLength

end CipherContext

end StreamCrypto
