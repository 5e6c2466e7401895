import StreamCrypto.Proofs.Cipher.Calls

/-!
# Setting up again leaves no residue

Two contexts with the same parameters may have been used in any way: keys that were accepted or
refused, partial blocks, endings that failed or had their failure dropped. Once neither is active,
setting them up alike gives the same result, and if it succeeds, it gives the same context up to
the feature (`setup_eq_of_parameters_eq`), which only shows in what is logged. So no later calls
can tell the two apart. One of them may be a context that has just been made.
-/

namespace StreamCrypto.CipherContext

/-! ## Runs under another name -/

theorem answer_turn_relabel (context : CipherContext) (feature : Feature) (call : CipherCall) :
    ((context.relabel feature context.policy).turn call).answer = (context.turn call).answer := by
  cases call with
  | setup direction key iv =>
    have hvalue := context.value_setup_relabel feature context.policy direction key iv
    exact congrArg (fun value ↦ CipherAnswer.ready value.1) hvalue
  | update input =>
    have hvalue := context.update_relabel feature context.policy input
    exact congrArg (fun value ↦ CipherAnswer.output value.1) hvalue
  | finalize =>
    rcases context.misuse_or_active with ⟨error, hmisuse⟩ | ⟨stream, hactive⟩
    · have hother : (context.relabel feature context.policy).misuse? = some error := hmisuse
      simp only [turn, finalize_of_misuse hother, finalize_of_misuse hmisuse]
    · have hother : (context.relabel feature context.policy).lifecycle = .active stream := hactive
      -- The feature is read for the event alone.
      have hreport (result : Except Error Bytes) :
          ((context.relabel feature context.policy).report result).value =
            (context.report result).value := by
        cases hpolicy : context.policy with
        | strict => rw [report_strict hpolicy, report_strict rfl]
        | logAndContinue =>
          cases result with
          | ok out => rfl
          | error error => rw [report_lenient hpolicy, report_lenient rfl]
      simp only [turn, finalize_of_active hother, finalize_of_active hactive, hreport]
      rfl

theorem observation_turn_relabel (context : CipherContext) (feature : Feature)
    (call : CipherCall) :
    ((context.relabel feature context.policy).turn call).observation =
      (context.turn call).observation := by
  simp only [CipherTurn.observation, answer_turn_relabel, after_turn_relabel]
  rfl

/-- A run under another name looks the same. -/
theorem observations_relabel (context : CipherContext) (feature : Feature)
    (calls : List CipherCall) :
    ((context.relabel feature context.policy).turns calls).map CipherTurn.observation =
      (context.turns calls).map CipherTurn.observation := by
  induction calls generalizing context with
  | nil => rfl
  | cons call calls ih =>
    have hpolicy : (context.turn call).after.policy = context.policy :=
      congrArg CipherParameters.policy (context.parameters_turn call)
    have hrest := ih (context.turn call).after
    rw [hpolicy] at hrest
    simp only [turns, List.map_cons, observation_turn_relabel, after_turn_relabel, hrest]

/-! ## Setting up alike -/

variable {first second : CipherContext}

/-- The result and the context after success are those of the parameters, up to the name. -/
theorem setup_eq_of_parameters_eq (hparameters : first.parameters = second.parameters)
    (hfirst : first.isActive = false) (hsecond : second.isActive = false)
    (direction : Direction) (key iv : Bytes) :
    (second.setup direction key iv).value.1 = (first.setup direction key iv).value.1 ∧
      ((first.setup direction key iv).value.1 = .ok () →
        (second.setup direction key iv).value.2 =
          (first.setup direction key iv).value.2.relabel second.feature first.policy) := by
  obtain ⟨feature, algorithm, mode, padding, policy, weakKey, lifecycle⟩ := second
  cases hparameters
  have hsetup := first.setup_setsUp direction key iv
  generalize first.setup direction key iv = outcome at hsetup ⊢
  cases hsetup with
  | active hactive =>
    rw [hfirst] at hactive
    cases hactive
  | keyRejected _ hkey =>
    rw [setup_of_key_rejected hsecond hkey]
    exact ⟨rfl, nofun⟩
  | ivRejected _ hkey hiv =>
    rw [setup_of_iv_rejected hsecond hkey hiv]
    exact ⟨rfl, nofun⟩
  | accepted _ hkey hiv =>
    rw [setup_of_accepted hsecond hkey hiv]
    exact ⟨rfl, fun _ ↦ rfl⟩

/-- Contexts that are not active and set up alike cannot be told apart, whatever was done with
them before. -/
theorem observations_eq_of_rekeyed {first second : CipherContext}
    (hparameters : first.parameters = second.parameters)
    (firstHistory secondHistory : List CipherCall)
    (hfirst : (first.afterCalls firstHistory).isActive = false)
    (hsecond : (second.afterCalls secondHistory).isActive = false)
    (direction : Direction) (key iv : Bytes) :
    ((first.afterCalls firstHistory).turn (.setup direction key iv)).answer =
        ((second.afterCalls secondHistory).turn (.setup direction key iv)).answer ∧
      (((first.afterCalls firstHistory).turn (.setup direction key iv)).answer = .ready (.ok ()) →
        ∀ calls,
          ((first.afterCalls firstHistory).turns (.setup direction key iv :: calls)).map
              CipherTurn.observation =
            ((second.afterCalls secondHistory).turns (.setup direction key iv :: calls)).map
              CipherTurn.observation) := by
  have hsame : (first.afterCalls firstHistory).parameters =
      (second.afterCalls secondHistory).parameters := by
    calc
      _ = first.parameters := parameters_afterCalls first firstHistory
      _ = second.parameters := hparameters
      _ = _ := (parameters_afterCalls second secondHistory).symm
  generalize first.afterCalls firstHistory = left at hfirst hsame ⊢
  generalize second.afterCalls secondHistory = right at hsecond hsame ⊢
  obtain ⟨hresult, hafter⟩ := setup_eq_of_parameters_eq hsame hfirst hsecond direction key iv
  have hanswer : (left.turn (.setup direction key iv)).answer =
      (right.turn (.setup direction key iv)).answer := congrArg CipherAnswer.ready hresult.symm
  refine ⟨hanswer, ?_⟩
  intro hready calls
  have hsucceeds : (left.setup direction key iv).value.1 = .ok () := by
    injection hready
  have hpolicy : (left.turn (.setup direction key iv)).after.policy = left.policy :=
    congrArg CipherParameters.policy (left.parameters_turn (.setup direction key iv))
  have hright : (right.turn (.setup direction key iv)).after =
      (left.turn (.setup direction key iv)).after.relabel right.feature
        (left.turn (.setup direction key iv)).after.policy := by
    rw [hpolicy]
    exact hafter hsucceeds
  simp only [turns, List.map_cons, hright, observations_relabel]
  congr 1
  unfold CipherTurn.observation
  rw [hanswer, hright]
  rfl

/-- A context that has dropped a failure over four stray bytes starts the next stream like one
that has just been made. -/
theorem observations_eq_of_rekeyed_aes128_cbc_twenty_bytes :
    let unused := (new .aes128Cbc .aes128 .cbc false).withPolicy .logAndContinue
    let used := unused.afterCalls
      [.setup .encode (List.replicate 16 1) (List.replicate 16 2), .update (List.replicate 20 3),
        .finalize]
    used.isActive = false ∧ unused.isActive = false ∧
      ∀ calls,
        (used.turns (.setup .decode (List.replicate 16 7) (List.replicate 16 9) :: calls)).map
            CipherTurn.observation =
          (unused.turns (.setup .decode (List.replicate 16 7) (List.replicate 16 9) :: calls)).map
            CipherTurn.observation := by
  have hrekeyed := @observations_eq_of_rekeyed
    ((new .aes128Cbc .aes128 .cbc false).withPolicy .logAndContinue)
    ((new .aes128Cbc .aes128 .cbc false).withPolicy .logAndContinue) rfl
    [.setup .encode (List.replicate 16 1) (List.replicate 16 2), .update (List.replicate 20 3),
      .finalize] [] rfl rfl .decode (List.replicate 16 7) (List.replicate 16 9)
  exact ⟨rfl, rfl, hrekeyed.2 rfl⟩

end StreamCrypto.CipherContext
