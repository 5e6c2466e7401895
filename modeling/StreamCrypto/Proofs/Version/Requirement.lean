import StreamCrypto.Proofs.Engine
import StreamCrypto.Proofs.Version.Order

/-!
# Requiring a version

Among the versions that can be read, meeting a requirement is the order of versions: reflexive,
transitive and total, and mutual exactly for versions that are the same up to zeros at the end.
What cannot be read meets nothing and is met by nothing. An engine whose version does not meet what
its first configuration requires says so, and starts all the same.
-/

namespace StreamCrypto

namespace Version

/-- The first text is a version above that of the second one. -/
def Above (first second : String) : Prop :=
  ∃ high low, Reads first high ∧ Reads second low ∧ rank low < rank high

theorem reads_engineVersion : Reads engineVersion [0, 3, 0] :=
  parse?_eq_some_iff.1 (by decide)

/-- A version that can be read is met unless the requirement is above it. -/
theorem satisfies_eq_false_iff {available required : String} (havailable : Readable available) :
    satisfies available required = false ↔ ¬ Readable required ∨ Above required available := by
  obtain ⟨present, hpresent⟩ := havailable
  constructor
  · intro h
    by_cases hrequired : Readable required
    · obtain ⟨wanted, hwanted⟩ := hrequired
      have hle := (satisfies_iff_rank hpresent hwanted).not
      rw [h] at hle
      exact .inr ⟨wanted, present, hwanted, hpresent, not_le.1 (hle.1 nofun)⟩
    · exact .inl hrequired
  · rintro (hunreadable | ⟨wanted, other, hwanted, hother, hlt⟩)
    · exact satisfies_of_unreadable (.inr hunreadable)
    · rw [hother.unique hpresent] at hlt
      rw [← Bool.not_eq_true, satisfies_iff_rank hpresent hwanted]
      exact not_le.2 hlt

end Version

open Version

/-- The first start of an engine: it is done in any case, and there is a warning exactly if the
required version cannot be read or is above that of the engine. -/
structure Engine.StartsAnyway (engine : Engine) (config : Config) : Prop where
  started : (engine.start config).value.1 = true ∧
    (engine.start config).value.2.initialized = true ∧
    Event.engineInitialized engineVersion config.poolBytes config.lockMemory ∈
      (engine.start config).events
  warned : Event.engineTooOld engineVersion config.requiredVersion ∈ (engine.start config).events ↔
    ¬ Readable config.requiredVersion ∨ Above config.requiredVersion engineVersion

theorem Engine.startsAnyway {engine : Engine} (hnew : engine.initialized = false)
    (config : Config) : engine.StartsAnyway config := by
  have hfirst : ¬ engine.initialized = true := by simp [hnew]
  constructor
  · rw [start_of_not_initialized hfirst]
    exact ⟨rfl, rfl, List.mem_append_right _ (List.mem_append_right _ List.mem_cons_self)⟩
  · rw [← satisfies_eq_false_iff ⟨_, reads_engineVersion⟩, start_of_not_initialized hfirst,
      events_installing, versionWarnings]
    cases satisfies engineVersion config.requiredVersion with
    | false => simp
    | true => cases engine.securePool <;> simp

/-- Meeting a required version is a sound order on versions, and decides about a warning only. -/
theorem requirements_ordered (first second third : String) :
    (¬ Readable first ∨ ¬ Readable second → satisfies first second = false) ∧
      (∀ left right, Reads first left → Reads second right →
        (satisfies first second = true ↔ rank right ≤ rank left) ∧
        (satisfies first second = true ∧ satisfies second first = true ↔
          EqualUpToZeros left right)) ∧
      (Readable first → satisfies first first = true) ∧
      (satisfies first second = true → satisfies second third = true →
        satisfies first third = true) ∧
      (Readable first → Readable second →
        satisfies first second = true ∨ satisfies second first = true) ∧
      ∀ (engine : Engine) (config : Config), engine.initialized = false →
        engine.StartsAnyway config := by
  refine ⟨satisfies_of_unreadable, ?_, satisfies_refl, satisfies_trans, satisfies_total, ?_⟩
  · intro left right hleft hright
    exact ⟨satisfies_iff_rank hleft hright, satisfies_both_iff hleft hright⟩
  · intro engine config hnew
    exact Engine.startsAnyway hnew config

/-- Ten is above nine, signs and blanks do not count, and an engine that is too old says so. -/
theorem requirements_ordered_ten_over_nine :
    rank [1, 9, 9] ≤ rank [1, 10] ∧ satisfies "1.10" "1. +9 .9.0" = true ∧
      (satisfies "1.9.9" "1. +9 .9.0" = true ∧ satisfies "1. +9 .9.0" "1.9.9" = true) ∧
      satisfies "1.x" "1.0" = false ∧
      Event.engineTooOld engineVersion "999.0.0" ∈
        (Engine.fresh.start (Config.standard.withRequiredVersion "999.0.0")).events := by
  have hten : Reads "1.10" [1, 10] := parse?_eq_some_iff.1 (by decide)
  have hnine : Reads "1.9.9" [1, 9, 9] := parse?_eq_some_iff.1 (by decide)
  have hzero : Reads "1. +9 .9.0" [1, 9, 9, 0] := parse?_eq_some_iff.1 (by decide)
  have hlarge : Reads "999.0.0" [999, 0, 0] := parse?_eq_some_iff.1 (by decide)
  have hletter : ¬ Readable "1.x" := parse?_eq_none_iff.1 (by decide)
  obtain ⟨-, hcompare, -, htrans, -, hstart⟩ := requirements_ordered "1.10" "1.9.9" "1. +9 .9.0"
  obtain ⟨hunreadable, -⟩ := requirements_ordered "1.x" "1.0" "1.0"
  have hmutual := (requirements_ordered "1.9.9" "1. +9 .9.0" "").2.1 _ _ hnine hzero
  have hboth := hmutual.2.2 ⟨1, 0, rfl⟩
  have hmet : satisfies "1.10" "1.9.9" = true := by decide
  have habove : Above "999.0.0" engineVersion :=
    ⟨_, _, hlarge, reads_engineVersion, rank_cons_lt_cons_iff.2 (.inl (by decide))⟩
  exact ⟨((hcompare _ _ hten hnine).1).1 hmet, htrans hmet hboth.1, hboth,
    hunreadable (.inl hletter), (hstart Engine.fresh _ rfl).warned.2 (.inr habove)⟩

end StreamCrypto
