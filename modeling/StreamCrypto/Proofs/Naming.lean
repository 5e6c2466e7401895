import Mathlib.Data.List.Nodup
import StreamCrypto.Feature

/-!
# What names say

The name of a feature spells its parameters: the digest, the cipher with its mode and its padding,
or the digest that keys are derived with (`written_algorithm`). No two choices of parameters are
spelled alike (`written_injective`), so a name that is known stands for the parameters that it
spells, and for no others. Most names that can be spelled are not known.
-/

namespace StreamCrypto

namespace Algorithm

/-- How the parameters are spelled as the name of a feature. -/
def written : Algorithm → String
  | hash algorithm => algorithm.name
  | cipher algorithm mode padding =>
    algorithm.name ++ "-" ++ mode.name ++ if padding = true then "-pkcs7" else ""
  | kdf algorithm => "pbkdf2(" ++ algorithm.name ++ ")"

def all : List Algorithm :=
  HashAlgorithm.all.map hash ++
    (CipherAlgorithm.all.flatMap fun algorithm ↦
      Mode.all.flatMap fun mode ↦ [cipher algorithm mode false, cipher algorithm mode true]) ++
    HashAlgorithm.all.map kdf

theorem mem_all (algorithm : Algorithm) : algorithm ∈ all := by
  cases algorithm with
  | hash algorithm => cases algorithm <;> decide
  | cipher algorithm mode padding => cases algorithm <;> cases mode <;> cases padding <;> decide
  | kdf algorithm => cases algorithm <;> decide

theorem nodup_written : (all.map written).Nodup := by decide

/-- A name spells one choice of parameters at most. -/
theorem written_injective : Function.Injective written :=
  fun first second hwritten ↦
    List.inj_on_of_nodup_map nodup_written (mem_all first) (mem_all second) hwritten

end Algorithm

namespace Feature

theorem written_algorithm (feature : Feature) : feature.algorithm.written = feature.name := by
  cases feature <;> decide

theorem mem_all (feature : Feature) : feature ∈ all := by
  cases feature <;> decide

theorem nodup_names : names.Nodup := by decide

theorem mem_names (feature : Feature) : feature.name ∈ names :=
  List.mem_map_of_mem feature.mem_all

theorem name_injective : Function.Injective name :=
  fun first second hname ↦
    List.inj_on_of_nodup_map nodup_names first.mem_all second.mem_all hname

/-- Features that share their parameters share their names. -/
theorem algorithm_injective : Function.Injective algorithm := by
  intro first second halgorithm
  apply name_injective
  calc
    _ = first.algorithm.written := first.written_algorithm.symm
    _ = second.algorithm.written := by rw [halgorithm]
    _ = _ := second.written_algorithm

variable {name : String} {feature : Feature}

theorem ofName?_eq_some_iff : ofName? name = some feature ↔ feature.name = name := by
  have hsound {found : Feature} (hfound : ofName? name = some found) : found.name = name := by
    unfold ofName? at hfound
    have hsame := List.find?_some hfound
    exact beq_iff_eq.1 hsame
  constructor
  · exact hsound
  · intro hname
    cases hfound : ofName? name with
    | some found => rw [name_injective ((hsound hfound).trans hname.symm)]
    | none =>
      have hother := List.find?_eq_none.1 hfound feature feature.mem_all
      exact absurd (beq_iff_eq.2 hname) hother

theorem ofName?_eq_none_iff : ofName? name = none ↔ name ∉ names := by
  constructor
  · rintro hnone hlisted
    obtain ⟨feature, -, hname⟩ := List.mem_map.1 hlisted
    rw [ofName?_eq_some_iff.2 hname] at hnone
    cases hnone
  · intro hmissing
    cases hfound : ofName? name with
    | none => rfl
    | some feature => exact absurd (ofName?_eq_some_iff.1 hfound ▸ feature.mem_names) hmissing

/-- A name that spells the derivation of keys with another digest. -/
example : ofName? (Algorithm.kdf .sha256).written = none := by decide

theorem count_names (hfound : ofName? name = some feature) : names.count name = 1 :=
  List.count_eq_one_of_mem nodup_names (ofName?_eq_some_iff.1 hfound ▸ feature.mem_names)

/-- A known name stands for exactly the parameters that it spells. -/
theorem written_eq_iff (hfound : ofName? name = some feature) (algorithm : Algorithm) :
    algorithm.written = name ↔ algorithm = feature.algorithm := by
  rw [← ofName?_eq_some_iff.1 hfound, ← feature.written_algorithm]
  exact Algorithm.written_injective.eq_iff

end Feature

end StreamCrypto
