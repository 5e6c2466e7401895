import Mathlib.Order.PiLex
import StreamCrypto.Proofs.Version.Grammar

/-!
# The order of versions

Versions are compared by the first component that differs, where components that are not written
count as zero. So the comparison is the lexicographic order of sequences that end in zeros for ever
(`atLeast_iff`), and all that is known of a linear order holds of it. Two versions are as good as
each other if they are the same up to zeros at the end.
-/

namespace StreamCrypto.Version

/-- The components of a version followed by zeros, ordered by the first that differs. -/
def rank (components : List Nat) : Lex (ℕ → ℕ) := toLex fun i ↦ components.getD i 0

theorem rank_lt_iff {first second : List Nat} :
    rank first < rank second ↔
      ∃ i, (∀ j < i, first.getD j 0 = second.getD j 0) ∧ first.getD i 0 < second.getD i 0 :=
  Iff.rfl

theorem not_rank_lt_iff {first second : List Nat} :
    ¬ rank second < rank first ↔ rank first ≤ rank second :=
  not_lt

theorem rank_cons_lt_cons_iff {x y : Nat} {xs ys : List Nat} :
    rank (x :: xs) < rank (y :: ys) ↔ x < y ∨ x = y ∧ rank xs < rank ys := by
  simp only [rank_lt_iff]
  constructor
  · rintro ⟨i, hsame, hlt⟩
    cases i with
    | zero => exact .inl hlt
    | succ i =>
      exact .inr ⟨hsame 0 i.succ_pos, i, fun j hj ↦ hsame (j + 1) (Nat.succ_lt_succ hj), hlt⟩
  · rintro (hlt | ⟨rfl, i, hsame, hlt⟩)
    · exact ⟨0, nofun, hlt⟩
    · refine ⟨i + 1, fun j hj ↦ ?_, hlt⟩
      cases j with
      | zero => rfl
      | succ j => exact hsame j (Nat.lt_of_succ_lt_succ hj)

theorem rank_cons_le_cons_iff {x y : Nat} {xs ys : List Nat} :
    rank (x :: xs) ≤ rank (y :: ys) ↔ x < y ∨ x = y ∧ rank xs ≤ rank ys := by
  rw [← not_rank_lt_iff, ← not_rank_lt_iff, rank_cons_lt_cons_iff]
  rcases Nat.lt_trichotomy x y with hlt | rfl | hgt
  · simp [hlt, hlt.not_gt, hlt.ne']
  · simp
  · simp [hgt, hgt.not_gt, hgt.ne']

theorem rank_append_replicate (components : List Nat) (n : Nat) :
    rank (components ++ List.replicate n 0) = rank components := by
  unfold rank
  congr 1
  funext i
  simp only [List.getD_eq_getElem?_getD, List.getElem?_append, List.getElem?_replicate]
  split
  · rfl
  · next h =>
    rw [List.getElem?_eq_none (Nat.le_of_not_lt h)]
    split
    · rfl
    · rfl

theorem rank_nil_le (components : List Nat) : rank [] ≤ rank components := by
  rw [← not_rank_lt_iff, rank_lt_iff]
  rintro ⟨i, -, hlt⟩
  exact Nat.not_lt_zero _ hlt

/-- The loop over the components decides the order. -/
theorem atLeast_iff (present wanted : List Nat) :
    atLeast present wanted = true ↔ rank wanted ≤ rank present := by
  fun_induction atLeast present wanted with
  | case1 present => simp [rank_nil_le]
  | case2 wanted rest ih =>
    have hzero : rank [] = rank [0] := (rank_append_replicate [] 1).symm
    rw [Bool.and_eq_true, beq_iff_eq, ih, hzero, rank_cons_le_cons_iff, ← hzero]
    simp
  | case3 present rest wantedRest ih => simp [ih, rank_cons_le_cons_iff]
  | case4 present rest wanted wantedRest hne =>
    simp [rank_cons_le_cons_iff, Ne.symm hne]

/-- The same components, up to zeros at the end. -/
def EqualUpToZeros (first second : List Nat) : Prop :=
  ∃ m n, first ++ List.replicate m 0 = second ++ List.replicate n 0

theorem rank_eq_iff {first second : List Nat} :
    rank first = rank second ↔ EqualUpToZeros first second := by
  constructor
  · intro h
    refine ⟨second.length, first.length, ?_⟩
    have hsame (i : Nat) : (first ++ List.replicate second.length 0).getD i 0 =
        (second ++ List.replicate first.length 0).getD i 0 := by
      rw [← rank_append_replicate first second.length,
        ← rank_append_replicate second first.length] at h
      exact congrFun (toLex.injective h) i
    apply List.ext_getElem
    · simp [Nat.add_comm]
    · intro i hi hi'
      have hget := hsame i
      rwa [List.getD_eq_getElem?_getD, List.getD_eq_getElem?_getD, List.getElem?_eq_getElem hi,
        List.getElem?_eq_getElem hi'] at hget
  · rintro ⟨m, n, h⟩
    calc
      rank first = rank (first ++ List.replicate m 0) := (rank_append_replicate first m).symm
      _ = rank (second ++ List.replicate n 0) := by rw [h]
      _ = rank second := rank_append_replicate second n

/-! ## Meeting a requirement -/

variable {first second third : String}

theorem satisfies_eq_atLeast {present wanted : List Nat} (hfirst : Reads first present)
    (hsecond : Reads second wanted) : satisfies first second = atLeast present wanted := by
  rw [satisfies, parse?_eq_some_iff.2 hfirst, parse?_eq_some_iff.2 hsecond]

theorem satisfies_iff_rank {present wanted : List Nat} (hfirst : Reads first present)
    (hsecond : Reads second wanted) :
    satisfies first second = true ↔ rank wanted ≤ rank present := by
  rw [satisfies_eq_atLeast hfirst hsecond, atLeast_iff]

theorem satisfies_of_unreadable (hunreadable : ¬ Readable first ∨ ¬ Readable second) :
    satisfies first second = false := by
  rw [satisfies]
  split
  · next present wanted hfirst hsecond =>
    exact hunreadable.elim (absurd ⟨present, parse?_eq_some_iff.1 hfirst⟩)
      (absurd ⟨wanted, parse?_eq_some_iff.1 hsecond⟩)
  · rfl

theorem satisfies_iff : satisfies first second = true ↔
    ∃ present wanted, Reads first present ∧ Reads second wanted ∧ rank wanted ≤ rank present := by
  constructor
  · intro h
    have hreadable : Readable first ∧ Readable second := by
      by_contra hneither
      rw [satisfies_of_unreadable (not_and_or.1 hneither)] at h
      cases h
    obtain ⟨⟨present, hfirst⟩, ⟨wanted, hsecond⟩⟩ := hreadable
    exact ⟨present, wanted, hfirst, hsecond, (satisfies_iff_rank hfirst hsecond).1 h⟩
  · rintro ⟨present, wanted, hfirst, hsecond, hle⟩
    exact (satisfies_iff_rank hfirst hsecond).2 hle

theorem satisfies_refl (hfirst : Readable first) : satisfies first first = true := by
  obtain ⟨present, hreads⟩ := hfirst
  exact (satisfies_iff_rank hreads hreads).2 le_rfl

theorem satisfies_trans (hfirst : satisfies first second = true)
    (hsecond : satisfies second third = true) : satisfies first third = true := by
  obtain ⟨high, middle, hhigh, hmiddle, hle⟩ := satisfies_iff.1 hfirst
  obtain ⟨other, low, hother, hlow, hle'⟩ := satisfies_iff.1 hsecond
  rw [hother.unique hmiddle] at hle'
  exact satisfies_iff.2 ⟨high, low, hhigh, hlow, hle'.trans hle⟩

theorem satisfies_total (hfirst : Readable first) (hsecond : Readable second) :
    satisfies first second = true ∨ satisfies second first = true := by
  obtain ⟨left, hleft⟩ := hfirst
  obtain ⟨right, hright⟩ := hsecond
  rw [satisfies_iff_rank hleft hright, satisfies_iff_rank hright hleft]
  exact le_total (rank right) (rank left)

theorem satisfies_both_iff {left right : List Nat} (hfirst : Reads first left)
    (hsecond : Reads second right) :
    satisfies first second = true ∧ satisfies second first = true ↔ EqualUpToZeros left right := by
  rw [satisfies_iff_rank hfirst hsecond, satisfies_iff_rank hsecond hfirst, and_comm,
    ← le_antisymm_iff, rank_eq_iff]

example : satisfies "1.2" "1.2.0" = true ∧ satisfies "1.2.0" "1.2" = true := by decide

end StreamCrypto.Version
