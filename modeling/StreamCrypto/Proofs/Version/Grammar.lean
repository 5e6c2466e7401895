import Mathlib.Data.List.Forall2
import Mathlib.Data.List.TakeWhile
import Mathlib.Data.Nat.Digits.Defs
import StreamCrypto.Version

/-!
# How versions are written

A component is a row of decimal digits, with an optional plus sign before it and any blanks around
both, and stands for a number below `2 ^ 64` (`Spells`). A version is written as components with
points between them (`Reads`). Reading a text succeeds exactly if it is written so, and returns the
numbers that its components stand for (`parse?_eq_some_iff`).
-/

namespace StreamCrypto

/-! ## Blanks around a word -/

namespace Text.Blank

theorem exists_eq_append_trim (text : List Char) :
    ∃ before after, text = before ++ trim text ++ after ∧
      (∀ c ∈ before, isBlank c = true) ∧ ∀ c ∈ after, isBlank c = true := by
  have hfront := List.takeWhile_append_dropWhile (p := isBlank) (l := text)
  have hback := List.takeWhile_append_dropWhile (p := isBlank)
    (l := (text.dropWhile isBlank).reverse)
  refine ⟨text.takeWhile isBlank, ((text.dropWhile isBlank).reverse.takeWhile isBlank).reverse,
    ?_, ?_, ?_⟩
  · rw [trim, List.append_assoc, ← List.reverse_append, hback, List.reverse_reverse, hfront]
  · intro c hc
    exact List.mem_takeWhile_imp hc
  · intro c hc
    exact List.mem_takeWhile_imp (List.mem_reverse.1 hc)

theorem dropWhile_append_of_head {blanks word : List Char}
    (hblanks : ∀ c ∈ blanks, isBlank c = true) (hhead : ∀ c ∈ word.head?, isBlank c = false) :
    (blanks ++ word).dropWhile isBlank = word := by
  rw [List.dropWhile_append_of_pos hblanks]
  cases word with
  | nil => rfl
  | cons c word => exact List.dropWhile_cons_of_neg (by simp [hhead c rfl])

/-- A word without blanks is what is left of it between blanks. -/
theorem trim_append {before word after : List Char} (hbefore : ∀ c ∈ before, isBlank c = true)
    (hword : ∀ c ∈ word, isBlank c = false) (hafter : ∀ c ∈ after, isBlank c = true) :
    trim (before ++ word ++ after) = word := by
  cases word with
  | nil =>
    have hall : ∀ c ∈ before ++ after, isBlank c = true := by
      intro c hc
      exact (List.mem_append.1 hc).elim (hbefore c) (hafter c)
    have hnone : (before ++ after ++ []).dropWhile isBlank = [] :=
      dropWhile_append_of_head hall nofun
    rw [List.append_nil] at hnone
    rw [trim, List.append_nil, hnone]
    rfl
  | cons c word =>
    have hfront : (before ++ (c :: word ++ after)).dropWhile isBlank = c :: word ++ after := by
      apply dropWhile_append_of_head hbefore
      intro d hd
      cases hd
      exact hword c List.mem_cons_self
    have hback : (after.reverse ++ (c :: word).reverse).dropWhile isBlank =
        (c :: word).reverse := by
      apply dropWhile_append_of_head
      · intro d hd
        exact hafter d (List.mem_reverse.1 hd)
      · intro d hd
        exact hword d (List.mem_reverse.1 (List.mem_of_mem_head? hd))
    rw [trim, List.append_assoc, hfront, List.reverse_append, hback, List.reverse_reverse]

end Text.Blank

namespace Version

open Text.Blank

/-! ## Components -/

/-- The number that a row of decimal digits stands for. -/
def decimal (digits : List Char) : Nat :=
  Nat.ofDigits 10 (digits.reverse.map fun c ↦ c.toNat - '0'.toNat)

/-- The ways to write a number below `2 ^ 64` as a component. -/
inductive Spells : List Char → Nat → Prop
  | intro {before sign digits after : List Char} (hbefore : ∀ c ∈ before, isBlank c = true)
    (hsign : sign = [] ∨ sign = ['+']) (hne : digits ≠ [])
    (hdigits : ∀ c ∈ digits, c.isDigit = true) (hafter : ∀ c ∈ after, isBlank c = true)
    (hsmall : decimal digits < 2 ^ 64) :
    Spells (before ++ (sign ++ digits) ++ after) (decimal digits)

variable {text : List Char} {n : Nat}

theorem decimal_eq_foldl (digits : List Char) :
    decimal digits = digits.foldl (fun value c ↦ 10 * value + (c.toNat - 48)) 0 := by
  have hdigit (c : Char) (value : Nat) :
      c.toNat - '0'.toNat + 10 * value = 10 * value + (c.toNat - 48) := Nat.add_comm _ _
  rw [decimal, Nat.ofDigits_eq_foldr, List.foldr_map, List.foldr_reverse]
  simp only [Nat.cast_id, hdigit]

theorem number?_eq_some_iff :
    number? text = some n ↔ text ≠ [] ∧ (∀ c ∈ text, c.isDigit = true) ∧ decimal text = n := by
  rw [decimal_eq_foldl, number?, Option.ite_none_right_eq_some, Option.some.injEq,
    List.all_eq_true, and_assoc]

theorem isBlank_of_isDigit {c : Char} (hdigit : c.isDigit = true) : isBlank c = false := by
  have hrange : 48 ≤ c.toNat ∧ c.toNat ≤ 57 := Char.isDigit_iff_toNat.1 hdigit
  simp only [isBlank, Bool.or_eq_false_iff, Bool.and_eq_false_iff, decide_eq_false_iff_not,
    beq_eq_false_iff_ne]
  omega

/-- What is between the blanks is a number with at most one sign. -/
theorem component?_eq_some_iff_trim :
    component? text = some n ↔ ∃ sign digits, (sign = [] ∨ sign = ['+']) ∧
      trim text = sign ++ digits ∧ number? digits = some n ∧ n < 2 ^ 64 := by
  simp only [component?, Option.filter_eq_some_iff, decide_eq_true_eq]
  generalize trim text = word
  constructor
  · rintro ⟨hnumber, hsmall⟩
    split at hnumber
    · next digits => exact ⟨['+'], digits, .inr rfl, rfl, hnumber, hsmall⟩
    · exact ⟨[], word, .inl rfl, rfl, hnumber, hsmall⟩
  · rintro ⟨sign, digits, rfl | rfl, rfl, hnumber, hsmall⟩
    · refine ⟨?_, hsmall⟩
      split
      · next digits hplus =>
        -- A plus sign is not a digit, so the row would not have been a number.
        have hdigit := (number?_eq_some_iff.1 hnumber).2.1 '+' (by simp_all)
        cases hdigit
      · exact hnumber
    · exact ⟨hnumber, hsmall⟩

theorem component?_eq_some_iff : component? text = some n ↔ Spells text n := by
  rw [component?_eq_some_iff_trim]
  constructor
  · rintro ⟨sign, digits, hsign, htrim, hnumber, hsmall⟩
    obtain ⟨hne, hdigits, rfl⟩ := number?_eq_some_iff.1 hnumber
    obtain ⟨before, after, htext, hbefore, hafter⟩ := exists_eq_append_trim text
    rw [htrim] at htext
    rw [htext]
    exact .intro hbefore hsign hne hdigits hafter hsmall
  · rintro ⟨hbefore, hsign, hne, hdigits, hafter, hsmall⟩
    refine ⟨_, _, hsign, trim_append hbefore ?_ hafter,
      number?_eq_some_iff.2 ⟨hne, hdigits, rfl⟩, hsmall⟩
    intro c hc
    rcases List.mem_append.1 hc with hplus | hdigit
    · rcases hsign with rfl | rfl
      · cases hplus
      · cases List.mem_singleton.1 hplus
        rfl
    · exact isBlank_of_isDigit (hdigits c hdigit)

/-! ## Versions -/

/-- The components between the points of a text stand for these numbers. -/
def Reads (text : String) (components : List Nat) : Prop :=
  List.Forall₂ Spells (text.toList.splitOn '.') components

/-- All components of a text stand for numbers. -/
def Readable (text : String) : Prop := ∃ components, Reads text components

theorem mapM_eq_some_iff {α β : Type} {f : α → Option β} {xs : List α} {ys : List β} :
    xs.mapM f = some ys ↔ List.Forall₂ (fun x y ↦ f x = some y) xs ys := by
  induction xs generalizing ys with
  | nil => simp [eq_comm]
  | cons x xs ih =>
    simp only [List.mapM_cons, List.forall₂_cons_left_iff, Option.bind_eq_bind,
      Option.bind_eq_some_iff, Option.pure_def, Option.some.injEq, ih]
    constructor
    · rintro ⟨y, hy, ys, hys, rfl⟩
      exact ⟨y, ys, hy, hys, rfl⟩
    · rintro ⟨y, ys, hy, hys, rfl⟩
      exact ⟨y, hy, ys, hys, rfl⟩

theorem parse?_eq_some_iff {text : String} {components : List Nat} :
    parse? text = some components ↔ Reads text components := by
  simp only [parse?, mapM_eq_some_iff, component?_eq_some_iff, Reads]

theorem Reads.unique {text : String} {first second : List Nat} (hfirst : Reads text first)
    (hsecond : Reads text second) : first = second := by
  rw [← parse?_eq_some_iff] at hfirst hsecond
  exact Option.some.inj (hfirst.symm.trans hsecond)

theorem parse?_eq_none_iff {text : String} : parse? text = none ↔ ¬ Readable text := by
  simp only [Readable, ← parse?_eq_some_iff, Option.eq_none_iff_forall_ne_some, not_exists]

end Version

end StreamCrypto
