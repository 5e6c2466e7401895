import StreamCrypto.Text.Blank

/-!
# Version numbers

A version is written as decimal components with points between them. Blanks around a
component and one plus sign in front of it are allowed, and a component is below `2 ^ 64`.
Versions are compared component by component, and components that are not written count
as zero.
-/

namespace StreamCrypto.Version

/-- The value of a nonempty row of decimal digits. -/
def number? (text : List Char) : Option Nat :=
  if text ≠ [] ∧ text.all Char.isDigit = true then
    some (text.foldl (fun value c ↦ 10 * value + (c.toNat - 48)) 0)
  else none

def component? (text : List Char) : Option Nat :=
  let value := match Text.Blank.trim text with
    | '+' :: digits => number? digits
    | digits => number? digits
  value.filter (· < UInt64.size)

/-- The components of a version, if each of them can be read. -/
def parse? (text : String) : Option (List Nat) :=
  (text.toList.splitOn '.').mapM component?

/-- Whether the first list of components is at least the second. -/
def atLeast : List Nat → List Nat → Bool
  | _, [] => true
  | [], wanted :: rest => wanted == 0 && atLeast [] rest
  | present :: rest, wanted :: wantedRest =>
    if present = wanted then atLeast rest wantedRest else decide (wanted < present)

/-- Whether a version meets a requirement. What cannot be read meets nothing and is met
by nothing. -/
def satisfies (available required : String) : Bool :=
  match parse? available, parse? required with
  | some present, some wanted => atLeast present wanted
  | _, _ => false

end StreamCrypto.Version
