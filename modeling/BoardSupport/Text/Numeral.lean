import BoardSupport.Text.Blank

/-! Numbers read from text, in a base and below a limit. -/
namespace BoardSupport.Text

/-- Why a text is not a number. -/
inductive NumeralError
  | empty
  /-- A character is not a digit of the base. -/
  | invalidDigit
  /-- The number reaches the limit. -/
  | tooLarge
  deriving DecidableEq, Repr

def NumeralError.message : NumeralError → String
  | .empty => "cannot parse integer from empty string"
  | .invalidDigit => "invalid digit found in string"
  | .tooLarge => "number too large to fit in target type"

/-- The value of a digit below `base`; letters of either case go on after nine. -/
def digitValue (base : Nat) (c : Char) : Option Nat :=
  let n := c.toNat
  let value :=
    if 48 ≤ n ∧ n ≤ 57 then some (n - 48)
    else if 97 ≤ n ∧ n ≤ 122 then some (n - 87)
    else if 65 ≤ n ∧ n ≤ 90 then some (n - 55)
    else none
  value.filter (· < base)

/-- Reads digits after those that make `value`. The first that is wrong, or that takes the number
to the limit, decides the error. -/
def readDigits (base limit value : Nat) : List Char → Except NumeralError Nat
  | [] => .ok value
  | c :: rest =>
    match digitValue base c with
    | none => .error .invalidDigit
    | some d =>
      if limit ≤ value * base + d then .error .tooLarge
      else readDigits base limit (value * base + d) rest

/-- Reads a number below `limit`: digits, with a plus sign allowed in front. -/
def readNumeral (base limit : Nat) : List Char → Except NumeralError Nat
  | [] => .error .empty
  | ['+'] => .error .invalidDigit
  | '+' :: digits => readDigits base limit 0 digits
  | digits => readDigits base limit 0 digits

/-- Reads a number that may say its base: `0x`, `0b` or `0o` in front, decimal otherwise. White
space around it does not count, nor do underscores in it; it must not start with one. -/
def readMarked (limit : Nat) (s : List Char) : Except NumeralError Nat :=
  let plain (digits : List Char) := digits.filter (· ≠ '_')
  match trim s with
  | '_' :: _ => .error .invalidDigit
  | '0' :: 'x' :: digits => readNumeral 16 limit (plain digits)
  | '0' :: 'b' :: digits => readNumeral 2 limit (plain digits)
  | '0' :: 'o' :: digits => readNumeral 8 limit (plain digits)
  | digits => readNumeral 10 limit (plain digits)

end BoardSupport.Text
