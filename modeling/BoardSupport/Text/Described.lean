/-! The diagnostic form of values: a name, and what it holds. -/
namespace BoardSupport.Text

/-- A value as diagnostics show it. -/
inductive Described
  | number (n : Nat)
  /-- A name and what it holds by position; nothing at all for a bare name. -/
  | named (name : String) (parts : List Described)
  /-- A name and what it holds by field, in the order of declaration. -/
  | fields (name : String) (parts : List (String × Described))

namespace Described

/-- A name that holds nothing. -/
def bare (name : String) : Described := .named name []

def name : Described → String
  | number n => toString n
  | named n _ | fields n _ => n

mutual

/-- Writes positions as `Name(a, b)`, fields between braces as `a: 1, b: 2`, and
numbers in decimal. -/
def render : Described → String
  | number n => toString n
  | named name [] => name
  | named name parts => name ++ "(" ++ renderParts parts ++ ")"
  | fields name parts => name ++ " \x7b " ++ renderFields parts ++ " \x7d"

private def renderParts : List Described → String
  | [] => ""
  | [d] => render d
  | d :: ds => render d ++ ", " ++ renderParts ds

private def renderFields : List (String × Described) → String
  | [] => ""
  | [(label, d)] => label ++ ": " ++ render d
  | (label, d) :: ds => label ++ ": " ++ render d ++ ", " ++ renderFields ds

end

end Described

/-- Values with a diagnostic form. -/
class Describe (α : Type) where
  describe : α → Described

export Describe (describe)

def debug {α : Type} [Describe α] (a : α) : String := (describe a).render

end BoardSupport.Text
