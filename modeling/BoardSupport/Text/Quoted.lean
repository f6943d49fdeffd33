import BoardSupport.Text.Digits
import BoardSupport.Text.Unshown

/-! Text between double quotes, with an escape for each character that would not show as itself. -/
namespace BoardSupport.Text

/-- A character by its number. -/
def escapeNumber (c : Char) : String := "\\u\x7b" ++ hex c.toNat ++ "\x7d"

/-- A character as quoted text holds it. -/
def escape (c : Char) : String :=
  match c with
  | '"' => "\\\""
  | '\\' => "\\\\"
  | '\t' => "\\t"
  | '\n' => "\\n"
  | '\r' => "\\r"
  | '\x00' => "\\0"
  | c => if isUnshown c then escapeNumber c else String.singleton c

def quoted (s : List Char) : String := "\"" ++ String.join (s.map escape) ++ "\""

end BoardSupport.Text
