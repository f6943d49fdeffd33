import BoardSupport.Text.Lines
import BoardSupport.Text.Numeral
import BoardSupport.Text.Quoted
import BoardSupport.Word

/-! Program images as text: one 32-bit word a line, as eight hexadecimal digits with the most
significant first. Words go out least significant byte first. -/
namespace BoardSupport.Loader.HexImage

/-- Line `line` of an image, counted from one, is not a word. -/
inductive WordError
  | expectedDigits (line : Nat) (found : List Char)
  deriving DecidableEq, Repr

def WordError.message : WordError → String
  | .expectedDigits line found =>
    "line " ++ toString line ++ ": expected 8 hex digits, found " ++ Text.quoted found

/-- The lines that hold something, trimmed, each with its number counted from one. -/
def significant (text : List Char) : List (Nat × List Char) :=
  ((Text.lines text).zipIdx 1).filterMap fun (line, n) =>
    let word := Text.trim line
    if word.isEmpty then none else some (n, word)

def isHexDigit (c : Char) : Bool := (Text.digitValue 16 c).isSome

/-- Exactly eight hexadecimal digits, in either case. -/
def isWord (word : List Char) : Bool := word.length == 8 && word.all isHexDigit

/-- The words of an image, if every line that holds something is one. -/
def words (text : List Char) : Except WordError (List (List Char)) :=
  (significant text).mapM fun (n, word) =>
    if isWord word then .ok word else .error (.expectedDigits n word)

/-- The number that digits write, most significant first. -/
def value (word : List Char) : UInt32 :=
  word.foldl (fun n c => n * 16 + UInt32.ofNat ((Text.digitValue 16 c).getD 0)) 0

def parse (text : List Char) : Except WordError (List UInt8) := do
  return (← words text).flatMap fun word => Word.toLittleEndian (value word)

/-- The digits of a word with its bytes in the opposite order. -/
def swapWord : List Char → List Char
  | [a, b, c, d, e, f, g, h] => [g, h, e, f, c, d, a, b]
  | other => other

/-- An image with the bytes of every word in the opposite order. Digits keep their case, and lines
lose what is not part of a word. -/
def swap (text : List Char) : Except WordError (List Char) := do
  return (← words text).flatMap fun word => swapWord word ++ ['\n']

end BoardSupport.Loader.HexImage
