import BoardSupport.Loader.FileName
import BoardSupport.Loader.SerialLine
import BoardSupport.Text.Utf8

/-! The formats of program images, and images read from files. -/
namespace BoardSupport.Loader

/-- How a file holds an image. -/
inductive Format
  /-- Bytes sent exactly as they are. -/
  | binary
  /-- Text, one 32-bit word a line. -/
  | hex
  deriving DecidableEq, Repr

namespace Format

/-- Small letters for capital ones of ASCII. -/
def lower (s : List Char) : List Char := s.map Char.toLower

/-- A file is text if its name ends in `.hex`, with letters of either case. -/
def detect (path : String) : Format :=
  match (fileName? path.toList).bind extension? with
  | some ext => if lower ext = ['h', 'e', 'x'] then .hex else .binary
  | none => .binary

def name : Format → String
  | binary => "bin"
  | hex => "hex"

def ofName? : String → Option Format
  | "bin" => some .binary
  | "hex" => some .hex
  | _ => none

end Format

def readText (path : String) : Task String := do
  let bytes ← Task.host (Host.readFile (Text.bytes path)) (.reading path)
  match Text.Utf8.read? bytes with
  | some text => return text
  | none => throw (.reading path .notUtf8)

/-- Reads an image, in the format its name tells unless one is given. -/
def load (path : String) (format : Option Format) : Task (List UInt8) :=
  match format.getD (Format.detect path) with
  | .binary => Task.host (Host.readFile (Text.bytes path)) (.reading path)
  | .hex => do
    let text ← readText path
    match HexImage.parse text.toList with
    | .ok bytes => return bytes
    | .error e => throw (.parsing path e)

end BoardSupport.Loader
