import BoardSupport.Loader.Frame
import BoardSupport.Loader.HexImage
import BoardSupport.Loader.Host

/-! What can go wrong in the loader, and how it is told. -/
namespace BoardSupport.Loader

/-- A duration, shown in the largest unit that it has one of, without trailing zeros. -/
def durationText (ms : Nat) : String :=
  if 1000 ≤ ms then
    let digits := Nat.toDigits 10 (ms % 1000)
    let fraction := (List.replicate (3 - digits.length) '0' ++ digits).reverse.dropWhile (· == '0')
    toString (ms / 1000) ++
      (if fraction.isEmpty then "" else "." ++ String.ofList fraction.reverse) ++ "s"
  else if 0 < ms then toString ms ++ "ms"
  else "0ns"

inductive Failure
  | reading (path : String) (cause : IoError)
  | writing (path : String) (cause : IoError)
  | parsing (path : String) (cause : HexImage.WordError)
  | swapping (path : String) (cause : HexImage.WordError)
  | framing (path : String) (cause : FrameError)
  | opening (path : String) (cause : IoError)
  /-- The port was closed before the bootloader announced itself. -/
  | closedBeforeXon
  /-- The bootloader did not announce itself in time. -/
  | noXon (timeout : Nat)
  | waiting (cause : IoError)
  | sending (cause : IoError)
  | listening (cause : IoError)
  /-- The output refused what the device said. -/
  | output (cause : IoError)
  | reducingTimeout (cause : IoError)
  | draining (cause : IoError)
  | restoringTimeout (cause : IoError)
  deriving DecidableEq, Repr

/-- What went wrong, and then why. -/
def Failure.report : Failure → List String
  | reading path cause => ["reading " ++ path, cause.message]
  | writing path cause => ["writing " ++ path, cause.message]
  | parsing path cause => ["parsing " ++ path, cause.message]
  | swapping path cause => ["swapping " ++ path, cause.message]
  | framing path cause => ["framing " ++ path, cause.message]
  | opening path cause => ["opening serial port " ++ path, cause.message]
  | closedBeforeXon => ["serial port closed while waiting for XON"]
  | noXon timeout => ["no XON from the bootloader after " ++ durationText timeout ++
      "; is SW15 up, and has the board been reset?"]
  | waiting cause => ["waiting for XON", cause.message]
  | sending cause => ["sending image", cause.message]
  | listening cause => ["reading from device", cause.message]
  | output cause => [cause.message]
  | reducingTimeout cause => ["reducing timeout for drain", cause.message]
  | draining cause => ["attempting to drain buffer", cause.message]
  | restoringTimeout cause => ["restoring timeout after drain", cause.message]

/-- A failure on one line. -/
def Failure.message (f : Failure) : String := ": ".intercalate f.report

/-- A failure as a program ends with it, causes indented below. -/
def Failure.exitMessage (f : Failure) : String :=
  match f.report with
  | [] => "Error: \n"
  | [what] => "Error: " ++ what ++ "\n"
  | what :: causes => "Error: " ++ what ++ "\n\nCaused by:\n" ++
      String.join (causes.map fun cause => "    " ++ cause ++ "\n")

end BoardSupport.Loader
