import BoardSupport.Loader.CommandLine

/-! The loader's commands. -/
namespace BoardSupport.Loader

/-- A list in pieces of `n`, of which only the last may be shorter. -/
def chunks {α : Type} (n : Nat) (items : List α) : List (List α) :=
  if _h : items = [] ∨ n = 0 then []
  else items.take n :: chunks n (items.drop n)
termination_by items.length
decreasing_by
  have : items.length ≠ 0 := fun e => _h (Or.inl (List.length_eq_zero_iff.mp e))
  simp only [List.length_drop]
  omega

/-- Bytes that are handed to the port at a time. -/
def chunkSize : Nat := 64

def sendTransfer (transfer : List UInt8) : Task Unit := do
  (chunks chunkSize transfer).forM fun chunk => Task.host (Host.writePort chunk) .sending
  Task.host Host.flushPort .sending

/-- Opens the port for everything that follows. -/
def openPort (path : String) (baud : UInt32) : Task Unit :=
  Task.host (Host.openPort path baud) (.opening path)

/-- Waits for the bootloader and sends it an image. Nothing is asked of the port before the image
is known to be fit to send. -/
def upload (port : String) (baud address : UInt32) (file : String) (format : Option Format)
    (timeout : Nat) (thenEcho : Bool) : Task Unit := do
  let image ← load file format
  let transfer ← ExceptT.mk (pure ((frame address image).mapError (.framing file)))
  openPort port baud
  awaitBootloader timeout
  sendTransfer transfer
  Task.always (Host.say ("note: " ++ toString image.length ++ " bytes sent to " ++
    Text.hexMarked address.toNat))
  if thenEcho then echo

/-- Reverses the bytes of every word of a text image. -/
def swapFile (input output : String) : Task Unit := do
  let text ← readText input
  let swapped ← ExceptT.mk (pure ((HexImage.swap text.toList).mapError (.swapping input)))
  Task.host (Host.writeFile (Text.bytes output) (Text.bytes (String.ofList swapped))) (.writing output)

def perform (invocation : CommandLine.Invocation) : Task Unit :=
  match invocation.command with
  | .upload port address file format timeout thenEcho =>
    upload port invocation.baud address file format timeout thenEcho
  | .wait port timeout => do
    openPort port invocation.baud
    awaitBootloader timeout
  | .listen port => do
    openPort port invocation.baud
    drain
    echo
  | .swap input output => swapFile input output

end BoardSupport.Loader
