import BoardSupport.Boot.Transfer
import BoardSupport.Text.Digits

/-! The host side of a transfer: a program image as it goes over the wire. -/
namespace BoardSupport.Loader

/-- Why an image cannot be sent. -/
inductive FrameError
  /-- The image holds the byte that would end it early. -/
  | containsEtx (offset : Nat)
  /-- The image would run past the end of memory. -/
  | pastMemory (length : Nat) (address : UInt32)
  deriving DecidableEq, Repr

def FrameError.message : FrameError → String
  | .containsEtx offset =>
    "image contains ETX (0x" ++ Text.hexPadded 2 Boot.etx.toNat ++ ") at offset " ++
      Text.hexMarked offset ++ ", which would end the transfer early; this protocol can't send it"
  | .pastMemory length address =>
    "image of " ++ toString length ++ " bytes at " ++ Text.hexMarked address.toNat ++
      " runs past the end of memory"

/-- The bytes of a transfer before any is known to be unsuitable. -/
def rawFrame (address : UInt32) (payload : List UInt8) : List UInt8 :=
  Boot.header address ++ payload ++ [Boot.etx]

/-- The whole transfer: header, image and end. -/
def frame (address : UInt32) (payload : List UInt8) : Except FrameError (List UInt8) :=
  match Boot.checkPayload payload with
  | .error (.etxInPayload offset) => .error (.containsEtx offset)
  | _ =>
    if UInt32.size < address.toNat + payload.length then .error (.pastMemory payload.length address)
    else .ok (rawFrame address payload)

end BoardSupport.Loader
