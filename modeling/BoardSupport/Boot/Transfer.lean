import BoardSupport.Text.Described
import BoardSupport.Word

/-! The serial transfer of a program image. The device announces itself with XON; the host answers
with SOH, the load address, STX, the image and ETX. Nothing is escaped, so an image cannot contain
ETX. -/
namespace BoardSupport.Boot

def soh : UInt8 := 0x01

def stx : UInt8 := 0x02

def etx : UInt8 := 0x03

def xon : UInt8 := 0x11

/-- Why a transfer was refused. -/
inductive BootError
  /-- The image would have written to `address`, outside the load window. -/
  | outOfBounds (address : UInt32)
  /-- The image ran off the top of the address space. -/
  | addressOverflow
  /-- Byte `offset` of an image is ETX, which would end it early. -/
  | etxInPayload (offset : Nat)
  deriving DecidableEq, Repr

instance : Text.Describe BootError where
  describe
    | .outOfBounds address => .fields "OutOfBounds" [("address", .number address.toNat)]
    | .addressOverflow => .bare "AddressOverflow"
    | .etxInPayload offset => .fields "EtxInPayload" [("offset", .number offset)]

/-- Where a received image landed. -/
structure Image where
  start : UInt32
  length : UInt32
  deriving DecidableEq, Repr

/-- The address after the last byte, which wraps at the top of memory. -/
def Image.stop (image : Image) : UInt32 := image.start + image.length

instance : Text.Describe Image where
  describe image :=
    .fields "Image" [("start", .number image.start.toNat), ("len", .number image.length.toNat)]

/-- An inclusive range of addresses, which can reach the top of memory; empty if `first` exceeds
`last`. -/
structure Window where
  first : UInt32
  last : UInt32
  deriving DecidableEq, Repr

instance : Membership UInt32 Window where
  mem window address := window.first ≤ address ∧ address ≤ window.last

instance (window : Window) (address : UInt32) : Decidable (address ∈ window) :=
  inferInstanceAs (Decidable (window.first ≤ address ∧ address ≤ window.last))

/-- An image that contains ETX cannot be sent as it is. -/
def checkPayload (payload : List UInt8) : Except BootError Unit :=
  match payload.findIdx? (· == etx) with
  | some offset => .error (.etxInPayload offset)
  | none => .ok ()

/-- What the host sends ahead of the image. -/
def header (address : UInt32) : List UInt8 := soh :: Word.toLittleEndian address ++ [stx]

end BoardSupport.Boot
