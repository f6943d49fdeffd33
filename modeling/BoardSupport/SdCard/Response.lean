import BoardSupport.Text.Described
import BoardSupport.Word

/-! What an SD card answers, what kinds of card there are, and what can go wrong. -/
namespace BoardSupport.SdCard

/-- The status a card gives after every command. -/
structure R1 where
  flags : UInt8
  deriving DecidableEq, Repr

namespace R1

def idleFlag : UInt8 := 0x01

def illegalFlag : UInt8 := 0x04

/-- The flags with their names, from the highest. -/
def flagNames : List (UInt8 × String) := [
  (0x40, "parameter error"),
  (0x20, "address error"),
  (0x10, "erase sequence error"),
  (0x08, "CRC error"),
  (0x04, "illegal command"),
  (0x02, "erase reset"),
  (0x01, "in idle state")]

def isReady (r : R1) : Bool := r.flags == 0

def isIdle (r : R1) : Bool := r.flags &&& idleFlag != 0

def isIllegal (r : R1) : Bool := r.flags &&& illegalFlag != 0

/-- Any flag other than idle. -/
def hasErrors (r : R1) : Bool := r.flags &&& ~~~idleFlag != 0

def names (r : R1) : List String :=
  flagNames.filterMap fun (mask, name) => if r.flags &&& mask != 0 then some name else none

end R1

instance : Text.Describe R1 where
  describe r := .named "R1" [.number r.flags.toNat]

/-- The answer to the question for the interface condition. -/
structure R7 where
  r1 : R1
  commandVersion : UInt8
  voltageAccepted : UInt8
  echo : UInt8
  deriving DecidableEq, Repr

namespace R7

def ofBytes (r1 : R1) (b0 _b1 b2 b3 : UInt8) : R7 := ⟨r1, b0 >>> 4, b2 &&& 0x0F, b3⟩

/-- The card runs at our voltage and has echoed our pattern. -/
def isValid (r : R7) : Bool := r.voltageAccepted == 0x01 && r.echo == 0xAA

end R7

instance : Text.Describe R7 where
  describe r := .fields "R7" [("r1", Text.describe r.r1),
    ("command_version", .number r.commandVersion.toNat),
    ("voltage_accepted", .number r.voltageAccepted.toNat), ("echo", .number r.echo.toNat)]

structure Ocr where
  bits : UInt32
  deriving DecidableEq, Repr

namespace Ocr

/-- The card has finished powering up; until then no other bit means anything. -/
def isPoweredUp (r : Ocr) : Bool := r.bits &&& 0x80000000 != 0

/-- The card is addressed by block. -/
def isHighCapacity (r : Ocr) : Bool := r.bits &&& 0x40000000 != 0

end Ocr

instance : Text.Describe Ocr where
  describe r := .named "Ocr" [.number r.bits.toNat]

/-- The kinds of card, which differ in how blocks are addressed. -/
inductive Kind
  /-- Version 1, addressed by byte. -/
  | version1
  /-- Version 2 of standard capacity, addressed by byte. -/
  | version2
  /-- Version 2 of high capacity, addressed by block. -/
  | highCapacity
  deriving DecidableEq, Repr

instance : Text.Describe Kind where
  describe
    | .version1 => .bare "SdV1"
    | .version2 => .bare "SdV2"
    | .highCapacity => .bare "SdHc"

inductive SdError
  | timeout
  /-- The card answered a command with a status that was not wanted. -/
  | command (index : UInt8) (r1 : R1)
  /-- The card refused our voltage, or did not echo our pattern. -/
  | interfaceCondition (r7 : R7)
  /-- The card never reported that it was ready. -/
  | initTimeout
  /-- The card claimed to be ready before it was powered up. -/
  | notPoweredUp
  /-- A block was asked for before the card was brought up. -/
  | notInitialized
  /-- The block lies beyond what a byte address can reach. -/
  | addressOutOfRange (block : UInt32)
  /-- Something other than data arrived. -/
  | badToken (token : UInt8)
  /-- The card refused data with this response. -/
  | writeRejected (response : UInt8)
  | busyTimeout
  deriving DecidableEq, Repr

instance : Text.Describe SdError where
  describe
    | .timeout => .bare "Timeout"
    | .command index r1 =>
      .fields "Command" [("cmd", .number index.toNat), ("r1", Text.describe r1)]
    | .interfaceCondition r7 => .named "InterfaceCondition" [Text.describe r7]
    | .initTimeout => .bare "InitTimeout"
    | .notPoweredUp => .bare "NotPoweredUp"
    | .notInitialized => .bare "NotInitialized"
    | .addressOutOfRange block => .named "AddressOutOfRange" [.number block.toNat]
    | .badToken token => .named "BadToken" [.number token.toNat]
    | .writeRejected response => .named "WriteRejected" [.number response.toNat]
    | .busyTimeout => .bare "BusyTimeout"

end BoardSupport.SdCard
