import BoardSupport.Memory.Words
import BoardSupport.Spi.Channel

/-! Serial memory of 8 MiB over SPI. Every access is a chip-select frame of its own. -/
namespace BoardSupport.Psram

open Spi

def size : Nat := 0x800000

def addressMask : UInt32 := 0x7FFFFF

/-- Commands and addresses start a frame; addresses wrap at the size. -/
def opening (command : UInt8) (address : UInt32) : List UInt8 :=
  let a := address &&& addressMask
  [command, (a >>> 16).toUInt8, (a >>> 8).toUInt8, a.toUInt8]

def openFrame (command : UInt8) (address : UInt32) : Program Channel Unit := do
  Channel.deselect
  Channel.select
  Channel.writeAll (opening command address)

/-- Writes bytes from an address on. The memory wraps within its page on long bursts. -/
def write (address : UInt32) (bytes : List UInt8) : Program Channel Unit := do
  openFrame 0x02 address
  Channel.writeAll bytes
  Channel.deselect

def read (address : UInt32) (length : Nat) : Program Channel (List UInt8) := do
  openFrame 0x03 address
  let bytes ← Channel.readAll length
  Channel.deselect
  return bytes

def readByte (address : UInt32) : Program Channel UInt8 := do
  openFrame 0x03 address
  let byte ← Channel.read
  Channel.deselect
  return byte

def writeByte (address : UInt32) (byte : UInt8) : Program Channel Unit := write address [byte]

/-- A frame of one byte. -/
def single (command : UInt8) : Program Channel Unit := do
  Channel.deselect
  Channel.select
  Channel.write command
  Channel.deselect

def reset : Program Channel Unit := do
  single 0x66
  single 0x99

/-- What the memory says of itself. -/
structure Id where
  manufacturer : UInt8
  /-- Marks a die that has passed its tests. -/
  knownGood : UInt8
  /-- Six bytes, most significant first. -/
  extended : List UInt8
  deriving DecidableEq, Repr

namespace Id

/-- The code for the size: the top three bits of the extended id. -/
def density (id : Id) : UInt8 := id.extended.headD 0 >>> 5

def megabits (id : Id) : Nat := 2 <<< (id.density.toNat + 3)

end Id

/-- Asks for the id. The address is ignored. -/
def readId : Program Channel Id := do
  openFrame 0x9F addressMask
  let manufacturer ← Channel.read
  let knownGood ← Channel.read
  let extended ← Channel.readAll 6
  Channel.deselect
  return ⟨manufacturer, knownGood, extended⟩

def words : Nat := size / 4

/-- The address of a word, if a 64-bit number holds it; its top half is dropped. -/
def wordAddress (index : Nat) : Program Channel UInt32 :=
  if index * 4 < UInt64.size then return UInt32.ofNat (index * 4) else .fault .mulOverflow

/-- Reads a word, least significant byte first. -/
def readWord (index : Nat) : Program Channel UInt32 := do
  openFrame 0x03 (← wordAddress index)
  let b0 ← Channel.read
  let b1 ← Channel.read
  let b2 ← Channel.read
  let b3 ← Channel.read
  Channel.deselect
  return Word.ofLittleEndian b0 b1 b2 b3

def writeWord (index : Nat) (value : UInt32) : Program Channel Unit := do
  write (← wordAddress index) (Word.toLittleEndian value)

/-- Carries the requests of a word memory out on the serial memory. -/
def carry : (r : WordMemory.Request) → Program Channel (WordMemory.Reply r)
  | .read index => readWord index
  | .write index value => writeWord index value

end BoardSupport.Psram
