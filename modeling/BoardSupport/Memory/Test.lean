import BoardSupport.Memory.Words
import BoardSupport.Text.Described

/-! Tests of a memory's data lines, its address lines and each of its words. Each relies on what the
one before has shown. -/
namespace BoardSupport.Memory

inductive TestError
  /-- A walking one did not read back. -/
  | dataBus (pattern : UInt32)
  /-- Writing word 0 disturbed the word at `offset`. -/
  | addressStuckHigh (offset : Nat)
  /-- Writing the word at `offset` disturbed word 0. -/
  | addressStuckLow (offset : Nat)
  /-- Writing the word at `offset` disturbed that at another power of two. -/
  | addressShorted (offset : Nat)
  /-- The word at `offset` held something else than was written. -/
  | device (offset : Nat) (expected actual : UInt32)
  | empty
  /-- The memory does not have the word to test. -/
  | outOfRange (index : Nat)
  deriving DecidableEq, Repr

instance : Text.Describe TestError where
  describe
    | .dataBus pattern => .fields "DataBus" [("pattern", .number pattern.toNat)]
    | .addressStuckHigh offset => .fields "AddressStuckHigh" [("offset", .number offset)]
    | .addressStuckLow offset => .fields "AddressStuckLow" [("offset", .number offset)]
    | .addressShorted offset => .fields "AddressShorted" [("offset", .number offset)]
    | .device offset expected actual => .fields "Device" [("offset", .number offset),
        ("expected", .number expected.toNat), ("actual", .number actual.toNat)]
    | .empty => .bare "Empty"
    | .outOfRange index => .fields "OutOfRange" [("index", .number index)]

/-- A test, which ends at the first fault it finds. -/
abbrev Test := ExceptT TestError (Program WordMemory)

namespace Test

def write (index : Nat) (value : UInt32) : Test Unit := ExceptT.lift (WordMemory.write index value)

/-- Reads a word that ought to hold `expected`. -/
def expect (index : Nat) (expected : UInt32) (fault : UInt32 → TestError) : Test Unit := do
  let actual ← ExceptT.lift (WordMemory.read index)
  if actual ≠ expected then throw (fault actual)

end Test

/-- Single bits from the lowest to the highest. -/
def walkingOnes : List UInt32 := (List.range 32).map fun bit => 1 <<< UInt32.ofNat bit

/-- Walks a one over the data lines at one word of a memory of `words` words. -/
def testData (words index : Nat) : Test Unit := do
  if words = 0 then throw .empty
  if words ≤ index then throw (.outOfRange index)
  walkingOnes.forM fun pattern => do
    Test.write index pattern
    Test.expect index pattern fun _ => .dataBus pattern

/-- The powers of two that stand for the address lines of `words` words, in ascending order: all
below the lowest that has no bit in common with `words - 1`. -/
def powerOffsets (words : Nat) : List Nat :=
  ((List.range 64).map (1 <<< ·)).takeWhile fun offset => offset &&& (words - 1) != 0

def pattern : UInt32 := 0xAAAAAAAA

def antipattern : UInt32 := 0x55555555

/-- Looks for address lines that are stuck or shorted, by writes at powers of two that show
elsewhere. Works best when the number of words is itself a power of two. -/
def testAddresses (words : Nat) : Test Unit := do
  if words = 0 then throw .empty
  let offsets := powerOffsets words
  offsets.forM fun offset => Test.write offset pattern
  Test.write 0 antipattern
  offsets.forM fun offset => Test.expect offset pattern fun _ => .addressStuckHigh offset
  Test.write 0 pattern
  offsets.forM fun tested => do
    Test.write tested antipattern
    Test.expect 0 pattern fun _ => .addressStuckLow tested
    offsets.forM fun offset => do
      if offset ≠ tested then Test.expect offset pattern fun _ => .addressShorted tested
    Test.write tested pattern

/-- What the word at an offset is filled with. -/
def filling (offset : Nat) : UInt32 := UInt32.ofNat offset + 1

/-- Fills the memory with distinct values, then with their complements, and checks both. -/
def testWords (words : Nat) : Test Unit := do
  let offsets := List.range words
  offsets.forM fun offset => Test.write offset (filling offset)
  offsets.forM fun offset => do
    Test.expect offset (filling offset) (.device offset (filling offset))
    Test.write offset (~~~filling offset)
  offsets.forM fun offset =>
    Test.expect offset (~~~filling offset) (.device offset (~~~filling offset))

/-- All three tests, the data lines at word 0. -/
def testAll (words : Nat) : Test Unit := do
  testData words 0
  testAddresses words
  testWords words

end BoardSupport.Memory
