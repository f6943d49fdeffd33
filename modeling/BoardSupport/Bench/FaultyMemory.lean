import BoardSupport.Bench.Log
import BoardSupport.Memory.Words
import BoardSupport.Program.Run
import BoardSupport.Text.Digits
import Std.Data.HashMap

/-! A memory with faults in its address lines, its data lines and its cells. -/
namespace BoardSupport.Bench

/-- The bits that a cell loses and gains when it is read. -/
structure CellFault where
  index : Nat
  kept : UInt32
  gained : UInt32

/-- Writing one word also writes another. -/
structure Alias where
  written : Nat
  disturbed : Nat

structure FaultyMemory where
  ignoredAddress : Nat := 0
  stuckLow : UInt32 := 0
  stuckHigh : UInt32 := 0
  cellFaults : List CellFault := []
  aliases : List Alias := []
  cells : Std.HashMap Nat UInt32 := {}
  traced : Bool := false
  log : Log := {}

namespace FaultyMemory

/-- The cell that an index reaches: address lines that are ignored count as low. -/
def decode (m : FaultyMemory) (index : Nat) : Nat := index ^^^ (index &&& m.ignoredAddress)

def value (m : FaultyMemory) (index : Nat) : UInt32 :=
  let carried := (m.cells.getD (m.decode index) 0 &&& ~~~m.stuckLow) ||| m.stuckHigh
  (m.cellFaults.filter (·.index == index)).foldl (fun v f => v &&& f.kept ||| f.gained) carried

def store (m : FaultyMemory) (index : Nat) (v : UInt32) : FaultyMemory :=
  let targets := (m.aliases.filter (·.written == index)).map (·.disturbed)
  let cell := m.decode index
  let { ignoredAddress, stuckLow, stuckHigh, cellFaults, aliases, cells, traced, log } := m
  ⟨ignoredAddress, stuckLow, stuckHigh, cellFaults, aliases,
    targets.foldl (fun c t => c.insert t v) (cells.insert cell v), traced, log⟩

def note (m : FaultyMemory) (kind : String) (index : Nat) (v : UInt32) : FaultyMemory :=
  if m.traced then
    { m with log := m.log.add (kind ++ toString index ++ "=" ++ Text.hex v.toNat) }
  else m

def device : Device WordMemory Empty FaultyMemory
  | .read index => fun m =>
    let v := m.value index
    .ok v (m.note "R" index v)
  | .write index v => fun m => .ok () ((m.store index v).note "W" index v)

end FaultyMemory

end BoardSupport.Bench
