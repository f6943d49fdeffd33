import BoardSupport.I2c.Pins

/-! What a target on the bus makes of the two lines. -/
namespace BoardSupport.I2c.Target

inductive Event
  /-- The data line fell while the clock was high. -/
  | start
  /-- Eight bits, and the level of the line in the ninth, the acknowledgement. -/
  | byte (value : UInt8) (released : Bool)
  /-- The data line rose while the clock was high. -/
  | stop
  deriving DecidableEq, Repr

/-- The levels of the lines, and the bits sampled since the last byte, latest first. -/
structure Listener where
  clock : Bool := true
  data : Bool := true
  bits : List Bool := []
  deriving DecidableEq, Repr

namespace Listener

/-- The number that bits write, latest first. -/
def valueOf : List Bool → Nat
  | [] => 0
  | bit :: earlier => bit.toNat + 2 * valueOf earlier

/-- Samples the data line, and ends a byte with its ninth bit. -/
def sample (l : Listener) : Listener × List Event :=
  if l.bits.length < 8 then ({ l with bits := l.data :: l.bits }, [])
  else ({ l with bits := [] }, [.byte (UInt8.ofNat (valueOf l.bits)) l.data])

/-- What a change of a line shows. Levels that stay as they are show nothing. -/
def step (l : Listener) : Pins.Request → Listener × List Event
  | .clock true => if l.clock then (l, []) else sample { l with clock := true }
  | .clock false => ({ l with clock := false }, [])
  | .data level =>
    if l.clock ∧ l.data ≠ level then
      ({ l with data := level, bits := [] }, [if level then .stop else .start])
    else ({ l with data := level }, [])
  | .delay _ => (l, [])

/-- Everything that changes of the lines show. -/
def hear (l : Listener) : List Pins.Request → List Event
  | [] => []
  | r :: rest =>
    let (l, events) := l.step r
    events ++ l.hear rest

end Listener

end BoardSupport.I2c.Target
