import BoardSupport.Platform

/-! Durations as clock cycles, and as rounds of an idle loop. -/
namespace BoardSupport.Delay

/-- Clock cycles in one round of the idle loop: three instructions of five cycles. -/
def cyclesPerSpin : Nat := 15

/-- The quotient rounded up. -/
def ceilDiv (a b : Nat) : Nat := (a + b - 1) / b

/-- Clock cycles at `hertz` that last at least `ns` nanoseconds, or the most a word can hold. -/
def cycles (ns hertz : UInt32) : UInt32 :=
  UInt32.ofNat (min (ceilDiv (ns.toNat * hertz.toNat) 1000000000) (UInt32.size - 1))

/-- Rounds of the idle loop that last at least `ns` nanoseconds at `hertz`. -/
def spins (ns hertz : UInt32) : UInt32 :=
  UInt32.ofNat (ceilDiv (cycles ns hertz).toNat cyclesPerSpin)

/-- How a wait of some milliseconds is made up of waits in nanoseconds. -/
abbrev Splitting := UInt32 → List UInt32

/-- The waits, in nanoseconds, that make up `amount` units of `unit` nanoseconds each. A wait
holds whole units and fits a word, so long delays take several. -/
def waits (unit amount : Nat) : List UInt32 :=
  let most := (UInt32.size - 1) / unit
  List.replicate ((amount - 1) / most) (UInt32.ofNat (most * unit)) ++
    [UInt32.ofNat ((amount - (amount - 1) / most * most) * unit)]

/-- The waits that make up `us` microseconds. -/
def microseconds (us : UInt32) : List UInt32 := waits 1000 us.toNat

/-- The waits that make up `ms` milliseconds. -/
def milliseconds : Splitting := fun ms => waits 1000000 ms.toNat

end BoardSupport.Delay
