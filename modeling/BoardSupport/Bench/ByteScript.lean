import BoardSupport.Bench.Log
import BoardSupport.Boot.Receiver
import BoardSupport.Program.Run

/-! A byte stream that receives from a script. -/
namespace BoardSupport.Bench

/-- What is still to be received, and what has happened. -/
structure ByteScript where
  input : List UInt8
  log : Log := {}
  /-- What was put into memory, latest first. -/
  stores : List (UInt32 × UInt8) := []

/-- The script has nothing more to receive. -/
inductive Exhausted
  | inputExhausted
  deriving DecidableEq, Repr

/-- Carries out what a receiver needs on some link, and gathers what it stores, latest first. -/
def gatherStores {J : Interface} (carry : (r : Link.Request) → Program J (Link.Reply r)) :
    (r : Boot.Target.Request) → List (UInt32 × UInt8) →
      Program J (Boot.Target.Reply r × List (UInt32 × UInt8))
  | .link r, stores => do return (← carry r, stores)
  | .store address byte, stores => return ((), (address, byte) :: stores)

namespace ByteScript

/-- The byte of the script that stands for nothing waiting. -/
def silence : UInt8 := 0xEE

def device : Device Boot.Target Exhausted ByteScript
  | .link (.send byte) => fun s => .ok () { s with log := s.log.add ("W" ++ Text.hexPadded 2 byte.toNat) }
  | .link .flush => fun s => .ok () { s with log := s.log.add "F" }
  | .link .poll => fun s =>
    match s.input with
    | [] => .error .inputExhausted s
    | byte :: rest => .ok (if byte = silence then none else some byte) { s with input := rest }
  | .store address byte => fun s => .ok () { s with stores := (address, byte) :: s.stores }

end ByteScript

end BoardSupport.Bench
