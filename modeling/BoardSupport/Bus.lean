import BoardSupport.Platform
import BoardSupport.Program

/-! The bus as a processor sees it: 32-bit words at 64-bit byte addresses, which wrap at the top, and
time to spend between accesses. -/
namespace BoardSupport

namespace Bus

inductive Request
  | load (address : Address)
  | store (address : Address) (value : UInt32)
  /-- Spends so many rounds of the idle loop. -/
  | idle (rounds : UInt32)
  deriving DecidableEq, Repr

end Bus

/-- Loads answer with the word found. -/
abbrev Bus : Interface where
  Request := Bus.Request
  Reply
    | .load _ => UInt32
    | _ => Unit

namespace Bus

/-- The address of the word `index` places after the one at `base`. -/
def word (base : Address) (index : Nat) : Address := base + UInt64.ofNat (4 * index)

def load (address : Address) : Program Bus UInt32 := Program.call (I := Bus) (.load address)

def store (address : Address) (value : UInt32) : Program Bus Unit :=
  Program.call (I := Bus) (.store address value)

def idle (rounds : UInt32) : Program Bus Unit := Program.call (I := Bus) (.idle rounds)

/-- Loads a word and stores what `f` makes of it. -/
def modify (address : Address) (f : UInt32 → UInt32) : Program Bus Unit := do
  store address (f (← load address))

def setBits (address : Address) (mask : UInt32) : Program Bus Unit := modify address (· ||| mask)

def clearBits (address : Address) (mask : UInt32) : Program Bus Unit := modify address (· &&& ~~~mask)

/-- An address where addresses have 32 bits and wrap at the top of those. -/
def narrow (address : Address) : Address := address.toUInt32.toUInt64

def carryNarrow : (r : Bus.Request) → Program Bus (Bus.Reply r)
  | .load address => load (narrow address)
  | .store address value => store (narrow address) value
  | .idle rounds => idle rounds

/-- Runs a program on a bus whose addresses have 32 bits. -/
def onNarrow {α : Type} (p : Program Bus α) : Program Bus α := p.interpret carryNarrow

end Bus

end BoardSupport
