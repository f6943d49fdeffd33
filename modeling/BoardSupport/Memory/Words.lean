import BoardSupport.Bus

/-! Memories of 32-bit words, and ranges of the bus that serve as such. -/
namespace BoardSupport

namespace WordMemory

inductive Request
  | read (index : Nat)
  | write (index : Nat) (value : UInt32)
  deriving DecidableEq, Repr

end WordMemory

/-- A memory whose words are counted from zero. -/
abbrev WordMemory : Interface where
  Request := WordMemory.Request
  Reply
    | .read _ => UInt32
    | .write .. => Unit

namespace WordMemory

def read (index : Nat) : Program WordMemory UInt32 := Program.call (I := WordMemory) (.read index)

def write (index : Nat) (value : UInt32) : Program WordMemory Unit :=
  Program.call (I := WordMemory) (.write index value)

/-- Carries requests out on the `words` words of the bus from `base`. A word past the end is not
touched: the program gives up with `past` of its index. -/
def carry (base : Address) (words : Nat) (past : Nat → Fault) :
    (r : Request) → Program Bus (WordMemory.Reply r)
  | .read index => if index < words then Bus.load (Bus.word base index) else .fault (past index)
  | .write index value =>
    if index < words then Bus.store (Bus.word base index) value else .fault (past index)

end WordMemory

/-- A range of memory that programs may overwrite. -/
structure Region where
  base : Address
  bytes : Nat

namespace Region

/-- Whole words of a region. -/
def words (r : Region) : Nat := r.bytes / 4

def carry (r : Region) : (q : WordMemory.Request) → Program Bus (WordMemory.Reply q) :=
  WordMemory.carry r.base r.words fun _ => .wordOutsideRegion

end Region

structure WordArray where
  base : Address
  words : Nat

def WordArray.carry (a : WordArray) : (q : WordMemory.Request) → Program Bus (WordMemory.Reply q) :=
  WordMemory.carry a.base a.words (.indexOutOfBounds a.words)

end BoardSupport
