import BoardSupport.Program
import BoardSupport.Text.Described

/-! I²C transactions, as drivers of I²C devices ask for them. -/
namespace BoardSupport.I2c

inductive Operation
  | write (bytes : List UInt8)
  | read (length : Nat)
  deriving DecidableEq, Repr

/-- Operations on one target between a START and a STOP. -/
structure Transaction where
  address : UInt8
  operations : List Operation
  deriving DecidableEq, Repr

namespace Transaction

/-- Everything a transaction writes, in order. -/
def written (t : Transaction) : List UInt8 :=
  t.operations.flatMap fun
    | .write bytes => bytes
    | .read _ => []

def hasRead (t : Transaction) : Bool :=
  t.operations.any fun
    | .write _ => false
    | .read _ => true

end Transaction

/-- A bus that carries transactions out, or refuses them with an `ε`. -/
abbrev Controller (ε : Type) : Interface where
  Request := Transaction
  Reply _ := Except ε Unit

/-- Why the write-only bus refused a transaction. -/
inductive I2cError
  | readUnsupported
  deriving DecidableEq, Repr

instance : Text.Describe I2cError where
  describe
    | .readUnsupported => .bare "ReadUnsupported"

/-- What the general classes of I²C error say of an error that is in none of them. -/
def I2cError.kind (_ : I2cError) : String :=
  "A different error occurred. The original error may contain more information"

end BoardSupport.I2c
