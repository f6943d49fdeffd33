/-! Conditions under which a program gives up for good, and how each is reported. -/
namespace BoardSupport

/-- A broken promise inside a program. No program recovers from one. -/
inductive Fault
  /-- A sum left the range of its type. -/
  | addOverflow
  /-- A product left the range of its type. -/
  | mulOverflow
  /-- A screen row was asked for that the terminal does not have. -/
  | rowOutOfRange
  /-- A word was asked for that lies past the end of its memory region. -/
  | wordOutsideRegion
  /-- An OLED panel was described with no pages, or more than the controller has. -/
  | pageCount
  /-- Element `index` of a sequence of `length` elements was asked for. -/
  | indexOutOfBounds (length index : Nat)
  /-- A deadline lies beyond the last instant that the clock can represent. -/
  | deadlineOverflow
  deriving DecidableEq, Repr

def Fault.message : Fault → String
  | .addOverflow => "attempt to add with overflow"
  | .mulOverflow => "attempt to multiply with overflow"
  | .rowOutOfRange => "assertion failed: r < H"
  | .wordOutsideRegion => "assertion failed: index < self.words"
  | .pageCount => "assertion failed: pages > 0 && pages <= DEFAULT_PAGES"
  | .indexOutOfBounds length index =>
    "index out of bounds: the len is " ++ toString length ++ " but the index is " ++ toString index
  | .deadlineOverflow => "overflow when adding duration to instant"

end BoardSupport
