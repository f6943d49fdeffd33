import BoardSupport.Bus
import BoardSupport.Program.Run

/-! Plain memory at the bottom of the bus. -/
namespace BoardSupport.Bench

/-- Words that can be loaded and stored, the first at address zero. -/
structure WordStore where
  words : Array UInt32

/-- Addresses past the last word hold zero and keep nothing. -/
def WordStore.device : Device Bus Empty WordStore
  | .load a => fun s => .ok (s.words.getD (a.toNat / 4) 0) s
  | .store a v => fun s => .ok () ⟨s.words.setIfInBounds (a.toNat / 4) v⟩
  | .idle _ => fun s => .ok () s

end BoardSupport.Bench
