import BoardSupport.Memory.Test
import BoardSupport.Proofs.Program.Failing
import Mathlib.Logic.Function.Basic

/-! Memories whose words reach their cells over wires that may be wrong. -/
namespace BoardSupport.Memory

open Program

/-- How the words of a memory reach its cells. -/
structure Wiring (κ : Type) where
  /-- The cell that reading a word shows. -/
  shown : Nat → κ
  /-- What reading a word makes of what its cell holds. -/
  path : Nat → UInt32 → UInt32
  /-- The cells that writing a word stores to. -/
  stored : Nat → κ → Bool

structure PastEnd where
  index : Nat

namespace Wiring

variable {κ : Type}

/-- A decoder from words to cells, and one data path for all of them. -/
def decoded [DecidableEq κ] (decoder : Nat → κ) (path : UInt32 → UInt32) : Wiring κ where
  shown := decoder
  path _ := path
  stored index cell := cell = decoder index

def value (w : Wiring κ) (cells : κ → UInt32) (index : Nat) : UInt32 :=
  w.path index (cells (w.shown index))

def store (w : Wiring κ) (index : Nat) (v : UInt32) (cells : κ → UInt32) : κ → UInt32 :=
  fun cell => if w.stored index cell then v else cells cell

/-- A memory of `n` words, which stops the run at an index past its end. -/
def device (w : Wiring κ) (n : Nat) : Device WordMemory PastEnd (κ → UInt32)
  | .read index => fun cells =>
    if index < n then .ok (w.value cells index) cells else .error ⟨index⟩ cells
  | .write index v => fun cells =>
    if index < n then .ok () (w.store index v cells) else .error ⟨index⟩ cells

section Accesses

variable {w : Wiring κ} {n index : Nat} {cells : κ → UInt32}

theorem ends_write (inside : index < n) (v : UInt32) :
    Ends (w.device n) (Test.write index v).run cells (.ok (.ok ()) (w.store index v cells)) := by
  have writes : w.device n (.write index v) cells = .ok () (w.store index v cells) := by
    simp only [device, if_pos inside]
  exact .ask writes (.done _ _)

private theorem ends_read (inside : index < n) :
    Ends (w.device n) (ExceptT.lift (WordMemory.read index) : Test UInt32).run cells
      (.ok (.ok (w.value cells index)) cells) := by
  have reads : w.device n (.read index) cells = .ok (w.value cells index) cells := by
    simp only [device, if_pos inside]
  exact .ask reads (.done _ _)

theorem ends_expect {expected : UInt32} (inside : index < n) (fault : UInt32 → TestError)
    (same : w.value cells index = expected) :
    Ends (w.device n) (Test.expect index expected fault).run cells (.ok (.ok ()) cells) := by
  refine (ends_read inside).proceed ?_
  rw [if_neg (not_not.mpr same)]
  exact .succeed _ _

theorem ends_expect_fault {expected : UInt32} (inside : index < n) (fault : UInt32 → TestError)
    (other : w.value cells index ≠ expected) :
    Ends (w.device n) (Test.expect index expected fault).run cells
      (.ok (.error (fault (w.value cells index))) cells) := by
  refine (ends_read inside).proceed ?_
  rw [if_pos other]
  exact .fail _ _

/-- A look at a word ends one way or the other, and leaves the cells as they are. -/
theorem ends_expect_either (inside : index < n) (expected : UInt32) (fault : UInt32 → TestError)
    (cells : κ → UInt32) :
    (w.value cells index = expected ∧
      Ends (w.device n) (Test.expect index expected fault).run cells (.ok (.ok ()) cells)) ∨
    (w.value cells index ≠ expected ∧ Ends (w.device n) (Test.expect index expected fault).run cells
      (.ok (.error (fault (w.value cells index))) cells)) := by
  by_cases same : w.value cells index = expected
  · exact .inl ⟨same, ends_expect inside fault same⟩
  · exact .inr ⟨same, ends_expect_fault inside fault same⟩

end Accesses

section Direct

variable {w : Wiring κ} {cells : κ → UInt32}

/-- Writing the word `index` shows where `other` is read. -/
def reaches (w : Wiring κ) (index other : Nat) : Bool := w.stored index (w.shown other)

/-- Words read as what their cells hold. -/
def Direct (w : Wiring κ) : Prop := ∀ index v, w.path index v = v

theorem Direct.value_store (direct : w.Direct) (index other : Nat) (v : UInt32) :
    w.value (w.store index v cells) other =
      if w.reaches index other then v else w.value cells other := by
  simp only [value, store, reaches, direct other]

/-- Words read back what was written to them, and share cells as the decoder has it. -/
structure Keeps (w : Wiring κ) (decoder : Nat → κ) : Prop where
  direct : w.Direct
  shares : ∀ index other, w.reaches index other = true ↔ decoder other = decoder index

theorem Keeps.value_store [DecidableEq κ] {decoder : Nat → κ} (keeps : w.Keeps decoder)
    (index other : Nat) (v : UInt32) : w.value (w.store index v cells) other =
      if decoder other = decoder index then v else w.value cells other := by
  simp only [keeps.direct.value_store, keeps.shares]

end Direct

section Decoded

variable [DecidableEq κ] {decoder : Nat → κ} {path : UInt32 → UInt32} {cells : κ → UInt32}

/-- A write shows wherever the same cell is read. -/
theorem value_store (index other : Nat) (v : UInt32) :
    (decoded decoder path).value ((decoded decoder path).store index v cells) other =
      if decoder other = decoder index then path v else (decoded decoder path).value cells other := by
  simp only [value, store, decoded, decide_eq_true_eq]
  split <;> rfl

theorem decoded_keeps (h : ∀ v, path v = v) : (decoded decoder path).Keeps decoder where
  direct _ v := h v
  shares _ _ := decide_eq_true_iff

end Decoded

end Wiring

end BoardSupport.Memory
