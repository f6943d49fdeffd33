import BoardSupport.Memory.Psram
import BoardSupport.Proofs.Program.Exchange
import Mathlib.Algebra.Group.Nat.Defs
import Mathlib.Logic.Function.Basic

/-! A serial memory chip, and the array of bytes that it stands for. The chip objects to whatever a
driver must not do. In a frame it is in one of three phases, by the command that opened it. -/
namespace BoardSupport.Psram

open Spi Program

/-- What a chip objects to. -/
inductive Misuse
  | selectedAgain
  /-- A byte outside a frame. -/
  | unselected
  /-- A read before the command and its address are complete. -/
  | early
  /-- Data after a command that does not write. -/
  | notWriting
  /-- A read after a command that answers nothing. -/
  | notReading
  deriving DecidableEq

structure Chip where
  cells : Nat → UInt8
  selected : Bool
  /-- The command and the address bytes of the frame so far. -/
  header : List UInt8
  cursor : Nat
  /-- What is left to answer of the id. -/
  id : List UInt8

namespace Chip

def fresh : Chip := ⟨fun _ => 0, false, [], 0, []⟩

def idBytes : List UInt8 := [0x0d, 0x5d, 0x52, 0x00, 0x11, 0x22, 0x33, 0x44]

def advance (chip : Chip) : Chip := { chip with cursor := (chip.cursor + 1) % 2 ^ 23 }

def select : EStateM Misuse Chip Unit := fun chip =>
  if chip.selected then .error .selectedAgain chip
  else .ok () { chip with selected := true, header := [], id := [] }

def write (byte : UInt8) : EStateM Misuse Chip Unit := fun chip =>
  if !chip.selected then .error .unselected chip
  else match chip.header with
    | [command, high, middle] =>
      .ok () { chip with
        header := [command, high, middle, byte]
        cursor := high.toNat * 65536 + middle.toNat * 256 + byte.toNat
        id := if command = 0x9F then idBytes else chip.id }
    | 0x02 :: _ :: _ :: _ :: _ =>
      .ok () (advance { chip with cells := Function.update chip.cells chip.cursor byte })
    | _ :: _ :: _ :: _ :: _ => .error .notWriting chip
    | short => .ok () { chip with header := short ++ [byte] }

def read : EStateM Misuse Chip UInt8 := fun chip =>
  if !chip.selected then .error .unselected chip
  else match chip.header with
    | [0x03, _, _, _] => .ok (chip.cells chip.cursor) chip.advance
    | [0x9F, _, _, _] => .ok (chip.id.headD 0xFF) { chip with id := chip.id.tail }
    | [_, _, _, _] => .error .notReading chip
    | _ => .error .early chip

def device : Device Channel Misuse Chip
  | .select => select
  | .deselect => fun chip => .ok () { chip with selected := false }
  | .write byte => write byte
  | .read => read
  | .throttle _ => fun chip => .ok () chip
  | .delay _ => fun chip => .ok () chip

end Chip

abbrev Contents := Fin (2 ^ 23) → UInt8

def place (address : Nat) : Fin (2 ^ 23) := ⟨address % 2 ^ 23, Nat.mod_lt _ (by decide)⟩

namespace Contents

def get (m : Contents) (address : Nat) : UInt8 := m (place address)

def put (m : Contents) (address : Nat) (b : UInt8) : Contents := Function.update m (place address) b

def slice (m : Contents) (address length : Nat) : List UInt8 :=
  (List.range length).map fun i => m.get (address + i)

def putAll (m : Contents) (address : Nat) : List UInt8 → Contents
  | [] => m
  | b :: rest => (m.put address b).putAll (address + 1) rest

def word (m : Contents) (index : Nat) : UInt32 :=
  Word.ofLittleEndian (m.get (4 * index)) (m.get (4 * index + 1)) (m.get (4 * index + 2))
    (m.get (4 * index + 3))

end Contents

/-- How far a frame has come. -/
inductive Phase
  | writing (m : Contents) (position : Nat)
  | reading (m : Contents) (position : Nat)
  | identifying (m : Contents) (rest : List UInt8)

namespace Phase

def contents : Phase → Contents
  | writing m _ | reading m _ | identifying m _ => m

def next : Phase → Option (UInt8 × Phase)
  | reading m position => some (m.get position, reading m (position + 1))
  | identifying m (b :: rest) => some (b, identifying m rest)
  | _ => none

/-- What is read by so many reads. -/
def take : Nat → Phase → Option (List UInt8 × Phase)
  | 0, phase => some ([], phase)
  | n + 1, phase => do
    let (b, phase) ← phase.next
    let (bytes, phase) ← take n phase
    return (b :: bytes, phase)

end Phase

namespace Chip

variable {chip : Chip} {m : Contents} {command : UInt8}

def Holds (chip : Chip) (m : Contents) : Prop := ∀ i : Fin (2 ^ 23), chip.cells i = m i

/-- The frame goes on with the data of a command. -/
structure Open (chip : Chip) (command : UInt8) (m : Contents) : Prop where
  selected : chip.selected = true
  header : ∃ high middle low, chip.header = [command, high, middle, low]
  holds : chip.Holds m

def Shows (chip : Chip) : Phase → Prop
  | .writing m position => chip.Open 0x02 m ∧ chip.cursor = position % 2 ^ 23
  | .reading m position => chip.Open 0x03 m ∧ chip.cursor = position % 2 ^ 23
  | .identifying m rest => chip.Open 0x9F m ∧ chip.id = rest

theorem Shows.holds {phase : Phase} (h : chip.Shows phase) : chip.Holds phase.contents := by
  cases phase <;> exact h.1.holds

theorem Holds.get {address : Nat} (h : chip.Holds m) (cursor : chip.cursor = address % 2 ^ 23) :
    chip.cells chip.cursor = m.get address := by
  rw [cursor]
  exact h (place address)

theorem write_writing {position : Nat} (h : chip.Shows (.writing m position)) (b : UInt8) :
    ∃ chip', write b chip = .ok () chip' ∧ chip'.Shows (.writing (m.put position b) (position + 1)) := by
  obtain ⟨⟨selected, ⟨high, middle, low, header⟩, holds⟩, cursor⟩ := h
  refine ⟨advance { chip with cells := Function.update chip.cells chip.cursor b }, ?_,
    ⟨selected, ⟨high, middle, low, header⟩, ?_⟩, ?_⟩
  · simp [write, selected, header]
  · intro i
    by_cases here : i = place position
    · subst here
      simp [advance, Contents.put, cursor, place]
    · have other : i.val ≠ chip.cursor := fun same => here (Fin.ext (same.trans cursor))
      change Function.update chip.cells chip.cursor b i = Function.update m (place position) b i
      rw [Function.update_of_ne other, Function.update_of_ne here]
      exact holds i
  · simp [advance, cursor]

theorem read_next {phase phase' : Phase} {b : UInt8} (h : chip.Shows phase)
    (next : phase.next = some (b, phase')) : ∃ chip', read chip = .ok b chip' ∧ chip'.Shows phase' := by
  cases phase with
  | writing m position => cases next
  | reading m position =>
    cases next
    obtain ⟨⟨selected, ⟨high, middle, low, header⟩, holds⟩, cursor⟩ := h
    refine ⟨chip.advance, ?_, ⟨selected, ⟨high, middle, low, header⟩, holds⟩, ?_⟩
    · simp [read, selected, header, holds.get cursor]
    · simp [advance, cursor]
  | identifying m rest =>
    obtain ⟨⟨selected, ⟨high, middle, low, header⟩, holds⟩, left⟩ := h
    cases rest with
    | nil => cases next
    | cons b rest =>
      cases next
      refine ⟨{ chip with id := rest }, ?_, ⟨selected, ⟨high, middle, low, header⟩, holds⟩, rfl⟩
      simp [read, selected, header, left]

end Chip

end BoardSupport.Psram
