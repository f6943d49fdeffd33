import BoardSupport.Boot.Transfer
import BoardSupport.Serial.Link

/-! The device side of a transfer, as a machine that takes one byte at a time. Bytes before SOH, and
between the address and STX, are ignored. -/
namespace BoardSupport.Boot

/-- How far a transfer has come. -/
inductive Phase
  /-- Nothing that matters has arrived. -/
  | idle
  /-- SOH has arrived, and then these bytes of the address. -/
  | address (received : List UInt8)
  /-- The address is known and STX is still to come. -/
  | addressed (start : UInt32)
  /-- The image is arriving; its next byte belongs at `next`, if memory has room for one. -/
  | loading (start : UInt32) (next : Option UInt32) (length : UInt32)
  deriving DecidableEq, Repr

/-- What one byte of a transfer leads to. -/
inductive Step
  /-- The transfer goes on. -/
  | proceed (phase : Phase)
  /-- The byte belongs to the image, at this address. -/
  | keep (address : UInt32) (phase : Phase)
  /-- The transfer is over. -/
  | finish (result : Except BootError Image)

/-- The address after another, unless that was the last. -/
def addressAfter (address : UInt32) : Option UInt32 :=
  if address.toNat + 1 < UInt32.size then some (address + 1) else none

/-- What a byte leads to. No byte outside the window is kept: the first that would be ends the
transfer. -/
def Phase.feed (window : Window) (byte : UInt8) : Phase → Step
  | .idle => .proceed (if byte = soh then .address [] else .idle)
  | .address [b0, b1, b2] => .proceed (.addressed (Word.ofLittleEndian b0 b1 b2 byte))
  | .address received => .proceed (.address (received ++ [byte]))
  | .addressed start => .proceed (if byte = stx then .loading start (some start) 0 else .addressed start)
  | .loading start next length =>
    if byte = etx then .finish (.ok ⟨start, length⟩)
    else match next with
      | none => .finish (.error .addressOverflow)
      | some target =>
        if target ∈ window then .keep target (.loading start (addressAfter target) (length + 1))
        else .finish (.error (.outOfBounds target))

namespace Target

inductive Request
  /-- Moves bytes over the serial link. -/
  | link (r : Link.Request)
  /-- Puts a byte into memory. -/
  | store (address : UInt32) (byte : UInt8)
  deriving DecidableEq, Repr

end Target

/-- What a receiver needs: a serial link, and memory to load into. -/
abbrev Target : Interface where
  Request := Target.Request
  Reply
    | .link r => Link.Reply r
    | .store .. => Unit

/-- Runs a byte-stream program on the link of a target. -/
def Target.overLink {α : Type} (p : Program Link α) : Program Target α :=
  p.interpret fun r => Program.call (I := Target) (.link r)

/-- Polls for one byte and acts on it. -/
def receiveStep (window : Window) (phase : Phase) :
    Program Target (Phase ⊕ Except BootError Image) := do
  match ← Target.overLink Link.poll with
  | none => return .inl phase
  | some byte =>
    match phase.feed window byte with
    | .proceed phase' => return .inl phase'
    | .keep address phase' => do
      Program.call (I := Target) (.store address byte)
      return .inl phase'
    | .finish result => return .inr result

/-- Announces the device and receives one image into the window. The byte that ends the transfer
is the last one taken. -/
def receive (window : Window) : Program Target (Except BootError Image) := do
  Target.overLink (do Link.send xon; Link.flush)
  Program.iterate (receiveStep window) .idle

end BoardSupport.Boot
