import BoardSupport.Proofs.SdCard.Wire
import Mathlib.Data.Stream.Defs

/-! Histories of a card: operations of the driver in any order, on a wire with any replies. Each
entry keeps what was answered and what passed. -/
namespace BoardSupport.SdCard

open Spi Program

/-- What can be asked of the driver. -/
inductive Operation
  | init
  | readBlock (block : UInt32) (buffer : Block)
  | writeBlock (block : UInt32) (data : List UInt8)
  | goIdle
  | sendInterfaceCondition
  | readOcr
  | announceSpecific
  | sendOperatingCondition (highCapacity : Bool)
  deriving DecidableEq

namespace Operation

/-- What an operation that succeeds answers with. -/
abbrev Answer : Operation → Type
  | init => Kind
  | readBlock .. => Block
  | writeBlock .. => Unit
  | goIdle | announceSpecific | sendOperatingCondition _ => R1
  | sendInterfaceCondition => R7
  | readOcr => R1 × Ocr

/-- Runs a session that leaves what is known of the card as it is. -/
def keeping {α : Type} (card : SdCard) (s : Session α) : Program Channel (Except SdError α × SdCard) := do
  return (← s.run, card)

def perform : (operation : Operation) → SdCard →
    Program Channel (Except SdError operation.Answer × SdCard)
  | init, card => card.init
  | readBlock block buffer, card => keeping card (readingBlock card.kind block buffer)
  | writeBlock block data, card => keeping card (SdCard.writeBlock card.kind block data)
  | goIdle, card => keeping card SdCard.goIdle
  | sendInterfaceCondition, card => keeping card SdCard.sendInterfaceCondition
  | readOcr, card => keeping card SdCard.readOcr
  | announceSpecific, card => keeping card SdCard.announceSpecific
  | sendOperatingCondition highCapacity, card =>
    keeping card (SdCard.sendOperatingCondition highCapacity)

end Operation

/-- One operation of a history. -/
structure Entry where
  operation : Operation
  /-- The kind that the driver took the card for when the operation began. -/
  kind : Option Kind
  answer : Except SdError operation.Answer
  trace : List (Exchange Channel)

namespace Entry

/-- What was asked of the wire. -/
def requests (e : Entry) : List Channel.Request := e.trace.map (·.request)

/-- How a bring-up ended, if the operation was one. -/
def bringUp? : Entry → Option (Except SdError Kind)
  | ⟨.init, _, answer, _⟩ => some answer
  | _ => none

end Entry

/-- A wire whose reads are answered by a stream. -/
def answering : Device Channel Empty (Stream' UInt8)
  | .read => fun replies => .ok replies.head replies.tail
  | .select => fun replies => .ok () replies
  | .deselect => fun replies => .ok () replies
  | .write _ => fun replies => .ok () replies
  | .throttle _ => fun replies => .ok () replies
  | .delay _ => fun replies => .ok () replies

/-- The entry begins with one card and leaves the other. -/
def Entry.Takes (e : Entry) (card card' : SdCard) : Prop :=
  e.kind = card.kind ∧ Follows (e.operation.perform card) e.trace (e.answer, card')

/-- Entries in which each operation begins with the card that the one before it left. -/
inductive Course : SdCard → List Entry → SdCard → Prop
  | nil (card : SdCard) : Course card [] card
  | cons {card mid card' : SdCard} {e : Entry} {entries : List Entry} (step : e.Takes card mid)
      (rest : Course mid entries card') : Course card (e :: entries) card'

/-- What comes of operations on a card one after another: the entries, the card, and the replies that
have not been read. There is no history if an operation does not return. -/
def history (rounds : Nat) : SdCard → Stream' UInt8 → List Operation →
    Option (List Entry × SdCard × Stream' UInt8)
  | card, replies, [] => some ([], card, replies)
  | card, replies, operation :: operations =>
    match (operation.perform card).run rounds answering.recorded (replies, []) with
    | .ok (answer, card') (replies', trace) =>
      (history rounds card' replies' operations).map fun (entries, rest) =>
        (⟨operation, card.kind, answer, trace⟩ :: entries, rest)
    | .error .. => none

section Perform

variable {operation : Operation} {card card' : SdCard} {trace : List (Exchange Channel)}

/-- A bring-up answers with the kind that it leaves known, and it forgets the kind if it fails. -/
theorem follows_init {answer : Except SdError Kind}
    (h : Follows (Operation.init.perform card) trace (answer, card')) :
    Follows bringUp.run trace answer ∧ card'.kind = answer.toOption := by
  obtain ⟨r, first, second, rfl, course, ended⟩ := follows_bind.mp h
  obtain ⟨rfl, same⟩ := follows_done.mp ended
  obtain ⟨rfl, rfl⟩ := Prod.mk.inj same
  exact ⟨(List.append_nil first).symm ▸ course, rfl⟩

/-- Any other operation is a session of frames that leaves the card as it is. -/
theorem perform_eq_keeping (other : operation ≠ .init) (card : SdCard) :
    ∃ s : Session operation.Answer, operation.perform card = Operation.keeping card s ∧
      Framing (fun r => card.kind = none → StartsNoTransfer r) s := by
  cases operation with
  | init => exact absurd rfl other
  | readBlock block buffer => exact ⟨_, rfl, framing_readingBlock _ block buffer⟩
  | writeBlock block data => exact ⟨_, rfl, framing_writeBlock _ block data⟩
  | goIdle => exact ⟨_, rfl, framing_goIdle.imp fun _ h _ => h⟩
  | sendInterfaceCondition => exact ⟨_, rfl, framing_sendInterfaceCondition.imp fun _ h _ => h⟩
  | readOcr => exact ⟨_, rfl, framing_readOcr.imp fun _ h _ => h⟩
  | announceSpecific => exact ⟨_, rfl, framing_announceSpecific.imp fun _ h _ => h⟩
  | sendOperatingCondition highCapacity =>
    exact ⟨_, rfl, (framing_sendOperatingCondition highCapacity).imp fun _ h _ => h⟩

theorem follows_perform (other : operation ≠ .init) {answer : Except SdError operation.Answer}
    (h : Follows (operation.perform card) trace (answer, card')) : Framed trace ∧ card' = card := by
  obtain ⟨s, same, framing⟩ := perform_eq_keeping other card
  rw [same] at h
  obtain ⟨r, first, second, rfl, course, ended⟩ := follows_bind.mp h
  obtain ⟨rfl, kept⟩ := follows_done.mp ended
  obtain ⟨rfl, rfl⟩ := Prod.mk.inj kept
  exact ⟨(List.append_nil first).symm ▸ framing.framed course, rfl⟩

/-- Every operation returns. It starts the transfer of a block only if the kind of card is known, and
never in a bring-up. -/
theorem bounded_perform (operation : Operation) (card : SdCard) :
    (operation.perform card).Bounded fun r =>
      card.kind = none ∨ operation = .init → StartsNoTransfer r := by
  by_cases other : operation = .init
  · subst other
    exact (bounded_bringUp.imp fun _ h _ => h).bind fun _ => trivial
  · obtain ⟨s, same, framing⟩ := perform_eq_keeping other card
    rw [same]
    refine Bounded.bind (framing.bounded.imp fun _ h none => ?_) fun _ => trivial
    exact h (none.resolve_right other)

end Perform

section Steps

variable {card card' : SdCard}

private theorem bringUp?_of_ne {e : Entry} (other : e.operation ≠ .init) : e.bringUp? = none := by
  obtain ⟨operation, kind, answer, trace⟩ := e
  cases operation with
  | init => exact absurd rfl other
  | _ => rfl

/-- An entry is a bring-up that leaves the kind it found, or it makes frames and leaves the card as
it was. -/
theorem Entry.Takes.cases {e : Entry} (h : e.Takes card card') :
    (∃ r, e.operation = .init ∧ e.bringUp? = some r ∧ Follows bringUp.run e.trace r ∧
        card'.kind = r.toOption) ∨
      (e.operation ≠ .init ∧ e.bringUp? = none ∧ Framed e.trace ∧ card' = card) := by
  obtain ⟨operation, kind, answer, trace⟩ := e
  obtain ⟨-, course⟩ := h
  by_cases other : operation = .init
  · subst other
    obtain ⟨course, known⟩ := follows_init course
    exact .inl ⟨answer, rfl, rfl, course, known⟩
  · obtain ⟨frames, same⟩ := follows_perform other course
    exact .inr ⟨other, bringUp?_of_ne other, frames, same⟩

/-- Every operation returns, whatever the replies, so there is a history of any operations. -/
theorem history_course (rounds : Nat) (card : SdCard) (replies : Stream' UInt8)
    (operations : List Operation) : ∃ entries card' rest,
      history rounds card replies operations = some (entries, card', rest) ∧
        entries.map Entry.operation = operations ∧ Course card entries card' := by
  induction operations generalizing card replies with
  | nil => exact ⟨[], card, replies, rfl, rfl, .nil card⟩
  | cons operation operations ih =>
    obtain ⟨⟨answer, mid⟩, ⟨replies', trace⟩, ran⟩ :=
      (bounded_perform operation card).run rounds answering.recorded (replies, [])
    obtain ⟨entries, card', rest, later, same, course⟩ := ih mid replies'
    obtain ⟨_, rfl, follows⟩ := run_recorded ran
    refine ⟨⟨operation, card.kind, answer, trace⟩ :: entries, card', rest, ?_, ?_, ?_⟩
    · simp only [history, ran, later, Option.map_some]
    · rw [List.map_cons, same]
    · exact .cons ⟨rfl, follows⟩ course

end Steps

end BoardSupport.SdCard
