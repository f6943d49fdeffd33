import BoardSupport.Proofs.Serial.Port
import BoardSupport.Proofs.Word.Bytes

/-! What can be asked of a serial port. A call sends the bytes that it is asked to, and the bytes that it
answers with are those that it has taken from the port. -/
namespace BoardSupport

open Program

inductive Link.Call
  | send (b : UInt8)
  | sendAll (bytes : List UInt8)
  | sendLine (s : String)
  | flush
  | poll
  | receive
  | receiveWord

namespace Link.Call

abbrev Answer : Call → Type
  | poll => Option UInt8
  | receive => UInt8
  | receiveWord => UInt32
  | _ => Unit

def perform : (call : Call) → Program Link call.Answer
  | send b => Link.send b
  | sendAll bytes => Link.sendAll bytes
  | sendLine s => Link.sendLine s
  | flush => Link.flush
  | poll => Link.poll
  | receive => Link.receive
  | receiveWord => Link.receiveWord

/-- The bytes to send. -/
def asked : Call → List UInt8
  | send b => [b]
  | sendAll bytes => bytes
  | sendLine s => Text.bytes s ++ [13, 10]
  | _ => []

/-- The bytes in an answer, the first received first. -/
def returned : (call : Call) → call.Answer → List UInt8
  | poll, answer => answer.toList
  | receive, b => [b]
  | receiveWord, word => Word.toLittleEndian word
  | _, _ => []

end Link.Call

inductive Port.Call : Port → Type
  | link {p : Port} (call : Link.Call) : Call p
  | putChar {u : Uart} (b : UInt8) : Call (.uart u)
  | getChar {u : Uart} : Call (.uart u)
  | write {u : Uart} (s : String) : Call (.uart u)

namespace Port.Call

variable {p : Port}

abbrev Answer : p.Call → Type
  | link call => call.Answer
  | putChar _ => Unit
  | getChar => UInt8
  | write _ => Unit

def perform : {p : Port} → (call : p.Call) → Program Bus call.Answer
  | .uart u, link call => u.runLink call.perform
  | .narrow u, link call => Bus.onNarrow (u.runLink call.perform)
  | .psUart u, link call => u.runLink call.perform
  | .uart u, putChar b => u.send b
  | .uart u, getChar => u.runLink Link.receive
  | .uart u, write s => u.write s

/-- The bytes to send. In a text that is written a carriage return goes before each line feed. -/
def asked : p.Call → List UInt8
  | link call => call.asked
  | putChar b => [b]
  | getChar => []
  | write s => (Text.bytes s).flatMap fun b => if b = 10 then [13, 10] else [b]

/-- The bytes in an answer, the first received first. -/
def returned : (call : p.Call) → call.Answer → List UInt8
  | link call, answer => call.returned answer
  | putChar _, _ => []
  | getChar, b => [b]
  | write _, _ => []

end Port.Call

section Courses

variable {first second course : List (Exchange Link)} {sent taken sent' taken' : List UInt8}

/-- These bytes have passed through a byte stream. -/
private def Passed (course : List (Exchange Link)) (sent taken : List UInt8) : Prop :=
  course.flatMap Link.sent = sent ∧ course.flatMap Link.taken = taken

private theorem Passed.nil : Passed [] [] [] := ⟨rfl, rfl⟩

private theorem Passed.append (h : Passed first sent taken) (h' : Passed second sent' taken') :
    Passed (first ++ second) (sent ++ sent') (taken ++ taken') := by
  obtain ⟨rfl, rfl⟩ := h
  obtain ⟨rfl, rfl⟩ := h'
  exact ⟨List.flatMap_append, List.flatMap_append⟩

private theorem passed_send {b : UInt8} {answer : Unit} (h : Follows (Link.send b) course answer) :
    Passed course [b] [] := by
  obtain rfl := follows_call.mp h
  exact ⟨rfl, rfl⟩

private theorem passed_poll {answer : Option UInt8} (h : Follows Link.poll course answer) :
    Passed course [] answer.toList := by
  obtain rfl := follows_call.mp h
  exact ⟨rfl, List.append_nil _⟩

private theorem passed_receive {b : UInt8} (h : Follows Link.receive course b) :
    Passed course [] [b] := by
  apply Follows.rounds (motive := fun _ course b => Passed course [] [b]) _ _ h
  · intro _ round b once
    obtain ⟨answer, polled, rest, rfl, poll, left⟩ := follows_bind.mp once
    cases answer with
    | none =>
      obtain ⟨-, again⟩ := follows_done.mp left
      cases again
    | some b' =>
      obtain ⟨rfl, same⟩ := follows_done.mp left
      cases same
      exact (passed_poll poll).append .nil
  · intro _ _ round course b once passed
    -- A round that is not the last has found nothing, so it moves nothing either.
    obtain ⟨answer, polled, rest, rfl, poll, left⟩ := follows_bind.mp once
    cases answer with
    | none =>
      obtain ⟨rfl, -⟩ := follows_done.mp left
      exact ((passed_poll poll).append .nil).append passed
    | some b' =>
      obtain ⟨-, ended⟩ := follows_done.mp left
      cases ended

private theorem passed_sendAll {bytes : List UInt8} {answer : Unit}
    (h : Follows (Link.sendAll bytes) course answer) : Passed course bytes [] := by
  induction bytes generalizing course with
  | nil =>
    obtain ⟨rfl, -⟩ := follows_done.mp h
    exact ⟨rfl, rfl⟩
  | cons b rest ih =>
    obtain ⟨_, first, second, rfl, head, tail⟩ := follows_bind.mp h
    exact (passed_send head).append (ih tail)

private theorem passed_perform {call : Link.Call} {answer : call.Answer}
    (h : Follows call.perform course answer) : Passed course call.asked (call.returned answer) := by
  cases call with
  | send b => exact passed_send h
  | sendAll bytes => exact passed_sendAll h
  | sendLine s =>
    obtain ⟨_, first, second, rfl, text, lineEnd⟩ := follows_bind.mp h
    exact (passed_sendAll text).append (passed_sendAll lineEnd)
  | flush =>
    obtain rfl := follows_call.mp h
    exact ⟨rfl, rfl⟩
  | poll => exact passed_poll h
  | receive => exact passed_receive h
  | receiveWord =>
    obtain ⟨b0, first, _, rfl, h0, h⟩ := follows_bind.mp h
    obtain ⟨b1, second, _, rfl, h1, h⟩ := follows_bind.mp h
    obtain ⟨b2, third, _, rfl, h2, h⟩ := follows_bind.mp h
    obtain ⟨b3, fourth, _, rfl, h3, h⟩ := follows_bind.mp h
    obtain ⟨rfl, rfl⟩ := follows_done.mp h
    simp only [Link.Call.returned, Word.toLittleEndian_ofLittleEndian]
    exact (passed_receive h0).append ((passed_receive h1).append ((passed_receive h2).append
      ((passed_receive h3).append .nil)))

end Courses

namespace Port.Call

variable {p : Port}

/-- What a call does with the byte stream of the port. -/
def program : (call : p.Call) → Program Link call.Answer
  | link call => call.perform
  | putChar b => Link.send b
  | getChar => Link.receive
  | write s => Link.sendAll (Uart.withReturns s)

private theorem sendAll_interpret (u : Uart) (bytes : List UInt8) :
    bytes.forM u.send = (Link.sendAll bytes).interpret u.carry := by
  rw [Link.sendAll, interpret_forM]
  rfl

theorem perform_eq : {p : Port} → (call : p.Call) → call.perform = call.program.interpret p.carry
  | .uart _, link _ => rfl
  | .narrow _, link _ => interpret_interpret ..
  | .psUart _, link _ => rfl
  | .uart u, putChar b => (bind_pure (u.send b)).symm
  | .uart _, getChar => rfl
  | .uart u, write s => sendAll_interpret u (Uart.withReturns s)

theorem moved_perform {call : p.Call} {log : List (Exchange Bus)} {answer : call.Answer}
    (h : Follows call.perform log answer) : p.Moved log call.asked (call.returned answer) := by
  rw [perform_eq] at h
  obtain ⟨course, follows, carries⟩ := follows_interpret.mp h
  have passed : Passed course call.asked (call.returned answer) := by
    cases call with
    | link call => exact passed_perform follows
    | putChar b => exact passed_send follows
    | getChar => exact passed_receive follows
    | write s => exact passed_sendAll follows
  obtain ⟨sent, taken⟩ := passed
  rw [← sent, ← taken]
  exact moved_carries carries

end Port.Call

end BoardSupport
