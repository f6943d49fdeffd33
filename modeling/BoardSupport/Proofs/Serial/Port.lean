import BoardSupport.Proofs.Program.Carrying
import BoardSupport.Serial.PsUart
import BoardSupport.Serial.Uart

/-! What the serial ports have in common: a status to look at before each byte, and a register to move it
through. -/
namespace BoardSupport

open Program

namespace Link

def sent : Exchange Link → List UInt8
  | ⟨.send b, _⟩ => [b]
  | _ => []

def taken : Exchange Link → List UInt8
  | ⟨.poll, reply⟩ => reply.toList
  | _ => []

end Link

/-- Where addresses have 32 bits, only the low 32 bits of an offset matter. -/
theorem Bus.narrow_add_inj {base a b : Address} :
    Bus.narrow (base + a) = Bus.narrow (base + b) ↔ a.toUInt32 = b.toUInt32 := by
  rw [Bus.narrow, Bus.narrow, UInt32.toUInt64_inj, UInt64.toUInt32_add, UInt64.toUInt32_add, UInt32.add_right_inj]

inductive Port
  | uart (u : Uart)
  /-- On a bus whose addresses have 32 bits. -/
  | narrow (u : Uart)
  | psUart (u : PsUart)

namespace Port

def carry : Port → (r : Link.Request) → Program Bus (Link.Reply r)
  | uart u => u.carry
  | narrow u => fun r => Bus.onNarrow (u.carry r)
  | psUart u => u.carry

/-- Where to look before sending. -/
def sendStatus : Port → Address
  | uart u => u.base + 0x04
  | narrow u => Bus.narrow (u.base + 0x04)
  | psUart u => u.base + 0x2C

def sendReady : Port → UInt32 → Bool
  | uart _, status | narrow _, status => status != 0
  | psUart _, status => status &&& 0x10 == 0

def dataOut : Port → Address
  | uart u => u.base
  | narrow u => Bus.narrow u.base
  | psUart u => u.base + 0x30

/-- Where to look before receiving. -/
def receiveStatus : Port → Address
  | uart u => u.base + 0x10
  | narrow u => Bus.narrow (u.base + 0x10)
  | psUart u => u.base + 0x2C

def receiveReady : Port → UInt32 → Bool
  | uart _, status | narrow _, status => status != 0
  | psUart _, status => status &&& 0x02 == 0

def dataIn : Port → Address
  | uart u => u.base + 0x0C
  | narrow u => Bus.narrow (u.base + 0x0C)
  | psUart u => u.base + 0x30

variable (p : Port)

def awaitSend : Program Bus Unit :=
  waitUntil do return p.sendReady (← Bus.load p.sendStatus)

def sendRound : Program Bus (Unit ⊕ Unit) := do
  if p.sendReady (← Bus.load p.sendStatus) then return .inr () else return .inl ()

theorem awaitSend_eq : p.awaitSend = iterate (fun () => p.sendRound) () := by
  simp only [awaitSend, waitUntil, bind_assoc, pure_bind]
  rfl

private theorem onNarrow_canSend (u : Uart) :
    Bus.onNarrow (waitUntil u.canSend) = (Port.narrow u).awaitSend := by
  refine congrArg (fun body => Program.loop body () done) (funext fun _ => ?_)
  refine congrArg (Program.ask (I := Bus) _) (funext fun status => ?_)
  change (if status != 0 then return .inr () else return .inl () : Program Bus (Unit ⊕ Unit)).interpret _ =
    if status != 0 then _ else _
  split <;> rfl

theorem carry_send (b : UInt8) : p.carry (.send b) = (do
    p.awaitSend
    Bus.store p.dataOut b.toUInt32) := by
  cases p with
  | uart u =>
    have base : u.dataOut = u.base := UInt64.add_zero u.base
    rw [dataOut, ← base]
    rfl
  | narrow u =>
    have base : u.dataOut = u.base := UInt64.add_zero u.base
    rw [dataOut, ← base, ← onNarrow_canSend]
    exact interpret_bind ..
  | psUart u => rfl

theorem carry_flush : p.carry .flush = p.awaitSend ∨ p.carry .flush = done () := by
  cases p with
  | uart u => exact .inl rfl
  | narrow u => exact .inl (onNarrow_canSend u)
  | psUart u => exact .inr rfl

theorem carry_poll : p.carry .poll = (do
    let status ← Bus.load p.receiveStatus
    if p.receiveReady status then
      return some (← Bus.load p.dataIn).toUInt8
    else return none : Program Bus (Option UInt8)) := by
  cases p with
  | uart u => rfl
  | narrow u =>
    refine congrArg (Program.ask (I := Bus) _) (funext fun status => ?_)
    change (if status != 0 then do return some (← Bus.load u.dataIn).toUInt8
      else return none : Program Bus (Option UInt8)).interpret _ = if status != 0 then _ else _
    split <;> rfl
  | psUart u =>
    simp only [carry, PsUart.carry, PsUart.poll]
    congr 1
    funext status
    by_cases waiting : status &&& 0x02 = 0
    · simp [receiveReady, PsUart.receiveEmpty, waiting]
      rfl
    · simp [receiveReady, PsUart.receiveEmpty, waiting]

theorem dataIn_ne_sendStatus : p.dataIn ≠ p.sendStatus := by
  cases p with
  | uart u => exact fun same => absurd ((UInt64.add_right_inj _).mp same) (by decide)
  | narrow u => exact fun same => absurd (Bus.narrow_add_inj.mp same) (by decide)
  | psUart u => exact fun same => absurd ((UInt64.add_right_inj _).mp same) (by decide)

theorem dataIn_ne_receiveStatus : p.dataIn ≠ p.receiveStatus := by
  cases p with
  | uart u => exact fun same => absurd ((UInt64.add_right_inj _).mp same) (by decide)
  | narrow u => exact fun same => absurd (Bus.narrow_add_inj.mp same) (by decide)
  | psUart u => exact fun same => absurd ((UInt64.add_right_inj _).mp same) (by decide)

/-- The exchange moves a byte, or what is left of one. -/
def Data (x : Exchange Bus) : Prop :=
  x.request = .load p.dataIn ∨ ∃ word, x.request = .store p.dataOut word

/-- The first exchange says that the port is ready for the second. -/
inductive Guards : Exchange Bus → Exchange Bus → Prop
  | send {status : UInt32} (ready : p.sendReady status) (word : UInt32) :
      Guards ⟨.load p.sendStatus, status⟩ ⟨.store p.dataOut word, ()⟩
  | take {status : UInt32} (ready : p.receiveReady status) (word : UInt32) :
      Guards ⟨.load p.receiveStatus, status⟩ ⟨.load p.dataIn, word⟩

/-- Right before each byte is moved the port says that it is ready. -/
def Guarded (log : List (Exchange Bus)) : Prop :=
  ∀ before x after, log = before ++ x :: after → p.Data x →
    ∃ earlier guard, before = earlier ++ [guard] ∧ p.Guards guard x

def written (log : List (Exchange Bus)) : List UInt32 :=
  log.filterMap fun
    | ⟨.store address word, _⟩ => if address = p.dataOut then some word else none
    | _ => none

def collected (log : List (Exchange Bus)) : List UInt32 :=
  log.filterMap fun
    | ⟨.load address, word⟩ => if address = p.dataIn then some word else none
    | _ => none

/-- These bytes have passed through the port, each when it was ready. -/
structure Moved (log : List (Exchange Bus)) (sent taken : List UInt8) : Prop where
  guarded : p.Guarded log
  written : p.written log = sent.map UInt8.toUInt32
  collected : (p.collected log).map UInt32.toUInt8 = taken

variable {p} {log first second : List (Exchange Bus)} {x guard : Exchange Bus}
  {sent taken sent' taken' : List UInt8}

theorem guarded_of_not_data (h : ∀ x ∈ log, ¬ p.Data x) : p.Guarded log := by
  rintro before x after rfl data
  exact absurd data (h x (by simp))

theorem Guarded.append (h : p.Guarded first) (h' : p.Guarded second) : p.Guarded (first ++ second) := by
  intro before x after split data
  rcases List.append_eq_append_iff.mp split with ⟨late, rfl, inside⟩ | ⟨early, inside, rest⟩
  · obtain ⟨earlier, guard, rfl, guards⟩ := h' late x after inside data
    exact ⟨first ++ earlier, guard, (List.append_assoc ..).symm, guards⟩
  · cases early with
    | nil =>
      -- `second` cannot begin with a byte that is moved, as it has no room for the guard.
      obtain ⟨earlier, guard, nothing, -⟩ := h' [] x after rest.symm data
      simp at nothing
    | cons y early =>
      obtain ⟨rfl, rfl⟩ := List.cons.inj rest
      exact h before x early inside data

theorem not_data_load {address : Address} {status : UInt32} (other : p.dataIn ≠ address) :
    ¬ p.Data ⟨.load address, status⟩ := by
  rintro (same | ⟨word, same⟩)
  · cases same
    exact other rfl
  · cases same

theorem Guards.not_data (guards : p.Guards guard x) : ¬ p.Data guard := by
  cases guards with
  | send => exact not_data_load p.dataIn_ne_sendStatus
  | take => exact not_data_load p.dataIn_ne_receiveStatus

theorem Guards.guarded (guards : p.Guards guard x) : p.Guarded [guard, x] := by
  rintro (_ | ⟨y, before⟩) z after split data
  · cases split
    exact absurd data guards.not_data
  · cases before with
    | nil =>
      cases split
      exact ⟨[], guard, rfl, guards⟩
    | cons => simp at split

namespace Moved

theorem append (h : p.Moved first sent taken) (h' : p.Moved second sent' taken') :
    p.Moved (first ++ second) (sent ++ sent') (taken ++ taken') where
  guarded := h.guarded.append h'.guarded
  written := by
    rw [List.map_append, ← h.written, ← h'.written]
    exact List.filterMap_append
  collected := by
    rw [← h.collected, ← h'.collected, ← List.map_append]
    exact congrArg _ List.filterMap_append

theorem nil : p.Moved [] [] [] := ⟨guarded_of_not_data (by simp), rfl, rfl⟩

theorem look {address : Address} (other : p.dataIn ≠ address) (status : UInt32) :
    p.Moved [⟨.load address, status⟩] [] [] where
  guarded := guarded_of_not_data (by simpa using not_data_load other)
  written := rfl
  collected := by simp [Port.collected, other.symm]

theorem send {status : UInt32} (ready : p.sendReady status) (b : UInt8) :
    p.Moved [⟨.load p.sendStatus, status⟩, ⟨.store p.dataOut b.toUInt32, ()⟩] [b] [] where
  guarded := (Guards.send ready _).guarded
  written := by simp [Port.written]
  collected := by simp [Port.collected, p.dataIn_ne_sendStatus.symm]

theorem take {status : UInt32} (ready : p.receiveReady status) (word : UInt32) :
    p.Moved [⟨.load p.receiveStatus, status⟩, ⟨.load p.dataIn, word⟩] [] [word.toUInt8] where
  guarded := (Guards.take ready _).guarded
  written := rfl
  collected := by simp [Port.collected, p.dataIn_ne_receiveStatus.symm]

end Moved

/-- A log that ends with the transmitter found ready. -/
private def Awaited (p : Port) (log : List (Exchange Bus)) : Prop :=
  ∃ busy status, log = busy ++ [⟨.load p.sendStatus, status⟩] ∧ p.sendReady status ∧ p.Moved busy [] []

private theorem follows_sendRound {round : List (Exchange Bus)} {next : Unit ⊕ Unit}
    (h : Follows p.sendRound round next) : ∃ status, round = [⟨.load p.sendStatus, status⟩] ∧
      next = if p.sendReady status then .inr () else .inl () := by
  obtain ⟨status, looked, rest, rfl, look, left⟩ := follows_bind.mp h
  obtain rfl := follows_call.mp look
  refine ⟨status, ?_⟩
  split at left <;> obtain ⟨rfl, rfl⟩ := follows_done.mp left <;> simp [*]

private theorem awaited_of_follows (h : Follows p.awaitSend log ()) : Awaited p log := by
  rw [awaitSend_eq] at h
  apply Follows.rounds (motive := fun _ log _ => Awaited p log) _ _ h
  · intro _ round _ once
    obtain ⟨status, rfl, last⟩ := follows_sendRound once
    have ready : p.sendReady status := by
      cases found : p.sendReady status <;> simp [found] at last ⊢
    exact ⟨[], status, rfl, ready, .nil⟩
  · rintro _ _ round log _ once ⟨busy, last, rfl, ready, moved⟩
    obtain ⟨status, rfl, -⟩ := follows_sendRound once
    exact ⟨_, last, (List.append_assoc ..).symm, ready, (Moved.look p.dataIn_ne_sendStatus status).append moved⟩

theorem moved_flush {reply : Unit} (h : Follows (p.carry .flush) log reply) : p.Moved log [] [] := by
  rcases p.carry_flush with same | same
  · rw [same] at h
    obtain ⟨busy, status, rfl, -, moved⟩ := awaited_of_follows h
    exact moved.append (.look p.dataIn_ne_sendStatus status)
  · rw [same] at h
    obtain ⟨rfl, -⟩ := follows_done.mp h
    exact .nil

theorem moved_send {b : UInt8} {reply : Unit} (h : Follows (p.carry (.send b)) log reply) :
    p.Moved log [b] [] := by
  rw [p.carry_send] at h
  obtain ⟨_, waited, stored, rfl, await, store⟩ := follows_bind.mp h
  obtain ⟨busy, status, rfl, ready, moved⟩ := awaited_of_follows await
  obtain rfl := follows_call.mp store
  rw [List.append_assoc]
  exact moved.append (.send ready b)

theorem moved_poll {reply : Option UInt8} (h : Follows (p.carry .poll) log reply) :
    p.Moved log [] reply.toList := by
  rw [p.carry_poll] at h
  obtain ⟨status, looked, rest, rfl, look, answered⟩ := follows_bind.mp h
  obtain rfl := follows_call.mp look
  by_cases ready : p.receiveReady status
  · rw [if_pos ready] at answered
    obtain ⟨word, first, second, rfl, load, ended⟩ := follows_bind.mp answered
    obtain rfl := follows_call.mp load
    obtain ⟨rfl, rfl⟩ := follows_done.mp ended
    exact .take ready word
  · rw [if_neg ready] at answered
    obtain ⟨rfl, rfl⟩ := follows_done.mp answered
    exact .look p.dataIn_ne_receiveStatus status

/-- On the bus passes what the byte stream asked for. -/
theorem moved_carries {course : List (Exchange Link)} (h : Carries p.carry course log) :
    p.Moved log (course.flatMap Link.sent) (course.flatMap Link.taken) := by
  induction h with
  | nil => exact .nil
  | cons here _ ih =>
    rename_i x _ _ _ _
    obtain ⟨request, reply⟩ := x
    simp only [List.flatMap_cons]
    apply Moved.append _ ih
    cases request with
    | send b => exact moved_send here
    | poll => exact moved_poll here
    | flush => exact moved_flush here

end Port

end BoardSupport
