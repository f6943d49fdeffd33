import BoardSupport.Proofs.Bus.Polling
import BoardSupport.Proofs.Serial.Calls

/-! Calls on a serial port, in any order. No byte is lost, doubled or moved out of turn, and no call waits
forever for a port that is ready again and again. -/
namespace BoardSupport

open Program

namespace Port

/-- The port is ready again and again, whether to send or to receive. -/
structure Recurring (p : Port) (replies : Address → Stream' UInt32) : Prop where
  send : ∀ n, ∃ k, p.sendReady ((replies p.sendStatus).get (n + k))
  receive : ∀ n, ∃ k, p.receiveReady ((replies p.receiveStatus).get (n + k))

section Returning

variable {p : Port} {replies : Address → Stream' UInt32} {α β σ : Type}

private def advance (replies : Address → Stream' UInt32) (address : Address) : Address → Stream' UInt32 :=
  Function.update replies address (replies address).tail

private theorem ends_load (replies : Address → Stream' UInt32) (address : Address) :
    Ends Bus.answering (Bus.load address) replies (.ok (replies address).head (advance replies address)) :=
  .ask rfl (.done _ _)

/-- What an address still has to answer it has had to answer all along. -/
private theorem get_advance (replies : Address → Stream' UInt32) (address other : Address) (n : Nat) :
    ∃ m, ∀ k, (advance replies address other).get (n + k) = (replies other).get (m + k) := by
  unfold advance
  by_cases same : other = address
  · subst same
    refine ⟨n + 1, fun k => ?_⟩
    rw [Function.update_self, Nat.add_right_comm]
    rfl
  · exact ⟨n, fun k => by rw [Function.update_of_ne same]⟩

private theorem Recurring.advance (h : p.Recurring replies) (address : Address) :
    p.Recurring (advance replies address) where
  send n := by
    obtain ⟨m, same⟩ := get_advance replies address p.sendStatus n
    obtain ⟨k, ready⟩ := h.send m
    exact ⟨k, by rwa [same]⟩
  receive n := by
    obtain ⟨m, same⟩ := get_advance replies address p.receiveStatus n
    obtain ⟨k, ready⟩ := h.receive m
    exact ⟨k, by rwa [same]⟩

/-- On a port that is ready again and again the program ends, and leaves it so. -/
private def Returns (p : Port) (prog : Program Bus α) : Prop :=
  ∀ replies, p.Recurring replies →
    ∃ a replies', Ends Bus.answering prog replies (.ok a replies') ∧ p.Recurring replies'

private theorem returns_done (a : α) : Returns p (done a) := by
  intro replies recurring
  exact ⟨a, replies, .done _ _, recurring⟩

private theorem Returns.bind {prog : Program Bus α} {f : α → Program Bus β} (first : Returns p prog)
    (rest : ∀ a, Returns p (f a)) : Returns p (prog >>= f) := by
  intro replies recurring
  obtain ⟨a, mid, ends, recurring⟩ := first replies recurring
  obtain ⟨b, replies', ends', recurring⟩ := rest a mid recurring
  exact ⟨b, replies', ends.bind ends', recurring⟩

private theorem returns_load (address : Address) : Returns p (Bus.load address) := by
  intro replies recurring
  exact ⟨_, _, ends_load replies address, recurring.advance address⟩

private theorem returns_store (address : Address) (word : UInt32) : Returns p (Bus.store address word) := by
  intro replies recurring
  exact ⟨(), replies, .ask rfl (.done _ _), recurring⟩

/-- A wait ends that looks at a status until it is ready. -/
private theorem returns_await {status : Address} {f : UInt32 → Program Bus (Unit ⊕ β)}
    (ready : UInt32 → Bool) (g : Program Bus β)
    (recurs : ∀ replies, p.Recurring replies → ∃ k, ready ((replies status).get k))
    (look : ∀ found, f found = if ready found then (do return .inr (← g)) else return .inl ())
    (returns : Returns p g) : Returns p (iterate (fun () => Bus.load status >>= f) ()) := by
  have stops {replies : Address → Stream' UInt32} (recurring : p.Recurring replies)
      (found : ready (replies status).head) : ∃ b replies', Ends Bus.answering
        (iterate (fun () => Bus.load status >>= f) ()) replies (.ok b replies') ∧ p.Recurring replies' := by
    obtain ⟨b, replies', ends, recurring⟩ := returns _ (recurring.advance status)
    refine ⟨b, replies', ?_, recurring⟩
    apply Ends.leave _ (.done _ _)
    apply (ends_load replies status).bind
    rw [look, if_pos found]
    exact ends.bind (.done _ _)
  intro replies recurring
  -- On the looks that are left until the status is ready: each look takes one reply off its stream.
  obtain ⟨k, last⟩ := recurs replies recurring
  induction k generalizing replies with
  | zero => exact stops recurring last
  | succ k ih =>
    by_cases found : ready (replies status).head
    · exact stops recurring found
    · have later : ready ((advance replies status status).get k) := by
        rw [advance, Function.update_self]
        exact last
      obtain ⟨b, replies', ends, recurring⟩ := ih _ (recurring.advance status) later
      refine ⟨b, replies', ?_, recurring⟩
      apply Ends.again _ ends
      apply (ends_load replies status).bind
      rw [look, if_neg found]
      exact .done _ _

private theorem returns_awaitSend : Returns p p.awaitSend := by
  rw [awaitSend_eq]
  apply returns_await p.sendReady (done ())
  · intro replies recurring
    obtain ⟨k, ready⟩ := recurring.send 0
    exact ⟨0 + k, ready⟩
  · intro found
    rfl
  · exact returns_done ()

private theorem returns_carry (r : Link.Request) : Returns p (p.carry r) := by
  cases r with
  | send b =>
    rw [carry_send]
    exact returns_awaitSend.bind fun _ => returns_store _ _
  | poll =>
    rw [carry_poll]
    apply (returns_load _).bind
    intro status
    split
    · exact (returns_load _).bind fun word => returns_done _
    · exact returns_done _
  | flush =>
    rcases p.carry_flush with same | same
    · rw [same]
      exact returns_awaitSend
    · rw [same]
      exact returns_done ()

private def receiveRound (p : Port) : Program Bus (Unit ⊕ UInt8) := do
  if p.receiveReady (← Bus.load p.receiveStatus) then return .inr (← Bus.load p.dataIn).toUInt8
  else return .inl ()

private theorem receive_eq (p : Port) :
    Link.receive.interpret p.carry = iterate (fun () => p.receiveRound) () := by
  refine congrArg (fun body => Program.loop body () done) (funext fun _ => ?_)
  rw [interpret_bind]
  change (p.carry .poll >>= done) >>= _ = _
  rw [bind_assoc, carry_poll, bind_assoc]
  apply congrArg (Bus.load p.receiveStatus >>= ·)
  funext status
  split <;> rfl

private theorem returns_receive : Returns p (Link.receive.interpret p.carry) := by
  rw [receive_eq]
  apply returns_await p.receiveReady (do return (← Bus.load p.dataIn).toUInt8)
  · intro replies recurring
    obtain ⟨k, ready⟩ := recurring.receive 0
    exact ⟨0 + k, ready⟩
  · intro found
    rfl
  · exact (returns_load _).bind fun word => returns_done _

private theorem returns_interpret_bind {prog : Program Link α} {f : α → Program Link β}
    (first : Returns p (prog.interpret p.carry)) (rest : ∀ a, Returns p ((f a).interpret p.carry)) :
    Returns p ((prog >>= f).interpret p.carry) := by
  rw [interpret_bind]
  exact first.bind rest

private theorem returns_interpret_call (r : Link.Request) :
    Returns p ((call (I := Link) r).interpret p.carry) :=
  (returns_carry r).bind returns_done

private theorem returns_sendAll (bytes : List UInt8) : Returns p ((Link.sendAll bytes).interpret p.carry) := by
  induction bytes with
  | nil => exact returns_done ()
  | cons b rest ih => exact returns_interpret_bind (returns_interpret_call (.send b)) fun _ => ih

private theorem returns_link (call : Link.Call) : Returns p (call.perform.interpret p.carry) := by
  cases call with
  | send b => exact returns_interpret_call (.send b)
  | sendAll bytes => exact returns_sendAll bytes
  | sendLine s => exact returns_interpret_bind (returns_sendAll _) fun _ => returns_sendAll _
  | flush => exact returns_interpret_call .flush
  | poll => exact returns_interpret_call .poll
  | receive => exact returns_receive
  | receiveWord =>
    exact returns_interpret_bind returns_receive fun _ => returns_interpret_bind returns_receive fun _ =>
      returns_interpret_bind returns_receive fun _ => returns_interpret_bind returns_receive fun _ =>
        returns_done _

private theorem returns_perform (call : p.Call) : Returns p call.perform := by
  rw [Call.perform_eq]
  cases call with
  | link call => exact returns_link call
  | putChar b => exact returns_interpret_call (.send b)
  | getChar => exact returns_receive
  | write s => exact returns_sendAll _

end Returning

structure Entry (p : Port) where
  call : p.Call
  answer : call.Answer
  log : List (Exchange Bus)

/-- Calls in a row on a bus with replies of which some are left over. -/
inductive Runs {p : Port} : (Address → Stream' UInt32) → List p.Entry → (Address → Stream' UInt32) → Prop
  | nil (replies : Address → Stream' UInt32) : Runs replies [] replies
  | cons {replies mid left : Address → Stream' UInt32} {e : p.Entry} {entries : List p.Entry}
      (ran : Ends Bus.answering.recorded e.call.perform (replies, []) (.ok e.answer (mid, e.log)))
      (rest : Runs mid entries left) : Runs replies (e :: entries) left

section Runs

variable {p : Port} {replies left : Address → Stream' UInt32} {entries : List p.Entry}

private theorem Runs.moved (h : Runs replies entries left) :
    p.Moved (entries.flatMap Entry.log) (entries.flatMap fun e => e.call.asked)
      (entries.flatMap fun e => e.call.returned e.answer) := by
  induction h with
  | nil => exact .nil
  | cons ran _ ih =>
    obtain ⟨-, rounds, ran⟩ := ran
    obtain ⟨log, rfl, follows⟩ := run_recorded ran
    exact (Call.moved_perform follows).append ih

private theorem exists_runs (recurring : p.Recurring replies) (calls : List p.Call) :
    ∃ entries left, entries.map Entry.call = calls ∧ Runs replies entries left := by
  induction calls generalizing replies with
  | nil => exact ⟨[], replies, rfl, .nil replies⟩
  | cons call calls ih =>
    obtain ⟨answer, mid, ⟨-, rounds, ran⟩, recurring⟩ := returns_perform call replies recurring
    obtain ⟨entries, left, same, runs⟩ := ih recurring
    obtain ⟨log, follows, answered⟩ := run_course ran
    exact ⟨⟨call, answer, log⟩ :: entries, left, by rw [List.map_cons, same],
      .cons (follows.ends_recorded answered) runs⟩

end Runs

/-- Of any calls that return, whatever the replies, the port takes exactly the bytes that they were asked
to send, and they answer with exactly the bytes that it had, and none of these is moved unless the port
has just been found ready. On a port that is ready again and again all calls return. -/
theorem flow_controlled (p : Port) (replies : Address → Stream' UInt32) :
    (∀ (entries : List p.Entry) left, Runs replies entries left →
      p.Moved (entries.flatMap Entry.log) (entries.flatMap fun e => e.call.asked)
        (entries.flatMap fun e => e.call.returned e.answer)) ∧
    (p.Recurring replies → ∀ calls : List p.Call, ∃ entries left,
      entries.map Entry.call = calls ∧ Runs replies entries left) := by
  constructor
  · intro entries left runs
    exact runs.moved
  · intro recurring calls
    exact exists_runs recurring calls

/-- With a port that is ready only at every third look. -/
theorem flow_controlled_at_third_look :
    let p : Port := .uart ⟨Platform.uartBase⟩
    let replies : Address → Stream' UInt32 := fun _ n => if n % 3 = 2 then 0x141 else 0
    let calls : List p.Call := [.write "a\n", .getChar, .link .receiveWord]
    p.Recurring replies ∧ ∃ (entries : List p.Entry) (left : Address → Stream' UInt32),
      entries.map Entry.call = calls ∧ Runs replies entries left ∧
      p.Moved (entries.flatMap Entry.log) [97, 13, 10]
        (entries.flatMap fun e => e.call.returned e.answer) := by
  intro p replies calls
  have third (n : Nat) : ((if (n + (2 * n + 2)) % 3 = 2 then 0x141 else 0 : UInt32) != 0) = true := by
    rw [if_pos (by omega)]
    rfl
  have recurring : p.Recurring replies :=
    ⟨fun n => ⟨2 * n + 2, third n⟩, fun n => ⟨2 * n + 2, third n⟩⟩
  obtain ⟨entries, left, same, runs⟩ := (flow_controlled p replies).2 recurring calls
  refine ⟨recurring, entries, left, same, runs, ?_⟩
  have moved := (flow_controlled p replies).1 entries left runs
  have asked : (entries.flatMap fun e => e.call.asked) = calls.flatMap Call.asked := by
    rw [← same, List.flatMap_map]
  rw [asked] at moved
  exact moved

end Port

end BoardSupport
