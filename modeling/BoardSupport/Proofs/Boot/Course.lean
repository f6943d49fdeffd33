import BoardSupport.Bench.ByteScript
import BoardSupport.Boot.Receiver
import BoardSupport.Proofs.Program.Exchange
import Mathlib.Data.List.ReduceOption

/-! What a receiver makes of a stream, as a function of the bytes alone (`Phase.takeAll`). A run on
polls that find these bytes, with any silence between them, takes the same course
(`receive_finishes`, `receive_exhausts`). -/
namespace BoardSupport.Boot

open Program

namespace Target

/-- A link that answers polls from a list, with `none` where nothing is waiting, and stops the run
at its end. Memory takes every byte. -/
def polled : Device Target Bench.Exhausted (List (Option UInt8))
  | .link .poll => fun
    | [] => .error .inputExhausted []
    | reply :: rest => .ok reply rest
  | .link (.send _) => fun polls => .ok () polls
  | .link .flush => fun polls => .ok () polls
  | .store .. => fun polls => .ok () polls

/-- What was put into memory and where, in order. -/
def stores (log : List (Exchange Target)) : List (UInt32 × UInt8) :=
  log.filterMap fun
    | ⟨.store address byte, _⟩ => some (address, byte)
    | _ => none

/-- How the polls were answered, in order. -/
def replies (log : List (Exchange Target)) : List (Option UInt8) :=
  log.filterMap fun
    | ⟨.link .poll, reply⟩ => some reply
    | _ => none

/-- The exchanges before the first byte is asked for: XON goes out and leaves the transmitter. -/
def greeting : List (Exchange Target) := [⟨.link (.send xon), ()⟩, ⟨.link .flush, ()⟩]

/-- Nothing but polls, so answered, and these stores. -/
structure Loads (course : List (Exchange Target)) (polls : List (Option UInt8))
    (stored : List (UInt32 × UInt8)) : Prop where
  only : ∀ x ∈ course, x.request = .link .poll ∨ ∃ address byte, x.request = .store address byte
  polls : replies course = polls
  stored : stores course = stored

theorem Loads.nil : Loads [] [] [] := ⟨by simp, rfl, rfl⟩

theorem Loads.poll {course : List (Exchange Target)} {polls : List (Option UInt8)}
    {stored : List (UInt32 × UInt8)} (h : Loads course polls stored) (reply : Option UInt8) :
    Loads (⟨.link .poll, reply⟩ :: course) (reply :: polls) stored where
  only := List.forall_mem_cons.mpr ⟨.inl rfl, h.only⟩
  polls := congrArg (reply :: ·) h.polls
  stored := h.stored

theorem Loads.store {course : List (Exchange Target)} {polls : List (Option UInt8)}
    {stored : List (UInt32 × UInt8)} (h : Loads course polls stored) (address : UInt32) (byte : UInt8) :
    Loads (⟨.store address byte, ()⟩ :: course) polls ((address, byte) :: stored) where
  only := List.forall_mem_cons.mpr ⟨.inr ⟨address, byte, rfl⟩, h.only⟩
  polls := h.polls
  stored := congrArg ((address, byte) :: ·) h.stored

end Target

/-- What a receiver in some phase stores of bytes to come, and how it ends, if it does, with the
bytes that it leaves. -/
def Phase.takeAll (window : Window) :
    Phase → List UInt8 → List (UInt32 × UInt8) × Option (Except BootError Image × List UInt8)
  | _, [] => ([], none)
  | phase, byte :: rest =>
    match phase.feed window byte with
    | .proceed phase' => phase'.takeAll window rest
    | .keep target phase' =>
      let (stored, ending) := phase'.takeAll window rest
      ((target, byte) :: stored, ending)
    | .finish result => ([], some (result, rest))

section Run

variable {window : Window} {phase phase' : Phase} {polls : List (Option UInt8)}
  {log : List (Exchange Target)}

/-- Polling and acting on the answer, with the sequencing worked out. -/
private theorem receiveStep_eq (window : Window) (phase : Phase) :
    receiveStep window phase = .ask (I := Target) (.link .poll) fun
      | none => .done (.inl phase)
      | some byte =>
        match phase.feed window byte with
        | .proceed phase' => .done (.inl phase')
        | .keep address phase' => .ask (I := Target) (.store address byte) fun _ => .done (.inl phase')
        | .finish result => .done (.inr result) := rfl

private theorem ends_silence (window : Window) (phase : Phase) (polls : List (Option UInt8))
    (log : List (Exchange Target)) :
    Ends Target.polled.recorded (receiveStep window phase) (none :: polls, log)
      (.ok (.inl phase) (polls, log ++ [⟨.link .poll, none⟩])) := by
  rw [receiveStep_eq]
  exact .ask rfl (.done _ _)

private theorem ends_proceed {byte : UInt8} (h : phase.feed window byte = .proceed phase') :
    Ends Target.polled.recorded (receiveStep window phase) (some byte :: polls, log)
      (.ok (.inl phase') (polls, log ++ [⟨.link .poll, some byte⟩])) := by
  rw [receiveStep_eq]
  refine .ask rfl ?_
  simp only [h]
  exact .done _ _

private theorem ends_keep {byte : UInt8} {address : UInt32}
    (h : phase.feed window byte = .keep address phase') :
    Ends Target.polled.recorded (receiveStep window phase) (some byte :: polls, log)
      (.ok (.inl phase')
        (polls, log ++ [⟨.link .poll, some byte⟩, ⟨.store address byte, ()⟩])) := by
  rw [receiveStep_eq]
  refine .ask rfl ?_
  simp only [h]
  refine .ask rfl ?_
  simpa only [List.append_assoc, List.cons_append, List.nil_append] using Ends.done _ _

private theorem ends_finish {byte : UInt8} {result : Except BootError Image}
    (h : phase.feed window byte = .finish result) :
    Ends Target.polled.recorded (receiveStep window phase) (some byte :: polls, log)
      (.ok (.inr result) (polls, log ++ [⟨.link .poll, some byte⟩])) := by
  rw [receiveStep_eq]
  refine .ask rfl ?_
  simp only [h]
  exact .done _ _

private theorem ends_over (window : Window) (phase : Phase) (log : List (Exchange Target)) :
    Ends Target.polled.recorded (receiveStep window phase) ([], log)
      (.error (.stopped .inputExhausted) ([], log)) := by
  rw [receiveStep_eq]
  exact .ask_stopped rfl

/-- How a run comes out whose bytes make a receiver end so: it finds its last byte in the last poll
it makes, or polls until there is nothing left. -/
private def Concludes (window : Window) (phase : Phase) (polls : List (Option UInt8))
    (log course : List (Exchange Target)) (used rest : List (Option UInt8)) :
    Option (Except BootError Image × List UInt8) → Prop
  | some (result, left) => rest.reduceOption = left ∧ (∃ before last, used = before ++ [some last]) ∧
      Ends Target.polled.recorded (iterate (receiveStep window) phase) (polls, log)
        (.ok result (rest, log ++ course))
  | none => rest = [] ∧
      Ends Target.polled.recorded (iterate (receiveStep window) phase) (polls, log)
        (.error (.stopped .inputExhausted) (rest, log ++ course))

private theorem Concludes.after {reply : Option UInt8} {events course : List (Exchange Target)}
    {used rest : List (Option UInt8)} {ending : Option (Except BootError Image × List UInt8)}
    (round : Ends Target.polled.recorded (receiveStep window phase) (reply :: polls, log)
      (.ok (.inl phase') (polls, log ++ events)))
    (h : Concludes window phase' polls (log ++ events) course used rest ending) :
    Concludes window phase (reply :: polls) log (events ++ course) (reply :: used) rest ending := by
  cases ending with
  | none =>
    obtain ⟨none_left, ends⟩ := h
    exact ⟨none_left, .again round (List.append_assoc .. ▸ ends)⟩
  | some ending =>
    obtain ⟨left, ⟨before, last, rfl⟩, ends⟩ := h
    exact ⟨left, ⟨reply :: before, last, rfl⟩, .again round (List.append_assoc .. ▸ ends)⟩

private theorem loop_concludes (window : Window) (phase : Phase) (polls : List (Option UInt8))
    (log : List (Exchange Target)) : ∃ course used rest, polls = used ++ rest ∧
      Target.Loads course used (phase.takeAll window polls.reduceOption).1 ∧
      Concludes window phase polls log course used rest (phase.takeAll window polls.reduceOption).2 := by
  induction polls generalizing phase log with
  | nil => exact ⟨[], [], [], rfl, .nil, rfl, .cut (by simpa using ends_over window phase log)⟩
  | cons reply polls ih =>
    cases reply with
    | none =>
      obtain ⟨course, used, rest, rfl, loads, concludes⟩ := ih phase (log ++ [⟨.link .poll, none⟩])
      exact ⟨_, none :: used, rest, rfl, loads.poll none, concludes.after (ends_silence ..)⟩
    | some byte =>
      rw [List.reduceOption_cons_of_some]
      unfold Phase.takeAll
      cases fed : phase.feed window byte with
      | proceed phase' =>
        obtain ⟨course, used, rest, rfl, loads, concludes⟩ :=
          ih phase' (log ++ [⟨.link .poll, some byte⟩])
        exact ⟨_, some byte :: used, rest, rfl, loads.poll (some byte), concludes.after (ends_proceed fed)⟩
      | keep address phase' =>
        obtain ⟨course, used, rest, rfl, loads, concludes⟩ :=
          ih phase' (log ++ [⟨.link .poll, some byte⟩, ⟨.store address byte, ()⟩])
        exact ⟨_, some byte :: used, rest, rfl, (loads.store address byte).poll (some byte),
          concludes.after (ends_keep fed)⟩
      | finish result =>
        refine ⟨_, [some byte], polls, rfl, Target.Loads.nil.poll (some byte), rfl, ⟨[], byte, rfl⟩, ?_⟩
        exact .leave (ends_finish fed) (.done _ _)

/-- The greeting comes first, and what follows it is the loop. -/
private theorem ends_receive {r : EStateM.Result (Halt Bench.Exhausted) _ _}
    (h : Ends Target.polled.recorded (iterate (receiveStep window) .idle) (polls, Target.greeting) r) :
    Ends Target.polled.recorded (receive window) (polls, []) r :=
  .ask rfl (.ask rfl h)

/-- If its bytes end a transfer, a stream makes the call return at the poll that finds the last of
them. -/
theorem receive_finishes {stored : List (UInt32 × UInt8)} {result : Except BootError Image}
    {left : List UInt8}
    (h : Phase.idle.takeAll window polls.reduceOption = (stored, some (result, left))) :
    ∃ course before last rest, polls = before ++ some last :: rest ∧ rest.reduceOption = left ∧
      Target.Loads course (before ++ [some last]) stored ∧
      Ends Target.polled.recorded (receive window) (polls, [])
        (.ok result (rest, Target.greeting ++ course)) := by
  obtain ⟨course, used, rest, split, loads, concludes⟩ :=
    loop_concludes window .idle polls Target.greeting
  rw [h] at loads concludes
  obtain ⟨left_eq, ⟨before, last, rfl⟩, ends⟩ := concludes
  exact ⟨course, before, last, rest, by simp [split], left_eq, loads, ends_receive ends⟩

/-- If its bytes do not end a transfer, the call waits for more. -/
theorem receive_exhausts {stored : List (UInt32 × UInt8)}
    (h : Phase.idle.takeAll window polls.reduceOption = (stored, none)) :
    ∃ course, Target.Loads course polls stored ∧
      Ends Target.polled.recorded (receive window) (polls, [])
        (.error (.stopped .inputExhausted) ([], Target.greeting ++ course)) := by
  obtain ⟨course, used, rest, split, loads, concludes⟩ :=
    loop_concludes window .idle polls Target.greeting
  rw [h] at loads concludes
  obtain ⟨rfl, ends⟩ := concludes
  rw [List.append_nil] at split
  exact ⟨course, split ▸ loads, ends_receive ends⟩

end Run

end BoardSupport.Boot
