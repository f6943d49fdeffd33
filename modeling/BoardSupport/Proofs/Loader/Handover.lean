import BoardSupport.Proofs.Loader.Waiting
import BoardSupport.Proofs.Program.Beginning
import Mathlib.Data.List.ReduceOption
import Mathlib.Data.Stream.Init

/-! From waiting for the bootloader to passing on what the device says. The wait reads a byte at a time
and stops at XON, so what comes after XON is all there for the echo, however it is spread over reads. -/
namespace BoardSupport.Loader

open Program

/-- What the next read of a port comes upon. -/
inductive Arrival
  | byte (b : UInt8)
  /-- Nothing comes in time. -/
  | silence
  /-- The stream is at its end. -/
  | closed
  | failure (e : IoError)

namespace Arrival

/-- A byte, or `none` for a read that times out. -/
def ofReply : Option UInt8 → Arrival
  | some b => byte b
  | none => silence

/-- At most so many bytes that come in a row, and what comes after them. -/
def inRow : (most : Nat) → List Arrival → List UInt8 × List Arrival
  | most + 1, byte b :: arriving =>
    let (bytes, left) := inRow most arriving
    (b :: bytes, left)
  | _, arriving => ([], arriving)

/-- It ends a wait, with this failure. -/
inductive EndsWait : Arrival → Failure → Prop
  | closed : EndsWait closed .closedBeforeXon
  | failed {e : IoError} (other : e ≠ .timedOut) : EndsWait (failure e) (.waiting e)

/-- It ends an echo, with this failure. -/
inductive EndsEcho : Arrival → Failure → Prop
  | closed : EndsEcho closed (.listening .unexpectedEnd)
  | failed {e : IoError} (other : e ≠ .timedOut) (final : e ≠ .interrupted) :
      EndsEcho (failure e) (.listening e)

end Arrival

/-- What is going to come over the port, what looks at the clock are going to find, and what has been
passed on so far. -/
structure Session where
  arriving : List Arrival
  clock : Stream' Nat
  output : List UInt8

namespace Session

/-- A port that gives all that is asked of it, so that whoever asks for too much takes it, and an output
that accepts everything. It stops a run that reads on after the last arrival or asks for anything else. -/
def host : Device Host Unit Session
  | .readPort most => fun s =>
    match s.arriving with
    | .silence :: arriving => .ok (.error .timedOut) { s with arriving }
    | .closed :: arriving => .ok (.ok []) { s with arriving }
    | .failure e :: arriving => .ok (.error e) { s with arriving }
    | .byte b :: arriving =>
      let (bytes, left) := Arrival.inRow most (.byte b :: arriving)
      .ok (.ok bytes) { s with arriving := left }
    | [] => .error () s
  | .clock => fun s => .ok s.clock.head { s with clock := s.clock.tail }
  | .emit bytes => fun s => .ok (.ok ()) { s with output := s.output ++ bytes }
  | .flushOutput => fun s => .ok (.ok ()) s
  | _ => fun s => .error () s

end Session

/-- The clock can show the deadline, and none of the first looks after the start finds it reached. -/
structure InTime (timeout : Nat) (clock : Stream' Nat) (looks : Nat) : Prop where
  shown : clock.head + timeout < (1 <<< 63) * 1000
  early : ∀ k < looks, clock.get (k + 1) < clock.head + timeout

section Waiting

variable {timeout deadline : Nat} {said : List UInt8} {item : Option UInt8}
  {before : List (Option UInt8)} {later : List Arrival} {clock : Stream' Nat} {output : List UInt8}

private theorem reduceOption_cons_toList :
    (item :: before).reduceOption = item.toList ++ before.reduceOption := by
  cases item <;> rfl

/-- Whatever comes other than XON and the end, a round goes on to the clock. -/
private theorem host_adds (later : List Arrival) (clock : Stream' Nat) (output : List UInt8)
    (other : item ≠ some Boot.xon) (said : List UInt8) :
    ∃ reply, Adds said reply (item.toList ++ said) ∧ Session.host (.readPort 1)
      ⟨.ofReply item :: later, clock, output⟩ = .ok reply ⟨later, clock, output⟩ := by
  cases item with
  | none => exact ⟨_, .nothing, rfl⟩
  | some b => exact ⟨.ok [b], .byte (fun same => other (congrArg some same)) [], rfl⟩

/-- A wait comes through what is said before XON as long as the clock allows. What was said is kept
latest first. -/
private theorem ends_through {r : EStateM.Result (Halt Unit) Session (Except Failure (List UInt8))}
    (quiet : some Boot.xon ∉ before) (early : ∀ k < before.length, clock.get k < deadline)
    (rest : Ends Session.host
      (iterate (awaitXonStep timeout deadline) (before.reduceOption.reverse ++ said))
      ⟨later, clock.drop before.length, output⟩ r) :
    Ends Session.host (iterate (awaitXonStep timeout deadline) said)
      ⟨before.map .ofReply ++ later, clock, output⟩ r := by
  induction before generalizing said clock with
  | nil => exact rest
  | cons item before ih =>
    rw [List.mem_cons, not_or] at quiet
    obtain ⟨reply, adds, found⟩ := host_adds (before.map .ofReply ++ later) clock output
      (Ne.symm quiet.1) said
    have round : Ends Session.host (awaitXonStep timeout deadline said)
        ⟨.ofReply item :: (before.map .ofReply ++ later), clock, output⟩
        (.ok (.inl (item.toList ++ said)) ⟨before.map .ofReply ++ later, clock.tail, output⟩) :=
      (WaitRound.early adds (early 0 (Nat.zero_lt_succ _))).follows.ends
        (.cons found (.cons rfl (.nil _)))
    refine .again round (ih quiet.2 (fun k lt => early (k + 1) (Nat.succ_lt_succ lt)) ?_)
    have same : (item :: before).reduceOption.reverse ++ said =
        before.reduceOption.reverse ++ (item.toList ++ said) := by
      rw [reduceOption_cons_toList, List.reverse_append, List.append_assoc]
      cases item <;> rfl
    rwa [same] at rest

/-- A wait that comes through in time ends as the round after that does. -/
private theorem awaitXon_ends_as {round : List (Exchange Host)} {outcome : Except Failure (List UInt8)}
    {left : Session} (quiet : Boot.xon ∉ before.reduceOption) (inTime : InTime timeout clock before.length)
    (last : WaitRound timeout (clock.head + timeout) before.reduceOption.reverse round (.inr outcome))
    (answered : Session.host.Answers ⟨later, clock.drop (before.length + 1), output⟩ round left) :
    Ends Session.host (awaitXon timeout).run ⟨before.map .ofReply ++ later, clock, output⟩
      (.ok outcome left) := by
  have looked : Ends Session.host Host.clock ⟨before.map .ofReply ++ later, clock, output⟩
      (.ok clock.head ⟨before.map .ofReply ++ later, clock.tail, output⟩) := .ask rfl (.done _ _)
  rw [awaitXon_run]
  apply looked.bind
  rw [if_neg (Nat.not_le.mpr inTime.shown)]
  apply ends_through (fun mem => quiet (List.reduceOption_mem_iff.mpr mem)) inTime.early
  rw [List.append_nil]
  exact .leave (last.follows.ends answered) (.done _ _)

/-- A wait that reaches XON in time ends with what was said before it, and leaves the rest unread. -/
theorem awaitXon_reaches_xon {rest : List Arrival} (quiet : Boot.xon ∉ before.reduceOption)
    (inTime : InTime timeout clock before.length) :
    Ends Session.host (awaitXon timeout).run ⟨before.map .ofReply ++ .byte Boot.xon :: rest, clock, output⟩
      (.ok (.ok before.reduceOption) ⟨rest, clock.drop (before.length + 1), output⟩) := by
  have answered : Session.host.Answers
      ⟨.byte Boot.xon :: rest, clock.drop (before.length + 1), output⟩ [⟨.readPort 1, .ok [Boot.xon]⟩]
      ⟨rest, clock.drop (before.length + 1), output⟩ := .cons rfl (.nil _)
  have ended := awaitXon_ends_as quiet inTime (.xon []) answered
  rwa [List.reverse_reverse] at ended

end Waiting

section Echoing

variable {last : Arrival} {f : Failure} {later : List Arrival} {clock : Stream' Nat} {output : List UInt8}

private theorem echoStep_passes (b : UInt8) :
    Ends Session.host echoStep ⟨.byte b :: later, clock, output⟩
      (.ok (.inl ()) ⟨later, clock, output ++ [b]⟩) :=
  .ask rfl (.ask rfl (.ask rfl (.done _ _)))

private theorem echoStep_ends (ended : last.EndsEcho f) :
    Ends Session.host echoStep ⟨last :: later, clock, output⟩ (.ok (.inr f) ⟨later, clock, output⟩) := by
  cases ended with
  | closed => exact .ask rfl (.done _ _)
  | @failed e other final =>
    refine .ask rfl ?_
    cases e
    case timedOut => exact absurd rfl other
    case interrupted => exact absurd rfl final
    all_goals exact .done _ _

private theorem echo_ends (after : List (Option UInt8)) (ended : last.EndsEcho f) :
    Ends Session.host echo.run ⟨after.map .ofReply ++ last :: later, clock, output⟩
      (.ok (.error f) ⟨later, clock, output ++ after.reduceOption⟩) := by
  have rounds : Ends Session.host (iterate (fun () => echoStep) ())
      ⟨after.map .ofReply ++ last :: later, clock, output⟩
      (.ok f ⟨later, clock, output ++ after.reduceOption⟩) := by
    induction after generalizing output with
    | nil =>
      rw [List.reduceOption_nil, List.append_nil]
      exact .leave (echoStep_ends ended) (.done _ _)
    | cons item after ih =>
      cases item with
      | none => exact .again (.ask rfl (.done _ _)) ih
      | some b =>
        rw [List.reduceOption_cons_of_some, List.append_cons output]
        exact .again (echoStep_passes b) ih
  exact rounds.bind (.done _ _)

end Echoing

section NotPast

variable {timeout deadline : Nat} {said : List UInt8} {log first second : List (Exchange Host)}

private theorem not_heardXon_nil : ¬ HeardXon [] := by
  rintro ⟨_, _, ⟨⟩⟩

private theorem not_heardXon_dropLast (unheard : ¬ HeardXon log) : ¬ HeardXon log.dropLast := by
  rintro ⟨most, more, mem⟩
  exact unheard ⟨most, more, List.dropLast_subset log mem⟩

private theorem not_heardXon_dropLast_append (here : ¬ HeardXon first)
    (there : ¬ HeardXon second.dropLast) : ¬ HeardXon (first ++ second).dropLast := by
  rcases eq_or_ne second [] with rfl | more
  · rw [List.append_nil]
    exact not_heardXon_dropLast here
  · rw [List.dropLast_append_of_ne_nil more, heardXon_append]
    exact not_or.mpr ⟨here, there⟩

private theorem begins_look (h : Begins (lookAtClock timeout deadline said) log) : ¬ HeardXon log := by
  have asks : (lookAtClock timeout deadline said).Confined (· = Host.Request.clock) := by
    refine ⟨rfl, fun now => ?_⟩
    dsimp only
    split <;> trivial
  rintro ⟨most, more, mem⟩
  cases h.confined asks _ mem

private theorem begins_step (h : Begins (awaitXonStep timeout deadline said) log) :
    ¬ HeardXon log.dropLast := by
  rw [awaitXonStep_eq, begins_ask] at h
  rcases h with rfl | ⟨reply, rest, rfl, answered⟩
  · exact not_heardXon_nil
  -- After XON the round is over, and after anything else at most the clock is asked.
  by_cases heard : ∃ more, reply = .ok (Boot.xon :: more)
  · obtain ⟨more, rfl⟩ := heard
    dsimp only at answered
    rw [if_pos rfl] at answered
    obtain rfl := begins_done.mp answered
    exact not_heardXon_nil
  · have other : ¬ HeardXon [⟨.readPort 1, reply⟩] :=
      not_heardXon_singleton fun most more same => heard ⟨more, by cases same; rfl⟩
    have silent : ¬ HeardXon rest := by
      dsimp only at answered
      split at answered
      · exact begins_done.mp answered ▸ not_heardXon_nil
      · split at answered
        · exact begins_done.mp answered ▸ not_heardXon_nil
        · exact begins_look answered
      · exact begins_look answered
      · exact begins_done.mp answered ▸ not_heardXon_nil
    exact not_heardXon_dropLast_append other (not_heardXon_dropLast silent)

/-- Once XON is heard nothing more is asked for. -/
private theorem begins_awaitXon (h : Begins (awaitXon timeout).run log) : ¬ HeardXon log.dropLast := by
  rw [awaitXon_run] at h
  rcases begins_ask.mp h with rfl | ⟨start, rest, rfl, waiting⟩
  · exact not_heardXon_nil
  have silent : ¬ HeardXon [⟨.clock, start⟩] := not_heardXon_singleton (by rintro _ _ ⟨⟩)
  apply not_heardXon_dropLast_append silent
  change Begins (if _ then _ else _) rest at waiting
  split at waiting
  · cases waiting
    exact not_heardXon_nil
  · apply Begins.rounds (motive := fun _ log => ¬ HeardXon log.dropLast) begins_step _ waiting
    intro said said' round log once later
    cases waitRound_of_follows once with
    | early adds inTime => exact not_heardXon_dropLast_append adds.unheard later

/-- All that passed led up to a read of one byte that gave XON, the first one to do so. -/
def EndsOnXon (log : List (Exchange Host)) : Prop :=
  ∃ before more, log = before ++ [⟨.readPort 1, .ok (Boot.xon :: more)⟩] ∧ ¬ HeardXon before

private theorem EndsOnXon.after (later : EndsOnXon second) (unheard : ¬ HeardXon first) :
    EndsOnXon (first ++ second) := by
  obtain ⟨before, more, rfl, none⟩ := later
  exact ⟨first ++ before, more, (List.append_assoc ..).symm,
    heardXon_append.not.mpr (not_or.mpr ⟨unheard, none⟩)⟩

private theorem rounds_endOnXon {outcome : Except Failure (List UInt8)}
    (h : Follows (iterate (awaitXonStep timeout deadline) said) log outcome) {chatter : List UInt8}
    (well : outcome = .ok chatter) : EndsOnXon log := by
  refine Follows.rounds (motive := fun _ log outcome => outcome = .ok chatter → EndsOnXon log)
    ?_ ?_ h well
  · rintro said round outcome once rfl
    cases waitRound_of_follows once with
    | xon more => exact ⟨[], more, rfl, not_heardXon_nil⟩
  · intro said said' round log outcome once later well
    cases waitRound_of_follows once with
    | early adds inTime => exact (later well).after adds.unheard

private theorem awaitXon_endsOnXon {chatter : List UInt8}
    (h : Follows (awaitXon timeout).run log (.ok chatter)) : EndsOnXon log := by
  rw [awaitXon_run] at h
  obtain ⟨start, first, rest, rfl, read, waiting⟩ := follows_bind.mp h
  obtain rfl := follows_call.mp read
  split at waiting
  · cases waiting
  · exact (rounds_endOnXon waiting rfl).after (not_heardXon_singleton (by rintro _ _ ⟨⟩))

end NotPast

/-- Nothing that the device says is lost between a wait with this timeout, in milliseconds, and an echo. -/
structure Handover (timeout : Nat) : Prop where
  /-- A wait that reaches XON in time ends with what was said before it, and leaves all that comes after
  it in the port. -/
  heard {before : List (Option UInt8)} {rest : List Arrival} {clock : Stream' Nat} {output : List UInt8}
    (quiet : Boot.xon ∉ before.reduceOption) (inTime : InTime timeout clock before.length) :
    Ends Session.host (awaitXon timeout).run ⟨before.map .ofReply ++ .byte Boot.xon :: rest, clock, output⟩
      (.ok (.ok before.reduceOption) ⟨rest, clock.drop (before.length + 1), output⟩)
  /-- An echo passes on, in order, every byte that it finds there until the port fails, and nothing else. -/
  echoed {after : List (Option UInt8)} {last : Arrival} {later : List Arrival} {clock : Stream' Nat}
    {output : List UInt8} {f : Failure} (ended : last.EndsEcho f) :
    Ends Session.host echo.run ⟨after.map .ofReply ++ last :: later, clock, output⟩
      (.ok (.error f) ⟨later, clock, output ++ after.reduceOption⟩)
  /-- A wait ends where the stream does, or where a read fails, if that comes before XON. -/
  broken {before : List (Option UInt8)} {last : Arrival} {later : List Arrival} {clock : Stream' Nat}
    {output : List UInt8} {f : Failure} (quiet : Boot.xon ∉ before.reduceOption)
    (inTime : InTime timeout clock before.length) (ended : last.EndsWait f) :
    Ends Session.host (awaitXon timeout).run ⟨before.map .ofReply ++ last :: later, clock, output⟩
      (.ok (.error f) ⟨later, clock.drop (before.length + 1), output⟩)
  /-- It ends at the first look at the clock that finds the deadline reached, if XON has not come by then. -/
  late {before : List (Option UInt8)} {item : Option UInt8} {later : List Arrival} {clock : Stream' Nat}
    {output : List UInt8} (quiet : Boot.xon ∉ before.reduceOption) (other : item ≠ some Boot.xon)
    (inTime : InTime timeout clock before.length)
    (spent : clock.head + timeout ≤ clock.get (before.length + 1)) :
    Ends Session.host (awaitXon timeout).run ⟨before.map .ofReply ++ .ofReply item :: later, clock, output⟩
      (.ok (.error (.noXon timeout)) ⟨later, clock.drop (before.length + 2), output⟩)
  /-- Whatever host it has, the last thing in a wait that ends well is a read that gives XON. -/
  onlyXon {log : List (Exchange Host)} {said : List UInt8}
    (well : Follows (awaitXon timeout).run log (.ok said)) : EndsOnXon log
  /-- Whatever host it has and wherever it is cut short, a wait asks for nothing after XON. -/
  notPast {ε δ : Type} (rounds : Nat) (host : Device Host ε δ) (d : δ) :
    ¬ HeardXon (logged rounds host (awaitXon timeout).run d).dropLast

theorem awaitXon_hands_over (timeout : Nat) : Handover timeout where
  heard quiet inTime := awaitXon_reaches_xon quiet inTime
  echoed ended := echo_ends _ ended
  broken quiet inTime ended := by
    cases ended with
    | closed => exact awaitXon_ends_as quiet inTime .closed (.cons rfl (.nil _))
    | failed other => exact awaitXon_ends_as quiet inTime (.failed other) (.cons rfl (.nil _))
  late quiet other inTime spent := by
    obtain ⟨reply, adds, found⟩ := host_adds _ _ _ other _
    rw [← Stream'.head_drop] at spent
    rw [← Stream'.tail_drop']
    exact awaitXon_ends_as quiet inTime (.late adds spent) (.cons found (.cons rfl (.nil _)))
  onlyXon := awaitXon_endsOnXon
  notPast rounds host d := begins_awaitXon (begins_logged rounds host _ d)

/-- A device greets, and has more to say after XON. -/
theorem awaitXon_hands_over_greeting :
    let clock : Stream' Nat := fun n => 250 * n
    let rest : List Arrival := [.byte 0x4F, .silence, .byte 0x4B, .closed]
    Ends Session.host (awaitXon 30000).run
        ⟨[.byte 0x48, .silence, .byte 0x69, .byte Boot.xon] ++ rest, clock, []⟩
        (.ok (.ok [0x48, 0x69]) ⟨rest, clock.drop 4, []⟩) ∧
      Ends Session.host echo.run ⟨rest, clock.drop 4, []⟩
        (.ok (.error (.listening .unexpectedEnd)) ⟨[], clock.drop 4, [0x4F, 0x4B]⟩) := by
  intro clock rest
  have quiet : Boot.xon ∉ [some 0x48, none, some 0x69].reduceOption := by decide
  have inTime : InTime 30000 clock 3 := by
    refine ⟨by decide, fun k lt => ?_⟩
    change 250 * (k + 1) < 250 * 0 + 30000
    omega
  have echoed : Ends Session.host echo.run
      ⟨[some 0x4F, none, some 0x4B].map .ofReply ++ .closed :: [], clock.drop 4, []⟩
      (.ok (.error (.listening .unexpectedEnd))
        ⟨[], clock.drop 4, [] ++ [some 0x4F, none, some 0x4B].reduceOption⟩) :=
    (awaitXon_hands_over 30000).echoed .closed
  exact ⟨(awaitXon_hands_over 30000).heard quiet inTime, echoed⟩

/-- A wait for longer than the clock can show gives up at once, though XON comes first and no look at the
clock would find its deadline reached. -/
theorem deadline_past_clock :
    let timeout := (UInt64.size - 1) * 1000
    let clock := Stream'.const 0
    let session : Session := ⟨[.byte Boot.xon, .closed], clock, []⟩
    (∀ k, clock.get k < clock.head + timeout) ∧
      Ends Session.host (awaitXon timeout).run session
        (.error (.fault .deadlineOverflow) ⟨session.arriving, clock, []⟩) ∧
      ¬ ∃ said left, Ends Session.host (awaitXon timeout).run session (.ok (.ok said) left) := by
  intro timeout clock session
  have looked : Ends Session.host Host.clock session (.ok 0 ⟨session.arriving, clock, []⟩) :=
    .ask rfl (.done _ _)
  have gaveUp : Ends Session.host (awaitXon timeout).run session
      (.error (.fault .deadlineOverflow) ⟨session.arriving, clock, []⟩) := by
    rw [awaitXon_run]
    apply looked.bind
    rw [if_pos (by decide)]
    exact .fault _ _
  refine ⟨fun _ => Nat.zero_lt_succ _, gaveUp, ?_⟩
  rintro ⟨said, left, ended⟩
  cases gaveUp.unique ended

end BoardSupport.Loader
