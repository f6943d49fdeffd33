import BoardSupport.Firmware.Blinky
import BoardSupport.Proofs.Firmware.Starting
import Mathlib.Data.List.Chain
import Mathlib.Data.Nat.Count

/-! A program that answers to its buttons. What it does in a round follows from which buttons are down then
and were not down the round before, and from the byte that has come. -/
namespace BoardSupport.Firmware.Blinky

open Program Observer

section Presses

/-- The word says that the button is down. -/
def down (board : Board) (word : UInt32) (b : Button) : Bool := word.toNat.testBit (board.buttonBit b).toNat

/-- The buttons that are down in a round and were not down the round before. Before the first round none were. -/
def fresh (samples : Stream' UInt32) (k : Nat) : UInt32 := samples.get k &&& ~~~(Stream'.cons 0 samples).get k

/-- What is said of newly pressed buttons. -/
def said (board : Board) (pressed : UInt32) : String :=
  if down board pressed .left then "Left Button Pressed\r\nSetting Baud Rate to 9600\r\n"
  else if down board pressed .right then "Right Button Pressed\r\nSetting Baud Rate to 19200\r\n"
  else if down board pressed .up then "Up Button Pressed\r\nSetting Baud Rate to 115200\r\n"
  else if down board pressed .down then "Down Button Pressed\r\n"
  else ""

/-- The divisor that newly pressed buttons select. -/
def divisor (board : Board) (pressed : UInt32) : Option UInt32 :=
  if down board pressed .left then some (50000000 / 9600)
  else if down board pressed .right then some (50000000 / 19200)
  else if down board pressed .up then some (50000000 / 115200)
  else none

/-- What newly pressed buttons lead to. -/
def reaction (board : Board) (pressed : UInt32) : List Event :=
  sending (Text.bytes (said board pressed)) ++ (divisor board pressed).toList.flatMap fun d => [.ready, .rate d]

variable {board : Board}

private theorem buttonBit_lt (board : Board) (b : Button) : board.buttonBit b < 32 := by
  cases board <;> cases b <;> decide

theorem has_eq (board : Board) (word : UInt32) (b : Button) : has board word b = down board word b :=
  Word.bit_bne_zero word (buttonBit_lt board b)

/-- A button that was down already is not newly pressed. -/
theorem down_fresh (samples : Stream' UInt32) (k : Nat) (b : Button) :
    down board (fresh samples (k + 1)) b =
      (down board (samples.get (k + 1)) b && !down board (samples.get k) b) := by
  have small : (board.buttonBit b).toNat < 32 := UInt32.lt_iff_toNat_lt.mp (buttonBit_lt board b)
  have before : (Stream'.cons 0 samples).get (k + 1) = samples.get k := rfl
  have flipped : (~~~samples.get k).toNat = 2 ^ 32 - ((samples.get k).toNat + 1) := by
    rw [UInt32.toNat_not, Nat.add_comm, Nat.sub_sub]
    rfl
  rw [down, fresh, before, UInt32.toNat_and, Nat.testBit_and, flipped,
    Nat.testBit_two_pow_sub_succ (samples.get k).toNat_lt, decide_eq_true small, Bool.true_and]
  rfl

/-- Nothing comes of no button. -/
theorem reaction_eq_nil {pressed : UInt32} (none : ∀ b, down board pressed b = false) :
    reaction board pressed = [] := by
  simp only [reaction, said, divisor, none, Bool.false_eq_true, if_false]
  rfl

end Presses

section Stories

/-- What is done with a byte that has come. -/
def echoed : Option UInt32 → List Event
  | none => []
  | some word => [.received word, .ready, .sent word.toUInt8.toUInt32]

/-- How many bytes have come before a round. -/
def taken (i : Inputs) (k : Nat) : Nat := Nat.count (fun n => i.valid.get n ≠ 0) k

/-- The byte that has come when a round asks for one. -/
def arrival (i : Inputs) (k : Nat) : Option UInt32 :=
  if i.valid.get k = 0 then none else some (i.data.get (taken i k))

/-- What is noted of a round. -/
def turn (board : Board) (i : Inputs) (k : Nat) : List Event :=
  [Event.buttons (i.buttons.get k), .lights (i.buttons.get k)] ++ echoed (arrival i k) ++
    reaction board (fresh i.buttons k) ++ [Event.segments (UInt32.ofNat (k + 1))]

def greeting (board : Board) : String := "\r\r\nThe FPCA has booted! (blinky, " ++ board.name ++ ")\r\n"

/-- What is noted of the start and of so many rounds. -/
def story (board : Board) (i : Inputs) (rounds : Nat) : List Event :=
  .rate (50000000 / 9600) :: (sending (Text.bytes (greeting board)) ++ (List.range rounds).flatMap (turn board i))

/-- But for the first event, a rate is set only where the transmitter has just been found ready. -/
def Settled (events : List Event) : Prop :=
  events.IsChain fun earlier later => ∀ d, later = .rate d → earlier = .ready

variable {board : Board} {i : Inputs}

/-- Events that are settled and go on so after any others. -/
private structure GoesOn (events : List Event) : Prop where
  settled : Settled events
  start : ∀ d, .rate d ∉ events.head?

private theorem settled_append {first second : List Event} (h : Settled first) (h' : GoesOn second) :
    Settled (first ++ second) := by
  refine List.isChain_append.mpr ⟨h, h'.settled, ?_⟩
  rintro _ - _ next d rfl
  exact absurd next (h'.start d)

private theorem GoesOn.after {events : List Event} (h : GoesOn events) (event : Event) : Settled (event :: events) := by
  change Settled ([event] ++ events)
  exact settled_append (.singleton event) h

private theorem GoesOn.append {first second : List Event} (h : GoesOn first) (h' : GoesOn second) :
    GoesOn (first ++ second) where
  settled := settled_append h.settled h'
  start := by
    cases first with
    | nil => exact h'.start
    | cons => exact h.start

private theorem goesOn_nil : GoesOn [] := ⟨.nil, by simp⟩

private theorem goesOn_flatMap {α : Type} {f : α → List Event} (each : ∀ x, GoesOn (f x)) (list : List α) :
    GoesOn (list.flatMap f) := by
  induction list with
  | nil => exact goesOn_nil
  | cons x list ih =>
    rw [List.flatMap_cons]
    exact (each x).append ih

private theorem goesOn_sending (bytes : List UInt8) : GoesOn (sending bytes) :=
  goesOn_flatMap (fun _ => ⟨by simp [Settled], by simp⟩) bytes

private theorem goesOn_turn (k : Nat) : GoesOn (turn board i k) := by
  have looked (word : UInt32) : GoesOn [.buttons word, .lights word] := ⟨by simp [Settled], by simp⟩
  have echo (word : Option UInt32) : GoesOn (echoed word) := by
    cases word with
    | none => exact goesOn_nil
    | some word => exact ⟨by simp [Settled, echoed], by simp [echoed]⟩
  have set (d : UInt32) : GoesOn [.ready, .rate d] := ⟨by simp [Settled], by simp⟩
  have shown (word : UInt32) : GoesOn [.segments word] := ⟨by simp [Settled], by simp⟩
  exact (((looked _).append (echo _)).append ((goesOn_sending _).append (goesOn_flatMap set _))).append (shown _)

theorem settled_story (rounds : Nat) : Settled (story board i rounds) := by
  have later : GoesOn (sending (Text.bytes (greeting board)) ++ (List.range rounds).flatMap (turn board i)) :=
    (goesOn_sending _).append (goesOn_flatMap goesOn_turn _)
  exact later.after _

end Stories

section Rounds

/-- What a program that runs for good waits for: the transmitter, room at the second console, and each part of
ten milliseconds from wherever the count stands. -/
inductive Awaited (split : Delay.Splitting) : Address → (UInt32 → Bool) → Prop
  | transmitter : Awaited split uart.idle fun word => word != 0
  | room : Awaited split Board.psUart.status fun status => status &&& PsUart.transmitFull == 0
  | time {ns : UInt32} (part : ns ∈ split 10) (first : UInt32) :
      Awaited split timer.count fun word => word - first ≥ Delay.cycles ns Platform.referenceClock

variable {split : Delay.Splitting} {i : Inputs} {board : Board}

private theorem shows_control :
    (watcher (Awaited split)).Shows Bus.answering (Bus.load timer.control) i [] fun _ j => j = i :=
  Bus.shows_glance (fun _ => rfl) (inputs_update (by decide))

theorem shows_start : (watcher (Awaited split)).Shows Bus.answering timer.start i [] (Leaves () i) :=
  shows_control.quietly fun _ => Bus.shows_store

private theorem shows_watch {ns : UInt32} (part : ns ∈ split 10) : (watcher (Awaited split)).Shows Bus.answering (do
    let first ← timer.time
    waitUntil do return (← timer.time) - first ≥ Delay.cycles ns Platform.referenceClock) i []
    (Leaves () i) := by
  have look : (watcher (Awaited split)).Shows Bus.answering timer.time i [] fun _ j => j = i :=
    Bus.shows_glance (fun _ => rfl) (inputs_update (by decide))
  exact look.quietly fun first =>
    Bus.shows_await (.time part first) (fun _ _ => rfl) (fun _ _ => rfl) (inputs_update (by decide))

private theorem shows_delay {ns : UInt32} (part : ns ∈ split 10) :
    (watcher (Awaited split)).Shows Bus.answering (timer.delay ns) i [] (Leaves () i) := by
  have running : (watcher (Awaited split)).Shows Bus.answering timer.isRunning i [] fun _ j => j = i :=
    shows_control.quietly fun _ => shows_done rfl
  refine running.quietly fun up => ?_
  cases up with
  | true => exact shows_watch part
  | false => exact shows_start.andThen (shows_watch part)

private theorem shows_echo :
    (watcher (Awaited split)).Shows Bus.answering echo i (echoed i.arrived) (Leaves () i.polled) := by
  have poll : (watcher (Awaited split)).Shows Bus.answering uart.poll i (i.arrived.toList.map .received)
      (Leaves (i.arrived.map UInt32.toUInt8) i.polled) := shows_poll
  rw [echo]
  cases found : i.arrived with
  | none =>
    rw [found] at poll
    exact poll.andThen (shows_done ⟨rfl, rfl⟩)
  | some word =>
    rw [found] at poll
    exact poll.andThen (shows_send .transmitter word.toUInt8)

/-- What is said goes out at the old rate, and the new one is set once the last byte of it is out. -/
private theorem shows_changeRate (name : String) {rate d : UInt32}
    (reached : baudDivisor Platform.referenceClock rate = .ok d) :
    (watcher (Awaited split)).Shows Bus.answering (changeRate name rate) i
      (sending (Uart.withReturns (name ++ " Button Pressed\n") ++
        Uart.withReturns ("Setting Baud Rate to " ++ toString rate.toNat ++ "\n")) ++ [.ready, .rate d])
      (Leaves () i) := by
  have flushed : (watcher (Awaited split)).Shows Bus.answering (uart.runLink Link.flush) i [.ready]
      (Leaves () i) := by
    rw [Uart.runLink, Link.flush, interpret_call]
    exact shows_flush .transmitter
  rw [sending_append, List.append_assoc]
  exact (shows_write .transmitter _).andThen ((shows_write .transmitter _).andThen (flushed.andThen
    ((shows_setBaud reached).andThen (shows_done ⟨rfl, rfl⟩))))

theorem shows_act (pressed : UInt32) : (watcher (Awaited split)).Shows Bus.answering (act board pressed) i
    (reaction board pressed) (Leaves () i) := by
  have left_reached : baudDivisor Platform.referenceClock 9600 = .ok (50000000 / 9600) := by decide
  have right_reached : baudDivisor Platform.referenceClock 19200 = .ok (50000000 / 19200) := by decide
  have up_reached : baudDivisor Platform.referenceClock 115200 = .ok (50000000 / 115200) := by decide
  simp only [act, chosenRate, has_eq, reaction, said, divisor]
  by_cases left : down board pressed .left
  · simp only [left, if_true]
    exact shows_changeRate "Left" left_reached
  by_cases right : down board pressed .right
  · simp only [left, right, if_true]
    exact shows_changeRate "Right" right_reached
  by_cases up : down board pressed .up
  · simp only [left, right, up, if_true]
    exact shows_changeRate "Up" up_reached
  simp only [left, right, up]
  by_cases bottom : down board pressed .down
  · simp only [bottom, if_true]
    exact shows_write .transmitter "Down Button Pressed\n"
  · simp only [bottom]
    exact shows_done ⟨rfl, rfl⟩

theorem shows_round (m : Memory) : (watcher (Awaited split)).Shows Bus.answering (round split board m) i
    ([Event.buttons i.buttons.head, .lights i.buttons.head] ++ echoed i.arrived ++
      reaction board (i.buttons.head &&& ~~~m.held) ++ [Event.segments (m.count + 1)])
    (Leaves ⟨m.count + 1, i.buttons.head⟩ { i.polled with buttons := i.buttons.tail }) := by
  have lit (j : Inputs) (word : UInt32) : (watcher (Awaited split)).Shows Bus.answering (gpio.setLights word) j
      [.lights word] (Leaves () j) := Bus.shows_store
  have shown (j : Inputs) (word : UInt32) : (watcher (Awaited split)).Shows Bus.answering (gpio.setSegments word) j
      [.segments word] (Leaves () j) := Bus.shows_store
  have waited (j : Inputs) : (watcher (Awaited split)).Shows Bus.answering (timer.delays (split 10)) j []
      (Leaves () j) :=
    shows_forM_quiet fun ns part => shows_delay part
  rw [List.append_assoc, List.append_assoc]
  exact shows_buttons.andThen ((lit _ _).andThen (shows_echo.andThen ((shows_act _).andThen
    ((shown _ _).andThen ((waited _).andThen (shows_done ⟨rfl, rfl⟩))))))

end Rounds

section Runs

variable {split : Delay.Splitting} {board : Board} {i : Inputs}

/-- What is remembered before a round. -/
private def remembered (i : Inputs) (k : Nat) : Memory := ⟨UInt32.ofNat k, (Stream'.cons 0 i.buttons).get k⟩

/-- What is still in store before a round. -/
private def remaining (i : Inputs) (k : Nat) : Inputs :=
  ⟨i.buttons.drop k, i.switches, i.valid.drop k, i.data.drop (taken i k)⟩

private theorem arrived_remaining (k : Nat) : (remaining i k).arrived = arrival i k := by
  simp only [Inputs.arrived, arrival, remaining, Stream'.head_drop]

private theorem remaining_succ (k : Nat) :
    { (remaining i k).polled with buttons := (remaining i k).buttons.tail } = remaining i (k + 1) := by
  simp only [Inputs.polled, remaining, taken, Nat.count_succ, Stream'.head_drop, Stream'.tail_drop, Stream'.drop_succ]
  by_cases nothing : i.valid.get k = 0
  · simp only [nothing, if_true, ne_eq, not_true, if_false, Nat.add_zero]
  · simp only [nothing, if_false, ne_eq, not_false_eq_true, if_true, Stream'.drop_succ]

/-- Each round starts where the one before has left off. -/
private theorem shows_turn (k : Nat) : (watcher (Awaited split)).Shows Bus.answering (round split board (remembered i k))
    (remaining i k) (turn board i k) (Leaves (remembered i (k + 1)) (remaining i (k + 1))) := by
  have shown : (watcher (Awaited split)).Shows Bus.answering (round split board (remembered i k))
      (remaining i k) _ _ :=
    shows_round (remembered i k)
  have buttons : (remaining i k).buttons.head = i.buttons.get k := Stream'.head_drop ..
  have next : (remembered i k).count + 1 = UInt32.ofNat (k + 1) := (UInt32.ofNat_add k 1).symm
  rw [arrived_remaining, remaining_succ, buttons, next] at shown
  exact shown

theorem showsOn_main (off : i.switches.head.toNat.testBit 15 = false) :
    (Machine.observer (watcher (Awaited split))).ShowsOn Machine.answering (main split board) i (story board i) := by
  have started := shows_startup (@Awaited.transmitter split) .room board "blinky" off
  have text : Uart.withReturns (banner board "blinky") = Text.bytes (greeting board) := by
    cases board <;> decide
  rw [text] at started
  have running (j : Inputs) : (watcher (Awaited split)).ShowsOn Bus.answering (do
      timer.start
      forever (round split board) ⟨0, 0⟩) j fun n => (List.range n).flatMap (turn board j) :=
    ShowsOn.after (f := fun _ => forever (round split board) ⟨0, 0⟩) (showsOn_forever shows_turn) shows_start
  exact (Machine.showsOn_onBus (running _)).after started

/-- Once the boot switch is found down, what is noted of a run is the story of its rounds so far, whatever the
buttons, the line and everything else reply and however long it has run. Past the start no rate is set under a
byte that is on its way. Where what it waits for comes again and again, it gets through any number of rounds.
A button that is still down counts as pressed no more, so nothing comes of buttons that are only held. -/
theorem acts_once_per_press (split : Delay.Splitting) (board : Board) (replies : Address → Stream' UInt32)
    (off : (replies gpio.switchWord).head.toNat.testBit 15 = false) :
    (∀ log left, Begins (main split board) log → Machine.answering.Answers replies log left →
      (∃ rounds, (Machine.accesses log).filterMap event <+: story board (inputs replies) rounds) ∧
      Settled ((Machine.accesses log).filterMap event)) ∧
    (Bus.Recurring (Awaited split) replies → ∀ rounds, ∃ log left, Begins (main split board) log ∧
      Machine.answering.Answers replies log left ∧
      (Machine.accesses log).filterMap event = story board (inputs replies) rounds) ∧
    (∀ k b, down board ((replies gpio.buttonWord).get k) b →
      down board (fresh (replies gpio.buttonWord) (k + 1)) b = false) ∧
    ∀ k, (∀ b, down board ((replies gpio.buttonWord).get (k + 1)) b →
        down board ((replies gpio.buttonWord).get k) b) →
      reaction board (fresh (replies gpio.buttonWord) (k + 1)) = [] := by
  have shown : (Machine.observer (watcher (Awaited split))).ShowsOn Machine.answering (main split board)
      (inputs replies) _ :=
    showsOn_main off
  have once (k : Nat) (b : Button) (held : down board ((replies gpio.buttonWord).get k) b) :
      down board (fresh (replies gpio.buttonWord) (k + 1)) b = false := by
    rw [down_fresh, held, Bool.not_true, Bool.and_false]
  refine ⟨?_, ?_, once, ?_⟩
  · intro log left begun answered
    obtain ⟨rounds, part⟩ := shown.begun rfl begun answered
    rw [Machine.notes_accesses] at part
    exact ⟨⟨rounds, part⟩, List.IsChain.prefix (settled_story rounds) part⟩
  · intro lively rounds
    obtain ⟨log, left, begun, answered, noted⟩ := shown.comes rfl lively rounds
    rw [Machine.notes_accesses] at noted
    exact ⟨log, left, begun, answered, noted⟩
  · intro k held
    refine reaction_eq_nil fun b => ?_
    cases now : down board ((replies gpio.buttonWord).get (k + 1)) b with
    | false => rw [down_fresh, now, Bool.false_and]
    | true => exact once k b (held b now)

/-- A running timer, an idle transmitter, and a left button that is down all the time. -/
def leftHeld : Address → Stream' UInt32 := fun address n =>
  if address = gpio.buttonWord then 4
  else if address = uart.idle ∨ address = timer.control then 1
  else if address = timer.count then UInt32.ofNat (100 * n)
  else 0

theorem acts_once_per_press_left_held : (leftHeld gpio.switchWord).head.toNat.testBit 15 = false ∧
    Bus.Recurring (Awaited Delay.milliseconds) leftHeld ∧ ∃ log left, Begins (main Delay.milliseconds .basys3) log ∧
      Machine.answering.Answers leftHeld log left ∧ (Machine.accesses log).filterMap event =
        [Event.rate 5208] ++ sending (Text.bytes "\r\r\nThe FPCA has booted! (blinky, Basys3)\r\n") ++
        [Event.buttons 4, .lights 4] ++ sending (Text.bytes "Left Button Pressed\r\nSetting Baud Rate to 9600\r\n") ++
        [Event.ready, .rate 5208, .segments 1, .buttons 4, .lights 4, .segments 2] := by
  have recurring : Bus.Recurring (Awaited Delay.milliseconds) leftHeld := by
    intro address ready waits n
    cases waits with
    | transmitter => exact ⟨0, rfl⟩
    | room =>
      have empty : (leftHeld Board.psUart.status).get (n + 0) = 0 := rfl
      exact ⟨0, by rw [empty]; rfl⟩
    | @time ns part first =>
      have whole : Delay.milliseconds 10 = [10000000] := by decide
      rw [whole] at part
      obtain rfl := List.mem_singleton.mp part
      have enough (m : Nat) (h : 500000 ≤ (UInt32.ofNat (100 * m) - first).toNat) :
          decide ((leftHeld timer.count).get m - first ≥ Delay.cycles 10000000 Platform.referenceClock) = true := by
        have need : Delay.cycles 10000000 Platform.referenceClock = 500000 := by decide
        rw [need]
        exact decide_eq_true (UInt32.le_iff_toNat_le.mpr h)
      -- Either the whole wait has gone by already, or it has when the count has come that much further.
      by_cases late : 500000 ≤ (UInt32.ofNat (100 * n) - first).toNat
      · exact ⟨0, enough n late⟩
      · refine ⟨5000, enough (n + 5000) ?_⟩
        rw [UInt32.toNat_sub, UInt32.toNat_ofNat'] at late ⊢
        omega
  have off : (leftHeld gpio.switchWord).head.toNat.testBit 15 = false := by decide
  obtain ⟨-, comes, -⟩ := acts_once_per_press Delay.milliseconds .basys3 leftHeld off
  obtain ⟨log, left, begun, answered, noted⟩ := comes recurring 2
  exact ⟨off, recurring, log, left, begun, answered, noted⟩

end Runs

end BoardSupport.Firmware.Blinky
