import BoardSupport.Proofs.Bus.Watching
import BoardSupport.Proofs.Delay.Counting
import BoardSupport.Proofs.Firmware.Booting
import BoardSupport.Proofs.Word.Bytes

/-! What programs do on the serial port and the pins that they share, and how they start. -/
namespace BoardSupport.Firmware

open Program Observer

/-- What is noted of a program. -/
inductive Event
  /-- The buttons were looked at. -/
  | buttons (word : UInt32)
  | lights (word : UInt32)
  | segments (word : UInt32)
  /-- The transmitter was found able to take a byte. -/
  | ready
  | sent (word : UInt32)
  | received (word : UInt32)
  /-- The divisor that makes the rate was set. -/
  | rate (divisor : UInt32)
  deriving DecidableEq, Repr

def event : Exchange Bus → Option Event
  | ⟨.load address, word⟩ =>
    if address = gpio.buttonWord then some (.buttons word)
    else if address = uart.dataIn then some (.received word)
    else if address = uart.idle then if word = 0 then none else some .ready
    else none
  | ⟨.store address word, _⟩ =>
    if address = gpio.lights then some (.lights word)
    else if address = gpio.segments then some (.segments word)
    else if address = uart.dataOut then some (.sent word)
    else if address = uart.divisor then some (.rate word)
    else none
  | ⟨.idle _, _⟩ => none

/-- What buttons, switches and the line have in store. -/
structure Inputs where
  buttons : Stream' UInt32
  switches : Stream' UInt32
  valid : Stream' UInt32
  data : Stream' UInt32

def inputs (replies : Address → Stream' UInt32) : Inputs :=
  ⟨replies gpio.buttonWord, replies gpio.switchWord, replies uart.valid, replies uart.dataIn⟩

/-- Each of these bytes is given to the transmitter once it is found ready. -/
def sending (bytes : List UInt8) : List Event := bytes.flatMap fun b => [.ready, .sent b.toUInt32]

theorem sending_append (first second : List UInt8) : sending (first ++ second) = sending first ++ sending second :=
  List.flatMap_append

/-- One who notes these events on a bus. -/
abbrev watcher (awaited : Address → (UInt32 → Bool) → Prop) :
    Observer Bus (Address → Stream' UInt32) Event Inputs := Bus.observer event inputs awaited

section Accesses

variable {awaited : Address → (UInt32 → Bool) → Prop} {i : Inputs}

/-- Registers whose replies are not seen. -/
theorem inputs_update {address : Address}
    (other : address ∉ [gpio.buttonWord, gpio.switchWord, uart.valid, uart.dataIn])
    (replies : Address → Stream' UInt32) (words : Stream' UInt32) :
    inputs (Function.update replies address words) = inputs replies := by
  simp only [List.mem_cons, List.not_mem_nil, or_false, not_or, ← ne_eq] at other
  obtain ⟨buttons, switches, valid, data⟩ := other
  simp only [inputs, Function.update_of_ne buttons.symm, Function.update_of_ne switches.symm,
    Function.update_of_ne valid.symm, Function.update_of_ne data.symm]

theorem shows_buttons : (watcher awaited).Shows Bus.answering gpio.buttons i [.buttons i.buttons.head]
    (Leaves i.buttons.head { i with buttons := i.buttons.tail }) := by
  refine Bus.shows_load ?_
  rintro replies rfl
  exact ⟨rfl, rfl, rfl⟩

theorem shows_switchUp {n : UInt32} (inside : n < 32) : (watcher awaited).Shows Bus.answering (gpio.switchUp n) i []
    (Leaves (i.switches.head.toNat.testBit n.toNat) { i with switches := i.switches.tail }) := by
  have look : (watcher awaited).Shows Bus.answering gpio.switches i []
      (Leaves i.switches.head { i with switches := i.switches.tail }) := by
    refine Bus.shows_load ?_
    rintro replies rfl
    exact ⟨rfl, rfl, rfl⟩
  rw [← Word.bit_bne_zero _ inside]
  exact look.andThen (shows_done ⟨rfl, rfl⟩)

theorem shows_setBaud {rate divisor : UInt32} (reached : baudDivisor Platform.referenceClock rate = .ok divisor) :
    (watcher awaited).Shows Bus.answering (uart.setBaud rate) i [.rate divisor] (Leaves (.ok ()) i) := by
  have stored : (watcher awaited).Shows Bus.answering (Bus.store uart.divisor divisor) i [.rate divisor]
      (Leaves () i) := Bus.shows_store
  rw [Uart.setBaud, reached]
  exact stored.andThen (shows_done ⟨rfl, rfl⟩)

theorem shows_configure (board : Board) :
    (watcher awaited).Shows Bus.answering board.configure i [] (Leaves () i) := by
  cases board with
  | basys3 => exact shows_done ⟨rfl, rfl⟩
  | pynqZ2 => exact Bus.shows_store

section Line

/-- What the line has in store once it has been asked for a byte. -/
def Inputs.polled (i : Inputs) : Inputs :=
  { i with valid := i.valid.tail, data := if i.valid.head = 0 then i.data else i.data.tail }

/-- The byte that has come when the line is asked for one. -/
def Inputs.arrived (i : Inputs) : Option UInt32 := if i.valid.head = 0 then none else some i.data.head

private theorem shows_take : (watcher awaited).Shows Bus.answering (Bus.load uart.dataIn) i
    [.received i.data.head] (Leaves i.data.head { i with data := i.data.tail }) := by
  refine Bus.shows_load ?_
  rintro replies rfl
  exact ⟨rfl, rfl, rfl⟩

theorem shows_poll : (watcher awaited).Shows Bus.answering uart.poll i (i.arrived.toList.map .received)
    (Leaves (i.arrived.map UInt32.toUInt8) i.polled) := by
  have look : (watcher awaited).Shows Bus.answering uart.hasReceived i []
      (Leaves (i.valid.head != 0) { i with valid := i.valid.tail }) := by
    have load : (watcher awaited).Shows Bus.answering (Bus.load uart.valid) i []
        (Leaves i.valid.head { i with valid := i.valid.tail }) := by
      refine Bus.shows_load ?_
      rintro replies rfl
      exact ⟨rfl, rfl, rfl⟩
    exact load.andThen (shows_done ⟨rfl, rfl⟩)
  refine look.andThen ?_
  rw [Inputs.arrived, Inputs.polled]
  by_cases nothing : i.valid.head = 0
  · simp only [nothing, bne_self_eq_false, Bool.false_eq_true, if_false, if_true]
    exact shows_done ⟨rfl, rfl⟩
  · have waiting : (i.valid.head != 0) = true := bne_iff_ne.mpr nothing
    simp only [nothing, waiting, if_false, if_true]
    exact shows_take.andThen (shows_done ⟨rfl, rfl⟩)

variable (transmits : awaited uart.idle fun word => word != 0)

include transmits

theorem shows_flush : (watcher awaited).Shows Bus.answering (waitUntil uart.canSend) i [.ready] (Leaves () i) := by
  refine Bus.shows_await transmits ?_ ?_ (inputs_update (by decide))
  · intro word busy
    rw [bne_eq_false_iff_eq] at busy
    subst busy
    rfl
  · intro word idle
    have other : word ≠ 0 := bne_iff_ne.mp idle
    change (if word = 0 then none else some Event.ready).toList = _
    rw [if_neg other]
    rfl

theorem shows_send (b : UInt8) : (watcher awaited).Shows Bus.answering (uart.send b) i
    [.ready, .sent b.toUInt32] (Leaves () i) :=
  (shows_flush transmits).andThen Bus.shows_store

theorem shows_write (text : String) : (watcher awaited).Shows Bus.answering (uart.write text) i
    (sending (Uart.withReturns text)) (Leaves () i) :=
  shows_forM fun b _ => shows_send transmits b

end Line

section Console

variable (makesRoom : awaited Board.psUart.status fun status => status &&& PsUart.transmitFull == 0)

include makesRoom

private theorem shows_psSend (b : UInt8) :
    (watcher awaited).Shows Bus.answering (Board.psUart.send b) i [] (Leaves () i) := by
  have room : (watcher awaited).Shows Bus.answering
      (waitUntil do return (← Bus.load Board.psUart.status) &&& PsUart.transmitFull == 0) i [] (Leaves () i) :=
    Bus.shows_await makesRoom (fun _ _ => rfl) (fun _ _ => rfl) (inputs_update (by decide))
  exact room.andThen Bus.shows_store

theorem shows_report (board : Board) (text : String) :
    (watcher awaited).Shows Bus.answering (board.report text) i [] (Leaves () i) := by
  cases board with
  | basys3 => exact shows_done ⟨rfl, rfl⟩
  | pynqZ2 =>
    have all (bytes : List UInt8) : (watcher awaited).Shows Bus.answering
        ((Link.sendAll bytes).interpret Board.psUart.carry) i [] (Leaves () i) := by
      rw [Link.sendAll, interpret_forM]
      refine shows_forM_quiet fun b _ => ?_
      rw [Link.send, interpret_call]
      exact shows_psSend makesRoom b
    change (watcher awaited).Shows Bus.answering
      ((Link.sendAll (Text.bytes text) >>= fun _ => Link.sendAll Link.lineEnd).interpret Board.psUart.carry) i [] _
    rw [interpret_bind]
    exact (all _).andThen (all _)

end Console

section Greeting

variable (transmits : awaited uart.idle fun word => word != 0)
  (makesRoom : awaited Board.psUart.status fun status => status &&& PsUart.transmitFull == 0)

include transmits makesRoom

/-- The line that says which program runs and where. -/
def banner (board : Board) (name : String) : String :=
  "\r\nThe FPCA has booted! (" ++ name ++ ", " ++ board.name ++ ")\n"

theorem shows_greet (board : Board) (name : String) : (watcher awaited).Shows Bus.answering (greet board name) i
    (.rate 5208 :: sending (Uart.withReturns (banner board name))) (Leaves () i) := by
  have set : (watcher awaited).Shows Bus.answering (uart.setBaud baud) i [.rate 5208] (Leaves (.ok ()) i) :=
    shows_setBaud (by decide)
  rw [greet, ← List.append_nil (sending _)]
  refine set.andThen ?_
  exact (shows_write transmits (banner board name)).andThen (shows_report makesRoom board name)

end Greeting

end Accesses

namespace Machine

/-- A machine on such a bus. It keeps running the program that it runs. -/
def answering : Device Machine Unit (Address → Stream' UInt32)
  | .bus r => fun replies =>
    match Bus.answering r replies with
    | .ok x left => .ok x left
    | .error e _ => nomatch e
  | .storeByte .. => fun replies => .ok () replies
  | .jump _ => fun replies => .error () replies

/-- One who notes what passes on the bus of a machine. -/
def observer {δ ω ι : Type} (o : Observer Bus δ ω ι) : Observer Machine δ ω ι where
  note
    | ⟨.bus r, reply⟩ => o.note ⟨r, reply⟩
    | _ => none
  view := o.view
  lively := o.lively

theorem notes_accesses {δ ω ι : Type} (o : Observer Bus δ ω ι) (log : List (Exchange Machine)) :
    (observer o).notes log = o.notes (accesses log) := by
  rw [Observer.notes, Observer.notes, accesses, List.filterMap_filterMap]
  congr 1
  funext x
  obtain ⟨request, reply⟩ := x
  cases request <;> rfl

theorem answers_access {replies left : Address → Stream' UInt32} {below : List (Exchange Bus)} :
    answering.Answers replies (below.map access) left ↔ Bus.answering.Answers replies below left := by
  have one (x : Exchange Bus) (replies mid : Address → Stream' UInt32) :
      answering (access x).request replies = .ok (access x).reply mid ↔
        Bus.answering x.request replies = .ok x.reply mid := by
    obtain ⟨request, reply⟩ := x
    simp only [access, answering]
    cases Bus.answering request replies with
    | ok y left =>
      constructor <;>
      · intro same
        cases same
        rfl
    | error e _ => exact e.elim
  induction below generalizing replies with
  | nil => simp only [List.map_nil, answers_nil]
  | cons x below ih => simp only [List.map_cons, answers_cons, one, ih]

theorem begins_onBus {α : Type} {p : Program Bus α} {log : List (Exchange Machine)} :
    Begins (onBus p) log ↔ ∃ below, Begins p below ∧ log = below.map access :=
  begins_renamed (fun r _ _ => follows_call (I := Machine) (r := .bus r))
    fun r _ h => begins_call (I := Machine) (r := .bus r).mp h

section Lifting

variable {ω ι α : Type} {o : Observer Bus (Address → Stream' UInt32) ω ι} {p : Program Bus α} {i : ι}

private theorem notes_access (below : List (Exchange Bus)) :
    (observer o).notes (below.map access) = o.notes below := by
  rw [notes_accesses, accesses_access]

theorem shows_onBus {tale : List ω} {post : α → ι → Prop} (h : o.Shows Bus.answering p i tale post) :
    (observer o).Shows answering (onBus p) i tale post where
  begun := by
    rintro replies left log seen begun answered
    obtain ⟨below, begins, rfl⟩ := begins_onBus.mp begun
    rw [notes_access]
    exact h.begun seen begins (answers_access.mp answered)
  done := by
    rintro replies left log a seen ended answered
    obtain ⟨below, follows, rfl⟩ := follows_onBus.mp ended
    rw [notes_access]
    exact h.done seen follows (answers_access.mp answered)
  ends := by
    rintro replies seen lively
    obtain ⟨below, a, left, follows, answered, lively⟩ := h.ends seen lively
    exact ⟨below.map access, a, left, follows_onBus.mpr ⟨below, follows, rfl⟩, answers_access.mpr answered, lively⟩

theorem showsOn_onBus {story : Nat → List ω} (h : o.ShowsOn Bus.answering p i story) :
    (observer o).ShowsOn answering (onBus p) i story where
  begun := by
    rintro replies left log seen begun answered
    obtain ⟨below, begins, rfl⟩ := begins_onBus.mp begun
    rw [notes_access]
    exact h.begun seen begins (answers_access.mp answered)
  comes := by
    rintro replies seen lively n
    obtain ⟨below, left, begins, answered, noted⟩ := h.comes seen lively n
    refine ⟨below.map access, left, begins_onBus.mpr ⟨below, begins, rfl⟩, answers_access.mpr answered, ?_⟩
    rw [notes_access, noted]

end Lifting

end Machine

section Startup

variable {awaited : Address → (UInt32 → Bool) → Prop} {i : Inputs}

/-- With the boot switch down a program sets the rate and says what it is. -/
theorem shows_startup (transmits : awaited uart.idle fun word => word != 0)
    (makesRoom : awaited Board.psUart.status fun status => status &&& PsUart.transmitFull == 0) (board : Board)
    (name : String) (off : i.switches.head.toNat.testBit 15 = false) :
    (Machine.observer (watcher awaited)).Shows Machine.answering (startup board name) i
      (.rate 5208 :: sending (Uart.withReturns (banner board name)))
      (Leaves () { i with switches := i.switches.tail }) := by
  have set : (watcher awaited).Shows Bus.answering board.configure i [] (Leaves () i) := shows_configure board
  have looked : (watcher awaited).Shows Bus.answering (gpio.switchUp Platform.bootSwitch) i []
      (Leaves false { i with switches := i.switches.tail }) := by
    rw [← off]
    exact shows_switchUp (by decide)
  have greeted := shows_greet (i := { i with switches := i.switches.tail }) transmits makesRoom board name
  exact (Machine.shows_onBus set).andThen ((Machine.shows_onBus looked).andThen (Machine.shows_onBus greeted))

end Startup

end BoardSupport.Firmware
