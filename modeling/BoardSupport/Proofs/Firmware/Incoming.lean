import BoardSupport.Proofs.Firmware.Booting
import Mathlib.Data.Stream.Defs

/-! A machine whose serial line has bytes to come. A bootloader on it comes to its end as soon as the
bytes do. -/
namespace BoardSupport.Firmware.Bootloader

open Program Boot

/-- What is still to come over a serial line. -/
structure Line where
  /-- What looks at the transmitter find. -/
  idle : Stream' UInt32
  /-- What looks at the receiver find, and the word that is there to collect from then on. -/
  looks : List (UInt32 × UInt32)
  data : UInt32

namespace Line

def polls (l : Line) : List (Option UInt8) :=
  l.looks.map fun (status, word) => if status != 0 then some word.toUInt8 else none

/-- The bytes that are received. -/
def bytes (l : Line) : List UInt8 := l.polls.reduceOption

/-- The transmitter is idle again and again. -/
def Recurring (l : Line) : Prop := ∀ n, ∃ k, l.idle.get (n + k) ≠ 0

end Line

/-- Why a run on the machine is stopped. -/
inductive Mishap
  /-- A receiver looks for more than is to come. -/
  | inputExhausted
  /-- A byte of the image goes to the port's registers. -/
  | portOverwritten
  /-- Another address is used, or another program called. -/
  | astray

/-- A machine with nothing but memory and a serial port. -/
def board (u : Uart) : Device Machine Mishap Line
  | .bus (.load address) => fun l =>
    if address = Bus.narrow u.idle then .ok l.idle.head { l with idle := l.idle.tail }
    else if address = Bus.narrow u.valid then
      match l.looks with
      | [] => .error .inputExhausted l
      | (status, word) :: looks => .ok status { l with looks, data := word }
    else if address = Bus.narrow u.dataIn then .ok l.data l
    else .error .astray l
  | .bus (.store address _) => fun l =>
    if address = Bus.narrow u.dataOut ∨ address = Bus.narrow u.divisor then .ok () l else .error .astray l
  | .bus (.idle _) => fun l => .ok () l
  | .storeByte address _ => fun l =>
    if Covers u address then .error .portOverwritten l else .ok () l
  | .jump _ => fun l => .error .astray l

section Service

variable {u : Uart} {l : Line}

private theorem idle_ne_valid : Bus.narrow u.idle ≠ Bus.narrow u.valid := fun same =>
  absurd (Bus.narrow_add_inj.mp same) (by decide)

private theorem dataIn_ne_idle : Bus.narrow u.dataIn ≠ Bus.narrow u.idle := fun same =>
  absurd (Bus.narrow_add_inj.mp same) (by decide)

private theorem dataIn_ne_valid : Bus.narrow u.dataIn ≠ Bus.narrow u.valid := fun same =>
  absurd (Bus.narrow_add_inj.mp same) (by decide)

private theorem board_idle : board u (.bus (.load (Bus.narrow u.idle))) l =
    .ok l.idle.head { l with idle := l.idle.tail } := by
  simp [board]

private theorem board_valid {status word : UInt32} {looks : List (UInt32 × UInt32)}
    (h : l.looks = (status, word) :: looks) :
    board u (.bus (.load (Bus.narrow u.valid))) l = .ok status { l with looks, data := word } := by
  simp [board, idle_ne_valid.symm, h]

private theorem board_dataIn : board u (.bus (.load (Bus.narrow u.dataIn))) l = .ok l.data l := by
  simp [board, dataIn_ne_idle, dataIn_ne_valid]

private theorem board_dataOut (word : UInt32) :
    board u (.bus (.store (Bus.narrow u.dataOut) word)) l = .ok () l := by
  simp [board]

private theorem board_divisor (word : UInt32) :
    board u (.bus (.store (Bus.narrow u.divisor) word)) l = .ok () l := by
  simp [board]

private def lookRound (u : Uart) : Program Machine (Unit ⊕ Unit) :=
  .ask (I := Machine) (.bus (.load (Bus.narrow u.idle))) fun status =>
    .done (if status != 0 then .inr () else .inl ())

private theorem await_eq (u : Uart) :
    onBus (waitUntil u.canSend) = iterate (fun () => lookRound u) () := by
  refine congrArg (fun body => Program.loop body () done) (funext fun _ => ?_)
  refine congrArg (Program.ask (I := Machine) _) (funext fun status => ?_)
  change ((if status != 0 then return .inr () else return .inl () :
    Program Bus (Unit ⊕ Unit)).interpret _).interpret _ = _
  split <;> rfl

private theorem poll_eq (u : Uart) : carry u (.link .poll) =
    .ask (I := Machine) (.bus (.load (Bus.narrow u.valid))) fun status =>
      if status != 0 then
        .ask (I := Machine) (.bus (.load (Bus.narrow u.dataIn))) fun word => .done (some word.toUInt8)
      else .done none := by
  refine congrArg (Program.ask (I := Machine) _) (funext fun status => ?_)
  change ((if status != 0 then do return some (← Bus.load u.dataIn).toUInt8
    else return none : Program Bus (Option UInt8)).interpret _).interpret _ = _
  split <;> rfl

/-- On a line whose transmitter is idle again and again the request comes back, having made these polls
of what was still to come. -/
private def Serves (u : Uart) {α : Type} (p : Program Machine α) (l : Line) (a : α)
    (polls : List (Option UInt8)) : Prop :=
  ∃ l', Ends (board u) p l (.ok a l') ∧ l'.polls = polls ∧ l'.Recurring

private theorem Line.Recurring.tail (h : l.Recurring) : ({ l with idle := l.idle.tail } : Line).Recurring := by
  intro n
  obtain ⟨k, ready⟩ := h (n + 1)
  refine ⟨k, ?_⟩
  rwa [Nat.add_right_comm] at ready

private theorem serves_await (h : l.Recurring) :
    Serves u (onBus (waitUntil u.canSend)) l () l.polls := by
  rw [await_eq]
  obtain ⟨k, ready⟩ := h 0
  rw [Nat.zero_add] at ready
  -- On the looks that are left until the transmitter is idle.
  induction k generalizing l with
  | zero =>
    have found : (l.idle.head != 0) = true := by simpa using ready
    refine ⟨{ l with idle := l.idle.tail }, .leave (.ask board_idle ?_) (.done _ _), rfl, h.tail⟩
    rw [if_pos found]
    exact .done _ _
  | succ k ih =>
    by_cases found : (l.idle.head != 0) = true
    · refine ⟨{ l with idle := l.idle.tail }, .leave (.ask board_idle ?_) (.done _ _), rfl, h.tail⟩
      rw [if_pos found]
      exact .done _ _
    · obtain ⟨l', ends, same, recurring⟩ := ih h.tail ready
      refine ⟨l', .again (.ask board_idle ?_) ends, same, recurring⟩
      rw [if_neg found]
      exact .done _ _

private theorem serves_send (h : l.Recurring) (b : UInt8) :
    Serves u (carry u (.link (.send b))) l () l.polls := by
  obtain ⟨l', ends, same, recurring⟩ := serves_await h (u := u)
  have split : carry u (.link (.send b)) = onBus (waitUntil u.canSend) >>= fun _ =>
      onBus (Bus.store u.dataOut b.toUInt32) :=
    (congrArg Machine.onBus (interpret_bind ..)).trans (interpret_bind ..)
  rw [split]
  exact ⟨l', ends.bind (.ask (board_dataOut _) (.done _ _)), same, recurring⟩

private theorem serves_poll {reply : Option UInt8} {polls : List (Option UInt8)} (h : l.Recurring)
    (coming : l.polls = reply :: polls) : Serves u (carry u (.link .poll)) l reply polls := by
  obtain ⟨idle, looks, data⟩ := l
  obtain ⟨⟨status, word⟩, looks, rfl, found, rfl⟩ := List.map_eq_cons_iff.mp coming
  refine ⟨⟨idle, looks, word⟩, ?_, rfl, h⟩
  rw [poll_eq, ← found]
  refine .ask (board_valid rfl) ?_
  dsimp only
  split
  · exact .ask board_dataIn (.done _ _)
  · exact .done _ _

/-- The machine serves a receiver as a link does that answers polls from a list. -/
private theorem serves_polled {x : Exchange Target} {polls : List (Option UInt8)} (h : l.Recurring)
    (answered : Target.polled x.request l.polls = .ok x.reply polls)
    (clear : ∀ y ∈ Target.stores [x], ¬ Covers u y.1) : Serves u (carry u x.request) l x.reply polls := by
  obtain ⟨request, reply⟩ := x
  cases request with
  | store address byte =>
    cases answered
    refine ⟨l, .ask ?_ (.done _ _), rfl, h⟩
    exact if_neg (clear (address, byte) (by simp [Target.stores]))
  | link r =>
    cases r with
    | send b =>
      cases answered
      exact serves_send h b
    | flush =>
      cases answered
      exact serves_await h
    | poll =>
      revert answered
      cases coming : l.polls with
      | nil => rintro ⟨⟩
      | cons found rest =>
        rintro ⟨⟩
        exact serves_poll h coming

/-- What a receiver does on a link that answers from a list, it does on the machine. -/
private theorem carries_polled {course : List (Exchange Target)} {polls : List (Option UInt8)}
    (answered : Target.polled.Answers l.polls course polls) (h : l.Recurring)
    (clear : ∀ y ∈ Target.stores course, ¬ Covers u y.1) : ∃ log l', Carries (carry u) course log ∧
      (board u).Answers l log l' ∧ l'.polls = polls := by
  generalize same : l.polls = start at answered
  induction answered generalizing l with
  | nil => exact ⟨[], l, .nil, .nil l, same⟩
  | @cons _ mid _ x course reply rest ih =>
    subst same
    rw [← List.singleton_append, Target.stores, List.filterMap_append, List.forall_mem_append] at clear
    obtain ⟨here, later⟩ := clear
    obtain ⟨next, ends, same, recurring⟩ := serves_polled h reply here
    obtain ⟨part, follows, answers⟩ := ends.course
    obtain ⟨log, l', carries, answers', same⟩ := ih recurring later same
    exact ⟨part ++ log, l', .cons follows carries, answers_append.mpr ⟨next, answers, answers'⟩, same⟩

private theorem answers_spoken (polls : List (Option UInt8)) (bytes : List UInt8) :
    Target.polled.Answers polls (spoken bytes) polls := by
  induction bytes with
  | nil => exact .nil polls
  | cons b bytes ih => exact .cons rfl ih

private theorem polls_eq_of_answers {course : List (Exchange Target)} {polls left : List (Option UInt8)}
    (h : Target.polled.Answers polls course left) : polls = Target.replies course ++ left := by
  induction h with
  | nil => rfl
  | @cons polls mid left x course reply rest ih =>
    obtain ⟨request, found⟩ := x
    cases request with
    | store =>
      cases reply
      exact ih
    | link r =>
      cases r with
      | send | flush =>
        cases reply
        exact ih
      | poll =>
        revert reply
        cases polls with
        | nil => rintro ⟨⟩
        | cons next polls =>
          rintro ⟨⟩
          rw [ih]
          rfl

end Service

section Endings

variable {c : Configuration} {window : Window}

private theorem stores_session {course : List (Exchange Target)} (h : Follows (session window) course ()) :
    ∀ y ∈ Target.stores course, y.1 ∈ window := by
  obtain ⟨loading, polls, o, data, last, result, told, rfl, loads, -, account, -⟩ := follows_session h
  have append (first second : List (Exchange Target)) :
      Target.stores (first ++ second) = Target.stores first ++ Target.stores second :=
    List.filterMap_append
  have flush : Target.stores [⟨.link .flush, ()⟩] = [] := rfl
  rw [append, append, append, stores_spoken, stores_spoken, flush, loads.stored]
  simpa using account.inside

/-- Unless a transfer is still to end, a session goes through on a link that answers from a list. -/
private theorem session_or_pending (window : Window) (polls : List (Option UInt8)) :
    (∃ stored, Pending window polls.reduceOption stored) ∨
      ∃ course left, Follows (session window) course () ∧ Target.polled.Answers polls course left := by
  rcases receive_confined window polls with
    ⟨o, data, last, before, rest, log, result, -, -, ends, -⟩ | ⟨log, -, pending⟩
  · obtain ⟨course, received, answered⟩ := ends.course
    obtain ⟨told, follows⟩ := session_of_receive received
    refine .inr ⟨_, rest, follows, ?_⟩
    exact answers_append.mpr ⟨polls, answers_spoken _ _,
      answers_append.mpr ⟨rest, (answers_recorded.mp answered).1, answers_spoken _ _⟩⟩
  · exact .inl ⟨_, pending⟩

/-- On a line whose transmitter is idle again and again a bootloader comes to its end, unless a transfer
is still to end. What it does not take stays on the line. -/
theorem ends_or_pending (reached : baudDivisor Platform.referenceClock c.baud = .ok (50000000 / c.baud))
    (outside : ∀ address ∈ c.window, ¬ Covers c.port address) {l : Line} (h : l.Recurring) :
    (∃ stored, Pending c.window l.bytes stored) ∨ ∃ log left,
      Ends (board c.port).recorded (main c) (l, []) (.ok () (left, log)) ∧
      l.bytes = ((Port.narrow c.port).collected (Machine.accesses log)).map UInt32.toUInt8 ++ left.bytes := by
  rcases session_or_pending c.window l.polls with pending | ⟨course, polls, follows, answered⟩
  · exact .inl pending
  have clear : ∀ y ∈ Target.stores course, ¬ Covers c.port y.1 := fun y mem =>
    outside y.1 (stores_session follows y mem)
  obtain ⟨log, left, carries, answers, same⟩ := carries_polled answered h clear
  have loaded : Follows (load c.port c.window) log () := by
    rw [load_eq]
    exact follows_interpret.mpr ⟨course, follows, carries⟩
  refine .inr ⟨⟨.bus (.store (Bus.narrow c.port.divisor) (50000000 / c.baud)), ()⟩ :: log, left, ?_, ?_⟩
  · rw [main_eq reached]
    exact (Follows.ask loaded).ends_recorded (.cons (board_divisor _) answers)
  · have collected := ((moved_rate c.port (50000000 / c.baud)).append (passed_carries carries).moved).collected
    rw [List.nil_append, taken_eq] at collected
    rw [Line.bytes, polls_eq_of_answers answered, List.reduceOption_append, Line.bytes, same]
    exact congrArg (· ++ polls.reduceOption) collected.symm

end Endings

end BoardSupport.Firmware.Bootloader
