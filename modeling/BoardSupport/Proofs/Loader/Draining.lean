import BoardSupport.Loader.SerialLine
import BoardSupport.Proofs.Program.Beginning
import Mathlib.Data.Stream.Init

/-! Emptying a serial port. A drain goes by what each read comes to: data are counted and dropped, and
the first read that comes to an error ends it. Nothing else does, so a port that is closed, and gives no
byte at any read, keeps it going for ever. Only an end by a timeout sets the port's timeout back. -/
namespace BoardSupport.Loader

open Program

/-- What a read of a port comes to: bytes, none of them if the port is closed, or an error. -/
abbrev Reading := Except IoError (List UInt8)

/-- A port by what reads of it are going to come to, with its timeout in milliseconds, and what the user
has been told. -/
structure Inflow where
  readings : Stream' Reading
  timeout : Nat
  told : List String

/-- A port that takes every timeout, and gives what comes next at each read, however much that is. It stops
a run that asks for anything else than this and notes. -/
def Inflow.host : Device Host Unit Inflow
  | .readPort _ => fun port => .ok port.readings.head { port with readings := port.readings.tail }
  | .portTimeout => fun port => .ok port.timeout port
  | .setPortTimeout ms => fun port => .ok (.ok ()) { port with timeout := ms }
  | .say line => fun port => .ok () { port with told := port.told ++ [line] }
  | _ => fun port => .error () port

/-- What the reads of a port came to, in order. -/
def readingsOf (log : List (Exchange Host)) : List Reading :=
  log.filterMap fun
    | ⟨.readPort _, reading⟩ => some reading
    | _ => none

/-- How many bytes there are in some chunks of data. -/
def amount (chunks : List (List UInt8)) : Nat := chunks.flatten.length

/-- The reads of a port at which data come in these chunks, and then this error. -/
def dataUntil (chunks : List (List UInt8)) (e : IoError) : List Reading := chunks.map .ok ++ [.error e]

def cruftNote (dropped : Nat) : String :=
  "note: " ++ toString dropped ++ " bytes of cruft drained from serial port"

/-- What a drain tells of the bytes that it has dropped. -/
def tally (dropped : Nat) : List String := if 0 < dropped then [cruftNote dropped] else []

/-- How a drain takes an error. -/
def drained (dropped : Nat) : IoError → Except Failure Nat
  | .timedOut => .ok dropped
  | e => .error (.draining e)

theorem drained_of_ne {e : IoError} (other : e ≠ .timedOut) (dropped : Nat) :
    drained dropped e = .error (.draining e) := by
  cases e
  case timedOut => exact absurd rfl other
  all_goals rfl

/-- What a drain still does once its reads are over. -/
def finishDrain (saved : Nat) : Except Failure Nat → Program Host (Except Failure Unit)
  | .error f => .done (.error f)
  | .ok dropped => .ask (I := Host) (.setPortTimeout saved) fun
    | .error e => .done (.error (.restoringTimeout e))
    | .ok () =>
      if 0 < dropped then .ask (I := Host) (.say (cruftNote dropped)) fun _ => .done (.ok ())
      else .done (.ok ())

theorem drainStep_eq (dropped : Nat) : drainStep dropped = .ask (I := Host) (.readPort 32) fun
    | .ok bytes => if dropped + bytes.length < UInt64.size then .done (.inl (dropped + bytes.length))
        else .fault .addOverflow
    | .error e => .done (.inr (drained dropped e)) := by
  refine congrArg (Program.ask (I := Host) (.readPort 32)) (funext fun reading => ?_)
  cases reading with
  | ok bytes => rfl
  | error e => cases e <;> rfl

theorem drain_run : drain.run = .ask (I := Host) .portTimeout fun saved =>
    .ask (I := Host) (.setPortTimeout 1) fun
      | .ok () => .loop drainStep 0 (finishDrain saved)
      | .error e => .done (.error (.reducingTimeout e)) := by
  refine congrArg (Program.ask (I := Host) .portTimeout) (funext fun saved => ?_)
  refine congrArg (Program.ask (I := Host) (.setPortTimeout 1)) (funext fun reply => ?_)
  cases reply with
  | error e => rfl
  | ok _ =>
    refine congrArg (Program.loop drainStep 0) (funext fun outcome => ?_)
    cases outcome with
    | error f => rfl
    | ok dropped =>
      refine congrArg (Program.ask (I := Host) (.setPortTimeout saved)) (funext fun reply => ?_)
      cases reply with
      | error e => rfl
      | ok _ =>
        by_cases some : 0 < dropped
        · simp only [Program.bind, if_pos some]
          rfl
        · simp only [Program.bind, if_neg some]
          rfl

section Rounds

variable {dropped timeout : Nat} {bytes : List UInt8} {readings : Stream' Reading}
  {told : List String} {log : List (Exchange Host)}

/-- A round in which data come. It has no loop of its own, so any bound on rounds will do. -/
private theorem run_data (n timeout : Nat) (readings : Stream' Reading) (told : List String)
    (log : List (Exchange Host)) (fits : dropped + bytes.length < UInt64.size) :
    (drainStep dropped).run n Inflow.host.recorded (⟨.cons (.ok bytes) readings, timeout, told⟩, log) =
      .ok (.inl (dropped + bytes.length))
        (⟨readings, timeout, told⟩, log ++ [⟨.readPort 32, .ok bytes⟩]) := by
  have counted : (if dropped + bytes.length < UInt64.size then .done (.inl (dropped + bytes.length))
      else .fault .addOverflow : Program Host (Nat ⊕ Except Failure Nat)) =
        .done (.inl (dropped + bytes.length)) := if_pos fits
  rw [drainStep_eq]
  exact congrArg (fun p : Program Host _ => p.run n Inflow.host.recorded
    (⟨readings, timeout, told⟩, log ++ [⟨.readPort 32, .ok bytes⟩])) counted

private theorem ends_full (past : UInt64.size ≤ dropped + bytes.length) :
    Ends Inflow.host.recorded (drainStep dropped) (⟨.cons (.ok bytes) readings, timeout, told⟩, log)
      (.error (.fault .addOverflow)
        (⟨readings, timeout, told⟩, log ++ [⟨.readPort 32, .ok bytes⟩])) := by
  rw [drainStep_eq]
  refine .ask rfl ?_
  simp only [Stream'.head_cons, if_neg (Nat.not_lt.mpr past)]
  exact .fault _ _

private theorem ends_error (dropped : Nat) (e : IoError) :
    Ends Inflow.host.recorded (drainStep dropped) (⟨.cons (.error e) readings, timeout, told⟩, log)
      (.ok (.inr (drained dropped e))
        (⟨readings, timeout, told⟩, log ++ [⟨.readPort 32, .error e⟩])) := by
  rw [drainStep_eq]
  exact .ask rfl (.done _ _)

end Rounds

section Loop

variable {dropped timeout : Nat} {chunks : List (List UInt8)} {readings : Stream' Reading}
  {data : Stream' (List UInt8)} {told : List String} {log : List (Exchange Host)}
  {next : Except Failure Nat → Program Host (Except Failure Unit)}
  {r : EStateM.Result (Halt Unit) (Inflow × List (Exchange Host)) (Except Failure Unit)}

/-- The reads of a drain, as they are logged. -/
private def reads (readings : List Reading) : List (Exchange Host) := readings.map (⟨.readPort 32, ·⟩)

private theorem amount_cons (chunk : List UInt8) (chunks : List (List UInt8)) :
    dropped + amount (chunk :: chunks) = dropped + chunk.length + amount chunks := by
  simp [amount, Nat.add_assoc]

/-- The loop comes through data that it can count. -/
private theorem ends_after_data (fits : dropped + amount chunks < UInt64.size)
    (rest : Ends Inflow.host.recorded (.loop drainStep (dropped + amount chunks) next)
      (⟨readings, timeout, told⟩, log ++ reads (chunks.map .ok)) r) :
    Ends Inflow.host.recorded (.loop drainStep dropped next)
      (⟨chunks.map .ok ++ₛ readings, timeout, told⟩, log) r := by
  induction chunks generalizing dropped log with
  | nil => simpa [amount, reads] using rest
  | cons chunk chunks ih =>
    rw [amount_cons] at fits rest
    have here : dropped + chunk.length < UInt64.size := by omega
    refine .again ⟨settled_ok _ _, 0, run_data 0 timeout _ told log here⟩ (ih fits ?_)
    simpa [reads] using rest

/-- It gives up at the first chunk that takes the count out of its range. -/
private theorem ends_past (log : List (Exchange Host)) (counted : dropped < UInt64.size)
    (past : UInt64.size ≤ dropped + amount chunks) : ∃ left log', Ends Inflow.host.recorded (.loop drainStep dropped next)
      (⟨chunks.map .ok ++ₛ readings, timeout, told⟩, log)
      (.error (.fault .addOverflow) (⟨left, timeout, told⟩, log')) := by
  induction chunks generalizing dropped log with
  | nil => exact absurd past (Nat.not_le.mpr counted)
  | cons chunk chunks ih =>
    rw [amount_cons] at past
    by_cases fits : dropped + chunk.length < UInt64.size
    · obtain ⟨left, log', rest⟩ := ih (log ++ [⟨.readPort 32, .ok chunk⟩]) fits past
      exact ⟨left, log', .again ⟨settled_ok _ _, 0, run_data 0 timeout _ told log fits⟩ rest⟩
    · exact ⟨_, _, .cut (ends_full (Nat.not_lt.mp fits))⟩

/-- As long as there is no error, each round reads once and is followed by another. -/
private theorem steps_data (timeout : Nat) (told : List String) (log : List (Exchange Host)) (n : Nat)
    (fits : ∀ k, dropped + amount (data.take k) < UInt64.size)
    (rounds : Nat) :
    steps (fun s => (drainStep s).run n Inflow.host.recorded) rounds dropped
        (⟨data.map .ok, timeout, told⟩, log) =
      .error .unfinished (⟨(data.drop rounds).map .ok, timeout, told⟩,
        log ++ reads ((data.take rounds).map .ok)) := by
  induction rounds generalizing dropped data log with
  | zero => simp [steps, reads]
  | succ rounds ih =>
    have here : dropped + data.head.length < UInt64.size := by
      simpa [amount, Stream'.take_succ] using fits 1
    have later : ∀ k, dropped + data.head.length + amount (data.tail.take k) < UInt64.size := by
      intro k
      rw [← amount_cons]
      exact fits (k + 1)
    have once := run_data n timeout (data.tail.map .ok) told log here
    rw [Stream'.map_eq]
    simp only [steps, once, ih _ later]
    simp [reads, Stream'.take_succ]

end Loop

section Whole

variable {saved timeout : Nat} {chunks : List (List UInt8)} {told : List String}

theorem readingsOf_append (first second : List (Exchange Host)) :
    readingsOf (first ++ second) = readingsOf first ++ readingsOf second := List.filterMap_append

private theorem readingsOf_reads (readings : List Reading) : readingsOf (reads readings) = readings := by
  rw [readingsOf, reads, List.filterMap_map]
  exact List.filterMap_some

/-- What a drain begins with: it notes the timeout and sets a short one. -/
private def beginning (timeout : Nat) : List (Exchange Host) :=
  [⟨.portTimeout, timeout⟩, ⟨.setPortTimeout 1, .ok ()⟩]

private theorem readingsOf_course (timeout : Nat) (readings : List Reading) (last : List (Exchange Host))
    (silent : readingsOf last = []) :
    readingsOf (beginning timeout ++ reads readings ++ last) = readings := by
  rw [readingsOf_append, readingsOf_append, readingsOf_reads, silent, List.append_nil]
  rfl

private theorem reads_dataUntil (chunks : List (List UInt8)) (e : IoError) :
    reads (dataUntil chunks e) = reads (chunks.map .ok) ++ [⟨.readPort 32, .error e⟩] := by
  simp [reads, dataUntil]

private theorem dataUntil_append (chunks : List (List UInt8)) (e : IoError) (later : Stream' Reading) :
    dataUntil chunks e ++ₛ later = chunks.map .ok ++ₛ .cons (.error e) later :=
  Stream'.append_append_stream _ _ _

/-- A drain ends as its loop does, which begins with nothing dropped and the short timeout. -/
private theorem ends_drain {readings : Stream' Reading}
    {r : EStateM.Result (Halt Unit) (Inflow × List (Exchange Host)) (Except Failure Unit)}
    (looped : Ends Inflow.host.recorded (.loop drainStep 0 (finishDrain timeout))
      (⟨readings, 1, told⟩, beginning timeout) r) :
    Ends Inflow.host.recorded drain.run (⟨readings, timeout, told⟩, []) r := by
  rw [drain_run]
  exact .ask rfl (.ask rfl looped)

/-- At its first error the loop is over, and what is left to do depends on which it is. -/
private theorem ends_at_error {e : IoError} {later : Stream' Reading} (fits : amount chunks < UInt64.size)
    {r : EStateM.Result (Halt Unit) (Inflow × List (Exchange Host)) (Except Failure Unit)}
    (rest : Ends Inflow.host.recorded (finishDrain timeout (drained (amount chunks) e))
      (⟨later, 1, told⟩, beginning timeout ++ reads (dataUntil chunks e)) r) :
    Ends Inflow.host.recorded drain.run (⟨dataUntil chunks e ++ₛ later, timeout, told⟩, []) r := by
  have sum : 0 + amount chunks = amount chunks := Nat.zero_add _
  rw [reads_dataUntil, ← List.append_assoc] at rest
  rw [dataUntil_append]
  apply ends_drain
  apply ends_after_data (by rwa [sum])
  rw [sum]
  exact .leave (ends_error _ _) rest

private theorem ends_restored (saved timeout : Nat) (told : List String) (later : Stream' Reading)
    (log : List (Exchange Host)) (dropped : Nat) : ∃ last, readingsOf last = [] ∧ Ends Inflow.host.recorded (finishDrain saved (.ok dropped))
      (⟨later, timeout, told⟩, log)
      (.ok (.ok ()) (⟨later, saved, told ++ tally dropped⟩, log ++ last)) := by
  unfold tally
  by_cases some : 0 < dropped
  · have course : Follows (finishDrain saved (.ok dropped))
        [⟨.setPortTimeout saved, .ok ()⟩, ⟨.say (cruftNote dropped), ()⟩] (.ok ()) := by
      refine .ask ?_
      rw [if_pos some]
      exact .ask (.done _)
    rw [if_pos some]
    exact ⟨_, rfl, course.ends (answers_recorded.mpr ⟨.cons rfl (.cons rfl (.nil _)), rfl⟩)⟩
  · have course : Follows (finishDrain saved (.ok dropped)) [⟨.setPortTimeout saved, .ok ()⟩] (.ok ()) := by
      refine .ask ?_
      rw [if_neg some]
      exact .done _
    rw [if_neg some, List.append_nil]
    exact ⟨_, rfl, course.ends (answers_recorded.mpr ⟨.cons rfl (.nil _), rfl⟩)⟩

theorem drain_timedOut (fits : amount chunks < UInt64.size) (later : Stream' Reading) : ∃ log,
    Ends Inflow.host.recorded drain.run (⟨dataUntil chunks .timedOut ++ₛ later, timeout, told⟩, [])
      (.ok (.ok ()) (⟨later, timeout, told ++ tally (amount chunks)⟩, log)) ∧
    readingsOf log = dataUntil chunks .timedOut := by
  obtain ⟨last, silent, restored⟩ := ends_restored timeout 1 told later
    (beginning timeout ++ reads (dataUntil chunks .timedOut)) (amount chunks)
  exact ⟨_, ends_at_error fits restored, readingsOf_course timeout _ last silent⟩

theorem drain_failed {e : IoError} (fits : amount chunks < UInt64.size) (other : e ≠ .timedOut)
    (later : Stream' Reading) : ∃ log,
    Ends Inflow.host.recorded drain.run (⟨dataUntil chunks e ++ₛ later, timeout, told⟩, [])
      (.ok (.error (.draining e)) (⟨later, 1, told⟩, log)) ∧
    readingsOf log = dataUntil chunks e := by
  have failed : drained (amount chunks) e = .error (.draining e) := drained_of_ne other _
  refine ⟨beginning timeout ++ reads (dataUntil chunks e), ends_at_error fits ?_, ?_⟩
  · rw [failed]
    exact .done _ _
  · have course := readingsOf_course timeout (dataUntil chunks e) [] rfl
    rwa [List.append_nil] at course

theorem drain_overflowed (past : UInt64.size ≤ amount chunks) (later : Stream' Reading) : ∃ left log,
    Ends Inflow.host.recorded drain.run (⟨chunks.map .ok ++ₛ later, timeout, told⟩, [])
      (.error (.fault .addOverflow) (⟨left, 1, told⟩, log)) := by
  obtain ⟨left, log, gaveUp⟩ := ends_past (beginning timeout) (by decide : 0 < UInt64.size) (by rwa [Nat.zero_add])
  exact ⟨left, log, ends_drain gaveUp⟩

/-- Without an error it reads on, once each round, for as long as it is let. -/
theorem drain_unfinished (timeout : Nat) (told : List String) {data : Stream' (List UInt8)}
    (fits : ∀ k, amount (data.take k) < UInt64.size) (rounds : Nat) : ∃ log,
    drain.run.run rounds Inflow.host.recorded (⟨data.map .ok, timeout, told⟩, []) =
      .error .unfinished (⟨(data.drop rounds).map .ok, 1, told⟩, log) ∧
    readingsOf log = (data.take rounds).map .ok := by
  have counted : ∀ k, 0 + amount (data.take k) < UInt64.size := by simpa only [Nat.zero_add] using fits
  have looped := steps_data 1 told (beginning timeout) rounds counted rounds
  refine ⟨beginning timeout ++ reads ((data.take rounds).map .ok), ?_, ?_⟩
  · have begun : drain.run.run rounds Inflow.host.recorded (⟨data.map .ok, timeout, told⟩, []) =
        (Program.loop drainStep 0 (finishDrain timeout)).run rounds Inflow.host.recorded
          (⟨data.map .ok, 1, told⟩, beginning timeout) := by
      rw [drain_run]
      rfl
    rw [begun]
    unfold run
    rw [looped]
  · have course := readingsOf_course timeout ((data.take rounds).map .ok) [] rfl
    rwa [List.append_nil] at course

end Whole

/-- How a drain leaves a port at which data come in these chunks, and then a read that gives none. -/
structure DrainLeaves (timeout : Nat) (told : List String) (chunks : List (List UInt8))
    (later : Stream' Reading) : Prop where
  /-- At a read that times out the drain succeeds. The port's timeout is what it was, all that came before
  is gone and has been counted, and nothing that comes later has been read. -/
  restored (fits : amount chunks < UInt64.size) : ∃ log,
    Ends Inflow.host.recorded drain.run (⟨dataUntil chunks .timedOut ++ₛ later, timeout, told⟩, [])
      (.ok (.ok ()) (⟨later, timeout, told ++ tally (amount chunks)⟩, log)) ∧
    readingsOf log = dataUntil chunks .timedOut
  /-- At one that fails otherwise the drain fails, and the port keeps the timeout of a millisecond. -/
  shortened (fits : amount chunks < UInt64.size) {e : IoError} (other : e ≠ .timedOut) : ∃ log,
    Ends Inflow.host.recorded drain.run (⟨dataUntil chunks e ++ₛ later, timeout, told⟩, [])
      (.ok (.error (.draining e)) (⟨later, 1, told⟩, log)) ∧
    readingsOf log = dataUntil chunks e
  /-- It gives up at more data than it can count, whatever comes later, and the port keeps that timeout. -/
  uncounted (past : UInt64.size ≤ amount chunks) : ∃ left log,
    Ends Inflow.host.recorded drain.run (⟨chunks.map .ok ++ₛ later, timeout, told⟩, [])
      (.error (.fault .addOverflow) (⟨left, 1, told⟩, log))

theorem drain_leaves (timeout : Nat) (told : List String) (chunks : List (List UInt8))
    (later : Stream' Reading) : DrainLeaves timeout told chunks later where
  restored fits := drain_timedOut fits later
  shortened fits _ other := drain_failed fits other later
  uncounted past := drain_overflowed past later

/-- A byte comes, and then the line breaks. -/
theorem drain_keeps_short_timeout : ∃ outcome port log,
    Ends Inflow.host.recorded drain.run
      (⟨dataUntil [[0x41]] .brokenPipe ++ₛ .const (.ok []), 500, []⟩, []) (.ok outcome (port, log)) ∧
    port.timeout ≠ 500 := by
  have fits : amount [[0x41]] < UInt64.size := by decide
  obtain ⟨log, failed, -⟩ := drain_failed fits
    (by decide : IoError.brokenPipe ≠ .timedOut) (.const (.ok []))
  exact ⟨_, _, log, failed, by decide⟩

section Lasting

variable {chunks : List (List UInt8)}

private theorem append_const (chunks : List (List UInt8)) (e : IoError) :
    chunks.map .ok ++ₛ .const (.error e) = dataUntil chunks e ++ₛ .const (.error e) := by
  rw [dataUntil_append, ← Stream'.const_eq]

private theorem map_append_closed (chunks : List (List UInt8)) :
    (chunks ++ₛ .const []).map .ok = (chunks.map .ok ++ₛ .const (.ok []) : Stream' Reading) := by
  rw [Stream'.map_append_stream, Stream'.map_const]

/-- A closed port adds nothing to what has come. -/
private theorem amount_take_closed (chunks : List (List UInt8)) (k : Nat) :
    amount ((chunks ++ₛ .const []).take k) ≤ amount chunks := by
  induction chunks generalizing k with
  | nil =>
    induction k with
    | zero => exact Nat.le_refl 0
    | succ k ih => simpa [amount, Stream'.take_succ] using ih
  | cons chunk chunks ih =>
    cases k with
    | zero => exact Nat.zero_le _
    | succ k => simpa [amount, Stream'.take_succ, Stream'.cons_append_stream] using ih k

theorem drain_closed (fits : amount chunks < UInt64.size) (timeout : Nat) (told : List String)
    (rounds : Nat) : ∃ port log,
    drain.run.run rounds Inflow.host.recorded (⟨chunks.map .ok ++ₛ .const (.ok []), timeout, told⟩, []) =
      .error .unfinished (port, log) ∧
    (readingsOf log).length = rounds := by
  have few : ∀ k, amount ((chunks ++ₛ .const []).take k) < UInt64.size := fun k =>
    Nat.lt_of_le_of_lt (amount_take_closed chunks k) fits
  obtain ⟨log, unfinished, course⟩ := drain_unfinished timeout told few rounds
  rw [map_append_closed] at unfinished
  refine ⟨_, log, unfinished, ?_⟩
  rw [course, List.length_map, Stream'.length_take]

end Lasting

/-- Whether a drain ends on a port at which data come in these chunks, and which then stays as it is. -/
structure DrainEnds (timeout : Nat) (told : List String) (chunks : List (List UInt8)) : Prop where
  /-- It succeeds at the first read that times out. -/
  silent (fits : amount chunks < UInt64.size) : ∃ port log,
    Ends Inflow.host.recorded drain.run
      (⟨chunks.map .ok ++ₛ .const (.error .timedOut), timeout, told⟩, []) (.ok (.ok ()) (port, log)) ∧
    readingsOf log = dataUntil chunks .timedOut
  /-- It fails at the first read that fails otherwise. -/
  broken (fits : amount chunks < UInt64.size) {e : IoError} (other : e ≠ .timedOut) : ∃ port log,
    Ends Inflow.host.recorded drain.run (⟨chunks.map .ok ++ₛ .const (.error e), timeout, told⟩, [])
      (.ok (.error (.draining e)) (port, log)) ∧
    readingsOf log = dataUntil chunks e
  /-- If the port is closed it never ends: however often it has read, it is going to read again. -/
  closed (fits : amount chunks < UInt64.size) (rounds : Nat) : ∃ port log,
    drain.run.run rounds Inflow.host.recorded (⟨chunks.map .ok ++ₛ .const (.ok []), timeout, told⟩, []) =
      .error .unfinished (port, log) ∧
    (readingsOf log).length = rounds
  /-- It gives up at more data than it can count, whatever comes later. -/
  uncounted (past : UInt64.size ≤ amount chunks) (later : Stream' Reading) : ∃ port log,
    Ends Inflow.host.recorded drain.run (⟨chunks.map .ok ++ₛ later, timeout, told⟩, [])
      (.error (.fault .addOverflow) (port, log))

theorem drain_ends_unless_closed (timeout : Nat) (told : List String) (chunks : List (List UInt8)) :
    DrainEnds timeout told chunks where
  silent fits := by
    rw [append_const]
    exact ⟨_, drain_timedOut fits _⟩
  broken fits e other := by
    rw [append_const]
    exact ⟨_, drain_failed fits other _⟩
  closed fits rounds := drain_closed fits timeout told rounds
  uncounted past later := by
    obtain ⟨left, log, gaveUp⟩ := drain_overflowed past later
    exact ⟨_, log, gaveUp⟩

/-- On a port that is closed from the start it comes to no end at all. -/
theorem drain_never_ends :
    ¬ ∃ r, Ends Inflow.host.recorded drain.run (⟨.const (.ok []), 500, []⟩, []) r := by
  rintro ⟨r, settled, rounds, ran⟩
  obtain ⟨port, log, unfinished, -⟩ := drain_closed (by decide : amount [] < UInt64.size) 500 [] rounds
  rw [← ran] at settled
  exact settled (port, log) unfinished

end BoardSupport.Loader
