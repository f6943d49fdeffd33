import BoardSupport.Loader.Failure

/-! What the loader does with a serial port: wait for the bootloader, empty the port, pass on what
the device says. -/
namespace BoardSupport.Loader

/-- A step of the loader, which may fail. -/
abbrev Task := ExceptT Failure (Program Host)

/-- Asks the host for something that may fail, and says what failed. -/
def Task.host {α : Type} (p : Program Host (Except IoError α)) (failure : IoError → Failure) :
    Task α :=
  ExceptT.mk do
    match ← p with
    | .ok a => return .ok a
    | .error e => return .error (failure e)

/-- Does something that cannot fail. -/
def Task.always {α : Type} (p : Program Host α) : Task α := ExceptT.lift p

/-- One round of waiting: reads a byte, unless none comes, and then looks at the clock. What the
device said is kept latest first. -/
def awaitXonStep (timeout deadline : Nat) (chatter : List UInt8) :
    Program Host (List UInt8 ⊕ Except Failure (List UInt8)) := do
  let heard : Except (Except Failure (List UInt8)) (List UInt8) := match ← Host.readPort 1 with
    | .ok [] => .error (.error .closedBeforeXon)
    | .ok (byte :: _) => if byte = Boot.xon then .error (.ok chatter.reverse) else .ok (byte :: chatter)
    | .error .timedOut => .ok chatter
    | .error e => .error (.error (.waiting e))
  match heard with
  | .error outcome => return .inr outcome
  | .ok chatter =>
    if deadline ≤ (← Host.clock) then return .inr (.error (.noXon timeout))
    else return .inl chatter

/-- Waits for the bootloader to announce itself, and ends with what the device said before that. It
gives up once `timeout` milliseconds have passed, a time that the clock has to be able to show. -/
def awaitXon (timeout : Nat) : Task (List UInt8) := ExceptT.mk do
  let deadline := (← Host.clock) + timeout
  if (1 <<< 63) * 1000 ≤ deadline then .fault .deadlineOverflow
  else Program.iterate (awaitXonStep timeout deadline) []

def echoStep : Program Host (Unit ⊕ Failure) := do
  match ← Host.readPort 1 with
  | .ok [] => return .inr (.listening .unexpectedEnd)
  | .ok (byte :: _) =>
    match ← Host.emit [byte] with
    | .error e => return .inr (.output e)
    | .ok () =>
      match ← Host.flushOutput with
      | .error e => return .inr (.output e)
      | .ok () => return .inl ()
  | .error .timedOut | .error .interrupted => return .inl ()
  | .error e => return .inr (.listening e)

/-- Passes everything the device sends on, until the port or the output fails. -/
def echo : Task Unit := ExceptT.mk do
  return .error (← Program.iterate (fun () => echoStep) ())

/-- Reads once from a port that is being emptied of `discarded` bytes so far, which are counted in a
64-bit number. -/
def drainStep (discarded : Nat) : Program Host (Nat ⊕ Except Failure Nat) := do
  match ← Host.readPort 32 with
  | .ok bytes =>
    if discarded + bytes.length < UInt64.size then return .inl (discarded + bytes.length)
    else .fault .addOverflow
  | .error .timedOut => return .inr (.ok discarded)
  | .error e => return .inr (.error (.draining e))

/-- Discards what is waiting in the port, with a short timeout meanwhile, and says how much. -/
def drain : Task Unit := do
  let saved ← Task.always Host.portTimeout
  Task.host (Host.setPortTimeout 1) .reducingTimeout
  let discarded ← ExceptT.mk (Program.iterate drainStep 0)
  Task.host (Host.setPortTimeout saved) .restoringTimeout
  if 0 < discarded then
    Task.always (Host.say ("note: " ++ toString discarded ++ " bytes of cruft drained from serial port"))

/-- Tells the user to reset the board, and waits for the bootloader. -/
def awaitBootloader (seconds : Nat) : Task Unit := do
  Task.always (Host.say "note: waiting for bootloader; reset the board with SW15 up")
  let _ ← awaitXon (seconds * 1000)
  Task.always (Host.say "note: bootloader is listening")

end BoardSupport.Loader
