import BoardSupport.Loader.Tool

/-! The loader as a program: its requests carried out on this machine. -/
namespace BoardSupport.Main

open Loader (Host IoError)

/-- The serial port, once to read from and once to write to. -/
structure SerialLine where
  input : IO.FS.Handle
  output : IO.FS.Handle

structure State where
  port : Option SerialLine := none
  timeout : Nat := 500

/-- The number of a failure that has to do with files. It may come negated. -/
def numberOf? : IO.Error → Option Nat
  | .noFileOrDirectory _ number _ | .inappropriateType _ number _ | .invalidArgument _ number _
  | .noSuchThing _ number _ | .resourceExhausted _ number _ => some number.toInt32.toInt.natAbs
  | _ => none

/-- The loader's word for a failure of this machine. -/
def failureOf (e : IO.Error) : IoError :=
  match (numberOf? e).bind Loader.SystemError.ofNumber?, e with
  | some known, _ => .system known
  | none, .timeExpired .. => .timedOut
  | none, .interrupted .. => .interrupted
  | none, .resourceVanished .. => .brokenPipe
  | none, e => .described (toString e)

/-- An action whose failure is part of its outcome. -/
def attempt {α : Type} (act : IO α) : IO (Except IoError α) := do
  match ← act.toBaseIO with
  | .ok a => return .ok a
  | .error e => return .error (failureOf e)

def openPort (state : IO.Ref State) (path : String) : IO (Except IoError Unit) := attempt do
  let input ← IO.FS.Handle.mk path .read
  let output ← IO.FS.Handle.mk path .readWrite
  state.modify fun s => { s with port := some { input, output } }

/-- Reads from the port. A read that ends without a byte is one that took too long. -/
def readPort (state : IO.Ref State) (most : Nat) : IO (Except IoError (List UInt8)) := do
  match (← state.get).port with
  | none => return .error .notConnected
  | some port =>
    match ← attempt (port.input.read most.toUSize) with
    | .ok bytes => return if bytes.isEmpty then .error .timedOut else .ok bytes.toList
    | .error e => return .error e

/-- Writes to the port, if one is open. -/
def withPort (state : IO.Ref State) (act : IO.FS.Handle → IO Unit) : IO (Except IoError Unit) := do
  match (← state.get).port with
  | none => return .error .notConnected
  | some port => attempt (act port.output)

/-- Carries one request out. A serial line is taken as it has been set up: its speed, and that a
read from it ends after a while though nothing came. -/
def answer (state : IO.Ref State) : (r : Host.Request) → IO (Host.Reply r)
  | .readFile path => attempt do return (← IO.FS.readBinFile (Text.Utf8.readLossy path)).toList
  | .writeFile path bytes =>
    attempt (IO.FS.writeBinFile (Text.Utf8.readLossy path) ⟨bytes.toArray⟩)
  | .openPort path _ => return (← openPort state path).mapError IoError.unnumbered
  | .readPort most => readPort state most
  | .writePort bytes => withPort state fun handle => handle.write ⟨bytes.toArray⟩
  | .flushPort => withPort state fun handle => handle.flush
  | .portTimeout => return (← state.get).timeout
  | .setPortTimeout ms => attempt (state.modify fun s => { s with timeout := ms })
  | .clock => IO.monoMsNow
  | .say line => IO.println line
  | .emit bytes => attempt do (← IO.getStdout).write ⟨bytes.toArray⟩
  | .flushOutput => attempt do (← IO.getStdout).flush

/-- Takes steps for as long as it takes. -/
partial def repeatSteps {σ β : Type} (step : σ → IO (σ ⊕ β)) (s : σ) : IO β := do
  match ← step s with
  | .inl s => repeatSteps step s
  | .inr b => return b

/-- Runs a program on this machine. -/
def carryOut (state : IO.Ref State) : {α : Type} → Program Host α → IO α
  | _, .done a => return a
  | _, .fault c => throw (IO.userError c.message)
  | _, .ask r next => do carryOut state (next (← answer state r))
  | _, .loop body start next => do
    carryOut state (next (← repeatSteps (fun s => carryOut state (body s)) start))

def usage : String :=
  "usage: loader [OPTIONS] upload PORT ADDRESS IMAGE\n" ++
  "       loader [OPTIONS] wait PORT\n" ++
  "       loader [OPTIONS] listen PORT\n" ++
  "       loader [OPTIONS] swap INPUT OUTPUT\n" ++
  "options: --baud-rate BAUD, --verbose; for upload: --format hex|bin, --then-echo;\n" ++
  "         for upload and wait: --timeout SECONDS"

/-- Does what the arguments say, and ends with the program's exit code. -/
def load (args : List String) : IO UInt32 := do
  match Loader.CommandLine.parse args with
  | .error refusal =>
    if refusal = .help then IO.println usage
    else if refusal = .version then IO.println "loader"
    else IO.eprintln ("error: " ++ refusal.name ++ "\n" ++ usage)
    return refusal.exitCode.toUInt32
  | .ok invocation =>
    let state ← IO.mkRef {}
    match ← (carryOut state (Loader.perform invocation).run).toBaseIO with
    | .ok (.ok ()) => return 0
    | .ok (.error failure) =>
      IO.eprint failure.exitMessage
      return 1
    | .error e =>
      IO.eprintln (toString e)
      return 101

end BoardSupport.Main

def main (args : List String) : IO UInt32 := BoardSupport.Main.load args
