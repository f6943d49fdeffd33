import BoardSupport.Bench.Files
import BoardSupport.Program.Run

/-! A machine whose serial port answers from a script. -/
namespace BoardSupport.Bench

open Loader (Host IoError)

/-- What reads from the port meet: bytes to hand over, in one read if there are none, or one read
that fails or gives none. -/
inductive ReadItem
  | bytes (data : List UInt8)
  | fail (error : IoError)
  | nothing
  deriving DecidableEq, Repr

structure ScriptedHost where
  files : Files := {}
  /-- Bytes left of the item that is being read. -/
  current : List UInt8 := []
  /-- Items not yet started. -/
  script : List ReadItem := []
  /-- What a read meets when the script is over. -/
  afterScript : Except IoError Unit := .ok ()
  /-- What has been written to the output, latest piece first. -/
  output : List (List UInt8) := []
  /-- Output writes that succeed before one fails, if one does; and flushes likewise. -/
  writesLeft : Option Nat := none
  flushesLeft : Option Nat := none
  flushes : Nat := 0
  timeout : Nat := 500
  /-- The clock, which stands still a day after it was started. -/
  time : Nat := 86400000
  /-- Changes of the timeout, latest first, and how many succeed before one fails. -/
  timeouts : List Nat := []
  timeoutsLeft : Option Nat := none

namespace ScriptedHost

/-- Counts one use of something that is to fail once. -/
def countDown (left : Option Nat) (error : IoError) : Except IoError Unit × Option Nat :=
  match left with
  | some 0 => (.error error, none)
  | some (n + 1) => (.ok (), some n)
  | none => (.ok (), none)

/-- Hands over at most `most` bytes of the current item. -/
def serve (most : Nat) (data : List UInt8) (later : List ReadItem) (h : ScriptedHost) :
    Except IoError (List UInt8) × ScriptedHost :=
  (.ok (data.take most), { h with current := data.drop most, script := later })

/-- Starts the next item of the script. -/
def startItem (most : Nat) (h : ScriptedHost) : Except IoError (List UInt8) × ScriptedHost :=
  match h.script with
  | [] => (h.afterScript.map fun _ => [], h)
  | .bytes data :: later => h.serve most data later
  | .fail error :: later => (.error error, { h with script := later })
  | .nothing :: later => (.ok [], { h with script := later })

def readPort (most : Nat) (h : ScriptedHost) : Except IoError (List UInt8) × ScriptedHost :=
  if h.current.isEmpty then h.startItem most else h.serve most h.current h.script

def device : Device Host Empty ScriptedHost
  | .readFile path => fun h => .ok (h.files.read path) h
  | .writeFile path bytes => fun h =>
    match h.files.write path bytes with
    | .ok files => .ok (.ok ()) { h with files := files }
    | .error e => .ok (.error e) h
  | .openPort .. => fun h => .ok (.ok ()) h
  | .readPort most => fun h =>
    let (answer, h) := h.readPort most
    .ok answer h
  | .writePort _ => fun h => .ok (.ok ()) h
  | .flushPort => fun h => .ok (.ok ()) h
  | .portTimeout => fun h => .ok h.timeout h
  | .setPortTimeout ms => fun h =>
    let (answer, left) := countDown h.timeoutsLeft (.described "scripted failure")
    .ok answer { h with
      timeout := if answer.isOk then ms else h.timeout
      timeouts := ms :: h.timeouts
      timeoutsLeft := left }
  | .clock => fun h => .ok h.time h
  | .say line => fun h => .ok () { h with output := Text.bytes (line ++ "\n") :: h.output }
  | .emit bytes => fun h =>
    let (answer, left) := countDown h.writesLeft .brokenPipe
    .ok answer { h with output := if answer.isOk then bytes :: h.output else h.output, writesLeft := left }
  | .flushOutput => fun h =>
    let (answer, left) := countDown h.flushesLeft .brokenPipe
    .ok answer { h with flushes := h.flushes + 1, flushesLeft := left }

/-- Everything written to the output, in order. -/
def written (h : ScriptedHost) : List UInt8 := h.output.reverse.flatten

end ScriptedHost

end BoardSupport.Bench
