import BoardSupport.Bench.Files
import BoardSupport.Program.Run

/-! A machine with files and, if one is plugged in, a device on a serial line. -/
namespace BoardSupport.Bench

open Loader (Host IoError)

/-- The far end of the serial line. -/
structure Peer where
  /-- Bytes on their way to the machine. -/
  incoming : List UInt8
  /-- What the device still sends, and the text of the output that makes it do so, at the end of a
  line. -/
  answer : Option (List UInt8 × List UInt8) := none
  /-- Bytes that the machine still has to echo before the line is unplugged. -/
  unplugAfter : Option Nat := none
  /-- What the machine has sent, latest piece first. -/
  received : List (List UInt8) := []

structure Workstation where
  files : Files
  /-- The path of the serial port, and what is plugged into it. -/
  portPath : String := "@PORT"
  peer : Option Peer := none
  /-- What has been written to the output, latest first. -/
  output : List UInt8 := []
  timeout : Nat := 500
  /-- The clock. It was started a day ago. -/
  time : Nat := 86400000

namespace Workstation

/-- Why a path that is no serial port cannot be opened as one. -/
def openFailure (files : Files) (path : String) : IoError :=
  match files.find (Text.bytes path) with
  | .ok .directory => .system .isDirectory
  | .ok (.special .absent) => .system .noDevice
  | .ok _ => .described "Not a typewriter"
  | .error e => e

/-- Whether some bytes occur in a row among others. -/
def occursIn (part : List UInt8) : List UInt8 → Bool
  | [] => part.isEmpty
  | b :: rest => part.isPrefixOf (b :: rest) || occursIn part rest

/-- The device sends the rest of what it has to say once the output asks for it. -/
def prompt (w : Workstation) (peer : Peer) : Peer :=
  match peer.answer with
  | some (text, bytes) =>
    if w.output.head? = some 10 ∧ occursIn text w.output.reverse then
      { peer with incoming := peer.incoming ++ bytes, answer := none, unplugAfter := some bytes.length }
    else peer
  | none => peer

def readPort (most : Nat) (w : Workstation) : Except IoError (List UInt8) × Workstation :=
  match w.peer with
  | none => (.error .notConnected, w)
  | some peer =>
    let peer := if peer.incoming.isEmpty then w.prompt peer else peer
    if peer.incoming.isEmpty then
      if peer.unplugAfter = some 0 then (.error (.described "Broken pipe"), { w with peer := some peer })
      else (.error .timedOut, { w with peer := some peer, time := w.time + w.timeout })
    else
      (.ok (peer.incoming.take most),
        { w with peer := some { peer with incoming := peer.incoming.drop most } })

/-- Counts bytes that have been echoed. -/
def countEcho (n : Nat) (peer : Peer) : Peer :=
  { peer with unplugAfter := peer.unplugAfter.map (· - n) }

def device : Device Host Empty Workstation
  | .readFile path => fun w => .ok (w.files.read path) w
  | .writeFile path bytes => fun w =>
    match w.files.write path bytes with
    | .ok files => .ok (.ok ()) { w with files := files }
    | .error e => .ok (.error e) w
  | .openPort path _ => fun w =>
    if w.peer.isSome ∧ path = w.portPath then .ok (.ok ()) w
    else .ok (.error (openFailure w.files path).unnumbered) w
  | .readPort most => fun w =>
    let (answer, w) := w.readPort most
    .ok answer w
  | .writePort bytes => fun w =>
    .ok (.ok ()) { w with peer := w.peer.map fun p => { p with received := bytes :: p.received } }
  | .flushPort => fun w => .ok (.ok ()) w
  | .portTimeout => fun w => .ok w.timeout w
  | .setPortTimeout ms => fun w => .ok (.ok ()) { w with timeout := ms }
  | .clock => fun w => .ok w.time w
  | .say line => fun w =>
    .ok () { w with output := (Text.bytes (line ++ "\n")).reverse ++ w.output }
  | .emit bytes => fun w =>
    .ok (.ok ()) { w with
      output := bytes.reverse ++ w.output
      peer := w.peer.map (countEcho bytes.length) }
  | .flushOutput => fun w => .ok (.ok ()) w

end Workstation

end BoardSupport.Bench
