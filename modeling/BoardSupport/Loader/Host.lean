import BoardSupport.Program
import BoardSupport.Text.Digits

/-! What the loader asks of the machine it runs on: files, one serial port, a clock and an output. -/
namespace BoardSupport.Loader

/-- A path as a file system takes it: names between slashes, as bytes that need not be text. -/
abbrev Path := List UInt8

/-- A failure that the operating system has a number for. -/
inductive SystemError
  | notFound
  /-- There is a file for a device, but no device. -/
  | noDevice
  | notDirectory
  | isDirectory
  | noSpace
  | nameTooLong
  deriving DecidableEq, Repr

namespace SystemError

def number : SystemError → Nat
  | notFound => 2
  | noDevice => 6
  | notDirectory => 20
  | isDirectory => 21
  | noSpace => 28
  | nameTooLong => 36

def text : SystemError → String
  | notFound => "No such file or directory"
  | noDevice => "No such device or address"
  | notDirectory => "Not a directory"
  | isDirectory => "Is a directory"
  | noSpace => "No space left on device"
  | nameTooLong => "File name too long"

def kind : SystemError → String
  | notFound => "NotFound"
  | noDevice => "Uncategorized"
  | notDirectory => "NotADirectory"
  | isDirectory => "IsADirectory"
  | noSpace => "StorageFull"
  | nameTooLong => "InvalidFilename"

def all : List SystemError := [notFound, noDevice, notDirectory, isDirectory, noSpace, nameTooLong]

/-- The failure that a number stands for. -/
def ofNumber? (n : Nat) : Option SystemError := all.find? (·.number == n)

end SystemError

/-- Why the machine could not do as asked. -/
inductive IoError
  | system (error : SystemError)
  /-- A path holds the byte that ends one. -/
  | nulInPath
  /-- More was read than can be held. -/
  | outOfMemory
  | notUtf8
  | timedOut
  | interrupted
  | wouldBlock
  | brokenPipe
  | notConnected
  /-- The stream ended before enough of it had come. -/
  | unexpectedEnd
  | other
  /-- A failure of which only a description is known. -/
  | described (text : String)
  deriving DecidableEq, Repr

def IoError.message : IoError → String
  | system error => error.text ++ " (os error " ++ toString error.number ++ ")"
  | nulInPath => "file name contained an unexpected NUL byte"
  | outOfMemory => "out of memory"
  | notUtf8 => "stream did not contain valid UTF-8"
  | timedOut => "timed out"
  | interrupted => "operation interrupted"
  | wouldBlock => "operation would block"
  | brokenPipe => "broken pipe"
  | notConnected => "not connected"
  | unexpectedEnd => "failed to fill whole buffer"
  | other => "other error"
  | described text => text

/-- A failure as a serial port tells it: without a number. -/
def IoError.unnumbered : IoError → IoError
  | system error => described error.text
  | e => e

namespace Host

inductive Request
  | readFile (path : Path)
  | writeFile (path : Path) (bytes : List UInt8)
  | openPort (path : String) (baud : UInt32)
  /-- Reads at least one and at most `most` bytes from the port; none if the port is closed. -/
  | readPort (most : Nat)
  | writePort (bytes : List UInt8)
  | flushPort
  /-- Asks how long the port waits for a byte, in milliseconds. -/
  | portTimeout
  | setPortTimeout (ms : Nat)
  /-- Asks for the time, in milliseconds from an unknown instant. -/
  | clock
  | say (line : String)
  | emit (bytes : List UInt8)
  | flushOutput
  deriving DecidableEq, Repr

end Host

abbrev Host : Interface where
  Request := Host.Request
  Reply
    | .readFile _ => Except IoError (List UInt8)
    | .readPort _ => Except IoError (List UInt8)
    | .portTimeout => Nat
    | .clock => Nat
    | .say _ => Unit
    | _ => Except IoError Unit

namespace Host

def readFile (path : Path) : Program Host (Except IoError (List UInt8)) :=
  Program.call (I := Host) (.readFile path)

def writeFile (path : Path) (bytes : List UInt8) : Program Host (Except IoError Unit) :=
  Program.call (I := Host) (.writeFile path bytes)

def openPort (path : String) (baud : UInt32) : Program Host (Except IoError Unit) :=
  Program.call (I := Host) (.openPort path baud)

def readPort (most : Nat) : Program Host (Except IoError (List UInt8)) :=
  Program.call (I := Host) (.readPort most)

def writePort (bytes : List UInt8) : Program Host (Except IoError Unit) :=
  Program.call (I := Host) (.writePort bytes)

def flushPort : Program Host (Except IoError Unit) := Program.call (I := Host) .flushPort

def portTimeout : Program Host Nat := Program.call (I := Host) .portTimeout

def setPortTimeout (ms : Nat) : Program Host (Except IoError Unit) :=
  Program.call (I := Host) (.setPortTimeout ms)

def clock : Program Host Nat := Program.call (I := Host) .clock

def say (line : String) : Program Host Unit := Program.call (I := Host) (.say line)

def emit (bytes : List UInt8) : Program Host (Except IoError Unit) :=
  Program.call (I := Host) (.emit bytes)

def flushOutput : Program Host (Except IoError Unit) := Program.call (I := Host) .flushOutput

end Host

end BoardSupport.Loader
