import BoardSupport.Bench.PsramChip
import BoardSupport.Bench.SimBus
import BoardSupport.Firmware.Machine
import BoardSupport.I2c.Target

/-! A whole machine: memory, a serial port, timers that run, a memory chip, and pins that are
listened to. -/
namespace BoardSupport.Bench

open Firmware (Machine)

/-- Why a program on the machine was stopped. -/
inductive Ending
  /-- It left for another program. -/
  | jump (address : Address)
  /-- It made the write that the run was to end with. -/
  | stop
  /-- It kept loading the same value from an address. -/
  | spin (address : Address)
  deriving DecidableEq, Repr

/-- What a listener on the I²C pins has put together. -/
structure PinLog where
  listener : I2c.Target.Listener := {}
  /-- Whether a transfer was started, and its bytes so far, latest first. -/
  started : Bool := false
  bytes : List UInt8 := []
  log : Log := {}

namespace PinLog

/-- The token of the transfer so far. -/
def token (p : PinLog) : String := Text.hexBytes p.bytes.reverse

/-- Ends a transfer that was cut off, if there is one. -/
def cutOff (p : PinLog) : PinLog :=
  if p.started || !p.bytes.isEmpty then
    { p with started := false, bytes := [], log := p.log.add (p.token ++ "-") }
  else p

def hear (p : PinLog) : I2c.Target.Event → PinLog
  | .start => { p.cutOff with started := true }
  | .byte value _ => { p with bytes := value :: p.bytes }
  | .stop => { p with started := false, bytes := [], log := p.log.add p.token }

def change (p : PinLog) (r : I2c.Pins.Request) : PinLog :=
  let (listener, events) := p.listener.step r
  events.foldl hear { p with listener }

end PinLog

/-- Where words and bytes are kept. -/
structure Store where
  words : Std.HashMap Address UInt32 := {}
  bytes : Std.HashMap UInt32 UInt8 := {}

structure SimMachine where
  memory : Store := {}
  uart : Address := Platform.uartBase
  queues : Std.HashMap Address (List UInt32) := {}
  /-- What a word grows by at every load. -/
  ramps : List (Address × UInt32) := []
  /-- What the serial port has still to receive. -/
  incoming : List UInt8 := []
  /-- Words that stores do not change. -/
  fixed : List Address := []
  chip : Option PsramChip := none
  /-- The word, and how many more stores to it end the run. -/
  stopAfter : Option (Address × Nat) := none
  watched : List Address := []
  /-- Latest load, what it gave, and how often that came in a row. -/
  lastLoad : Address := 0
  lastValue : UInt32 := 0
  repeats : Nat := 0
  idleRounds : Nat := 0
  /-- Bytes sent by the serial port, latest first. -/
  sent : List UInt8 := []
  pins : PinLog := {}
  writes : Log := {}

namespace SimMachine

def spinLimit : Nat := 10000

def chipData : Address := Platform.psramBase

def chipSelect : Address := Platform.psramBase + 4

def word (m : SimMachine) (a : Address) : UInt32 := m.memory.words.getD a 0

def setWord (m : SimMachine) (a : Address) (v : UInt32) : SimMachine :=
  let { words, bytes } := m.memory
  { m with memory := ⟨words.insert a v, bytes⟩ }

/-- What a load of a plain address gives: from what is received, from a queue, or the word. -/
def loadPlain (m : SimMachine) (a : Address) : UInt32 × SimMachine :=
  if a = m.uart + 0x10 then (if m.incoming.isEmpty then 0 else 1, m)
  else if a = m.uart + 0x0C && !m.incoming.isEmpty then
    ((m.incoming.headD 0).toUInt32, { m with incoming := m.incoming.tail })
  else match m.queues.getD a [] with
    | v :: rest => (v, { m with queues := m.queues.insert a rest })
    | [] =>
      let v := m.word a
      match m.ramps.lookup a with
      | some step => (v, m.setWord a (v + step))
      | none => (v, m)

/-- Counts loads that come one after another and give the same. -/
def countLoad (m : SimMachine) (a : Address) (v : UInt32) : SimMachine :=
  if 0 < m.repeats ∧ m.lastLoad = a ∧ m.lastValue = v then { m with repeats := m.repeats + 1 }
  else { m with lastLoad := a, lastValue := v, repeats := 1 }

def load (a : Address) : EStateM Ending SimMachine UInt32 := fun m =>
  match m.chip, a == chipData with
  | some chip, true =>
    let (b, chip) := chip.read
    .ok b.toUInt32 { m with chip := some chip, repeats := 0 }
  | _, _ =>
    let (v, m) := m.loadPlain a
    let m := m.countLoad a v
    if m.repeats < spinLimit then .ok v m else .error (.spin a) m

/-- What a store means to the devices at its address. -/
def tellDevices (m : SimMachine) (a : Address) (v : UInt32) : SimMachine :=
  if a = m.uart then { m with sent := v.toUInt8 :: m.sent }
  else if a = Platform.gpioBase + 0x08 then
    { m with pins := m.pins.change (.clock (v &&& 1 != 0)) }
  else if a = Platform.gpioBase + 0x0C then
    { m with pins := m.pins.change (.data (v &&& 1 != 0)) }
  else match m.chip with
    | some chip =>
      if a = chipData then { m with chip := some (chip.write v.toUInt8) }
      else if a = chipSelect ∧ v = 0 then { m with chip := some chip.select }
      else m
    | none => m

def store (a : Address) (v : UInt32) : EStateM Ending SimMachine Unit := fun m =>
  let m := { m with repeats := 0 }
  let m := if m.watched.contains a then { m with writes := m.writes.add (SimBus.token "" a v) } else m
  let m := if m.fixed.contains a then m else m.setWord a v
  let m := m.tellDevices a v
  match m.stopAfter with
  | some (target, n) =>
    if a = target then
      if n ≤ 1 then .error .stop m else .ok () { m with stopAfter := some (target, n - 1) }
    else .ok () m
  | none => .ok () m

def device : Device Machine Ending SimMachine
  | .bus (.load a) => load a
  | .bus (.store a v) => store a v
  | .bus (.idle rounds) => fun m => .ok () { m with idleRounds := m.idleRounds + rounds.toNat }
  | .storeByte a b => fun m =>
    let { words, bytes } := m.memory
    .ok () { m with memory := ⟨words, bytes.insert a b⟩ }
  | .jump a => fun m => .error (.jump a) m

/-- The words of several ranges that are not zero, in the order asked for. -/
def dumpWords (m : SimMachine) (ranges : List (Address × Nat)) : List Run :=
  gatherRuns (ranges.flatMap fun (start, count) => (List.range count).filterMap fun i =>
    let a := start + UInt64.ofNat (4 * i)
    let v := m.word a
    if v = 0 then none else some (a, v))

/-- Bytes in a row from an address on. Those never stored are `0xCC`. -/
def dumpBytes (m : SimMachine) (start : UInt32) (count : Nat) : List UInt8 :=
  (List.range count).map fun i => m.memory.bytes.getD (start + UInt32.ofNat i) 0xCC

end SimMachine

end BoardSupport.Bench
