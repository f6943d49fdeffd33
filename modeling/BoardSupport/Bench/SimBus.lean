import BoardSupport.Bench.Log
import BoardSupport.Bus
import BoardSupport.Program.Run
import BoardSupport.Text.Digits
import Std.Data.HashMap

/-! A bus of words, some of which answer loads from a queue. -/
namespace BoardSupport.Bench

structure SimBus where
  words : Std.HashMap Address UInt32 := {}
  /-- What the next loads of an address answer, before its word does. -/
  queues : Std.HashMap Address (List UInt32) := {}
  log : Log := {}
  /-- The addresses stored to, latest first. -/
  stored : List Address := []
  /-- Loads that may still be made. -/
  loadsLeft : Nat

/-- More loads were made than a program that makes progress needs. -/
inductive Spinning
  | spinLimit
  deriving DecidableEq, Repr

namespace SimBus

/-- Loads that one step may make. -/
def loadLimit : Nat := 2000

def word (bus : SimBus) (a : Address) : UInt32 := bus.words.getD a 0

def poke (bus : SimBus) (a : Address) (v : UInt32) : SimBus :=
  { bus with words := bus.words.insert a v }

def enqueue (bus : SimBus) (a : Address) (values : List UInt32) : SimBus :=
  { bus with queues := bus.queues.insert a (bus.queues.getD a [] ++ values) }

/-- Forgets what has happened, for the next step. -/
def nextStep (bus : SimBus) : SimBus := { bus with log := {}, stored := [], loadsLeft := loadLimit }

def token (kind : String) (a : Address) (v : UInt32) : String :=
  kind ++ Text.hex a.toNat ++ "=" ++ Text.hex v.toNat

def device : Device Bus Spinning SimBus
  | .load a => fun bus =>
    match bus.loadsLeft with
    | 0 => .error .spinLimit bus
    | n + 1 =>
      match bus.queues.getD a [] with
      | [] =>
        let v := bus.word a
        .ok v { bus with loadsLeft := n, log := bus.log.add (token "R" a v) }
      | v :: rest =>
        .ok v { bus with
          loadsLeft := n, log := bus.log.add (token "R" a v), queues := bus.queues.insert a rest }
  | .store a v => fun bus =>
    let { words, queues, log, stored, loadsLeft } := bus
    .ok () ⟨words.insert a v, queues, log.add (token "W" a v), a :: stored, loadsLeft⟩
  | .idle _ => fun bus => .ok () bus

end SimBus

/-- Equal values in words that follow each other. -/
structure Run where
  address : Address
  count : Nat
  value : UInt32
  deriving DecidableEq, Repr

/-- Gathers words into runs, in the order given. A word continues a run if it holds the same value
and stands where the run ends. -/
def gatherRuns (words : List (Address × UInt32)) : List Run :=
  let step (runs : List Run) (w : Address × UInt32) : List Run :=
    match runs with
    | r :: rest =>
      if r.value = w.2 ∧ r.address + UInt64.ofNat (4 * r.count) = w.1 then
        { r with count := r.count + 1 } :: rest
      else ⟨w.1, 1, w.2⟩ :: runs
    | [] => [⟨w.1, 1, w.2⟩]
  (words.foldl step []).reverse

/-- The words that a step has changed, by ascending address. -/
def SimBus.changes (before after : SimBus) : List Run :=
  let addresses := (after.stored.mergeSort fun a b => a ≤ b).eraseReps
  gatherRuns (addresses.filterMap fun a =>
    if before.word a = after.word a then none else some (a, after.word a))

end BoardSupport.Bench
