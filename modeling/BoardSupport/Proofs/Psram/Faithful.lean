import BoardSupport.Proofs.Memory.Diagnosis
import BoardSupport.Proofs.Program.Carrying
import BoardSupport.Proofs.Psram.Accesses
import BoardSupport.Proofs.Word.Bytes

/-! The driver and a chip are together an array of bytes, whatever is asked of them, and a memory of words
that passes all tests. -/
namespace BoardSupport.Psram

open Spi Program Memory

inductive Operation
  | write (address : UInt32) (bytes : List UInt8)
  | read (address : UInt32) (length : Nat)
  | writeByte (address : UInt32) (b : UInt8)
  | readByte (address : UInt32)
  | writeWord (index : Fin words) (value : UInt32)
  | readWord (index : Fin words)
  | reset
  | readId

namespace Operation

abbrev Answer : Operation → Type
  | read .. => List UInt8
  | readByte _ => UInt8
  | readWord _ => UInt32
  | readId => Id
  | _ => Unit

def perform : (operation : Operation) → Program Channel operation.Answer
  | write address bytes => Psram.write address bytes
  | read address length => Psram.read address length
  | writeByte address b => Psram.writeByte address b
  | readByte address => Psram.readByte address
  | writeWord index value => Psram.writeWord index value
  | readWord index => Psram.readWord index
  | reset => Psram.reset
  | readId => Psram.readId

/-- What comes of the operation on an array of bytes: the answer and the array. -/
def expected (m : Contents) : (operation : Operation) → operation.Answer × Contents
  | write address bytes => ((), m.putAll address.toNat bytes)
  | read address length => (m.slice address.toNat length, m)
  | writeByte address b => ((), m.put address.toNat b)
  | readByte address => (m.get address.toNat, m)
  | writeWord index value => ((), m.putAll (4 * index) (Word.toLittleEndian value))
  | readWord index => (m.word index, m)
  | reset => ((), m)
  | readId => (⟨0x0d, 0x5d, [0x52, 0x00, 0x11, 0x22, 0x33, 0x44]⟩, m)

def frames : Operation → Nat
  | reset => 2
  | _ => 1

theorem access (m : Contents) (operation : Operation) :
    Access operation.perform operation.frames m (operation.expected m).1 (operation.expected m).2 := by
  cases operation with
  | write address bytes => exact access_write m address bytes
  | read address length => exact access_read m address length
  | writeByte address b => exact access_writeByte m address b
  | readByte address => exact access_readByte m address
  | writeWord index value => exact access_writeWord m index.isLt value
  | readWord index => exact access_readWord m index.isLt
  | reset => exact access_reset m
  | readId => exact access_readId m

end Operation

/-- An operation with its answer, what passed, and the chip after it. -/
structure Entry where
  operation : Operation
  answer : operation.Answer
  log : List (Exchange Channel)
  chip : Chip

/-- Operations in a row, each on the chip that the one before has left. -/
inductive Runs : Chip → List Entry → Chip → Prop
  | nil (chip : Chip) : Runs chip [] chip
  | cons {chip last : Chip} {e : Entry} {entries : List Entry}
      (ran : Ends Chip.device.recorded e.operation.perform (chip, []) (.ok e.answer (e.chip, e.log)))
      (rest : Runs e.chip entries last) : Runs chip (e :: entries) last

/-- The entries are those of an array that holds these bytes at first. -/
inductive Faithful : Contents → List Entry → Prop
  | nil (m : Contents) : Faithful m []
  | cons {m : Contents} {e : Entry} {entries : List Entry}
      (answer : e.answer = (e.operation.expected m).1) (frames : Frames e.operation.frames e.log)
      (released : e.chip.selected = false) (rest : Faithful (e.operation.expected m).2 entries) :
      Faithful m (e :: entries)

private theorem exists_runs {chip : Chip} {m : Contents} (holds : chip.Holds m)
    (operations : List Operation) : ∃ entries last, entries.map Entry.operation = operations ∧
      Runs chip entries last ∧ Faithful m entries ∧ ∃ m', last.Holds m' := by
  induction operations generalizing chip m with
  | nil => exact ⟨[], chip, rfl, .nil chip, .nil m, m, holds⟩
  | cons operation operations ih =>
    obtain ⟨log, mid, follows, answers, frames, released, holds⟩ := operation.access m chip holds
    obtain ⟨entries, last, same, runs, faithful, held⟩ := ih holds
    exact ⟨⟨operation, _, log, mid⟩ :: entries, last, by rw [List.map_cons, same],
      .cons (follows.ends_recorded answers) runs, .cons rfl frames released faithful, held⟩

section Words

variable {m : Contents} {chip chip' : Chip} {cells cells' : Nat → UInt32}
  {course : List (Exchange WordMemory)}

private theorem get_put {address other : Nat} (inside : address < 2 ^ 23) (inside' : other < 2 ^ 23)
    (b : UInt8) : (m.put address b).get other = if other = address then b else m.get other := by
  have same : place other = place address ↔ other = address := by
    simp only [place, Fin.mk.injEq, Nat.mod_eq_of_lt inside, Nat.mod_eq_of_lt inside']
  simp only [Contents.get, Contents.put, Function.update_apply, same]

private theorem word_putAll {i j : Nat} (hi : i < words) (hj : j < words) (v : UInt32) :
    (m.putAll (4 * i) (Word.toLittleEndian v)).word j = if j = i then v else m.word j := by
  have bound : i < 2 ^ 21 := hi
  have bound' : j < 2 ^ 21 := hj
  simp only [Contents.word, Word.toLittleEndian, Contents.putAll]
  by_cases here : j = i
  · subst here
    simp (disch := omega) only [get_put, if_neg, if_true, Word.ofLittleEndian_bytes]
  · simp (disch := omega) only [get_put, if_neg]

private def HasWords (chip : Chip) (cells : Nat → UInt32) : Prop :=
  ∃ m, chip.Holds m ∧ ∀ i < words, cells i = m.word i

/-- What a sound memory of words would answer, the driver gets from the chip. -/
private theorem exists_carried (has : HasWords chip cells)
    (answered : ((Wiring.decoded (id : Nat → Nat) id).device words).Answers cells course cells') :
    ∃ log chip', Carries carry course log ∧ Chip.device.Answers chip log chip' := by
  -- Along the exchanges with the sound memory: the chip keeps the words that it has.
  induction answered generalizing chip with
  | nil => exact ⟨[], chip, .nil, .nil chip⟩
  | @cons cells _ _ x _ reply _ ih =>
    obtain ⟨m, holds, same⟩ := has
    obtain ⟨request, answer⟩ := x
    cases request with
    | read index =>
      simp only [Wiring.device] at reply
      split at reply
      case isFalse => cases reply
      case isTrue inside =>
        cases reply
        obtain ⟨part, mid, follows, answers, -, -, holds⟩ := access_readWord m inside chip holds
        obtain ⟨log, chip', carries, answers'⟩ := ih ⟨m, holds, same⟩
        rw [← same index inside] at follows
        exact ⟨part ++ log, chip', .cons follows carries, answers_append.mpr ⟨mid, answers, answers'⟩⟩
    | write index value =>
      simp only [Wiring.device] at reply
      split at reply
      case isFalse => cases reply
      case isTrue inside =>
        cases reply
        obtain ⟨part, mid, follows, answers, -, -, holds⟩ := access_writeWord m inside value chip holds
        have kept : ∀ i < words, (Wiring.decoded (id : Nat → Nat) id).store index value cells i =
            (m.putAll (4 * index) (Word.toLittleEndian value)).word i := by
          intro i below
          rw [word_putAll inside below, ← same i below]
          simp [Wiring.store, Wiring.decoded]
        obtain ⟨log, chip', carries, answers'⟩ := ih ⟨_, holds, kept⟩
        exact ⟨part ++ log, chip', .cons follows carries, answers_append.mpr ⟨mid, answers, answers'⟩⟩

private theorem ends_tests (holds : chip.Holds m) :
    ∃ chip', Ends Chip.device ((testAll words).run.interpret carry) chip (.ok (.ok ()) chip') := by
  have distinct : Set.InjOn (id : Nat → Nat) {i | i < words} :=
    fun _ _ _ _ same => same
  obtain ⟨cells', -, rounds, ran⟩ := ends_testAll (by decide) (by decide) distinct m.word
  obtain ⟨course, follows, answered⟩ := run_course ran
  obtain ⟨log, chip', carries, answers⟩ := exists_carried ⟨m, holds, fun _ _ => rfl⟩ answered
  exact ⟨chip', (follows_interpret.mpr ⟨course, follows, carries⟩).ends answers⟩

end Words

/-- From a fresh chip on, any operations in any order answer as an array of zeros would, the chip never
objects, each operation is a frame of its own, or two for a reset, and leaves the chip deselected. The
memory then passes all tests. -/
theorem operations_faithful (operations : List Operation) :
    ∃ entries chip, entries.map Entry.operation = operations ∧ Runs .fresh entries chip ∧
      Faithful (fun _ => 0) entries ∧
      ∃ chip', Ends Chip.device ((testAll words).run.interpret carry) chip (.ok (.ok ()) chip') := by
  have blank : Chip.fresh.Holds fun _ => 0 := fun _ => rfl
  obtain ⟨entries, last, same, runs, faithful, m, holds⟩ := exists_runs blank operations
  exact ⟨entries, last, same, runs, faithful, ends_tests holds⟩

end BoardSupport.Psram
