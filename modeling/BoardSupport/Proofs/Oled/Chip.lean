import BoardSupport.Oled.Panel
import BoardSupport.Proofs.Program.Failing
import Mathlib.Data.Stream.Defs

/-! The controller of a panel, as far as drawing relies on it: its modes, its ranges and a pointer that
moves by itself. Whatever else it does is left open. -/
namespace BoardSupport.Oled

open Program

/-- What the controller keeps. -/
structure Chip where
  /-- How the pointer moves; zero is along the columns and on to the next page. -/
  mode : UInt8
  firstColumn : Nat
  lastColumn : Nat
  firstPage : Nat
  lastPage : Nat
  /-- The column and the page that the pointer is at. -/
  column : Nat
  page : Nat
  /-- The byte at each page and column. -/
  memory : Nat → Nat → UInt8

namespace Chip

/-- The pointer runs along the columns, on to the next page, and from the last page to the first. -/
def advance (chip : Chip) : Chip :=
  if chip.column = chip.lastColumn then
    { chip with
      column := chip.firstColumn
      page := if chip.page = chip.lastPage then chip.firstPage else chip.page + 1 }
  else { chip with column := chip.column + 1 }

/-- Keeps a byte where the pointer is. -/
def keep (chip : Chip) (d : UInt8) : Chip :=
  { chip with
    memory := fun page column =>
      if page = chip.page ∧ column = chip.column then d else chip.memory page column }

def store (chip : Chip) (d : UInt8) : Chip := (chip.keep d).advance

/-- What a controller does with all that nothing is assumed of: other commands, and data in other modes. -/
abbrev Habits := List UInt8 → Chip → Chip

/-- What the bytes of one transaction do. -/
def obey (habits : Habits) (chip : Chip) : List UInt8 → Chip
  | [0x00, 0x20, mode] => { chip with mode }
  | [0x00, 0x21, first, last] =>
    { chip with firstColumn := first.toNat, lastColumn := last.toNat, column := first.toNat }
  | [0x00, 0x22, first, last] =>
    { chip with firstPage := first.toNat, lastPage := last.toNat, page := first.toNat }
  | 0x40 :: data => if chip.mode = 0 then data.foldl store chip else habits (0x40 :: data) chip
  | [0xC0, d] => if chip.mode = 0 then chip.store d else habits [0xC0, d] chip
  | bytes => habits bytes chip

section Data

variable {habits : Habits} {chip : Chip} {data : List UInt8}

theorem obey_data (horizontal : chip.mode = 0) :
    chip.obey habits (0x40 :: data) = data.foldl store chip := if_pos horizontal

@[simp] theorem mode_advance : chip.advance.mode = chip.mode := by
  unfold advance
  split <;> rfl

@[simp] theorem memory_advance : chip.advance.memory = chip.memory := by
  unfold advance
  split <;> rfl

theorem mode_stored : (data.foldl store chip).mode = chip.mode := by
  induction data generalizing chip with
  | nil => rfl
  | cons d data ih => rw [List.foldl_cons, ih, store, mode_advance, keep]

/-- Data of several transactions is data of one. -/
theorem obey_all (horizontal : chip.mode = 0) (parts : List (List UInt8)) :
    (parts.map (0x40 :: ·)).foldl (obey habits) chip = parts.flatten.foldl store chip := by
  induction parts generalizing chip with
  | nil => rfl
  | cons part parts ih =>
    rw [List.map_cons, List.foldl_cons, obey_data horizontal, ih (mode_stored.trans horizontal),
      List.flatten_cons, List.foldl_append]

/-- Data that does not run past the last column is kept in a row from the pointer on. -/
theorem memory_stored (room : chip.column + data.length ≤ chip.lastColumn + 1) (page column : Nat) :
    (data.foldl store chip).memory page column =
      if page = chip.page ∧ chip.column ≤ column then
        data[column - chip.column]?.getD (chip.memory page column)
      else chip.memory page column := by
  induction data generalizing chip with
  | nil => simp
  | cons d data ih =>
    rw [List.length_cons] at room
    rw [List.foldl_cons]
    by_cases last : chip.column = chip.lastColumn
    · -- The pointer leaves the row, but there is nothing left to keep.
      obtain rfl : data = [] := List.eq_nil_of_length_eq_zero (by omega)
      simp only [List.foldl_nil, store, memory_advance, keep]
      grind
    · have moved : chip.store d = { chip.keep d with column := chip.column + 1 } := if_neg last
      rw [moved, ih (by simp only [keep]; omega)]
      simp only [keep]
      grind

end Data

end Chip

/-- A bus with a controller on it, and what becomes of the transactions to come: each is carried out,
or refused with nothing done. -/
structure Rig (ε : Type) where
  chip : Chip
  refusals : Stream' (Option ε)

variable {ε : Type}

def panelBus (habits : Chip.Habits) : Device (I2c.Controller ε) Empty (Rig ε) := fun t rig =>
  match rig.refusals.head with
  | some e => .ok (.error e) { rig with refusals := rig.refusals.tail }
  | none =>
    let chip := if t.address = busAddress then rig.chip.obey habits t.written else rig.chip
    .ok (.ok ()) ⟨chip, rig.refusals.tail⟩

/-- These writes reach the controller in turn, up to the first that is refused. -/
inductive Delivers (habits : Chip.Habits) :
    Rig ε → List (List UInt8) → Except ε Unit → Rig ε → Prop
  | done (rig : Rig ε) : Delivers habits rig [] (.ok ()) rig
  | refused {rig : Rig ε} {e : ε} (refusal : rig.refusals.head = some e) (bytes : List UInt8)
      (script : List (List UInt8)) :
      Delivers habits rig (bytes :: script) (.error e) ⟨rig.chip, rig.refusals.tail⟩
  | carried {rig left : Rig ε} {bytes : List UInt8} {script : List (List UInt8)}
      {result : Except ε Unit} (accepted : rig.refusals.head = none)
      (rest : Delivers habits ⟨rig.chip.obey habits bytes, rig.refusals.tail⟩ script result left) :
      Delivers habits rig (bytes :: script) result left

section Delivering

variable {habits : Chip.Habits} {rig mid left : Rig ε} {first second script : List (List UInt8)}
  {result : Except ε Unit}

theorem Delivers.append (h : Delivers habits rig first (.ok ()) mid)
    (h' : Delivers habits mid second result left) : Delivers habits rig (first ++ second) result left := by
  generalize fine : (.ok () : Except ε Unit) = outcome at h
  induction h with
  | done => exact h'
  | refused => cases fine
  | carried accepted _ ih => exact .carried accepted (ih h' fine)

theorem Delivers.stop {e : ε} (h : Delivers habits rig first (.error e) left) :
    Delivers habits rig (first ++ second) (.error e) left := by
  generalize bad : (.error e : Except ε Unit) = outcome at h ⊢
  induction h with
  | done => cases bad
  | refused refusal bytes script => exact .refused refusal bytes _
  | carried accepted _ ih => exact .carried accepted (ih bad)

/-- What is delivered whole has all been obeyed. -/
theorem Delivers.obeyed (h : Delivers habits rig script (.ok ()) left) :
    left.chip = script.foldl (Chip.obey habits) rig.chip := by
  generalize fine : (.ok () : Except ε Unit) = outcome at h
  induction h with
  | done => rfl
  | refused => cases fine
  | carried _ _ ih => exact ih fine

/-- What is refused has been obeyed up to some write. -/
theorem Delivers.broken {e : ε} (h : Delivers habits rig script (.error e) left) :
    ∃ done bytes undone, script = done ++ bytes :: undone ∧
      left.chip = done.foldl (Chip.obey habits) rig.chip := by
  generalize bad : (.error e : Except ε Unit) = outcome at h
  induction h with
  | done => cases bad
  | refused _ bytes script => exact ⟨[], bytes, script, rfl, rfl⟩
  | carried _ _ ih =>
    obtain ⟨done, bytes, undone, rfl, same⟩ := ih bad
    exact ⟨_ :: done, bytes, undone, rfl, same⟩

/-- Where nothing is refused all is delivered. -/
theorem Delivers.fine (h : Delivers habits rig script result left)
    (never : ∀ n, rig.refusals.get n = none) : result = .ok () := by
  induction h with
  | done => rfl
  | @refused rig e refusal =>
    have accepted : rig.refusals.head = none := never 0
    rw [refusal] at accepted
    cases accepted
  | carried _ _ ih => exact ih fun n => never (n + 1)

end Delivering

/-- The session has these writes delivered. -/
def Sends (s : Session ε Unit) (script : List (List UInt8)) : Prop :=
  ∀ (habits : Chip.Habits) (rig : Rig ε), ∃ result left,
    Delivers habits rig script result left ∧ Ends (panelBus habits) s.run rig (.ok result left)

section Sending

variable {s s' : Session ε Unit} {script script' : List (List UInt8)} {α : Type}

theorem sends_nothing : Sends (pure () : Session ε Unit) [] := fun _ rig =>
  ⟨.ok (), rig, .done rig, .done _ _⟩

private theorem written_parts (parts : List (List UInt8)) :
    (⟨busAddress, parts.map .write⟩ : I2c.Transaction).written = parts.flatten := by
  rw [I2c.Transaction.written, List.flatMap_map, ← List.flatMap_id']

theorem sends_transfer (parts : List (List UInt8)) :
    Sends (transfer parts : Session ε Unit) [parts.flatten] := by
  intro habits rig
  cases accepted : rig.refusals.head with
  | some e =>
    refine ⟨.error e, _, .refused accepted _ _, .ask ?_ (.done _ _)⟩
    simp only [panelBus, accepted]
  | none =>
    refine ⟨.ok (), _, .carried accepted (.done _), .ask ?_ (.done _ _)⟩
    simp only [panelBus, accepted, written_parts, if_true]

theorem Sends.andThen (h : Sends s script) (h' : Sends s' script') :
    Sends (s >>= fun _ => s') (script ++ script') := by
  intro habits rig
  obtain ⟨result, mid, delivers, ends⟩ := h habits rig
  cases result with
  | error e => exact ⟨.error e, mid, delivers.stop, ends.stop⟩
  | ok _ =>
    obtain ⟨result, left, delivers', ends'⟩ := h' habits mid
    exact ⟨result, left, delivers.append delivers', ends.proceed ends'⟩

theorem sends_forM {list : List α} {body : α → Session ε Unit} {each : α → List (List UInt8)}
    (h : ∀ x ∈ list, Sends (body x) (each x)) : Sends (list.forM body) (list.flatMap each) := by
  induction list with
  | nil => exact sends_nothing
  | cons x list ih =>
    obtain ⟨here, later⟩ := List.forall_mem_cons.mp h
    exact here.andThen (ih later)

end Sending

end BoardSupport.Oled
