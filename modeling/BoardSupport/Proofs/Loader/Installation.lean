import BoardSupport.Proofs.Boot.RoundTrip
import BoardSupport.Proofs.Loader.HexLines
import Mathlib.Logic.Function.Basic

/-! Where the words of a text end up in the memory of the board that receives them. -/
namespace BoardSupport.Boot

open Program

/-- Memory after these bytes have been put into it, in order. -/
def memoryAfter (memory : UInt32 → UInt8) (stored : List (UInt32 × UInt8)) : UInt32 → UInt8 :=
  stored.foldl (fun memory x => Function.update memory x.1 x.2) memory

/-- The word at an address, least significant byte first. -/
def wordAt (memory : UInt32 → UInt8) (address : UInt32) : UInt32 :=
  Word.ofLittleEndian (memory address) (memory (address + 1)) (memory (address + 2))
    (memory (address + 3))

section Placed

variable {start : UInt32} {n : Nat} {data : List UInt8} {memory : UInt32 → UInt8}

theorem addressAt_eq (start : UInt32) (n : Nat) : addressAt start n = start + UInt32.ofNat n := by
  rw [addressAt, UInt32.ofNat_add, UInt32.ofNat_toNat]

/-- As long as memory does not end, the bytes of an image have addresses of their own. -/
theorem addressAt_inj {i j : Nat} (hi : start.toNat + i < UInt32.size)
    (hj : start.toNat + j < UInt32.size) (same : addressAt start i = addressAt start j) : i = j := by
  have numbers := congrArg UInt32.toNat same
  rw [addressAt, addressAt, UInt32.toNat_ofNat_of_lt' hi, UInt32.toNat_ofNat_of_lt' hj] at numbers
  omega

private theorem memoryAfter_cons (byte : UInt8) : memoryAfter memory (placedFrom start n (byte :: data)) =
    memoryAfter (Function.update memory (addressAt start n) byte) (placedFrom start (n + 1) data) := by
  rw [placedFrom_cons]
  rfl

theorem memoryAfter_other {target : UInt32}
    (outside : ∀ i < data.length, target ≠ addressAt start (n + i)) :
    memoryAfter memory (placedFrom start n data) target = memory target := by
  induction data generalizing n memory with
  | nil => rfl
  | cons byte data ih =>
    have here : target ≠ addressAt start n := outside 0 (by simp)
    rw [memoryAfter_cons, ih, Function.update_of_ne here]
    intro i bound
    have later := outside (i + 1) (by simpa using bound)
    rwa [← Nat.add_assoc, Nat.add_right_comm] at later

theorem memoryAfter_placed (room : start.toNat + n + data.length ≤ UInt32.size) {i : Nat}
    (bound : i < data.length) :
    memoryAfter memory (placedFrom start n data) (addressAt start (n + i)) = data[i] := by
  induction data generalizing n i memory with
  | nil => simp at bound
  | cons byte data ih =>
    rw [List.length_cons] at room bound
    rw [memoryAfter_cons]
    cases i with
    | zero =>
      rw [memoryAfter_other]
      · exact Function.update_self ..
      · intro j inside same
        have place := addressAt_inj (by omega) (by omega) same
        omega
    | succ i =>
      have next : n + (i + 1) = n + 1 + i := by omega
      rw [next]
      exact ih (by omega) (by omega)

end Placed

section Words

variable {values : List UInt32} {start : UInt32} {memory : UInt32 → UInt8}

theorem length_words (values : List UInt32) :
    (values.flatMap Word.toLittleEndian).length = 4 * values.length := by
  induction values with
  | nil => rfl
  | cons v rest ih =>
    have four : (Word.toLittleEndian v).length = 4 := rfl
    rw [List.flatMap_cons, List.length_append, ih, List.length_cons, four]
    omega

private theorem getElem?_words {i k : Nat} (small : k < 4) {v : UInt32} (here : values[i]? = some v) :
    (values.flatMap Word.toLittleEndian)[4 * i + k]? = (Word.toLittleEndian v)[k]? := by
  induction values generalizing i with
  | nil => simp at here
  | cons w rest ih =>
    have four : (Word.toLittleEndian w).length = 4 := rfl
    rw [List.flatMap_cons]
    cases i with
    | zero =>
      obtain rfl : w = v := by simpa using here
      rw [Nat.mul_zero, Nat.zero_add, List.getElem?_append_left (by omega)]
    | succ i =>
      rw [List.getElem?_append_right (by omega), four, ← ih (i := i) (by simpa using here)]
      congr 1
      omega

/-- Words placed one after another are found again, each at its place. -/
theorem wordAt_placed (room : start.toNat + 4 * values.length ≤ UInt32.size) {i : Nat} {v : UInt32}
    (here : values[i]? = some v) :
    wordAt (memoryAfter memory (placed start (values.flatMap Word.toLittleEndian)))
      (start + UInt32.ofNat (4 * i)) = v := by
  obtain ⟨below, -⟩ := List.getElem?_eq_some_iff.mp here
  have byte {k : Nat} (small : k < 4) {b : UInt8} (part : (Word.toLittleEndian v)[k]? = some b) :
      memoryAfter memory (placed start (values.flatMap Word.toLittleEndian))
        (addressAt start (4 * i + k)) = b := by
    have found := (getElem?_words small here).trans part
    obtain ⟨bound, rfl⟩ := List.getElem?_eq_some_iff.mp found
    have read := @memoryAfter_placed start 0 _ memory (by rwa [length_words]) _ bound
    rwa [Nat.zero_add] at read
  have place (k : Nat) : start + UInt32.ofNat (4 * i) + UInt32.ofNat k = addressAt start (4 * i + k) := by
    rw [addressAt_eq, UInt32.ofNat_add, UInt32.add_assoc]
  have first : start + UInt32.ofNat (4 * i) = addressAt start (4 * i + 0) := (addressAt_eq _ _).symm
  have second : start + UInt32.ofNat (4 * i) + 1 = addressAt start (4 * i + 1) := place 1
  have third : start + UInt32.ofNat (4 * i) + 2 = addressAt start (4 * i + 2) := place 2
  have fourth : start + UInt32.ofNat (4 * i) + 3 = addressAt start (4 * i + 3) := place 3
  rw [wordAt, second, third, fourth, first, byte (by decide) rfl, byte (by decide) rfl,
    byte (by decide) rfl, byte (by decide) rfl, Word.ofLittleEndian_bytes]

end Words

end BoardSupport.Boot

namespace BoardSupport.Loader.HexImage

open Program Boot

/-- The words that a text writes lie in memory from an address on, and nothing else has changed. -/
structure Installed (text : List Char) (address : UInt32) (stored : List (UInt32 × UInt8))
    (before after : UInt32 → UInt8) : Prop where
  word : ∀ i line, (filledLines text)[i]? = some line →
    Writes line (wordAt after (address + UInt32.ofNat (4 * i))).toNat
  count : stored.length = 4 * (filledLines text).length
  other : ∀ target, (∀ k < 4 * (filledLines text).length, target ≠ address + UInt32.ofNat k) →
    after target = before target

theorem installed_placed {text : List Char} {values : List UInt32} {address : UInt32}
    (written : List.Forall₂ (fun line v => Writes line v.toNat) (filledLines text) values)
    (room : address.toNat + 4 * values.length ≤ UInt32.size) (memory : UInt32 → UInt8) :
    Installed text address (placed address (values.flatMap Word.toLittleEndian)) memory
      (memoryAfter memory (placed address (values.flatMap Word.toLittleEndian))) where
  word := by
    intro i line here
    obtain ⟨bound, rfl⟩ := List.getElem?_eq_some_iff.mp here
    have bound' : i < values.length := written.length_eq ▸ bound
    rw [wordAt_placed room (List.getElem?_eq_getElem bound')]
    exact written.get bound bound'
  count := by rw [placed, placedFrom, List.length_mapIdx, length_words, written.length_eq]
  other := by
    intro target outside
    apply memoryAfter_other
    intro i bound
    rw [length_words, ← written.length_eq] at bound
    rw [Nat.zero_add, addressAt_eq]
    exact outside i bound

/-- A text of words that is read and framed arrives in memory word by word, whatever silence is on
the line: each line's word at its own place, least significant byte first. -/
theorem words_installed (text : List Char) (bytes framed : List UInt8) (address : UInt32)
    (window : Window) (polls : List (Option UInt8)) (memory : UInt32 → UInt8)
    (read : parse text = .ok bytes) (sent : frame address bytes = .ok framed)
    (inside : ∀ i < bytes.length, address + UInt32.ofNat i ∈ window)
    (heard : polls.reduceOption = framed) :
    ∃ rest log, Ends Target.polled.recorded (receive window) (polls, [])
        (.ok (.ok ⟨address, UInt32.ofNat bytes.length⟩) (rest, log)) ∧
      Installed text address (Target.stores log) memory (memoryAfter memory (Target.stores log)) := by
  obtain ⟨no_etx, room, rfl⟩ := frame_eq_ok_iff.mp sent
  obtain ⟨values, rfl, written⟩ := writes_of_parse read
  have quiet : soh ∉ ([] : List UInt8) := List.not_mem_nil
  have fits := allFit_image.mpr ⟨no_etx, room, fun i bound => addressAt_eq address i ▸ inside i bound⟩
  have taken := takeAll_rawFrame quiet fits []
  rw [List.nil_append, List.append_nil, ← heard] at taken
  obtain ⟨course, before, last, rest, -, -, loads, ends⟩ := receive_finishes taken
  refine ⟨rest, _, ends, ?_⟩
  have stored : Target.stores (Target.greeting ++ course) = _ := loads.stored
  rw [stored]
  rw [length_words] at room
  exact installed_placed written room memory

/-- Digits of either case, white space around the words and a blank line between them, for the last
two words that memory has. -/
theorem words_installed_at_top :
    let text := " 89abCDef\r\n\t\n0000000A".toList
    let bytes : List UInt8 := [0xEF, 0xCD, 0xAB, 0x89, 0x0A, 0, 0, 0]
    let framed := [0x01, 0xF8, 0xFF, 0xFF, 0xFF, 0x02] ++ bytes ++ [0x03]
    let window : Window := ⟨0xFFFFFFF8, 0xFFFFFFFF⟩
    let polls := none :: framed.map some
    parse text = .ok bytes ∧ frame 0xFFFFFFF8 bytes = .ok framed ∧
    (∀ i < bytes.length, 0xFFFFFFF8 + UInt32.ofNat i ∈ window) ∧ polls.reduceOption = framed ∧
    ∃ rest log, Ends Target.polled.recorded (receive window) (polls, [])
        (.ok (.ok ⟨0xFFFFFFF8, 8⟩) (rest, log)) ∧
      Installed text 0xFFFFFFF8 (Target.stores log) (fun _ => 0)
        (memoryAfter (fun _ => 0) (Target.stores log)) := by
  intro text bytes framed window polls
  have read : parse text = .ok bytes := by decide +kernel
  have sent : frame 0xFFFFFFF8 bytes = .ok framed := by decide
  have inside : ∀ i < bytes.length, 0xFFFFFFF8 + UInt32.ofNat i ∈ window := by decide
  have heard : polls.reduceOption = framed := by decide
  exact ⟨read, sent, inside, heard,
    words_installed text bytes framed 0xFFFFFFF8 window polls (fun _ => 0) read sent inside heard⟩

end BoardSupport.Loader.HexImage
