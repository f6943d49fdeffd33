import BoardSupport.Proofs.Memory.AddressLines
import Mathlib.Order.Bounds.Basic

/-! Which disturbance the test of the address lines names, on a memory whose size is a power of two. A
word may reach any cells besides its own: lines may be ignored, stuck, shorted or coupled one way. -/
namespace BoardSupport.Memory

open Program Wiring

/-- The words that stand for the lowest `k` address lines. -/
def lineWords (k : Nat) : Set Nat := {offset | ∃ line < k, offset = 2 ^ line}

section Offsets

variable {k : Nat}

private theorem takeWhile_range {m : Nat} (le : k ≤ m) :
    (List.range m).takeWhile (fun line => decide (line < k)) = List.range k := by
  obtain ⟨more, rfl⟩ := Nat.exists_eq_add_of_le le
  have below : ∀ line ∈ List.range k, decide (line < k) = true := by simp
  rw [List.range_add, List.takeWhile_append_of_pos below]
  cases more with
  | zero => simp
  | succ more => simp [List.range_succ_eq_map]

private theorem below_size (line : Nat) :
    ((1 <<< line) &&& (2 ^ k - 1) != 0) = decide (line < k) := by
  rw [Nat.one_shiftLeft, Nat.and_two_pow_sub_one_eq_mod]
  by_cases below : line < k
  · have less : 2 ^ line < 2 ^ k := Nat.pow_lt_pow_right (by decide) below
    simp [Nat.mod_eq_of_lt less, below]
  · have divides : 2 ^ line % 2 ^ k = 0 := Nat.mod_eq_zero_of_dvd (Nat.pow_dvd_pow 2 (by omega))
    simp [divides, below]

/-- The mask that bounds them is all ones. -/
theorem powerOffsets_two_pow (le : k ≤ 64) : powerOffsets (2 ^ k) = (List.range k).map (2 ^ ·) := by
  have test : (fun offset => offset &&& (2 ^ k - 1) != 0) ∘ (1 <<< ·) = fun line => decide (line < k) :=
    funext below_size
  rw [powerOffsets, List.takeWhile_map, test, takeWhile_range le]
  exact List.map_congr_left fun line _ => Nat.one_shiftLeft line

theorem mem_powerOffsets (le : k ≤ 64) {offset : Nat} :
    offset ∈ powerOffsets (2 ^ k) ↔ offset ∈ lineWords k := by
  simp [powerOffsets_two_pow le, lineWords, eq_comm]

theorem mem_landmarks (le : k ≤ 64) {offset : Nat} :
    offset ∈ landmarks (2 ^ k) ↔ offset ∈ insert 0 (lineWords k) := by
  rw [landmarks, List.mem_cons, mem_powerOffsets le, Set.mem_insert_iff]

/-- What is found first in ascending order is the least of its kind. -/
private theorem find?_eq_some_of_isLeast {xs : List Nat} (sorted : xs.Pairwise (· < ·)) {p : Nat → Bool}
    {x : Nat} (least : IsLeast {y | y ∈ xs ∧ p y = true} x) : xs.find? p = some x := by
  obtain ⟨⟨mem, holds⟩, lowest⟩ := least
  obtain ⟨before, after, rfl⟩ := List.append_of_mem mem
  have ordered := (List.pairwise_append.mp sorted).2.2
  rw [List.find?_eq_some_iff_append]
  refine ⟨holds, before, after, rfl, fun y earlier => ?_⟩
  have less : y < x := ordered y earlier x List.mem_cons_self
  by_contra bad
  have holds' : p y = true := by simpa using bad
  have ge : x ≤ y := lowest ⟨List.mem_append_left _ earlier, holds'⟩
  omega

end Offsets

section Test

variable {κ : Type} {k : Nat}

/-- The words of address lines that reach word 0 or the word of another line. -/
def Wiring.disturbing (w : Wiring κ) (k : Nat) : Set Nat :=
  {tested ∈ lineWords k | ∃ other ∈ insert 0 (lineWords k), other ≠ tested ∧ w.reaches tested other}

/-- The verdict on the address lines of a memory of `2 ^ k` words. -/
structure LineVerdict (w : Wiring κ) (k : Nat) (verdict : Except TestError Unit) : Prop where
  passed : verdict = .ok () ↔ ∀ i ∈ insert 0 (lineWords k), ∀ j ∈ insert 0 (lineWords k), i ≠ j →
    ¬ w.reaches i j
  high : ∀ offset, IsLeast {offset ∈ lineWords k | w.reaches 0 offset} offset →
    verdict = .error (.addressStuckHigh offset)
  /-- If word 0 reaches no other, the lowest line is blamed whose word does. -/
  low : (∀ offset ∈ lineWords k, ¬ w.reaches 0 offset) →
    ∀ tested, IsLeast (w.disturbing k) tested → w.reaches tested 0 →
      verdict = .error (.addressStuckLow tested)
  shorted : (∀ offset ∈ lineWords k, ¬ w.reaches 0 offset) →
    ∀ tested, IsLeast (w.disturbing k) tested → ¬ w.reaches tested 0 →
      verdict = .error (.addressShorted tested)

variable {w : Wiring κ}

private theorem find_high (le : k ≤ 64) {offset : Nat}
    (least : IsLeast {offset ∈ lineWords k | w.reaches 0 offset} offset) :
    (powerOffsets (2 ^ k)).find? (w.reaches 0) = some offset := by
  refine find?_eq_some_of_isLeast (powerOffsets_sorted _) ?_
  simpa only [mem_powerOffsets le] using least

private theorem find_disturbing (le : k ≤ 64) {tested : Nat} (least : IsLeast (w.disturbing k) tested) :
    (powerOffsets (2 ^ k)).find? (w.strays (2 ^ k)) = some tested := by
  refine find?_eq_some_of_isLeast (powerOffsets_sorted _) ?_
  simp only [mem_powerOffsets le, w.strays_iff, mem_landmarks le]
  exact least

private theorem blamed (le : k ≤ 64) (quiet : ∀ offset ∈ lineWords k, ¬ w.reaches 0 offset) {tested : Nat}
    (least : IsLeast (w.disturbing k) tested) :
    w.addressVerdict (2 ^ k) = .error (w.blame tested) := by
  have none : (powerOffsets (2 ^ k)).find? (w.reaches 0) = none := by
    rw [List.find?_eq_none]
    exact fun offset mem => quiet offset ((mem_powerOffsets le).mp mem)
  rw [addressVerdict, none, find_disturbing le least]

private theorem lineVerdict (le : k ≤ 64) : LineVerdict w k (w.addressVerdict (2 ^ k)) where
  passed := by
    rw [w.addressVerdict_ok_iff (Nat.two_pow_pos k)]
    simp only [mem_landmarks le, Bool.not_eq_true]
  high offset least := by rw [addressVerdict, find_high le least]
  low quiet tested least low := by rw [blamed le quiet least, blame, if_pos low]
  shorted quiet tested least kept := by rw [blamed le quiet least, blame, if_neg kept]

/-- Whatever cells the words reach, the test of the address lines passes exactly if no two of word 0
and the lines' words disturb each other, and else names the first that does. -/
theorem testAddresses_blames (fits : 2 ^ k < UInt64.size) (direct : w.Direct)
    (own : ∀ i < 2 ^ k, w.reaches i i) (cells : κ → UInt32) :
    ∃ verdict cells', Ends (w.device (2 ^ k)) (testAddresses (2 ^ k)).run cells (.ok verdict cells') ∧
      LineVerdict w k verdict := by
  have le : k ≤ 64 := ((Nat.pow_lt_pow_iff_right (by decide)).mp fits).le
  obtain ⟨cells', ends⟩ := ends_addressLines (Nat.two_pow_pos k) direct own cells
  exact ⟨_, cells', ends, lineVerdict le⟩

/-- Four words with cells of their own, but what is written to word 1 reaches the cell of word 2, too. -/
def leaking : Wiring Nat where
  shown := id
  path _ v := v
  stored index cell := cell == index || index == 1 && cell == 2

theorem testAddresses_blames_leak :
    (2 ^ 2 < UInt64.size ∧ leaking.Direct ∧ ∀ i < 2 ^ 2, leaking.reaches i i) ∧
      ∃ cells', Ends (leaking.device 4) (testAddresses 4).run (fun _ => 0)
        (.ok (.error (.addressShorted 1)) cells') := by
  have direct : leaking.Direct := fun _ _ => rfl
  have own : ∀ i < 2 ^ 2, leaking.reaches i i := by simp [Wiring.reaches, leaking]
  refine ⟨⟨by decide, direct, own⟩, ?_⟩
  obtain ⟨verdict, cells', ends, blames⟩ := testAddresses_blames (by decide) direct own fun _ => 0
  have quiet : ∀ offset ∈ lineWords 2, ¬ leaking.reaches 0 offset := by
    rintro _ ⟨line, -, rfl⟩
    simp [Wiring.reaches, leaking]
  have least : IsLeast (leaking.disturbing 2) 1 := by
    refine ⟨⟨⟨0, by decide, rfl⟩, 2, .inr ⟨1, by decide, rfl⟩, by decide, rfl⟩, ?_⟩
    rintro _ ⟨⟨line, -, rfl⟩, -⟩
    exact Nat.one_le_two_pow
  rw [blames.shorted quiet 1 least (by decide)] at ends
  exact ⟨cells', ends⟩

end Test

end BoardSupport.Memory
