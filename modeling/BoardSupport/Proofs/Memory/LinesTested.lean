import BoardSupport.Proofs.Memory.AddressLines
import Mathlib.Data.Nat.Log

/-! Which address lines are tested. It depends on how often two divides the number of words, so on a memory
whose size is no power of two some lines are left out, and nothing is found to be wrong with them. -/
namespace BoardSupport.Memory

open Program Wiring

section Offsets

variable {n offset line : Nat}

private theorem mem_takeWhile_range {p : Nat → Bool} {first m : Nat} :
    line ∈ (List.range' first m).takeWhile p ↔
      first ≤ line ∧ line < first + m ∧ ∀ lower, first ≤ lower → lower ≤ line → p lower = true := by
  induction m generalizing first with
  | zero =>
    simp only [List.range'_zero, List.takeWhile_nil, List.not_mem_nil, false_iff]
    omega
  | succ m ih =>
    rw [List.range'_succ]
    by_cases held : p first
    · rw [List.takeWhile_cons_of_pos held, List.mem_cons, ih]
      constructor
      · rintro (rfl | ⟨above, inside, all⟩)
        · exact ⟨le_rfl, by omega, fun lower ge le => by rwa [Nat.le_antisymm le ge]⟩
        · refine ⟨by omega, by omega, fun lower ge le => ?_⟩
          rcases Nat.eq_or_lt_of_le ge with rfl | later
          · exact held
          · exact all lower later le
      · rintro ⟨above, inside, all⟩
        rcases Nat.eq_or_lt_of_le above with rfl | later
        · exact .inl rfl
        · exact .inr ⟨later, by omega, fun lower ge => all lower (by omega)⟩
    · rw [List.takeWhile_cons_of_neg held]
      constructor
      · rintro ⟨⟩
      · rintro ⟨above, -, all⟩
        exact absurd (all first le_rfl above) held

/-- What comes before a multiple of a power of two ends in that many ones. -/
private theorem testBit_pred_iff (pos : 0 < n) (k : Nat) :
    (∀ i < k, (n - 1).testBit i = true) ↔ 2 ^ k ∣ n := by
  obtain ⟨m, rfl⟩ : ∃ m, n = m + 1 := ⟨n - 1, by omega⟩
  have positive := Nat.two_pow_pos k
  rw [Nat.add_sub_cancel]
  have ends : (∀ i < k, m.testBit i = true) ↔ m % 2 ^ k = 2 ^ k - 1 := by
    constructor
    · intro ones
      apply Nat.eq_of_testBit_eq
      intro i
      rw [Nat.testBit_mod_two_pow, Nat.testBit_two_pow_sub_one]
      by_cases inside : i < k
      · simp [inside, ones i inside]
      · simp [inside]
    · intro same i inside
      have bit := Nat.testBit_mod_two_pow m k i
      rw [same, Nat.testBit_two_pow_sub_one] at bit
      simpa [inside] using bit.symm
  rw [ends]
  constructor
  · intro same
    refine ⟨m / 2 ^ k + 1, ?_⟩
    have whole := Nat.div_add_mod m (2 ^ k)
    rw [Nat.mul_add]
    omega
  · rintro ⟨_ | q, whole⟩
    · simp at whole
    · have split : m = 2 ^ k * q + (2 ^ k - 1) := by
        rw [Nat.mul_add] at whole
        omega
      rw [split, Nat.mul_add_mod, Nat.mod_eq_of_lt (by omega)]

/-- The word of a line is listed if two divides the size more often than there are lines below. -/
theorem two_pow_mem_powerOffsets (pos : 0 < n) (fits : n < UInt64.size) :
    2 ^ line ∈ powerOffsets n ↔ 2 ^ (line + 1) ∣ n := by
  have test (line : Nat) : (2 ^ line &&& (n - 1) != 0) = (n - 1).testBit line := by
    rw [Nat.and_comm, Nat.and_two_pow]
    cases (n - 1).testBit line <;> simp
  have listed : 2 ^ line ∈ powerOffsets n ↔
      line ∈ (List.range' 0 64).takeWhile fun line => (n - 1).testBit line := by
    rw [powerOffsets, List.takeWhile_map, List.mem_map, List.range_eq_range']
    simp only [Function.comp_def, Nat.one_shiftLeft, test]
    constructor
    · rintro ⟨other, mem, same⟩
      exact Nat.pow_right_injective (le_refl 2) same ▸ mem
    · exact fun mem => ⟨line, mem, rfl⟩
  rw [listed, mem_takeWhile_range, ← testBit_pred_iff pos]
  constructor
  · rintro ⟨-, -, ones⟩ i inside
    exact ones i (Nat.zero_le i) (by omega)
  · intro ones
    refine ⟨Nat.zero_le line, ?_, fun i _ le => ones i (by omega)⟩
    have divides := (testBit_pred_iff pos (line + 1)).mp ones
    have below : 2 ^ (line + 1) < 2 ^ 64 := (Nat.le_of_dvd pos divides).trans_lt fits
    have lines := (Nat.pow_lt_pow_iff_right (by decide)).mp below
    omega

theorem exists_line (h : offset ∈ powerOffsets n) : ∃ line, offset = 2 ^ line := by
  obtain ⟨line, -, rfl⟩ := List.mem_map.mp (List.takeWhile_subset _ h)
  exact ⟨line, Nat.one_shiftLeft line⟩

/-- The lines of a memory are all listed if its size is a power of two. -/
theorem all_listed_iff (pos : 0 < n) (fits : n < UInt64.size) :
    (∀ line, 2 ^ line < n → 2 ^ line ∈ powerOffsets n) ↔ ∃ k, n = 2 ^ k := by
  simp only [two_pow_mem_powerOffsets pos fits]
  constructor
  · intro all
    -- The highest line would have two divide the size once more than fits.
    refine ⟨Nat.log 2 n, ?_⟩
    have below : 2 ^ Nat.log 2 n ≤ n := Nat.pow_log_le_self 2 pos.ne'
    have above : n < 2 ^ (Nat.log 2 n + 1) := Nat.lt_pow_succ_log_self (by decide) n
    by_contra other
    have divides := all (Nat.log 2 n) (by omega)
    exact absurd (Nat.le_of_dvd pos divides) (by omega)
  · rintro ⟨k, rfl⟩ line less
    have lower : line < k := (Nat.pow_lt_pow_iff_right (by decide)).mp less
    exact Nat.pow_dvd_pow 2 lower

end Offsets

section Ignored

variable {κ : Type} {w : Wiring κ} {decoder : Nat → κ} {n line : Nat}

/-- The decoder tells words apart by every line but one. -/
def Ignores (decoder : Nat → κ) (line : Nat) : Prop :=
  ∀ i j, decoder i = decoder j ↔ ∀ other ≠ line, i.testBit other = j.testBit other

private theorem Ignores.zero_iff (ignores : Ignores decoder line) {other : Nat} :
    decoder (2 ^ other) = decoder 0 ↔ other = line := by
  rw [ignores]
  constructor
  · intro same
    by_contra differs
    have bit := same other differs
    rw [Nat.testBit_two_pow_self, Nat.zero_testBit] at bit
    exact Bool.noConfusion bit
  · rintro rfl i differs
    rw [Nat.testBit_two_pow_of_ne differs.symm, Nat.zero_testBit]

/-- Words of other lines are told apart. -/
private theorem Ignores.apart (ignores : Ignores decoder line) (unlisted : 2 ^ line ∉ powerOffsets n) :
    Apart decoder n := by
  have distinct {i other : Nat} (mem : i ∈ landmarks n) (listed : 2 ^ other ∈ powerOffsets n)
      (same : decoder i = decoder (2 ^ other)) : i = 2 ^ other := by
    have differs : other ≠ line := fun same => unlisted (same ▸ listed)
    have bit := (ignores _ _).mp same other differs
    rw [Nat.testBit_two_pow_self] at bit
    rcases List.mem_cons.mp mem with rfl | mem
    · simp at bit
    · obtain ⟨low, rfl⟩ := exists_line mem
      rw [Nat.testBit_two_pow, decide_eq_true_eq] at bit
      rw [bit]
  intro i mi j mj same
  rcases List.mem_cons.mp mj with rfl | lj
  · rcases List.mem_cons.mp mi with rfl | li
    · rfl
    · obtain ⟨other, rfl⟩ := exists_line li
      exact (distinct mj li same.symm).symm
  · obtain ⟨other, rfl⟩ := exists_line lj
    exact distinct mi lj same

/-- A line that is ignored makes word 0 reach the word of that line alone, so it is found if it is
looked for. -/
theorem addressVerdict_ignored (pos : 0 < n) (fits : n < UInt64.size) (keeps : w.Keeps decoder)
    (ignores : Ignores decoder line) : w.addressVerdict n =
      if 2 ^ (line + 1) ∣ n then .error (.addressStuckHigh (2 ^ line)) else .ok () := by
  have reached (other : Nat) : w.reaches 0 (2 ^ other) = true ↔ other = line := by
    rw [keeps.shares, ignores.zero_iff]
  simp only [← two_pow_mem_powerOffsets pos fits]
  split
  next listed =>
    have found : (powerOffsets n).find? (w.reaches 0) = some (2 ^ line) := by
      cases search : (powerOffsets n).find? (w.reaches 0) with
      | none => exact absurd ((reached line).mpr rfl) (List.find?_eq_none.mp search _ listed)
      | some offset =>
        obtain ⟨other, rfl⟩ := exists_line (List.mem_of_find?_eq_some search)
        rw [(reached other).mp (List.find?_some search)]
    rw [addressVerdict, found]
  next unlisted =>
    rw [w.addressVerdict_ok_iff pos]
    intro i mi j mj differs
    rw [← Bool.not_eq_true, keeps.shares]
    exact fun same => differs (ignores.apart unlisted i mi j mj same.symm)

theorem ends_ignored (pos : 0 < n) (fits : n < UInt64.size) (keeps : w.Keeps decoder)
    (ignores : Ignores decoder line) (cells : κ → UInt32) :
    ∃ cells', Ends (w.device n) (testAddresses n).run cells
      (.ok (if 2 ^ (line + 1) ∣ n then .error (.addressStuckHigh (2 ^ line)) else .ok ()) cells') := by
  have own : ∀ i < n, w.reaches i i := fun i _ => (keeps.shares i i).mpr rfl
  rw [← addressVerdict_ignored pos fits keeps ignores]
  exact ends_addressLines pos keeps.direct own cells

/-- What is listed are words of lines below the size, each once and in ascending order, but a line only if
two divides the size more often than there are lines below it. So they are all there only if the size is a
power of two, and a line that is ignored goes unnoticed unless its word is listed. -/
theorem ignored_line_noticed (fits : n < UInt64.size) :
    (powerOffsets n).Pairwise (· < ·) ∧
    (∀ offset, offset ∈ powerOffsets n ↔ ∃ line, offset = 2 ^ line ∧ 0 < n ∧ 2 ^ (line + 1) ∣ n) ∧
    ((∀ offset, offset ∈ powerOffsets n ↔ ∃ line, offset = 2 ^ line ∧ offset < n) ↔
      n = 0 ∨ ∃ k, n = 2 ^ k) ∧
    (0 < n → ∀ (κ : Type) (w : Wiring κ) (decoder : Nat → κ) (line : Nat), w.Keeps decoder →
      Ignores decoder line → ∀ cells, ∃ cells', Ends (w.device n) (testAddresses n).run cells
        (.ok (if 2 ^ (line + 1) ∣ n then .error (.addressStuckHigh (2 ^ line)) else .ok ()) cells')) := by
  rcases Nat.eq_zero_or_pos n with rfl | pos
  · have none : powerOffsets 0 = [] := rfl
    simp [none]
  refine ⟨powerOffsets_sorted n, ?_, ?_, ?_⟩
  · intro offset
    constructor
    · intro mem
      obtain ⟨line, rfl⟩ := exists_line mem
      exact ⟨line, rfl, pos, (two_pow_mem_powerOffsets pos fits).mp mem⟩
    · rintro ⟨line, rfl, -, divides⟩
      exact (two_pow_mem_powerOffsets pos fits).mpr divides
  · rw [or_iff_right pos.ne', ← all_listed_iff pos fits]
    constructor
    · exact fun exact line less => (exact _).mpr ⟨line, rfl, less⟩
    · intro all offset
      constructor
      · intro mem
        obtain ⟨line, rfl⟩ := exists_line mem
        exact ⟨line, rfl, (powerOffsets_range pos mem).2⟩
      · rintro ⟨line, rfl, less⟩
        exact all line less
  · intro _ κ w decoder line keeps ignores cells
    exact ends_ignored pos fits keeps ignores cells

/-- The word that is reached when a line counts as low. -/
def lowered (line index : Nat) : Nat := index ^^^ (index &&& 2 ^ line)

theorem ignores_lowered (line : Nat) : Ignores (lowered line) line := by
  have kept {i other : Nat} (differs : other ≠ line) : (lowered line i).testBit other = i.testBit other := by
    rw [lowered, Nat.testBit_xor, Nat.testBit_and, Nat.testBit_two_pow_of_ne differs.symm, Bool.and_false,
      Bool.xor_false]
  have cleared (i : Nat) : (lowered line i).testBit line = false := by
    rw [lowered, Nat.testBit_xor, Nat.testBit_and, Nat.testBit_two_pow_self, Bool.and_true, Bool.xor_self]
  intro i j
  constructor
  · intro same other differs
    rw [← kept differs, same, kept differs]
  · intro same
    apply Nat.eq_of_testBit_eq
    intro other
    by_cases own : other = line
    · rw [own, cleared, cleared]
    · rw [kept own, kept own, same other own]

/-- Of six words, the lowest line is looked at, and is found to be ignored. -/
theorem ignored_line_noticed_six :
    6 < UInt64.size ∧ ∃ cells', Ends ((decoded (lowered 0) id).device 6) (testAddresses 6).run (fun _ => 0)
      (.ok (.error (.addressStuckHigh 1)) cells') := by
  obtain ⟨-, -, -, tested⟩ := ignored_line_noticed (show 6 < UInt64.size by decide)
  exact ⟨by decide, tested (by decide) Nat _ _ 0 (decoded_keeps fun _ => rfl) (ignores_lowered 0) _⟩

/-- Of three words no line is looked at, although one line has its word among them, and so it is not
noticed that this line is ignored. -/
theorem ignored_line_of_three_unnoticed :
    2 ^ 0 < 3 ∧ 2 ^ 0 ∉ powerOffsets 3 ∧ Ignores (lowered 0) 0 ∧
      ∃ cells', Ends ((decoded (lowered 0) id).device 3) (testAddresses 3).run (fun _ => 0)
        (.ok (.ok ()) cells') := by
  have unlisted : 2 ^ 0 ∉ powerOffsets 3 := by decide
  have passes := ends_ignored (n := 3) (by decide) (by decide) (decoded_keeps fun _ => rfl)
    (ignores_lowered 0) fun _ => 0
  exact ⟨by decide, unlisted, ignores_lowered 0, passes⟩

end Ignored

end BoardSupport.Memory
