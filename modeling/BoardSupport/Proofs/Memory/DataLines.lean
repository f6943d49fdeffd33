import BoardSupport.Proofs.Memory.Wiring
import Mathlib.Data.Nat.Init

/-! The test of the data lines. A data path that keeps every single bit and joins words as it is given
them keeps every word. -/
namespace BoardSupport.Memory

open Program Wiring

/-- The word with just this bit. -/
def single (bit : Nat) : UInt32 := 1 <<< UInt32.ofNat bit

/-- A data path that takes the union of two words to the union of what it makes of them. -/
def Joins (path : UInt32 → UInt32) : Prop := ∀ u v, path (u ||| v) = path u ||| path v

section Bits

variable {path : UInt32 → UInt32} {u v : UInt32} {bit : Nat}

private theorem bit_single (bound : bit < 32) {i : Nat} (inside : i < 32) :
    (single bit).toBitVec.getLsbD i = decide (i = bit) := by
  simp only [single, UInt32.toBitVec_shiftLeft]
  simp
  grind

private theorem ext_bits (h : ∀ i < 32, u.toBitVec.getLsbD i = v.toBitVec.getLsbD i) : u = v := by
  apply UInt32.eq_of_toBitVec_eq
  ext i inside
  exact h i inside

private def Below (k : Nat) (v : UInt32) : Prop := ∀ i < 32, k ≤ i → v.toBitVec.getLsbD i = false

private theorem path_zero (joins : Joins path) (ones : ∀ b < 32, path (single b) = single b) :
    path 0 = 0 := by
  apply ext_bits
  intro i inside
  -- Some other bit is set in no more than itself, so bit `i` cannot come from the empty word.
  obtain ⟨b, bound, other⟩ : ∃ b < 32, b ≠ i := by
    by_cases first : i = 0
    · exact ⟨1, by omega, by omega⟩
    · exact ⟨0, by omega, by omega⟩
  have joined : single b = path 0 ||| single b := by
    have h := joins 0 (single b)
    rwa [UInt32.zero_or, ones b bound] at h
  have at_bit := congrArg (fun w => w.toBitVec.getLsbD i) joined
  simpa [bit_single bound inside, Ne.symm other] using at_bit

private theorem clear_or (bound : bit < 32) (set : v.toBitVec.getLsbD bit = true) :
    (v &&& ~~~single bit) ||| single bit = v := by
  apply ext_bits
  intro i inside
  have at_bit := bit_single bound inside
  by_cases here : i = bit
  · subst here
    simp [at_bit, set]
  · have clear : (single bit).toBitVec.getLsbD i = false := at_bit.trans (decide_eq_false here)
    simp only [UInt32.toBitVec_or, UInt32.toBitVec_and, UInt32.toBitVec_not, BitVec.getLsbD_or,
      BitVec.getLsbD_and, BitVec.getLsbD_not, clear, decide_eq_true inside, Bool.not_false,
      Bool.and_true, Bool.or_false]

private theorem below_clear (bound : bit < 32) (below : Below (bit + 1) v) :
    Below bit (v &&& ~~~single bit) := by
  intro i inside le
  by_cases here : i = bit
  · subst here
    simp [bit_single bound inside]
  · simp [below i inside (by omega)]

private theorem path_below (joins : Joins path) (ones : ∀ b < 32, path (single b) = single b)
    {k : Nat} (bound : k ≤ 32) (below : Below k v) : path v = v := by
  induction k generalizing v with
  | zero =>
    have empty : v = 0 := ext_bits fun i inside => by simpa using below i inside (Nat.zero_le i)
    rw [empty, path_zero joins ones]
  | succ k ih =>
    -- The word is its top bit joined with what is left below it.
    by_cases set : v.toBitVec.getLsbD k = true
    · have split := clear_or (by omega) set
      have rest : path (v &&& ~~~single k) = v &&& ~~~single k := ih (by omega) (below_clear (by omega) below)
      rw [← split, joins, rest, ones k (by omega)]
    · refine ih (by omega) fun i inside le => ?_
      by_cases here : i = k
      · subst here
        simpa using set
      · exact below i inside (by omega)

/-- A path that joins words and keeps every single bit keeps every word. -/
theorem path_eq (joins : Joins path) (ones : ∀ b < 32, path (single b) = single b) (v : UInt32) :
    path v = v :=
  path_below joins ones (Nat.le_refl 32) fun i inside le => by omega

end Bits

section Walk

variable {κ : Type} [DecidableEq κ] {n : Nat}

/-- A one on a single data line, written to word 0 and read back. -/
private def walkOne (bit : Nat) : Test Unit := do
  Test.write 0 (single bit)
  Test.expect 0 (single bit) fun _ => .dataBus (single bit)

private theorem testData_eq (pos : 0 < n) : testData n 0 = (List.range 32).forM walkOne := by
  rw [testData, if_neg (by omega), if_neg (by omega)]
  exact List.forM_map

private theorem ends_walkOne (pos : 0 < n) (decoder : Nat → κ) (path : UInt32 → UInt32) (bit : Nat)
    (cells : κ → UInt32) :
    ∃ cells', Ends ((decoded decoder path).device n) (walkOne bit).run cells
      (.ok (if path (single bit) = single bit then .ok () else .error (.dataBus (single bit))) cells') := by
  have written : Ends ((decoded decoder path).device n) (Test.write 0 (single bit)).run cells
      (.ok (.ok ()) ((decoded decoder path).store 0 (single bit) cells)) := ends_write pos _
  have reads : (decoded decoder path).value ((decoded decoder path).store 0 (single bit) cells) 0 =
      path (single bit) := by
    rw [value_store, if_pos rfl]
  refine ⟨(decoded decoder path).store 0 (single bit) cells, written.proceed ?_⟩
  by_cases same : path (single bit) = single bit
  · rw [if_pos same]
    exact ends_expect pos _ (reads.trans same)
  · rw [if_neg same]
    exact ends_expect_fault pos _ (by rwa [reads])

/-- The test of the data lines passes if the path keeps every single bit, and else names the lowest
that it does not. -/
theorem ends_testData (pos : 0 < n) (decoder : Nat → κ) (path : UInt32 → UInt32) (cells : κ → UInt32) :
    (∃ cells', Ends ((decoded decoder path).device n) (testData n 0).run cells (.ok (.ok ()) cells') ∧
      ∀ b < 32, path (single b) = single b) ∨
    ∃ b cells', Ends ((decoded decoder path).device n) (testData n 0).run cells
        (.ok (.error (.dataBus (single b))) cells') ∧
      b < 32 ∧ path (single b) ≠ single b ∧ ∀ c < b, path (single c) = single c := by
  rw [testData_eq pos]
  refine (Ends.forM_range (fun k _ => ∀ c < k, path (single c) = single c)
    (fun e => ∃ b < 32, path (single b) ≠ single b ∧ (∀ c < b, path (single c) = single c) ∧
      e = .dataBus (single b)) (fun c none => absurd none (Nat.not_lt_zero c)) ?_).imp_right ?_
  · intro k bound cells kept
    obtain ⟨cells', ends⟩ := ends_walkOne pos decoder path k cells
    by_cases same : path (single k) = single k
    · rw [if_pos same] at ends
      refine .inl ⟨cells', ends, fun c le => ?_⟩
      rcases Nat.lt_succ_iff_lt_or_eq.mp le with earlier | rfl
      · exact kept c earlier
      · exact same
    · rw [if_neg same] at ends
      exact .inr ⟨_, cells', ends, k, bound, same, kept, rfl⟩
  · rintro ⟨_, cells', ends, b, bound, wrong, earlier, rfl⟩
    exact ⟨b, cells', ends, bound, wrong, earlier⟩

end Walk

end BoardSupport.Memory
