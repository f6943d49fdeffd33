import BoardSupport.Proofs.Memory.Wiring
import Mathlib.Data.List.TakeWhile
import Mathlib.Data.Nat.Bitwise

/-! The test of the address lines, on a memory whose data lines are sound. -/
namespace BoardSupport.Memory

open Program Wiring

/-- The word 0 and those that stand for the address lines. -/
def landmarks (n : Nat) : List Nat := 0 :: powerOffsets n

def TestError.IsAddress (e : TestError) : Prop :=
  ∃ offset, e = .addressStuckHigh offset ∨ e = .addressStuckLow offset ∨ e = .addressShorted offset

/-- No two landmarks share a cell. -/
def Apart {κ : Type} (decoder : Nat → κ) (n : Nat) : Prop :=
  ∀ i ∈ landmarks n, ∀ j ∈ landmarks n, decoder i = decoder j → i = j

section Offsets

variable {n offset : Nat}

private theorem two_pow_le_of_and_ne_zero {k m : Nat} (h : 2 ^ k &&& m ≠ 0) : 2 ^ k ≤ m := by
  rw [Nat.and_comm, Nat.and_two_pow] at h
  apply Nat.ge_two_pow_of_testBit
  by_contra clear
  simp [clear] at h

theorem powerOffsets_range (pos : 0 < n) (h : offset ∈ powerOffsets n) : 0 < offset ∧ offset < n := by
  have shared : offset &&& (n - 1) ≠ 0 := by simpa using List.mem_takeWhile_imp h
  obtain ⟨k, -, rfl⟩ := List.mem_map.mp (List.takeWhile_subset _ h)
  rw [Nat.one_shiftLeft] at shared ⊢
  have bound := two_pow_le_of_and_ne_zero shared
  exact ⟨Nat.two_pow_pos k, by omega⟩

theorem powerOffsets_sorted (n : Nat) : (powerOffsets n).Pairwise (· < ·) := by
  refine List.Pairwise.sublist (List.takeWhile_sublist _) ?_
  rw [List.pairwise_map]
  refine List.pairwise_lt_range.imp fun less => ?_
  simpa only [Nat.one_shiftLeft] using Nat.pow_lt_pow_right (by decide) less

theorem landmark_lt (pos : 0 < n) (h : offset ∈ landmarks n) : offset < n := by
  rcases List.mem_cons.mp h with rfl | h
  · exact pos
  · exact (powerOffsets_range pos h).2

end Offsets

section Verdict

variable {κ : Type}

namespace Wiring

/-- A write at `tested` shows at another landmark. -/
def strays (w : Wiring κ) (n tested : Nat) : Bool :=
  (landmarks n).any fun other => other != tested && w.reaches tested other

/-- What a line is blamed for whose word shows elsewhere. -/
def blame (w : Wiring κ) (tested : Nat) : TestError :=
  if w.reaches tested 0 then .addressStuckLow tested else .addressShorted tested

/-- What the test of the address lines finds. Word 0 comes first, then the lines in ascending order. -/
def addressVerdict (w : Wiring κ) (n : Nat) : Except TestError Unit :=
  match (powerOffsets n).find? (w.reaches 0) with
  | some offset => .error (.addressStuckHigh offset)
  | none =>
    match (powerOffsets n).find? (w.strays n) with
    | some tested => .error (w.blame tested)
    | none => .ok ()

variable (w : Wiring κ) {n : Nat}

theorem strays_iff {tested : Nat} : w.strays n tested = true ↔
    ∃ other ∈ landmarks n, other ≠ tested ∧ w.reaches tested other = true := by
  simp only [strays, List.any_eq_true, Bool.and_eq_true, bne_iff_ne]

/-- The test passes if no landmark reaches another. -/
theorem addressVerdict_ok_iff (pos : 0 < n) : w.addressVerdict n = .ok () ↔
    ∀ i ∈ landmarks n, ∀ j ∈ landmarks n, i ≠ j → w.reaches i j = false := by
  have searches : w.addressVerdict n = .ok () ↔ (powerOffsets n).find? (w.reaches 0) = none ∧
      (powerOffsets n).find? (w.strays n) = none := by
    unfold addressVerdict
    cases (powerOffsets n).find? (w.reaches 0) <;> cases (powerOffsets n).find? (w.strays n) <;> simp
  rw [searches, List.find?_eq_none, List.find?_eq_none]
  constructor
  · rintro ⟨high, lines⟩ i hi j hj other
    rw [← Bool.not_eq_true]
    intro touched
    rcases List.mem_cons.mp hi with rfl | line
    · rcases List.mem_cons.mp hj with rfl | line
      · exact other rfl
      · exact high j line touched
    · exact lines i line (w.strays_iff.mpr ⟨j, hj, other.symm, touched⟩)
  · intro apart
    constructor
    · intro offset mem touched
      have positive := (powerOffsets_range pos mem).1
      have untouched := apart 0 List.mem_cons_self offset (List.mem_cons_of_mem 0 mem) (by omega)
      rw [untouched] at touched
      exact Bool.noConfusion touched
    · intro tested mem stray
      obtain ⟨other, mark, differs, touched⟩ := w.strays_iff.mp stray
      rw [apart tested (List.mem_cons_of_mem 0 mem) other mark differs.symm] at touched
      exact Bool.noConfusion touched

end Wiring

end Verdict

section Test

variable {κ : Type} {n : Nat} {w : Wiring κ} {cells : κ → UInt32}

private theorem ends_fillLines (pos : 0 < n) (direct : w.Direct) (own : ∀ i < n, w.reaches i i)
    (cells : κ → UInt32) :
    ∃ cells', Ends (w.device n) ((powerOffsets n).forM fun offset => Test.write offset pattern).run
        cells (.ok (.ok ()) cells') ∧ ∀ offset ∈ powerOffsets n, w.value cells' offset = pattern := by
  refine Ends.forM_ok (fun before cells => ∀ offset ∈ before, w.value cells offset = pattern)
    (by simp) ?_
  intro before x after cells split kept
  have inside : x < n := (powerOffsets_range pos (by simp [split])).2
  refine ⟨_, ends_write inside pattern, ?_⟩
  intro offset mem
  rw [direct.value_store]
  by_cases touched : w.reaches x offset
  · rw [if_pos touched]
  · rw [if_neg touched]
    have earlier : offset ∈ before := by
      rcases List.mem_append.mp mem with mem | mem
      · exact mem
      · exact absurd (List.mem_singleton.mp mem ▸ own x inside) touched
    exact kept offset earlier

private def lookAhead (n : Nat) : Test Unit :=
  (powerOffsets n).forM fun offset => Test.expect offset pattern fun _ => .addressStuckHigh offset

private def lookAside (n tested : Nat) : Test Unit :=
  (powerOffsets n).forM fun offset => do
    if offset ≠ tested then Test.expect offset pattern fun _ => .addressShorted tested

/-- What the test does for one line: it marks the word of that line and looks for the mark in the
others. -/
private def disturb (n tested : Nat) : Test Unit := do
  Test.write tested antipattern
  Test.expect 0 pattern fun _ => .addressStuckLow tested
  lookAside n tested
  Test.write tested pattern

private theorem testAddresses_eq (pos : 0 < n) : testAddresses n = (do
    (powerOffsets n).forM fun offset => Test.write offset pattern
    Test.write 0 antipattern
    lookAhead n
    Test.write 0 pattern
    (powerOffsets n).forM (disturb n)) := by
  rw [testAddresses, if_neg (by omega)]
  rfl

private theorem antipattern_ne : antipattern ≠ pattern := by decide

private def Clean (w : Wiring κ) (n : Nat) (cells : κ → UInt32) : Prop :=
  ∀ i ∈ landmarks n, w.value cells i = pattern

/-- Writing the pattern back where the mark was cleans every word that the mark did not reach. -/
private theorem value_restored (direct : w.Direct) (tested : Nat) {i : Nat}
    (held : w.reaches tested i = false → w.value cells i = pattern) :
    w.value (w.store tested pattern (w.store tested antipattern cells)) i = pattern := by
  rw [direct.value_store, direct.value_store]
  cases touched : w.reaches tested i with
  | true => simp
  | false => simpa using held touched

/-- A word that held the pattern fails to show it exactly if the mark has reached it. -/
private theorem ends_seek (direct : w.Direct) (tested : Nat) (fault : TestError) {i : Nat}
    (inside : i < n) (held : w.value cells i = pattern) :
    (w.reaches tested i = false ∧ Ends (w.device n) (Test.expect i pattern fun _ => fault).run
        (w.store tested antipattern cells) (.ok (.ok ()) (w.store tested antipattern cells))) ∨
    (w.reaches tested i = true ∧ Ends (w.device n) (Test.expect i pattern fun _ => fault).run
        (w.store tested antipattern cells) (.ok (.error fault) (w.store tested antipattern cells))) := by
  have shows : w.value (w.store tested antipattern cells) i =
      if w.reaches tested i then antipattern else w.value cells i := direct.value_store tested i _
  cases touched : w.reaches tested i with
  | false =>
    have same : w.value (w.store tested antipattern cells) i = pattern := by
      simpa [touched, held] using shows
    exact .inl ⟨rfl, ends_expect inside _ same⟩
  | true =>
    have other : w.value (w.store tested antipattern cells) i ≠ pattern := by
      simp [shows, touched, antipattern_ne]
    exact .inr ⟨rfl, ends_expect_fault inside (fun _ => fault) other⟩

/-- Word 0, marked, is seen at the first of the lines' words that it reaches. -/
private theorem ends_lookAhead (pos : 0 < n) (direct : w.Direct)
    (filled : ∀ offset ∈ powerOffsets n, w.value cells offset = pattern) :
    ((powerOffsets n).find? (w.reaches 0) = none ∧
      Ends (w.device n) (lookAhead n).run (w.store 0 antipattern cells)
        (.ok (.ok ()) (w.store 0 antipattern cells))) ∨
    ∃ offset cells', (powerOffsets n).find? (w.reaches 0) = some offset ∧
      Ends (w.device n) (lookAhead n).run (w.store 0 antipattern cells)
        (.ok (.error (.addressStuckHigh offset)) cells') :=
  Ends.forM_find_same _ TestError.addressStuckHigh fun offset mem =>
    ends_seek direct 0 (.addressStuckHigh offset) (powerOffsets_range pos mem).2 (filled offset mem)

/-- Looking at the other lines' words finds the mark if it reaches one of them. -/
private theorem ends_lookAside (pos : 0 < n) (direct : w.Direct) (clean : Clean w n cells)
    (tested : Nat) :
    ((powerOffsets n).find? (fun other => other != tested && w.reaches tested other) = none ∧
      Ends (w.device n) (lookAside n tested).run (w.store tested antipattern cells)
        (.ok (.ok ()) (w.store tested antipattern cells))) ∨
    ∃ offset cells',
      (powerOffsets n).find? (fun other => other != tested && w.reaches tested other) = some offset ∧
      Ends (w.device n) (lookAside n tested).run (w.store tested antipattern cells)
        (.ok (.error (.addressShorted tested)) cells') := by
  refine Ends.forM_find_same _ (fun _ => TestError.addressShorted tested) ?_
  intro offset mem
  by_cases own : offset = tested
  · rw [if_neg (not_not.mpr own)]
    exact .inl ⟨by simp [own], .succeed _ _⟩
  · have held := clean offset (List.mem_cons_of_mem 0 mem)
    rw [if_pos own, bne_iff_ne.mpr own, Bool.true_and]
    exact ends_seek direct tested (.addressShorted tested) (powerOffsets_range pos mem).2 held

/-- A line whose word shows at no other landmark leaves them all clean; any other is blamed. -/
private theorem ends_disturb (pos : 0 < n) (direct : w.Direct) {tested : Nat}
    (mem : tested ∈ powerOffsets n) (clean : Clean w n cells) :
    (∃ cells', w.strays n tested = false ∧
      Ends (w.device n) (disturb n tested).run cells (.ok (.ok ()) cells') ∧ Clean w n cells') ∨
    ∃ cells', w.strays n tested = true ∧
      Ends (w.device n) (disturb n tested).run cells (.ok (.error (w.blame tested)) cells') := by
  obtain ⟨tested_pos, inside⟩ := powerOffsets_range pos mem
  have other : 0 ≠ tested := by omega
  have written : Ends (w.device n) (Test.write tested antipattern).run cells
      (.ok (.ok ()) (w.store tested antipattern cells)) := ends_write inside _
  rcases ends_seek direct tested (.addressStuckLow tested) pos (clean 0 List.mem_cons_self) with
    ⟨kept, zero⟩ | ⟨low, zero⟩
  case inr =>
    have stray : w.strays n tested = true := w.strays_iff.mpr ⟨0, List.mem_cons_self, other, low⟩
    have blamed : w.blame tested = .addressStuckLow tested := if_pos low
    rw [blamed]
    exact .inr ⟨_, stray, written.proceed zero.stop⟩
  have stray : w.strays n tested =
      ((powerOffsets n).find? fun other => other != tested && w.reaches tested other).isSome := by
    rw [List.isSome_find?, Wiring.strays, landmarks, List.any_cons, kept, Bool.and_false, Bool.false_or]
  rcases ends_lookAside pos direct clean tested with ⟨none, looked⟩ | ⟨offset, _, found, looked⟩
  · have restored : Ends (w.device n) (Test.write tested pattern).run
        (w.store tested antipattern cells)
        (.ok (.ok ()) (w.store tested pattern (w.store tested antipattern cells))) := ends_write inside _
    have clean' : Clean w n (w.store tested pattern (w.store tested antipattern cells)) :=
      fun i mark => value_restored direct tested fun _ => clean i mark
    rw [stray, none]
    exact .inl ⟨_, rfl, written.proceed (zero.proceed (looked.proceed restored)), clean'⟩
  · have blamed : w.blame tested = .addressShorted tested := if_neg (by simp [kept])
    rw [stray, found, blamed]
    exact .inr ⟨_, rfl, written.proceed (zero.proceed looked.stop)⟩

/-- The test of the address lines finds exactly what the wiring is to be blamed for. -/
theorem ends_addressLines (pos : 0 < n) (direct : w.Direct) (own : ∀ i < n, w.reaches i i)
    (cells : κ → UInt32) :
    ∃ cells', Ends (w.device n) (testAddresses n).run cells (.ok (w.addressVerdict n) cells') := by
  rw [testAddresses_eq pos, Wiring.addressVerdict]
  -- The first pass tells word 0 from the lines' words, and the loop each line's word from the rest.
  obtain ⟨filled, fill, full⟩ := ends_fillLines pos direct own cells
  have marked : Ends (w.device n) (Test.write 0 antipattern).run filled
      (.ok (.ok ()) (w.store 0 antipattern filled)) := ends_write pos _
  rcases ends_lookAhead pos direct full with ⟨none, looked⟩ | ⟨offset, cells', first, looked⟩
  case inr =>
    rw [first]
    exact ⟨_, fill.proceed (marked.proceed looked.stop)⟩
  have restored : Ends (w.device n) (Test.write 0 pattern).run (w.store 0 antipattern filled)
      (.ok (.ok ()) (w.store 0 pattern (w.store 0 antipattern filled))) := ends_write pos _
  have clean : Clean w n (w.store 0 pattern (w.store 0 antipattern filled)) := by
    intro i mark
    refine value_restored direct 0 fun untouched => ?_
    rcases List.mem_cons.mp mark with rfl | mem
    · exact absurd (own 0 pos) (by simp [untouched])
    · exact full i mem
  have loop := Ends.forM_find (Clean w n) (w.strays n) w.blame clean fun tested mem cells clean =>
    ends_disturb pos direct mem clean
  rw [none]
  rcases loop with ⟨cells', sound, lines, -⟩ | ⟨tested, cells', first, lines⟩
  · rw [sound]
    exact ⟨_, fill.proceed (marked.proceed (looked.proceed (restored.proceed lines)))⟩
  · rw [first]
    exact ⟨_, fill.proceed (marked.proceed (looked.proceed (restored.proceed lines)))⟩

end Test

section Decoded

variable {κ : Type} {n : Nat} {w : Wiring κ} {decoder : Nat → κ}

private theorem isAddress_of_verdict {e : TestError} (h : w.addressVerdict n = .error e) :
    e.IsAddress := by
  unfold addressVerdict at h
  split at h
  case h_1 offset _ =>
    obtain rfl := Except.error.inj h
    exact ⟨offset, .inl rfl⟩
  split at h
  case h_1 tested _ =>
    obtain rfl := Except.error.inj h
    rw [blame]
    split
    · exact ⟨tested, .inr (.inl rfl)⟩
    · exact ⟨tested, .inr (.inr rfl)⟩
  · exact nomatch h

/-- The test of the address lines passes exactly if no two landmarks share a cell; else it blames an
address line. -/
theorem ends_testAddresses (pos : 0 < n) (keeps : w.Keeps decoder) (cells : κ → UInt32) :
    (∃ cells', Ends (w.device n) (testAddresses n).run cells (.ok (.ok ()) cells') ∧ Apart decoder n) ∨
    ∃ e cells', Ends (w.device n) (testAddresses n).run cells (.ok (.error e) cells') ∧
      e.IsAddress ∧ ¬ Apart decoder n := by
  have own : ∀ i < n, w.reaches i i := fun i _ => (keeps.shares i i).mpr rfl
  obtain ⟨cells', ends⟩ := ends_addressLines pos keeps.direct own cells
  have passes : w.addressVerdict n = .ok () ↔ Apart decoder n := by
    rw [w.addressVerdict_ok_iff pos]
    refine forall₄_congr fun i _ j _ => ?_
    rw [← Bool.not_eq_true, keeps.shares, eq_comm, not_imp_not]
  cases verdict : w.addressVerdict n with
  | ok => exact .inl ⟨cells', verdict ▸ ends, passes.mp verdict⟩
  | error e =>
    refine .inr ⟨e, cells', verdict ▸ ends, isAddress_of_verdict verdict, ?_⟩
    rw [← passes, verdict]
    exact nofun

end Decoded

end BoardSupport.Memory
