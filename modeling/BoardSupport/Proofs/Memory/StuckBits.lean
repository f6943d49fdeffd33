import BoardSupport.Proofs.Memory.Filling
import Mathlib.Order.Bounds.Basic

/-! The test of every word, on a memory whose bits may be stuck and whose words may share cells. The two
passes ask each bit of a word for both of its values, so no bit of a memory that passes is stuck,
whatever other words have written to its cell. -/
namespace BoardSupport.Memory

open Program Wiring

/-- A bit that reads the same whatever the cell holds. -/
def StuckBit (path : UInt32 → UInt32) (bit : Nat) : Prop :=
  ∃ level, ∀ v, (path v).toBitVec.getLsbD bit = level

/-- What is read of a word some of whose bits are stuck low, and some high. -/
def stick (kept gained v : UInt32) : UInt32 := (v &&& kept) ||| gained

section Bits

variable {kept gained : UInt32} {bit : Nat}

private theorem bit_stick (v : UInt32) : (stick kept gained v).toBitVec.getLsbD bit =
    (v.toBitVec.getLsbD bit && kept.toBitVec.getLsbD bit || gained.toBitVec.getLsbD bit) := by
  simp only [stick, UInt32.toBitVec_or, UInt32.toBitVec_and, BitVec.getLsbD_or, BitVec.getLsbD_and]

theorem stuckBit_stick : StuckBit (stick kept gained) bit ↔
    kept.toBitVec.getLsbD bit = false ∨ gained.toBitVec.getLsbD bit = true := by
  constructor
  · rintro ⟨level, stuck⟩
    -- The empty word and the mask itself differ in every bit that is not stuck.
    have same := (stuck 0).trans (stuck kept).symm
    rw [bit_stick, bit_stick] at same
    cases low : kept.toBitVec.getLsbD bit with
    | false => exact .inl rfl
    | true => exact .inr (by simpa [low] using same)
  · rintro (low | high)
    · exact ⟨gained.toBitVec.getLsbD bit, fun v => by simp [bit_stick, low]⟩
    · exact ⟨true, fun v => by simp [bit_stick, high]⟩

/-- A word without stuck bits reads as what its cell holds. -/
theorem stick_eq (sound : ∀ bit < 32, ¬ StuckBit (stick kept gained) bit) (v : UInt32) :
    stick kept gained v = v := by
  refine UInt32.eq_of_toBitVec_eq (BitVec.eq_of_getLsbD_eq fun bit inside => ?_)
  obtain ⟨low, high⟩ := not_or.mp (mt stuckBit_stick.mpr (sound bit inside))
  rw [Bool.not_eq_false] at low
  rw [Bool.not_eq_true] at high
  rw [bit_stick, low, high, Bool.and_true, Bool.or_false]

/-- A bit is not stuck that has been seen in a word and in its complement. -/
theorem not_stuckBit {path : UInt32 → UInt32} {v u u' : UInt32} (inside : bit < 32) (shows : path u = v)
    (complement : path u' = ~~~v) : ¬ StuckBit path bit := by
  rintro ⟨level, stuck⟩
  have here : v.toBitVec.getLsbD bit = level := shows ▸ stuck u
  have there : (~~~v).toBitVec.getLsbD bit = level := complement ▸ stuck u'
  rw [UInt32.toBitVec_not, BitVec.getLsbD_not, here, decide_eq_true inside, Bool.true_and] at there
  exact Bool.not_ne_self level there

end Bits

section Passes

variable {κ : Type}

private theorem ends_invertAny (w : Wiring κ) (n : Nat) (cells : κ → UInt32) :
    (∃ cells', Ends (w.device n) ((List.range n).forM invert).run cells (.ok (.ok ()) cells') ∧
      ∀ i < n, ∃ u, w.path i u = filling i) ∨
    ∃ e cells', Ends (w.device n) ((List.range n).forM invert).run cells (.ok (.error e) cells') ∧
      True := by
  refine Ends.forM_range (fun k _ => ∀ i < k, ∃ u, w.path i u = filling i) (fun _ => True) (by simp) ?_
  intro k bound cells kept
  rcases ends_expect_either bound (filling k) (.device k (filling k)) cells with
    ⟨same, ends⟩ | ⟨-, ends⟩
  · have written : Ends (w.device n) (Test.write k (~~~filling k)).run cells
        (.ok (.ok ()) (w.store k (~~~filling k) cells)) := ends_write bound _
    exact .inl ⟨_, ends.proceed written, Nat.forall_lt_succ_right.mpr ⟨kept, _, same⟩⟩
  · exact .inr ⟨_, _, ends.stop, trivial⟩

/-- The test of every word comes to an end on any memory. One that passes has read each word both as
what it was filled with and as the complement. -/
theorem ends_anyWords (w : Wiring κ) (n : Nat) (cells : κ → UInt32) :
    ∃ verdict cells', Ends (w.device n) (testWords n).run cells (.ok verdict cells') ∧
      (verdict = .ok () → ∀ i < n, (∃ u, w.path i u = filling i) ∧ ∃ u, w.path i u = ~~~filling i) := by
  rw [testWords_eq]
  obtain ⟨filled, fills, -⟩ := ends_fill (fun _ _ => True) trivial fun _ _ _ _ => trivial
  rcases ends_invertAny w n filled with ⟨turned, inverts, shown⟩ | ⟨e, cells', inverts, -⟩
  case inr => exact ⟨_, _, fills.proceed inverts.stop, nofun⟩
  rcases ends_confirm w n turned with ⟨_, confirms, -, values⟩ | ⟨e, cells', confirms, -⟩
  · exact ⟨_, _, fills.proceed (inverts.proceed confirms), fun _ i inside =>
      ⟨shown i inside, _, values i inside⟩⟩
  · exact ⟨_, _, fills.proceed (inverts.proceed confirms), nofun⟩

end Passes

section Test

variable {κ : Type} {n : Nat}

/-- The verdict on a memory of `n` words, and what it holds then. -/
structure WordVerdict (w : Wiring κ) (n : Nat) (verdict : Except TestError Unit) (cells' : κ → UInt32) :
    Prop where
  passed : verdict = .ok () ↔
    Set.InjOn w.shown {i | i < n} ∧ ∀ i < n, ∀ bit < 32, ¬ StuckBit (w.path i) bit
  left : verdict = .ok () → ∀ i < n, cells' (w.shown i) = ~~~UInt32.ofNat (i + 1)
  /-- If cells are shared and no more, the first word is named that shares its cell with a later one,
  and the last of those is what it shows. -/
  aliased : (∀ i < n, ∀ bit < 32, ¬ StuckBit (w.path i) bit) → ∀ first last,
    IsLeast {i | ∃ j, i < j ∧ j < n ∧ w.shown j = w.shown i} first →
      IsGreatest {j | j < n ∧ w.shown j = w.shown first} last →
        verdict = .error (.device first (UInt32.ofNat (first + 1)) (UInt32.ofNat (last + 1)))

private theorem WordVerdict.of_stuck {w : Wiring κ} {verdict : Except TestError Unit} {cells' : κ → UInt32}
    (shown : verdict = .ok () → ∀ i < n, ∀ bit < 32, ¬ StuckBit (w.path i) bit)
    (stuck : ¬ ∀ i < n, ∀ bit < 32, ¬ StuckBit (w.path i) bit) : WordVerdict w n verdict cells' where
  passed := iff_of_false (fun ok => stuck (shown ok)) fun h => stuck h.2
  left ok := absurd (shown ok) stuck
  aliased sound := absurd sound stuck

private theorem Collides.unique {decoder : Nat → κ} {offset last first last' : Nat}
    (found : Collides decoder n offset last)
    (least : IsLeast {i | ∃ j, i < j ∧ j < n ∧ decoder j = decoder i} first)
    (greatest : IsGreatest {j | j < n ∧ decoder j = decoder first} last') :
    offset = first ∧ last = last' := by
  have least' : IsLeast {i | ∃ j, i < j ∧ j < n ∧ decoder j = decoder i} offset := by
    refine ⟨⟨last, found.later, found.last_at.below, found.last_at.shares⟩, ?_⟩
    rintro i ⟨j, later, below, shares⟩
    by_contra earlier
    exact found.first i (by omega) j later below shares
  obtain rfl := least'.unique least
  have greatest' : IsGreatest {j | j < n ∧ decoder j = decoder offset} last :=
    ⟨⟨found.last_at.below, found.last_at.shares⟩, fun j h => found.last_at.latest j h.1 h.2⟩
  exact ⟨rfl, greatest'.unique greatest⟩

variable [DecidableEq κ] {decoder : Nat → κ} {kept gained : Nat → UInt32}

/-- Words that reach their cells over a decoder, each with bits of its own that are stuck. -/
def worn (decoder : Nat → κ) (kept gained : Nat → UInt32) : Wiring κ where
  shown := decoder
  path index := stick (kept index) (gained index)
  stored index cell := cell = decoder index

private theorem worn_device
    (sound : ∀ i < n, ∀ bit < 32, ¬ StuckBit (stick (kept i) (gained i)) bit) :
    (worn decoder kept gained).device n = (decoded decoder id).device n := by
  funext request cells
  cases request with
  | read index =>
    simp only [device]
    by_cases inside : index < n
    · rw [if_pos inside, if_pos inside]
      exact congrArg (EStateM.Result.ok · cells) (stick_eq (sound index inside) _)
    · rw [if_neg inside, if_neg inside]
  | write index v => rfl

namespace WordVerdict

private theorem of_pass {cells' : κ → UInt32}
    (sound : ∀ i < n, ∀ bit < 32, ¬ StuckBit (stick (kept i) (gained i)) bit)
    (distinct : Set.InjOn decoder {i | i < n}) (values : ∀ i < n, cells' (decoder i) = ~~~filling i) :
    WordVerdict (worn decoder kept gained) n (.ok ()) cells' where
  passed := iff_of_true rfl ⟨distinct, sound⟩
  left _ i inside := by rw [← filling_eq, ← values i inside]; rfl
  aliased _ first last least _ := by
    obtain ⟨j, later, below, shares⟩ := least.1
    have inside : first < n := Nat.lt_trans later below
    exact absurd (distinct below inside shares) (by omega)

private theorem of_overwritten {cells' : κ → UInt32} {e : TestError} (found : e.Overwritten decoder n) :
    WordVerdict (worn decoder kept gained) n (.error e) cells' where
  passed := iff_of_false nofun fun h => found.not_injOn h.1
  left := nofun
  aliased _ first last least greatest := by
    obtain ⟨offset, last', collides, rfl⟩ := found
    obtain ⟨rfl, rfl⟩ := collides.unique least greatest
    rw [filling_eq, filling_eq]

end WordVerdict

/-- The test of every word comes to an end on every memory, finds every stuck bit and every two words
that share a cell, and leaves the words of a sound memory inverted. -/
theorem testWords_exposes (small : n ≤ 2 ^ 32) (decoder : Nat → κ) (kept gained : Nat → UInt32)
    (cells : κ → UInt32) :
    ∃ verdict cells', Ends ((worn decoder kept gained).device n) (testWords n).run cells
        (.ok verdict cells') ∧ WordVerdict (worn decoder kept gained) n verdict cells' := by
  by_cases sound : ∀ i < n, ∀ bit < 32, ¬ StuckBit (stick (kept i) (gained i)) bit
  · have keeps : (decoded decoder id).Keeps decoder := decoded_keeps fun _ => rfl
    rw [worn_device sound]
    rcases ends_everyWord small keeps cells with
      ⟨cells', ends, distinct, values⟩ | ⟨e, cells', ends, found⟩
    · exact ⟨_, cells', ends, .of_pass sound distinct values⟩
    · exact ⟨_, cells', ends, .of_overwritten found⟩
  · obtain ⟨verdict, cells', ends, shown⟩ := ends_anyWords (worn decoder kept gained) n cells
    refine ⟨verdict, cells', ends, .of_stuck ?_ sound⟩
    intro ok i inside bit low
    obtain ⟨⟨u, filled⟩, u', inverted⟩ := shown ok i inside
    exact not_stuckBit low filled inverted

/-- Of six sound words, the last two share a cell. -/
theorem testWords_exposes_top_of_six : 6 ≤ 2 ^ 32 ∧
    ∃ cells', Ends ((worn (min 4) (fun _ => 0xFFFFFFFF) fun _ => 0).device 6) (testWords 6).run
      (fun _ => 0) (.ok (.error (.device 4 5 6)) cells') := by
  have small : 6 ≤ 2 ^ 32 := by decide
  refine ⟨small, ?_⟩
  obtain ⟨verdict, cells', ends, exposes⟩ :=
    testWords_exposes small (min 4) (fun _ => 0xFFFFFFFF) (fun _ => 0) fun _ => 0
  have sound : ∀ i < 6, ∀ bit < 32, ¬ StuckBit (stick 0xFFFFFFFF 0) bit := by
    intro i _
    simp only [stuckBit_stick]
    decide
  have least : IsLeast {i | ∃ j, i < j ∧ j < 6 ∧ min 4 j = min 4 i} 4 := by
    refine ⟨⟨5, by decide, by decide, rfl⟩, ?_⟩
    rintro i ⟨j, later, below, shares⟩
    omega
  have greatest : IsGreatest {j | j < 6 ∧ min 4 j = min 4 4} 5 := by
    refine ⟨⟨by decide, rfl⟩, ?_⟩
    rintro j ⟨below, -⟩
    omega
  rw [exposes.aliased sound 4 5 least greatest] at ends
  exact ⟨cells', ends⟩

end Test

end BoardSupport.Memory
