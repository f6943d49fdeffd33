import BoardSupport.Proofs.Memory.Wiring
import Mathlib.Algebra.Group.Nat.Defs
import Mathlib.Data.Set.Operations

/-! The test of every word. Filling the memory leaves in each cell the value of the last word that
reaches it, so a word that shares its cell with a later one is found when it is read back. -/
namespace BoardSupport.Memory

open Program Wiring

theorem filling_eq (offset : Nat) : filling offset = UInt32.ofNat (offset + 1) := by
  rw [filling, UInt32.ofNat_add]
  rfl

theorem filling_inj {i j : Nat} (hi : i < 2 ^ 32) (hj : j < 2 ^ 32) (same : filling i = filling j) :
    i = j := by
  have offsets : UInt32.ofNat i = UInt32.ofNat j := (UInt32.add_left_inj 1).mp same
  have numbers := congrArg UInt32.toNat offsets
  rwa [UInt32.toNat_ofNat_of_lt' hi, UInt32.toNat_ofNat_of_lt' hj] at numbers

section Passes

/-- The first pass. -/
def fill (n : Nat) : Test Unit :=
  (List.range n).forM fun offset => Test.write offset (filling offset)

/-- What the test does at one word in its second pass. -/
def invert (offset : Nat) : Test Unit := do
  Test.expect offset (filling offset) (.device offset (filling offset))
  Test.write offset (~~~filling offset)

/-- The last pass. -/
def confirm (n : Nat) : Test Unit :=
  (List.range n).forM fun offset =>
    Test.expect offset (~~~filling offset) (.device offset (~~~filling offset))

variable {κ : Type} {n : Nat} {w : Wiring κ}

theorem testWords_eq : testWords n = (do
    fill n
    (List.range n).forM invert
    confirm n) := rfl

/-- The first pass comes to its end, whatever the wiring, with what every write has kept. -/
theorem ends_fill (inv : Nat → (κ → UInt32) → Prop) {cells : κ → UInt32} (start : inv 0 cells)
    (step : ∀ k < n, ∀ cells, inv k cells → inv (k + 1) (w.store k (filling k) cells)) :
    ∃ cells', Ends (w.device n) (fill n).run cells (.ok (.ok ()) cells') ∧ inv n cells' := by
  refine (Ends.forM_range inv (fun _ => False) start ?_).elim id ?_
  · intro k bound cells kept
    exact .inl ⟨_, ends_write bound _, step k bound cells kept⟩
  · rintro ⟨_, _, _, impossible⟩
    exact impossible.elim

/-- The last pass finds out whether every word is inverted, whatever the wiring. -/
theorem ends_confirm (w : Wiring κ) (n : Nat) (cells : κ → UInt32) :
    (∃ cells', Ends (w.device n) (confirm n).run cells (.ok (.ok ()) cells') ∧
      cells' = cells ∧ ∀ i < n, w.value cells i = ~~~filling i) ∨
    ∃ e cells', Ends (w.device n) (confirm n).run cells (.ok (.error e) cells') ∧
      ∃ i < n, w.value cells i ≠ ~~~filling i := by
  refine Ends.forM_range (fun k now => now = cells ∧ ∀ i < k, w.value cells i = ~~~filling i)
    (fun _ : TestError => ∃ i < n, w.value cells i ≠ ~~~filling i) ⟨rfl, by simp⟩ ?_
  rintro k bound _ ⟨rfl, kept⟩
  rcases ends_expect_either bound (~~~filling k) (.device k (~~~filling k)) _ with
    ⟨same, ends⟩ | ⟨other, ends⟩
  · exact .inl ⟨_, ends, rfl, Nat.forall_lt_succ_right.mpr ⟨kept, same⟩⟩
  · exact .inr ⟨_, _, ends, k, bound, other⟩

end Passes

/-- Of the words below `k`, the last that reaches the cell of `index`. -/
structure LastAt {κ : Type} (decoder : Nat → κ) (k index last : Nat) : Prop where
  below : last < k
  shares : decoder last = decoder index
  latest : ∀ i < k, decoder i = decoder index → i ≤ last

/-- The first word that shares its cell with a later one, and the last that shares it. -/
structure Collides {κ : Type} (decoder : Nat → κ) (n offset last : Nat) : Prop where
  later : offset < last
  last_at : LastAt decoder n offset last
  first : ∀ i < offset, ∀ j, i < j → j < n → decoder j ≠ decoder i

section Test

variable {κ : Type} {n k : Nat} {w : Wiring κ} {decoder : Nat → κ} {cells : κ → UInt32}

/-- Words from `first` on show the value of the last below `k` that reaches their cell. -/
private def Filled (w : Wiring κ) (decoder : Nat → κ) (first k : Nat) (cells : κ → UInt32) : Prop :=
  ∀ index, first ≤ index → index < k →
    ∃ last, LastAt decoder k index last ∧ w.value cells index = filling last

/-- The words below `k` have been inverted, and reach cells that no later word does. -/
private structure Inverted (w : Wiring κ) (decoder : Nat → κ) (n k : Nat) (cells : κ → UInt32) :
    Prop where
  values : ∀ i < k, w.value cells i = ~~~filling i
  alone : ∀ i < k, ∀ j, i < j → j < n → decoder j ≠ decoder i
  rest : Filled w decoder k n cells

private theorem Inverted.injOn (inverted : Inverted w decoder n n cells) :
    Set.InjOn decoder {i | i < n} := by
  intro i hi j hj shares
  rcases Nat.lt_trichotomy i j with less | same | more
  · exact absurd shares.symm (inverted.alone i hi j less hj)
  · exact same
  · exact absurd shares (inverted.alone j hj i more hi)

/-- The fault of a word that shows what was written to a later one. -/
def TestError.Overwritten (decoder : Nat → κ) (n : Nat) (e : TestError) : Prop :=
  ∃ offset last, Collides decoder n offset last ∧ e = .device offset (filling offset) (filling last)

theorem TestError.Overwritten.not_injOn {e : TestError} (h : e.Overwritten decoder n) :
    ¬ Set.InjOn decoder {i | i < n} := by
  obtain ⟨offset, last, found, -⟩ := h
  intro distinct
  have inside : offset < n := Nat.lt_trans found.later found.last_at.below
  have same : last = offset := distinct found.last_at.below inside found.last_at.shares
  exact absurd found.later (by omega)

variable [DecidableEq κ]

private theorem Filled.write (keeps : w.Keeps decoder) (filled : Filled w decoder 0 k cells) :
    Filled w decoder 0 (k + 1) (w.store k (filling k) cells) := by
  intro index _ below
  rw [keeps.value_store]
  by_cases same : decoder index = decoder k
  · rw [if_pos same]
    refine ⟨k, ⟨k.lt_succ_self, same.symm, ?_⟩, rfl⟩
    intro i bound _
    exact Nat.le_of_lt_succ bound
  · rw [if_neg same]
    have earlier : index < k := by
      rcases Nat.lt_succ_iff_lt_or_eq.mp below with earlier | rfl
      · exact earlier
      · exact absurd rfl same
    obtain ⟨last, at_last, shows⟩ := filled index index.zero_le earlier
    refine ⟨last, ⟨by have := at_last.below; omega, at_last.shares, ?_⟩, shows⟩
    intro i bound shares
    rcases Nat.lt_succ_iff_lt_or_eq.mp bound with bound | rfl
    · exact at_last.latest i bound shares
    · exact absurd shares.symm same

private theorem Inverted.write (keeps : w.Keeps decoder) (bound : k < n)
    (inverted : Inverted w decoder n k cells) (last : LastAt decoder n k k) :
    Inverted w decoder n (k + 1) (w.store k (~~~filling k) cells) := by
  have later : ∀ j, k < j → j < n → decoder j ≠ decoder k := by
    intro j after inside shares
    have := last.latest j inside shares
    omega
  refine ⟨?_, ?_, ?_⟩
  · intro i below
    rw [keeps.value_store]
    rcases Nat.lt_succ_iff_lt_or_eq.mp below with below | rfl
    · rw [if_neg (inverted.alone i below k below bound).symm]
      exact inverted.values i below
    · rw [if_pos rfl]
  · intro i below
    rcases Nat.lt_succ_iff_lt_or_eq.mp below with below | rfl
    · exact inverted.alone i below
    · exact later
  · intro index after inside
    rw [keeps.value_store, if_neg (later index after inside)]
    exact inverted.rest index (by omega) inside

private theorem ends_invert (small : n ≤ 2 ^ 32) (keeps : w.Keeps decoder) (bound : k < n)
    (inverted : Inverted w decoder n k cells) :
    (∃ cells', Ends (w.device n) (invert k).run cells (.ok (.ok ()) cells') ∧
      Inverted w decoder n (k + 1) cells') ∨
    ∃ e cells', Ends (w.device n) (invert k).run cells (.ok (.error e) cells') ∧
      e.Overwritten decoder n := by
  obtain ⟨last, at_last, shows⟩ := inverted.rest k (Nat.le_refl k) bound
  -- The word still shows what it was filled with unless a later one reaches its cell: earlier ones
  -- that did would have been found at their own turn.
  by_cases own : last = k
  · subst own
    have sound := ends_expect bound (.device last (filling last)) shows
    have written : Ends (w.device n) (Test.write last (~~~filling last)).run cells
        (.ok (.ok ()) (w.store last (~~~filling last) cells)) := ends_write bound _
    exact .inl ⟨_, sound.proceed written, inverted.write keeps bound at_last⟩
  · have after : k ≤ last := at_last.latest k bound rfl
    have other : w.value cells k ≠ filling k := by
      rw [shows]
      have := at_last.below
      exact fun same => own (filling_inj (by omega) (by omega) same)
    have fault := ends_expect_fault bound (.device k (filling k)) other
    rw [shows] at fault
    exact .inr ⟨_, _, fault.stop, k, last, ⟨by omega, at_last, inverted.alone⟩, rfl⟩

private theorem ends_invertWords (small : n ≤ 2 ^ 32) (keeps : w.Keeps decoder)
    (filled : Filled w decoder 0 n cells) :
    (∃ cells', Ends (w.device n) ((List.range n).forM invert).run cells (.ok (.ok ()) cells') ∧
      Inverted w decoder n n cells') ∨
    ∃ e cells', Ends (w.device n) ((List.range n).forM invert).run cells (.ok (.error e) cells') ∧
      e.Overwritten decoder n := by
  have start : Inverted w decoder n 0 cells :=
    ⟨by simp, by simp, filled⟩
  refine Ends.forM_range (Inverted w decoder n) (TestError.Overwritten decoder n) start ?_
  intro k bound cells inverted
  exact ends_invert small keeps bound inverted

/-- The test of every word leaves them inverted if each has a cell of its own; else it names the first
that was overwritten by a later one. -/
theorem ends_everyWord (small : n ≤ 2 ^ 32) (keeps : w.Keeps decoder) (cells : κ → UInt32) :
    (∃ cells', Ends (w.device n) (testWords n).run cells (.ok (.ok ()) cells') ∧
      Set.InjOn decoder {i | i < n} ∧ ∀ i < n, w.value cells' i = ~~~filling i) ∨
    ∃ e cells', Ends (w.device n) (testWords n).run cells (.ok (.error e) cells') ∧
      e.Overwritten decoder n := by
  rw [testWords_eq]
  have start : Filled w decoder 0 0 cells := fun index _ none => absurd none index.not_lt_zero
  obtain ⟨filled, fills, full⟩ := ends_fill (Filled w decoder 0) start fun k _ _ kept => kept.write keeps
  rcases ends_invertWords small keeps full with ⟨cells', inverts, inverted⟩ | ⟨e, cells', inverts, found⟩
  case inr => exact .inr ⟨e, cells', fills.proceed inverts.stop, found⟩
  rcases ends_confirm w n cells' with ⟨_, confirms, rfl, values⟩ | ⟨_, _, _, i, inside, other⟩
  · exact .inl ⟨_, fills.proceed (inverts.proceed confirms), inverted.injOn, values⟩
  · exact absurd (inverted.values i inside) other

/-- The test of every word passes exactly if each has a cell of its own; else it names one that was
overwritten by a later one. -/
theorem ends_testWords (small : n ≤ 2 ^ 32) (keeps : w.Keeps decoder) (cells : κ → UInt32) :
    (∃ cells', Ends (w.device n) (testWords n).run cells (.ok (.ok ()) cells') ∧
      Set.InjOn decoder {i | i < n}) ∨
    ∃ e cells', Ends (w.device n) (testWords n).run cells (.ok (.error e) cells') ∧
      e.Overwritten decoder n := by
  refine (ends_everyWord small keeps cells).imp_left ?_
  rintro ⟨cells', ends, distinct, -⟩
  exact ⟨cells', ends, distinct⟩

end Test

end BoardSupport.Memory
