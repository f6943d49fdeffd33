import BoardSupport.Delay
import BoardSupport.Fault
import Mathlib.Algebra.Order.Floor.Div
import Mathlib.Data.Rat.Floor

/-! Durations rounded up to cycles and then to rounds of the idle loop. Words are wide enough for every
step, and the two roundings come to one. -/
namespace BoardSupport.Delay

section Quotients

variable {a a' b c n : Nat}

theorem ceilDiv_le_iff (pos : 0 < b) : ceilDiv a b ≤ n ↔ a ≤ b * n := ceilDiv_le_iff_le_mul pos

theorem ceilDiv_mono (pos : 0 < b) (le : a ≤ a') : ceilDiv a b ≤ ceilDiv a' b :=
  (gc_mul_ceilDiv pos).monotone_l le

theorem ceilDiv_le_self (pos : 0 < b) : ceilDiv a b ≤ a :=
  (ceilDiv_le_iff pos).mpr (Nat.le_mul_of_pos_left a pos)

/-- Rounding up twice is rounding up once. -/
theorem ceilDiv_ceilDiv (hb : 0 < b) (hc : 0 < c) : ceilDiv (ceilDiv a b) c = ceilDiv a (c * b) := by
  apply eq_of_forall_ge_iff
  intro n
  rw [ceilDiv_le_iff hc, ceilDiv_le_iff hb, ceilDiv_le_iff (Nat.mul_pos hc hb), Nat.mul_left_comm,
    Nat.mul_assoc]

/-- The least number of parts of size `b` that hold `a`. -/
theorem ceilDiv_bounds (pos : 0 < b) (some : 0 < a) : b * (ceilDiv a b - 1) < a ∧ a ≤ b * ceilDiv a b := by
  have enough : a ≤ b * ceilDiv a b := (ceilDiv_le_iff pos).mp (Nat.le_refl _)
  refine ⟨Nat.lt_of_not_le fun fewer => ?_, enough⟩
  have none : ceilDiv a b = 0 := by
    have := (ceilDiv_le_iff pos).mpr fewer
    omega
  rw [none, Nat.mul_zero] at enough
  omega

/-- One is added to the quotient just if something remains. -/
theorem ceilDiv_eq_div (pos : 0 < b) : ceilDiv a b = if a % b = 0 then a / b else a / b + 1 := by
  apply eq_of_forall_ge_iff
  intro n
  rw [ceilDiv_le_iff pos]
  split
  next exact =>
    obtain ⟨q, rfl⟩ := Nat.dvd_of_mod_eq_zero exact
    rw [Nat.mul_div_cancel_left q pos, Nat.mul_le_mul_left_iff pos]
  next remains =>
    have other : a ≠ b * n := by
      rintro rfl
      exact remains (Nat.mul_mod_right b n)
    rw [Nat.add_one_le_iff, Nat.div_lt_iff_lt_mul pos, Nat.mul_comm n]
    omega

theorem natCeil_div (pos : 0 < b) : ⌈(a / b : ℚ)⌉₊ = ceilDiv a b := by
  apply eq_of_forall_ge_iff
  intro n
  have pos' : (0 : ℚ) < b := by exact_mod_cast pos
  rw [Nat.ceil_le, div_le_iff₀' pos', ceilDiv_le_iff pos]
  exact_mod_cast Iff.rfl

end Quotients

section Words

/-- The product of two words, if it is one of the numbers below `limit`. -/
def wordProduct (limit a b : Nat) : Except Fault Nat :=
  if a * b < limit then .ok (a * b) else .error .mulOverflow

/-- The quotient of two words rounded up: one is added if something remains. -/
def wordQuotient (limit a b : Nat) : Except Fault Nat :=
  if a % b = 0 then .ok (a / b)
  else if a / b + 1 < limit then .ok (a / b + 1)
  else .error .addOverflow

/-- Clock cycles, from a product and a quotient of 64 bits. -/
def wordCycles (ns hertz : UInt32) : Except Fault UInt32 := do
  let product ← wordProduct UInt64.size ns.toNat hertz.toNat
  let rounded ← wordQuotient UInt64.size product 1000000000
  return UInt32.ofNat (min rounded (UInt32.size - 1))

/-- Rounds of the idle loop, from a quotient of 32 bits. -/
def wordSpins (ns hertz : UInt32) : Except Fault UInt32 := do
  let cycles ← wordCycles ns hertz
  let rounded ← wordQuotient UInt32.size cycles.toNat cyclesPerSpin
  return UInt32.ofNat rounded

private theorem word_bind {α β : Type} (a : α) (f : α → Except Fault β) : (.ok a >>= f) = f a := rfl

/-- A quotient rounded up is no more than what was divided. -/
theorem wordQuotient_eq {limit a b : Nat} (pos : 0 < b) (fits : a < limit) :
    wordQuotient limit a b = .ok (ceilDiv a b) := by
  have narrow : ceilDiv a b < limit := Nat.lt_of_le_of_lt (ceilDiv_le_self pos) fits
  rw [ceilDiv_eq_div pos] at narrow ⊢
  rw [wordQuotient]
  split
  next => rfl
  next remains =>
    rw [if_neg remains] at narrow
    rw [if_pos narrow]

end Words

section Durations

variable (ns hertz : UInt32)

theorem product_lt : ns.toNat * hertz.toNat < 2 ^ 64 := by
  have narrow : ns.toNat * hertz.toNat < 2 ^ 32 * 2 ^ 32 := Nat.mul_lt_mul'' ns.toNat_lt hertz.toNat_lt
  omega

theorem cycles_toNat : (cycles ns hertz).toNat =
    min (ceilDiv (ns.toNat * hertz.toNat) (10 ^ 9)) (2 ^ 32 - 1) := by
  apply UInt32.toNat_ofNat_of_lt'
  exact Nat.lt_of_le_of_lt (Nat.min_le_right ..) (by decide)

theorem spins_toNat : (spins ns hertz).toNat = ceilDiv (cycles ns hertz).toNat 15 := by
  apply UInt32.toNat_ofNat_of_lt'
  exact Nat.lt_of_le_of_lt (ceilDiv_le_self (by decide)) (cycles ns hertz).toNat_lt

theorem wordCycles_eq : wordCycles ns hertz = .ok (cycles ns hertz) := by
  have fits : ns.toNat * hertz.toNat < UInt64.size := product_lt ns hertz
  rw [wordCycles, wordProduct, if_pos fits, word_bind, wordQuotient_eq (by decide) fits, word_bind]
  rfl

theorem wordSpins_eq : wordSpins ns hertz = .ok (spins ns hertz) := by
  rw [wordSpins, wordCycles_eq, word_bind, wordQuotient_eq (by decide) (cycles ns hertz).toNat_lt,
    word_bind]
  rfl

theorem spins_mono {ns ns' hertz hertz' : UInt32} (longer : ns ≤ ns') (faster : hertz ≤ hertz') :
    spins ns hertz ≤ spins ns' hertz' := by
  rw [UInt32.le_iff_toNat_le] at longer faster ⊢
  rw [spins_toNat, spins_toNat, cycles_toNat, cycles_toNat]
  have product := Nat.mul_le_mul longer faster
  exact ceilDiv_mono (by decide) (min_le_min_right _ (ceilDiv_mono (by decide) product))

/-- No step takes more than its word, cycles are rounded up and cut off at the last word, and where they are
not cut off, the rounds of the loop last as long as was asked for and less than a round longer. More time or
a faster clock never takes fewer rounds, cut off or not. -/
theorem spins_rounded_once :
    wordCycles ns hertz = .ok (cycles ns hertz) ∧ wordSpins ns hertz = .ok (spins ns hertz) ∧
    (cycles ns hertz).toNat = min ⌈(ns.toNat * hertz.toNat / 10 ^ 9 : ℚ)⌉₊ (2 ^ 32 - 1) ∧
    (⌈(ns.toNat * hertz.toNat / 10 ^ 9 : ℚ)⌉₊ ≤ 2 ^ 32 - 1 →
      (spins ns hertz).toNat = ⌈(ns.toNat * hertz.toNat / (15 * 10 ^ 9) : ℚ)⌉₊ ∧
      (0 < ns.toNat * hertz.toNat →
        15 * ((spins ns hertz).toNat - 1) * 10 ^ 9 < ns.toNat * hertz.toNat ∧
          ns.toNat * hertz.toNat ≤ 15 * (spins ns hertz).toNat * 10 ^ 9)) ∧
    ∀ ns' hertz', ns ≤ ns' → hertz ≤ hertz' → spins ns hertz ≤ spins ns' hertz' := by
  have inCycles : ⌈(ns.toNat * hertz.toNat / 10 ^ 9 : ℚ)⌉₊ = ceilDiv (ns.toNat * hertz.toNat) (10 ^ 9) := by
    rw [← natCeil_div (by decide)]
    push_cast
    rfl
  have inSpins : ⌈(ns.toNat * hertz.toNat / (15 * 10 ^ 9) : ℚ)⌉₊ =
      ceilDiv (ns.toNat * hertz.toNat) (15 * 10 ^ 9) := by
    rw [← natCeil_div (by decide)]
    norm_num
  rw [inCycles, inSpins]
  refine ⟨wordCycles_eq ns hertz, wordSpins_eq ns hertz, cycles_toNat ns hertz, ?_, fun _ _ => spins_mono⟩
  intro exact
  have once : (spins ns hertz).toNat = ceilDiv (ns.toNat * hertz.toNat) (15 * 10 ^ 9) := by
    rw [spins_toNat, cycles_toNat, Nat.min_eq_left exact, ceilDiv_ceilDiv (by decide) (by decide)]
  refine ⟨once, fun some => ?_⟩
  obtain ⟨less, enough⟩ := ceilDiv_bounds (b := 15 * 10 ^ 9) (by decide) some
  rw [once]
  constructor
  · rwa [Nat.mul_right_comm]
  · rwa [Nat.mul_right_comm]

end Durations

section Splittings

/-- Waits that are all as long as a word can tell, but for the last, leave nothing out and add nothing. -/
theorem sum_waits {unit : Nat} (pos : 0 < unit) (fits : unit < UInt32.size) (amount : Nat) :
    ((waits unit amount).map UInt32.toNat).sum = unit * amount := by
  unfold waits
  obtain ⟨most, same⟩ : ∃ most, most = (UInt32.size - 1) / unit := ⟨_, rfl⟩
  have some : 0 < most := same ▸ Nat.div_pos (Nat.le_sub_one_of_lt fits) pos
  have long : most * unit < UInt32.size := by
    have := Nat.div_mul_le_self (UInt32.size - 1) unit
    rw [← same] at this
    exact Nat.lt_of_le_of_lt this (by decide)
  obtain ⟨times, often⟩ : ∃ times, times = (amount - 1) / most := ⟨_, rfl⟩
  have whole : times * most ≤ amount :=
    Nat.le_trans (often ▸ Nat.div_mul_le_self (amount - 1) most) (Nat.sub_le amount 1)
  have last : amount - times * most ≤ most := by
    have := Nat.lt_div_mul_add some (a := amount - 1)
    rw [← often] at this
    omega
  have short : (amount - times * most) * unit < UInt32.size :=
    Nat.lt_of_le_of_lt (Nat.mul_le_mul_right unit last) long
  simp only [← same, ← often, List.map_append, List.map_replicate, List.map_cons, List.map_nil, List.sum_append,
    List.sum_replicate, List.sum_singleton, UInt32.toNat_ofNat_of_lt' long, UInt32.toNat_ofNat_of_lt' short,
    smul_eq_mul]
  rw [← Nat.mul_assoc, ← Nat.add_mul, Nat.add_sub_cancel' whole, Nat.mul_comm]

/-- So many milliseconds are split into waits that last just as long. -/
theorem sum_milliseconds (ms : UInt32) : ((milliseconds ms).map UInt32.toNat).sum = 1000000 * ms.toNat :=
  sum_waits (by decide) (by decide) ms.toNat

end Splittings

end BoardSupport.Delay
