import BoardSupport.Proofs.Memory.DataLines
import BoardSupport.Proofs.Memory.AddressLines
import BoardSupport.Proofs.Memory.Filling

/-! What the tests find wrong with a memory, whatever its decoder and its data path. -/
namespace BoardSupport.Memory

open Program Wiring

variable {κ : Type} {n : Nat} {decoder : Nat → κ} {path : UInt32 → UInt32}

/-- The verdict on a memory of `n` words. -/
structure Diagnosis (decoder : Nat → κ) (path : UInt32 → UInt32) (n : Nat)
    (verdict : Except TestError Unit) : Prop where
  passed : verdict = .ok () ↔ path = id ∧ Set.InjOn decoder {i | i < n}
  /-- A data path that changes words is blamed on the lowest line it changes. -/
  data : path ≠ id → ∃ b < 32, path (1 <<< UInt32.ofNat b) ≠ 1 <<< UInt32.ofNat b ∧
    (∀ c < b, path (1 <<< UInt32.ofNat c) = 1 <<< UInt32.ofNat c) ∧
    verdict = .error (.dataBus (1 <<< UInt32.ofNat b))
  address : path = id → ¬ Apart decoder n → ∃ e : TestError, e.IsAddress ∧ verdict = .error e
  device : path = id → Apart decoder n → ¬ Set.InjOn decoder {i | i < n} →
    ∃ offset expected actual, verdict = .error (.device offset expected actual)

theorem apart_of_injOn (pos : 0 < n) (distinct : Set.InjOn decoder {i | i < n}) : Apart decoder n :=
  fun _ hi _ hj shared => distinct (landmark_lt pos hi) (landmark_lt pos hj) shared

namespace Diagnosis

private theorem of_data {b : Nat} (bound : b < 32) (wrong : path (single b) ≠ single b)
    (least : ∀ c < b, path (single c) = single c) :
    Diagnosis decoder path n (.error (.dataBus (single b))) := by
  have faulty : path ≠ id := by
    rintro rfl
    exact wrong rfl
  exact {
    passed := by simp [faulty]
    data := fun _ => ⟨b, bound, wrong, least, rfl⟩
    address := fun sound => absurd sound faulty
    device := fun sound => absurd sound faulty }

private theorem of_address (pos : 0 < n) {e : TestError} (address : e.IsAddress)
    (shared : ¬ Apart decoder n) : Diagnosis decoder id n (.error e) where
  passed := by
    have clash : ¬ Set.InjOn decoder {i | i < n} := fun distinct => shared (apart_of_injOn pos distinct)
    simp [clash]
  data faulty := absurd rfl faulty
  address _ _ := ⟨e, address, rfl⟩
  device _ apart := absurd apart shared

private theorem of_device {e : TestError} (apart : Apart decoder n) (found : e.Overwritten decoder n) :
    Diagnosis decoder id n (.error e) where
  passed := by simp [found.not_injOn]
  data faulty := absurd rfl faulty
  address _ shared := absurd apart shared
  device _ _ _ := by
    obtain ⟨offset, last, -, rfl⟩ := found
    exact ⟨_, _, _, rfl⟩

private theorem of_pass (pos : 0 < n) (distinct : Set.InjOn decoder {i | i < n}) :
    Diagnosis decoder id n (.ok ()) where
  passed := by simp [distinct]
  data faulty := absurd rfl faulty
  address _ shared := absurd (apart_of_injOn pos distinct) shared
  device _ _ clash := absurd distinct clash

end Diagnosis

variable [DecidableEq κ]

/-- A memory passes whose words have cells of their own. -/
theorem ends_testAll (pos : 0 < n) (small : n ≤ 2 ^ 32) (distinct : Set.InjOn decoder {i | i < n})
    (cells : κ → UInt32) :
    ∃ cells', Ends ((decoded decoder id).device n) (testAll n).run cells (.ok (.ok ()) cells') := by
  have keeps : (decoded decoder id).Keeps decoder := decoded_keeps fun _ => rfl
  rcases ends_testData pos decoder id cells with ⟨walked, data, -⟩ | ⟨b, walked, data, bound, wrong, -⟩
  case inr => exact absurd rfl wrong
  rcases ends_testAddresses pos keeps walked with ⟨marked, address, -⟩ | ⟨e, marked, address, -, shared⟩
  case inr => exact absurd (apart_of_injOn pos distinct) shared
  rcases ends_testWords small keeps marked with ⟨filled, words, -⟩ | ⟨e, filled, words, found⟩
  case inr => exact absurd distinct found.not_injOn
  exact ⟨filled, data.proceed (address.proceed words)⟩

/-- The tests come to a verdict on every memory, whatever it holds, and the verdict is right. -/
theorem testAll_diagnoses (pos : 0 < n) (small : n ≤ 2 ^ 32) (decoder : Nat → κ)
    (joins : Joins path) (cells : κ → UInt32) :
    ∃ verdict cells', Ends ((decoded decoder path).device n) (testAll n).run cells (.ok verdict cells') ∧
      Diagnosis decoder path n verdict := by
  rcases ends_testData pos decoder path cells with
    ⟨walked, data, ones⟩ | ⟨b, walked, data, bound, wrong, least⟩
  case inr => exact ⟨_, walked, data.stop, .of_data bound wrong least⟩
  have sound : path = id := funext (path_eq joins ones)
  subst sound
  have keeps : (decoded decoder id).Keeps decoder := decoded_keeps fun _ => rfl
  rcases ends_testAddresses pos keeps walked with
    ⟨marked, address, apart⟩ | ⟨e, marked, address, blamed, shared⟩
  case inr => exact ⟨_, marked, data.proceed address.stop, .of_address pos blamed shared⟩
  rcases ends_testWords small keeps marked with
    ⟨filled, words, distinct⟩ | ⟨e, filled, words, found⟩
  · exact ⟨_, filled, data.proceed (address.proceed words), .of_pass pos distinct⟩
  · exact ⟨_, filled, data.proceed (address.proceed words), .of_device apart found⟩

/-- Of six words, the last two share a cell. The address lines are not to blame. -/
theorem testAll_diagnoses_top_of_six :
    (0 < 6 ∧ 6 ≤ 2 ^ 32 ∧ Joins id) ∧
      ∃ offset expected actual cells', Ends ((decoded (min 4) id).device 6) (testAll 6).run (fun _ => 0)
        (.ok (.error (.device offset expected actual)) cells') := by
  refine ⟨⟨by decide, by decide, fun _ _ => rfl⟩, ?_⟩
  obtain ⟨verdict, cells', ends, diagnosis⟩ :=
    @testAll_diagnoses Nat 6 id _ (by decide) (by decide) (min 4) (fun _ _ => rfl) (fun _ => 0)
  have apart : Apart (min 4) 6 := by
    unfold Apart
    decide
  have clash : ¬ Set.InjOn (min 4) {i | i < 6} := by
    intro distinct
    have inside : 4 ∈ {i | i < 6} ∧ 5 ∈ {i | i < 6} := by simp
    have same : 4 = 5 := distinct inside.1 inside.2 rfl
    omega
  obtain ⟨offset, expected, actual, rfl⟩ := diagnosis.device rfl apart clash
  exact ⟨offset, expected, actual, cells', ends⟩

end BoardSupport.Memory
