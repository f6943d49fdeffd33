import BoardSupport.Proofs.Memory.AddressLines
import BoardSupport.Proofs.Program.Carrying

/-! How far into a memory the tests reach. A test goes on with whatever it reads, so the words that it asks
for are bounded over all replies: none lies past the end of the memory. -/
namespace BoardSupport

namespace WordMemory.Request

/-- The word that is asked for. -/
def index : Request → Nat
  | read index => index
  | write index _ => index

/-- The request is for one of the first `n` words. -/
def Within (n : Nat) (r : Request) : Prop := r.index < n

end WordMemory.Request

/-- The request loads or stores one of the `words` words from `base`. -/
def Bus.Request.Among (base : Address) (words : Nat) (r : Bus.Request) : Prop :=
  ∃ index < words, r = .load (Bus.word base index) ∨ ∃ value, r = .store (Bus.word base index) value

namespace Memory

open Program WordMemory

/-- A test of a memory of `n` words. -/
inductive OfWords (n : Nat) : Test Unit → Prop
  | data (index : Nat) : OfWords n (testData n index)
  | addresses : OfWords n (testAddresses n)
  | words : OfWords n (testWords n)
  | all : OfWords n (testAll n)

section Bounds

variable {n index : Nat}

private theorem bounded_write (inside : index < n) (value : UInt32) :
    (Test.write index value).run.Bounded (Request.Within n) := bounded_lift (bounded_call inside)

private theorem bounded_expect (inside : index < n) (expected : UInt32) (fault : UInt32 → TestError) :
    (Test.expect index expected fault).run.Bounded (Request.Within n) := by
  refine bounded_session_bind (bounded_lift (bounded_call inside)) fun actual => ?_
  split <;> trivial

/-- A test of the data lines at a word that is not there gives up before it touches any. -/
theorem testData_absent (past : n ≤ index) :
    (testData n index).run = .done (.error (if n = 0 then .empty else .outOfRange index)) := by
  by_cases none : n = 0
  · rw [testData, if_pos none, if_pos none]
    rfl
  · rw [testData, if_neg none, if_pos past, if_neg none]
    rfl

theorem testAddresses_empty : (testAddresses 0).run = .done (.error .empty) := rfl

theorem testAll_empty : (testAll 0).run = .done (.error .empty) := rfl

private theorem bounded_testData (n index : Nat) :
    (testData n index).run.Bounded (Request.Within n) := by
  rcases Nat.lt_or_ge index n with inside | past
  · rw [testData, if_neg (by omega), if_neg (by omega)]
    refine bounded_session_forM fun pattern _ => ?_
    exact bounded_session_bind (bounded_write inside _) fun _ => bounded_expect inside _ _
  · rw [testData_absent past]
    trivial

private theorem bounded_testAddresses (n : Nat) :
    (testAddresses n).run.Bounded (Request.Within n) := by
  rcases Nat.eq_zero_or_pos n with rfl | pos
  · trivial
  have inside : ∀ offset ∈ powerOffsets n, offset < n := fun offset mem => (powerOffsets_range pos mem).2
  rw [testAddresses, if_neg (by omega)]
  refine bounded_session_bind (bounded_session_forM fun x mem => bounded_write (inside x mem) _) fun _ => ?_
  refine bounded_session_bind (bounded_write pos _) fun _ => ?_
  refine bounded_session_bind (bounded_session_forM fun x mem => bounded_expect (inside x mem) _ _) fun _ => ?_
  refine bounded_session_bind (bounded_write pos _) fun _ => ?_
  refine bounded_session_forM fun tested line => ?_
  refine bounded_session_bind (bounded_write (inside tested line) _) fun _ => ?_
  refine bounded_session_bind (bounded_expect pos _ _) fun _ => ?_
  refine bounded_session_bind (bounded_session_forM fun x mem => ?_) fun _ =>
    bounded_write (inside tested line) _
  split
  · exact bounded_expect (inside x mem) _ _
  · trivial

private theorem bounded_testWords (n : Nat) : (testWords n).run.Bounded (Request.Within n) := by
  have inside : ∀ offset ∈ List.range n, offset < n := fun offset mem => List.mem_range.mp mem
  refine bounded_session_bind (bounded_session_forM fun x mem => bounded_write (inside x mem) _) fun _ => ?_
  refine bounded_session_bind (bounded_session_forM fun x mem => ?_) fun _ =>
    bounded_session_forM fun x mem => bounded_expect (inside x mem) _ _
  exact bounded_session_bind (bounded_expect (inside x mem) _ _) fun _ => bounded_write (inside x mem) _

/-- Whatever it reads, a test ends after so many requests, all of them for words that are there. -/
theorem OfWords.bounded {test : Test Unit} (h : OfWords n test) :
    test.run.Bounded (Request.Within n) := by
  cases h with
  | data index => exact bounded_testData n index
  | addresses => exact bounded_testAddresses n
  | words => exact bounded_testWords n
  | all =>
    exact bounded_session_bind (bounded_testData n 0) fun _ =>
      bounded_session_bind (bounded_testAddresses n) fun _ => bounded_testWords n

end Bounds

/-- On a range of the bus such a request becomes an access to one of its words. It is not refused. -/
private theorem bounded_carry (base : Address) (n : Nat) (past : Nat → Fault) {r : Request}
    (inside : r.Within n) : (WordMemory.carry base n past r).Bounded (Bus.Request.Among base n) := by
  cases r with
  | read index =>
    change index < n at inside
    rw [WordMemory.carry, if_pos inside]
    exact bounded_call ⟨index, inside, .inl rfl⟩
  | write index value =>
    change index < n at inside
    rw [WordMemory.carry, if_pos inside]
    exact bounded_call ⟨index, inside, .inr ⟨value, rfl⟩⟩

/-- The tests of a memory of `n` words come to a verdict and touch none but these, whatever they read. -/
structure StayInside (n : Nat) : Prop where
  /-- A memory may answer as it likes, and need not keep what is written to it. -/
  memory {test : Test Unit} (h : OfWords n test) {σ : Type} (memory : Device WordMemory Empty σ) (s : σ) :
    ∃ verdict s' log, Ends memory.recorded test.run (s, []) (.ok verdict (s', log)) ∧
      ∀ x ∈ log, x.request.index < n
  /-- At a word that is not there the test of the data lines fails without a look at the memory. -/
  absent {index : Nat} (past : n ≤ index) :
    (testData n index).run = .done (.error (if n = 0 then .empty else .outOfRange index))
  /-- Of no words at all, neither the address lines nor the whole can be tested. -/
  empty (none : n = 0) :
    (testAddresses n).run = .done (.error .empty) ∧ (testAll n).run = .done (.error .empty)
  /-- A region of the bus has as many words as it has whole ones. It never finds one asked for past its
  end, and nothing around it is touched. -/
  region {test : Test Unit} (r : Region) (size : r.bytes / 4 = n) (h : OfWords n test) {σ : Type}
    (bus : Device Bus Empty σ) (s : σ) :
    ∃ verdict s' log, Ends bus.recorded (test.run.interpret r.carry) (s, []) (.ok verdict (s', log)) ∧
      ∀ x ∈ log, x.request.Among r.base n
  array {test : Test Unit} (base : Address) (h : OfWords n test) {σ : Type} (bus : Device Bus Empty σ)
    (s : σ) : ∃ verdict s' log,
      Ends bus.recorded (test.run.interpret (WordArray.carry ⟨base, n⟩)) (s, []) (.ok verdict (s', log)) ∧
      ∀ x ∈ log, x.request.Among base n

theorem tests_stay_inside (n : Nat) : StayInside n where
  memory h _ memory s := h.bounded.ends memory s
  absent past := testData_absent past
  empty none := by
    subst none
    exact ⟨testAddresses_empty, testAll_empty⟩
  region r size h _ bus s := by
    subst size
    exact (h.bounded.interpret fun _ inside => bounded_carry r.base _ _ inside).ends bus s
  array base h _ bus s := (h.bounded.interpret fun _ inside => bounded_carry base n _ inside).ends bus s

end Memory

end BoardSupport
