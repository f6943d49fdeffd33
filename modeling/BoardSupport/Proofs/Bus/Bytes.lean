import BoardSupport.Bus
import BoardSupport.Proofs.Program.Exchange
import BoardSupport.Proofs.Word.Bytes

/-! Memory by its bytes. A word takes four of them, the least significant first, and may start at any. -/
namespace BoardSupport.Bus

def wordAt (m : Address → UInt8) (address : Address) : UInt32 :=
  Word.ofLittleEndian (m address) (m (address + 1)) (m (address + 2)) (m (address + 3))

def setWord (m : Address → UInt8) (address : Address) (value : UInt32) : Address → UInt8 := fun byte =>
  ((Word.toLittleEndian value)[(byte - address).toNat]?).getD (m byte)

/-- Memory with a byte at each address, which takes no notice of time. -/
def bytes : Device Bus Empty (Address → UInt8)
  | .load address => fun m => .ok (wordAt m address) m
  | .store address value => fun m => .ok () (setWord m address value)
  | .idle _ => fun m => .ok () m

/-- The word at `address` does not take this byte. -/
def Misses (address byte : Address) : Prop := 4 ≤ (byte - address).toNat

variable {m : Address → UInt8} {address other : Address} {value : UInt32}

theorem setWord_of_misses {byte : Address} (missed : Misses address byte) :
    setWord m address value byte = m byte := by
  rw [setWord, List.getElem?_eq_none (by exact missed), Option.getD_none]

/-- Words neither of which starts in the other share no byte. -/
theorem misses_or_misses (after : Misses address other) (before : Misses other address) (byte : Address) :
    Misses address byte ∨ Misses other byte := by
  unfold Misses at *
  rw [UInt64.toNat_sub] at *
  rw [UInt64.toNat_sub]
  have := address.toNat_lt
  have := other.toNat_lt
  have := byte.toNat_lt
  omega

private theorem setWord_inside (m : Address → UInt8) (address : Address) (value : UInt32) (i : Address) :
    setWord m address value (address + i) =
      ((Word.toLittleEndian value)[i.toNat]?).getD (m (address + i)) := by
  rw [setWord, UInt64.add_comm, UInt64.add_sub_cancel]

theorem wordAt_setWord : wordAt (setWord m address value) address = value := by
  have first := setWord_inside m address value 0
  rw [UInt64.add_zero] at first
  rw [wordAt, first, setWord_inside, setWord_inside, setWord_inside]
  exact Word.ofLittleEndian_bytes value

theorem wordAt_setWord_of_misses (after : Misses address other) (before : Misses other address) :
    wordAt (setWord m address value) other = wordAt m other := by
  have missed (i : Address) (inside : i.toNat < 4) : Misses address (other + i) := by
    refine (misses_or_misses after before (other + i)).resolve_right ?_
    rw [Misses, UInt64.add_comm, UInt64.add_sub_cancel]
    exact Nat.not_le.mpr inside
  rw [wordAt, setWord_of_misses after, setWord_of_misses (missed 1 (by decide)),
    setWord_of_misses (missed 2 (by decide)), setWord_of_misses (missed 3 (by decide)), wordAt]

/-- Memory keeps the bytes that no stored word takes. -/
theorem bytes_unstored {log : List (Exchange Bus)} {m' : Address → UInt8} {byte : Address}
    (answered : bytes.Answers m log m')
    (missed : ∀ exchange ∈ log, ∀ address value, exchange.request = .store address value →
      Misses address byte) : m' byte = m byte := by
  induction answered with
  | nil => rfl
  | @cons m mid m' exchange log reply rest ih =>
    rw [ih fun later member => missed later (List.mem_cons_of_mem _ member)]
    have here := missed exchange List.mem_cons_self
    obtain ⟨request, answer⟩ := exchange
    cases request with
    | load | idle =>
      cases reply
      rfl
    | store address value =>
      cases reply
      exact setWord_of_misses (here address value rfl)

end BoardSupport.Bus
