import BoardSupport.Proofs.Word.Bytes
import BoardSupport.SdCard.Driver

/-! The bytes that a card may answer a bring-up with, and where other bytes depart from them. -/
namespace BoardSupport.SdCard

/-- At most eight bytes of all ones, and one that is not. -/
def IsStatus (bytes : List UInt8) (v : UInt8) : Prop :=
  ∃ k ≤ 8, bytes = List.replicate k 0xFF ++ [v] ∧ v ≠ 0xFF

/-- As many bytes of all ones as the driver reads for a status. -/
def silence : List UInt8 := List.replicate 9 0xFF

/-- A status with no bit other than bit 0. -/
def Fine (v : UInt8) : Prop := v &&& 0xFE = 0

instance : DecidablePred Fine := fun _ => inferInstanceAs (Decidable (_ = _))

section Tests

variable {v b0 b1 b2 b3 : UInt8}

theorem hasErrors_iff : (R1.mk v).hasErrors = true ↔ ¬ Fine v := by
  have mask : ~~~R1.idleFlag = 0xFE := rfl
  rw [R1.hasErrors, mask]
  exact bne_iff_ne

theorem isReady_iff : (R1.mk v).isReady = true ↔ v = 0x00 := beq_iff_eq

private theorem fine_bits : ∀ v : BitVec 8, v &&& 0xFE#8 = 0#8 → v = 0#8 ∨ v = 1#8 := by
  decide +kernel

theorem Fine.ready_or_idle (h : Fine v) : v = 0x00 ∨ v = 0x01 := by
  have bits := fine_bits v.toBitVec (congrArg UInt8.toBitVec h)
  exact bits.imp UInt8.eq_of_toBitVec_eq UInt8.eq_of_toBitVec_eq

theorem isIllegal_iff : (R1.mk v).isIllegal = true ↔ v &&& 0x04 ≠ 0 := bne_iff_ne

theorem isValid_iff :
    (R7.ofBytes ⟨v⟩ b0 b1 b2 b3).isValid = true ↔ b2 &&& 0x0F = 1 ∧ b3 = 0xAA := by
  simp [R7.isValid, R7.ofBytes]

private theorem and_twoPow_eq_zero {n i : Nat} (inside : i < n) (x : BitVec n) :
    x &&& BitVec.twoPow n i = 0#n ↔ x.getLsbD i = false := by
  constructor
  · intro clear
    have at_bit := congrArg (BitVec.getLsbD · i) clear
    simpa [inside] using at_bit
  · intro clear
    rw [BitVec.and_twoPow, clear]
    rfl

private theorem top_clear {i : Nat} (inside : i < 8) :
    (Word.ofBigEndian b0 b1 b2 b3).toBitVec &&& BitVec.twoPow 32 (24 + i) = 0#32 ↔
      b0.toBitVec &&& BitVec.twoPow 8 i = 0#8 := by
  rw [and_twoPow_eq_zero (by omega), and_twoPow_eq_zero inside, Word.ofBigEndian_top b0 b1 b2 b3 inside]

theorem isPoweredUp_iff :
    (Ocr.mk (Word.ofBigEndian b0 b1 b2 b3)).isPoweredUp = true ↔ b0 &&& 0x80 ≠ 0 := by
  rw [Ocr.isPoweredUp, bne_iff_ne, Ne, Ne, not_iff_not, ← UInt32.toBitVec_inj, ← UInt8.toBitVec_inj]
  exact top_clear (show 7 < 8 by decide)

theorem isHighCapacity_iff :
    (Ocr.mk (Word.ofBigEndian b0 b1 b2 b3)).isHighCapacity = true ↔ b0 &&& 0x40 ≠ 0 := by
  rw [Ocr.isHighCapacity, bne_iff_ne, Ne, Ne, not_iff_not, ← UInt32.toBitVec_inj, ← UInt8.toBitVec_inj]
  exact top_clear (show 6 < 8 by decide)

end Tests

/-- The answer to command 8 of a card that may be started. Bit 2 of the status tells an old card. -/
inductive Interface : List UInt8 → (old : Bool) → Prop
  | old {status : List UInt8} {c b0 b1 b2 b3 : UInt8} (answered : IsStatus status c)
      (illegal : c &&& 0x04 ≠ 0) : Interface (status ++ [b0, b1, b2, b3]) true
  | new {status : List UInt8} {c b0 b1 : UInt8} {b2 : UInt8} (answered : IsStatus status c)
      (known : c &&& 0x04 = 0) (voltage : b2 &&& 0x0F = 1) :
      Interface (status ++ [b0, b1, b2, 0xAA]) false

/-- The answers to commands 0 and 8. -/
inductive Opening : List UInt8 → (old : Bool) → Prop
  | mk {reset interface : List UInt8} {old : Bool} (idle : IsStatus reset 0x01)
      (answered : Interface interface old) : Opening (reset ++ interface) old

/-- The answers to commands 55 and 41, the second of them `v`. -/
inductive Round : List UInt8 → (v : UInt8) → Prop
  | mk {announced answered : List UInt8} {c v : UInt8} (first : IsStatus announced c) (fine : Fine c)
      (second : IsStatus answered v) : Round (announced ++ answered) v

/-- So many rounds of a card that is still idle, and one of a card that is not. -/
inductive Starts : (n : Nat) → List UInt8 → Prop
  | now {round : List UInt8} (ready : Round round 0x00) : Starts 0 round
  | later {n : Nat} {round rest : List UInt8} (idle : Round round 0x01) (starts : Starts n rest) :
      Starts (n + 1) (round ++ rest)

/-- The answer to command 58, with the first byte of the register. -/
inductive Conditions : List UInt8 → (v b0 : UInt8) → Prop
  | mk {status : List UInt8} {v b0 b1 b2 b3 : UInt8} (answered : IsStatus status v) :
      Conditions (status ++ [b0, b1, b2, b3]) v b0

/-- What a new card is, by the first byte of the register. -/
def kindOf (b0 : UInt8) : Kind := if b0 &&& 0x40 ≠ 0 then .highCapacity else .version2

/-- The answers that bring a card up, after `n` rounds of waiting. -/
inductive Accepted : List UInt8 → (old : Bool) → (n : Nat) → Kind → Prop
  | old {opening starting : List UInt8} {n : Nat} (opened : Opening opening true)
      (starts : Starts n starting) (soon : n ≤ 99) : Accepted (opening ++ starting) true n .version1
  | new {opening starting conditions : List UInt8} {n : Nat} {v b0 : UInt8}
      (opened : Opening opening false) (starts : Starts n starting) (soon : n ≤ 99)
      (answered : Conditions conditions v b0) (fine : Fine v) (powered : b0 &&& 0x80 ≠ 0) :
      Accepted (opening ++ starting ++ conditions) false n (kindOf b0)

/-- No status, or another than was wanted. -/
inductive BadStatus (index : UInt8) (good : UInt8 → Prop) : List UInt8 → SdError → Prop
  | silent : BadStatus index good silence .timeout
  | other {bytes : List UInt8} {v : UInt8} (answered : IsStatus bytes v) (bad : ¬ good v) :
      BadStatus index good bytes (.command index ⟨v⟩)

/-- No answer to command 8, or that of a new card which does not take our voltage or does not echo. -/
inductive BadInterface : List UInt8 → SdError → Prop
  | silent : BadInterface silence .timeout
  | refused {status : List UInt8} {c b0 b1 b2 b3 : UInt8} (answered : IsStatus status c)
      (known : c &&& 0x04 = 0) (wrong : ¬ (b2 &&& 0x0F = 1 ∧ b3 = 0xAA)) :
      BadInterface (status ++ [b0, b1, b2, b3]) (.interfaceCondition (R7.ofBytes ⟨c⟩ b0 b1 b2 b3))

/-- Rounds that end in a status that is not wanted, or that leave no more than these tries. -/
inductive Stuck : (tries : Nat) → List UInt8 → SdError → Prop
  | idle : Stuck 0 [] .initTimeout
  | announcement {n : Nat} {bytes : List UInt8} {e : SdError} (bad : BadStatus 55 Fine bytes e) :
      Stuck (n + 1) bytes e
  | start {n : Nat} {announced bytes : List UInt8} {c : UInt8} {e : SdError}
      (first : IsStatus announced c) (fine : Fine c) (bad : BadStatus 41 Fine bytes e) :
      Stuck (n + 1) (announced ++ bytes) e
  | later {n : Nat} {round rest : List UInt8} {e : SdError} (idle : Round round 0x01)
      (stuck : Stuck n rest e) : Stuck (n + 1) (round ++ rest) e

/-- No answer to command 58, or that of a card which is not fine or not powered up. -/
inductive BadConditions : List UInt8 → SdError → Prop
  | silent : BadConditions silence .timeout
  | status {bytes : List UInt8} {v b0 : UInt8} (answered : Conditions bytes v b0) (bad : ¬ Fine v) :
      BadConditions bytes (.command 58 ⟨v⟩)
  | unpowered {bytes : List UInt8} {v b0 : UInt8} (answered : Conditions bytes v b0) (fine : Fine v)
      (off : b0 &&& 0x80 = 0) : BadConditions bytes .notPoweredUp

/-- Answers that bring a card up as far as to the first that does not, with the error of that one. -/
inductive Departs : List UInt8 → SdError → Prop
  | reset {bytes : List UInt8} {e : SdError} (bad : BadStatus 0 (· = 0x01) bytes e) : Departs bytes e
  | interface {reset bytes : List UInt8} {e : SdError} (idle : IsStatus reset 0x01)
      (bad : BadInterface bytes e) : Departs (reset ++ bytes) e
  | rounds {opening bytes : List UInt8} {old : Bool} {e : SdError} (opened : Opening opening old)
      (stuck : Stuck 100 bytes e) : Departs (opening ++ bytes) e
  | conditions {opening starting bytes : List UInt8} {n : Nat} {e : SdError}
      (opened : Opening opening false) (starts : Starts n starting) (soon : n ≤ 99)
      (bad : BadConditions bytes e) : Departs (opening ++ starting ++ bytes) e

/-- A command with idle clocks on either side. -/
def frameBytes (index : UInt8) (argument : UInt32) (check : UInt8) : List UInt8 :=
  0xFF :: commandBytes index argument check ++ [0xFF]

/-- The frames of so many rounds. -/
def roundFrames (old : Bool) (rounds : Nat) : List (List UInt8) :=
  (List.replicate rounds
    [frameBytes 55 0 0, frameBytes 41 (if old then 0 else 0x40000000) 0]).flatten

/-- The frames of a bring-up that is accepted after `n` rounds of waiting. -/
def bringUpFrames (old : Bool) (n : Nat) : List (List UInt8) :=
  [frameBytes 0 0 0x94, frameBytes 8 0x1AA 0x86] ++ roundFrames old (n + 1) ++
    if old then [] else [frameBytes 58 0 0]

example : bringUpFrames false 0 = [
    [0xFF, 0x40, 0, 0, 0, 0, 0x95, 0xFF], [0xFF, 0x48, 0, 0, 0x01, 0xAA, 0x87, 0xFF],
    [0xFF, 0x77, 0, 0, 0, 0, 0x01, 0xFF], [0xFF, 0x69, 0x40, 0, 0, 0, 0x01, 0xFF],
    [0xFF, 0x7A, 0, 0, 0, 0, 0x01, 0xFF]] := by decide

end BoardSupport.SdCard
