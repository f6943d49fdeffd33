import BoardSupport.Proofs.SdCard.BringUpGrammar
import Mathlib.Algebra.Group.Nat.Defs

/-! Where a block lies on a card, and the bytes that a card may answer with when a block is read or
written. -/
namespace BoardSupport.SdCard

/-- The address of a block, in the units that the kind of card counts in. -/
inductive Located : (kind : Kind) → (block address : UInt32) → Prop
  | block (block : UInt32) : Located .highCapacity block block
  | byte {kind : Kind} {block address : UInt32} (old : kind ≠ .highCapacity)
      (place : address.toNat = 512 * block.toNat) : Located kind block address

/-- The block lies beyond what a card that counts bytes can be asked for. -/
def Unreachable (kind : Kind) (block : UInt32) : Prop :=
  kind ≠ .highCapacity ∧ 2 ^ 23 ≤ block.toNat

section Address

variable {kind : Kind} {block : UInt32}

theorem blockAddress_unreachable (h : Unreachable kind block) :
    blockAddress (some kind) block = .error (.addressOutOfRange block) := by
  obtain ⟨old, far⟩ := h
  have outside : ¬ block.toNat * 512 < UInt32.size := by
    simp only [UInt32.size]
    omega
  cases kind with
  | highCapacity => exact absurd rfl old
  | version1 | version2 => exact if_neg outside

theorem blockAddress_located (h : ¬ Unreachable kind block) :
    ∃ address, Located kind block address ∧ blockAddress (some kind) block = .ok address := by
  by_cases new : kind = .highCapacity
  · subst new
    exact ⟨block, .block block, rfl⟩
  have inside : block.toNat * 512 < 2 ^ 32 := by
    have near : block.toNat < 2 ^ 23 := by
      by_contra far
      exact h ⟨new, by omega⟩
    omega
  refine ⟨block * 512, .byte new ?_, ?_⟩
  · have product : (block * 512).toNat = block.toNat * 512 % 2 ^ 32 := UInt32.toNat_mul block 512
    rw [product, Nat.mod_eq_of_lt inside, Nat.mul_comm]
  · cases kind with
    | highCapacity => exact absurd rfl new
    | version1 | version2 => exact if_pos inside

/-- Different blocks of a card lie at different addresses. -/
theorem Located.block_unique {other address : UInt32} (h : Located kind block address)
    (h' : Located kind other address) : block = other := by
  cases h with
  | block => cases h' with
    | block => rfl
    | byte old => exact absurd rfl old
  | byte old place => cases h' with
    | block => exact absurd rfl old
    | byte _ place' => exact UInt32.toNat_inj.mp (by omega)

end Address

/-- At most so many bytes of one value, and one that is another. -/
def Breaks (idle : UInt8) (most : Nat) (bytes : List UInt8) (v : UInt8) : Prop :=
  ∃ k ≤ most, bytes = List.replicate k idle ++ [v] ∧ v ≠ idle

/-- The answers to command 17, with the block that they carry or the error that they amount to. -/
inductive Fetches : List UInt8 → Except SdError Block → Prop
  | unready {bytes : List UInt8} {e : SdError} (bad : BadStatus 17 (· = 0x00) bytes e) :
      Fetches bytes (.error e)
  | mute {status : List UInt8} (ready : IsStatus status 0x00) :
      Fetches (status ++ List.replicate 4096 0xFF) (.error .timeout)
  | refused {status token : List UInt8} {t : UInt8} (ready : IsStatus status 0x00)
      (answered : Breaks 0xFF 4095 token t) (wrong : t ≠ 0xFE) :
      Fetches (status ++ token) (.error (.badToken t))
  | delivered {status token : List UInt8} {block : Block} {check0 check1 : UInt8}
      (ready : IsStatus status 0x00) (answered : Breaks 0xFF 4095 token 0xFE) :
      Fetches (status ++ token ++ block.toList ++ [check0, check1]) (.ok block)

/-- The answers to the data of a block. -/
inductive Settles : List UInt8 → Except SdError Unit → Prop
  | mute : Settles (List.replicate 4096 0xFF) (.error .timeout)
  | rejected {response : List UInt8} {t : UInt8} (answered : Breaks 0xFF 4095 response t)
      (refused : t &&& 0x1F ≠ 0x05) : Settles response (.error (.writeRejected t))
  | busy {response : List UInt8} {t : UInt8} (answered : Breaks 0xFF 4095 response t)
      (accepted : t &&& 0x1F = 0x05) :
      Settles (response ++ List.replicate 65536 0x00) (.error .busyTimeout)
  | written {response waiting : List UInt8} {t v : UInt8} (answered : Breaks 0xFF 4095 response t)
      (accepted : t &&& 0x1F = 0x05) (idle : Breaks 0x00 65535 waiting v) :
      Settles (response ++ waiting) (.ok ())

/-- The answers to command 24 and to the data that follow it if the card is ready. -/
inductive Deposits : List UInt8 → Except SdError Unit → Prop
  | unready {bytes : List UInt8} {e : SdError} (bad : BadStatus 24 (· = 0x00) bytes e) :
      Deposits bytes (.error e)
  | ready {status bytes : List UInt8} {r : Except SdError Unit} (ready : IsStatus status 0x00)
      (settled : Settles bytes r) : Deposits (status ++ bytes) r

end BoardSupport.SdCard
