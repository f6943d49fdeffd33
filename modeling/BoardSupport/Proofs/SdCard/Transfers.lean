import BoardSupport.Proofs.SdCard.Answers
import BoardSupport.Proofs.SdCard.TransferGrammar

/-! What reading a block and writing one have in common: a command and its status, searches through
idle bytes, and bytes in bulk. Where the answers are known that a program can read, the replies decide
how it ends (`decided_of_reads`). -/
namespace BoardSupport.SdCard

open Spi Program

/-- The replies begin with an answer, which settles the outcome and is all that is read. -/
structure Decided {α : Type} (answers : List UInt8 → α → Prop) (replies : Stream' UInt8) (outcome : α)
    (used : List UInt8) : Prop where
  iff : ∀ a, outcome = a ↔ ∃ bytes rest, replies = bytes ++ₛ rest ∧ answers bytes a
  consumed : ∀ bytes rest a, replies = bytes ++ₛ rest → answers bytes a → used = bytes

section Replies

variable {α β : Type} {used : List UInt8}

theorem decided_of_reads {p : Program Channel β} {f : α → β} (injective : Function.Injective f)
    {answers : List UInt8 → α → Prop} (grammar : ∀ bytes a, Reads p bytes (f a) ↔ answers bytes a)
    {replies rest : Stream' UInt8} {outcome : α} (h : answers used outcome)
    (split : replies = used ++ₛ rest) : Decided answers replies outcome used := by
  have agree {bytes : List UInt8} {rest' : Stream' UInt8} {a : α} (split' : replies = bytes ++ₛ rest')
      (h' : answers bytes a) : used = bytes ∧ outcome = a := by
    have same := ((grammar used outcome).mpr h).unique ((grammar bytes a).mpr h') (split.symm.trans split')
    exact ⟨same.1, injective same.2⟩
  constructor
  · intro a
    constructor
    · rintro rfl
      exact ⟨used, rest, split, h⟩
    · rintro ⟨bytes, rest', split', h'⟩
      exact (agree split' h').2
  · intro bytes rest' a split' h'
    exact (agree split' h').1

theorem reads_search {idle : UInt8} {most : Nat} {found : Option UInt8} :
    Reads (Channel.readUntil (· != idle) (most + 1)) used found ↔
      (∃ v, found = some v ∧ Breaks idle most used v) ∨
        found = none ∧ used = List.replicate (most + 1) idle := by
  rw [reads_readUntil]
  constructor
  · rintro (⟨k, bound, v, rfl, other, rfl⟩ | ⟨rfl, rfl⟩)
    · exact .inl ⟨v, rfl, k, by omega, rfl, other⟩
    · exact .inr ⟨rfl, rfl⟩
  · rintro (⟨v, rfl, k, bound, rfl, other⟩ | ⟨rfl, rfl⟩)
    · exact .inl ⟨k, by omega, v, rfl, other, rfl⟩
    · exact .inr ⟨rfl, rfl⟩

/-- A search whose end is judged at once. -/
theorem reads_judged {idle : UInt8} {most : Nat} {judge : Option UInt8 → α} {a : α} :
    Reads (Channel.readUntil (· != idle) (most + 1) >>= fun found => .done (judge found)) used a ↔
      (∃ v, a = judge (some v) ∧ Breaks idle most used v) ∨
        a = judge none ∧ used = List.replicate (most + 1) idle := by
  simp only [reads_bind, reads_search, reads_done]
  constructor
  · rintro ⟨_, first, _, rfl, ⟨v, rfl, found⟩ | ⟨rfl, rfl⟩, rfl, rfl⟩
    · exact .inl ⟨v, rfl, (List.append_nil first).symm ▸ found⟩
    · exact .inr ⟨rfl, List.append_nil _⟩
  · rintro (⟨v, rfl, found⟩ | ⟨rfl, rfl⟩)
    · exact ⟨_, used, [], (List.append_nil used).symm, .inl ⟨v, rfl, found⟩, rfl, rfl⟩
    · exact ⟨_, _, [], (List.append_nil _).symm, .inr ⟨rfl, rfl⟩, rfl, rfl⟩

/-- The status of a command that needs the card to be ready. -/
theorem reads_expectReady {index : UInt8} {r : Except SdError Unit} :
    Reads (expectReady index).run used r ↔
      (∃ e, r = .error e ∧ BadStatus index (· = 0x00) used e) ∨ r = .ok () ∧ IsStatus used 0x00 := by
  rw [expectReady, reads_session_bind]
  simp only [reads_readR1]
  constructor
  · rintro (⟨e, rfl, ⟨_, _, ⟨⟩⟩ | ⟨rfl, ⟨⟩⟩⟩ | ⟨_, status, _, rfl, ⟨v, answered, ⟨⟩⟩ | ⟨_, ⟨⟩⟩, judged⟩)
    · exact .inl ⟨_, rfl, .silent⟩
    by_cases ready : v = 0x00
    · rw [if_pos (isReady_iff.mpr ready)] at judged
      obtain ⟨rfl, rfl⟩ := reads_done.mp judged
      exact .inr ⟨rfl, by rwa [List.append_nil, ← ready]⟩
    · rw [if_neg (ready ∘ isReady_iff.mp)] at judged
      obtain ⟨rfl, rfl⟩ := reads_done.mp judged
      exact .inl ⟨_, rfl, by rw [List.append_nil]; exact .other answered ready⟩
  · rintro (⟨e, rfl, bad⟩ | ⟨rfl, answered⟩)
    · cases bad with
      | silent => exact .inl ⟨_, rfl, .inr ⟨rfl, rfl⟩⟩
      | @other _ v answered unready =>
        refine .inr ⟨_, used, [], (List.append_nil used).symm, .inl ⟨v, answered, rfl⟩, ?_⟩
        rw [if_neg (unready ∘ isReady_iff.mp)]
        exact reads_done.mpr ⟨rfl, rfl⟩
    · refine .inr ⟨_, used, [], (List.append_nil used).symm, .inl ⟨0x00, answered, rfl⟩, ?_⟩
      exact reads_done.mpr ⟨rfl, rfl⟩

end Replies

end BoardSupport.SdCard
