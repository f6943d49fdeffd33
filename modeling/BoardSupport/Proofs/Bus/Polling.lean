import BoardSupport.Bus
import BoardSupport.Proofs.Program.Beginning
import Mathlib.Data.Stream.Init
import Mathlib.Logic.Function.Basic

/-! Looking at one register again and again, on a bus that has a reply ready for each look. -/
namespace BoardSupport.Bus

open Program

/-- A bus on which each address has a stream of its own to answer loads from. -/
def answering : Device Bus Empty (Address → Stream' UInt32)
  | .load address => fun replies =>
    .ok (replies address).head (Function.update replies address (replies address).tail)
  | .store .. => fun replies => .ok () replies
  | .idle _ => fun replies => .ok () replies

/-- Loads of one address, with what they found. -/
def looks (address : Address) (found : List UInt32) : List (Exchange Bus) :=
  found.map fun word => ⟨.load address, word⟩

variable {address : Address} {ready : UInt32 → Bool} {log : List (Exchange Bus)}

private def lookRound (address : Address) (ready : UInt32 → Bool) : Program Bus (Unit ⊕ Unit) := do
  if ready (← load address) then return .inr () else return .inl ()

private theorem await_eq : (waitUntil do return ready (← load address)) =
    iterate (fun () => lookRound address ready) () := by
  simp only [waitUntil, bind_assoc, pure_bind]
  rfl

private theorem follows_lookRound {next : Unit ⊕ Unit} : Follows (lookRound address ready) log next ↔
    ∃ word, log = looks address [word] ∧ next = if ready word then .inr () else .inl () := by
  rw [lookRound, follows_bind]
  constructor
  · rintro ⟨word, looked, rest, rfl, look, left⟩
    obtain rfl := follows_call.mp look
    refine ⟨word, ?_⟩
    split at left <;> obtain ⟨rfl, rfl⟩ := follows_done.mp left <;> simp [looks, *]
  · rintro ⟨word, rfl, rfl⟩
    refine ⟨word, looks address [word], [], rfl, follows_call.mpr rfl, ?_⟩
    split <;> exact .done _

/-- A wait looks until it finds what it waits for. -/
theorem follows_await : Follows (waitUntil do return ready (← load address)) log () ↔
    ∃ waiting last, log = looks address (waiting ++ [last]) ∧ (∀ word ∈ waiting, ready word = false) ∧
      ready last = true := by
  rw [await_eq]
  constructor
  · intro h
    apply Follows.rounds (motive := fun _ log _ => ∃ waiting last, log = looks address (waiting ++ [last]) ∧
      (∀ word ∈ waiting, ready word = false) ∧ ready last = true) _ _ h
    · intro _ round _ once
      obtain ⟨last, rfl, found⟩ := follows_lookRound.mp once
      refine ⟨[], last, rfl, by simp, ?_⟩
      cases same : ready last with
      | true => rfl
      | false => simp [same] at found
    · rintro _ _ round log _ once ⟨waiting, last, rfl, early, found⟩
      obtain ⟨word, rfl, again⟩ := follows_lookRound.mp once
      refine ⟨word :: waiting, last, rfl, List.forall_mem_cons.mpr ⟨?_, early⟩, found⟩
      cases same : ready word with
      | true => simp [same] at again
      | false => rfl
  · rintro ⟨waiting, last, rfl, early, found⟩
    induction waiting with
    | nil => exact (follows_lookRound.mpr ⟨last, rfl, by rw [if_pos found]⟩).last
    | cons word waiting ih =>
      rw [List.forall_mem_cons] at early
      have once : Follows (lookRound address ready) (looks address [word]) (.inl ()) :=
        follows_lookRound.mpr ⟨word, rfl, by rw [early.1]; rfl⟩
      exact .again once (ih early.2)

private theorem begins_lookRound (h : Begins (lookRound address ready) log) :
    log = [] ∨ ∃ word, log = looks address [word] := by
  rcases begins_bind.mp h with within | ⟨word, first, second, rfl, look, rest⟩
  · exact begins_call.mp within
  · obtain rfl := follows_call.mp look
    obtain rfl : second = [] := by split at rest <;> exact begins_done.mp rest
    exact .inr ⟨word, rfl⟩

/-- A wait that has begun has not found it yet, or is over. -/
theorem begins_await (h : Begins (waitUntil do return ready (← load address)) log) :
    (∃ waiting, log = looks address waiting ∧ ∀ word ∈ waiting, ready word = false) ∨
      Follows (waitUntil do return ready (← load address)) log () := by
  rw [await_eq] at h ⊢
  apply Begins.rounds (motive := fun _ log => (∃ waiting, log = looks address waiting ∧
    ∀ word ∈ waiting, ready word = false) ∨ Follows (iterate (fun () => lookRound address ready) ()) log ()) _ _ h
  · rintro _ log once
    rcases begins_lookRound once with rfl | ⟨word, rfl⟩
    · exact .inl ⟨[], rfl, by simp⟩
    · cases found : ready word with
      | false => exact .inl ⟨[word], rfl, by simpa using found⟩
      | true => exact .inr (follows_lookRound.mpr ⟨word, rfl, by rw [if_pos found]⟩).last
  · rintro _ _ round log once so_far
    obtain ⟨word, rfl, again⟩ := follows_lookRound.mp once
    have early : ready word = false := by
      cases same : ready word with
      | true => simp [same] at again
      | false => rfl
    rcases so_far with ⟨waiting, rfl, earlier⟩ | ended
    · exact .inl ⟨word :: waiting, rfl, List.forall_mem_cons.mpr ⟨early, earlier⟩⟩
    · exact .inr (.again once ended)

/-- The looks find the replies in order. -/
theorem answers_looks {replies left : Address → Stream' UInt32} {found : List UInt32} :
    answering.Answers replies (looks address found) left ↔
      found = (replies address).take found.length ∧
        left = Function.update replies address ((replies address).drop found.length) := by
  induction found generalizing replies with
  | nil =>
    rw [looks, List.map_nil, answers_nil, List.length_nil, Stream'.drop_zero, Function.update_eq_self]
    exact ⟨fun same => ⟨rfl, same⟩, And.right⟩
  | cons word found ih =>
    have here : looks address (word :: found) = ⟨.load address, word⟩ :: looks address found := rfl
    rw [here, answers_cons]
    simp only [ih, answering]
    rw [List.length_cons, Stream'.take_succ, Stream'.drop_succ]
    constructor
    · rintro ⟨mid, reply, same, rfl⟩
      cases reply
      rw [Function.update_self] at same ⊢
      exact ⟨congrArg (_ :: ·) same, Function.update_idem ..⟩
    · rintro ⟨same, rfl⟩
      obtain ⟨rfl, same⟩ := List.cons.inj same
      refine ⟨_, rfl, ?_, ?_⟩
      · rwa [Function.update_self]
      · rw [Function.update_self, Function.update_idem]

end BoardSupport.Bus
