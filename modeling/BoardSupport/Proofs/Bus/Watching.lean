import BoardSupport.Proofs.Bus.Polling
import BoardSupport.Proofs.Program.Observing
import Mathlib.Data.List.Infix
import Mathlib.Data.Nat.Find

/-! An observer of a bus on which each address answers from a stream of its own. -/
namespace BoardSupport.Bus

open Program Observer

/-- What programs wait for comes again and again. -/
def Recurring (awaited : Address → (UInt32 → Bool) → Prop) (replies : Address → Stream' UInt32) : Prop :=
  ∀ address ready, awaited address ready → ∀ n, ∃ k, ready ((replies address).get (n + k)) = true

/-- One who notes accesses by `note` and sees of the streams what `view` tells. -/
def observer {ω ι : Type} (note : Exchange Bus → Option ω) (view : (Address → Stream' UInt32) → ι)
    (awaited : Address → (UInt32 → Bool) → Prop) : Observer Bus (Address → Stream' UInt32) ω ι :=
  ⟨note, view, Recurring awaited⟩

section Streams

variable {awaited : Address → (UInt32 → Bool) → Prop} {replies : Address → Stream' UInt32}

/-- Replies that are used up do not stop others from coming. -/
theorem Recurring.drop (h : Recurring awaited replies) (address : Address) (n : Nat) :
    Recurring awaited (Function.update replies address ((replies address).drop n)) := by
  intro place ready waits m
  by_cases same : place = address
  · subst same
    obtain ⟨k, found⟩ := h place ready waits (m + n)
    refine ⟨k, ?_⟩
    rw [Function.update_self, Stream'.get_drop, ← Nat.add_assoc, Nat.add_comm n m]
    exact found
  · rw [Function.update_of_ne same]
    exact h place ready waits m

private theorem first_ready {words : Stream' UInt32} {ready : UInt32 → Bool}
    (h : ∃ k, ready (words.get k) = true) : ∃ k, (∀ word ∈ words.take k, ready word = false) ∧
      ready (words.get k) = true := by
  refine ⟨Nat.find h, ?_, Nat.find_spec h⟩
  intro word member
  obtain ⟨i, inside, rfl⟩ := List.mem_iff_getElem.mp member
  rw [Stream'.length_take] at inside
  rw [Stream'.take_get]
  exact Bool.eq_false_iff.mpr (Nat.find_min h inside)

end Streams

section Accesses

variable {ω ι : Type} {note : Exchange Bus → Option ω} {view : (Address → Stream' UInt32) → ι}
  {awaited : Address → (UInt32 → Bool) → Prop} {i : ι} {address : Address}

private theorem notes_singleton (x : Exchange Bus) :
    (observer note view awaited).notes [x] = (note x).toList := by
  rw [Observer.notes, List.filterMap_cons]
  change (match note x with | none => _ | some b => _) = _
  cases note x <;> rfl

/-- A request that is always answered is noted, or not, by its answer. -/
private theorem shows_call {r : Bus.Request} {tale : List ω} {post : Bus.Reply r → ι → Prop}
    (answer : (Address → Stream' UInt32) → Bus.Reply r × (Address → Stream' UInt32))
    (answers : ∀ replies, answering r replies = .ok (answer replies).1 (answer replies).2)
    (goes_on : ∀ replies, Recurring awaited replies → Recurring awaited (answer replies).2)
    (tells : ∀ replies, view replies = i → (note ⟨r, (answer replies).1⟩).toList = tale ∧
      post (answer replies).1 (view (answer replies).2)) :
    (observer note view awaited).Shows answering (call (I := Bus) r) i tale post where
  begun := by
    rintro replies left log seen begun answered
    rcases begins_call.mp begun with rfl | ⟨x, rfl⟩
    · exact List.nil_prefix
    · obtain ⟨mid, reply, -⟩ := answers_cons.mp answered
      rw [answers] at reply
      cases reply
      rw [notes_singleton, (tells replies seen).1]
  done := by
    rintro replies left log x seen called answered
    obtain rfl := follows_call.mp called
    obtain ⟨mid, reply, nothing⟩ := answers_cons.mp answered
    obtain rfl := answers_nil.mp nothing
    rw [answers] at reply
    cases reply
    rw [notes_singleton]
    exact tells replies seen
  ends := by
    intro replies _ lively
    exact ⟨_, _, _, follows_call.mpr rfl, .cons (answers replies) (.nil _), goes_on replies lively⟩

/-- A load takes the first reply. -/
theorem shows_load {tale : List ω} {post : UInt32 → ι → Prop}
    (tells : ∀ replies, view replies = i → (note ⟨.load address, (replies address).head⟩).toList = tale ∧
      post (replies address).head (view (Function.update replies address (replies address).tail))) :
    (observer note view awaited).Shows answering (load address) i tale post :=
  shows_call (fun replies => ⟨(replies address).head, Function.update replies address (replies address).tail⟩)
    (fun _ => rfl) (fun _ lively => lively.drop address 1) tells

/-- A load that is neither noted nor seen. -/
theorem shows_glance (silent : ∀ word, note ⟨.load address, word⟩ = none)
    (unseen : ∀ replies words, view (Function.update replies address words) = view replies) :
    (observer note view awaited).Shows answering (load address) i [] fun _ j => j = i := by
  refine shows_load fun replies seen => ⟨?_, (unseen ..).trans seen⟩
  rw [silent]
  rfl

theorem shows_store {value : UInt32} :
    (observer note view awaited).Shows answering (store address value) i
      (note ⟨.store address value, ()⟩).toList (Leaves () i) :=
  shows_call (fun replies => ⟨(), replies⟩) (fun _ => rfl) (fun _ => id) fun _ seen => ⟨rfl, rfl, seen⟩

section Waits

variable {ready : UInt32 → Bool}

private theorem notes_looks (found : List UInt32) : (observer note view awaited).notes (looks address found) =
    found.flatMap fun word => (note ⟨.load address, word⟩).toList := by
  induction found with
  | nil => rfl
  | cons word found ih =>
    have here : looks address (word :: found) = [⟨.load address, word⟩] ++ looks address found := rfl
    rw [here, notes_append, notes_singleton, ih, List.flatMap_cons]

private theorem notes_waiting {waiting : List UInt32}
    (quiet : ∀ word, ready word = false → note ⟨.load address, word⟩ = none)
    (early : ∀ word ∈ waiting, ready word = false) :
    (observer note view awaited).notes (looks address waiting) = [] := by
  rw [notes_looks, List.flatMap_eq_nil_iff]
  intro word member
  rw [quiet word (early word member)]
  rfl

/-- A wait is noted by the reply that ends it. -/
theorem shows_await {tale : List ω} (waits : awaited address ready)
    (quiet : ∀ word, ready word = false → note ⟨.load address, word⟩ = none)
    (loud : ∀ word, ready word = true → (note ⟨.load address, word⟩).toList = tale)
    (unseen : ∀ replies words, view (Function.update replies address words) = view replies) :
    (observer note view awaited).Shows answering (waitUntil do return ready (← load address)) i tale
      (Leaves () i) := by
  have whole {replies left : Address → Stream' UInt32} {log : List (Exchange Bus)} (seen : view replies = i)
      (ended : Follows (waitUntil do return ready (← load address)) log ())
      (answered : answering.Answers replies log left) :
      (observer note view awaited).notes log = tale ∧ view left = i := by
    obtain ⟨waiting, last, rfl, early, found⟩ := follows_await.mp ended
    obtain ⟨-, rfl⟩ := answers_looks.mp answered
    refine ⟨?_, (unseen ..).trans seen⟩
    have split : looks address (waiting ++ [last]) = looks address waiting ++ [⟨.load address, last⟩] :=
      List.map_append
    rw [split, notes_append, notes_waiting quiet early, notes_singleton, loud last found]
    rfl
  refine ⟨?_, ?_, ?_⟩
  · rintro replies left log seen begun answered
    rcases begins_await begun with ⟨waiting, rfl, early⟩ | ended
    · rw [notes_waiting quiet early]
      exact List.nil_prefix
    · rw [(whole seen ended answered).1]
  · rintro replies left log ⟨⟩ seen ended answered
    obtain ⟨noted, left⟩ := whole seen ended answered
    exact ⟨noted, rfl, left⟩
  · intro replies seen lively
    have comes : ∃ k, ready ((replies address).get k) = true := by
      simpa using lively address ready waits 0
    obtain ⟨k, early, found⟩ := first_ready comes
    refine ⟨looks address ((replies address).take k ++ [(replies address).get k]), (), _,
      follows_await.mpr ⟨_, _, rfl, early, found⟩, answers_looks.mpr ⟨?_, rfl⟩, lively.drop address _⟩
    rw [List.length_append, Stream'.length_take, List.length_singleton, Stream'.take_succ']

end Waits

end Accesses

end BoardSupport.Bus
