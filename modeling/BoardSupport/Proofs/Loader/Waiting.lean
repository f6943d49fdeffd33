import BoardSupport.Loader.SerialLine
import BoardSupport.Proofs.Program.Failing

/-! What passes between the loader and its port while it waits for the bootloader. A wait succeeds
exactly by reading XON, and asks for nothing after that. -/
namespace BoardSupport.Loader

open Program

/-- XON has been read from the port. -/
def HeardXon (log : List (Exchange Host)) : Prop :=
  ∃ most more, (⟨.readPort most, .ok (Boot.xon :: more)⟩ : Exchange Host) ∈ log

theorem heardXon_append {first second : List (Exchange Host)} :
    HeardXon (first ++ second) ↔ HeardXon first ∨ HeardXon second := by
  simp only [HeardXon, List.mem_append, exists_or]

theorem not_heardXon_singleton {x : Exchange Host}
    (other : ∀ most more, x ≠ ⟨.readPort most, .ok (Boot.xon :: more)⟩) : ¬ HeardXon [x] := by
  rintro ⟨most, more, mem⟩
  exact other most more (List.mem_singleton.mp mem).symm

/-- The failure is that of a wait. -/
def Failure.OfWaiting : Failure → Prop
  | closedBeforeXon | noXon _ | waiting _ => True
  | _ => False

/-- What a read of one byte adds to what the device has said, if that was not XON. -/
inductive Adds (chatter : List UInt8) : Except IoError (List UInt8) → List UInt8 → Prop
  | nothing : Adds chatter (.error .timedOut) chatter
  | byte {b : UInt8} (other : b ≠ Boot.xon) (more : List UInt8) : Adds chatter (.ok (b :: more)) (b :: chatter)

/-- What one round of a wait can come to. -/
inductive WaitRound (timeout deadline : Nat) (chatter : List UInt8) :
    List (Exchange Host) → List UInt8 ⊕ Except Failure (List UInt8) → Prop
  | xon (more : List UInt8) : WaitRound timeout deadline chatter
      [⟨.readPort 1, .ok (Boot.xon :: more)⟩] (.inr (.ok chatter.reverse))
  | closed : WaitRound timeout deadline chatter [⟨.readPort 1, .ok []⟩] (.inr (.error .closedBeforeXon))
  | failed {e : IoError} (other : e ≠ .timedOut) : WaitRound timeout deadline chatter
      [⟨.readPort 1, .error e⟩] (.inr (.error (.waiting e)))
  | early {reply : Except IoError (List UInt8)} {said : List UInt8} {now : Nat}
      (adds : Adds chatter reply said) (inTime : now < deadline) : WaitRound timeout deadline chatter
      [⟨.readPort 1, reply⟩, ⟨.clock, now⟩] (.inl said)
  | late {reply : Except IoError (List UInt8)} {said : List UInt8} {now : Nat}
      (adds : Adds chatter reply said) (spent : deadline ≤ now) : WaitRound timeout deadline chatter
      [⟨.readPort 1, reply⟩, ⟨.clock, now⟩] (.inr (.error (.noXon timeout)))

section Rounds

variable {timeout deadline : Nat} {chatter : List UInt8} {round log : List (Exchange Host)}
  {next : List UInt8 ⊕ Except Failure (List UInt8)} {outcome : Except Failure (List UInt8)}

/-- After a read that was not XON the clock decides. -/
def lookAtClock (timeout deadline : Nat) (said : List UInt8) :
    Program Host (List UInt8 ⊕ Except Failure (List UInt8)) :=
  .ask (I := Host) .clock fun now =>
    if deadline ≤ now then .done (.inr (.error (.noXon timeout))) else .done (.inl said)

theorem awaitXonStep_eq (timeout deadline : Nat) (chatter : List UInt8) :
    awaitXonStep timeout deadline chatter = .ask (I := Host) (.readPort 1) fun
      | .ok [] => .done (.inr (.error .closedBeforeXon))
      | .ok (b :: _) => if b = Boot.xon then .done (.inr (.ok chatter.reverse))
          else lookAtClock timeout deadline (b :: chatter)
      | .error .timedOut => lookAtClock timeout deadline chatter
      | .error e => .done (.inr (.error (.waiting e))) := by
  refine congrArg (Program.ask (I := Host) (.readPort 1)) (funext fun reply => ?_)
  cases reply with
  | error e => cases e <;> rfl
  | ok bytes =>
    cases bytes with
    | nil => rfl
    | cons b more =>
      by_cases here : b = Boot.xon
      · simp only [Program.bind, here, if_true]
        rfl
      · simp only [Program.bind, here, if_false]
        rfl

private theorem waitRound_of_look {reply : Except IoError (List UInt8)} {said : List UInt8}
    (adds : Adds chatter reply said) (h : Follows (lookAtClock timeout deadline said) log next) :
    WaitRound timeout deadline chatter (⟨.readPort 1, reply⟩ :: log) next := by
  obtain ⟨now, rest, rfl, decided⟩ := follows_ask.mp h
  split at decided <;> obtain ⟨rfl, rfl⟩ := follows_done.mp decided
  · exact .late adds ‹_›
  · exact .early adds (Nat.lt_of_not_le ‹_›)

theorem waitRound_of_follows (h : Follows (awaitXonStep timeout deadline chatter) round next) :
    WaitRound timeout deadline chatter round next := by
  rw [awaitXonStep_eq] at h
  obtain ⟨reply, rest, rfl, answered⟩ := follows_ask.mp h
  clear h
  rcases reply with e | _ | ⟨b, more⟩
  · by_cases silent : e = .timedOut
    · subst silent
      exact waitRound_of_look .nothing answered
    · have failed : Follows (.done (.inr (.error (.waiting e)))) rest next := by
        cases e
        case timedOut => exact absurd rfl silent
        all_goals exact answered
      obtain ⟨rfl, rfl⟩ := follows_done.mp failed
      exact .failed silent
  · obtain ⟨rfl, rfl⟩ := follows_done.mp answered
    exact .closed
  · by_cases here : b = Boot.xon
    · subst here
      simp only [if_true] at answered
      obtain ⟨rfl, rfl⟩ := follows_done.mp answered
      exact .xon more
    · simp only [here, if_false] at answered
      exact waitRound_of_look (.byte here more) answered

private theorem Adds.follows {reply : Except IoError (List UInt8)} {said : List UInt8}
    (adds : Adds chatter reply said) (h : Follows (lookAtClock timeout deadline said) log next) :
    Follows (awaitXonStep timeout deadline chatter) (⟨.readPort 1, reply⟩ :: log) next := by
  rw [awaitXonStep_eq]
  refine .ask ?_
  cases adds with
  | nothing => exact h
  | byte other more =>
    dsimp only
    rwa [if_neg other]

/-- A round can come to each of these. -/
theorem WaitRound.follows (h : WaitRound timeout deadline chatter round next) :
    Follows (awaitXonStep timeout deadline chatter) round next := by
  cases h with
  | xon more =>
    rw [awaitXonStep_eq]
    refine .ask ?_
    dsimp only
    rw [if_pos rfl]
    exact .done _
  | closed =>
    rw [awaitXonStep_eq]
    exact .ask (.done _)
  | @failed e other =>
    rw [awaitXonStep_eq]
    refine .ask ?_
    cases e
    case timedOut => exact absurd rfl other
    all_goals exact .done _
  | early adds inTime =>
    refine adds.follows (.ask ?_)
    rw [if_neg (Nat.not_le.mpr inTime)]
    exact .done _
  | late adds spent =>
    refine adds.follows (.ask ?_)
    rw [if_pos spent]
    exact .done _

theorem Adds.unheard {reply : Except IoError (List UInt8)} {said : List UInt8} {now : Nat}
    (adds : Adds chatter reply said) : ¬ HeardXon [⟨.readPort 1, reply⟩, ⟨.clock, now⟩] := by
  rintro ⟨most, more, mem⟩
  simp only [List.mem_cons, List.not_mem_nil, or_false] at mem
  rcases mem with same | same
  · cases adds with
    | nothing => cases same
    | byte other =>
      cases same
      exact other rfl
  · cases same

end Rounds

section Waits

variable {timeout seconds : Nat} {log : List (Exchange Host)}

theorem awaitXon_run (timeout : Nat) : (awaitXon timeout).run = (do
    let start ← Host.clock
    if (1 <<< 63) * 1000 ≤ start + timeout then .fault .deadlineOverflow
    else iterate (awaitXonStep timeout (start + timeout)) [] : Program Host _) := rfl

end Waits

end BoardSupport.Loader
