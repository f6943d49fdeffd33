import BoardSupport.Proofs.Boot.Confinement

/-! Every course that a receiver can take to its end, on whatever link and memory: it gives the same
account of itself as on a link that answers from a list. -/
namespace BoardSupport.Boot

open Program

section Rounds

variable {window : Window} {phase : Phase} {round course : List (Exchange Target)}
  {next : Phase ⊕ Except BootError Image} {result : Except BootError Image}

/-- What one round of a receiver asks for, and what it makes of the answer. -/
private inductive Round (window : Window) (phase : Phase) :
    List (Exchange Target) → Phase ⊕ Except BootError Image → Prop
  | silence : Round window phase [⟨.link .poll, none⟩] (.inl phase)
  | proceed {byte : UInt8} {phase' : Phase} (fed : phase.feed window byte = .proceed phase') :
      Round window phase [⟨.link .poll, some byte⟩] (.inl phase')
  | keep {byte : UInt8} {address : UInt32} {phase' : Phase}
      (fed : phase.feed window byte = .keep address phase') :
      Round window phase [⟨.link .poll, some byte⟩, ⟨.store address byte, ()⟩] (.inl phase')
  | finish {byte : UInt8} {result : Except BootError Image}
      (fed : phase.feed window byte = .finish result) :
      Round window phase [⟨.link .poll, some byte⟩] (.inr result)

private theorem round_of_follows (h : Follows (receiveStep window phase) round next) :
    Round window phase round next := by
  obtain ⟨reply, rest, rfl, acted⟩ := follows_ask.mp h
  cases reply with
  | none =>
    obtain ⟨rfl, rfl⟩ := follows_done.mp acted
    exact .silence
  | some byte =>
    simp only [interpret, Program.bind] at acted
    cases fed : phase.feed window byte with
    | proceed phase' =>
      rw [fed] at acted
      obtain ⟨rfl, rfl⟩ := follows_done.mp acted
      exact .proceed fed
    | keep address phase' =>
      rw [fed] at acted
      obtain ⟨_, rest, rfl, ended⟩ := follows_ask.mp acted
      obtain ⟨rfl, rfl⟩ := follows_done.mp ended
      exact .keep fed
    | finish result =>
      rw [fed] at acted
      obtain ⟨rfl, rfl⟩ := follows_done.mp acted
      exact .finish fed

/-- A loop takes the bytes that its polls find, and no more. -/
private theorem takeAll_of_follows (h : Follows (iterate (receiveStep window) phase) course result) :
    ∃ polls stored, Target.Loads course polls stored ∧
      phase.takeAll window polls.reduceOption = (stored, some (result, [])) := by
  apply Follows.rounds (motive := fun phase course result => ∃ polls stored,
    Target.Loads course polls stored ∧
      phase.takeAll window polls.reduceOption = (stored, some (result, []))) _ _ h
  · intro phase round result once
    cases round_of_follows once with
    | @finish byte _ fed =>
      refine ⟨[some byte], [], Target.Loads.nil.poll (some byte), ?_⟩
      rw [List.reduceOption_cons_of_some, Phase.takeAll, fed]
      rfl
  · rintro phase phase' round course result once ⟨polls, stored, loads, taken⟩
    cases round_of_follows once with
    | silence => exact ⟨none :: polls, stored, loads.poll none, taken⟩
    | @proceed byte _ fed =>
      refine ⟨some byte :: polls, stored, loads.poll (some byte), ?_⟩
      rw [List.reduceOption_cons_of_some, Phase.takeAll, fed]
      exact taken
    | @keep byte address _ fed =>
      refine ⟨some byte :: polls, (address, byte) :: stored, (loads.store address byte).poll (some byte), ?_⟩
      rw [List.reduceOption_cons_of_some, Phase.takeAll, fed]
      simp only [taken]

end Rounds

/-- A receiver that comes to its end has announced itself, and then only polled and stored: it has
taken an opening, an image and the byte that ended it, and stored the image. -/
theorem follows_receive {window : Window} {course : List (Exchange Target)}
    {result : Except BootError Image} (h : Follows (receive window) course result) :
    ∃ (loading : List (Exchange Target)) (polls : List (Option UInt8)) (o : Opening)
      (data : List UInt8) (last : UInt8), course = Target.greeting ++ loading ∧
      Target.Loads loading polls (placed o.start data) ∧ polls.reduceOption = o.bytes ++ data ++ [last] ∧
      Account window o.start data last (placed o.start data) result := by
  obtain ⟨_, _, rfl, announced⟩ := follows_ask.mp h
  obtain ⟨_, loading, rfl, looped⟩ := follows_ask.mp announced
  obtain ⟨polls, stored, loads, taken⟩ := takeAll_of_follows looped
  refine ⟨loading, polls, ?_⟩
  rcases takeAll_cases window polls.reduceOption with
    ⟨stored', endless, -⟩ | ⟨o, data, last, left, bytes_eq, fits, stops, ended⟩
  · rw [endless] at taken
    cases taken
  · rw [ended] at taken
    cases taken
    exact ⟨o, data, last, rfl, loads, by simpa using bytes_eq, account_of_stops fits stops⟩

end BoardSupport.Boot
