import BoardSupport.Proofs.SdCard.BringUp

/-! The answers to a bring-up decide how it ends, what it reads and what it sends, whatever card the
driver knew before. -/
namespace BoardSupport.SdCard

open Spi Program

section Course

variable {used : List UInt8} {sent : List (List UInt8)} {r : Except SdError Kind}

private theorem idle_powerUp : powerUp.Bounded Idle := by
  have pads : pad.Bounded Idle := bounded_call ⟨nofun, nofun⟩
  refine (bounded_call ⟨nofun, nofun⟩).bind fun _ => ?_
  refine (bounded_call ⟨nofun, nofun⟩).bind fun _ => pads.bind fun _ => ?_
  refine (bounded_call ⟨nofun, nofun⟩).bind fun _ => pads.bind fun _ => ?_
  exact bounded_forM fun _ _ => pads

/-- Power-up and the change of speed at the end are not part of the conversation. -/
theorem converses_bringUp : Converses bringUp used sent r ↔ Converses identify used sent r := by
  have speedUp {kind : Kind} {rest : List UInt8} {later : List (List UInt8)} :
      Converses (always (Channel.throttle throttleRun) >>= fun _ => pure kind) rest later r ↔
        r = .ok kind ∧ rest = [] ∧ later = [] :=
    (converses_idle (bounded_call ⟨nofun, nofun⟩)).trans converses_pure
  rw [bringUp, converses_idle idle_powerUp, converses_bind framing_identify]
  constructor
  · rintro (⟨e, rfl, failed⟩ | ⟨kind, first, second, here, later, rfl, rfl, found, rest⟩)
    · exact failed
    · obtain ⟨rfl, rfl, rfl⟩ := speedUp.mp rest
      rwa [List.append_nil, List.append_nil]
  · intro found
    cases r with
    | error e => exact .inl ⟨e, rfl, found⟩
    | ok kind =>
      exact .inr ⟨kind, used, [], sent, [], (List.append_nil _).symm, (List.append_nil _).symm, found,
        speedUp.mpr ⟨rfl, rfl, rfl⟩⟩

/-- A conversation takes place wherever its bytes come first among the replies. -/
private theorem ends_init (h : Converses identify used sent r) (card : SdCard) (rest : Stream' UInt8) :
    ∃ trace, reads trace = used ∧ frames trace = sent ∧
      Ends answering.recorded card.init (used ++ₛ rest, [])
        (.ok (r, ⟨r.toOption⟩) (rest, trace)) := by
  obtain ⟨log, course, rfl, rfl⟩ := converses_bringUp.mpr h
  exact ⟨log, rfl, rfl, (ends_of_follows course rest []).bind (.done _ _)⟩

end Course

/-- How a bring-up ends on these replies, with this trace. -/
structure Verdict (replies : Stream' UInt8) (result : Except SdError Kind)
    (trace : List (Exchange Channel)) : Prop where
  ok_iff : ∀ kind, result = .ok kind ↔
    ∃ used rest old n, replies = used ++ₛ rest ∧ Accepted used old n kind
  error_iff : ∀ e, result = .error e ↔ ∃ used rest, replies = used ++ₛ rest ∧ Departs used e
  accepted : ∀ used rest old n kind, replies = used ++ₛ rest → Accepted used old n kind →
    reads trace = used ∧ frames trace = bringUpFrames old n
  departed : ∀ used rest e, replies = used ++ₛ rest → Departs used e → reads trace = used

/-- On every stream of replies a bring-up returns. It reads no more than the answers that decide how,
and sends the commands that these belong to. -/
theorem init_verdict (card : SdCard) (replies : Stream' UInt8) :
    ∃ result rest trace, replies = reads trace ++ₛ rest ∧ Verdict replies result trace ∧
      Ends answering.recorded card.init (replies, []) (.ok (result, ⟨result.toOption⟩) (rest, trace)) := by
  obtain ⟨log, result, rest, course, split⟩ := exists_course framing_identify.bounded replies
  have conversation : Converses identify (reads log) (frames log) result := ⟨log, course, rfl, rfl⟩
  obtain ⟨trace, read, -, ends⟩ := ends_init conversation card rest
  rw [← split] at ends
  -- Any other conversation that the replies begin with is this one, since a run ends in one way.
  have decided {used rest' sent r} (starts : replies = used ++ₛ rest')
      (h : Converses identify used sent r) : result = r ∧ reads trace = used ∧ frames trace = sent := by
    obtain ⟨trace', rfl, rfl, ends'⟩ := ends_init h card rest'
    rw [← starts] at ends'
    cases ends.unique ends'
    exact ⟨rfl, rfl, rfl⟩
  refine ⟨result, rest, trace, read ▸ split, ⟨?_, ?_, ?_, ?_⟩, ends⟩
  · intro kind
    constructor
    · rintro rfl
      rcases identify_cases conversation with ⟨old, n, _, ⟨⟩, accepted, -⟩ | ⟨_, ⟨⟩, _⟩
      exact ⟨reads log, rest, old, n, split, accepted⟩
    · rintro ⟨used, rest', old, n, starts, accepted⟩
      exact (decided starts accepted.converses).1
  · intro e
    constructor
    · rintro rfl
      rcases identify_cases conversation with ⟨_, _, _, ⟨⟩, _⟩ | ⟨_, ⟨⟩, departs⟩
      exact ⟨reads log, rest, split, departs⟩
    · rintro ⟨used, rest', starts, departs⟩
      obtain ⟨sent, refused⟩ := departs.converses
      exact (decided starts refused).1
  · intro used rest' old n kind starts accepted
    exact (decided starts accepted.converses).2
  · intro used rest' e starts departs
    obtain ⟨sent, refused⟩ := departs.converses
    exact (decided starts refused).2.1

end BoardSupport.SdCard
