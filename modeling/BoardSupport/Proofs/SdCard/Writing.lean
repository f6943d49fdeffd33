import BoardSupport.Proofs.SdCard.Transfers

/-! A block is written once, after the card has said that it is ready, or not at all. -/
namespace BoardSupport.SdCard

open Spi Program

section Settle

variable {used : List UInt8}

private def judgeResponse : Option UInt8 → Except SdError Unit
  | some t => if t &&& 0x1F = 0x05 then .ok () else .error (.writeRejected t)
  | none => .error .timeout

private def judgeWaiting : Option UInt8 → Except SdError Unit
  | some _ => .ok ()
  | none => .error .busyTimeout

private theorem awaitAccepted_eq : awaitAccepted.run =
    Channel.readUntil (· != 0xFF) 4096 >>= fun found => .done (judgeResponse found) := by
  change Channel.readUntil (· != 0xFF) 4096 >>= _ = _
  refine congrArg _ (funext fun found => ?_)
  cases found <;> rfl

private theorem awaitWritten_eq : awaitWritten.run =
    Channel.readUntil (· != 0x00) 65536 >>= fun found => .done (judgeWaiting found) := by
  change Channel.readUntil (· != 0x00) 65536 >>= _ = _
  refine congrArg _ (funext fun found => ?_)
  cases found <;> rfl

private def settle : Session Unit := awaitAccepted >>= fun _ => awaitWritten

private theorem reads_settle {r : Except SdError Unit} :
    Reads settle.run used r ↔ Settles used r := by
  rw [settle, reads_session_bind]
  simp only [awaitAccepted_eq, awaitWritten_eq, reads_judged]
  constructor
  · rintro (⟨e, rfl, ⟨t, judged, answered⟩ | ⟨⟨⟩, rfl⟩⟩ |
      ⟨_, response, rest, rfl, ⟨t, judged, answered⟩ | ⟨⟨⟩, _⟩, waited⟩)
    · by_cases accepted : t &&& 0x1F = 0x05
      · rw [judgeResponse, if_pos accepted] at judged
        cases judged
      · rw [judgeResponse, if_neg accepted] at judged
        cases judged
        exact .rejected answered accepted
    · exact .mute
    · by_cases accepted : t &&& 0x1F = 0x05
      · rcases waited with ⟨v, rfl, idle⟩ | ⟨rfl, rfl⟩
        · exact .written answered accepted idle
        · exact .busy answered accepted
      · rw [judgeResponse, if_neg accepted] at judged
        cases judged
  · intro settled
    cases settled with
    | mute => exact .inl ⟨_, rfl, .inr ⟨rfl, rfl⟩⟩
    | rejected answered refused => exact .inl ⟨_, rfl, .inl ⟨_, (if_neg refused).symm, answered⟩⟩
    | busy answered accepted =>
      exact .inr ⟨(), _, _, rfl, .inl ⟨_, (if_pos accepted).symm, answered⟩, .inr ⟨rfl, rfl⟩⟩
    | written answered accepted idle =>
      exact .inr ⟨(), _, _, rfl, .inl ⟨_, (if_pos accepted).symm, answered⟩, .inl ⟨_, rfl, idle⟩⟩

private theorem reading_settle : settle.run.Bounded (Channel.Request.read = ·) :=
  bounded_session_bind (bounded_awaitAccepted rfl) fun _ => bounded_awaitWritten rfl

end Settle

section Deposit

variable {address : UInt32} {data : List UInt8} {log : List (Exchange Channel)} {r : Except SdError Unit}

/-- The bytes of a block, between idle clocks and the token on the one side and two bytes that stand
for a check on the other. -/
def burst (data : List UInt8) : List UInt8 := [0xFF, 0xFE] ++ data ++ [0xFF, 0xFF]

private theorem deposit_eq : deposit address data =
    always (Channel.writeAll (commandBytes 24 address 0)) >>= fun _ => expectReady 24 >>= fun _ =>
      always (Channel.writeAll (burst data)) >>= fun _ => settle := rfl

private theorem follows_handOver (data : List UInt8) :
    Follows (always (Channel.writeAll (burst data)) >>= fun _ => settle).run log r ↔
      ∃ settled, log = sending (burst data) ++ taking settled ∧ Settles settled r := by
  rw [follows_sending_bind]
  simp only [follows_reading reading_settle, reads_settle]
  constructor
  · rintro ⟨_, rfl, settled, rfl, settles⟩
    exact ⟨settled, rfl, settles⟩
  · rintro ⟨settled, rfl, settles⟩
    exact ⟨_, rfl, settled, rfl, settles⟩

private theorem follows_expectReady {r : Except SdError Unit} :
    Follows (expectReady 24).run log r ↔ ∃ bytes, log = taking bytes ∧
      ((∃ e, r = .error e ∧ BadStatus 24 (· = 0x00) bytes e) ∨ r = .ok () ∧ IsStatus bytes 0x00) := by
  simp only [follows_reading (bounded_expectReady rfl 24), reads_expectReady]

/-- The data go out if the card is ready, and else not. -/
private theorem follows_deposit : Follows (deposit address data).run log r ↔
    (∃ e bytes, r = .error e ∧ BadStatus 24 (· = 0x00) bytes e ∧
      log = sending (commandBytes 24 address 0) ++ taking bytes) ∨
    ∃ status settled, IsStatus status 0x00 ∧ Settles settled r ∧
      log = sending (commandBytes 24 address 0) ++ taking status ++ sending (burst data) ++
        taking settled := by
  rw [deposit_eq, follows_sending_bind]
  constructor
  · rintro ⟨after, rfl, course⟩
    rcases follows_session_bind.mp course with ⟨e, rfl, failed⟩ | ⟨_, _, _, rfl, went, rest⟩
    · obtain ⟨bytes, rfl, ⟨_, ⟨⟩, bad⟩ | ⟨⟨⟩, _⟩⟩ := follows_expectReady.mp failed
      exact .inl ⟨e, bytes, rfl, bad, rfl⟩
    · obtain ⟨status, rfl, ⟨_, ⟨⟩, _⟩ | ⟨-, ready⟩⟩ := follows_expectReady.mp went
      obtain ⟨settled, rfl, settles⟩ := (follows_handOver data).mp rest
      exact .inr ⟨status, settled, ready, settles, by simp only [List.append_assoc]⟩
  · rintro (⟨e, bytes, rfl, bad, rfl⟩ | ⟨status, settled, ready, settles, rfl⟩)
    · have failed := follows_expectReady.mpr ⟨bytes, rfl, .inl ⟨e, rfl, bad⟩⟩
      exact ⟨_, rfl, follows_session_bind.mpr (.inl ⟨e, rfl, failed⟩)⟩
    · have went := follows_expectReady.mpr ⟨status, rfl, .inr ⟨rfl, ready⟩⟩
      have rest := (follows_handOver data).mpr ⟨settled, rfl, settles⟩
      exact ⟨_, by simp only [List.append_assoc],
        follows_session_bind.mpr (.inr ⟨(), _, _, rfl, went, rest⟩)⟩

/-- What answers command 24 settles how the writing ends. -/
private theorem reads_deposit {used : List UInt8} :
    Reads (deposit address data).run used r ↔ Deposits used r := by
  constructor
  · rintro ⟨log, course, rfl⟩
    rcases follows_deposit.mp course with
      ⟨e, bytes, rfl, bad, rfl⟩ | ⟨status, settled, ready, settles, rfl⟩
    · rw [reads_append, reads_sending, reads_taking]
      exact .unready bad
    · simp only [reads_append, reads_sending, reads_taking, List.nil_append, List.append_nil]
      exact .ready ready settles
  · rintro (bad | ⟨ready, settles⟩)
    · refine ⟨_, follows_deposit.mpr (.inl ⟨_, used, rfl, bad, rfl⟩), ?_⟩
      rw [reads_append, reads_sending, reads_taking, List.nil_append]
    · refine ⟨_, follows_deposit.mpr (.inr ⟨_, _, ready, settles, rfl⟩), ?_⟩
      simp only [reads_append, reads_sending, reads_taking, List.nil_append, List.append_nil]

end Deposit

/-- What passes when a block is written. The data go out once, after the card has said that it is
ready, and not at all if it does not. -/
structure Handed (address : UInt32) (data : List UInt8) (replies : Stream' UInt8)
    (trace : List (Exchange Channel)) : Prop where
  ready : ∀ status rest, replies = status ++ₛ rest → IsStatus status 0x00 → ∃ settled,
    trace = frameOf (sending ([0x58] ++ Word.toBigEndian address ++ [0x01]) ++ taking status ++
      sending ([0xFF, 0xFE] ++ data ++ [0xFF, 0xFF]) ++ taking settled)
  unready : (∀ status rest, replies = status ++ₛ rest → ¬ IsStatus status 0x00) →
    trace = frameOf (sending ([0x58] ++ Word.toBigEndian address ++ [0x01]) ++ taking (reads trace))

section Write

private theorem handed_of_follows {address : UInt32} {data : List UInt8} {replies rest : Stream' UInt8}
    {log : List (Exchange Channel)} {r : Except SdError Unit}
    (course : Follows (deposit address data).run log r) (split : replies = reads log ++ₛ rest) :
    Handed address data replies (frameOf log) := by
  have status_reads {bytes : List UInt8} (ready : IsStatus bytes 0x00) :
      Reads (expectReady 24).run bytes (.ok ()) := reads_expectReady.mpr (.inr ⟨rfl, ready⟩)
  rcases follows_deposit.mp course with
    ⟨e, bytes, rfl, bad, rfl⟩ | ⟨status, settled, ready, settles, rfl⟩
  · have used : reads (sending (commandBytes 24 address 0) ++ taking bytes) = bytes := by
      rw [reads_append, reads_sending, reads_taking, List.nil_append]
    rw [used] at split
    constructor
    · intro status later split' ready
      have failed : Reads (expectReady 24).run bytes (.error e) :=
        reads_expectReady.mpr (.inl ⟨e, rfl, bad⟩)
      cases (failed.unique (status_reads ready) (split.symm.trans split')).2
    · intro _
      rw [reads_frameOf, used]
      rfl
  · have used : reads (sending (commandBytes 24 address 0) ++ taking status ++ sending (burst data) ++
        taking settled) = status ++ settled := by
      simp only [reads_append, reads_sending, reads_taking, List.nil_append, List.append_nil]
    rw [used, Stream'.append_append_stream] at split
    constructor
    · intro status' later split' ready'
      have same := ((status_reads ready).unique (status_reads ready') (split.symm.trans split')).1
      exact ⟨settled, same ▸ rfl⟩
    · intro never
      exact absurd ready (never status _ split)

/-- Writing a block returns on every stream of replies. It announces the block in one frame, at its
address, hands the data over if the card is ready, and ends as the answers have it. What lies beyond the
reach of the card is refused before anything passes. -/
theorem writeBlock_exact (kind : Kind) (block : UInt32) (data : List UInt8) (replies : Stream' UInt8) :
    (Unreachable kind block →
      Ends answering.recorded (writeBlock (some kind) block data).run (replies, [])
        (.ok (.error (.addressOutOfRange block)) (replies, []))) ∧
    (¬ Unreachable kind block → ∃ address result rest trace,
      Located kind block address ∧
      Ends answering.recorded (writeBlock (some kind) block data).run (replies, [])
        (.ok result (rest, trace)) ∧
      replies = reads trace ++ₛ rest ∧
      Handed address data replies trace ∧
      Decided Deposits replies result (reads trace)) := by
  constructor
  · intro far
    rw [writeBlock, blockAddress_unreachable far]
    exact .done _ _
  · intro near
    obtain ⟨address, located, same⟩ := blockAddress_located near
    rw [writeBlock, same]
    have reading : (deposit address data).run.Bounded fun _ => True :=
      bounded_deposit trivial (fun _ => trivial) address data
    obtain ⟨log, result, rest, course, split⟩ := exists_course reading replies
    have whole : Follows (framed (deposit address data)).run (frameOf log) result :=
      follows_framed.mpr ⟨log, rfl, course⟩
    have ends := ends_of_follows whole rest []
    rw [reads_frameOf, ← split] at ends
    refine ⟨address, result, rest, frameOf log, located, ends, ?_, handed_of_follows course split, ?_⟩
    · rw [reads_frameOf, ← split]
    · have grammar (bytes : List UInt8) (r : Except SdError Unit) :
          Reads (deposit address data).run bytes (id r) ↔ Deposits bytes r := reads_deposit
      rw [reads_frameOf]
      exact decided_of_reads Function.injective_id grammar ((grammar _ _).mp ⟨log, course, rfl⟩) split

end Write

end BoardSupport.SdCard
