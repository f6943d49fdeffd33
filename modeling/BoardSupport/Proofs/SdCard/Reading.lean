import BoardSupport.Proofs.SdCard.Transfers

/-! A block is read exactly, or its buffer is left as it was. -/
namespace BoardSupport.SdCard

open Spi Program

section Bulk

variable {n : Nat} {used : List UInt8}

private theorem reads_each (places : List UInt8) {data : List UInt8} :
    Reads (places.mapM fun _ => Channel.read) used data ↔
      used = data ∧ data.length = places.length := by
  induction places generalizing used data with
  | nil =>
    rw [List.mapM_nil, pure_eq_done, reads_done, List.length_nil, List.length_eq_zero_iff]
    constructor
    · rintro ⟨rfl, rfl⟩
      exact ⟨rfl, rfl⟩
    · rintro ⟨rfl, rfl⟩
      exact ⟨rfl, rfl⟩
  | cons place places ih =>
    simp only [List.mapM_cons, reads_bind, reads_read, ih, pure_eq_done, reads_done]
    constructor
    · rintro ⟨b, _, _, rfl, rfl, data, first, _, rfl, ⟨rfl, length⟩, rfl, rfl⟩
      exact ⟨by simp, by simp [length]⟩
    · rintro ⟨rfl, length⟩
      obtain ⟨b, data, rfl⟩ := List.exists_cons_of_length_eq_add_one length
      exact ⟨b, [b], data, rfl, rfl, data, data, [], by simp, ⟨rfl, by simpa using length⟩, rfl, rfl⟩

private theorem reads_fill {buffer filled : Vector UInt8 n} :
    Reads (Channel.fill buffer) used filled ↔ used = filled.toList := by
  have whole : Reads (Vector.toList <$> Channel.fill buffer) used filled.toList ↔
      used = filled.toList := by
    rw [fill_toList, reads_each]
    simp
  rw [← whole]
  change _ ↔ Reads (Channel.fill buffer >>= fun filled => .done filled.toList) used filled.toList
  simp only [reads_bind, reads_done]
  constructor
  · intro h
    exact ⟨filled, used, [], (List.append_nil used).symm, h, rfl, rfl⟩
  · rintro ⟨other, first, _, rfl, h, rfl, same⟩
    obtain rfl := Vector.toList_inj.mp same
    rwa [List.append_nil]

private theorem readAfter_eq (earlier places : List UInt8) :
    Channel.readAfter earlier places.length =
      (earlier.reverse ++ ·) <$> places.mapM fun _ => Channel.read := by
  induction places generalizing earlier with
  | nil => simp [Channel.readAfter, -pure_eq_done]
  | cons place places ih =>
    simp [Channel.readAfter, ih, List.mapM_cons, map_eq_pure_bind, -pure_eq_done, -bind_pure_comp]

private theorem reads_readAll {data : List UInt8} :
    Reads (Channel.readAll n) used data ↔ used = data ∧ data.length = n := by
  have whole := readAfter_eq [] (List.replicate n 0)
  rw [List.length_replicate] at whole
  rw [Channel.readAll, whole]
  simp [reads_each]

end Bulk

/-- How a caller finds a buffer, by what has come of reading a block into it. -/
def leaving (before : Block) : Except SdError Block → Except SdError Unit × Block
  | .ok block => (.ok (), block)
  | .error e => (.error e, before)

theorem leaving_injective (before : Block) : Function.Injective (leaving before) := by
  intro outcome other same
  cases outcome with
  | ok block => cases other with
    | ok other => exact congrArg Except.ok (Prod.mk.inj same).2
    | error e => cases same
  | error e => cases other with
    | ok other => cases same
    | error other => exact congrArg Except.error (Except.error.inj (Prod.mk.inj same).1)

section Fetch

variable {used : List UInt8} {before : Block}

private def judgeToken : Option UInt8 → Except SdError Unit
  | some t => if t = 0xFE then .ok () else .error (.badToken t)
  | none => .error .timeout

private theorem awaitData_eq : awaitData.run =
    Channel.readUntil (· != 0xFF) 4096 >>= fun found => .done (judgeToken found) := by
  change Channel.readUntil (· != 0xFF) 4096 >>= _ = _
  congr 1
  funext found
  cases found with
  | none => rfl
  | some t =>
    by_cases token : t = 0xFE
    · subst token
      rfl
    · simp only [judgeToken, if_neg token]
      rfl

private def awaitBlock : Session Unit := expectReady 17 >>= fun _ => awaitData

private theorem reads_awaitBlock {r : Except SdError Unit} : Reads awaitBlock.run used r ↔
    (∃ e, r = .error e ∧ Fetches used (.error e)) ∨
      r = .ok () ∧ ∃ status token, used = status ++ token ∧ IsStatus status 0x00 ∧
        Breaks 0xFF 4095 token 0xFE := by
  rw [awaitBlock, reads_session_bind]
  simp only [reads_expectReady, awaitData_eq, reads_judged]
  constructor
  · rintro (⟨e, rfl, ⟨_, ⟨⟩, bad⟩ | ⟨⟨⟩, _⟩⟩ | ⟨_, status, token, rfl, ⟨_, ⟨⟩, _⟩ | ⟨-, ready⟩, found⟩)
    · exact .inl ⟨e, rfl, .unready bad⟩
    rcases found with ⟨t, rfl, answered⟩ | ⟨rfl, rfl⟩
    · by_cases data : t = 0xFE
      · subst data
        exact .inr ⟨rfl, status, token, rfl, ready, answered⟩
      · exact .inl ⟨_, if_neg data, .refused ready answered data⟩
    · exact .inl ⟨_, rfl, .mute ready⟩
  · rintro (⟨e, rfl, fetched⟩ | ⟨rfl, status, token, rfl, ready, answered⟩)
    · cases fetched with
      | unready bad => exact .inl ⟨e, rfl, .inl ⟨e, rfl, bad⟩⟩
      | mute ready => exact .inr ⟨(), _, _, rfl, .inr ⟨trivial, ready⟩, .inr ⟨rfl, rfl⟩⟩
      | refused ready answered wrong =>
        exact .inr ⟨(), _, _, rfl, .inr ⟨trivial, ready⟩, .inl ⟨_, (if_neg wrong).symm, answered⟩⟩
    · exact .inr ⟨(), status, token, rfl, .inr ⟨trivial, ready⟩, .inl ⟨0xFE, rfl, answered⟩⟩

private def receive (before : Block) : Except SdError Unit → Program Channel (Except SdError Unit × Block)
  | .error e => .done (.error e, before)
  | .ok () => Channel.fill before >>= fun filled => Channel.readAll 2 >>= fun _ => .done (.ok (), filled)

private theorem fetchInto_eq (address : UInt32) : fetchInto address before =
    Channel.writeAll (commandBytes 17 address 0) >>= fun _ => awaitBlock.run >>= receive before := by
  rfl

/-- What answers command 17 settles what the caller finds. -/
private theorem reads_receive {x : Except SdError Unit × Block} :
    Reads (awaitBlock.run >>= receive before) used x ↔
      ∃ outcome, Fetches used outcome ∧ x = leaving before outcome := by
  simp only [reads_bind, reads_awaitBlock]
  constructor
  · rintro ⟨_, first, rest, rfl, ⟨e, rfl, fetched⟩ | ⟨rfl, status, token, rfl, ready, answered⟩, later⟩
    · obtain ⟨rfl, rfl⟩ := reads_done.mp later
      exact ⟨.error e, (List.append_nil first).symm ▸ fetched, rfl⟩
    · simp only [receive, reads_bind, reads_fill, reads_readAll, reads_done] at later
      obtain ⟨block, _, _, rfl, rfl, checks, _, _, rfl, ⟨rfl, length⟩, rfl, rfl⟩ := later
      obtain ⟨check0, check1, rfl⟩ := List.length_eq_two.mp length
      refine ⟨.ok block, ?_, rfl⟩
      have whole : Fetches (status ++ token ++ block.toList ++ [check0, check1]) (.ok block) :=
        .delivered ready answered
      simpa using whole
  · rintro ⟨outcome, fetched, rfl⟩
    cases outcome with
    | error e =>
      exact ⟨_, used, [], (List.append_nil used).symm, .inl ⟨e, rfl, fetched⟩, reads_done.mpr ⟨rfl, rfl⟩⟩
    | ok block => cases fetched with
      | @delivered status token _ check0 check1 ready answered =>
        refine ⟨.ok (), status ++ token, block.toList ++ [check0, check1], by simp,
          .inr ⟨rfl, status, token, rfl, ready, answered⟩, ?_⟩
        simp only [receive, reads_bind, reads_fill, reads_readAll, reads_done]
        exact ⟨block, _, _, rfl, rfl, [check0, check1], _, [], (List.append_nil _).symm, ⟨rfl, rfl⟩,
          rfl, rfl⟩

private theorem bounded_receive (before : Block) :
    (awaitBlock.run >>= receive before).Bounded (Channel.Request.read = ·) := by
  have awaited : awaitBlock.run.Bounded (Channel.Request.read = ·) :=
    bounded_session_bind (bounded_expectReady rfl 17) fun _ => bounded_awaitData rfl
  refine awaited.bind fun r => ?_
  cases r with
  | error e => trivial
  | ok _ =>
    exact (bounded_fill rfl before).bind fun _ => (bounded_readAfter rfl [] 2).bind fun _ => trivial

/-- Reading a block returns on every stream of replies. It asks for the block in one frame, at an
address of its own, and the answers to that decide whether the buffer holds the block or is as it was.
What lies beyond the reach of the card is refused before anything passes. -/
theorem readInto_exact (kind : Kind) (block : UInt32) (before : Block) (replies : Stream' UInt8) :
    (Unreachable kind block →
      Ends answering.recorded (readInto (some kind) block before) (replies, [])
        (.ok (.error (.addressOutOfRange block), before) (replies, []))) ∧
    (¬ Unreachable kind block → ∃ address outcome rest trace,
      Located kind block address ∧
      Ends answering.recorded (readInto (some kind) block before) (replies, [])
        (.ok (leaving before outcome) (rest, trace)) ∧
      replies = reads trace ++ₛ rest ∧
      trace = frameOf (sending ([0x51] ++ Word.toBigEndian address ++ [0x01]) ++ taking (reads trace)) ∧
      Decided Fetches replies outcome (reads trace)) ∧
    ∀ other address, Located kind block address → Located kind other address → block = other := by
  refine ⟨?_, ?_, fun other address here there => here.block_unique there⟩
  · intro far
    rw [readInto, blockAddress_unreachable far]
    exact .done _ _
  · intro near
    obtain ⟨address, located, same⟩ := blockAddress_located near
    rw [readInto, same]
    obtain ⟨log, x, rest, course, split⟩ := exists_course (bounded_receive before) replies
    obtain ⟨outcome, fetched, rfl⟩ := reads_receive.mp ⟨log, course, rfl⟩
    have taken : taking (reads log) = log :=
      taking_reads fun x mem => (course.bounded (bounded_receive before) x mem).symm
    let trace := frameOf (sending (commandBytes 17 address 0) ++ log)
    have bytes : reads trace = reads log := by
      rw [reads_frameOf, reads_append, reads_sending, List.nil_append]
    have whole : Follows (whileSelected (fetchInto address before)) trace (leaving before outcome) :=
      follows_whileSelected.mpr ⟨_, rfl, follows_writeAll_bind.mpr ⟨log, rfl, course⟩⟩
    have grammar (bytes : List UInt8) (outcome : Except SdError Block) :
        Reads (awaitBlock.run >>= receive before) bytes (leaving before outcome) ↔
          Fetches bytes outcome := by
      rw [reads_receive]
      constructor
      · rintro ⟨other, fetched, same⟩
        rwa [leaving_injective before same]
      · exact fun fetched => ⟨outcome, fetched, rfl⟩
    have ends := ends_of_follows whole rest []
    rw [bytes, ← split] at ends
    refine ⟨address, outcome, rest, trace, located, ends, bytes ▸ split, ?_, ?_⟩
    · rw [bytes, taken]
      rfl
    · rw [bytes]
      exact decided_of_reads (leaving_injective before) grammar fetched split

end Fetch

end BoardSupport.SdCard
