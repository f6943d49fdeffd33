import BoardSupport.Proofs.SdCard.Answers

/-! A bring-up succeeds on exactly the answers of the grammar, and else fails with the error of the
first answer that departs from it. -/
namespace BoardSupport.SdCard

open Spi Program

/-- A session that checks a status ends with one that is not wanted, or goes on. -/
private theorem converses_checked {α : Type} {index check : UInt8} {argument : UInt32}
    {good : UInt8 → Prop} {used : List UInt8} {sent : List (List UInt8)} {r : Except SdError α}
    {next : R1 → Session α} (checks : ∀ v, ¬ good v → next ⟨v⟩ = throw (.command index ⟨v⟩)) :
    Converses (exchange index argument check readR1 >>= next) used sent r ↔
      (∃ e, r = .error e ∧ BadStatus index good used e ∧ sent = [frameBytes index argument check]) ∨
      ∃ status v rest later, used = status ++ rest ∧ sent = frameBytes index argument check :: later ∧
        IsStatus status v ∧ good v ∧ Converses (next ⟨v⟩) rest later r := by
  rw [converses_status]
  constructor
  · rintro (⟨rfl, rfl, rfl⟩ | ⟨status, v, rest, later, rfl, rfl, answered, after⟩)
    · exact .inl ⟨_, rfl, .silent, rfl⟩
    by_cases wanted : good v
    · exact .inr ⟨status, v, rest, later, rfl, rfl, answered, wanted, after⟩
    · rw [checks v wanted, converses_throw] at after
      obtain ⟨rfl, rfl, rfl⟩ := after
      rw [List.append_nil]
      exact .inl ⟨_, rfl, .other answered wanted, rfl⟩
  · rintro (⟨e, rfl, bad, rfl⟩ | ⟨status, v, rest, later, rfl, rfl, answered, -, after⟩)
    · cases bad with
      | silent => exact .inl ⟨rfl, rfl, rfl⟩
      | @other _ v answered unwanted =>
        refine .inr ⟨used, v, [], [], (List.append_nil _).symm, rfl, answered, ?_⟩
        rw [checks v unwanted]
        exact converses_throw.mpr ⟨rfl, rfl, rfl⟩
    · exact .inr ⟨status, v, rest, later, rfl, rfl, answered, after⟩

section Rounds

variable {old : Bool} {n : Nat} {used : List UInt8} {sent : List (List UInt8)}

/-- What follows the second status of a round, with so many tries left. -/
private def afterRound (old : Bool) (tries : Nat) (r1 : R1) : Session Unit :=
  if r1.isReady then pure () else if r1.hasErrors then throw (.command 41 r1) else
    always (Channel.delay 10) >>= fun _ => awaitReady (!old) tries

private def afterAnnouncement (old : Bool) (tries : Nat) (r1 : R1) : Session Unit :=
  if r1.hasErrors then throw (.command 55 r1) else
    exchange 41 (if old then 0 else 0x40000000) 0 readR1 >>= afterRound old tries

private theorem awaitReady_eq :
    awaitReady (!old) (n + 1) = exchange 55 0 0 readR1 >>= afterAnnouncement old n := by
  rw [awaitReady, sendOperatingCondition, bind_assoc]
  congr 1
  funext r1
  unfold afterAnnouncement
  cases old with
  | false => cases errors : r1.hasErrors <;> rfl
  | true => cases errors : r1.hasErrors <;> rfl

private theorem afterAnnouncement_fine {c : UInt8} (fine : Fine c) : afterAnnouncement old n ⟨c⟩ =
    exchange 41 (if old then 0 else 0x40000000) 0 readR1 >>= afterRound old n :=
  if_neg (not_not.mpr fine ∘ hasErrors_iff.mp)

private theorem afterAnnouncement_errors (c : UInt8) (bad : ¬ Fine c) :
    afterAnnouncement old n ⟨c⟩ = throw (.command 55 ⟨c⟩) :=
  if_pos (hasErrors_iff.mpr bad)

private theorem afterRound_errors (v : UInt8) (bad : ¬ Fine v) :
    afterRound old n ⟨v⟩ = throw (.command 41 ⟨v⟩) := by
  have unready : ¬ (R1.mk v).isReady := by
    intro ready
    rw [isReady_iff.mp ready] at bad
    exact bad (by decide)
  rw [afterRound, if_neg unready, if_pos (hasErrors_iff.mpr bad)]

variable {r : Except SdError Unit}

private theorem converses_afterRound_idle :
    Converses (afterRound old n ⟨0x01⟩) used sent r ↔ Converses (awaitReady (!old) n) used sent r :=
  converses_idle (bounded_call ⟨nofun, nofun⟩)

/-- A round fails with its first or its second status, or goes on with a fine one. -/
private theorem converses_round :
    Converses (awaitReady (!old) (n + 1)) used sent r ↔
      (∃ e, r = .error e ∧ BadStatus 55 Fine used e ∧ sent = [frameBytes 55 0 0]) ∨
      (∃ announced c bytes e, used = announced ++ bytes ∧ IsStatus announced c ∧ Fine c ∧
        r = .error e ∧ BadStatus 41 Fine bytes e ∧ sent = roundFrames old 1) ∨
      ∃ round v rest later, used = round ++ rest ∧ sent = roundFrames old 1 ++ later ∧
        Round round v ∧ Fine v ∧ Converses (afterRound old n ⟨v⟩) rest later r := by
  rw [awaitReady_eq, converses_checked afterAnnouncement_errors]
  refine or_congr_right ?_
  constructor
  · rintro ⟨announced, c, rest, later, rfl, rfl, first, fine, next⟩
    rw [afterAnnouncement_fine fine] at next
    rcases (converses_checked afterRound_errors).mp next with
      ⟨e, rfl, bad, rfl⟩ | ⟨answered, v, rest, later, rfl, rfl, second, fine_answer, after⟩
    · exact .inl ⟨announced, c, rest, e, rfl, first, fine, rfl, bad, rfl⟩
    · exact .inr ⟨_, v, rest, later, (List.append_assoc ..).symm, rfl, ⟨first, fine, second⟩,
        fine_answer, after⟩
  · rintro (⟨announced, c, bytes, e, rfl, first, fine, rfl, bad, rfl⟩ |
      ⟨round, v, rest, later, rfl, rfl, ⟨first, fine, second⟩, fine_answer, after⟩)
    · refine ⟨announced, c, bytes, _, rfl, rfl, first, fine, ?_⟩
      rw [afterAnnouncement_fine fine]
      exact (converses_checked afterRound_errors).mpr (.inl ⟨e, rfl, bad, rfl⟩)
    · refine ⟨_, _, _, _, List.append_assoc .., rfl, first, fine, ?_⟩
      rw [afterAnnouncement_fine fine]
      exact (converses_checked afterRound_errors).mpr
        (.inr ⟨_, v, rest, later, rfl, rfl, second, fine_answer, after⟩)

/-- The rounds end with a card that is ready, or they are stuck. -/
theorem awaitReady_cases {tries : Nat} (h : Converses (awaitReady (!old) tries) used sent r) :
    (∃ n < tries, r = .ok () ∧ Starts n used ∧ sent = roundFrames old (n + 1)) ∨
      ∃ e, r = .error e ∧ Stuck tries used e := by
  induction tries generalizing used sent with
  | zero =>
    obtain ⟨rfl, rfl, -⟩ := converses_throw.mp h
    exact .inr ⟨_, rfl, .idle⟩
  | succ tries ih =>
    rcases converses_round.mp h with ⟨e, rfl, bad, -⟩ |
      ⟨announced, c, bytes, e, rfl, first, fine, rfl, bad, -⟩ |
      ⟨round, v, rest, later, rfl, rfl, answered, fine, after⟩
    · exact .inr ⟨e, rfl, .announcement bad⟩
    · exact .inr ⟨e, rfl, .start first fine bad⟩
    -- A fine status is all zeros, which ends the wait, or idle, which costs a try.
    rcases fine.ready_or_idle with rfl | rfl
    · obtain ⟨rfl, rfl, rfl⟩ := converses_pure.mp after
      rw [List.append_nil]
      exact .inl ⟨0, by omega, rfl, .now answered, rfl⟩
    · rw [converses_afterRound_idle] at after
      rcases ih after with ⟨n, bound, rfl, starts, rfl⟩ | ⟨e, rfl, stuck⟩
      · exact .inl ⟨n + 1, by omega, rfl, .later answered starts, rfl⟩
      · exact .inr ⟨e, rfl, .later answered stuck⟩

private theorem converses_round_idle {round rest : List UInt8} {later : List (List UInt8)}
    (idle : Round round 0x01) (after : Converses (awaitReady (!old) n) rest later r) :
    Converses (awaitReady (!old) (n + 1)) (round ++ rest) (roundFrames old 1 ++ later) r := by
  have waited := converses_afterRound_idle.mpr after
  exact converses_round.mpr (.inr (.inr ⟨round, _, rest, later, rfl, rfl, idle, by decide, waited⟩))

/-- A card that starts within the tries is waited for. -/
theorem Starts.converses (starts : Starts n used) {tries : Nat} (soon : n < tries) :
    Converses (awaitReady (!old) tries) used (roundFrames old (n + 1)) (.ok ()) := by
  obtain ⟨tries, rfl⟩ : ∃ k, tries = k + 1 := ⟨tries - 1, by omega⟩
  induction starts generalizing tries with
  | @now round ready =>
    have after : Converses (afterRound old tries ⟨0x00⟩) [] [] (.ok ()) :=
      converses_pure.mpr ⟨rfl, rfl, rfl⟩
    exact converses_round.mpr
      (.inr (.inr ⟨round, _, [], [], (List.append_nil _).symm, rfl, ready, by decide, after⟩))
  | later idle starts ih =>
    obtain ⟨tries, rfl⟩ : ∃ k, tries = k + 1 := ⟨tries - 1, by omega⟩
    exact converses_round_idle idle (ih tries (by omega))

theorem Stuck.converses {tries : Nat} {e : SdError} (stuck : Stuck tries used e) :
    ∃ sent, Converses (awaitReady (!old) tries) used sent (.error e) := by
  induction stuck with
  | idle => exact ⟨[], converses_throw.mpr ⟨rfl, rfl, rfl⟩⟩
  | announcement bad => exact ⟨_, converses_round.mpr (.inl ⟨_, rfl, bad, rfl⟩)⟩
  | start first fine bad =>
    exact ⟨_, converses_round.mpr (.inr (.inl ⟨_, _, _, _, rfl, first, fine, rfl, bad, rfl⟩))⟩
  | later idle _ ih =>
    obtain ⟨sent, waited⟩ := ih
    exact ⟨_, converses_round_idle idle waited⟩

end Rounds

section Identify

variable {old : Bool} {n : Nat} {used : List UInt8} {sent : List (List UInt8)}
  {r : Except SdError Kind}

private def judge (answer : R1 × Ocr) : Session Kind :=
  if answer.1.hasErrors then throw (.command 58 answer.1) else
  if !answer.2.isPoweredUp then throw .notPoweredUp else
    pure (if answer.2.isHighCapacity then .highCapacity else .version2)

private theorem readCapacity_eq : readCapacity =
    exchange 58 0 0 (readLong fun r1 b0 b1 b2 b3 => (r1, ⟨Word.ofBigEndian b0 b1 b2 b3⟩)) >>= judge :=
  rfl

section Judge

variable {v b0 b1 b2 b3 : UInt8}

private theorem judge_errors {ocr : Ocr} (bad : ¬ Fine v) :
    judge (⟨v⟩, ocr) = throw (.command 58 ⟨v⟩) :=
  if_pos (hasErrors_iff.mpr bad)

private theorem judge_unpowered (fine : Fine v) (off : b0 &&& 0x80 = 0) :
    judge (⟨v⟩, ⟨Word.ofBigEndian b0 b1 b2 b3⟩) = throw .notPoweredUp := by
  have unpowered : ¬ (Ocr.mk (Word.ofBigEndian b0 b1 b2 b3)).isPoweredUp = true :=
    not_not.mpr off ∘ isPoweredUp_iff.mp
  rw [judge, if_neg (not_not.mpr fine ∘ hasErrors_iff.mp), if_pos (by simp [unpowered])]

private theorem judge_powered (fine : Fine v) (powered : b0 &&& 0x80 ≠ 0) :
    judge (⟨v⟩, ⟨Word.ofBigEndian b0 b1 b2 b3⟩) = pure (kindOf b0) := by
  rw [judge, if_neg (not_not.mpr fine ∘ hasErrors_iff.mp),
    if_neg (by simp [isPoweredUp_iff.mpr powered])]
  exact congrArg pure (if_congr isHighCapacity_iff rfl rfl)

end Judge

private theorem Conditions.converses {v b0 : UInt8} (h : Conditions used v b0)
    (judged : ∀ b1 b2 b3, judge (⟨v⟩, ⟨Word.ofBigEndian b0 b1 b2 b3⟩) = ExceptT.mk (.done r)) :
    Converses readCapacity used [frameBytes 58 0 0] r := by
  obtain @⟨status, v, b0, b1, b2, b3, answered⟩ := h
  rw [readCapacity_eq]
  refine converses_long.mpr (.inr ⟨status, v, b0, b1, b2, b3, [], [], (List.append_nil _).symm, rfl,
    answered, ?_⟩)
  rw [judged]
  exact converses_done.mpr ⟨rfl, rfl, rfl⟩

/-- The register is read from a card that is fine and powered up, or the bring-up fails. -/
private theorem converses_readCapacity : Converses readCapacity used sent r ↔
    (∃ e, r = .error e ∧ BadConditions used e ∧ sent = [frameBytes 58 0 0]) ∨
    ∃ v b0, Conditions used v b0 ∧ Fine v ∧ b0 &&& 0x80 ≠ 0 ∧ r = .ok (kindOf b0) ∧
      sent = [frameBytes 58 0 0] := by
  constructor
  · intro h
    rw [readCapacity_eq] at h
    rcases converses_long.mp h with
      ⟨rfl, rfl, rfl⟩ | ⟨status, v, b0, b1, b2, b3, rest, later, rfl, rfl, answered, next⟩
    · exact .inl ⟨_, rfl, .silent, rfl⟩
    by_cases fine : Fine v
    case neg =>
      rw [judge_errors fine, converses_throw] at next
      obtain ⟨rfl, rfl, rfl⟩ := next
      rw [List.append_nil]
      exact .inl ⟨_, rfl, .status ⟨answered⟩ fine, rfl⟩
    by_cases off : b0 &&& 0x80 = 0
    · rw [judge_unpowered fine off, converses_throw] at next
      obtain ⟨rfl, rfl, rfl⟩ := next
      rw [List.append_nil]
      exact .inl ⟨_, rfl, .unpowered ⟨answered⟩ fine off, rfl⟩
    · rw [judge_powered fine off, converses_pure] at next
      obtain ⟨rfl, rfl, rfl⟩ := next
      rw [List.append_nil]
      exact .inr ⟨v, b0, ⟨answered⟩, fine, off, rfl, rfl⟩
  · rintro (⟨e, rfl, bad, rfl⟩ | ⟨v, b0, answered, fine, powered, rfl, rfl⟩)
    · cases bad with
      | silent => exact converses_long.mpr (.inl ⟨rfl, rfl, rfl⟩)
      | status answered bad => exact answered.converses fun _ _ _ => judge_errors bad
      | unpowered answered fine off => exact answered.converses fun _ _ _ => judge_unpowered fine off
    · exact answered.converses fun _ _ _ => judge_powered fine powered

private def afterOpening (old : Bool) : Session Kind :=
  awaitReady (!old) 100 >>= fun _ => if old then pure .version1 else readCapacity

private theorem converses_afterOpening : Converses (afterOpening old) used sent r ↔
    (∃ e, r = .error e ∧ Converses (awaitReady (!old) 100) used sent (.error e)) ∨
      ∃ first second here later, used = first ++ second ∧ sent = here ++ later ∧
        Converses (awaitReady (!old) 100) first here (.ok ()) ∧
        Converses (if old then pure .version1 else readCapacity) second later r := by
  rw [afterOpening, converses_bind (framing_awaitReady _ 100)]
  constructor
  · rintro (failed | ⟨⟨⟩, started⟩)
    · exact .inl failed
    · exact .inr started
  · rintro (failed | started)
    · exact .inl failed
    · exact .inr ⟨(), started⟩

private def weigh (r7 : R7) : Session Kind :=
  if !r7.r1.isIllegal && !r7.isValid then throw (.interfaceCondition r7) else
    afterOpening r7.r1.isIllegal

private def greet (r1 : R1) : Session Kind :=
  if r1 ≠ ⟨R1.idleFlag⟩ then throw (.command 0 r1) else
    exchange 8 0x1AA 0x86 (readLong R7.ofBytes) >>= weigh

private theorem identify_eq : identify = exchange 0 0 0x94 readR1 >>= greet := rfl

private theorem greet_idle : greet ⟨0x01⟩ = exchange 8 0x1AA 0x86 (readLong R7.ofBytes) >>= weigh :=
  if_neg (not_not.mpr rfl)

private theorem greet_other (v : UInt8) (other : ¬ v = 0x01) :
    greet ⟨v⟩ = throw (.command 0 ⟨v⟩) :=
  if_pos fun same => other (R1.mk.inj same)

section Weigh

variable {c b0 b1 b2 b3 : UInt8}

private theorem weigh_old (illegal : c &&& 0x04 ≠ 0) :
    weigh (R7.ofBytes ⟨c⟩ b0 b1 b2 b3) = afterOpening true := by
  have flag : (R7.ofBytes ⟨c⟩ b0 b1 b2 b3).r1.isIllegal = true := isIllegal_iff.mpr illegal
  rw [weigh, flag]
  rfl

private theorem known_flag (known : c &&& 0x04 = 0) :
    (R7.ofBytes ⟨c⟩ b0 b1 b2 b3).r1.isIllegal = false :=
  Bool.eq_false_iff.mpr (not_not.mpr known ∘ isIllegal_iff.mp)

private theorem weigh_new (known : c &&& 0x04 = 0) (valid : b2 &&& 0x0F = 1 ∧ b3 = 0xAA) :
    weigh (R7.ofBytes ⟨c⟩ b0 b1 b2 b3) = afterOpening false := by
  rw [weigh, known_flag known, isValid_iff.mpr valid]
  rfl

private theorem weigh_refused (known : c &&& 0x04 = 0) (wrong : ¬ (b2 &&& 0x0F = 1 ∧ b3 = 0xAA)) :
    weigh (R7.ofBytes ⟨c⟩ b0 b1 b2 b3) = throw (.interfaceCondition (R7.ofBytes ⟨c⟩ b0 b1 b2 b3)) := by
  have invalid : (R7.ofBytes ⟨c⟩ b0 b1 b2 b3).isValid = false :=
    Bool.eq_false_iff.mpr (wrong ∘ isValid_iff.mp)
  rw [weigh, known_flag known, invalid]
  rfl

end Weigh

/-- The interface condition is refused, or the bring-up goes on with an old or a new card. -/
private theorem converses_interface :
    Converses (exchange 8 0x1AA 0x86 (readLong R7.ofBytes) >>= weigh) used sent r ↔
      (∃ e, r = .error e ∧ BadInterface used e ∧ sent = [frameBytes 8 0x1AA 0x86]) ∨
      ∃ interface old rest later, used = interface ++ rest ∧
        sent = frameBytes 8 0x1AA 0x86 :: later ∧ Interface interface old ∧
        Converses (afterOpening old) rest later r := by
  rw [converses_long]
  constructor
  · rintro (⟨rfl, rfl, rfl⟩ | ⟨status, c, b0, b1, b2, b3, rest, later, rfl, rfl, answered, next⟩)
    · exact .inl ⟨_, rfl, .silent, rfl⟩
    by_cases known : c &&& 0x04 = 0
    case neg =>
      rw [weigh_old known] at next
      exact .inr ⟨_, true, rest, later, rfl, rfl, .old answered known, next⟩
    by_cases valid : b2 &&& 0x0F = 1 ∧ b3 = 0xAA
    · rw [weigh_new known valid] at next
      obtain ⟨voltage, rfl⟩ := valid
      exact .inr ⟨_, false, rest, later, rfl, rfl, .new answered known voltage, next⟩
    · rw [weigh_refused known valid, converses_throw] at next
      obtain ⟨rfl, rfl, rfl⟩ := next
      rw [List.append_nil]
      exact .inl ⟨_, rfl, .refused answered known valid, rfl⟩
  · rintro (⟨e, rfl, bad, rfl⟩ | ⟨interface, old, rest, later, rfl, rfl, answered, next⟩)
    · cases bad with
      | silent => exact .inl ⟨rfl, rfl, rfl⟩
      | @refused status c b0 b1 b2 b3 answered known wrong =>
        refine .inr ⟨status, c, b0, b1, b2, b3, [], [], (List.append_nil _).symm, rfl, answered, ?_⟩
        rw [weigh_refused known wrong]
        exact converses_throw.mpr ⟨rfl, rfl, rfl⟩
    · cases answered with
      | old answered illegal =>
        refine .inr ⟨_, _, _, _, _, _, rest, later, rfl, rfl, answered, ?_⟩
        rwa [weigh_old illegal]
      | new answered known voltage =>
        refine .inr ⟨_, _, _, _, _, _, rest, later, rfl, rfl, answered, ?_⟩
        rwa [weigh_new known ⟨voltage, rfl⟩]

private theorem converses_opening : Converses identify used sent r ↔
    (∃ e, r = .error e ∧ BadStatus 0 (· = 0x01) used e ∧ sent = [frameBytes 0 0 0x94]) ∨
    (∃ reset bytes e, used = reset ++ bytes ∧ IsStatus reset 0x01 ∧ r = .error e ∧
      BadInterface bytes e ∧ sent = [frameBytes 0 0 0x94, frameBytes 8 0x1AA 0x86]) ∨
    ∃ opening old rest later, used = opening ++ rest ∧
      sent = frameBytes 0 0 0x94 :: frameBytes 8 0x1AA 0x86 :: later ∧ Opening opening old ∧
      Converses (afterOpening old) rest later r := by
  rw [identify_eq, converses_checked greet_other]
  refine or_congr_right ?_
  constructor
  · rintro ⟨reset, v, rest, later, rfl, rfl, idle, rfl, next⟩
    rw [greet_idle] at next
    rcases converses_interface.mp next with
      ⟨e, rfl, bad, rfl⟩ | ⟨interface, old, rest, later, rfl, rfl, answered, after⟩
    · exact .inl ⟨reset, rest, e, rfl, idle, rfl, bad, rfl⟩
    · exact .inr ⟨_, old, rest, later, (List.append_assoc ..).symm, rfl, ⟨idle, answered⟩, after⟩
  · rintro (⟨reset, bytes, e, rfl, idle, rfl, bad, rfl⟩ |
      ⟨opening, old, rest, later, rfl, rfl, ⟨idle, answered⟩, after⟩)
    · refine ⟨reset, _, bytes, _, rfl, rfl, idle, rfl, ?_⟩
      rw [greet_idle]
      exact converses_interface.mpr (.inl ⟨e, rfl, bad, rfl⟩)
    · refine ⟨_, _, _, _, List.append_assoc .., rfl, idle, rfl, ?_⟩
      rw [greet_idle]
      exact converses_interface.mpr (.inr ⟨_, old, rest, later, rfl, rfl, answered, after⟩)

/-- A bring-up ends by its answers, and what it has sent is settled if they are accepted. -/
theorem identify_cases (h : Converses identify used sent r) :
    (∃ old n kind, r = .ok kind ∧ Accepted used old n kind ∧ sent = bringUpFrames old n) ∨
      ∃ e, r = .error e ∧ Departs used e := by
  rcases converses_opening.mp h with ⟨e, rfl, bad, -⟩ | ⟨reset, bytes, e, rfl, idle, rfl, bad, -⟩ |
    ⟨opening, old, rest, later, rfl, rfl, opened, next⟩
  · exact .inr ⟨e, rfl, .reset bad⟩
  · exact .inr ⟨e, rfl, .interface idle bad⟩
  rcases converses_afterOpening.mp next with
    ⟨e, rfl, failed⟩ | ⟨starting, second, here, later, rfl, rfl, ready, last⟩
  · rcases awaitReady_cases failed with ⟨_, _, ⟨⟩, _⟩ | ⟨_, ⟨⟩, stuck⟩
    exact .inr ⟨e, rfl, .rounds opened stuck⟩
  rcases awaitReady_cases ready with ⟨n, bound, -, starts, rfl⟩ | ⟨_, ⟨⟩, _⟩
  have soon : n ≤ 99 := by omega
  -- Only a new card is asked for its register.
  cases old with
  | true =>
    obtain ⟨rfl, rfl, rfl⟩ := converses_pure.mp last
    rw [List.append_nil]
    exact .inl ⟨true, n, _, rfl, .old opened starts soon, by simp [bringUpFrames]⟩
  | false =>
    rw [← List.append_assoc]
    rcases converses_readCapacity.mp last with
      ⟨e, rfl, bad, -⟩ | ⟨v, b0, answered, fine, powered, rfl, rfl⟩
    · exact .inr ⟨e, rfl, .conditions opened starts soon bad⟩
    · exact .inl ⟨false, n, _, rfl, .new opened starts soon answered fine powered,
        by simp [bringUpFrames]⟩

private theorem converses_started {opening starting last : List UInt8} {later : List (List UInt8)}
    (opened : Opening opening old) (starts : Starts n starting) (soon : n ≤ 99)
    (rest : Converses (if old then pure .version1 else readCapacity) last later r) :
    Converses identify (opening ++ starting ++ last)
      (frameBytes 0 0 0x94 :: frameBytes 8 0x1AA 0x86 :: (roundFrames old (n + 1) ++ later)) r := by
  have ready : Converses (awaitReady (!old) 100) starting (roundFrames old (n + 1)) (.ok ()) :=
    starts.converses (by omega)
  have after := converses_afterOpening.mpr (.inr ⟨_, _, _, _, rfl, rfl, ready, rest⟩)
  rw [List.append_assoc]
  exact converses_opening.mpr (.inr (.inr ⟨_, _, _, _, rfl, rfl, opened, after⟩))

/-- Answers of the grammar are accepted. -/
theorem Accepted.converses {kind : Kind} (h : Accepted used old n kind) :
    Converses identify used (bringUpFrames old n) (.ok kind) := by
  cases h with
  | old opened starts soon =>
    have ended : Converses (pure Kind.version1) [] [] (.ok .version1) := converses_pure.mpr ⟨rfl, rfl, rfl⟩
    have whole := converses_started opened starts soon ended
    simpa [bringUpFrames] using whole
  | new opened starts soon answered fine powered =>
    have last := converses_readCapacity.mpr (.inr ⟨_, _, answered, fine, powered, rfl, rfl⟩)
    have whole := converses_started opened starts soon last
    simpa [bringUpFrames] using whole

/-- Answers that depart from the grammar are refused. -/
theorem Departs.converses {e : SdError} (h : Departs used e) :
    ∃ sent, Converses identify used sent (.error e) := by
  cases h with
  | reset bad => exact ⟨_, converses_opening.mpr (.inl ⟨e, rfl, bad, rfl⟩)⟩
  | interface idle bad =>
    exact ⟨_, converses_opening.mpr (.inr (.inl ⟨_, _, e, rfl, idle, rfl, bad, rfl⟩))⟩
  | rounds opened stuck =>
    obtain ⟨sent, waited⟩ := stuck.converses
    have after := converses_afterOpening.mpr (.inl ⟨e, rfl, waited⟩)
    exact ⟨_, converses_opening.mpr (.inr (.inr ⟨_, _, _, _, rfl, rfl, opened, after⟩))⟩
  | conditions opened starts soon bad =>
    have last := converses_readCapacity.mpr (.inl ⟨e, rfl, bad, rfl⟩)
    exact ⟨_, converses_started opened starts soon last⟩

end Identify

end BoardSupport.SdCard
