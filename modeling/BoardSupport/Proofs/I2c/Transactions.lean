import BoardSupport.Proofs.I2c.Listening
import Mathlib.Algebra.Group.Nat.Defs
import Mathlib.Data.List.Forall2

/-! Transactions one after another on an idle bus, as a target hears them. -/
namespace BoardSupport.I2c

open Program Target BitBang

/-- A transaction, how it was answered and what it did to the pins. -/
structure Turn where
  transaction : Transaction
  answer : Except I2cError Unit
  trace : List Pins.Request

/-- What a turn that begins on an idle bus keeps to. -/
structure Turn.Faithful (turn : Turn) : Prop where
  refused : turn.transaction.hasRead = true → turn.answer = .error .readUnsupported ∧ turn.trace = []
  accepted : turn.transaction.hasRead = false → turn.answer = .ok ()
  heard : ({} : Listener).hear turn.trace = expected turn.transaction
  /-- While the clock is high the data line falls once, at START, and then rises once, at STOP. -/
  swings : turn.transaction.hasRead = false → swings true true turn.trace = [false, true]
  levels : levelsAfter true true turn.trace = (true, true)

/-- Two transactions that differ only in how they cut what they write into operations. -/
def SameWrites (t t' : Transaction) : Prop :=
  t.address = t'.address ∧ t.hasRead = t'.hasRead ∧ t.written = t'.written

section Turns

variable {q : UInt32}

private theorem turn_exists {t : Transaction} (room : t.hasRead = false → Room q) :
    ∃ turn : Turn, turn.transaction = t ∧ turn.Faithful ∧
      Drives (transaction q t) turn.trace turn.answer ∧
      ∃ changes, Shows {} turn.trace {} (expected t) changes := by
  cases reads : t.hasRead with
  | true =>
    have nothing : expected t = [] := by simp [expected, reads]
    refine ⟨⟨t, _, []⟩, rfl, ?_, drives_refusal q reads, [], nothing ▸ Shows.nil _⟩
    exact ⟨fun _ => ⟨rfl, rfl⟩, fun writes => by simp [reads] at writes, nothing.symm,
      fun writes => by simp [reads] at writes, rfl⟩
  | false =>
    have shows := shows_write q reads
    refine ⟨⟨t, _, writeWave q t⟩, rfl, ?_, drives_write (room reads) reads, _, shows⟩
    exact ⟨fun refused => by simp [reads] at refused, fun _ => rfl, shows.hear_eq,
      fun _ => shows.swings_eq, shows.levels_eq⟩

private theorem turns_exist {ts : List Transaction} (room : ∀ t ∈ ts, t.hasRead = false → Room q) :
    ∃ turns : List Turn, turns.map Turn.transaction = ts ∧ (∀ turn ∈ turns, turn.Faithful) ∧
      Drives (ts.mapM (transaction q)) (turns.flatMap Turn.trace) (turns.map Turn.answer) ∧
      ∃ changes, Shows {} (turns.flatMap Turn.trace) {} (ts.flatMap expected) changes := by
  induction ts with
  | nil => exact ⟨[], rfl, by simp, drives_done _, [], Shows.nil _⟩
  | cons t ts ih =>
    obtain ⟨turn, same, faithful, drives, changes, shows⟩ := turn_exists (room t (by simp))
    obtain ⟨turns, sames, faithfuls, rest, laters, later⟩ := ih fun t' mem => room t' (by simp [mem])
    refine ⟨turn :: turns, ?_, ?_, ?_, changes ++ laters, shows.append later⟩
    · rw [List.map_cons, same, sames]
    · exact List.forall_mem_cons.mpr ⟨faithful, faithfuls⟩
    · rw [List.mapM_cons]
      have last : Drives (ts.mapM (transaction q) >>= fun answers => return turn.answer :: answers)
          (turns.flatMap Turn.trace ++ []) (turn.answer :: turns.map Turn.answer) :=
        rest.bind (drives_done _)
      rw [List.append_nil] at last
      exact drives.bind last

/-- Only the bytes count, not how they are cut into operations. -/
private theorem transaction_congr {t t' : Transaction} (same : SameWrites t t') :
    transaction q t' = transaction q t := by
  obtain ⟨address, reads, written⟩ := same
  unfold transaction
  rw [address, reads, written]

private theorem mapM_congr {ts ts' : List Transaction} (same : List.Forall₂ SameWrites ts ts') :
    ts'.mapM (transaction q) = ts.mapM (transaction q) := by
  induction same with
  | nil => rfl
  | cons here _ ih => rw [List.mapM_cons, List.mapM_cons, transaction_congr here, ih]

end Turns

/-- Transactions from an idle bus, if a clock period fits a word or all of them are refused: each is
heard as what was asked for, the whole trace as all of them in order, and no cut of what is written
into other operations makes any difference. -/
theorem transactions_faithful (q : UInt32) (ts : List Transaction) (rounds : Nat)
    (room : ∀ t ∈ ts, t.hasRead = false → q.toNat < 2 ^ 30) :
    ∃ turns : List Turn, turns.map Turn.transaction = ts ∧ (∀ turn ∈ turns, turn.Faithful) ∧
      (ts.mapM (transaction q)).run rounds Pins.wire [] =
        .ok (turns.map Turn.answer) (turns.flatMap Turn.trace) ∧
      ({} : Listener).hear (turns.flatMap Turn.trace) = ts.flatMap expected ∧
      ∀ ts', List.Forall₂ SameWrites ts ts' →
        (ts'.mapM (transaction q)).run rounds Pins.wire [] =
          .ok (turns.map Turn.answer) (turns.flatMap Turn.trace) := by
  have fits : ∀ t ∈ ts, t.hasRead = false → Room q := by
    intro t mem writes
    have short := room t mem writes
    unfold Room UInt32.size
    omega
  obtain ⟨turns, same, faithful, drives, changes, shows⟩ := turns_exist fits
  have ran := drives rounds []
  rw [List.nil_append] at ran
  refine ⟨turns, same, faithful, ran, shows.hear_eq, ?_⟩
  intro ts' cut
  rw [mapM_congr cut, ran]

/-- The longest quarter, a refusal between two transactions, an address of eight bits, and another cut
of the first transaction into operations. -/
theorem transactions_faithful_around_refusal :
    let q : UInt32 := 0x3FFFFFFF
    let ts : List Transaction := [⟨0x3C, [.write [0x00], .write [], .write [0xAF]]⟩,
      ⟨0x3C, [.write [0x01], .read 2]⟩, ⟨0xBC, []⟩]
    let cut : List Transaction := [⟨0x3C, [.write [0x00, 0xAF]]⟩,
      ⟨0x3C, [.write [0x01], .read 2]⟩, ⟨0xBC, [.write []]⟩]
    (∀ t ∈ ts, t.hasRead = false → q.toNat < 2 ^ 30) ∧ List.Forall₂ SameWrites ts cut ∧
    ∃ turns : List Turn, turns.map Turn.transaction = ts ∧ (∀ turn ∈ turns, turn.Faithful) ∧
      ({} : Listener).hear (turns.flatMap Turn.trace) = [.start, .byte 0x78 true, .byte 0x00 true,
        .byte 0xAF true, .stop, .start, .byte 0x78 true, .stop] ∧
      (ts.mapM (transaction q)).run 0 Pins.wire [] =
        .ok (turns.map Turn.answer) (turns.flatMap Turn.trace) ∧
      (cut.mapM (transaction q)).run 0 Pins.wire [] =
        .ok (turns.map Turn.answer) (turns.flatMap Turn.trace) := by
  intro q ts cut
  have room : ∀ t ∈ ts, t.hasRead = false → q.toNat < 2 ^ 30 := fun _ _ _ => by decide
  have same : List.Forall₂ SameWrites ts cut :=
    .cons ⟨rfl, rfl, rfl⟩ (.cons ⟨rfl, rfl, rfl⟩ (.cons ⟨rfl, rfl, rfl⟩ .nil))
  obtain ⟨turns, sames, faithful, ran, heard, cuts⟩ := transactions_faithful q ts 0 room
  have events : ts.flatMap expected = [.start, .byte 0x78 true, .byte 0x00 true, .byte 0xAF true,
      .stop, .start, .byte 0x78 true, .stop] := by decide
  exact ⟨room, same, turns, sames, faithful, heard.trans events, ran, cuts cut same⟩

section Overlong

variable {q : UInt32}

/-- If a clock period does not fit a word, a transaction gives up before its START. -/
private theorem run_overlong {t : Transaction} (overlong : ¬ Room q) (writes : t.hasRead = false)
    (rounds : Nat) : (transaction q t).run rounds Pins.wire [] =
      .error (.fault .mulOverflow) [.clock true, .data true] := by
  have gives_up : period q = .fault .mulOverflow := if_neg overlong
  rw [transaction, if_neg (by simp [writes]), start, gives_up]
  rfl

end Overlong

/-- A quarter of a period that is just too long for a word to hold the whole: nothing is heard of what
was asked for, because the master gives up. -/
theorem overlong_quarter_unheard :
    let t : Transaction := ⟨0x3C, [.write [0x00]]⟩
    ∃ trace, (∀ rounds, (transaction 0x40000000 t).run rounds Pins.wire [] =
        .error (.fault .mulOverflow) trace) ∧
      ({} : Listener).hear trace ≠ expected t :=
  ⟨_, run_overlong (by unfold Room; decide) rfl, by decide⟩

end BoardSupport.I2c
