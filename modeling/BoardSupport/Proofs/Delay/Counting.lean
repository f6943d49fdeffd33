import BoardSupport.Proofs.Bus.Polling
import BoardSupport.Proofs.Delay.Rounding
import BoardSupport.Timer

/-! Waiting by a count that runs freely and starts over at zero. What is counted is how far it has come
since the first look, so it does not matter where it stood or how often it starts over. -/
namespace BoardSupport.Timer

open Program

section Courses

variable {t : Timer} {log : List (Exchange Bus)}

/-- What passes before the count is looked at, if these words are found in the control register. -/
def opening (t : Timer) (seen found : UInt32) : List (Exchange Bus) :=
  if seen &&& runBit = 0 then
    Bus.looks t.control [seen, found] ++ [⟨.store t.control (found ||| runBit), ()⟩]
  else Bus.looks t.control [seen]

private def begin (t : Timer) : Program Bus Unit := do
  unless ← t.isRunning do t.start

private def watch (t : Timer) (ticks : UInt32) : Program Bus Unit := do
  let first ← t.time
  waitUntil do return (← t.time) - first ≥ ticks

theorem delay_eq (ns : UInt32) : t.delay ns =
    begin t >>= fun _ => watch t (Delay.cycles ns Platform.referenceClock) := by
  rw [delay, begin, bind_assoc]
  congr 1
  funext running
  cases running <;> rfl

theorem follows_start : Follows t.start log () ↔
    ∃ found, log = [⟨.load t.control, found⟩, ⟨.store t.control (found ||| runBit), ()⟩] := by
  simp only [start, Bus.setBits, Bus.modify]
  constructor
  · intro h
    obtain ⟨found, first, second, rfl, look, store⟩ := follows_bind.mp h
    obtain rfl := follows_call.mp look
    obtain rfl := follows_call.mp store
    exact ⟨found, rfl⟩
  · rintro ⟨found, rfl⟩
    exact follows_bind.mpr ⟨found, _, _, rfl, follows_call.mpr rfl, follows_call.mpr rfl⟩

private theorem begin_eq : begin t = Bus.load t.control >>= fun seen =>
    if seen &&& runBit = 0 then t.start else done () := by
  rw [begin, isRunning, bind_assoc]
  congr 1
  funext seen
  by_cases stopped : seen &&& runBit = 0 <;> simp [stopped]

theorem follows_begin : Follows (begin t) log () ↔ ∃ seen found, log = opening t seen found := by
  rw [begin_eq, follows_bind]
  constructor
  · rintro ⟨seen, first, second, rfl, look, rest⟩
    obtain rfl := follows_call.mp look
    by_cases stopped : seen &&& runBit = 0
    · rw [if_pos stopped] at rest
      obtain ⟨found, rfl⟩ := follows_start.mp rest
      exact ⟨seen, found, (if_pos stopped).symm⟩
    · rw [if_neg stopped] at rest
      obtain ⟨rfl, -⟩ := follows_done.mp rest
      exact ⟨seen, 0, (if_neg stopped).symm⟩
  · rintro ⟨seen, found, rfl⟩
    by_cases stopped : seen &&& runBit = 0
    · rw [opening, if_pos stopped]
      refine ⟨seen, [⟨.load t.control, seen⟩], _, rfl, follows_call.mpr rfl, ?_⟩
      rw [if_pos stopped]
      exact follows_start.mpr ⟨found, rfl⟩
    · rw [opening, if_neg stopped]
      refine ⟨seen, [⟨.load t.control, seen⟩], [], rfl, follows_call.mpr rfl, ?_⟩
      rw [if_neg stopped]
      exact .done _

theorem follows_watch {ticks : UInt32} : Follows (watch t ticks) log () ↔ ∃ first waiting last,
    log = Bus.looks t.count (first :: (waiting ++ [last])) ∧ (∀ word ∈ waiting, word - first < ticks) ∧
      ticks ≤ last - first := by
  rw [watch, follows_bind]
  constructor
  · rintro ⟨first, look, rest, rfl, looked, waited⟩
    obtain rfl := follows_call.mp looked
    obtain ⟨waiting, last, rfl, early, found⟩ := Bus.follows_await.mp waited
    refine ⟨first, waiting, last, rfl, ?_, of_decide_eq_true found⟩
    intro word member
    exact UInt32.not_le.mp (of_decide_eq_false (early word member))
  · rintro ⟨first, waiting, last, rfl, early, found⟩
    refine ⟨first, Bus.looks t.count [first], _, rfl, follows_call.mpr rfl, ?_⟩
    refine Bus.follows_await.mpr ⟨waiting, last, rfl, ?_, decide_eq_true found⟩
    intro word member
    exact decide_eq_false (UInt32.not_le.mpr (early word member))

/-- A wait starts the timer if it stands still, and then looks at the count until it has come far enough. -/
theorem follows_delay {ns : UInt32} : Follows (t.delay ns) log () ↔ ∃ seen found first waiting last,
    log = opening t seen found ++ Bus.looks t.count (first :: (waiting ++ [last])) ∧
      (∀ word ∈ waiting, word - first < Delay.cycles ns Platform.referenceClock) ∧
      Delay.cycles ns Platform.referenceClock ≤ last - first := by
  rw [delay_eq, follows_bind]
  constructor
  · rintro ⟨_, before, after, rfl, begun, watched⟩
    obtain ⟨seen, found, rfl⟩ := follows_begin.mp begun
    obtain ⟨first, waiting, last, rfl, early, late⟩ := follows_watch.mp watched
    exact ⟨seen, found, first, waiting, last, rfl, early, late⟩
  · rintro ⟨seen, found, first, waiting, last, rfl, early, late⟩
    exact ⟨(), _, _, rfl, follows_begin.mpr ⟨seen, found, rfl⟩,
      follows_watch.mpr ⟨first, waiting, last, rfl, early, late⟩⟩

/-- Only the control register is ever written, as the third thing that is done, when it has just been read
twice and the timer was found to stand still: the run bit is added to what was found last. -/
def Sparing (t : Timer) (log : List (Exchange Bus)) : Prop :=
  ∀ before x after address value, log = before ++ x :: after → x.request = .store address value →
    address = t.control ∧ ∃ seen found, before = [⟨.load t.control, seen⟩, ⟨.load t.control, found⟩] ∧
      seen &&& runBit = 0 ∧ value = found ||| runBit

private theorem begins_start (h : Begins t.start log) : ∃ found,
    log <+: [⟨.load t.control, found⟩, ⟨.store t.control (found ||| runBit), ()⟩] := by
  rcases begins_ask.mp h with rfl | ⟨found, rest, rfl, stores⟩
  · exact ⟨0, List.nil_prefix⟩
  rcases begins_ask.mp stores with rfl | ⟨reply, rest, rfl, ends⟩
  · exact ⟨found, by simp⟩
  obtain rfl := begins_done.mp ends
  exact ⟨found, List.prefix_rfl⟩

private theorem begins_begin (h : Begins (begin t) log) : ∃ seen found, log <+: opening t seen found := by
  rw [begin_eq] at h
  rcases begins_ask.mp h with rfl | ⟨seen, rest, rfl, next⟩
  · exact ⟨0, 0, List.nil_prefix⟩
  change Begins (if seen &&& runBit = 0 then t.start else done ()) rest at next
  by_cases stopped : seen &&& runBit = 0
  · rw [if_pos stopped] at next
    obtain ⟨found, part⟩ := begins_start next
    refine ⟨seen, found, ?_⟩
    rw [opening, if_pos stopped]
    exact (List.prefix_cons_inj _).mpr part
  · rw [if_neg stopped] at next
    obtain rfl := begins_done.mp next
    refine ⟨seen, 0, ?_⟩
    rw [opening, if_neg stopped]
    exact List.prefix_rfl

private theorem confined_watch {ticks : UInt32} :
    (watch t ticks).Confined (· = Bus.Request.load t.count) := by
  have look : t.time.Confined (· = Bus.Request.load t.count) := confined_call rfl
  exact look.bind fun _ => confined_waitUntil (look.bind fun _ => trivial)

private theorem sparing_of_prefix {seen found : UInt32} {later : List (Exchange Bus)}
    (part : log <+: opening t seen found ++ later) (quiet : ∀ x ∈ later, x.request = .load t.count) :
    Sparing t log := by
  obtain ⟨rest, whole⟩ := part
  rintro before x after address value rfl stored
  rw [List.append_assoc, List.cons_append] at whole
  -- Past the opening there are only loads.
  have early (skipped : List (Exchange Bus)) : skipped ++ x :: (after ++ rest) ≠ later := by
    rintro rfl
    rw [quiet x (by simp)] at stored
    cases stored
  by_cases stopped : seen &&& runBit = 0
  · rw [opening, if_pos stopped] at whole
    rcases before with _ | ⟨y, _ | ⟨z, _ | ⟨w, before⟩⟩⟩
    · obtain ⟨rfl, -⟩ := List.cons.inj whole
      cases stored
    · obtain ⟨rfl, second⟩ := List.cons.inj whole
      obtain ⟨rfl, -⟩ := List.cons.inj second
      cases stored
    · obtain ⟨rfl, second⟩ := List.cons.inj whole
      obtain ⟨rfl, third⟩ := List.cons.inj second
      obtain ⟨rfl, -⟩ := List.cons.inj third
      cases stored
      exact ⟨rfl, seen, found, rfl, stopped, rfl⟩
    · obtain ⟨-, second⟩ := List.cons.inj whole
      obtain ⟨-, third⟩ := List.cons.inj second
      exact absurd (List.cons.inj third).2 (early before)
  · rw [opening, if_neg stopped] at whole
    rcases before with _ | ⟨y, before⟩
    · obtain ⟨rfl, -⟩ := List.cons.inj whole
      cases stored
    · exact absurd (List.cons.inj whole).2 (early before)

/-- Whatever is replied, and however long the wait has been going on. -/
theorem sparing_delay {ns : UInt32} (h : Begins (t.delay ns) log) : Sparing t log := by
  rw [delay_eq] at h
  rcases begins_bind.mp h with begun | ⟨_, first, second, rfl, begun, watched⟩
  · obtain ⟨seen, found, part⟩ := begins_begin begun
    have whole : log <+: opening t seen found ++ [] := by rwa [List.append_nil]
    exact sparing_of_prefix whole (by simp)
  · obtain ⟨seen, found, rfl⟩ := follows_begin.mp begun
    exact sparing_of_prefix List.prefix_rfl (watched.confined confined_watch)

end Courses

section Counts

variable {t : Timer} {replies left : Address → Stream' UInt32} {log : List (Exchange Bus)}

theorem cycles_reference (ns : UInt32) :
    (Delay.cycles ns Platform.referenceClock).toNat = ⌈(ns.toNat / 20 : ℚ)⌉₊ := by
  have clock : Platform.referenceClock.toNat = 50000000 := rfl
  have ticks : Delay.ceilDiv (ns.toNat * 50000000) (10 ^ 9) = Delay.ceilDiv ns.toNat 20 := by
    apply eq_of_forall_ge_iff
    intro n
    rw [Delay.ceilDiv_le_iff (by decide), Delay.ceilDiv_le_iff (by decide)]
    omega
  have fits : Delay.ceilDiv ns.toNat 20 ≤ 2 ^ 32 - 1 := by
    have word := ns.toNat_lt
    rw [Delay.ceilDiv_le_iff (by decide)]
    omega
  rw [Delay.cycles_toNat, clock, ticks, Nat.min_eq_left fits, ← Delay.natCeil_div (by decide)]
  norm_num

/-- Words that count on and on say how far the count has come, short of whole rounds. -/
theorem toNat_lapse {a b : Nat} (le : a ≤ b) :
    (UInt32.ofNat b - UInt32.ofNat a).toNat = (b - a) % 2 ^ 32 := by
  rw [UInt32.toNat_sub, UInt32.toNat_ofNat', UInt32.toNat_ofNat']
  omega

private theorem count_ne_control : t.count ≠ t.control := by
  intro same
  exact absurd ((UInt64.add_right_inj _).mp same) (by decide)

private theorem answers_store {address : Address} {value : UInt32} :
    Bus.answering.Answers replies [⟨.store address value, ()⟩] left ↔ left = replies := by
  rw [answers_cons]
  simp [Bus.answering, answers_nil]

/-- What a bus says to the opening of a wait. -/
def openingOn (t : Timer) (replies : Address → Stream' UInt32) : List (Exchange Bus) :=
  opening t ((replies t.control).get 0) ((replies t.control).get 1)

private theorem answers_looks_control (t : Timer) (replies : Address → Stream' UInt32) (n : Nat) : ∃ mid,
    Bus.answering.Answers replies (Bus.looks t.control ((replies t.control).take n)) mid ∧
      mid t.count = replies t.count := by
  refine ⟨_, Bus.answers_looks.mpr ⟨?_, rfl⟩, Function.update_of_ne count_ne_control ..⟩
  rw [Stream'.length_take]

private theorem answers_opening (t : Timer) (replies : Address → Stream' UInt32) : ∃ mid,
    Bus.answering.Answers replies (openingOn t replies) mid ∧ mid t.count = replies t.count := by
  rw [openingOn, opening]
  split
  · obtain ⟨mid, looked, same⟩ := answers_looks_control t replies 2
    exact ⟨mid, answers_append.mpr ⟨mid, looked, answers_store.mpr rfl⟩, same⟩
  · exact answers_looks_control t replies 1

private theorem opening_answered {seen found : UInt32} {mid : Address → Stream' UInt32}
    (h : Bus.answering.Answers replies (opening t seen found) mid) :
    opening t seen found = openingOn t replies ∧ mid t.count = replies t.count := by
  rw [openingOn]
  unfold opening at h
  split at h
  next stopped =>
    obtain ⟨_, looked, stored⟩ := answers_append.mp h
    obtain rfl := answers_store.mp stored
    obtain ⟨same, rfl⟩ := Bus.answers_looks.mp looked
    cases same
    exact ⟨rfl, Function.update_of_ne count_ne_control ..⟩
  next running =>
    obtain ⟨same, rfl⟩ := Bus.answers_looks.mp h
    cases same
    exact ⟨(if_neg running).trans (if_neg running).symm, Function.update_of_ne count_ne_control ..⟩

/-- What a bus says to a wait that looks at the count at first and then `n + 1` times. -/
def courseOn (t : Timer) (replies : Address → Stream' UInt32) (n : Nat) : List (Exchange Bus) :=
  openingOn t replies ++ Bus.looks t.count ((replies t.count).take (n + 2))

private theorem take_split (s : Stream' UInt32) (n : Nat) :
    s.take (n + 2) = s.get 0 :: (s.tail.take n ++ [s.get (n + 1)]) := by
  rw [Stream'.take_succ, Stream'.take_succ']
  rfl

private theorem mem_take {s : Stream' UInt32} {n : Nat} {word : UInt32} (h : word ∈ s.take n) :
    ∃ i < n, word = s.get i := by
  obtain ⟨i, inside, rfl⟩ := List.mem_iff_getElem.mp h
  rw [Stream'.length_take] at inside
  exact ⟨i, inside, Stream'.take_get ..⟩

/-- A wait is over when the count has been found far enough from where it was at first. -/
theorem ends_delay {ns : UInt32}
    (h : Ends Bus.answering.recorded (t.delay ns) (replies, []) (.ok () (left, log))) :
    ∃ n, log = courseOn t replies n ∧ Delay.cycles ns Platform.referenceClock ≤
      (replies t.count).get (n + 1) - (replies t.count).get 0 := by
  obtain ⟨course, follows, answered⟩ := h.course
  obtain ⟨answered, rfl⟩ := answers_recorded.mp answered
  obtain ⟨seen, found, first, waiting, last, rfl, -, late⟩ := follows_delay.mp follows
  obtain ⟨mid, begun, looked⟩ := answers_append.mp answered
  obtain ⟨same, counts⟩ := opening_answered begun
  obtain ⟨words, -⟩ := Bus.answers_looks.mp looked
  have length : (first :: (waiting ++ [last])).length = waiting.length + 2 := by simp
  rw [counts, length] at words
  refine ⟨waiting.length, ?_, ?_⟩
  · rw [courseOn, same, ← words]
  · rw [take_split] at words
    obtain ⟨rfl, rest⟩ := List.cons.inj words
    obtain ⟨-, ended⟩ := List.append_inj' rest rfl
    cases ended
    exact late

/-- And it is over at the first such look. -/
theorem delay_ends {ns : UInt32} {n : Nat}
    (early : ∀ i < n, (replies t.count).get (i + 1) - (replies t.count).get 0 <
      Delay.cycles ns Platform.referenceClock)
    (late : Delay.cycles ns Platform.referenceClock ≤
      (replies t.count).get (n + 1) - (replies t.count).get 0) :
    ∃ left, Ends Bus.answering.recorded (t.delay ns) (replies, []) (.ok () (left, courseOn t replies n)) := by
  obtain ⟨mid, begun, same⟩ := answers_opening t replies
  have looked : Bus.answering.Answers mid (Bus.looks t.count ((replies t.count).take (n + 2))) _ :=
    Bus.answers_looks.mpr ⟨by rw [same, Stream'.length_take], rfl⟩
  have follows : Follows (t.delay ns) (courseOn t replies n) () := by
    refine follows_delay.mpr ⟨(replies t.control).get 0, (replies t.control).get 1, _,
      (replies t.count).tail.take n, _, ?_, ?_, late⟩
    · rw [courseOn, take_split, openingOn]
    · intro word member
      obtain ⟨i, inside, rfl⟩ := mem_take member
      exact early i inside
  exact ⟨_, follows.ends_recorded (answers_append.mpr ⟨mid, begun, looked⟩)⟩

/-- The count reads off so many ticks, of which it shows the last 32 bits. They never go back. -/
structure Counts (t : Timer) (replies : Address → Stream' UInt32) (ticks : Nat → Nat) : Prop where
  shown : ∀ n, (replies t.count).get n = UInt32.ofNat (ticks n)
  forward : Monotone ticks

/-- A wait asks for as many ticks as its time takes, rounded up, and a word always holds so many. It writes
nothing but the run bit of a timer that stands still. It does not return at a look that finds fewer ticks
gone since the first one, and where no two looks miss nearly a round, it returns at the first look that
does not. -/
theorem delay_never_short (t : Timer) (ns : UInt32) (replies : Address → Stream' UInt32) (ticks : Nat → Nat)
    (counts : Counts t replies ticks) :
    (Delay.cycles ns Platform.referenceClock).toNat = ⌈(ns.toNat / 20 : ℚ)⌉₊ ∧
    (∀ log, Begins (t.delay ns) log → Sparing t log) ∧
    (∀ log left, Ends Bus.answering.recorded (t.delay ns) (replies, []) (.ok () (left, log)) →
      ∃ n, log = courseOn t replies n ∧ ticks 0 + ⌈(ns.toNat / 20 : ℚ)⌉₊ ≤ ticks (n + 1)) ∧
    (∀ n, (∀ i < n, ticks (i + 1) < ticks 0 + ⌈(ns.toNat / 20 : ℚ)⌉₊) →
      ticks 0 + ⌈(ns.toNat / 20 : ℚ)⌉₊ ≤ ticks (n + 1) →
      (∀ i ≤ n, ticks (i + 1) - ticks i < 2 ^ 32 - ⌈(ns.toNat / 20 : ℚ)⌉₊) →
      ∃ left, Ends Bus.answering.recorded (t.delay ns) (replies, []) (.ok () (left, courseOn t replies n))) := by
  rw [← cycles_reference]
  have lapse (n : Nat) : ((replies t.count).get (n + 1) - (replies t.count).get 0).toNat =
      (ticks (n + 1) - ticks 0) % 2 ^ 32 := by
    rw [counts.shown, counts.shown, toNat_lapse (counts.forward (Nat.zero_le _))]
  have onward (n : Nat) : ticks 0 ≤ ticks n := counts.forward (Nat.zero_le n)
  refine ⟨rfl, fun _ => sparing_delay, ?_, ?_⟩
  · intro log left ends
    obtain ⟨n, rfl, late⟩ := ends_delay ends
    refine ⟨n, rfl, ?_⟩
    rw [UInt32.le_iff_toNat_le, lapse] at late
    have shown := Nat.mod_le (ticks (n + 1) - ticks 0) (2 ^ 32)
    have := onward (n + 1)
    omega
  · intro n early late gaps
    apply delay_ends
    · intro i inside
      rw [UInt32.lt_iff_toNat_lt, lapse]
      have shown := Nat.mod_le (ticks (i + 1) - ticks 0) (2 ^ 32)
      have := onward (i + 1)
      have := early i inside
      omega
    · have last := gaps n (Nat.le_refl n)
      have before : ticks n < ticks 0 + (Delay.cycles ns Platform.referenceClock).toNat ∨ ticks n = ticks 0 := by
        cases n with
        | zero => exact .inr rfl
        | succ n => exact .inl (early n (Nat.lt_succ_self n))
      rw [UInt32.le_iff_toNat_le, lapse, Nat.mod_eq_of_lt]
      · omega
      · omega

/-- What the registers of a timer that stands still reply, if its count goes up by two from one look to the
next and starts over at zero after the second. -/
def overTop (address : Address) : Stream' UInt32 := fun n =>
  if address = Platform.timerBase then UInt32.ofNat (2 ^ 32 - 3 + 2 * n) else 0x6

theorem delay_never_short_over_top :
    Counts ⟨Platform.timerBase⟩ overTop (fun n => 2 ^ 32 - 3 + 2 * n) ∧
    ∃ left, Ends Bus.answering.recorded (delay ⟨Platform.timerBase⟩ 100) (overTop, []) (.ok () (left,
      [⟨.load 0x30000004, (0x6 : UInt32)⟩, ⟨.load 0x30000004, (0x6 : UInt32)⟩, ⟨.store 0x30000004 0x7, ()⟩,
        ⟨.load 0x30000000, (0xFFFFFFFD : UInt32)⟩, ⟨.load 0x30000000, (0xFFFFFFFF : UInt32)⟩,
        ⟨.load 0x30000000, (1 : UInt32)⟩, ⟨.load 0x30000000, (3 : UInt32)⟩])) := by
  have counts : Counts ⟨Platform.timerBase⟩ overTop (fun n => 2 ^ 32 - 3 + 2 * n) := by
    refine ⟨fun n => rfl, fun m n le => ?_⟩
    omega
  have need : ⌈((100 : UInt32).toNat / 20 : ℚ)⌉₊ = 5 := by
    rw [show ((100 : UInt32).toNat / 20 : ℚ) = (5 : ℕ) by norm_num [show (100 : UInt32).toNat = 100 from rfl]]
    exact Nat.ceil_natCast 5
  obtain ⟨-, -, -, returns⟩ := delay_never_short ⟨Platform.timerBase⟩ 100 overTop _ counts
  rw [need] at returns
  refine ⟨counts, returns 2 ?_ ?_ ?_⟩
  · intro i inside
    omega
  · omega
  · intro i inside
    omega

end Counts

end BoardSupport.Timer
