import BoardSupport.Proofs.I2c.Transactions
import Mathlib.Algebra.GroupWithZero.Nat

/-! How long the master waits between the changes of the two lines. Each part of a waveform keeps margins
before its first and after its last change, wide enough for any part that may come next. -/
namespace BoardSupport.I2c

open Program BitBang

/-- A change of the level of one line. -/
inductive Edge
  /-- The clock rises. -/
  | rise
  /-- The clock falls. -/
  | fall
  /-- The data line changes while the clock is low. -/
  | shift
  /-- The data line falls while the clock is high. -/
  | start
  /-- The data line rises while the clock is high. -/
  | stop
  deriving DecidableEq

instance {p : Edge → Prop} [DecidablePred p] : Decidable (∀ e, p e) :=
  decidable_of_iff (p .rise ∧ p .fall ∧ p .shift ∧ p .start ∧ p .stop) <| by
    constructor
    · rintro ⟨rise, fall, shift, start, stop⟩ e
      cases e <;> assumption
    · intro all
      exact ⟨all _, all _, all _, all _, all _⟩

/-- The edges of a trace that finds the lines at these levels, each with the time until then, in
nanoseconds. -/
def edges (clock data : Bool) (now : Nat) : List Pins.Request → List (Nat × Edge)
  | [] => []
  | .delay ns :: rest => edges clock data (now + ns.toNat) rest
  | .clock level :: rest =>
    (if clock = level then [] else [(now, if level then .rise else .fall)]) ++ edges level data now rest
  | .data level :: rest =>
    (if data = level then []
      else [(now, if clock then if level then .stop else .start else .shift)]) ++ edges clock level now rest

/-- All that a trace waits, in nanoseconds. -/
def waited (trace : List Pins.Request) : Nat :=
  (trace.map fun | .delay ns => ns.toNat | _ => 0).sum

/-- The quarters of a clock period that have to pass between an edge and each later one. -/
def gap : Edge → Edge → Nat
  -- The clock is low for half a period each time, and high for as long.
  | .fall, .rise | .rise, .fall => 2
  | .rise, .rise => 4
  -- Inside a byte the data line changes away from both edges of the clock.
  | .fall, .shift | .shift, .rise => 1
  -- Both lines are high for a period before START, after STOP for two, and the clock for one after START.
  | .stop, .start => 8
  | _, .start => 4
  | .start, .fall => 4
  | .rise, .stop => 4
  | _, _ => 0

def Spaced (q : Nat) (timeline : List (Nat × Edge)) : Prop :=
  timeline.Pairwise fun a b => a.1 + gap a.2 b.2 * q ≤ b.1

section Traces

variable {clock data : Bool} {first second part : List Pins.Request}

theorem waited_append : waited (first ++ second) = waited first + waited second := by
  simp [waited]

theorem levelsAfter_append (clock data : Bool) (first second : List Pins.Request) :
    levelsAfter clock data (first ++ second) =
      levelsAfter (levelsAfter clock data first).1 (levelsAfter clock data first).2 second := by
  induction first generalizing clock data with
  | nil => rfl
  | cons r rest ih => cases r <;> exact ih ..

theorem edges_append (clock data : Bool) (now : Nat) (first second : List Pins.Request) :
    edges clock data now (first ++ second) = edges clock data now first ++
      edges (levelsAfter clock data first).1 (levelsAfter clock data first).2 (now + waited first)
        second := by
  induction first generalizing clock data now with
  | nil => rfl
  | cons r rest ih =>
    cases r with
    | delay ns =>
      rw [List.cons_append, edges, ih, Nat.add_assoc]
      rfl
    | clock level | data level =>
      rw [List.cons_append, edges, ih, ← List.append_assoc]
      simp [edges, levelsAfter, waited]

/-- What came before a part only delays its edges. -/
theorem edges_delayed (clock data : Bool) (delay now : Nat) (part : List Pins.Request) :
    edges clock data (delay + now) part = (edges clock data now part).map fun e => (delay + e.1, e.2) := by
  induction part generalizing clock data now with
  | nil => rfl
  | cons r rest ih =>
    cases r with
    | delay ns => rw [edges, edges, Nat.add_assoc, ih]
    | clock level | data level =>
      rw [edges, edges, ih, List.map_append]
      split <;> rfl

theorem Drives.mapM {α β : Type} {f : α → Program Pins β} {wave : α → List Pins.Request}
    {answer : α → β} (each : ∀ x, Drives (f x) (wave x) (answer x)) (xs : List α) :
    Drives (xs.mapM f) (xs.flatMap wave) (xs.map answer) := by
  induction xs with
  | nil => exact drives_done _
  | cons x xs ih =>
    rw [List.mapM_cons]
    have rest : Drives (xs.mapM f >>= fun answers => return answer x :: answers) (xs.flatMap wave ++ [])
        (answer x :: xs.map answer) := ih.bind (drives_done _)
    rw [List.append_nil] at rest
    exact (each x).bind rest

end Traces

/-- A number of quarters for each kind of edge. -/
def quartersFor (rise fall shift start stop : Nat) : Edge → Nat
  | .rise => rise
  | .fall => fall
  | .shift => shift
  | .start => start
  | .stop => stop

/-- Quarters before the first edge of each kind, and after the last. -/
structure Margins where
  before : Edge → Nat
  after : Edge → Nat

/-- A part of a trace that lasts so many quarters and takes the lines from two levels to two others, with
its edges apart as they should be and so far from its ends. -/
structure Paced (q : Nat) (clock data : Bool) (part : List Pins.Request) (clock' data' : Bool)
    (quarters : Nat) (margins : Margins) : Prop where
  levels : levelsAfter clock data part = (clock', data')
  waited : waited part = quarters * q
  spaced : Spaced q (edges clock data 0 part)
  before : ∀ e ∈ edges clock data 0 part, margins.before e.2 * q ≤ e.1
  after : ∀ e ∈ edges clock data 0 part, e.1 + margins.after e.2 * q ≤ quarters * q

namespace Paced

variable {q m n : Nat} {clock data clock' data' clock'' data'' : Bool}
  {first second : List Pins.Request} {a b : Margins}

theorem nil (q : Nat) (clock data : Bool) (a : Margins) : Paced q clock data [] clock data 0 a :=
  ⟨rfl, (Nat.zero_mul q).symm, .nil, by simp [edges], by simp [edges]⟩

/-- Parts may meet where the margins add up to every gap. -/
theorem append (whole : Margins) (h : Paced q clock data first clock' data' m a)
    (h' : Paced q clock' data' second clock'' data'' n b)
    (meet : ∀ x y, gap x y ≤ a.after x + b.before y)
    (before : ∀ x, whole.before x ≤ a.before x ∧ whole.before x ≤ m + b.before x)
    (after : ∀ x, whole.after x ≤ b.after x ∧ whole.after x ≤ a.after x + n) :
    Paced q clock data (first ++ second) clock'' data'' (m + n) whole := by
  have timeline : edges clock data 0 (first ++ second) = edges clock data 0 first ++
      (edges clock' data' 0 second).map fun e => (m * q + e.1, e.2) := by
    rw [edges_append, h.levels, ← edges_delayed, h.waited, Nat.add_comm 0]
  -- Everything below is about quarters, and holds of as many times `q`.
  have scaled {x y : Nat} (le : x ≤ y) : x * q ≤ y * q := Nat.mul_le_mul_right q le
  refine ⟨?_, ?_, ?_, ?_, ?_⟩
  · rw [levelsAfter_append, h.levels, h'.levels]
  · rw [waited_append, h.waited, h'.waited, Nat.add_mul]
  · rw [timeline, Spaced, List.pairwise_append]
    refine ⟨h.spaced, ?_, ?_⟩
    · refine List.pairwise_map.mpr (h'.spaced.imp ?_)
      intro x y apart
      dsimp only
      omega
    · rintro x early _ delayed
      obtain ⟨y, late, rfl⟩ := List.mem_map.mp delayed
      have room := scaled (meet x.2 y.2)
      have ends := h.after x early
      have begins := h'.before y late
      rw [Nat.add_mul] at room
      dsimp only
      omega
  · rw [timeline, List.forall_mem_append, List.forall_mem_map]
    constructor
    · intro e member
      exact Nat.le_trans (scaled (before e.2).1) (h.before e member)
    · intro e member
      have begins := h'.before e member
      have room := scaled (before e.2).2
      rw [Nat.add_mul] at room
      dsimp only
      omega
  · rw [timeline, List.forall_mem_append, List.forall_mem_map]
    constructor
    · intro e member
      have ends := h.after e member
      have room := scaled (after e.2).2
      rw [Nat.add_mul] at room ⊢
      omega
    · intro e member
      have ends := h'.after e member
      have room := scaled (after e.2).1
      rw [Nat.add_mul]
      dsimp only
      omega

/-- Parts of one kind may follow one another where the margins add up to every gap. The level of the data
line between them may differ. -/
theorem flatMap {α : Type} {wave : α → List Pins.Request} {quarters : α → Nat} (level : Bool → Prop)
    (each : ∀ x data, level data →
      ∃ data', level data' ∧ Paced q clock data (wave x) clock data' (quarters x) a)
    (meet : ∀ x y, gap x y ≤ a.after x + a.before y) (xs : List α) (start : level data) :
    ∃ data', level data' ∧ Paced q clock data (xs.flatMap wave) clock data' (xs.map quarters).sum a := by
  induction xs generalizing data with
  | nil => exact ⟨data, start, nil ..⟩
  | cons x xs ih =>
    obtain ⟨mid, kept, here⟩ := each x data start
    obtain ⟨data', kept', rest⟩ := ih kept
    rw [List.flatMap_cons, List.map_cons, List.sum_cons]
    exact ⟨data', kept', here.append a rest meet (fun _ => ⟨Nat.le_refl _, Nat.le_add_left ..⟩)
      fun _ => ⟨Nat.le_refl _, Nat.le_add_right ..⟩⟩

end Paced

namespace BitBang

/-- For edges that a part does not have any margin will do, and this one is wide enough for all. -/
def wide : Nat := 8

def bitMargins : Margins := ⟨quartersFor 2 4 1 wide wide, quartersFor 2 0 3 wide wide⟩

/-- The margins of a byte of which only bits have been sent. -/
def openMargins : Margins := ⟨quartersFor 2 0 1 wide wide, quartersFor 2 0 3 wide wide⟩

def byteMargins : Margins := ⟨quartersFor 2 0 1 wide wide, quartersFor 4 2 1 wide wide⟩

def transactionMargins : Margins := ⟨quartersFor wide wide wide 4 wide, quartersFor wide wide wide wide 4⟩

section Waves

variable {q : UInt32}

theorem paced_bit (data level : Bool) :
    Paced q.toNat false data (bitWave q level) false level 4 bitMargins := by
  refine ⟨rfl, ?_, ?_, ?_, ?_⟩
  · simp [bitWave, waited]
    omega
  all_goals
    cases data <;> cases level <;>
      simp [bitWave, edges, Spaced, gap, bitMargins, quartersFor, wide] <;> omega

theorem paced_fall (clock : Bool) :
    Paced q.toNat clock false [.clock false] false false 0
      ⟨quartersFor wide 0 wide wide wide, quartersFor wide 0 wide wide wide⟩ := by
  cases clock <;> refine ⟨rfl, ?_, ?_, ?_, ?_⟩ <;> simp [edges, waited, Spaced, quartersFor]

theorem paced_release :
    Paced q.toNat false true [.delay q, .data false, .delay q] false false 2
      ⟨quartersFor wide wide 1 wide wide, quartersFor wide wide 1 wide wide⟩ := by
  refine ⟨rfl, ?_, ?_, ?_, ?_⟩ <;> simp [edges, waited, Spaced, quartersFor] <;> omega

theorem paced_byte (clock : Bool) (byte : UInt8) :
    Paced q.toNat clock false (byteWave q byte) false false 38 byteMargins := by
  have bit (level data : Bool) (_ : True) : ∃ data', True ∧
      Paced q.toNat false data (bitWave q level) false data' 4 bitMargins :=
    ⟨level, trivial, paced_bit data level⟩
  obtain ⟨last, -, bits⟩ := Paced.flatMap (fun _ => True) bit (by decide) (bits byte) trivial
  have eight : Paced q.toNat false false _ false last 32 bitMargins := bits
  have opened := (paced_fall clock).append openMargins eight (by decide) (by decide) (by decide)
  have ninth := opened.append openMargins (paced_bit last true) (by decide) (by decide) (by decide)
  exact ninth.append byteMargins paced_release (by decide) (by decide) (by decide)

/-- The first byte finds the clock high, after START. -/
theorem paced_bytes (byte : UInt8) (bytes : List UInt8) :
    Paced q.toNat true false ((byte :: bytes).flatMap (byteWave q)) false false
      (38 * (1 + bytes.length)) byteMargins := by
  have next (byte : UInt8) (data : Bool) (low : data = false) : ∃ data', data' = false ∧
      Paced q.toNat false data (byteWave q byte) false data' 38 byteMargins := by
    subst low
    exact ⟨false, rfl, paced_byte false byte⟩
  obtain ⟨_, rfl, rest⟩ := Paced.flatMap (· = false) next (by decide) bytes rfl
  have whole := (paced_byte true byte).append byteMargins rest (by decide)
    (fun _ => ⟨Nat.le_refl _, Nat.le_add_left ..⟩) (fun _ => ⟨Nat.le_refl _, Nat.le_add_right ..⟩)
  rw [List.map_const', List.sum_replicate_nat] at whole
  have lasts : 38 + bytes.length * 38 = 38 * (1 + bytes.length) := by omega
  rwa [lasts] at whole

variable (room : Room q)
include room

private theorem toNat_period : (q * 4).toNat = 4 * q.toNat := by
  unfold Room UInt32.size at room
  have four : (4 : UInt32).toNat = 4 := rfl
  rw [UInt32.toNat_mul, four]
  omega

theorem paced_start : Paced q.toNat true true (startWave q) true false 8
    ⟨quartersFor wide wide wide 4 wide, quartersFor wide wide wide 4 wide⟩ := by
  have period := toNat_period room
  refine ⟨rfl, ?_, ?_, ?_, ?_⟩ <;> simp [startWave, edges, waited, Spaced, quartersFor, period] <;> omega

theorem paced_stop : Paced q.toNat false false (stopWave q) true true 8
    ⟨quartersFor 0 wide wide wide 4, quartersFor wide wide wide wide 4⟩ := by
  have period := toNat_period room
  refine ⟨rfl, ?_, ?_, ?_, ?_⟩ <;>
    simp [stopWave, edges, waited, Spaced, gap, quartersFor, period, wide] <;> omega

theorem paced_write (t : Transaction) : Paced q.toNat true true (writeWave q t) true true
    (16 + 38 * (1 + t.written.length)) transactionMargins := by
  -- The bytes between START and STOP, of which there is always one, last longer than any margin.
  have short : ∀ x, byteMargins.after x ≤ 38 ∧ transactionMargins.before x ≤ 38 := by decide
  have begun : Paced q.toNat true true
      (startWave q ++ (t.address <<< 1 :: t.written).flatMap (byteWave q)) false false
      (8 + 38 * (1 + t.written.length)) ⟨transactionMargins.before, byteMargins.after⟩ := by
    refine (paced_start room).append _ (paced_bytes _ _) (by decide) (by decide) fun x => ?_
    have := (short x).1
    dsimp only
    omega
  have whole : Paced q.toNat true true (writeWave q t) true true
      (8 + 38 * (1 + t.written.length) + 8) transactionMargins := by
    refine begun.append _ (paced_stop room) (by decide) (fun x => ?_) (by decide)
    have := (short x).2
    dsimp only
    omega
  have lasts : 8 + 38 * (1 + t.written.length) + 8 = 16 + 38 * (1 + t.written.length) := by omega
  rwa [lasts] at whole

end Waves

/-- What a transaction does to the pins. -/
def wave (q : UInt32) (t : Transaction) : List Pins.Request := if t.hasRead then [] else writeWave q t

def answer (t : Transaction) : Except I2cError Unit :=
  if t.hasRead then .error .readUnsupported else .ok ()

/-- The quarters that a transaction lasts. -/
def quarters (t : Transaction) : Nat := if t.hasRead then 0 else 16 + 38 * (1 + t.written.length)

section Transactions

variable {q : UInt32} (room : Room q)
include room

theorem drives_transaction (t : Transaction) : Drives (transaction q t) (wave q t) (answer t) := by
  cases reads : t.hasRead with
  | true => simpa [wave, answer, reads] using drives_refusal q reads
  | false => simpa [wave, answer, reads] using drives_write room reads

theorem paced_transaction (t : Transaction) :
    Paced q.toNat true true (wave q t) true true (quarters t) transactionMargins := by
  cases reads : t.hasRead with
  | true => simpa [wave, quarters, reads] using Paced.nil ..
  | false => simpa [wave, quarters, reads] using paced_write room t

theorem paced_transactions (ts : List Transaction) :
    Paced q.toNat true true (ts.flatMap (wave q)) true true (ts.map quarters).sum transactionMargins := by
  have next (t : Transaction) (data : Bool) (high : data = true) : ∃ data', data' = true ∧
      Paced q.toNat true data (wave q t) true data' (quarters t) transactionMargins := by
    subst high
    exact ⟨true, rfl, paced_transaction room t⟩
  obtain ⟨_, rfl, whole⟩ := Paced.flatMap (· = true) next (by decide) ts rfl
  exact whole

end Transactions

end BitBang

/-- How long a turn takes, if a quarter of a clock period is `q` nanoseconds. -/
structure Turn.Timed (q : Nat) (turn : Turn) : Prop where
  refused : turn.transaction.hasRead = true → turn.answer = .error .readUnsupported ∧ turn.trace = []
  accepted : turn.transaction.hasRead = false → turn.answer = .ok () ∧
    waited turn.trace = (16 + 38 * (1 + turn.transaction.written.length)) * q

section Turns

variable {q : UInt32}

theorem timed_turn (room : Room q) (t : Transaction) : Turn.Timed q.toNat ⟨t, answer t, wave q t⟩ where
  refused := by
    intro reads
    simp only at reads
    simp [answer, wave, reads]
  accepted := by
    intro writes
    simp only at writes
    have lasts := (paced_transaction room t).waited
    rw [quarters, if_neg (by simp [writes])] at lasts
    exact ⟨by simp [answer, writes], lasts⟩

theorem Turn.Timed.waited_eq {turn : Turn} {n : Nat} (timed : turn.Timed n) :
    waited turn.trace = quarters turn.transaction * n := by
  rw [quarters]
  split
  next reads =>
    rw [(timed.refused reads).2, Nat.zero_mul]
    rfl
  next writes => exact (timed.accepted (Bool.eq_false_iff.mpr writes)).2

end Turns

/-- Transactions from an idle bus, if a clock period fits a word: none of them gives up, each lasts as long
as its bytes and the address make it, the first edge is a whole period after the beginning, and no edge
comes too early after another, be they of one transaction or of two. -/
theorem transactions_timely (q : UInt32) (ts : List Transaction) (rounds : Nat) (short : q.toNat < 2 ^ 30) :
    ∃ turns : List Turn, turns.map Turn.transaction = ts ∧ (∀ turn ∈ turns, turn.Timed q.toNat) ∧
      (ts.mapM (transaction q)).run rounds Pins.wire [] =
        .ok (turns.map Turn.answer) (turns.flatMap Turn.trace) ∧
      (∀ e ∈ edges true true 0 (turns.flatMap Turn.trace), 4 * q.toNat ≤ e.1) ∧
      Spaced q.toNat (edges true true 0 (turns.flatMap Turn.trace)) := by
  have room : Room q := by
    unfold Room UInt32.size
    omega
  have all := paced_transactions room ts
  have same : (ts.map fun t => (⟨t, answer t, wave q t⟩ : Turn)).flatMap Turn.trace = ts.flatMap (wave q) :=
    List.flatMap_map ..
  refine ⟨ts.map fun t => ⟨t, answer t, wave q t⟩, ?_, ?_, ?_, ?_, ?_⟩
  · rw [List.map_map]
    exact List.map_id ts
  · intro turn member
    obtain ⟨t, -, rfl⟩ := List.mem_map.mp member
    exact timed_turn room t
  · rw [List.map_map, same]
    exact Drives.mapM (drives_transaction room) ts rounds []
  · rw [same]
    intro e member
    have early : ∀ x, 4 ≤ transactionMargins.before x := by decide
    exact Nat.le_trans (Nat.mul_le_mul_right _ (early e.2)) (all.before e member)
  · rw [same]
    exact all.spaced

/-- The longest quarter, with a refusal between a transaction of three bytes and one of the address. -/
theorem transactions_timely_at_limit :
    let q : UInt32 := 0x3FFFFFFF
    let ts : List Transaction :=
      [⟨0x3C, [.write [0x00], .write [0xAF]]⟩, ⟨0x3C, [.read 2]⟩, ⟨0x3C, []⟩]
    q.toNat < 2 ^ 30 ∧ ∃ turns : List Turn,
      turns.map (fun turn => waited turn.trace) = [130 * q.toNat, 0 * q.toNat, 54 * q.toNat] ∧
      (ts.mapM (transaction q)).run 0 Pins.wire [] =
        .ok (turns.map Turn.answer) (turns.flatMap Turn.trace) ∧
      (∀ e ∈ edges true true 0 (turns.flatMap Turn.trace), 4 * q.toNat ≤ e.1) ∧
      Spaced q.toNat (edges true true 0 (turns.flatMap Turn.trace)) := by
  intro q ts
  have short : q.toNat < 2 ^ 30 := by decide
  obtain ⟨turns, of, timed, ran, first, spaced⟩ := transactions_timely q ts 0 short
  have count : (turns.map Turn.transaction).map quarters = [130, 0, 54] := by
    rw [of]
    decide
  have lasts : turns.map (fun turn => waited turn.trace) =
      ((turns.map Turn.transaction).map quarters).map (· * q.toNat) := by
    rw [List.map_map, List.map_map]
    exact List.map_congr_left fun turn member => (timed turn member).waited_eq
  rw [count] at lasts
  exact ⟨short, turns, lasts, ran, first, spaced⟩

end BoardSupport.I2c
