import BoardSupport.I2c.BitBang
import BoardSupport.Program.Run

/-! What the master puts on the two lines, as a list of requests to the pins. -/
namespace BoardSupport.I2c

open Program

/-- Pins that keep what is asked of them, earliest first. -/
def Pins.wire : Device Pins Empty (List Pins.Request) := fun r trace => .ok () (trace ++ [r])

/-- The program ends with a value after just these requests, whatever was asked before. -/
def Drives {α : Type} (p : Program Pins α) (trace : List Pins.Request) (a : α) : Prop :=
  ∀ rounds before, p.run rounds Pins.wire before = .ok a (before ++ trace)

section Drives

variable {α β : Type} {first second : List Pins.Request}

theorem drives_done (a : α) : Drives (.done a) [] a := by
  intro rounds before
  rw [List.append_nil]
  rfl

theorem Drives.ask {r : Pins.Request} {next : Unit → Program Pins α} {a : α}
    (h : Drives (next ()) first a) : Drives (.ask (I := Pins) r next) (r :: first) a := by
  intro rounds before
  rw [← List.singleton_append, ← List.append_assoc]
  exact h rounds (before ++ [r])

theorem drives_call (r : Pins.Request) : Drives (call (I := Pins) r) [r] () := .ask (drives_done ())

theorem Drives.bind {p : Program Pins α} {f : α → Program Pins β} {a : α} {b : β}
    (hp : Drives p first a) (hf : Drives (f a) second b) : Drives (p >>= f) (first ++ second) b := by
  intro rounds before
  have whole : (before ++ first) ++ second = before ++ (first ++ second) := List.append_assoc ..
  rw [run_bind, ← whole, ← hf rounds (before ++ first)]
  change EStateM.bind _ _ before = _
  simp only [EStateM.bind, hp rounds before]

theorem Drives.forM {σ : Type} {f : σ → Program Pins PUnit} {wave : σ → List Pins.Request}
    (hf : ∀ x, Drives (f x) (wave x) ()) (xs : List σ) : Drives (xs.forM f) (xs.flatMap wave) () := by
  induction xs with
  | nil => exact drives_done _
  | cons x xs ih => exact (hf x).bind ih

end Drives

namespace BitBang

def bitWave (q : UInt32) (level : Bool) : List Pins.Request :=
  [.delay q, .data level, .delay q, .clock true, .delay q, .delay q, .clock false]

def byteWave (q : UInt32) (byte : UInt8) : List Pins.Request :=
  [.clock false] ++ (bits byte).flatMap (bitWave q) ++ bitWave q true ++
    [.delay q, .data false, .delay q]

def startWave (q : UInt32) : List Pins.Request :=
  [.clock true, .data true, .delay (q * 4), .data false, .delay (q * 4)]

def stopWave (q : UInt32) : List Pins.Request :=
  [.data false, .clock true, .delay (q * 4), .data true, .delay (q * 4)]

/-- A transaction that only writes, from START to STOP. -/
def writeWave (q : UInt32) (t : Transaction) : List Pins.Request :=
  startWave q ++ (t.address <<< 1 :: t.written).flatMap (byteWave q) ++ stopWave q

/-- A clock period fits a word. -/
def Room (q : UInt32) : Prop := q.toNat * 4 < UInt32.size

section Parts

variable {q : UInt32}

theorem drives_period (room : Room q) : Drives (period q) [.delay (q * 4)] () := by
  unfold Room at room
  rw [period, if_pos room]
  exact drives_call _

theorem drives_start (room : Room q) : Drives (start q) (startWave q) () := by
  have fall : Drives (do Pins.data false; period q) [.data false, .delay (q * 4)] () :=
    .ask (drives_period room)
  exact .ask (.ask ((drives_period room).bind fall))

theorem drives_stop (room : Room q) : Drives (stop q) (stopWave q) () := by
  have rise : Drives (do Pins.data true; period q) [.data true, .delay (q * 4)] () :=
    .ask (drives_period room)
  exact .ask (.ask ((drives_period room).bind rise))

theorem drives_writeBit (q : UInt32) (level : Bool) :
    Drives (writeBit q level) (bitWave q level) () :=
  .ask (.ask (.ask (.ask (.ask (.ask (.ask (drives_done ())))))))

theorem drives_writeByte (q : UInt32) (byte : UInt8) :
    Drives (writeByte q byte) (byteWave q byte) () := by
  have levels := Drives.forM (drives_writeBit q) (bits byte)
  have release : Drives (do quarter q; Pins.data false; quarter q)
      [.delay q, .data false, .delay q] () := .ask (.ask (.ask (drives_done ())))
  have whole : Drives (writeByte q byte) (.clock false :: ((bits byte).flatMap (bitWave q) ++
      (bitWave q true ++ [.delay q, .data false, .delay q]))) () :=
    .ask (levels.bind ((drives_writeBit q true).bind release))
  simpa only [byteWave, List.append_assoc, List.cons_append, List.nil_append] using whole

theorem drives_write {t : Transaction} (room : Room q) (writes : t.hasRead = false) :
    Drives (transaction q t) (writeWave q t) (.ok ()) := by
  have bytes := Drives.forM (drives_writeByte q) t.written
  have whole : Drives (transaction q t) (startWave q ++ (byteWave q (t.address <<< 1) ++
      (t.written.flatMap (byteWave q) ++ (stopWave q ++ [])))) (.ok ()) := by
    rw [transaction, if_neg (by simp [writes])]
    exact (drives_start room).bind ((drives_writeByte q _).bind (bytes.bind
      ((drives_stop room).bind (drives_done _))))
  simpa only [writeWave, List.flatMap_cons, List.append_assoc, List.append_nil] using whole

/-- A transaction that reads anything is refused before a line moves. -/
theorem drives_refusal {t : Transaction} (q : UInt32) (reads : t.hasRead = true) :
    Drives (transaction q t) [] (.error .readUnsupported) := by
  rw [transaction, if_pos reads]
  exact drives_done _

end Parts

end BitBang

end BoardSupport.I2c
