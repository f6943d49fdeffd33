import BoardSupport.I2c.Target
import BoardSupport.Proofs.I2c.Waveform

/-! What a listener makes of the waveforms of the master, and where they let the data line change. -/
namespace BoardSupport.I2c

open Target

/-- The levels that the data line changes to while the clock is high. -/
def swings (clock data : Bool) : List Pins.Request → List Bool
  | [] => []
  | .clock level :: rest => swings level data rest
  | .data level :: rest => (if clock && data != level then [level] else []) ++ swings clock level rest
  | .delay _ :: rest => swings clock data rest

/-- The levels of clock and data line at the end. -/
def levelsAfter (clock data : Bool) : List Pins.Request → Bool × Bool
  | [] => (clock, data)
  | .clock level :: rest => levelsAfter level data rest
  | .data level :: rest => levelsAfter clock level rest
  | .delay _ :: rest => levelsAfter clock data rest

/-- What a part of a trace shows to a listener and leaves it as, whatever comes after. -/
structure Shows (l : Listener) (part : List Pins.Request) (l' : Listener) (events : List Event)
    (changes : List Bool) : Prop where
  heard : ∀ more, l.hear (part ++ more) = events ++ l'.hear more
  changed : ∀ more, swings l.clock l.data (part ++ more) = changes ++ swings l'.clock l'.data more
  levels : ∀ more, levelsAfter l.clock l.data (part ++ more) = levelsAfter l'.clock l'.data more

namespace Shows

variable {l l' l'' : Listener} {first second : List Pins.Request} {events events' : List Event}
  {changes changes' : List Bool}

theorem nil (l : Listener) : Shows l [] l [] [] := ⟨fun _ => rfl, fun _ => rfl, fun _ => rfl⟩

theorem append (h : Shows l first l' events changes) (h' : Shows l' second l'' events' changes') :
    Shows l (first ++ second) l'' (events ++ events') (changes ++ changes') where
  heard := by
    intro more
    rw [List.append_assoc, h.heard, h'.heard, List.append_assoc]
  changed := by
    intro more
    rw [List.append_assoc, h.changed, h'.changed, List.append_assoc]
  levels := by
    intro more
    rw [List.append_assoc, h.levels, h'.levels]

/-- Of a whole trace nothing more is to come. -/
theorem hear_eq (h : Shows l first l' events changes) : l.hear first = events := by
  simpa only [List.append_nil, Listener.hear] using h.heard []

theorem swings_eq (h : Shows l first l' events changes) : swings l.clock l.data first = changes := by
  simpa only [List.append_nil, swings] using h.changed []

theorem levels_eq (h : Shows l first l' events changes) :
    levelsAfter l.clock l.data first = (l'.clock, l'.data) := by
  simpa only [List.append_nil, levelsAfter] using h.levels []

end Shows

namespace BitBang

variable (q : UInt32) {data : Bool} {earlier : List Bool}

theorem shows_start : Shows {} (startWave q) ⟨true, false, []⟩ [.start] [false] :=
  ⟨fun _ => rfl, fun _ => rfl, fun _ => rfl⟩

/-- The rise of the clock before STOP begins a byte that STOP discards. -/
theorem shows_stop : Shows ⟨false, false, []⟩ (stopWave q) {} [.stop] [true] :=
  ⟨fun _ => rfl, fun _ => rfl, fun _ => rfl⟩

theorem shows_bit (room : earlier.length < 8) (level : Bool) :
    Shows ⟨false, data, earlier⟩ (bitWave q level) ⟨false, level, level :: earlier⟩ [] [] where
  heard := by
    intro more
    simp [bitWave, Listener.hear, Listener.step, Listener.sample, room]
  changed _ := rfl
  levels _ := rfl

theorem shows_ninthBit (full : earlier.length = 8) (level : Bool) :
    Shows ⟨false, data, earlier⟩ (bitWave q level) ⟨false, level, []⟩
      [.byte (UInt8.ofNat (Listener.valueOf earlier)) level] [] where
  heard := by
    intro more
    simp [bitWave, Listener.hear, Listener.step, Listener.sample, full]
  changed _ := rfl
  levels _ := rfl

theorem shows_bits (levels : List Bool) (room : earlier.length + levels.length ≤ 8) :
    ∃ last, Shows ⟨false, data, earlier⟩ (levels.flatMap (bitWave q))
      ⟨false, last, levels.reverse ++ earlier⟩ [] [] := by
  induction levels generalizing data earlier with
  | nil => exact ⟨data, .nil _⟩
  | cons level levels ih =>
    rw [List.length_cons] at room
    have here : Shows ⟨false, data, earlier⟩ (bitWave q level) ⟨false, level, level :: earlier⟩ [] [] :=
      shows_bit q (by omega) level
    have room' : (level :: earlier).length + levels.length ≤ 8 := by
      rw [List.length_cons]
      omega
    obtain ⟨last, rest⟩ := @ih level (level :: earlier) room'
    refine ⟨last, ?_⟩
    rw [List.flatMap_cons, List.reverse_cons, List.append_assoc]
    exact here.append rest

/-- Most significant first, the bits of a byte add up to it. -/
theorem valueOf_bits (byte : UInt8) :
    UInt8.ofNat (Listener.valueOf (bits byte).reverse) = byte := by
  have every : ∀ n : Fin 256, UInt8.ofNat (Listener.valueOf (bits (UInt8.ofFin n)).reverse) =
      UInt8.ofFin n := by decide +kernel
  exact every byte.toFin

theorem shows_byte (clock : Bool) (byte : UInt8) :
    Shows ⟨clock, false, []⟩ (byteWave q byte) ⟨false, false, []⟩ [.byte byte true] [] := by
  have fall : Shows ⟨clock, false, []⟩ [.clock false] ⟨false, false, []⟩ [] [] :=
    ⟨fun _ => rfl, fun _ => rfl, fun _ => rfl⟩
  obtain ⟨last, eight⟩ : ∃ last, Shows ⟨false, false, []⟩ ((bits byte).flatMap (bitWave q))
      ⟨false, last, (bits byte).reverse ++ []⟩ [] [] := shows_bits q (bits byte) (by simp [bits])
  rw [List.append_nil] at eight
  have ninth : Shows ⟨false, last, (bits byte).reverse⟩ (bitWave q true) ⟨false, true, []⟩
      [.byte (UInt8.ofNat (Listener.valueOf (bits byte).reverse)) true] [] :=
    shows_ninthBit q (by simp [bits]) true
  rw [valueOf_bits] at ninth
  have release : Shows ⟨false, true, []⟩ [.delay q, .data false, .delay q] ⟨false, false, []⟩ [] [] :=
    ⟨fun _ => rfl, fun _ => rfl, fun _ => rfl⟩
  exact ((fall.append eight).append ninth).append release

theorem shows_bytes (bytes : List UInt8) :
    Shows ⟨false, false, []⟩ (bytes.flatMap (byteWave q)) ⟨false, false, []⟩
      (bytes.map fun byte => .byte byte true) [] := by
  induction bytes with
  | nil => exact .nil _
  | cons byte bytes ih => exact (shows_byte q false byte).append ih

/-- What a target should see of a transaction. -/
def expected (t : Transaction) : List Event :=
  if t.hasRead then []
  else .start :: (t.address <<< 1 :: t.written).map (fun byte => .byte byte true) ++ [.stop]

/-- From idle lines to idle lines, with one START and one STOP. -/
theorem shows_write {t : Transaction} (writes : t.hasRead = false) :
    Shows {} (writeWave q t) {} (expected t) [false, true] := by
  have bytes := (shows_byte q true (t.address <<< 1)).append (shows_bytes q t.written)
  have whole := ((shows_start q).append bytes).append (shows_stop q)
  rw [← List.flatMap_cons] at whole
  simpa [writeWave, expected, writes] using whole

end BitBang

end BoardSupport.I2c
