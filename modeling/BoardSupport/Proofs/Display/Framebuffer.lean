import BoardSupport.Display.Pixel
import BoardSupport.Proofs.Bus.Bytes
import Mathlib.Algebra.Group.Nat.Defs

/-! What setting and clearing pixels leaves in memory, byte by byte. Each pixel of the screen has a word of
its own, and nothing else is written. -/
namespace BoardSupport.PixelDisplay

open Program

/-- How many bytes a framebuffer takes, with what pads its rows. -/
def size : Nat := height <<< 12

/-- Where the word of a pixel starts. -/
def place (d : PixelDisplay) (x y : Nat) : Address := d.base + UInt64.ofNat (4 * x + 4096 * y)

section Places

variable {d : PixelDisplay} {x y x' y' : Nat}

theorem place_toNat (fits : d.base.toNat + size ≤ 2 ^ 64) (hx : x < width) (hy : y < height) :
    (d.place x y).toNat = d.base.toNat + (4 * x + 4096 * y) := by
  unfold width at hx
  unfold height at hy
  rw [show size = 1966080 from rfl] at fits
  rw [place, UInt64.toNat_add, UInt64.toNat_ofNat']
  omega

theorem address_place (fits : d.base.toNat + size ≤ 2 ^ 64) (hx : x < width) (hy : y < height) :
    d.address x y = .ok (d.place x y) := by
  have exactly := place_toNat fits hx hy
  have inside := (d.place x y).toNat_lt
  unfold width at hx
  unfold height at hy
  have shifted : y <<< 12 % UInt64.size = 4096 * y := by
    rw [Nat.shiftLeft_eq, show UInt64.size = 2 ^ 64 from rfl]
    omega
  have offset : offset x y = .ok (4 * x + 4096 * y) := by
    rw [PixelDisplay.offset, shifted, Nat.mul_comm x, show UInt64.size = 2 ^ 64 from rfl, if_neg (by omega),
      if_neg (by omega)]
  rw [address, offset]
  change (if UInt64.size ≤ d.base.toNat + (4 * x + 4096 * y) then _ else _) = _
  rw [← exactly, if_neg (by rw [show UInt64.size = 2 ^ 64 from rfl]; omega), UInt64.ofNat_toNat]

/-- The words of two pixels share no byte. -/
theorem place_misses (hx : x < width) (hy : y < height) (hx' : x' < width) (hy' : y' < height)
    (apart : ¬(x = x' ∧ y = y')) : Bus.Misses (d.place x y) (d.place x' y') := by
  unfold width at hx hx'
  unfold height at hy hy'
  rw [Bus.Misses, place, place, UInt64.add_comm, UInt64.add_comm d.base]
  rw [UInt64.toNat_sub, UInt64.toNat_add, UInt64.toNat_add, UInt64.toNat_ofNat', UInt64.toNat_ofNat']
  have := d.base.toNat_lt
  omega

theorem set_eq (fits : d.base.toNat + size ≤ 2 ^ 64) (x y : Nat) (colour : UInt32) : d.set x y colour =
    if x < width ∧ y < height then Bus.store (d.place x y) colour else return () := by
  unfold set
  split
  next inside =>
    rw [address_place fits inside.1 inside.2]
    rfl
  next => rfl

end Places

inductive Stroke
  | set (x y : Nat) (colour : UInt32)
  | clear (colour : UInt32)

namespace Stroke

def draw (d : PixelDisplay) : Stroke → Program Bus Unit
  | set x y colour => d.set x y colour
  | clear colour => d.clear colour

def colour : Stroke → UInt32
  | set _ _ colour => colour
  | clear colour => colour

/-- The pixels of the screen that are covered, in the order in which they are. -/
def pixels : Stroke → List (Nat × Nat)
  | set x y _ => if x < width ∧ y < height then [(x, y)] else []
  | clear _ => (List.range height).flatMap fun y => (List.range width).map fun x => (x, y)

/-- What one pixel is given, if it is covered. -/
def gives (x y : Nat) : Stroke → Option UInt32
  | set column line colour => if x = column ∧ y = line then some colour else none
  | clear colour => some colour

def stores (d : PixelDisplay) (s : Stroke) : List (Exchange Bus) :=
  s.pixels.map fun (x, y) => ⟨.store (d.place x y) s.colour, ()⟩

variable {d : PixelDisplay} {s : Stroke} {log : List (Exchange Bus)}

theorem mem_pixels {x y : Nat} :
    (x, y) ∈ s.pixels ↔ (x < width ∧ y < height) ∧ s.gives x y = some s.colour := by
  cases s with
  | set column line colour =>
    rw [pixels, gives, Option.ite_none_right_eq_some]
    split
    next inside =>
      rw [List.mem_singleton, Prod.mk.injEq]
      constructor
      · rintro ⟨rfl, rfl⟩
        exact ⟨inside, ⟨rfl, rfl⟩, rfl⟩
      · rintro ⟨-, here, -⟩
        exact here
    next outside =>
      constructor
      · rintro ⟨⟩
      · rintro ⟨inside, ⟨rfl, rfl⟩, -⟩
        exact absurd inside outside
  | clear colour =>
    simp [pixels, gives, Stroke.colour, and_comm]

theorem gives_colour {x y : Nat} {c : UInt32} (given : s.gives x y = some c) : c = s.colour := by
  cases s with
  | set =>
    rw [gives, Option.ite_none_right_eq_some] at given
    exact (Option.some.inj given.2).symm
  | clear => exact (Option.some.inj given).symm

private theorem follows_each {α : Type} {list : List α} {f : α → Program Bus PUnit}
    {g : α → List (Exchange Bus)} (each : ∀ a ∈ list, ∀ log, Follows (f a) log () → log = g a)
    (h : Follows (list.forM f) log ()) : log = list.flatMap g := by
  obtain ⟨parts, rfl, rfl, courses⟩ := follows_forM h
  rw [List.flatMap_map]
  exact List.flatMap_congr fun part member =>
    each part.1 (List.mem_map_of_mem member) part.2 (courses part member)

theorem follows_draw (fits : d.base.toNat + size ≤ 2 ^ 64) (h : Follows (s.draw d) log ()) :
    log = s.stores d := by
  cases s with
  | set x y colour =>
    rw [draw, set_eq fits] at h
    rw [stores, pixels]
    split at h
    next inside =>
      rw [follows_call.mp h, if_pos inside]
      rfl
    next outside =>
      rw [(follows_done.mp h).1, if_neg outside]
      rfl
  | clear colour =>
    have row (y : Nat) (hy : y ∈ List.range height) (log : List (Exchange Bus))
        (h : Follows ((List.range width).forM fun x => d.set x y colour) log ()) :
        log = (List.range width).flatMap fun x => [⟨.store (d.place x y) colour, ()⟩] := by
      apply follows_each _ h
      intro x hx log h
      rw [set_eq fits, if_pos ⟨List.mem_range.mp hx, List.mem_range.mp hy⟩] at h
      exact follows_call.mp h
    rw [draw, PixelDisplay.clear, paint] at h
    rw [stores, pixels, List.map_flatMap, follows_each row h]
    simp only [← List.map_eq_flatMap, List.map_map]
    rfl

theorem bounded_draw (fits : d.base.toNat + size ≤ 2 ^ 64) : (s.draw d).Bounded fun _ => True := by
  have bounded_set (x y : Nat) (colour : UInt32) : (d.set x y colour).Bounded fun _ => True := by
    rw [set_eq fits]
    split
    · exact bounded_call trivial
    · trivial
  have bounded_rows (lines columns : List Nat) (colour : UInt32) :
      (lines.forM fun y => columns.forM fun x => d.set x y colour).Bounded fun _ => True :=
    bounded_forM fun y _ => bounded_forM fun x _ => bounded_set x y colour
  cases s with
  | set x y colour => exact bounded_set x y colour
  | clear colour => exact bounded_rows _ _ colour

private theorem answers_pixels {pixels : List (Nat × Nat)} {colour : UInt32} {m m' : Address → UInt8}
    (answered : Bus.bytes.Answers m (pixels.map fun (x, y) => ⟨.store (d.place x y) colour, ()⟩) m')
    (inside : ∀ pixel ∈ pixels, pixel.1 < width ∧ pixel.2 < height) {x y : Nat} (hx : x < width)
    (hy : y < height) : Bus.wordAt m' (d.place x y) =
      if (x, y) ∈ pixels then colour else Bus.wordAt m (d.place x y) := by
  induction pixels generalizing m with
  | nil =>
    rw [answers_nil.mp answered]
    simp
  | cons pixel pixels ih =>
    obtain ⟨column, line⟩ := pixel
    rw [List.map_cons, answers_cons] at answered
    obtain ⟨mid, reply, rest⟩ := answered
    cases reply
    rw [List.forall_mem_cons] at inside
    rw [ih rest inside.2]
    by_cases here : x = column ∧ y = line
    · obtain ⟨rfl, rfl⟩ := here
      simp [Bus.wordAt_setWord]
    · have apart : ¬(column = x ∧ line = y) := fun same => here ⟨same.1.symm, same.2.symm⟩
      rw [Bus.wordAt_setWord_of_misses (place_misses inside.1.1 inside.1.2 hx hy apart)
        (place_misses hx hy inside.1.1 inside.1.2 here)]
      simp [here]

/-- A stroke changes just the pixels that it gives a colour. -/
theorem answers_stroke {m m' : Address → UInt8} (answered : Bus.bytes.Answers m (s.stores d) m') {x y : Nat}
    (hx : x < width) (hy : y < height) : Bus.wordAt m' (d.place x y) =
      (s.gives x y).getD (Bus.wordAt m (d.place x y)) := by
  rw [answers_pixels answered (fun pixel member => (mem_pixels.mp member).1) hx hy]
  cases given : s.gives x y with
  | some colour =>
    obtain rfl := gives_colour given
    exact if_pos (mem_pixels.mpr ⟨⟨hx, hy⟩, given⟩)
  | none =>
    apply if_neg
    intro member
    cases given.symm.trans (mem_pixels.mp member).2

/-- A pixel shows the last stroke that covers it. -/
theorem answers_strokes {strokes : List Stroke} {m m' : Address → UInt8}
    (answered : Bus.bytes.Answers m (strokes.flatMap (stores d)) m') {x y : Nat} (hx : x < width)
    (hy : y < height) : Bus.wordAt m' (d.place x y) =
      (strokes.reverse.findSome? (gives x y)).getD (Bus.wordAt m (d.place x y)) := by
  induction strokes generalizing m with
  | nil =>
    rw [answers_nil.mp answered]
    rfl
  | cons s strokes ih =>
    rw [List.flatMap_cons, answers_append] at answered
    obtain ⟨mid, here, later⟩ := answered
    rw [ih later, answers_stroke here hx hy, List.reverse_cons, List.findSome?_append,
      List.findSome?_singleton]
    cases strokes.reverse.findSome? (gives x y) <;> rfl

end Stroke

/-- The byte belongs to no pixel of the screen: it lies before the framebuffer, behind it, or where a row is
padded. -/
def Spare (d : PixelDisplay) (byte : Address) : Prop :=
  byte.toNat < d.base.toNat ∨ d.base.toNat + size ≤ byte.toNat ∨
    4 * width ≤ (byte.toNat - d.base.toNat) % 4096

/-- What strokes one after another have done, and what they have stored. -/
structure Framed (d : PixelDisplay) (strokes : List Stroke) (log : List (Exchange Bus))
    (before after : Address → UInt8) : Prop where
  /-- A pixel shows the last stroke that covers it, or else what it did before. -/
  shown : ∀ x < 640, ∀ y < 480, Bus.wordAt after (d.place x y) =
    (strokes.reverse.findSome? (Stroke.gives x y)).getD (Bus.wordAt before (d.place x y))
  /-- Only whole words of pixels are stored, with a colour that the pixel is given. -/
  stored : ∀ exchange ∈ log, ∃ x < 640, ∃ y < 480, ∃ s ∈ strokes, ∃ colour,
    s.gives x y = some colour ∧ exchange = ⟨.store (d.place x y) colour, ()⟩
  /-- Nothing is ever written to the rest. -/
  unwritten : ∀ byte, d.Spare byte → ∀ exchange ∈ log, ∀ address value,
    exchange.request = .store address value → Bus.Misses address byte
  kept : ∀ byte, d.Spare byte → after byte = before byte

section Strokes

variable {d : PixelDisplay}

private theorem misses_of_spare (fits : d.base.toNat + size ≤ 2 ^ 64) {x y : Nat} (hx : x < width)
    (hy : y < height) {byte : Address} (spare : d.Spare byte) : Bus.Misses (d.place x y) byte := by
  have start := place_toNat fits hx hy
  have inside := byte.toNat_lt
  unfold width at hx
  unfold height at hy
  rw [show size = 1966080 from rfl] at fits
  rw [Spare, show size = 1966080 from rfl, show width = 640 from rfl] at spare
  rw [Bus.Misses, UInt64.toNat_sub, start]
  omega

private theorem mem_stores {strokes : List Stroke} {exchange : Exchange Bus}
    (h : exchange ∈ strokes.flatMap (Stroke.stores d)) : ∃ x < 640, ∃ y < 480, ∃ s ∈ strokes, ∃ colour,
      s.gives x y = some colour ∧ exchange = ⟨.store (d.place x y) colour, ()⟩ := by
  obtain ⟨s, member, stored⟩ := List.mem_flatMap.mp h
  obtain ⟨⟨x, y⟩, pixel, rfl⟩ := List.mem_map.mp stored
  obtain ⟨⟨hx, hy⟩, given⟩ := Stroke.mem_pixels.mp pixel
  exact ⟨x, hx, y, hy, s, member, s.colour, given, rfl⟩

/-- Wherever a framebuffer fits into memory, its pixels have words apart from each other, and strokes leave
in each the colour of the last one that covers it. -/
theorem strokes_framed (d : PixelDisplay) (fits : d.base.toNat + size ≤ 2 ^ 64) (strokes : List Stroke)
    (m : Address → UInt8) :
    (∀ x < 640, ∀ y < 480, d.address x y = .ok (d.place x y) ∧
      (d.place x y).toNat = d.base.toNat + (4 * x + 4096 * y)) ∧
    (∀ x < 640, ∀ y < 480, ∀ x' < 640, ∀ y' < 480, ¬(x = x' ∧ y = y') →
      ∀ byte, Bus.Misses (d.place x y) byte ∨ Bus.Misses (d.place x' y') byte) ∧
    (∀ x y colour, ¬(x < 640 ∧ y < 480) → d.set x y colour = return ()) ∧
    ∃ m', Ends Bus.bytes.recorded (strokes.forM (Stroke.draw d)) (m, [])
        (.ok () (m', strokes.flatMap (Stroke.stores d))) ∧
      Framed d strokes (strokes.flatMap (Stroke.stores d)) m m' := by
  refine ⟨?_, ?_, ?_, ?_⟩
  · intro x hx y hy
    exact ⟨address_place fits hx hy, place_toNat fits hx hy⟩
  · intro x hx y hy x' hx' y' hy' apart byte
    have far := place_misses (d := d) hx hy hx' hy' apart
    have near := place_misses (d := d) hx' hy' hx hy fun same => apart ⟨same.1.symm, same.2.symm⟩
    exact Bus.misses_or_misses far near byte
  · intro x y colour outside
    rw [set_eq fits]
    exact if_neg outside
  · have bounded : (strokes.forM (Stroke.draw d)).Bounded fun _ => True :=
      bounded_forM fun s _ => Stroke.bounded_draw fits
    obtain ⟨_, m', ran⟩ := bounded.run 0 Bus.bytes m
    obtain ⟨log, course, answered⟩ := run_course ran
    obtain rfl := Stroke.follows_each (fun s _ log h => Stroke.follows_draw fits h) course
    have unwritten (byte : Address) (spare : d.Spare byte) (exchange : Exchange Bus)
        (member : exchange ∈ strokes.flatMap (Stroke.stores d)) (address : Address) (value : UInt32)
        (stored : exchange.request = .store address value) : Bus.Misses address byte := by
      obtain ⟨x, hx, y, hy, s, -, colour, -, rfl⟩ := mem_stores member
      cases stored
      exact misses_of_spare fits hx hy spare
    refine ⟨m', course.ends_recorded answered, ?_, ?_, unwritten, ?_⟩
    · intro x hx y hy
      exact Stroke.answers_strokes answered hx hy
    · intro exchange member
      exact mem_stores member
    · intro byte spare
      exact Bus.bytes_unstored answered (unwritten byte spare)

/-- A framebuffer whose last byte is the last there is. -/
theorem strokes_framed_at_top :
    let d : PixelDisplay := ⟨0xFFFFFFFFFFE20000⟩
    let strokes : List Stroke :=
      [.set 639 479 1, .clear 2, .set 640 0 3, .set 5 6 4, .set 5 6 7, .set (2 ^ 64 - 1) (2 ^ 64 - 1) 8]
    d.base.toNat + size ≤ 2 ^ 64 ∧ ∃ m', Ends Bus.bytes.recorded (strokes.forM (Stroke.draw d)) (fun _ => 9, [])
        (.ok () (m', strokes.flatMap (Stroke.stores d))) ∧
      Bus.wordAt m' 0xFFFFFFFFFFFFF9FC = 2 ∧ Bus.wordAt m' 0xFFFFFFFFFFE26014 = 7 ∧
      m' 0xFFFFFFFFFFE20A00 = 9 ∧ m' 0xFFFFFFFFFFE1FFFF = 9 := by
  intro d strokes
  have fits : d.base.toNat + size ≤ 2 ^ 64 := by decide
  obtain ⟨-, -, -, m', ended, framed⟩ := strokes_framed d fits strokes fun _ => 9
  refine ⟨fits, m', ended, ?_, ?_, ?_, ?_⟩
  · have corner := framed.shown 639 (by decide) 479 (by decide)
    rwa [show d.place 639 479 = 0xFFFFFFFFFFFFF9FC by decide] at corner
  · have inner := framed.shown 5 (by decide) 6 (by decide)
    rwa [show d.place 5 6 = 0xFFFFFFFFFFE26014 by decide] at inner
  · exact framed.kept _ (.inr (.inr (by decide)))
  · exact framed.kept _ (.inl (by decide))

end Strokes

end BoardSupport.PixelDisplay
