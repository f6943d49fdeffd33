import BoardSupport.Display.Text
import BoardSupport.Proofs.Program.Exchange
import Mathlib.Algebra.Group.Nat.Defs
import Mathlib.Logic.Function.Basic

/-! What a drawing leaves on the text display. A drawing paints a picture: it stores to cells of the
screen only, and then each cell that the picture covers shows it and each other cell is as it was. -/
namespace BoardSupport

open Program

/-- Memory with a word at each address, which takes no notice of time. -/
def Bus.memory : Device Bus Empty (Address → UInt32)
  | .load address => fun m => .ok (m address) m
  | .store address value => fun m => .ok () (Function.update m address value)
  | .idle _ => fun m => .ok () m

theorem Colour.index_lt (colour : Colour) : colour.index.toNat < 2 ^ 4 := by
  cases colour <;> decide

theorem Colour.index_inj {colour colour' : Colour} : colour.index = colour'.index ↔ colour = colour' := by
  cases colour <;> cases colour' <;> decide

namespace TextDisplay

section Cells

variable (code : UInt8) (ink paper : Colour)

private theorem toNat_cell :
    (cell code ink paper).toNat = 2 ^ 8 * (2 ^ 4 * ink.index.toNat + paper.index.toNat) + code.toNat := by
  have ink_lt := ink.index_lt
  have paper_lt := paper.index_lt
  have code_lt := code.toNat_lt
  have colours : 2 ^ 12 * ink.index.toNat ||| 2 ^ 8 * paper.index.toNat =
      2 ^ 8 * (2 ^ 4 * ink.index.toNat + paper.index.toNat) := by
    rw [← Nat.two_pow_add_eq_or_of_lt (by omega)]
    omega
  have above : ink.index.toNat <<< 12 % 2 ^ 32 = 2 ^ 12 * ink.index.toNat := by
    rw [Nat.shiftLeft_eq]
    omega
  have between : paper.index.toNat <<< 8 % 2 ^ 32 = 2 ^ 8 * paper.index.toNat := by
    rw [Nat.shiftLeft_eq]
    omega
  simp only [cell, UInt32.toNat_or, UInt32.toNat_shiftLeft, UInt8.toNat_toUInt32]
  change ink.index.toNat <<< 12 % 2 ^ 32 ||| paper.index.toNat <<< 8 % 2 ^ 32 ||| code.toNat = _
  rw [above, between, colours, Nat.two_pow_add_eq_or_of_lt code_lt]

/-- A word holds the code of its cell in the low byte, and above it the two colours. -/
theorem cell_fields : (cell code ink paper).toUInt8 = code ∧
    cell code ink paper >>> 8 &&& 0xF = paper.index ∧ cell code ink paper >>> 12 = ink.index := by
  have word := toNat_cell code ink paper
  have paper_lt := paper.index_lt
  have code_lt := code.toNat_lt
  refine ⟨UInt8.toNat_inj.mp ?_, UInt32.toNat_inj.mp ?_, UInt32.toNat_inj.mp ?_⟩
  · rw [UInt32.toNat_toUInt8, word]
    omega
  · rw [UInt32.toNat_and, UInt32.toNat_shiftRight, word]
    change _ >>> 8 &&& 2 ^ 4 - 1 = _
    rw [Nat.and_two_pow_sub_one_eq_mod, Nat.shiftRight_eq_div_pow]
    omega
  · rw [UInt32.toNat_shiftRight, word]
    change _ >>> 12 = _
    rw [Nat.shiftRight_eq_div_pow]
    omega

/-- Cells that look different have different words. -/
theorem cell_inj {code code' : UInt8} {ink paper ink' paper' : Colour} :
    cell code ink paper = cell code' ink' paper' ↔ code = code' ∧ ink = ink' ∧ paper = paper' := by
  constructor
  · intro same
    obtain ⟨low, middle, high⟩ := cell_fields code ink paper
    obtain ⟨low', middle', high'⟩ := cell_fields code' ink' paper'
    rw [← same] at low' middle' high'
    exact ⟨low.symm.trans low', Colour.index_inj.mp (high.symm.trans high'),
      Colour.index_inj.mp (middle.symm.trans middle')⟩
  · rintro ⟨rfl, rfl, rfl⟩
    rfl

end Cells

variable {d : TextDisplay}

theorem address_eq (d : TextDisplay) (x y : Nat) :
    d.address x y = d.base + UInt64.ofNat (4 * (80 * y + x)) := by
  rw [address, Bus.word, columns, Nat.mul_comm y]

/-- No two cells share an address, wherever the screen starts. -/
theorem address_inj {x y x' y' : Nat} (hx : x < columns) (hy : y < lines) (hx' : x' < columns)
    (hy' : y' < lines) (same : d.address x y = d.address x' y') : x = x' ∧ y = y' := by
  unfold columns at hx hx'
  unfold lines at hy hy'
  rw [address_eq, address_eq] at same
  have offset := congrArg UInt64.toNat (UInt64.add_right_inj d.base |>.mp same)
  rw [UInt64.toNat_ofNat', UInt64.toNat_ofNat', Nat.mod_eq_of_lt (by omega),
    Nat.mod_eq_of_lt (by omega)] at offset
  omega

def OnScreen (d : TextDisplay) : Bus.Request → Prop
  | .store address _ => ∃ x < columns, ∃ y < lines, address = d.address x y
  | _ => False

/-- What each place is painted with, if it is painted. -/
abbrev Picture := Nat → Nat → Option UInt32

namespace Picture

def dot (column line : Nat) (word : UInt32) : Picture := fun x y =>
  if x = column ∧ y = line then some word else none

def atop (top bottom : Picture) : Picture := fun x y => (top x y).or (bottom x y)

def ofTerminal {w h : Nat} (t : Terminal w h) : Picture := fun x y =>
  t.rows[y]?.bind fun row => row.toList[x]?.map (cell · .white .black)

theorem ofTerminal_of_lt {w h : Nat} (t : Terminal w h) {x y : Nat} (hx : x < w) (hy : y < h) :
    ofTerminal t x y = some (cell (t.row ⟨y, hy⟩)[x] .white .black) := by
  simp [ofTerminal, Terminal.rows, hx, hy]

end Picture

structure Paints (d : TextDisplay) (p : Program Bus Unit) (picture : Picture) : Prop where
  onScreen : p.Bounded d.OnScreen
  shown : ∀ {log m m'}, Follows p log () → Bus.memory.Answers m log m' → ∀ x < columns, ∀ y < lines,
    m' (d.address x y) = (picture x y).getD (m (d.address x y))

namespace Paints

variable {p q : Program Bus Unit} {picture : Picture}

theorem congr {picture' : Picture} (h : Paints d p picture)
    (same : ∀ x < columns, ∀ y < lines, picture x y = picture' x y) : Paints d p picture' where
  onScreen := h.onScreen
  shown := by
    intro log m m' course answered x hx y hy
    rw [h.shown course answered x hx y hy, same x hx y hy]

theorem nothing : Paints d (return ()) fun _ _ => none where
  onScreen := trivial
  shown := by
    intro log m m' course answered x _ y _
    obtain ⟨rfl, -⟩ := follows_done.mp course
    rw [answers_nil.mp answered]
    rfl

theorem atop {top bottom : Picture} (first : Paints d p bottom) (second : Paints d q top) :
    Paints d (p >>= fun _ => q) (top.atop bottom) where
  onScreen := first.onScreen.bind fun _ => second.onScreen
  shown := by
    intro log m m' course answered x hx y hy
    obtain ⟨_, before, after, rfl, painted, overpainted⟩ := follows_bind.mp course
    obtain ⟨mid, here, there⟩ := answers_append.mp answered
    rw [second.shown overpainted there x hx y hy, first.shown painted here x hx y hy, Picture.atop]
    cases top x y <;> rfl

/-- Of a list, the element at `index` is all that reaches a place. -/
theorem zipIdx {α : Type} {list : List α} {k : Nat} {f : α × Nat → Program Bus Unit}
    (index : Nat → Nat → Nat) (picture : α → Picture)
    (each : ∀ a i, (a, i) ∈ list.zipIdx k →
      Paints d (f (a, i)) fun x y => if index x y = i then picture a x y else none) :
    Paints d ((list.zipIdx k).forM f) fun x y =>
      if k ≤ index x y then list[index x y - k]?.bind (picture · x y) else none := by
  induction list generalizing k with
  | nil => simpa using nothing
  | cons a rest ih =>
    have tail := @ih (k + 1) fun b i member => each b i (by simp [member])
    apply ((each a k (by simp)).atop tail).congr
    intro x _ y _
    -- The head reaches only where the index is `k`, and the rest only past it.
    simp only [Picture.atop]
    rcases Nat.lt_trichotomy (index x y) k with below | here | above
    · rw [if_neg (by omega), if_neg (by omega), if_neg (by omega), Option.none_or]
    · rw [if_neg (by omega), if_pos here, if_pos (by omega), here, Nat.sub_self, Option.none_or]
      rfl
    · rw [if_pos (show k + 1 ≤ _ from above), if_neg (by omega), if_pos (by omega), Option.or_none,
        show index x y - k = index x y - (k + 1) + 1 by omega]
      rfl

end Paints

theorem set_paints (x y : Nat) (code : UInt8) (ink paper : Colour) :
    Paints d (d.set x y code ink paper) (.dot x y (cell code ink paper)) := by
  unfold set
  split
  case isTrue inside =>
    refine ⟨bounded_call ⟨x, inside.1, y, inside.2, rfl⟩, ?_⟩
    intro log m m' course answered x' hx' y' hy'
    obtain rfl := follows_call.mp course
    obtain ⟨mid, reply, rest⟩ := answers_cons.mp answered
    cases reply
    rw [answers_nil.mp rest, Picture.dot]
    by_cases here : x' = x ∧ y' = y
    · obtain ⟨rfl, rfl⟩ := here
      simp
    · have other : d.address x' y' ≠ d.address x y :=
        fun same => here (address_inj hx' hy' inside.1 inside.2 same)
      simp [here, other]
  case isFalse outside =>
    apply Paints.nothing.congr
    intro x' hx' y' hy'
    rw [Picture.dot, if_neg]
    rintro ⟨rfl, rfl⟩
    exact outside ⟨hx', hy'⟩

/-- A row that is copied shows from the left edge of its line. -/
private theorem row_paints {w : Nat} (row : Vector UInt8 w) (y : Nat) :
    Paints d (row.toList.zipIdx.forM fun (code, x) => d.set x y code .white .black) fun x y' =>
      if y' = y then row.toList[x]?.map (cell · .white .black) else none := by
  apply (Paints.zipIdx (fun x _ => x)
    (fun code _ y' => if y' = y then some (cell code .white .black) else none) ?_).congr
  · intro x _ y' _
    cases row.toList[x]? <;> simp
  · intro code x _
    apply (set_paints x y code .white .black).congr
    intro x' _ y' _
    simp [Picture.dot, ite_and]

/-- A terminal covers as much of the screen as it is large. -/
theorem refresh_paints {w h : Nat} (t : Terminal w h) : Paints d (d.refresh t) (.ofTerminal t) := by
  apply (Paints.zipIdx (fun _ y => y) (fun row x _ => row.toList[x]?.map (cell · .white .black)) ?_).congr
  · intro x _ y _
    rw [if_pos (Nat.zero_le y)]
    rfl
  · intro row y _
    exact row_paints row y

inductive Drawing
  | set (x y : Nat) (code : UInt8) (ink paper : Colour)
  | string (x y : Nat) (codes : List UInt8) (ink paper : Colour)
  | fill (x1 y1 x2 y2 : Nat) (paper : Colour)
  | clear
  | refresh {w h : Nat} (t : Terminal w h)

namespace Drawing

def draw (d : TextDisplay) : Drawing → Program Bus Unit
  | set x y code ink paper => d.set x y code ink paper
  | string x y codes ink paper => d.string x y codes ink paper
  | fill x1 y1 x2 y2 paper => d.fill x1 y1 x2 y2 paper
  | clear => d.clear
  | refresh t => d.refresh t

/-- No column is past the last 64-bit number. -/
def Fits : Drawing → Prop
  | string x _ codes _ _ => x + codes.length ≤ 2 ^ 64
  | _ => True

private theorem bounded_set (x y : Nat) (code : UInt8) (ink paper : Colour) :
    (d.set x y code ink paper).Bounded d.OnScreen :=
  (set_paints x y code ink paper).onScreen

private theorem bounded_fill (x1 y1 x2 y2 : Nat) (paper : Colour) :
    (d.fill x1 y1 x2 y2 paper).Bounded d.OnScreen :=
  bounded_forM fun y _ => bounded_forM fun x _ => bounded_set x y 0 .black paper

theorem Fits.bounded {drawing : Drawing} (fits : drawing.Fits) :
    (drawing.draw d).Bounded d.OnScreen := by
  cases drawing with
  | set x y code ink paper => exact bounded_set x y code ink paper
  | string x y codes ink paper =>
    apply bounded_forM
    rintro ⟨code, i⟩ member
    have inside : i < codes.length := by
      simpa using List.snd_lt_add_of_mem_zipIdx member
    have column : x + i < UInt64.size := Nat.lt_of_lt_of_le (Nat.add_lt_add_left inside x) fits
    simp only [if_pos column]
    exact bounded_set (x + i) y code ink paper
  | fill x1 y1 x2 y2 paper => exact bounded_fill x1 y1 x2 y2 paper
  | clear => exact bounded_fill ..
  | refresh t => exact (refresh_paints t).onScreen

end Drawing

end TextDisplay

end BoardSupport
