import BoardSupport.Proofs.Terminal.Scroll

/-! The screen in plain storage, where any number may be an index and every step is checked. On a
screen that fits in memory nothing goes wrong, and the storage is what the terminal says. -/
namespace BoardSupport.Terminal

/-- What can go wrong in a step on plain storage. -/
inductive Slip
  | overflow
  | zeroDivisor
  | outOfBounds
  deriving DecidableEq

/-- Rows of bytes, a cursor and a top that nothing bounds. -/
structure Layout where
  cells : Array (Array UInt8)
  x : Nat
  y : Nat
  top : Nat
  deriving DecidableEq

namespace Layout

/-- The sum, if it is one of the numbers below `limit`. -/
def add (limit a b : Nat) : Except Slip Nat :=
  if a + b < limit then .ok (a + b) else .error .overflow

def mul (limit a b : Nat) : Except Slip Nat :=
  if a * b < limit then .ok (a * b) else .error .overflow

def sub (a b : Nat) : Except Slip Nat := if b ≤ a then .ok (a - b) else .error .overflow

def rem (a b : Nat) : Except Slip Nat := if b = 0 then .error .zeroDivisor else .ok (a % b)

def loadAt {α : Type} (cells : Array α) (i : Nat) : Except Slip α :=
  if inside : i < cells.size then .ok cells[i] else .error .outOfBounds

def storeAt {α : Type} (cells : Array α) (i : Nat) (a : α) : Except Slip (Array α) :=
  if inside : i < cells.size then .ok (cells.set i a) else .error .outOfBounds

variable (limit w h : Nat)

def zeros : Array UInt8 := Array.replicate w 0

def clear : Layout := ⟨Array.replicate h (zeros w), 0, 0, 0⟩

def place (m : Layout) (r : Nat) : Except Slip Nat := do
  rem (← add limit m.top r) h

def row (m : Layout) (r : Nat) : Except Slip (Array UInt8) := do
  loadAt m.cells (← m.place limit h r)

def newline (m : Layout) : Except Slip Layout := do
  if (← add limit m.y 1) < h then
    return { m with x := 0, y := m.y + 1 }
  else
    let scrolled := { m with x := 0, top := ← rem (← add limit m.top 1) h }
    let bottom ← scrolled.place limit h (← sub h 1)
    return { scrolled with cells := ← storeAt m.cells bottom (zeros w) }

def put (m : Layout) (b : UInt8) : Except Slip Layout := do
  let place ← m.place limit h m.y
  let row ← storeAt (← loadAt m.cells place) m.x b
  let written := { m with cells := ← storeAt m.cells place row }
  let x ← add limit m.x 1
  if x = w then written.newline limit w h else return { written with x }

def tab (m : Layout) : Except Slip Layout := do
  let next ← mul limit (← add limit (m.x / tabStop) 1) tabStop
  if next < w then return { m with x := next } else m.newline limit w h

def writeByte (m : Layout) (b : UInt8) : Except Slip Layout :=
  if b = 10 then m.newline limit w h
  else if b = 13 then .ok { m with x := 0 }
  else if b = 8 then .ok { m with x := m.x - 1 }
  else if b = 9 then m.tab limit w h
  else m.put limit w h b

def clearLine (m : Layout) : Except Slip Layout := do
  let place ← m.place limit h m.y
  return { m with cells := ← storeAt m.cells place (zeros w), x := 0 }

def setCursor (m : Layout) (x y : Nat) : Except Slip Layout := do
  return { m with x := min x (← sub w 1), y := min y (← sub h 1) }

def perform (m : Layout) : Action → Except Slip Layout
  | .writeByte b => m.writeByte limit w h b
  | .write s => (s.toList.map byteOf).foldlM (writeByte limit w h) m
  | .newline => m.newline limit w h
  | .carriageReturn => .ok { m with x := 0 }
  | .clearLine => m.clearLine limit w h
  | .clear => .ok (clear w h)
  | .setCursor x y => m.setCursor w h x y

end Layout

/-- Where and how a terminal lies in plain storage. -/
def layout {w h : Nat} (t : Terminal w h) : Layout where
  cells := t.store.toArray.map Vector.toArray
  x := t.x
  y := t.y
  top := t.top

/-- Indices are the numbers below `limit`, and no object in memory takes more than half of what they
can reach. -/
structure FitsMemory (limit w h : Nat) : Prop where
  range : 16 ≤ limit
  half : 2 * (w * h) ≤ limit

section Steps

variable {limit w h : Nat} {t : Terminal w h}

open Layout

private theorem ok_bind {α β : Type} (a : α) (f : α → Except Slip β) : (.ok a >>= f) = f a := rfl

private theorem add_ok {a b : Nat} (fits : a + b < limit) : add limit a b = .ok (a + b) := if_pos fits

private theorem mul_ok {a b : Nat} (fits : a * b < limit) : mul limit a b = .ok (a * b) := if_pos fits

private theorem sub_ok {a b : Nat} (fits : b ≤ a) : sub a b = .ok (a - b) := if_pos fits

private theorem rem_ok {a b : Nat} (positive : 0 < b) : rem a b = .ok (a % b) :=
  if_neg (Nat.ne_of_gt positive)

private theorem FitsMemory.height (fits : FitsMemory limit w h) (t : Terminal w h) : 2 * h ≤ limit := by
  have width := Nat.zero_lt_of_lt t.x.isLt
  have rows : h ≤ w * h := Nat.le_mul_of_pos_left h width
  have half := fits.half
  omega

private theorem FitsMemory.width (fits : FitsMemory limit w h) (t : Terminal w h) : w + 8 ≤ limit := by
  have height := Nat.zero_lt_of_lt t.y.isLt
  have columns : w ≤ w * h := Nat.le_mul_of_pos_right w height
  have half := fits.half
  have enough := fits.range
  omega

theorem layout_place (fits : FitsMemory limit w h) (r : Fin h) :
    t.layout.place limit h r = .ok (t.place r).val := by
  have height := fits.height t
  have top := t.top.isLt
  have inside := r.isLt
  have sum : t.layout.top + r.val < limit := by change t.top.val + r.val < limit; omega
  rw [Layout.place, add_ok sum, ok_bind, rem_ok (Nat.zero_lt_of_lt inside), place_val]
  rfl

theorem layout_load (r : Fin h) : loadAt t.layout.cells (t.place r).val = .ok (t.row r).toArray := by
  have inside : (t.place r).val < t.layout.cells.size := by simp [layout]
  rw [loadAt, dif_pos inside]
  simp [layout, Terminal.row]

theorem layout_store (r : Fin h) (v : Vector UInt8 w) :
    storeAt t.layout.cells (t.place r).val v.toArray = .ok (t.setRow r v).layout.cells := by
  have inside : (t.place r).val < t.layout.cells.size := by simp [layout]
  rw [storeAt, dif_pos inside]
  simp [layout, setRow]

theorem layout_row (fits : FitsMemory limit w h) (r : Fin h) :
    t.layout.row limit h r = .ok (t.row r).toArray := by
  rw [Layout.row, layout_place fits, ok_bind, layout_load]

theorem layout_newline (fits : FitsMemory limit w h) :
    t.layout.newline limit w h = .ok t.newline.layout := by
  have height := fits.height t
  have below := t.y.isLt
  have top := t.top.isLt
  have positive := Nat.zero_lt_of_lt below
  have down : t.layout.y + 1 < limit := by change t.y.val + 1 < limit; omega
  have up : t.layout.top + 1 < limit := by change t.top.val + 1 < limit; omega
  unfold Layout.newline Terminal.newline
  rw [add_ok down, ok_bind]
  by_cases last : t.layout.y + 1 < h
  · have last' : t.y.val + 1 < h := last
    rw [if_pos last, dif_pos last']
    rfl
  · have last' : ¬ t.y.val + 1 < h := last
    rw [if_neg last, dif_neg last', add_ok up, ok_bind, rem_ok positive, ok_bind, sub_ok positive, ok_bind]
    let scrolled : Terminal w h :=
      { t.carriageReturn with top := ⟨(t.top.val + 1) % h, Nat.mod_lt _ positive⟩ }
    let bottom : Fin h := ⟨h - 1, Nat.sub_one_lt_of_lt positive⟩
    have place : scrolled.layout.place limit h (h - 1) = .ok (scrolled.place bottom).val :=
      layout_place fits bottom
    have blanked : storeAt scrolled.layout.cells (scrolled.place bottom).val (zeros w) = _ :=
      layout_store bottom (blankRow w)
    change (scrolled.layout.place limit h (h - 1) >>= _) = _
    rw [place, ok_bind]
    change (storeAt scrolled.layout.cells (scrolled.place bottom).val (zeros w) >>= _) = _
    rw [blanked, ok_bind]
    rfl

theorem layout_put (fits : FitsMemory limit w h) (b : UInt8) :
    t.layout.put limit w h b = .ok (t.put b).layout := by
  have width := fits.width t
  have inside := t.x.isLt
  let row := (t.row t.y).set t.x b
  let written := t.setRow t.y row
  have place : t.layout.place limit h t.layout.y = .ok (t.place t.y).val := layout_place fits t.y
  have changed : storeAt (t.row t.y).toArray t.layout.x b = .ok row.toArray := by
    rw [storeAt, dif_pos (by rw [Vector.size_toArray]; exact inside)]
    rfl
  have right : t.layout.x + 1 < limit := by change t.x.val + 1 < limit; omega
  rw [Layout.put, place, ok_bind, layout_load, ok_bind, changed, ok_bind, layout_store, ok_bind,
    add_ok right, ok_bind]
  change (if t.x.val + 1 = w then written.layout.newline limit w h else _) = _
  unfold Terminal.put
  change _ = Except.ok (layout (if right : t.x.val + 1 < w then _ else written.newline))
  by_cases last : t.x.val + 1 = w
  · rw [if_pos last, dif_neg (by omega)]
    exact layout_newline fits
  · rw [if_neg last, dif_pos (by omega)]
    rfl

theorem layout_tab (fits : FitsMemory limit w h) : t.layout.tab limit w h = .ok t.tab.layout := by
  have width := fits.width t
  have inside := t.x.isLt
  have stop : t.layout.x / tabStop + 1 < limit := by
    change t.x.val / 8 + 1 < limit
    omega
  have next : (t.layout.x / tabStop + 1) * tabStop < limit := by
    change (t.x.val / 8 + 1) * 8 < limit
    omega
  unfold Layout.tab Terminal.tab
  rw [add_ok stop, ok_bind, mul_ok next, ok_bind]
  by_cases right : (t.x.val / tabStop + 1) * tabStop < w
  · rw [dif_pos right]
    exact if_pos right
  · rw [dif_neg right]
    exact (if_neg right).trans (layout_newline fits)

theorem layout_writeByte (fits : FitsMemory limit w h) (b : UInt8) :
    t.layout.writeByte limit w h b = .ok (t.writeByte b).layout := by
  unfold Layout.writeByte Terminal.writeByte
  split
  · exact layout_newline fits
  split
  · rfl
  split
  · rfl
  split
  · exact layout_tab fits
  · exact layout_put fits b

theorem layout_write (fits : FitsMemory limit w h) (bytes : List UInt8) :
    bytes.foldlM (Layout.writeByte limit w h) t.layout = .ok (t.writeBytes bytes).layout := by
  induction bytes generalizing t with
  | nil => rfl
  | cons b rest ih =>
    rw [List.foldlM_cons, layout_writeByte fits, ok_bind, ih]
    rfl

theorem layout_empty (wide : 0 < w) (high : 0 < h) : (empty w h wide high).layout = .clear w h := by
  simp [Layout.clear, layout, empty, blankRow, zeros]

theorem layout_perform (fits : FitsMemory limit w h) (action : Action) :
    t.layout.perform limit w h action = .ok (t.perform action).layout := by
  cases action with
  | writeByte b => exact layout_writeByte fits b
  | write s => exact layout_write fits _
  | newline => exact layout_newline fits
  | carriageReturn => rfl
  | clearLine =>
    change t.layout.clearLine limit w h = _
    have place : t.layout.place limit h t.layout.y = .ok (t.place t.y).val := layout_place fits t.y
    have blanked : storeAt t.layout.cells (t.place t.y).val (zeros w) = _ := layout_store t.y (blankRow w)
    rw [Layout.clearLine, place, ok_bind, blanked, ok_bind]
    rfl
  | clear =>
    exact congrArg Except.ok (layout_empty _ _).symm
  | setCursor x y =>
    change t.layout.setCursor w h x y = _
    rw [Layout.setCursor, sub_ok (Nat.zero_lt_of_lt t.x.isLt), ok_bind,
      sub_ok (Nat.zero_lt_of_lt t.y.isLt), ok_bind]
    rfl

theorem layout_run (fits : FitsMemory limit w h) (actions : List Action) :
    actions.foldlM (Layout.perform limit w h) t.layout = .ok (actions.foldl perform t).layout := by
  induction actions generalizing t with
  | nil => rfl
  | cons action rest ih =>
    rw [List.foldlM_cons, layout_perform fits, ok_bind, ih]
    rfl

end Steps

end BoardSupport.Terminal
