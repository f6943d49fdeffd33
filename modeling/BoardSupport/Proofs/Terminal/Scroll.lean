import BoardSupport.Proofs.Terminal.Sheet
import Mathlib.Data.Nat.ModEq

/-! A terminal shows what a plain screen does. Where the plain screen drops its first row, the
terminal moves its top past that row and blanks it. -/
namespace BoardSupport.Terminal

variable {w h : Nat}

/-- The rows of the screen from top to bottom, as lists. -/
def lines (t : Terminal w h) : List (List UInt8) := t.rows.map Vector.toList

section Rows

variable (t : Terminal w h)

theorem length_lines : t.lines.length = h := by
  simp [lines, rows]

theorem getElem_lines (r : Fin h) (inside : r.val < t.lines.length) :
    t.lines[r.val] = (t.row r).toList := by
  simp [lines, rows]

theorem place_val (r : Fin h) : (t.place r).val = (t.top.val + r.val) % h := by
  rw [place, Fin.val_add]

theorem place_inj {r r' : Fin h} : t.place r = t.place r' ↔ r = r' := by
  constructor
  · intro same
    have sums := congrArg Fin.val same
    rw [place_val, place_val] at sums
    have places : r.val ≡ r'.val [MOD h] := Nat.ModEq.add_left_cancel' t.top.val sums
    exact Fin.ext (places.eq_of_lt_of_lt r.isLt r'.isLt)
  · rintro rfl
    rfl

private theorem row_setRow (r r' : Fin h) (v : Vector UInt8 w) :
    (t.setRow r v).row r' = if r = r' then v else t.row r' := by
  change (t.store.set (t.place r) v)[t.place r'] = _
  by_cases same : r = r'
  · subst same
    rw [if_pos rfl]
    exact Vector.getElem_set_self _
  · rw [if_neg same]
    have other : (t.place r).val ≠ (t.place r').val := by
      rwa [Ne, Fin.val_inj, place_inj]
    exact Vector.getElem_set_ne _ _ other

theorem lines_setRow (r : Fin h) (v : Vector UInt8 w) :
    (t.setRow r v).lines = t.lines.set r.val v.toList := by
  refine List.ext_getElem (by simp [length_lines]) fun i first second => ?_
  have inside : i < h := by rwa [length_lines] at first
  rw [getElem_lines _ ⟨i, inside⟩, row_setRow, List.getElem_set]
  by_cases same : r.val = i
  · rw [if_pos same, if_pos (Fin.ext same)]
  · rw [if_neg same, if_neg (by simpa [Fin.ext_iff] using same)]
    exact (getElem_lines t ⟨i, inside⟩ _).symm

/-- With the top one place on, every row but the last shows what the row below it showed. -/
private theorem row_advanced {t' : Terminal w h} (store : t'.store = t.store)
    (top : t'.top.val = (t.top.val + 1) % h) {r : Fin h} (below : r.val + 1 < h) :
    t'.row r = t.row ⟨r.val + 1, below⟩ := by
  have place : t'.place r = t.place ⟨r.val + 1, below⟩ := by
    rw [Fin.ext_iff, place_val, place_val, top, Nat.mod_add_mod, Nat.add_assoc, Nat.add_comm 1]
  simp only [row, place, store]

theorem lines_newline : t.newline.lines =
    if t.y.val + 1 < h then t.lines else t.lines.tail ++ [List.replicate w 0] := by
  unfold newline
  by_cases below : t.y.val + 1 < h
  · rw [dif_pos below, if_pos below]
    rfl
  · rw [dif_neg below, if_neg below, lines_setRow]
    refine List.ext_getElem ?_ fun i first second => ?_
    · have positive := Nat.zero_lt_of_lt t.y.isLt
      simp only [List.length_set, List.length_append, List.length_tail, length_lines,
        List.length_singleton]
      omega
    · have inside : i < h := by simpa [length_lines] using first
      rw [List.getElem_set]
      by_cases last : h - 1 = i
      · rw [if_pos last, List.getElem_append_right (by simp [length_lines, last])]
        simp [blankRow]
      · have next : i + 1 < h := by omega
        rw [if_neg last, List.getElem_append_left (by simp [length_lines]; omega), List.getElem_tail]
        refine (getElem_lines _ ⟨i, inside⟩ _).trans (.trans ?_ (getElem_lines t ⟨i + 1, next⟩ _).symm)
        refine congrArg Vector.toList (row_advanced t ?_ ?_ _)
        · rfl
        · rfl

end Rows

/-- The terminal shows the plain screen, and its top tells how often that has scrolled. -/
structure Shows (t : Terminal w h) (s : Sheet) : Prop where
  lines : t.lines = s.rows
  x : t.x.val = s.x
  y : t.y.val = s.y
  top : t.top.val = s.scrolls % h

section Steps

variable {t : Terminal w h} {s : Sheet}

theorem shows_empty (wide : 0 < w) (high : 0 < h) : Shows (empty w h wide high) (.clear w h) where
  lines := by
    refine List.ext_getElem (by simp [length_lines, Sheet.clear]) fun i first second => ?_
    have inside : i < h := by rwa [length_lines] at first
    rw [getElem_lines _ ⟨i, inside⟩]
    simp [row, empty, blankRow, Sheet.clear, Sheet.zeros]
  x := rfl
  y := rfl
  top := (Nat.zero_mod h).symm

theorem Shows.newline (shows : Shows t s) : Shows t.newline (s.newline w h) := by
  have lines := t.lines_newline
  rw [shows.lines, shows.y] at lines
  unfold Sheet.newline
  by_cases below : s.y + 1 < h
  · rw [if_pos below] at lines ⊢
    have below' : t.y.val + 1 < h := by rwa [shows.y]
    unfold Terminal.newline at lines ⊢
    rw [dif_pos below'] at lines ⊢
    exact ⟨lines, rfl, congrArg (· + 1) shows.y, shows.top⟩
  · rw [if_neg below] at lines ⊢
    have last : ¬ t.y.val + 1 < h := by rwa [shows.y]
    unfold Terminal.newline at lines ⊢
    rw [dif_neg last] at lines ⊢
    refine ⟨lines, rfl, shows.y, ?_⟩
    change (t.top.val + 1) % h = (s.scrolls + 1) % h
    rw [shows.top, Nat.mod_add_mod]

theorem Shows.setRow (shows : Shows t s) {r : Fin h} {v : Vector UInt8 w} :
    Shows (t.setRow r v) { s with rows := s.rows.set r.val v.toList } where
  lines := by rw [lines_setRow, shows.lines]
  x := shows.x
  y := shows.y
  top := shows.top

private theorem Shows.advance (shows : Shows t s) :
    Shows (if right : t.x.val + 1 < w then { t with x := ⟨t.x.val + 1, right⟩ } else t.newline)
      (if s.x + 1 = w then s.newline w h else { s with x := s.x + 1 }) := by
  have inside := t.x.isLt
  rw [shows.x] at inside
  by_cases last : s.x + 1 = w
  · have last' : ¬ t.x.val + 1 < w := by rw [shows.x]; omega
    rw [if_pos last, dif_neg last']
    exact shows.newline
  · have right : t.x.val + 1 < w := by rw [shows.x]; omega
    rw [if_neg last, dif_pos right]
    exact ⟨shows.lines, congrArg (· + 1) shows.x, shows.y, shows.top⟩

theorem Shows.put (shows : Shows t s) (b : UInt8) : Shows (t.put b) (s.put w h b) := by
  have row : s.rows[s.y]? = some (t.row t.y).toList := by
    have inside : t.y.val < t.lines.length := by rw [length_lines]; exact t.y.isLt
    rw [← shows.lines, ← shows.y, List.getElem?_eq_getElem inside, getElem_lines]
  have written := shows.setRow (r := t.y) (v := (t.row t.y).set t.x b)
  have rows : s.rows.set t.y.val ((t.row t.y).set t.x b).toList =
      s.rows.modify s.y fun row => row.set s.x b := by
    rw [List.modify_eq_set, row, shows.y, Option.getD_some, Vector.toList_set, shows.x]
  rw [rows] at written
  exact written.advance

theorem Shows.tab (shows : Shows t s) : Shows t.tab (s.tab w h) := by
  have next : (t.x.val / tabStop + 1) * tabStop = s.x + (8 - s.x % 8) := by
    rw [shows.x, tabStop]
    omega
  unfold Terminal.tab Sheet.tab
  by_cases right : s.x + (8 - s.x % 8) < w
  · rw [dif_pos (next ▸ right), if_pos right]
    exact ⟨shows.lines, next, shows.y, shows.top⟩
  · rw [dif_neg (next ▸ right), if_neg right]
    exact shows.newline

private theorem Shows.ite {t' : Terminal w h} {s' : Sheet} {c : Prop} [Decidable c] (shows : Shows t s)
    (shows' : Shows t' s') : Shows (if c then t else t') (if c then s else s') := by
  by_cases h : c
  · rwa [if_pos h, if_pos h]
  · rwa [if_neg h, if_neg h]

theorem Shows.moveX (shows : Shows t s) {x : Nat} (inside : x < w) :
    Shows { t with x := ⟨x, inside⟩ } { s with x := x } :=
  ⟨shows.lines, rfl, shows.y, shows.top⟩

theorem Shows.writeByte (shows : Shows t s) (b : UInt8) : Shows (t.writeByte b) (s.writeByte w h b) := by
  have back : Shows t.backspace { s with x := s.x - 1 } := by
    rw [← shows.x]
    exact shows.moveX _
  exact shows.newline.ite ((shows.moveX _).ite (back.ite (shows.tab.ite (shows.put b))))

theorem Shows.write (shows : Shows t s) (text : String) : Shows (t.write text) (s.write w h text) := by
  unfold Terminal.write Sheet.write writeBytes
  rw [List.foldl_map]
  generalize text.toList = characters
  induction characters generalizing t s with
  | nil => exact shows
  | cons c rest ih => exact ih (shows.writeByte (byteOf c))

theorem Shows.perform (shows : Shows t s) (action : Action) :
    Shows (t.perform action) (s.perform w h action) := by
  cases action with
  | writeByte b => exact shows.writeByte b
  | write text => exact shows.write text
  | newline => exact shows.newline
  | carriageReturn => exact shows.moveX _
  | clearLine =>
    have blanked := shows.setRow (r := t.y) (v := blankRow w)
    rw [shows.y, show (blankRow w).toList = Sheet.zeros w by simp [blankRow, Sheet.zeros]] at blanked
    exact blanked.moveX _
  | clear => exact shows_empty _ _
  | setCursor x y => exact ⟨shows.lines, rfl, rfl, shows.top⟩

theorem Shows.run (shows : Shows t s) (actions : List Action) :
    Shows (actions.foldl Terminal.perform t) (actions.foldl (Sheet.perform w h) s) := by
  induction actions generalizing t s with
  | nil => exact shows
  | cons action rest ih => exact ih (shows.perform action)

end Steps

end BoardSupport.Terminal
