import BoardSupport.Proofs.Terminal.Layout

/-! The circular terminal and its plain storage, against a plain scrolling screen. -/
namespace BoardSupport.Terminal

variable {w h : Nat}

/-- The terminal has the screen's cursor and rows, and its top tells how often the screen has
scrolled since it was last clear. -/
structure Refines (t : Terminal w h) (s : Sheet) : Prop where
  cursor : (t.x.val, t.y.val) = (s.x, s.y)
  rows : t.rows.map Vector.toList = s.rows
  row : ∀ r, (t.checkedRow r).toOption.map Vector.toList = s.rows[r]?
  top : t.top.val = s.scrolls % h

/-- So has the plain storage, although nothing bounds its numbers, and all its rows can be read. -/
structure Layout.Refines (limit w h : Nat) (m : Layout) (s : Sheet) : Prop where
  cursor : (m.x, m.y) = (s.x, s.y)
  row : ∀ r < h, ∃ row, m.row limit h r = .ok row ∧ s.rows[r]? = some row.toList
  top : m.top = s.scrolls % h
  inside : m.x < w ∧ m.y < h ∧ m.top < h

section Shows

variable {t : Terminal w h} {s : Sheet}

private theorem Shows.getElem? (shows : Shows t s) (r : Fin h) :
    s.rows[r.val]? = some (t.row r).toList := by
  have inside : r.val < t.lines.length := by rw [length_lines]; exact r.isLt
  rw [← shows.lines, List.getElem?_eq_getElem inside, getElem_lines]

theorem Shows.refines (shows : Shows t s) : Refines t s where
  cursor := by rw [shows.x, shows.y]
  rows := shows.lines
  row := by
    intro r
    unfold checkedRow
    by_cases inside : r < h
    · rw [dif_pos inside]
      exact (shows.getElem? ⟨r, inside⟩).symm
    · rw [dif_neg inside, ← shows.lines, List.getElem?_eq_none (by rw [length_lines]; omega)]
      rfl
  top := shows.top

theorem Shows.layout_refines {limit : Nat} (shows : Shows t s) (fits : FitsMemory limit w h) :
    t.layout.Refines limit w h s where
  cursor := shows.refines.cursor
  row := by
    intro r inside
    refine ⟨(t.row ⟨r, inside⟩).toArray, layout_row fits ⟨r, inside⟩, ?_⟩
    exact shows.getElem? ⟨r, inside⟩
  top := shows.top
  inside := ⟨t.x.isLt, t.y.isLt, t.top.isLt⟩

end Shows

/-- Whatever is done to a blank terminal, it shows what a plain scrolling screen does, and nothing
goes wrong in its storage. -/
theorem run_refines (wide : 0 < w) (high : 0 < h) (actions : List Action) :
    Refines (actions.foldl perform (empty w h wide high))
        (actions.foldl (Sheet.perform w h) (.clear w h)) ∧
      ∀ limit, FitsMemory limit w h →
        ∃ m, actions.foldlM (Layout.perform limit w h) (.clear w h) = .ok m ∧
          m.Refines limit w h (actions.foldl (Sheet.perform w h) (.clear w h)) := by
  have shows := (shows_empty wide high).run actions
  refine ⟨shows.refines, fun limit fits => ⟨_, ?_, shows.layout_refines fits⟩⟩
  rw [← layout_run fits, layout_empty]

theorem run_refines_three_by_two :
    let actions : List Action := [.write "ab\nöc", .writeByte 33, .setCursor 7 0, .writeByte 46]
    let screen : Sheet := ⟨[[63, 99, 46], [0, 0, 0]], 0, 1, 1⟩
    0 < 3 ∧ 0 < 2 ∧ FitsMemory 16 3 2 ∧ Refines (actions.foldl perform (empty 3 2)) screen ∧
      ∃ m, actions.foldlM (Layout.perform 16 3 2) (.clear 3 2) = .ok m ∧ m.Refines 16 3 2 screen := by
  intro actions screen
  have shown : actions.foldl (Sheet.perform 3 2) (.clear 3 2) = screen := by decide +kernel
  have fits : FitsMemory 16 3 2 := ⟨by decide, by decide⟩
  obtain ⟨refines, stored⟩ := run_refines (w := 3) (h := 2) (by decide) (by decide) actions
  rw [shown] at refines stored
  exact ⟨by decide, by decide, fits, refines, stored 16 fits⟩

end BoardSupport.Terminal
