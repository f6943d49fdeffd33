import BoardSupport.Proofs.Oled.Chip

/-! A terminal drawn on a panel. Every line is begun anew, so that it does not matter where the controller
was or what became of the line before. -/
namespace BoardSupport.Oled

open Program

variable {ε : Type} {habits : Chip.Habits} {chip : Chip} {p : Panel} {column line : Nat}

namespace Chip

/-- The pointer is at this cell and runs along the rest of its line. -/
def aim (chip : Chip) (p : Panel) (column line : Nat) : Chip :=
  { chip with
    mode := 0
    firstColumn := column * cellWidth
    lastColumn := 127
    firstPage := line
    lastPage := p.pages - 1
    column := column * cellWidth
    page := line }

end Chip

/-- What moves the pointer to a cell. -/
def aiming (p : Panel) (column line : Nat) : List (List UInt8) :=
  [[0x00, 0x20, 0], [0x00, 0x21, UInt8.ofNat (column * cellWidth), 127], [0x00, 0x22, UInt8.ofNat line, p.lastPage]]

theorem sends_setCursor (inside : column < textColumns) (below : line < p.pages) :
    Sends (p.setCursor column line : Session ε Unit) (aiming p column line) := by
  have column_eq : min column (textColumns - 1) = column := by omega
  have line_eq : min line (p.pages - 1) = line := by omega
  rw [Panel.setCursor, column_eq, line_eq]
  exact (sends_transfer _).andThen ((sends_transfer _).andThen (sends_transfer _))

/-- Whatever the controller was at. -/
theorem obey_aiming (inside : column < textColumns) (below : line < p.pages) :
    (aiming p column line).foldl (Chip.obey habits) chip = chip.aim p column line := by
  have column_eq : (UInt8.ofNat (column * cellWidth)).toNat = column * cellWidth := by
    apply UInt8.toNat_ofNat_of_lt'
    simp only [textColumns, cellWidth, UInt8.size] at inside ⊢
    omega
  have line_eq : (UInt8.ofNat line).toNat = line :=
    UInt8.toNat_ofNat_of_lt' (Nat.lt_trans below (Nat.lt_of_le_of_lt p.pages_le (by decide)))
  have last_eq : p.lastPage.toNat = p.pages - 1 :=
    UInt8.toNat_ofNat_of_lt' (Nat.lt_of_le_of_lt (Nat.sub_le ..) (Nat.lt_of_le_of_lt p.pages_le (by decide)))
  calc (aiming p column line).foldl (Chip.obey habits) chip
      = { chip with
          mode := 0
          firstColumn := (UInt8.ofNat (column * cellWidth)).toNat
          lastColumn := 127
          firstPage := (UInt8.ofNat line).toNat
          lastPage := p.lastPage.toNat
          column := (UInt8.ofNat (column * cellWidth)).toNat
          page := (UInt8.ofNat line).toNat } := rfl
    _ = chip.aim p column line := by rw [column_eq, line_eq, last_eq, Chip.aim]

theorem sends_writeRun (d : UInt8) (n : Nat) :
    Sends (writeRun d n : Session ε Unit) [0x40 :: List.replicate n d] := by
  have sends : Sends (writeRun d n : Session ε Unit) [[0x40 :: List.replicate n d].flatten] :=
    sends_transfer _
  rwa [List.flatten_singleton] at sends

theorem sends_writeGlyph (b : UInt8) :
    Sends (writeGlyph b : Session ε Unit) [0x40 :: (Font.glyph b).toList] := by
  have sends : Sends (writeGlyph b : Session ε Unit) [[[0x40], (Font.glyph b).toList].flatten] :=
    sends_transfer _
  rwa [List.flatten_cons, List.flatten_singleton] at sends

/-- What a character puts in this column of the panel, if its cell is there. -/
def glyphByte (b : UInt8) (column : Nat) : UInt8 := (Font.glyph b)[column % 8]

/-- Data of a line that has been aimed at. -/
def drawing (parts : List (List UInt8)) : List (List UInt8) := parts.map (0x40 :: ·)

/-- Data that fits on the rest of a line is kept there, and nothing else changes. -/
theorem memory_drawn (habits : Chip.Habits) (chip : Chip) (parts : List (List UInt8))
    (inside : column < textColumns) (below : line < p.pages)
    (fits : column * cellWidth + parts.flatten.length ≤ columns) (page c : Nat) :
    ((aiming p column line ++ drawing parts).foldl (Chip.obey habits) chip).memory page c =
      if page = line ∧ column * cellWidth ≤ c then
        parts.flatten[c - column * cellWidth]?.getD (chip.memory page c)
      else chip.memory page c := by
  rw [List.foldl_append, obey_aiming inside below, drawing, Chip.obey_all rfl]
  exact Chip.memory_stored fits page c

section Lines

variable {cells : List UInt8}

/-- The bytes of a line that shows these cells, and is dark to the right of them. -/
def lineByte (cells : List UInt8) (c : Nat) : UInt8 :=
  match (cells.take textColumns)[c / 8]? with
  | some b => glyphByte b c
  | none => 0

def shownParts (cells : List UInt8) : List (List UInt8) :=
  (cells.take textColumns).map fun b => (Font.glyph b).toList

def darkParts (cells : List UInt8) : List (List UInt8) :=
  let rest := (textColumns - (cells.take textColumns).length) * cellWidth
  if rest > 0 then [List.replicate rest 0] else []

/-- What draws a line. -/
def lineScript (p : Panel) (line : Nat) (cells : List UInt8) : List (List UInt8) :=
  aiming p 0 line ++ drawing (shownParts cells ++ darkParts cells)

private theorem sends_drawLine (below : line < p.pages) :
    Sends (p.drawLine line cells : Session ε Unit) (lineScript p line cells) := by
  have dark : Sends (ε := ε) (if (textColumns - (cells.take textColumns).length) * cellWidth > 0 then
      writeRun 0 ((textColumns - (cells.take textColumns).length) * cellWidth) else pure ())
      (drawing (darkParts cells)) := by
    unfold darkParts
    dsimp only
    split
    · exact sends_writeRun 0 _
    · exact sends_nothing
  have shown : Sends (ε := ε) ((cells.take textColumns).forM writeGlyph) (drawing (shownParts cells)) := by
    have each : Sends (ε := ε) ((cells.take textColumns).forM writeGlyph)
        ((cells.take textColumns).flatMap fun b => [0x40 :: (Font.glyph b).toList]) :=
      sends_forM fun b _ => sends_writeGlyph b
    rwa [← List.map_eq_flatMap, ← Function.comp_def, ← List.map_map] at each
  rw [lineScript, drawing, List.map_append]
  exact (sends_setCursor textColumns_pos below).andThen (shown.andThen dark)

private theorem getElem?_glyphs (cells : List UInt8) (c : Nat) :
    (cells.map fun b => (Font.glyph b).toList).flatten[c]? =
      cells[c / 8]?.map fun b => glyphByte b c := by
  induction cells generalizing c with
  | nil => simp
  | cons b cells ih =>
    have width : (Font.glyph b).toList.length = 8 := (Font.glyph b).length_toList
    rw [List.map_cons, List.flatten_cons]
    by_cases first : c < 8
    · have here : c / 8 = 0 := Nat.div_eq_of_lt first
      have same : c % 8 = c := Nat.mod_eq_of_lt first
      rw [List.getElem?_append_left (by omega)]
      simp [glyphByte, here, same]
    · obtain ⟨k, rfl⟩ : ∃ k, c = k + 8 := ⟨c - 8, by omega⟩
      have next : (k + 8) / 8 = k / 8 + 1 := Nat.add_div_right k (by decide)
      rw [List.getElem?_append_right (by omega), width, Nat.add_sub_cancel, ih, next, List.getElem?_cons_succ]
      simp only [glyphByte, Nat.add_mod_right]

private theorem length_glyphs (cells : List UInt8) :
    (cells.map fun b => (Font.glyph b).toList).flatten.length = cells.length * cellWidth := by
  induction cells with
  | nil => rfl
  | cons b cells ih =>
    rw [List.map_cons, List.flatten_cons, List.length_append, Vector.length_toList, ih, List.length_cons,
      Nat.succ_mul, Nat.add_comm]
    rfl

private theorem flatten_darkParts (cells : List UInt8) : (darkParts cells).flatten =
    List.replicate ((textColumns - (cells.take textColumns).length) * cellWidth) 0 := by
  unfold darkParts
  dsimp only
  split
  · exact List.flatten_singleton ..
  · next none =>
    rw [Nat.eq_zero_of_not_pos none]
    rfl

private theorem length_parts (cells : List UInt8) :
    (shownParts cells ++ darkParts cells).flatten.length = columns := by
  have most : (cells.take textColumns).length ≤ textColumns := List.length_take_le ..
  rw [List.flatten_append, List.length_append, shownParts, length_glyphs, flatten_darkParts,
    List.length_replicate, ← Nat.add_mul, Nat.add_sub_of_le most]
  rfl

private theorem getElem?_parts (cells : List UInt8) {c : Nat} (inside : c < columns) :
    (shownParts cells ++ darkParts cells).flatten[c]? = some (lineByte cells c) := by
  have whole : c < (shownParts cells ++ darkParts cells).flatten.length := by rwa [length_parts]
  rw [List.flatten_append, List.length_append] at whole
  rw [List.flatten_append, lineByte]
  cases found : (cells.take textColumns)[c / 8]? with
  | some b =>
    have early : c < (shownParts cells).flatten.length := by
      obtain ⟨below, -⟩ := List.getElem?_eq_some_iff.mp found
      rw [shownParts, length_glyphs]
      exact Nat.lt_mul_of_div_lt below (by decide)
    rw [List.getElem?_append_left early, shownParts, getElem?_glyphs, found]
    rfl
  | none =>
    have late : (shownParts cells).flatten.length ≤ c := by
      rw [shownParts, length_glyphs]
      exact (Nat.le_div_iff_mul_le (by decide)).mp (List.getElem?_eq_none_iff.mp found)
    rw [List.getElem?_append_right late, flatten_darkParts, List.getElem?_replicate_of_lt]
    rw [flatten_darkParts, List.length_replicate] at whole
    omega

/-- Drawing a line changes nothing outside the line. -/
private theorem memory_line (below : line < p.pages) (page c : Nat) :
    ((lineScript p line cells).foldl (Chip.obey habits) chip).memory page c =
      if page = line ∧ c < columns then lineByte cells c else chip.memory page c := by
  have fits : 0 * cellWidth + (shownParts cells ++ darkParts cells).flatten.length ≤ columns := by
    rw [length_parts, Nat.zero_mul]
    exact Nat.le_of_eq (Nat.zero_add columns)
  rw [lineScript, memory_drawn _ _ _ textColumns_pos below fits]
  simp only [Nat.zero_mul, Nat.zero_le, and_true, Nat.sub_zero]
  by_cases here : page = line
  · by_cases inside : c < columns
    · rw [if_pos here, if_pos ⟨here, inside⟩, getElem?_parts cells inside]
      rfl
    · have beyond : (shownParts cells ++ darkParts cells).flatten[c]? = none := by
        rw [List.getElem?_eq_none_iff, length_parts]
        exact Nat.le_of_not_lt inside
      rw [if_pos here, beyond, if_neg fun both => inside both.2]
      rfl
  · rw [if_neg here, if_neg fun both => here both.1]

end Lines

section Screens

variable {w h : Nat}

def screenScript (p : Panel) (rows : List (Vector UInt8 w)) (n : Nat) : List (List UInt8) :=
  (rows.zipIdx n).flatMap fun (row, line) => lineScript p line row.toList

private theorem lineByte_row (row : Vector UInt8 w) (c : Nat) : lineByte row.toList c =
    if shown : c / 8 < min w 16 then glyphByte row[c / 8] c else 0 := by
  have cells (i : Nat) : (row.toList.take textColumns)[i]? = if i < 16 then row[i]? else none := by
    rw [List.getElem?_take, Vector.getElem?_toList]
    rfl
  unfold lineByte
  rw [cells]
  by_cases shown : c / 8 < min w 16
  · have inside : c / 8 < w := by omega
    have visible : c / 8 < 16 := by omega
    rw [if_pos visible, dif_pos shown, Vector.getElem?_eq_getElem inside]
  · have hidden : (if c / 8 < 16 then row[c / 8]? else none) = none := by
      split
      · exact Vector.getElem?_eq_none (by omega)
      · rfl
    rw [dif_neg shown, hidden]

/-- Lines from `n` on. -/
private theorem memory_screen (habits : Chip.Habits) (chip : Chip) (rows : List (Vector UInt8 w)) {n : Nat}
    (below : n + rows.length ≤ p.pages) (page c : Nat) : ((screenScript p rows n).foldl (Chip.obey habits) chip).memory page c =
      if n ≤ page ∧ c < columns then
        (rows[page - n]?.map fun row => lineByte row.toList c).getD (chip.memory page c)
      else chip.memory page c := by
  induction rows generalizing n chip with
  | nil => simp [screenScript]
  | cons row rows ih =>
    rw [List.length_cons] at below
    have first : screenScript p (row :: rows) n =
        lineScript p n row.toList ++ screenScript p rows (n + 1) := rfl
    rw [first, List.foldl_append, ih _ (by omega), memory_line (by omega)]
    grind

theorem sends_refresh (p : Panel) (t : Terminal w h) :
    Sends (p.refresh t : Session ε Unit) (screenScript p (t.rows.take p.pages) 0) := by
  apply sends_forM
  rintro ⟨row, line⟩ mem
  have below : line < (t.rows.take p.pages).length := by
    simpa using List.snd_lt_of_mem_zipIdx mem
  exact sends_drawLine (Nat.lt_of_lt_of_le below (List.length_take_le ..))

/-- After a terminal is drawn whole, a panel shows its top rows, each cut off or made up with dark columns
to the width of the panel, and nothing below them has changed. It is drawn whole unless the bus refuses
something, whatever the controller was at before. -/
theorem refresh_shows (p : Panel) (t : Terminal w h) (habits : Chip.Habits) (rig : Rig ε) :
    ∃ result left, Ends (panelBus habits) (p.refresh t).run rig (.ok result left) ∧
      ((∀ n, rig.refusals.get n = none) → result = .ok ()) ∧
      (result = .ok () →
        (∀ (r : Fin h) (c : Nat), r < p.pages → c < 128 → left.chip.memory r c =
          if shown : c / 8 < min w 16 then glyphByte (t.row r)[c / 8] c else 0) ∧
        ∀ page c, min h p.pages ≤ page → left.chip.memory page c = rig.chip.memory page c) := by
  obtain ⟨result, left, delivers, ends⟩ := sends_refresh p t habits rig
  refine ⟨result, left, ends, delivers.fine, ?_⟩
  rintro rfl
  have count : (t.rows.take p.pages).length = min h p.pages := by
    simp [Terminal.rows, Nat.min_comm]
  have memory := memory_screen habits rig.chip (t.rows.take p.pages) (n := 0) (p := p) (by omega)
  rw [delivers.obeyed]
  constructor
  · intro r c below inside
    have row : (t.rows.take p.pages)[r.val]? = some (t.row r) := by
      rw [List.getElem?_take_of_lt below, Terminal.rows]
      simp
    rw [memory, if_pos ⟨Nat.zero_le _, inside⟩, Nat.sub_zero, row]
    exact lineByte_row (t.row r) c
  · intro page c beyond
    have none : (t.rows.take p.pages)[page]? = none := by
      rw [List.getElem?_eq_none_iff, count]
      exact beyond
    rw [memory, Nat.sub_zero, none]
    split <;> rfl

end Screens

end BoardSupport.Oled
