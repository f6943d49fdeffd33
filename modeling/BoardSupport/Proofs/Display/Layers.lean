import BoardSupport.Proofs.Display.Clipping

/-! Drawings one over the other. Each covers a part of the screen, and a cell shows what the last drawing
that covers it has there. -/
namespace BoardSupport.TextDisplay

open Program

variable {d : TextDisplay}

namespace Picture

/-- What the last of the pictures that covers a place paints it with. -/
def latest (pictures : List Picture) : Picture := fun x y => pictures.reverse.findSome? (· x y)

/-- The places from one column and line to another, both included. -/
def rectangle (x1 y1 x2 y2 : Nat) (word : UInt32) : Picture := fun x y =>
  if (x1 ≤ x ∧ x ≤ x2) ∧ y1 ≤ y ∧ y ≤ y2 then some word else none

theorem latest_cons (picture : Picture) (later : List Picture) :
    latest (picture :: later) = (latest later).atop picture := by
  funext x y
  simp only [latest, atop, List.reverse_cons, List.findSome?_append, List.findSome?_singleton]

/-- Where all paint with one word, it does not matter which is the last. -/
theorem latest_uniform {α : Type} (covers : α → Nat → Nat → Prop) [∀ a x y, Decidable (covers a x y)]
    (word : UInt32) (list : List α) (x y : Nat) :
    latest (list.map fun a x y => if covers a x y then some word else none) x y =
      if ∃ a ∈ list, covers a x y then some word else none := by
  induction list with
  | nil => simp [latest]
  | cons a rest ih =>
    rw [List.map_cons, latest_cons, atop, ih]
    by_cases later : ∃ b ∈ rest, covers b x y <;> by_cases here : covers a x y <;> simp [later, here]

end Picture

/-- Of programs one after another, each paints over those before it. -/
theorem Paints.forM {α : Type} {list : List α} {f : α → Program Bus Unit} (picture : α → Picture)
    (each : ∀ a ∈ list, Paints d (f a) (picture a)) :
    Paints d (list.forM f) (.latest (list.map picture)) := by
  induction list with
  | nil => exact Paints.nothing
  | cons a rest ih =>
    rw [List.map_cons, Picture.latest_cons]
    exact (each a List.mem_cons_self).atop (ih fun b member => each b (List.mem_cons_of_mem a member))

section Rectangles

variable (x1 y1 x2 y2 : Nat) (paper : Colour)

private theorem mem_span {first last n : Nat} : n ∈ span first last ↔ first ≤ n ∧ n ≤ last := by
  rw [span, List.mem_range'_1]
  omega

private theorem exists_span {first last k : Nat} (p : Prop) :
    (∃ n ∈ span first last, p ∧ k = n) ↔ p ∧ first ≤ k ∧ k ≤ last := by
  constructor
  · rintro ⟨n, member, holds, rfl⟩
    exact ⟨holds, mem_span.mp member⟩
  · rintro ⟨holds, between⟩
    exact ⟨k, mem_span.mpr between, holds, rfl⟩

private theorem line_paints (y : Nat) :
    Paints d ((span x1 x2).forM fun x => d.set x y 0 .black paper)
      fun x line => if (x1 ≤ x ∧ x ≤ x2) ∧ line = y then some (cell 0 .black paper) else none := by
  have dots (column : Nat) : Paints d (d.set column y 0 .black paper)
      fun x line => if line = y ∧ x = column then some (cell 0 .black paper) else none := by
    apply (set_paints column y 0 .black paper).congr
    intro x _ line _
    simp only [Picture.dot, and_comm]
  apply (Paints.forM _ fun x _ => dots x).congr
  intro x _ line _
  rw [Picture.latest_uniform fun column x line => line = y ∧ x = column]
  simp only [exists_span]
  simp only [and_comm]

theorem fill_paints : Paints d (d.fill x1 y1 x2 y2 paper) (.rectangle x1 y1 x2 y2 (cell 0 .black paper)) := by
  apply (Paints.forM _ fun y _ => line_paints x1 x2 paper y).congr
  intro x _ y _
  rw [Picture.latest_uniform fun line x y => (x1 ≤ x ∧ x ≤ x2) ∧ y = line]
  simp only [exists_span, Picture.rectangle]

theorem fill_inks :
    (d.fill x1 y1 x2 y2 paper).Bounded (d.Inks (.rectangle x1 y1 x2 y2 (cell 0 .black paper))) := by
  apply bounded_forM
  intro y hy
  apply bounded_forM
  intro x hx
  apply (set_inks x y 0 .black paper).imp
  intro request inked
  apply inked.congr
  intro column _ line _ word shown
  obtain ⟨rfl, rfl, rfl⟩ := of_dot shown
  exact if_pos ⟨mem_span.mp hx, mem_span.mp hy⟩

end Rectangles

theorem refresh_inks {w h : Nat} (t : Terminal w h) :
    (d.refresh t).Bounded (d.Inks (.ofTerminal t)) := by
  apply bounded_forM
  rintro ⟨row, y⟩ line'
  apply bounded_forM
  rintro ⟨code, x⟩ place
  apply (set_inks x y code .white .black).imp
  intro request inked
  apply inked.congr
  intro column _ line _ word shown
  obtain ⟨rfl, rfl, rfl⟩ := of_dot shown
  have here : t.rows[line]? = some row := List.mem_zipIdx_iff_getElem?.mp line'
  have there : row.toList[column]? = some code := List.mem_zipIdx_iff_getElem?.mp place
  rw [Picture.ofTerminal, here, Option.bind_some, there, Option.map_some]

namespace Drawing

/-- What a drawing covers, and with what. -/
def picture : Drawing → Picture
  | set x y code ink paper => .dot x y (cell code ink paper)
  | string x y codes ink paper => .text x y codes ink paper
  | fill x1 y1 x2 y2 paper => .rectangle x1 y1 x2 y2 (cell 0 .black paper)
  | clear => fun _ _ => some (cell 0 .black .black)
  | refresh t => .ofTerminal t

theorem Fits.paints {drawing : Drawing} (fits : drawing.Fits) :
    Paints d (drawing.draw d) drawing.picture := by
  cases drawing with
  | set x y code ink paper => exact set_paints x y code ink paper
  | string x y codes ink paper => exact string_paints fits
  | fill x1 y1 x2 y2 paper => exact fill_paints x1 y1 x2 y2 paper
  | clear =>
    apply (fill_paints 0 0 (columns - 1) (lines - 1) .black).congr
    intro x hx y hy
    exact if_pos ⟨⟨Nat.zero_le x, Nat.le_sub_one_of_lt hx⟩, Nat.zero_le y, Nat.le_sub_one_of_lt hy⟩
  | refresh t => exact refresh_paints t

theorem Fits.inks {drawing : Drawing} (fits : drawing.Fits) :
    (drawing.draw d).Bounded (d.Inks drawing.picture) := by
  cases drawing with
  | set x y code ink paper => exact set_inks x y code ink paper
  | string x y codes ink paper => exact string_inks fits
  | fill x1 y1 x2 y2 paper => exact fill_inks x1 y1 x2 y2 paper
  | clear =>
    apply (fill_inks 0 0 (columns - 1) (lines - 1) .black).imp
    intro request inked
    apply inked.congr
    intro x _ y _ word shown
    unfold Picture.rectangle at shown
    split at shown
    · exact shown
    · cases shown
  | refresh t => exact refresh_inks t

end Drawing

/-- What drawings one after another have done, each with what it stored. -/
structure Layered (d : TextDisplay) (layers : List (Drawing × List (Exchange Bus)))
    (before after : Address → UInt32) : Prop where
  /-- A cell shows the last drawing that covers it, or else what it did before. -/
  shown : ∀ x < 80, ∀ y < 30, after (d.address x y) =
    ((layers.reverse.findSome? fun layer => layer.1.picture x y).getD (before (d.address x y)))
  /-- Each drawing stores what it covers and nothing else. -/
  inked : ∀ layer ∈ layers, ∀ exchange ∈ layer.2, d.Inks layer.1.picture exchange.request
  /-- A string stays in its line. -/
  inLine : ∀ layer ∈ layers, ∀ x y codes ink paper, layer.1 = .string x y codes ink paper →
    ∀ exchange ∈ layer.2, ∃ column < 80, ∃ word, exchange.request = .store (d.address column y) word
  /-- There are 2400 words of screen. -/
  within : ∀ layer ∈ layers, ∀ exchange ∈ layer.2, ∃ i < 80 * 30, ∃ word,
    exchange.request = .store (d.base + UInt64.ofNat (4 * i)) word

private theorem inLine_of_inks {x y : Nat} {codes : List UInt8} {ink paper : Colour} {request : Bus.Request}
    (inked : d.Inks (.text x y codes ink paper) request) :
    ∃ column < 80, ∃ word, request = .store (d.address column y) word := by
  cases request with
  | load | idle => exact inked.elim
  | store address word =>
    obtain ⟨column, hx, line, hy, rfl, shown⟩ := inked
    obtain ⟨rfl, -⟩ := of_text shown
    exact ⟨column, hx, word, rfl⟩

private theorem within_of_inks {picture : Picture} {request : Bus.Request} (inked : d.Inks picture request) :
    ∃ i < 80 * 30, ∃ word, request = .store (d.base + UInt64.ofNat (4 * i)) word := by
  cases request with
  | load | idle => exact inked.elim
  | store address word =>
    obtain ⟨x, hx, y, hy, rfl, -⟩ := inked
    unfold columns at hx
    unfold lines at hy
    exact ⟨80 * y + x, by omega, word, by rw [address_eq]⟩

/-- Drawings that fit come to an end, and then the last to cover a cell is what shows there. -/
theorem drawings_layered (d : TextDisplay) (drawings : List Drawing)
    (fits : ∀ drawing ∈ drawings, drawing.Fits) (m : Address → UInt32) :
    ∃ m' layers, layers.map Prod.fst = drawings ∧
      Ends Bus.memory.recorded (drawings.forM (Drawing.draw d)) (m, [])
        (.ok () (m', layers.flatMap Prod.snd)) ∧
      Layered d layers m m' := by
  have paints := Paints.forM (d := d) Drawing.picture fun drawing member => (fits drawing member).paints
  obtain ⟨_, m', ran⟩ := paints.onScreen.run 0 Bus.memory m
  obtain ⟨log, course, answered⟩ := run_course ran
  obtain ⟨layers, rfl, rfl, each⟩ := follows_forM course
  have inked : ∀ layer ∈ layers, ∀ exchange ∈ layer.2, d.Inks layer.1.picture exchange.request := by
    intro layer member
    exact (each layer member).bounded (fits layer.1 (List.mem_map_of_mem member)).inks
  refine ⟨m', layers, rfl, course.ends_recorded answered, ?_, inked, ?_, ?_⟩
  · intro x hx y hy
    rw [paints.shown course answered x hx y hy, Picture.latest, List.map_map, ← List.map_reverse,
      List.findSome?_map]
    rfl
  · intro layer member x y codes ink paper same exchange stored
    have text := inked layer member exchange stored
    rw [same] at text
    exact inLine_of_inks text
  · intro layer member exchange stored
    exact within_of_inks (inked layer member exchange stored)

/-- An empty rectangle, strings over both edges of the numbers and of the screen, and a terminal that has
scrolled, on a screen that wraps around memory. -/
theorem drawings_layered_at_edges :
    let drawings : List Drawing := [.fill 3 2 1 5 .red, .string 78 1 [120, 121, 122] .green .blue,
      .string (2 ^ 64 - 2) 0 [65, 66] .white .black, .fill 79 29 (2 ^ 64 - 1) (2 ^ 64 - 1) .grey,
      .refresh ((Terminal.empty 2 1).writeBytes [97, 98, 99]), .set 80 0 1 .red .red]
    (∀ drawing ∈ drawings, drawing.Fits) ∧ ∃ m' layers, layers.map Prod.fst = drawings ∧
      Ends Bus.memory.recorded (drawings.forM (Drawing.draw ⟨0xFFFFFFFFFFFFFF00⟩)) (fun _ => 7, [])
        (.ok () (m', layers.flatMap Prod.snd)) ∧
      Layered ⟨0xFFFFFFFFFFFFFF00⟩ layers (fun _ => 7) m' := by
  intro drawings
  have fits : ∀ drawing ∈ drawings, drawing.Fits := by simp [drawings, Drawing.Fits]
  exact ⟨fits, drawings_layered ⟨0xFFFFFFFFFFFFFF00⟩ drawings fits fun _ => 7⟩

end BoardSupport.TextDisplay
