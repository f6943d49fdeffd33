import BoardSupport.Proofs.Display.Painting

/-! A string on the text display covers what of it is on the screen and nothing else, and it ends for
good at a column past the last 64-bit number. -/
namespace BoardSupport

open Program

/-- Memory keeps the words that nothing is stored to. -/
theorem memory_unstored {log : List (Exchange Bus)} {m m' : Address → UInt32} {address : Address}
    (answered : Bus.memory.Answers m log m')
    (apart : ∀ exchange ∈ log, ∀ word, exchange.request ≠ .store address word) :
    m' address = m address := by
  induction answered with
  | nil => rfl
  | @cons m mid m' exchange log reply rest ih =>
    rw [ih fun later member => apart later (List.mem_cons_of_mem _ member)]
    have here := apart exchange List.mem_cons_self
    obtain ⟨request, answer⟩ := exchange
    cases request with
    | load | idle =>
      cases reply
      rfl
    | store target word =>
      cases reply
      apply Function.update_of_ne
      rintro rfl
      exact here word rfl

namespace TextDisplay

variable {d : TextDisplay}

/-- The request stores to a cell of the screen what the picture has there. -/
def Inks (d : TextDisplay) (picture : Picture) : Bus.Request → Prop
  | .store address word => ∃ x < columns, ∃ y < lines, address = d.address x y ∧ picture x y = some word
  | _ => False

theorem Inks.congr {picture picture' : Picture} {request : Bus.Request} (h : d.Inks picture request)
    (same : ∀ x < columns, ∀ y < lines, ∀ word, picture x y = some word → picture' x y = some word) :
    d.Inks picture' request := by
  cases request with
  | load | idle => exact h.elim
  | store address word =>
    obtain ⟨x, hx, y, hy, here, shown⟩ := h
    exact ⟨x, hx, y, hy, here, same x hx y hy word shown⟩

theorem set_inks (x y : Nat) (code : UInt8) (ink paper : Colour) :
    (d.set x y code ink paper).Bounded (d.Inks (.dot x y (cell code ink paper))) := by
  unfold set
  split
  case isTrue inside => exact bounded_call ⟨x, inside.1, y, inside.2, rfl, if_pos ⟨rfl, rfl⟩⟩
  case isFalse => trivial

namespace Picture

/-- Codes from a place to the right. -/
def text (x y : Nat) (codes : List UInt8) (ink paper : Colour) : Picture := fun column line =>
  if line = y ∧ x ≤ column then codes[column - x]?.map (cell · ink paper) else none

end Picture

theorem of_dot {column line x y : Nat} {word shown : UInt32}
    (h : Picture.dot column line word x y = some shown) : x = column ∧ y = line ∧ shown = word := by
  unfold Picture.dot at h
  split at h
  case isTrue here => exact ⟨here.1, here.2, (Option.some.inj h).symm⟩
  case isFalse => cases h

section Strings

variable {x y : Nat} {codes : List UInt8} {ink paper : Colour}

private theorem text_at {i : Nat} {code : UInt8} (here : codes[i]? = some code) :
    Picture.text x y codes ink paper (x + i) y = some (cell code ink paper) := by
  rw [Picture.text, if_pos ⟨rfl, Nat.le_add_right x i⟩, Nat.add_sub_cancel_left, here]
  rfl

theorem of_text {column line : Nat} {word : UInt32}
    (shown : Picture.text x y codes ink paper column line = some word) :
    line = y ∧ ∃ i, ∃ inside : i < codes.length, column = x + i ∧ word = cell codes[i] ink paper := by
  unfold Picture.text at shown
  split at shown
  case isTrue covered =>
    obtain ⟨code, found, rfl⟩ := Option.map_eq_some_iff.mp shown
    obtain ⟨inside, rfl⟩ := List.getElem?_eq_some_iff.mp found
    exact ⟨covered.1, column - x, inside, (Nat.add_sub_cancel' covered.2).symm, rfl⟩
  case isFalse => cases shown

/-- The step of a string for one code is to set a cell, as long as there is a column for it. -/
private theorem column_lt (fits : x + codes.length ≤ 2 ^ 64) {code : UInt8} {i : Nat}
    (member : (code, i) ∈ codes.zipIdx) : x + i < UInt64.size := by
  have inside : i < codes.length := by simpa using List.snd_lt_add_of_mem_zipIdx member
  exact Nat.lt_of_lt_of_le (Nat.add_lt_add_left inside x) fits

theorem string_paints (fits : x + codes.length ≤ 2 ^ 64) :
    Paints d (d.string x y codes ink paper) (.text x y codes ink paper) := by
  apply (Paints.zipIdx (fun column _ => column - x)
    (fun code column line => if line = y ∧ x ≤ column then some (cell code ink paper) else none) ?_).congr
  · intro column _ line _
    rw [if_pos (Nat.zero_le _), Nat.sub_zero, Picture.text]
    cases codes[column - x]? <;> simp
  · intro code i member
    simp only [if_pos (column_lt fits member)]
    apply (set_paints (x + i) y code ink paper).congr
    intro column _ line _
    have same : column = x + i ∧ line = y ↔ column - x = i ∧ line = y ∧ x ≤ column := by omega
    simp only [Picture.dot, same, ite_and]

theorem string_inks (fits : x + codes.length ≤ 2 ^ 64) :
    (d.string x y codes ink paper).Bounded (d.Inks (.text x y codes ink paper)) := by
  apply bounded_forM
  rintro ⟨code, i⟩ member
  simp only [if_pos (column_lt fits member)]
  apply (set_inks (x + i) y code ink paper).imp
  intro request inked
  apply inked.congr
  intro column _ line _ word shown
  obtain ⟨rfl, rfl, rfl⟩ := of_dot shown
  exact text_at (List.mem_zipIdx_iff_getElem?.mp member)

/-- The first column that is not a number is as far as the string goes. -/
theorem string_overflows (number : x < 2 ^ 64) (beyond : 2 ^ 64 < x + codes.length) :
    d.string x y codes ink paper =
      d.string x y (codes.take (2 ^ 64 - x)) ink paper >>= fun _ => .fault .addOverflow := by
  have size : (codes.take (2 ^ 64 - x)).length = 2 ^ 64 - x := by
    rw [List.length_take]
    omega
  have column : ¬ x + (2 ^ 64 - x) < UInt64.size := by
    have numbers : UInt64.size = 2 ^ 64 := rfl
    omega
  obtain ⟨code, rest, left⟩ : ∃ code rest, codes.drop (2 ^ 64 - x) = code :: rest := by
    apply List.exists_cons_of_length_pos
    rw [List.length_drop]
    omega
  unfold string
  conv => lhs; rw [← List.take_append_drop (2 ^ 64 - x) codes]
  rw [List.forM_eq_forM, List.zipIdx_append, List.forM_append, left,
    size, Nat.zero_add, List.zipIdx_cons, List.forM_cons]
  simp only [if_neg column, fault_bind]

/-- What a string has stored to when it ends, in whatever way. -/
structure Clipped (d : TextDisplay) (x y : Nat) (codes : List UInt8) (ink paper : Colour)
    (before after : Address → UInt32) (log : List (Exchange Bus)) : Prop where
  drawn : ∀ i (inside : i < codes.length), x + i < 80 → y < 30 →
    after (d.address (x + i) y) = cell codes[i] ink paper
  other : ∀ address, (∀ i < codes.length, x + i < 80 → y < 30 → address ≠ d.address (x + i) y) →
    after address = before address
  stores : ∀ exchange ∈ log, ∃ i, ∃ inside : i < codes.length, x + i < 80 ∧ y < 30 ∧
    exchange.request = .store (d.address (x + i) y) (cell codes[i] ink paper)

theorem clipped_of_paints {p : Program Bus Unit} (paints : Paints d p (.text x y codes ink paper))
    (inks : p.Bounded (d.Inks (.text x y codes ink paper))) (m : Address → UInt32) :
    ∃ m' log, Ends Bus.memory.recorded p (m, []) (.ok () (m', log)) ∧
      Clipped d x y codes ink paper m m' log := by
  obtain ⟨_, m', ran⟩ := inks.run 0 Bus.memory m
  obtain ⟨log, course, answered⟩ := run_course ran
  have stores : ∀ exchange ∈ log, ∃ i, ∃ inside : i < codes.length, x + i < 80 ∧ y < 30 ∧
      exchange.request = .store (d.address (x + i) y) (cell codes[i] ink paper) := by
    intro exchange member
    have inked := course.bounded inks exchange member
    obtain ⟨request, reply⟩ := exchange
    cases request with
    | load | idle => exact inked.elim
    | store address word =>
      obtain ⟨column, hx, line, hy, rfl, shown⟩ := inked
      obtain ⟨rfl, i, inside, rfl, rfl⟩ := of_text shown
      exact ⟨i, inside, hx, hy, rfl⟩
  refine ⟨m', log, course.ends_recorded answered, ?_, ?_, stores⟩
  · intro i inside hx hy
    rw [paints.shown course answered (x + i) hx y hy, text_at (List.getElem?_eq_getElem inside)]
    rfl
  · intro address apart
    apply memory_unstored answered
    intro exchange member word same
    obtain ⟨i, inside, hx, hy, stored⟩ := stores exchange member
    rw [same] at stored
    cases stored
    exact apart i inside hx hy rfl

private theorem text_take (number : x < 2 ^ 64) {column line : Nat} (onScreen : column < columns) :
    Picture.text x y (codes.take (2 ^ 64 - x)) ink paper column line =
      Picture.text x y codes ink paper column line := by
  have bound : column - x < 2 ^ 64 - x ∨ ¬ x ≤ column := by
    unfold columns at onScreen
    omega
  unfold Picture.text
  rcases bound with near | left
  · rw [List.getElem?_take_of_lt near]
  · rw [if_neg fun covered => left covered.2, if_neg fun covered => left covered.2]

/-- A string covers the cells from its place to the right as far as they are on the screen, and it
changes nothing else. It ends if its last column is a number; if not, it gives up there. -/
theorem string_clipped (d : TextDisplay) (x y : UInt64) (codes : List UInt8) (ink paper : Colour)
    (m : Address → UInt32) :
    ∃ m' log, Ends Bus.memory.recorded (d.string x.toNat y.toNat codes ink paper) (m, [])
        (if x.toNat + codes.length ≤ 2 ^ 64 then .ok () (m', log)
          else .error (.fault .addOverflow) (m', log)) ∧
      Clipped d x.toNat y.toNat codes ink paper m m' log := by
  by_cases fits : x.toNat + codes.length ≤ 2 ^ 64
  · simp only [if_pos fits]
    exact clipped_of_paints (string_paints fits) (string_inks fits) m
  · have number : x.toNat < 2 ^ 64 := x.toNat_lt
    have short : x.toNat + (codes.take (2 ^ 64 - x.toNat)).length ≤ 2 ^ 64 := by
      rw [List.length_take]
      omega
    let reached := d.string x.toNat y.toNat (codes.take (2 ^ 64 - x.toNat)) ink paper
    have paints : Paints d reached (.text x.toNat y.toNat codes ink paper) :=
      (string_paints short).congr fun column onScreen _ _ => text_take number onScreen
    have inks : reached.Bounded (d.Inks (.text x.toNat y.toNat codes ink paper)) := by
      apply (string_inks short).imp
      intro request inked
      apply inked.congr
      intro column onScreen line _ word shown
      rwa [text_take number onScreen] at shown
    obtain ⟨m', log, ends, clipped⟩ := clipped_of_paints paints inks m
    refine ⟨m', log, ?_, clipped⟩
    rw [if_neg fits, string_overflows number (by omega)]
    exact ends.bind (.fault _ _)

/-- Two codes from the last column on: the second has none. -/
theorem string_past_last_column : ¬ ∃ after, Ends Bus.memory
    (string ⟨0x40000000⟩ (2 ^ 64 - 1) 0 [65, 66] .red .green) (fun _ => 0) (.ok () after) := by
  rintro ⟨after, ends⟩
  have gaveUp : Ends Bus.memory (string ⟨0x40000000⟩ (2 ^ 64 - 1) 0 [65, 66] .red .green) (fun _ => 0)
      (.error (.fault .addOverflow) fun _ => 0) := ⟨settled_fault _ _, 0, rfl⟩
  cases ends.unique gaveUp

end Strings

end TextDisplay

end BoardSupport
