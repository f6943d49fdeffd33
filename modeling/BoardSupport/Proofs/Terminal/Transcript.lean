import BoardSupport.Proofs.Terminal.Refinement
import Mathlib.Data.List.DropRight

/-! A terminal that never scrolls, whose rows only grow in number. One of bounded height shows the last of
them, with blank rows below while there are too few. -/
namespace BoardSupport.Terminal

/-- Every row that was ever begun. The cursor is in the last of them. -/
structure Transcript where
  /-- The rows above the cursor's, from the first on. -/
  past : List (List UInt8)
  current : List UInt8
  x : Nat
  deriving DecidableEq

namespace Transcript

variable (w h : Nat)

def rows (u : Transcript) : List (List UInt8) := u.past ++ [u.current]

def blank : Transcript := ⟨[], Sheet.zeros w, 0⟩

/-- A blank row comes in below all others. -/
def newline (u : Transcript) : Transcript := ⟨u.rows, Sheet.zeros w, 0⟩

def put (u : Transcript) (b : UInt8) : Transcript :=
  let written := { u with current := u.current.set u.x b }
  if u.x + 1 = w then written.newline w else { written with x := u.x + 1 }

/-- The next column that is a multiple of eight, or the next row. -/
def tab (u : Transcript) : Transcript :=
  let next := u.x + (8 - u.x % 8)
  if next < w then { u with x := next } else u.newline w

def writeByte (u : Transcript) (b : UInt8) : Transcript :=
  if b = '\n'.toUInt8 then u.newline w
  else if b = '\r'.toUInt8 then { u with x := 0 }
  else if b = '\x08'.toUInt8 then { u with x := u.x - 1 }
  else if b = '\t'.toUInt8 then u.tab w
  else u.put w b

def writeBytes (u : Transcript) (bytes : List UInt8) : Transcript := bytes.foldl (writeByte w) u

/-- How many of the rows a screen of height `h` has room for. -/
def shown (u : Transcript) : Nat := min u.rows.length h

/-- The last rows, as many as a screen has room for, and blank rows below. -/
def screen (u : Transcript) : List (List UInt8) :=
  u.rows.rtake (u.shown h) ++ List.replicate (h - u.shown h) (Sheet.zeros w)

/-- The rows above the cursor's that a screen has room for. -/
def above (u : Transcript) : List (List UInt8) := u.past.rtake (h - 1)

end Transcript

/-- With one more element, either all have room or the first goes. -/
private theorem rtake_concat {α : Type} (list : List α) (a : α) (n : Nat) :
    (list ++ [a]).rtake n = if list.length < n then list ++ [a] else (list.rtake n ++ [a]).tail := by
  cases n with
  | zero => simp
  | succ n =>
    rw [List.rtake_concat_succ]
    split
    case isTrue room =>
      rw [List.rtake, Nat.sub_eq_zero_of_le (by omega), List.drop_zero]
    case isFalse full =>
      have some : list.rtake (n + 1) ≠ [] := by
        apply List.ne_nil_of_length_pos
        rw [List.rtake, List.length_drop]
        omega
      rw [List.tail_append_of_ne_nil some, List.rtake, List.rtake, List.tail_drop]
      congr 2
      omega

/-- The screen shows the transcript's rows down to the cursor's, and nothing yet below. -/
structure Trails (w h : Nat) (s : Sheet) (u : Transcript) : Prop where
  high : 0 < h
  rows : s.rows = u.above h ++ u.current :: List.replicate (h - 1 - (u.above h).length) (Sheet.zeros w)
  x : s.x = u.x
  y : s.y = (u.above h).length

section Steps

variable {w h : Nat} {s : Sheet} {u : Transcript}

theorem length_above (h : Nat) (u : Transcript) : (u.above h).length = min u.past.length (h - 1) := by
  rw [Transcript.above, List.rtake, List.length_drop]
  omega

theorem trails_blank (high : 0 < h) : Trails w h (.clear w h) (.blank w) := by
  have none : (Transcript.blank w).above h = [] := List.rtake_nil (h - 1)
  refine ⟨high, ?_, rfl, ?_⟩
  · obtain ⟨n, rfl⟩ := Nat.exists_eq_add_one.mpr high
    rw [none]
    rfl
  · rw [none]
    rfl

private theorem above_newline (high : 0 < h) (u : Transcript) : (u.newline w).above h =
    if (u.above h).length + 1 < h then u.above h ++ [u.current] else (u.above h ++ [u.current]).tail := by
  have length := length_above h u
  rw [Transcript.above, Transcript.newline, Transcript.rows, rtake_concat]
  by_cases room : u.past.length < h - 1
  · have whole : u.above h = u.past := by
      rw [Transcript.above, List.rtake, Nat.sub_eq_zero_of_le (by omega), List.drop_zero]
    rw [if_pos room, if_pos (by omega), whole]
  · rw [if_neg room, if_neg (by omega)]
    rfl

theorem Trails.newline (trails : Trails w h s u) : Trails w h (s.newline w h) (u.newline w) := by
  have high := trails.high
  have above := above_newline (w := w) high u
  have length := length_above h u
  unfold Sheet.newline
  by_cases below : s.y + 1 < h
  · have more : h - 1 - (u.above h).length = h - 1 - ((u.above h).length + 1) + 1 := by
      have y := trails.y
      omega
    rw [if_pos below]
    rw [← trails.y, if_pos below] at above
    refine ⟨high, ?_, rfl, ?_⟩
    · rw [above, List.length_append, List.length_singleton, List.append_assoc, trails.rows, more]
      rfl
    · rw [above, List.length_append, List.length_singleton, trails.y]
  · have full : (u.above h).length = h - 1 := by
      have y := trails.y
      omega
    rw [if_neg below]
    rw [← trails.y, if_neg below] at above
    have count : ((u.newline w).above h).length = h - 1 := by simp [above, full]
    refine ⟨high, ?_, rfl, ?_⟩
    · rw [count, above, trails.rows, full, Nat.sub_self]
      rfl
    · rw [count, trails.y, full]

theorem Trails.moveX (trails : Trails w h s u) (x : Nat) : Trails w h { s with x } { u with x } :=
  ⟨trails.high, trails.rows, rfl, trails.y⟩

/-- A change of the row that the cursor is in. -/
theorem Trails.modify (trails : Trails w h s u) (f : List UInt8 → List UInt8) :
    Trails w h { s with rows := s.rows.modify s.y f } { u with current := f u.current } where
  high := trails.high
  rows := by
    rw [trails.rows, trails.y]
    exact List.modifyTailIdx_add (List.modifyHead f) 0 (u.above h) (u.current :: _)
  x := trails.x
  y := trails.y

theorem Trails.put (trails : Trails w h s u) (b : UInt8) : Trails w h (s.put w h b) (u.put w b) := by
  have written := trails.modify fun row => row.set u.x b
  unfold Sheet.put Transcript.put
  rw [trails.x]
  by_cases last : u.x + 1 = w
  · rw [if_pos last, if_pos last]
    exact written.newline
  · rw [if_neg last, if_neg last]
    exact written.moveX _

theorem Trails.tab (trails : Trails w h s u) : Trails w h (s.tab w h) (u.tab w) := by
  unfold Sheet.tab Transcript.tab
  rw [trails.x]
  by_cases right : u.x + (8 - u.x % 8) < w
  · rw [if_pos right, if_pos right]
    exact trails.moveX _
  · rw [if_neg right, if_neg right]
    exact trails.newline

theorem Trails.writeByte (trails : Trails w h s u) (b : UInt8) :
    Trails w h (s.writeByte w h b) (u.writeByte w b) := by
  unfold Sheet.writeByte Transcript.writeByte
  split
  · exact trails.newline
  split
  · exact trails.moveX 0
  split
  · rw [trails.x]
    exact trails.moveX _
  split
  · exact trails.tab
  · exact trails.put b

theorem Trails.writeBytes (trails : Trails w h s u) (bytes : List UInt8) :
    Trails w h (bytes.foldl (Sheet.writeByte w h) s) (u.writeBytes w bytes) := by
  induction bytes generalizing s u with
  | nil => exact trails
  | cons b rest ih => exact ih (trails.writeByte b)

theorem Shows.writeBytes {t : Terminal w h} (shows : Shows t s) (bytes : List UInt8) :
    Shows (t.writeBytes bytes) (bytes.foldl (Sheet.writeByte w h) s) := by
  induction bytes generalizing t s with
  | nil => exact shows
  | cons b rest ih => exact ih (shows.writeByte b)

private theorem shown_eq (high : 0 < h) (u : Transcript) : u.shown h = (u.above h).length + 1 := by
  rw [Transcript.shown, Transcript.rows, length_above, List.length_append, List.length_singleton]
  omega

theorem Trails.screen (trails : Trails w h s u) : s.rows = u.screen w h := by
  have count := shown_eq trails.high u
  have seen : u.past.rtake (u.above h).length = u.above h := by
    rw [length_above, Transcript.above, List.rtake, List.rtake]
    congr 1
    omega
  have blanks : h - 1 - (u.above h).length = h - ((u.above h).length + 1) := by omega
  rw [Transcript.screen, count, Transcript.rows, List.rtake_concat_succ, seen, trails.rows, blanks,
    List.append_assoc]
  rfl

end Steps

section Showing

variable {w h : Nat}

/-- What is seen of a terminal is the end of a transcript. -/
structure ShowsTail (t : Terminal w h) (u : Transcript) : Prop where
  cursor : (t.x.val, t.y.val) = (u.x, u.shown h - 1)
  rows : t.rows.map Vector.toList = u.screen w h
  row : ∀ r, (t.checkedRow r).toOption.map Vector.toList = (u.screen w h)[r]?

/-- Whatever bytes come, a terminal that was blank shows the last of the rows that they make, as many as
it has room for. -/
theorem writeBytes_showsTail (wide : 0 < w) (high : 0 < h) (bytes : List UInt8) :
    ShowsTail ((empty w h wide high).writeBytes bytes) ((Transcript.blank w).writeBytes w bytes) := by
  have refines := ((shows_empty wide high).writeBytes bytes).refines
  have trails := (trails_blank (w := w) high).writeBytes bytes
  refine ⟨?_, ?_, ?_⟩
  · rw [refines.cursor, trails.x, trails.y, shown_eq high, Nat.add_sub_cancel]
  · rw [refines.rows, trails.screen]
  · intro r
    rw [refines.row, trails.screen]

/-- A return, a tab with no stop left, a full row, and a step back at the left edge. -/
theorem writeBytes_showsTail_three_by_two :
    let bytes := "ab\rc\tdef\x08g\nh\x08i".toList.map byteOf
    let kept : Transcript := ⟨[[99, 98, 0], [100, 101, 102], [103, 0, 0]], [105, 0, 0], 1⟩
    0 < 3 ∧ 0 < 2 ∧ (Transcript.blank 3).writeBytes 3 bytes = kept ∧
      ShowsTail ((empty 3 2).writeBytes bytes) kept := by
  intro bytes kept
  have made : (Transcript.blank 3).writeBytes 3 bytes = kept := by decide +kernel
  have tail := writeBytes_showsTail (w := 3) (h := 2) (by decide) (by decide) bytes
  rw [made] at tail
  exact ⟨by decide, by decide, made, tail⟩

end Showing

end BoardSupport.Terminal
