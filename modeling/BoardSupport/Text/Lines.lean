/-! Lines of text. -/
namespace BoardSupport.Text

/-- A line without one carriage return at its end. -/
def dropReturn (line : List Char) : List Char :=
  match line.getLast? with
  | some '\r' => line.dropLast
  | _ => line

/-- The lines of a text. Each ends at a line feed, and a carriage return before that is no part of
it. What follows the last line feed is a line too, unless it is empty. -/
def lines (s : List Char) : List (List Char) :=
  match _h : s.dropWhile (· ≠ '\n') with
  | [] => if s.isEmpty then [] else [s]
  | _ :: rest => dropReturn (s.takeWhile (· ≠ '\n')) :: lines rest
termination_by s.length
decreasing_by
  have : (s.dropWhile (· ≠ '\n')).length ≤ s.length := (List.dropWhile_sublist _).length_le
  rw [_h] at this
  exact this

end BoardSupport.Text
