import BoardSupport.Proofs.Loader.HexLines

/-! Texts of words taken as bytes. Each word is checked byte by byte, read as a number that may be out of
range, and cut at byte offsets that may fall inside a character. Once a word has passed the check,
neither can go wrong. -/
namespace BoardSupport.Loader.HexImage

open Text

namespace Bytewise

/-- What can go wrong in reading a text, or in swapping its words. -/
inductive Slip
  | word (cause : WordError)
  /-- A word of this line is no number of 32 bits. -/
  | numeral (line : Nat) (cause : NumeralError)
  /-- From one byte to another there are no whole characters. -/
  | slice (first past : Nat)
  deriving DecidableEq

def encode (s : List Char) : List UInt8 := s.flatMap String.utf8EncodeChar

def isHexByte (b : UInt8) : Bool := (48 ≤ b && b ≤ 57) || (65 ≤ b && b ≤ 70) || (97 ≤ b && b ≤ 102)

def check (line : Nat) (word : List Char) : Except Slip Unit :=
  if (encode word).length ≠ 8 ∨ ¬ (encode word).all isHexByte then
    .error (.word (.expectedDigits line word))
  else .ok ()

/-- Splits a text before a byte, if no character lies on both sides. -/
def splitAt : List Char → Nat → Option (List Char × List Char)
  | s, 0 => some ([], s)
  | [], _ + 1 => none
  | c :: rest, n =>
    if c.utf8Size ≤ n then (splitAt rest (n - c.utf8Size)).map fun (taken, left) => (c :: taken, left)
    else none

/-- The characters from one byte up to another. -/
def slice (s : List Char) (first past : Nat) : Except Slip (List Char) :=
  match (splitAt s past).bind fun (before, _) => splitAt before first with
  | some (_, part) => .ok part
  | none => .error (.slice first past)

def readWord (line : Nat) (word : List Char) : Except Slip (List UInt8) := do
  check line word
  let number ← (readNumeral 16 UInt32.size word).mapError (.numeral line)
  return Word.toLittleEndian (UInt32.ofNat number)

def swapLine (line : Nat) (word : List Char) : Except Slip (List Char) := do
  check line word
  let pairs ← [3, 2, 1, 0].mapM fun i => slice word (i * 2) (i * 2 + 2)
  return pairs.flatten ++ ['\n']

def parse (text : List Char) : Except Slip (List UInt8) :=
  List.flatten <$> (significant text).mapM fun (line, word) => readWord line word

def swap (text : List Char) : Except Slip (List Char) :=
  List.flatten <$> (significant text).mapM fun (line, word) => swapLine line word

end Bytewise

open Bytewise

section Checking

variable {c : Char} {word : List Char}

theorem isHexDigit_iff (c : Char) : isHexDigit c ↔ 48 ≤ c.toNat ∧ c.toNat ≤ 57 ∨
    65 ≤ c.toNat ∧ c.toNat ≤ 70 ∨ 97 ≤ c.toNat ∧ c.toNat ≤ 102 := by
  simp only [isHexDigit, digitValue, Option.isSome_filter, Option.any]
  grind

theorem isHexByte_iff (b : UInt8) : isHexByte b ↔ 48 ≤ b.toNat ∧ b.toNat ≤ 57 ∨
    65 ≤ b.toNat ∧ b.toNat ≤ 70 ∨ 97 ≤ b.toNat ∧ b.toNat ≤ 102 := by
  simp [isHexByte, UInt8.le_iff_toNat_le, or_assoc]

theorem utf8Size_of_isHexDigit (digit : isHexDigit c) : c.utf8Size = 1 := by
  have range := (isHexDigit_iff c).mp digit
  have ascii : c.val.toNat ≤ 127 := by
    change c.toNat ≤ 127
    omega
  exact Char.utf8Size_eq_one_iff.mpr (UInt32.le_iff_toNat_le.mpr ascii)

/-- No byte of a character past ASCII is a digit. -/
theorem all_isHexByte (c : Char) : (String.utf8EncodeChar c).all isHexByte = isHexDigit c := by
  have code : c.toNat = c.val.toNat := rfl
  rw [Bool.eq_iff_iff, isHexDigit_iff, code]
  fun_cases String.utf8EncodeChar
  all_goals
    simp [isHexByte_iff]
    omega

theorem all_encode (word : List Char) : (encode word).all isHexByte = word.all isHexDigit := by
  simp only [encode, List.all_flatMap, all_isHexByte]

theorem length_encode (single : ∀ c ∈ word, c.utf8Size = 1) : (encode word).length = word.length := by
  induction word with
  | nil => rfl
  | cons c rest ih =>
    rw [List.forall_mem_cons] at single
    rw [encode, List.flatMap_cons, List.length_append, String.length_utf8EncodeChar, single.1,
      List.length_cons, Nat.add_comm]
    exact congrArg (· + 1) (ih single.2)

theorem utf8Size_of_isWord (good : isWord word) : ∀ c ∈ word, c.utf8Size = 1 := by
  intro c member
  exact utf8Size_of_isHexDigit ((isWord_iff.mp good).2 c member)

/-- Bytes are checked as characters are. -/
theorem check_eq (line : Nat) (word : List Char) : check line word =
    if isWord word then .ok () else .error (.word (.expectedDigits line word)) := by
  unfold check
  rw [all_encode]
  by_cases digits : word.all isHexDigit
  · have single : ∀ c ∈ word, c.utf8Size = 1 := by
      intro c member
      exact utf8Size_of_isHexDigit (List.all_eq_true.mp digits c member)
    rw [length_encode single]
    by_cases long : word.length = 8 <;> simp [isWord, long, digits]
  · simp [isWord, digits]

end Checking

section Numbers

variable {word : List Char}

private theorem le_foldl (digits : List Nat) (n : Nat) :
    n ≤ digits.foldl (fun m d => m * 16 + d) n := by
  induction digits generalizing n with
  | nil => exact Nat.le_refl n
  | cons d rest ih =>
    have step := ih (n * 16 + d)
    rw [List.foldl_cons]
    omega

theorem readDigits_eq (limit : Nat) (digits : ∀ c ∈ word, isHexDigit c) (n : Nat)
    (room : (digitsOf word).foldl (fun m d => m * 16 + d) n < limit) :
    readDigits 16 limit n word = .ok ((digitsOf word).foldl (fun m d => m * 16 + d) n) := by
  induction word generalizing n with
  | nil => rfl
  | cons c rest ih =>
    rw [List.forall_mem_cons] at digits
    obtain ⟨d, found⟩ := Option.isSome_iff_exists.mp digits.1
    have values : digitsOf (c :: rest) = d :: digitsOf rest := by
      rw [digitsOf, List.map_cons, found]
      rfl
    rw [values, List.foldl_cons] at room ⊢
    -- A number only grows with more digits, so it has not left the range before the last.
    have below := le_foldl (digitsOf rest) (n * 16 + d)
    simp only [readDigits, found]
    rw [if_neg (by omega), ih digits.2 _ room]

theorem readNumeral_eq (good : isWord word) :
    readNumeral 16 UInt32.size word = .ok (value word).toNat := by
  obtain ⟨long, digits⟩ := isWord_iff.mp good
  have number := value_toNat long digits
  rw [← foldl_eq_ofDigits] at number
  have read := readDigits_eq UInt32.size digits 0 (number ▸ (value word).toNat_lt)
  rw [number, ← read]
  -- No digit is a sign.
  cases word with
  | nil => cases long
  | cons c rest =>
    have digit := digits c List.mem_cons_self
    unfold readNumeral
    split
    case h_1 none => cases none
    case h_2 sign =>
      cases sign
      exact absurd digit (by decide)
    case h_3 sign =>
      cases sign
      exact absurd digit (by decide)
    case h_4 => rfl

end Numbers

section Slices

theorem splitAt_append (before after : List Char) (single : ∀ c ∈ before, c.utf8Size = 1) :
    splitAt (before ++ after) before.length = some (before, after) := by
  induction before with
  | nil => cases after <;> rfl
  | cons c rest ih =>
    rw [List.forall_mem_cons] at single
    rw [List.cons_append, List.length_cons, splitAt]
    · rw [single.1, if_pos (Nat.le_add_left 1 _), Nat.add_sub_cancel, ih single.2]
      rfl
    · exact Nat.succ_ne_zero _

/-- Where each character is a byte, any part can be cut out. -/
theorem slice_append (before part after : List Char)
    (single : ∀ c ∈ before ++ part ++ after, c.utf8Size = 1) :
    slice (before ++ part ++ after) before.length (before.length + part.length) = .ok part := by
  rw [List.forall_mem_append] at single
  have whole := splitAt_append (before ++ part) after single.1
  have first := splitAt_append before part (List.forall_mem_append.mp single.1).1
  rw [List.length_append] at whole
  rw [slice, whole]
  simp only [Option.bind_some, first]

end Slices

section Words

variable {word : List Char}

theorem eq_of_length (long : word.length = 8) :
    ∃ a b c d e f g h : Char, word = [a, b, c, d, e, f, g, h] := by
  match word, long with
  | [a, b, c, d, e, f, g, h], _ => exact ⟨a, b, c, d, e, f, g, h, rfl⟩

theorem readWord_eq (line : Nat) (word : List Char) : readWord line word =
    if isWord word then .ok (Word.toLittleEndian (value word))
    else .error (.word (.expectedDigits line word)) := by
  rw [readWord, check_eq]
  by_cases good : isWord word
  · rw [if_pos good, if_pos good, readNumeral_eq good]
    change Except.ok (Word.toLittleEndian (UInt32.ofNat (value word).toNat)) = _
    rw [UInt32.ofNat_toNat]
  · rw [if_neg good, if_neg good]
    rfl

theorem swapLine_eq (line : Nat) (word : List Char) : swapLine line word =
    if isWord word then .ok (swapWord word ++ ['\n'])
    else .error (.word (.expectedDigits line word)) := by
  rw [swapLine, check_eq]
  by_cases good : isWord word
  · have single := utf8Size_of_isWord good
    rw [if_pos good, if_pos good]
    obtain ⟨a, b, c, d, e, f, g, h, rfl⟩ := eq_of_length (isWord_iff.mp good).1
    have first : slice [a, b, c, d, e, f, g, h] 0 2 = .ok [a, b] :=
      slice_append [] [a, b] [c, d, e, f, g, h] single
    have second : slice [a, b, c, d, e, f, g, h] 2 4 = .ok [c, d] :=
      slice_append [a, b] [c, d] [e, f, g, h] single
    have third : slice [a, b, c, d, e, f, g, h] 4 6 = .ok [e, f] :=
      slice_append [a, b, c, d] [e, f] [g, h] single
    have fourth : slice [a, b, c, d, e, f, g, h] 6 8 = .ok [g, h] :=
      slice_append [a, b, c, d, e, f] [g, h] [] single
    simp only [List.mapM_cons, List.mapM_nil, fourth, third, second, first]
    rfl
  · rw [if_neg good, if_neg good]
    rfl

end Words

section Texts

variable {β : Type} {f : List Char → List β} {g : Nat → List Char → Except Slip (List β)}

/-- Where each word is judged alike, so are the words together. -/
private theorem mapM_judged (each : ∀ line word, g line word =
      if isWord word then .ok (f word) else .error (.word (.expectedDigits line word)))
    (found : List (Nat × List Char)) : List.flatten <$> found.mapM (fun (line, word) => g line word) =
      ((found.mapM checked).map (List.flatMap f)).mapError .word := by
  induction found with
  | nil => rfl
  | cons x rest ih =>
    obtain ⟨line, word⟩ := x
    rw [List.mapM_cons, List.mapM_cons, checked]
    dsimp only
    rw [each]
    by_cases good : isWord word
    · rw [if_pos good, if_pos good]
      -- The first line adds its part to what the rest come to.
      calc
        _ = (f word ++ ·) <$> (List.flatten <$> rest.mapM fun (line, word) => g line word) := by
          cases rest.mapM fun (line, word) => g line word <;> rfl
        _ = (f word ++ ·) <$> ((rest.mapM checked).map (List.flatMap f)).mapError .word := by
          rw [ih]
        _ = _ := by cases rest.mapM checked <;> rfl
    · rw [if_neg good, if_neg good]
      rfl

theorem parse_eq (text : List Char) : Bytewise.parse text = (HexImage.parse text).mapError .word := by
  rw [Bytewise.parse, mapM_judged readWord_eq]
  change ((words text).map _).mapError _ = (words text >>= _).mapError _
  cases words text <;> rfl

theorem swap_eq (text : List Char) : Bytewise.swap text = (HexImage.swap text).mapError .word := by
  rw [Bytewise.swap, mapM_judged swapLine_eq]
  change ((words text).map _).mapError _ = (words text >>= _).mapError _
  cases words text <;> rfl

end Texts

end BoardSupport.Loader.HexImage
