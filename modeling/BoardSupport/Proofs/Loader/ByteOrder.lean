import BoardSupport.Proofs.Loader.Bytewise

/-! Swapping the words of a text against reading them. A swapped text reads as the same words with the
bytes of each in the opposite order. -/
namespace BoardSupport.Loader.HexImage

open Text

/-- Bytes with each four in a row in the opposite order. Fewer than four at the end stay. -/
def turnGroups : List UInt8 → List UInt8
  | a :: b :: c :: d :: rest => d :: c :: b :: a :: turnGroups rest
  | rest => rest

section Lines

variable {line : List Char}

theorem lines_append (rest : List Char) (whole : ∀ c ∈ line, c ≠ '\n') :
    lines (line ++ '\n' :: rest) = dropReturn line :: lines rest := by
  have inside : ∀ c ∈ line, decide (c ≠ '\n') = true := by
    intro c member
    exact decide_eq_true (whole c member)
  rw [lines]
  split
  case h_1 ended =>
    rw [List.dropWhile_append_of_pos inside] at ended
    cases ended
  case h_2 c after ended =>
    rw [List.dropWhile_append_of_pos inside] at ended
    cases ended
    rw [List.takeWhile_append_of_pos inside]
    simp

theorem dropReturn_of_not_mem (absent : '\r' ∉ line) : dropReturn line = line := by
  fun_cases dropReturn
  case case1 last => exact absurd (List.mem_of_getLast? last) absent
  case case2 => rfl

theorem trim_of_not_isBlank (filled : ∀ c ∈ line, ¬ isBlank c) : trim line = line := by
  obtain ⟨before, after, whole, first, last⟩ := trim_split line
  have nothing : ∀ part ⊆ line, (∀ c ∈ part, isBlank c) → part = [] := by
    intro part inside blank
    apply List.eq_nil_iff_forall_not_mem.mpr
    intro c member
    exact filled c (inside member) (blank c member)
  have none_before : before = [] := by
    apply nothing before _ first
    rw [whole, List.append_assoc]
    exact List.subset_append_left _ _
  have none_after : after = [] := by
    apply nothing after _ last
    rw [whole]
    exact List.subset_append_right _ _
  rw [none_before, none_after, List.nil_append, List.append_nil] at whole
  exact whole.symm

/-- Lines without ends in them, each ended by a line feed, are read back. -/
theorem lines_flatMap (found : List (List Char))
    (whole : ∀ line ∈ found, '\n' ∉ line ∧ '\r' ∉ line) :
    lines (found.flatMap (· ++ ['\n'])) = found := by
  induction found with
  | nil => simp [lines]
  | cons line rest ih =>
    rw [List.forall_mem_cons] at whole
    have inside : ∀ c ∈ line, c ≠ '\n' := by
      intro c member same
      exact whole.1.1 (same ▸ member)
    rw [List.flatMap_cons, List.append_assoc, List.singleton_append, lines_append _ inside,
      dropReturn_of_not_mem whole.1.2, ih whole.2]

end Lines

section Words

variable {word : List Char} {found : List (List Char)}

theorem not_isBlank_of_isWord (good : isWord word) : ∀ c ∈ word, ¬ isBlank c := by
  intro c member
  have range := (isHexDigit_iff c).mp ((isWord_iff.mp good).2 c member)
  simp only [isBlank, Bool.or_eq_true, Bool.and_eq_true, decide_eq_true_eq, beq_iff_eq]
  omega

/-- Words on lines of their own are read back. -/
theorem words_flatMap (good : ∀ word ∈ found, isWord word) :
    words (found.flatMap (· ++ ['\n'])) = .ok found := by
  have filled : ∀ word ∈ found, ∀ c ∈ word, ¬ isBlank c := by
    intro word member
    exact not_isBlank_of_isWord (good word member)
  have whole : ∀ word ∈ found, '\n' ∉ word ∧ '\r' ∉ word := by
    intro word member
    constructor
    · intro feed
      exact filled word member _ feed (by decide)
    · intro ret
      exact filled word member _ ret (by decide)
  have kept : ∀ word ∈ found, word.any (!isBlank ·) = true := by
    intro word member
    cases word with
    | nil => cases good [] member
    | cons c rest => simp [filled _ member c List.mem_cons_self]
  have trimmed : ∀ word ∈ found, trim word = id word := by
    intro word member
    exact trim_of_not_isBlank (filled word member)
  rw [words_eq_ok, filledLines, lines_flatMap found whole, List.filter_eq_self.mpr kept,
    List.map_congr_left trimmed, List.map_id]
  exact ⟨rfl, good⟩

end Words

section Digits

variable {word : List Char}

/-- The byte of two digits. -/
def pair (high low : Char) : UInt8 :=
  UInt8.ofNat (16 * (digitValue 16 high).getD 0 + (digitValue 16 low).getD 0)

theorem toLittleEndian_value {a b c d e f g h : Char} (good : isWord [a, b, c, d, e, f, g, h]) :
    Word.toLittleEndian (value [a, b, c, d, e, f, g, h]) =
      [pair g h, pair e f, pair c d, pair a b] := by
  obtain ⟨long, digits⟩ := isWord_iff.mp good
  have number := value_toNat long digits
  have small := digitsOf_lt digits
  simp only [digitsOf, List.map_cons, List.map_nil, List.forall_mem_cons] at small
  simp only [digitsOf, List.map_cons, List.map_nil, List.reverse_cons, List.reverse_nil,
    List.nil_append, List.cons_append, Nat.ofDigits_cons, Nat.ofDigits_nil] at number
  simp only [Word.toLittleEndian, pair, List.cons.injEq, and_true]
  refine ⟨?_, ?_, ?_, ?_⟩ <;> apply UInt8.toNat_inj.mp <;>
    simp [Nat.shiftRight_eq_div_pow, number] <;> omega

theorem isWord_swapWord (good : isWord word) : isWord (swapWord word) := by
  obtain ⟨a, b, c, d, e, f, g, h, rfl⟩ := eq_of_length (isWord_iff.mp good).1
  simp_all [isWord_iff, swapWord]

/-- The digits of a swapped word write its bytes from the other end. -/
theorem toLittleEndian_swapWord (good : isWord word) :
    Word.toLittleEndian (value (swapWord word)) = (Word.toLittleEndian (value word)).reverse := by
  have turned := isWord_swapWord good
  obtain ⟨a, b, c, d, e, f, g, h, rfl⟩ := eq_of_length (isWord_iff.mp good).1
  rw [toLittleEndian_value good]
  exact toLittleEndian_value turned

end Digits

section Groups

variable {α : Type} (f : α → UInt32)

theorem turnGroups_flatMap (values : List α) :
    turnGroups (values.flatMap fun v => Word.toLittleEndian (f v)) =
      values.flatMap fun v => (Word.toLittleEndian (f v)).reverse := by
  induction values with
  | nil => rfl
  | cons v rest ih =>
    rw [List.flatMap_cons, List.flatMap_cons, ← ih]
    rfl

theorem dvd_length_flatMap (values : List α) :
    4 ∣ (values.flatMap fun v => Word.toLittleEndian (f v)).length := by
  induction values with
  | nil => exact Nat.dvd_zero 4
  | cons v rest ih =>
    rw [List.flatMap_cons, List.length_append]
    exact Nat.dvd_add (Nat.dvd_refl 4) ih

end Groups

/-- A text is read exactly if it is swapped, and what is wrong with it is found alike. What is swapped
is read as the same bytes, each four of a word in the opposite order. Texts taken byte by byte come to
the same: digits that were checked are always read, and no cut is inside a character. -/
theorem parse_swap (text : List Char) :
    ((∃ cause, parse text = .error cause ∧ swap text = .error cause) ∨
      ∃ bytes swapped, parse text = .ok bytes ∧ swap text = .ok swapped ∧
        4 ∣ bytes.length ∧ parse swapped = .ok (turnGroups bytes)) ∧
    Bytewise.parse text = (parse text).mapError .word ∧
    Bytewise.swap text = (swap text).mapError .word := by
  refine ⟨?_, parse_eq text, swap_eq text⟩
  cases read : words text with
  | error cause =>
    left
    refine ⟨cause, ?_, ?_⟩
    · rw [parse, read]
      rfl
    · rw [swap, read]
      rfl
  | ok found =>
    have good := (words_eq_ok.mp read).2
    right
    refine ⟨found.flatMap fun word => Word.toLittleEndian (value word),
      found.flatMap fun word => swapWord word ++ ['\n'], ?_, ?_, dvd_length_flatMap value found, ?_⟩
    · rw [parse, read]
      rfl
    · rw [swap, read]
      rfl
    · have turned : ∀ word ∈ found.map swapWord, isWord word := by
        intro word member
        obtain ⟨before, here, rfl⟩ := List.mem_map.mp member
        exact isWord_swapWord (good before here)
      have again := words_flatMap turned
      rw [List.flatMap_map] at again
      rw [parse, again, turnGroups_flatMap]
      apply congrArg Except.ok
      rw [List.flatMap_map]
      apply List.flatMap_congr
      intro word member
      exact toLittleEndian_swapWord (good word member)

end BoardSupport.Loader.HexImage
