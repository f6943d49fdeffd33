import BoardSupport.Proofs.Loader.ByteOrder

/-! Ways to write a list of words as a text, and that exactly these are read. -/
namespace BoardSupport.Loader.HexImage

open Text

def IsAsciiHexDigit (c : Char) : Prop :=
  '0' ≤ c ∧ c ≤ '9' ∨ 'a' ≤ c ∧ c ≤ 'f' ∨ 'A' ≤ c ∧ c ≤ 'F'

/-- Trimmed, the line is empty or exactly eight digits. -/
def Acceptable (line : List Char) : Prop :=
  trim line = [] ∨ (trim line).length = 8 ∧ ∀ c ∈ trim line, IsAsciiHexDigit c

/-- The line holds nothing but white space, or one number between white space. -/
inductive Holds (line : List Char) : List UInt32 → Prop
  | nothing (blank : ∀ c ∈ line, isBlank c) : Holds line []
  | word (v : UInt32) (writes : Writes line v.toNat) : Holds line [v]

/-- What ends a line. -/
inductive LineEnd : List Char → Prop
  | feed : LineEnd ['\n']
  | returnFeed : LineEnd ['\r', '\n']

/-- The text holds these words line by line. The last line need not be ended. -/
inductive Rendering : List Char → List UInt32 → Prop
  | last {line : List Char} {values : List UInt32} (one : '\n' ∉ line) (held : Holds line values) :
      Rendering line values
  | more {line ending rest : List Char} {here later : List UInt32} (one : '\n' ∉ line)
      (held : Holds line here) (ended : LineEnd ending) (rendered : Rendering rest later) :
      Rendering (line ++ ending ++ rest) (here ++ later)

section Trimming

variable {s line before after word : List Char}

theorem trim_blank_append (blank : ∀ c ∈ before, isBlank c) : trim (before ++ s) = trim s := by
  rw [trim, trim, trimStart, List.dropWhile_append_of_pos blank]
  rfl

theorem trim_append_blank (blank : ∀ c ∈ after, isBlank c) : trim (s ++ after) = trim s := by
  rw [trim, trim, trimStart, trimStart, List.dropWhile_append]
  split
  next empty =>
    rw [List.isEmpty_iff.mp empty, List.dropWhile_eq_nil_iff.mpr blank]
  next =>
    have inside : ∀ c ∈ after.reverse, isBlank c := by
      intro c member
      exact blank c (List.mem_reverse.mp member)
    rw [trimEnd, List.reverse_append, List.dropWhile_append_of_pos inside]
    rfl

theorem trim_append_return (s : List Char) : trim (s ++ ['\r']) = trim s :=
  trim_append_blank (List.forall_mem_singleton.mpr rfl)

theorem trim_dropReturn (line : List Char) : trim (dropReturn line) = trim line := by
  fun_cases dropReturn
  case case1 last =>
    have whole := List.dropLast_append_getLast? _ last
    rw [← trim_append_return, whole]
  case case2 => rfl

theorem trim_eq_nil_iff : trim line = [] ↔ ∀ c ∈ line, isBlank c := by
  rw [← List.isEmpty_iff, trim_isEmpty]
  simp

/-- The lines of a text with one more in front, trimmed. -/
theorem map_trim_lines (rest : List Char) {ending : List Char} (one : '\n' ∉ line)
    (ended : LineEnd ending) :
    (lines (line ++ ending ++ rest)).map trim = trim line :: (lines rest).map trim := by
  have apart {part : List Char} (absent : '\n' ∉ part) : ∀ c ∈ part, c ≠ '\n' := by
    rintro c member rfl
    exact absent member
  cases ended with
  | feed =>
    rw [List.append_assoc, List.singleton_append, lines_append rest (apart one), List.map_cons,
      trim_dropReturn]
  | returnFeed =>
    have absent : '\n' ∉ line ++ ['\r'] := by simpa using one
    have same : line ++ ['\r', '\n'] ++ rest = (line ++ ['\r']) ++ '\n' :: rest := by simp
    rw [same, lines_append rest (apart absent), List.map_cons, trim_dropReturn,
      trim_append_return]

theorem lines_of_not_mem (one : '\n' ∉ line) : lines line = if line.isEmpty then [] else [line] := by
  have none : line.dropWhile (· ≠ '\n') = [] := by
    rw [List.dropWhile_eq_nil_iff]
    rintro c member
    exact decide_eq_true fun feed => one (feed ▸ member)
  rw [lines]
  split
  case h_1 => rfl
  case h_2 some =>
    rw [none] at some
    cases some

/-- Texts are built from their first line on. -/
theorem lines_induction {motive : List Char → Prop} (last : ∀ line, '\n' ∉ line → motive line)
    (more : ∀ line rest, '\n' ∉ line → motive rest → motive (line ++ ['\n'] ++ rest))
    (text : List Char) : motive text := by
  by_cases feed : '\n' ∈ text
  · obtain ⟨line, rest, whole, one⟩ := List.eq_append_cons_of_mem feed
    have shorter : rest.length < text.length := by
      rw [whole, List.length_append, List.length_cons]
      omega
    have built := more line rest one (lines_induction last more rest)
    rwa [List.append_assoc, List.singleton_append, ← whole] at built
  · exact last text feed
termination_by text.length

end Trimming

section Digits

variable {c : Char} {d n : Nat} {word line : List Char} {digits : List Nat}

theorem isHexDigit_iff_isAscii (c : Char) : isHexDigit c ↔ IsAsciiHexDigit c := by
  rw [isHexDigit_iff]
  simp only [IsAsciiHexDigit, Char.le_def, UInt32.le_iff_toNat_le]
  change _ ↔ 48 ≤ c.toNat ∧ c.toNat ≤ 57 ∨ 97 ≤ c.toNat ∧ c.toNat ≤ 102 ∨
    65 ≤ c.toNat ∧ c.toNat ≤ 70
  omega

private theorem toNat_toLower (c : Char) :
    c.toLower.toNat = if 65 ≤ c.toNat ∧ c.toNat ≤ 90 then c.toNat + 32 else c.toNat := by
  have code : c.toNat = c.val.toNat := rfl
  have upper : (c.val ≥ 'A'.val ∧ c.val ≤ 'Z'.val) ↔ 65 ≤ c.toNat ∧ c.toNat ≤ 90 := by
    simp only [ge_iff_le, UInt32.le_iff_toNat_le]
    exact Iff.rfl
  unfold Char.toLower
  split
  next range =>
    rw [if_pos (upper.mp range)]
    have range := upper.mp range
    change (c.val + 32).toNat = _
    rw [UInt32.toNat_add]
    have small : (32 : UInt32).toNat = 32 := rfl
    omega
  next range => rw [if_neg (mt upper.mpr range)]

private theorem toNat_hexDigit (bound : d < 16) :
    (hexDigit d).toNat = if d < 10 then 48 + d else 87 + d := by
  interval_cases d <;> rfl

theorem digitValue_of_isDigit (h : IsDigit c d) : digitValue 16 c = some d := by
  obtain ⟨bound, same⟩ := h
  have code := congrArg Char.toNat same
  rw [toNat_toLower, toNat_hexDigit bound] at code
  simp only [digitValue, Option.filter_eq_some_iff, decide_eq_true_eq]
  refine ⟨?_, bound⟩
  grind

theorem digitsOf_eq (written : List.Forall₂ IsDigit word digits) :
    digitsOf word = digits ∧ ∀ c ∈ word, isHexDigit c := by
  induction written with
  | nil => exact ⟨rfl, by simp⟩
  | cons here _ ih =>
    have found := digitValue_of_isDigit here
    refine ⟨?_, List.forall_mem_cons.mpr ⟨?_, ih.2⟩⟩
    · rw [digitsOf, List.map_cons, found, ← ih.1]
      rfl
    · rw [isHexDigit, found]
      rfl

theorem writes_iff : Writes line n ↔ isWord (trim line) ∧ n = (value (trim line)).toNat := by
  constructor
  · rintro ⟨before, word, after, digits, rfl, first, last, long, written, rfl⟩
    obtain ⟨rfl, good⟩ := digitsOf_eq written
    have trimmed : trim (before ++ word ++ after) = word := by
      rw [trim_append_blank last, trim_blank_append first]
      exact trim_of_not_isBlank (not_isBlank_of_isWord (isWord_iff.mpr ⟨long, good⟩))
    rw [trimmed]
    exact ⟨isWord_iff.mpr ⟨long, good⟩, (value_toNat long good).symm⟩
  · rintro ⟨good, rfl⟩
    exact writes_of_isWord good

theorem acceptable_iff : Acceptable line ↔ trim line = [] ∨ isWord (trim line) := by
  simp only [Acceptable, isWord_iff, isHexDigit_iff_isAscii]

end Digits

section Lines

variable {text line : List Char} {values : List UInt32}

/-- The word on a trimmed line, if there is one. -/
def wordsOn (line : List Char) : List UInt32 := if line.isEmpty then [] else [value line]

theorem ne_nil_of_isWord {word : List Char} (good : isWord word) : word ≠ [] := by
  rintro rfl
  cases good

theorem wordsOn_of_isWord {word : List Char} (good : isWord word) : wordsOn word = [value word] := by
  rw [wordsOn, if_neg (mt List.isEmpty_iff.mp (ne_nil_of_isWord good))]

theorem holds_iff : Holds line values ↔ Acceptable line ∧ values = wordsOn (trim line) := by
  rw [acceptable_iff]
  constructor
  · rintro (blank | ⟨v, writes⟩)
    · rw [trim_eq_nil_iff.mpr blank]
      exact ⟨.inl rfl, rfl⟩
    · obtain ⟨good, same⟩ := writes_iff.mp writes
      rw [wordsOn_of_isWord good, UInt32.toNat_inj.mp same]
      exact ⟨.inr good, rfl⟩
  · rintro ⟨nothing | good, rfl⟩
    · rw [nothing]
      exact .nothing (trim_eq_nil_iff.mp nothing)
    · rw [wordsOn_of_isWord good]
      exact .word _ (writes_iff.mpr ⟨good, rfl⟩)

/-- A text is a rendering of the words on its lines, if each line holds one or nothing. -/
theorem rendering_iff : Rendering text values ↔
    (∀ line ∈ lines text, Acceptable line) ∧ values = ((lines text).map trim).flatMap wordsOn := by
  have acceptable (text : List Char) : (∀ line ∈ lines text, Acceptable line) ↔
      ∀ word ∈ (lines text).map trim, word = [] ∨ isWord word := by
    simp only [acceptable_iff, List.forall_mem_map]
  rw [acceptable]
  constructor
  · intro rendered
    induction rendered with
    | last one held =>
      obtain ⟨good, rfl⟩ := holds_iff.mp held
      rw [lines_of_not_mem one]
      split
      next empty =>
        rw [List.isEmpty_iff.mp empty]
        exact ⟨by simp, rfl⟩
      next => simpa using acceptable_iff.mp good
    | more one held ended _ ih =>
      obtain ⟨good, rfl⟩ := holds_iff.mp held
      rw [map_trim_lines _ one ended, List.flatMap_cons, ← ih.2]
      exact ⟨List.forall_mem_cons.mpr ⟨acceptable_iff.mp good, ih.1⟩, rfl⟩
  · rintro ⟨good, rfl⟩
    induction text using lines_induction with
    | last line one =>
      refine .last one (holds_iff.mpr ?_)
      rw [lines_of_not_mem one] at good ⊢
      split
      next empty =>
        rw [List.isEmpty_iff.mp empty]
        exact ⟨.inl rfl, rfl⟩
      next filled =>
        rw [if_neg filled] at good
        rw [acceptable_iff]
        simpa using good
    | more line rest one ih =>
      rw [map_trim_lines rest one .feed] at good ⊢
      rw [List.forall_mem_cons] at good
      exact .more one (holds_iff.mpr ⟨acceptable_iff.mpr good.1, rfl⟩) .feed (ih good.2)

end Lines

section Writing

private theorem isDigit_hexDigit (d : Nat) : IsDigit (hexDigit (d % 16)) (d % 16) := by
  have bound : d % 16 < 16 := Nat.mod_lt d (by decide)
  refine ⟨bound, ?_⟩
  generalize d % 16 = d at bound
  interval_cases d <;> rfl

/-- Each word can be written on a line. -/
theorem exists_writes (v : UInt32) : ∃ line, '\n' ∉ line ∧ Writes line v.toNat := by
  let places : List Nat := [268435456, 16777216, 1048576, 65536, 4096, 256, 16, 1]
  let digits := places.map fun place => v.toNat / place % 16
  have written : List.Forall₂ IsDigit (digits.map hexDigit) digits := by
    rw [List.forall₂_map_left_iff, List.forall₂_same]
    intro d member
    obtain ⟨place, -, rfl⟩ := List.mem_map.mp member
    exact isDigit_hexDigit _
  have number : v.toNat = Nat.ofDigits 16 digits.reverse := by
    have bound := v.toNat_lt
    simp only [digits, places, List.map_cons, List.map_nil, List.reverse_cons, List.reverse_nil,
      List.nil_append, List.cons_append, Nat.ofDigits_cons, Nat.ofDigits_nil]
    omega
  have good := (digitsOf_eq written).2
  refine ⟨digits.map hexDigit, ?_, [], digits.map hexDigit, [], digits, by simp, by simp, by simp, rfl,
    written, number⟩
  intro feed
  exact absurd (good _ feed) (by decide)

theorem exists_rendering (values : List UInt32) : ∃ text, Rendering text values := by
  induction values with
  | nil => exact ⟨[], .last List.not_mem_nil (.nothing (by simp))⟩
  | cons v rest ih =>
    obtain ⟨line, one, writes⟩ := exists_writes v
    obtain ⟨text, rendered⟩ := ih
    exact ⟨line ++ ['\n'] ++ text, .more one (.word v writes) .feed rendered⟩

end Writing

section Reading

variable {text : List Char}

private theorem map_value_filter (found : List (List Char)) :
    (found.filter fun word => !word.isEmpty).map value = found.flatMap wordsOn := by
  induction found with
  | nil => rfl
  | cons word rest ih =>
    rw [List.flatMap_cons, ← ih, wordsOn]
    cases empty : word.isEmpty <;> simp [empty]

theorem map_trim_filledLines (text : List Char) :
    (filledLines text).map trim = ((lines text).map trim).filter fun word => !word.isEmpty := by
  rw [List.filter_map, filledLines]
  congr 2
  funext line
  simp [trim_isEmpty]

/-- The words of a text are all words, if each of its lines holds one or nothing. -/
theorem forall_filledLines : (∀ word ∈ (filledLines text).map trim, isWord word) ↔
    ∀ line ∈ lines text, Acceptable line := by
  rw [map_trim_filledLines]
  simp only [List.forall_mem_filter, List.forall_mem_map, acceptable_iff]
  refine forall₂_congr fun line _ => ?_
  rw [or_iff_not_imp_left, Bool.not_eq_true', Bool.eq_false_iff, ne_eq, List.isEmpty_iff]

/-- Just the renderings of words are read. -/
theorem parse_eq_ok {bytes : List UInt8} : parse text = .ok bytes ↔
    ∃ values, Rendering text values ∧ bytes = values.flatMap Word.toLittleEndian := by
  have once {found : List (List Char)} : (found.flatMap fun word => Word.toLittleEndian (value word)) =
      (found.map value).flatMap Word.toLittleEndian := by
    rw [List.flatMap_map]
  simp only [rendering_iff, ← map_value_filter, ← map_trim_filledLines, ← forall_filledLines, parse]
  cases read : words text with
  | error cause =>
    constructor
    · rintro ⟨⟩
    · rintro ⟨values, ⟨good, -⟩, -⟩
      cases read.symm.trans (words_eq_ok.mpr ⟨rfl, good⟩)
  | ok found =>
    obtain ⟨rfl, good⟩ := words_eq_ok.mp read
    constructor
    · rintro ⟨⟩
      exact ⟨_, ⟨good, rfl⟩, once⟩
    · rintro ⟨_, ⟨-, rfl⟩, rfl⟩
      exact congrArg Except.ok once

/-- A line that holds something, trimmed, with its number. -/
private def numbered (x : List Char × Nat) : Option (Nat × List Char) :=
  if (trim x.1).isEmpty then none else some (x.2, trim x.1)

/-- Lines are numbered from `start` on. -/
private theorem find_numbered {found : List (List Char)} {start : Nat} {x : Nat × List Char}
    (bad : ((found.zipIdx start).filterMap numbered).find? (!isWord ·.2) = some x) :
    ∃ before line after, found = before ++ line :: after ∧ (∀ early ∈ before, Acceptable early) ∧
      ¬ Acceptable line ∧ x = (start + before.length, trim line) := by
  induction found generalizing start with
  | nil => cases bad
  | cons line rest ih =>
    rw [List.zipIdx_cons] at bad
    by_cases good : Acceptable line
    · have later : ((rest.zipIdx (start + 1)).filterMap numbered).find? (!isWord ·.2) = some x := by
        rcases acceptable_iff.mp good with nothing | word
        · simpa [numbered, nothing] using bad
        · simpa [numbered, ne_nil_of_isWord word, word] using bad
      obtain ⟨before, line', after, rfl, early, offends, rfl⟩ := ih later
      refine ⟨line :: before, line', after, rfl, List.forall_mem_cons.mpr ⟨good, early⟩, offends, ?_⟩
      rw [List.length_cons, Nat.add_right_comm, Nat.add_assoc]
    · have offends := mt acceptable_iff.mpr good
      rw [not_or] at offends
      have here : (start, trim line) = x := by simpa [numbered, offends.1, offends.2] using bad
      exact ⟨[], line, rest, rfl, by simp, good, here.symm⟩

/-- What is wrong with a text is said of the first line that is not acceptable. -/
theorem parse_eq_error {cause : WordError} (failed : parse text = .error cause) :
    ∃ before line after, lines text = before ++ line :: after ∧ (∀ early ∈ before, Acceptable early) ∧
      ¬ Acceptable line ∧ cause = .expectedDigits (before.length + 1) (trim line) := by
  have read : words text = .error cause := by
    rw [parse] at failed
    cases read : words text with
    | error cause' =>
      rw [read] at failed
      cases failed
      rfl
    | ok found =>
      rw [read] at failed
      cases failed
  rw [words_eq] at read
  split at read
  next => cases read
  next x bad =>
    obtain ⟨before, line, after, whole, early, offends, rfl⟩ := find_numbered bad
    cases read
    rw [Nat.add_comm 1]
    exact ⟨before, line, after, whole, early, offends, rfl⟩

end Reading

/-- A text is read exactly if each of its lines, trimmed, is empty or eight digits, and otherwise the first
line that is neither is named, blank lines counted. It comes to some bytes exactly if it is one of the
ways to write words that have these bytes, and there are ways to write any words. Digits taken byte by
byte, and read as numbers with a sign allowed, come to the same. -/
theorem parse_exact (text : List Char) :
    ((∃ bytes, parse text = .ok bytes) ↔ ∀ line ∈ lines text, Acceptable line) ∧
    (∀ cause, parse text = .error cause → ∃ before line after, lines text = before ++ line :: after ∧
      (∀ early ∈ before, Acceptable early) ∧ ¬ Acceptable line ∧
      cause.message = "line " ++ toString (before.length + 1) ++ ": expected 8 hex digits, found " ++
        Text.quoted (trim line)) ∧
    (∀ bytes, parse text = .ok bytes ↔
      ∃ values, Rendering text values ∧ bytes = values.flatMap Word.toLittleEndian) ∧
    (∀ values, ∃ written, Rendering written values) ∧
    Bytewise.parse text = (parse text).mapError .word := by
  refine ⟨?_, ?_, fun bytes => parse_eq_ok, exists_rendering, parse_eq text⟩
  · constructor
    · rintro ⟨bytes, read⟩
      obtain ⟨values, rendered, -⟩ := parse_eq_ok.mp read
      exact (rendering_iff.mp rendered).1
    · intro good
      exact ⟨_, parse_eq_ok.mpr ⟨_, rendering_iff.mpr ⟨good, rfl⟩, rfl⟩⟩
  · intro cause failed
    obtain ⟨before, line, after, whole, early, offends, rfl⟩ := parse_eq_error failed
    exact ⟨before, line, after, whole, early, offends, rfl⟩

end BoardSupport.Loader.HexImage
