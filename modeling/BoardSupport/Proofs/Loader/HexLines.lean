import BoardSupport.Loader.HexImage
import BoardSupport.Text.Digits
import Mathlib.Data.List.Forall2
import Mathlib.Data.List.TakeWhile
import Mathlib.Data.Nat.Digits.Lemmas

/-! What a text of words says, line by line, and that reading it finds just that. -/
namespace BoardSupport.Loader.HexImage

open Text

/-- The lines that hold more than white space. -/
def filledLines (text : List Char) : List (List Char) := (lines text).filter (·.any (!isBlank ·))

/-- The character is the digit of value `d`, in either case. -/
def IsDigit (c : Char) (d : Nat) : Prop := d < 16 ∧ c.toLower = hexDigit d

/-- Between white space, the line holds eight digits that write `n`, most significant first. -/
def Writes (line : List Char) (n : Nat) : Prop :=
  ∃ before word after digits, line = before ++ word ++ after ∧
    (∀ c ∈ before, isBlank c) ∧ (∀ c ∈ after, isBlank c) ∧
    word.length = 8 ∧ List.Forall₂ IsDigit word digits ∧ n = Nat.ofDigits 16 digits.reverse

section Trimming

theorem trim_split (line : List Char) : ∃ before after, line = before ++ trim line ++ after ∧
    (∀ c ∈ before, isBlank c) ∧ ∀ c ∈ after, isBlank c := by
  let rest := line.dropWhile isBlank
  refine ⟨line.takeWhile isBlank, (rest.reverse.takeWhile isBlank).reverse, ?_, ?_, ?_⟩
  · have tail : rest = trimEnd rest ++ (rest.reverse.takeWhile isBlank).reverse := by
      rw [trimEnd, ← List.reverse_append, List.takeWhile_append_dropWhile, List.reverse_reverse]
    calc
      line = line.takeWhile isBlank ++ rest := List.takeWhile_append_dropWhile.symm
      _ = line.takeWhile isBlank ++ (trim line ++ (rest.reverse.takeWhile isBlank).reverse) :=
        congrArg _ tail
      _ = _ := (List.append_assoc ..).symm
  · intro c mem
    exact List.mem_takeWhile_imp mem
  · intro c mem
    exact List.mem_takeWhile_imp (List.mem_reverse.mp mem)

private theorem trim_blank {line : List Char} (h : ∀ c ∈ line, isBlank c) : trim line = [] := by
  rw [trim, trimStart, List.dropWhile_eq_nil_iff.mpr h]
  rfl

/-- Trimming leaves nothing exactly of lines of white space. -/
theorem trim_isEmpty (line : List Char) : (trim line).isEmpty = !line.any (!isBlank ·) := by
  by_cases blank : ∀ c ∈ line, isBlank c
  · rw [trim_blank blank]
    simpa using blank
  · have held : trim line ≠ [] := by
      intro nothing
      obtain ⟨before, after, whole, first, last⟩ := trim_split line
      rw [nothing, List.append_nil] at whole
      apply blank
      intro c mem
      rw [whole, List.mem_append] at mem
      exact mem.elim (first c) (last c)
    have filled : line.any (!isBlank ·) = true := by simpa using blank
    simp [held, filled]

private theorem snd_significantFrom (found : List (List Char)) (n : Nat) :
    ((found.zipIdx n).filterMap fun (line, n) =>
      let word := trim line
      if word.isEmpty then none else some (n, word)).map Prod.snd =
      (found.filter (·.any (!isBlank ·))).map trim := by
  induction found generalizing n with
  | nil => rfl
  | cons line rest ih =>
    have empty := trim_isEmpty line
    cases filled : line.any (!isBlank ·) <;> simp_all

theorem snd_significant (text : List Char) :
    (significant text).map Prod.snd = (filledLines text).map trim := snd_significantFrom _ 1

end Trimming

section Digits

variable {c : Char} {d : Nat} {word : List Char}

private theorem isDigit_of_toNat {n : Nat} (code : c.toNat = n) (bound : d < 16)
    (same : (Char.ofNat n).toLower = hexDigit d) : IsDigit c d := by
  rw [← code, Char.ofNat_toNat] at same
  exact ⟨bound, same⟩

theorem isDigit_of_digitValue (h : digitValue 16 c = some d) : IsDigit c d := by
  simp only [digitValue, Option.filter_eq_some_iff, decide_eq_true_eq] at h
  obtain ⟨found, bound⟩ := h
  have code : c.toNat = 48 + d ∧ d < 10 ∨ c.toNat = 87 + d ∧ 10 ≤ d ∨ c.toNat = 55 + d ∧ 10 ≤ d := by
    grind
  -- The code of a digit depends on its value alone within each of the three ranges.
  rcases code with ⟨code, range⟩ | ⟨code, range⟩ | ⟨code, range⟩ <;>
    refine isDigit_of_toNat code bound ?_ <;> interval_cases d <;> rfl

/-- Digits read one after another, each word wrapping, are read as one number that wraps. -/
private theorem foldl_ofNat (digits : List Nat) (n : Nat) :
    digits.foldl (fun v d => v * 16 + UInt32.ofNat d) (UInt32.ofNat n) =
      UInt32.ofNat (digits.foldl (fun m d => m * 16 + d) n) := by
  induction digits generalizing n with
  | nil => rfl
  | cons d rest ih =>
    rw [List.foldl_cons, List.foldl_cons, ← ih, UInt32.ofNat_add, UInt32.ofNat_mul]
    rfl

theorem foldl_eq_ofDigits (digits : List Nat) :
    digits.foldl (fun m d => m * 16 + d) 0 = Nat.ofDigits 16 digits.reverse := by
  rw [Nat.ofDigits_eq_foldr, List.foldr_reverse]
  simp only [Nat.cast_id, Nat.mul_comm, Nat.add_comm]

/-- The values of the digits, in order. -/
def digitsOf (word : List Char) : List Nat := word.map fun c => (digitValue 16 c).getD 0

private theorem value_eq (word : List Char) :
    value word = UInt32.ofNat (Nat.ofDigits 16 (digitsOf word).reverse) := by
  rw [← foldl_eq_ofDigits, ← foldl_ofNat, digitsOf, List.foldl_map]
  rfl

theorem isDigit_read (digit : isHexDigit c) : IsDigit c ((digitValue 16 c).getD 0) := by
  obtain ⟨d, found⟩ := Option.isSome_iff_exists.mp digit
  rw [found]
  exact isDigit_of_digitValue found

private theorem isDigit_digitsOf (digits : ∀ c ∈ word, isHexDigit c) :
    List.Forall₂ IsDigit word (digitsOf word) := by
  rw [digitsOf, List.forall₂_map_right_iff, List.forall₂_same]
  intro c mem
  exact isDigit_read (digits c mem)

theorem digitsOf_lt (digits : ∀ c ∈ word, isHexDigit c) : ∀ d ∈ digitsOf word, d < 16 := by
  intro d mem
  obtain ⟨c, here, rfl⟩ := List.mem_map.mp mem
  exact (isDigit_read (digits c here)).1

/-- A word is eight characters, all of them digits. -/
theorem isWord_iff : isWord word ↔ word.length = 8 ∧ ∀ c ∈ word, isHexDigit c := by
  simp [isWord]

/-- Eight digits make a word of which no part is lost. -/
theorem value_toNat (long : word.length = 8) (digits : ∀ c ∈ word, isHexDigit c) :
    (value word).toNat = Nat.ofDigits 16 (digitsOf word).reverse := by
  have small : ∀ d ∈ (digitsOf word).reverse, d < 16 := by
    intro d mem
    exact digitsOf_lt digits d (List.mem_reverse.mp mem)
  have bound := Nat.ofDigits_lt_base_pow_length (by decide) small
  have length : (digitsOf word).reverse.length = 8 := by simp [digitsOf, long]
  rw [length] at bound
  rw [value_eq]
  exact UInt32.toNat_ofNat_of_lt' bound

theorem writes_of_isWord {line : List Char} (h : isWord (trim line)) :
    Writes line (value (trim line)).toNat := by
  obtain ⟨long, digits⟩ := isWord_iff.mp h
  obtain ⟨before, after, whole, first, last⟩ := trim_split line
  exact ⟨before, trim line, after, digitsOf (trim line), whole, first, last, long,
    isDigit_digitsOf digits, value_toNat long digits⟩

end Digits

section Parsing

variable {text : List Char} {found : List (List Char)}

/-- A line that holds something, if it is a word. -/
def checked (x : Nat × List Char) : Except WordError (List Char) :=
  if isWord x.2 then .ok x.2 else .error (.expectedDigits x.1 x.2)

private theorem mapM_checked (found : List (Nat × List Char)) :
    found.mapM checked = match found.find? (!isWord ·.2) with
      | none => .ok (found.map Prod.snd)
      | some x => .error (.expectedDigits x.1 x.2) := by
  induction found with
  | nil => rfl
  | cons x rest ih =>
    rw [List.mapM_cons, ih, checked]
    by_cases good : isWord x.2
    · rw [if_pos good, List.find?_cons_of_neg (by simp [good])]
      cases rest.find? (!isWord ·.2) <;> rfl
    · rw [if_neg good, List.find?_cons_of_pos (by simp [good])]
      rfl

/-- The words of a text are its lines that hold something, trimmed. The first of them that is no word
makes the whole fail. -/
theorem words_eq (text : List Char) :
    words text = match (significant text).find? (!isWord ·.2) with
      | none => .ok ((filledLines text).map trim)
      | some x => .error (.expectedDigits x.1 x.2) := by
  rw [← snd_significant]
  exact mapM_checked _

theorem words_eq_ok : words text = .ok found ↔
    (filledLines text).map trim = found ∧ ∀ word ∈ found, isWord word := by
  rw [words_eq, ← snd_significant]
  cases bad : (significant text).find? (!isWord ·.2) with
  | none =>
    have good : ∀ word ∈ (significant text).map Prod.snd, isWord word := by
      intro word member
      obtain ⟨x, here, rfl⟩ := List.mem_map.mp member
      simpa using List.find?_eq_none.mp bad x here
    constructor
    · intro same
      cases same
      exact ⟨rfl, good⟩
    · intro same
      exact congrArg Except.ok same.1
  | some x =>
    constructor
    · intro same
      cases same
    · intro same
      have member := List.mem_map_of_mem (f := Prod.snd) (List.mem_of_find?_eq_some bad)
      have good := same.2 x.2 (same.1 ▸ member)
      have wrong := List.find?_some bad
      simp [good] at wrong

/-- A text that is read writes, on the lines that hold something, the words that its bytes are made
of. -/
theorem writes_of_parse {bytes : List UInt8} (h : parse text = .ok bytes) :
    ∃ values : List UInt32, bytes = values.flatMap Word.toLittleEndian ∧
      List.Forall₂ (fun line v => Writes line v.toNat) (filledLines text) values := by
  cases read : words text with
  | error cause =>
    rw [parse, read] at h
    cases h
  | ok found =>
    rw [parse, read] at h
    cases h
    obtain ⟨rfl, good⟩ := words_eq_ok.mp read
    refine ⟨(filledLines text).map fun line => value (trim line), ?_, ?_⟩
    · rw [List.flatMap_map, List.flatMap_map]
    · rw [List.forall₂_map_right_iff, List.forall₂_same]
      intro line mem
      exact writes_of_isWord (good _ (List.mem_map_of_mem mem))

end Parsing

end BoardSupport.Loader.HexImage
