import BoardSupport.Proofs.Loader.ByteOrder

/-! Swapping the words of a text twice. What is left of the text is its normal form: its words as they
were, on lines of their own. -/
namespace BoardSupport.Loader.HexImage

open Text

/-- The lines that hold something, trimmed, each ended by one line feed. -/
def normalForm (text : List Char) : List Char := (filledLines text).flatMap fun line => trim line ++ ['\n']

/-- The text is words on lines of their own, each ended by one line feed, and nothing else. -/
def Normal (text : List Char) : Prop :=
  ∃ found : List (List Char), (∀ word ∈ found, isWord word) ∧ text = found.flatMap (· ++ ['\n'])

section Words

variable {word : List Char} {found : List (List Char)}

theorem swapWord_swapWord (good : isWord word) : swapWord (swapWord word) = word := by
  obtain ⟨a, b, c, d, e, f, g, h, rfl⟩ := eq_of_length (isWord_iff.mp good).1
  rfl

theorem isWord_of_mem_map_swapWord (good : ∀ word ∈ found, isWord word) :
    ∀ word ∈ found.map swapWord, isWord word := by
  intro word member
  obtain ⟨before, here, rfl⟩ := List.mem_map.mp member
  exact isWord_swapWord (good before here)

theorem map_swapWord_map_swapWord (good : ∀ word ∈ found, isWord word) :
    (found.map swapWord).map swapWord = found := by
  have back : ∀ word ∈ found, (swapWord ∘ swapWord) word = id word := by
    intro word member
    exact swapWord_swapWord (good word member)
  rw [List.map_map, List.map_congr_left back, List.map_id]

end Words

section Texts

variable {text swapped : List Char} {found : List (List Char)}

theorem swap_eq_ok : swap text = .ok swapped ↔
    ∃ found, words text = .ok found ∧ swapped = (found.map swapWord).flatMap (· ++ ['\n']) := by
  rw [swap]
  cases words text with
  | error cause =>
    constructor
    · rintro ⟨⟩
    · rintro ⟨_, ⟨⟩, -⟩
  | ok found =>
    have written : (found.flatMap fun word => swapWord word ++ ['\n']) =
        (found.map swapWord).flatMap (· ++ ['\n']) := by
      rw [List.flatMap_map]
    constructor
    · rintro ⟨⟩
      exact ⟨found, rfl, written⟩
    · rintro ⟨_, ⟨⟩, rfl⟩
      exact congrArg Except.ok written

theorem normalForm_eq (read : words text = .ok found) :
    normalForm text = found.flatMap (· ++ ['\n']) := by
  rw [← (words_eq_ok.mp read).1, List.flatMap_map]
  rfl

theorem normal_normalForm (accepted : swap text = .ok swapped) : Normal (normalForm text) := by
  obtain ⟨found, read, -⟩ := swap_eq_ok.mp accepted
  exact ⟨found, (words_eq_ok.mp read).2, normalForm_eq read⟩

theorem swap_swapped (accepted : swap text = .ok swapped) : swap swapped = .ok (normalForm text) := by
  obtain ⟨found, read, rfl⟩ := swap_eq_ok.mp accepted
  have good := (words_eq_ok.mp read).2
  refine swap_eq_ok.mpr ⟨found.map swapWord, words_flatMap (isWord_of_mem_map_swapWord good), ?_⟩
  rw [map_swapWord_map_swapWord good, normalForm_eq read]

/-- What is normal is accepted, and its own normal form. -/
theorem swap_swap_of_normal (normal : Normal text) : (swap text >>= swap) = .ok text := by
  obtain ⟨found, good, rfl⟩ := normal
  have read := words_flatMap good
  have accepted := swap_eq_ok.mpr ⟨found, read, rfl⟩
  rw [accepted]
  exact (swap_swapped accepted).trans (congrArg Except.ok (normalForm_eq read))

end Texts

/-- A text that is swapped is swapped a second time, into its normal form. Just the texts in normal form
are left as they were, and the third and the fourth time only undo each other. -/
theorem swap_twice (text : List Char) :
    (∀ swapped, swap text = .ok swapped →
      swap swapped = .ok (normalForm text) ∧ Normal (normalForm text)) ∧
    ((swap text >>= swap) = .ok text ↔ Normal text) ∧
    (swap text >>= swap >>= swap >>= swap) = (swap text >>= swap) := by
  refine ⟨?_, ⟨?_, swap_swap_of_normal⟩, ?_⟩
  · intro swapped accepted
    exact ⟨swap_swapped accepted, normal_normalForm accepted⟩
  · intro same
    cases accepted : swap text with
    | error cause =>
      rw [accepted] at same
      cases same
    | ok swapped =>
      rw [accepted] at same
      have form : normalForm text = text := Except.ok.inj ((swap_swapped accepted).symm.trans same)
      exact form ▸ normal_normalForm accepted
  · cases accepted : swap text with
    | error cause => rfl
    | ok swapped =>
      have twice := swap_swapped accepted
      calc
        (swap swapped >>= swap >>= swap) = (Except.ok (normalForm text) >>= swap >>= swap) := by
          rw [twice]
        _ = .ok (normalForm text) := swap_swap_of_normal (normal_normalForm accepted)
        _ = swap swapped := twice.symm

/-- Two ends of lines, white space, digits of both cases and no end of the last line. -/
example : normalForm " 89abCDef\r\n\t\n0000000A".toList = "89abCDef\n0000000A\n".toList := by
  decide +kernel

end BoardSupport.Loader.HexImage
