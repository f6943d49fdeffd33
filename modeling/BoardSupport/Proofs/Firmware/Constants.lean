import BoardSupport.Firmware.Settings
import BoardSupport.Proofs.Loader.ByteOrder
import Mathlib.Data.List.Basic
import Mathlib.Tactic.IntervalCases

/-! The source text that a build leaves for the bootloader. Read as declarations of constants it says for
what the bootloader is built. -/
namespace BoardSupport.Firmware.Constants

open Bootloader (Configuration)
open Settings (declaration configurationText)
open Text (readDigits digitValue)

/-- A word written with digits of a base. -/
def word? (base : Nat) (digits : List Char) : Option UInt32 :=
  if digits = [] then none else (readDigits base UInt32.size 0 digits).toOption.map UInt32.ofNat

/-- The value of a numeral: hexadecimal after `0x`, and decimal without. -/
def literal? (numeral : List Char) : Option UInt32 :=
  match numeral.dropPrefix? ['0', 'x'] with
  | some digits => word? 16 digits
  | none => word? 10 numeral

/-- The constant that a line declares, and its value. -/
def constant? (line : List Char) : Option (List Char × UInt32) := do
  let rest ← line.dropPrefix? "pub const ".toList
  let name := rest.takeWhile (· ≠ ':')
  let rest ← (rest.dropWhile (· ≠ ':')).dropPrefix? ": u32 = ".toList
  let value ← literal? (rest.takeWhile (· ≠ ';'))
  if rest.dropWhile (· ≠ ';') = [';'] then some (name, value) else none

/-- The configuration that a text declares: line by line it declares constants, each once, and among them the
four that make up a configuration. -/
def configuration? (text : List Char) : Option Configuration := do
  let constants ← (Text.lines text).mapM constant?
  if (constants.map Prod.fst).Nodup then
    let uart ← constants.lookup "UART_ADDR".toList
    let baud ← constants.lookup "BAUD".toList
    let first ← constants.lookup "LOAD_START".toList
    let last ← constants.lookup "LOAD_END".toList
    return ⟨uart, baud, ⟨first, last⟩⟩
  else none

/-- The configuration that the text in a file declares. -/
def ofFile? (bytes : List UInt8) : Option Configuration :=
  (Text.Utf8.read? bytes).bind fun text => configuration? text.toList

section Numerals

variable {base limit : Nat}

private theorem digitValue_digitChar {d : Nat} (digit : d < base) (small : base ≤ 16) :
    digitValue base (Nat.digitChar d) = some d := by
  have value : digitValue base (Nat.digitChar d) = (some d).filter (· < base) := by
    have bound : d < 16 := by omega
    interval_cases d <;> rfl
  rw [value, Option.filter_some, if_pos (decide_eq_true digit)]

private theorem readDigits_append (start : Nat) (first second : List Char) :
    readDigits base limit start (first ++ second) =
      (readDigits base limit start first).bind fun n => readDigits base limit n second := by
  induction first generalizing start with
  | nil => rfl
  | cons c first ih =>
    simp only [List.cons_append, readDigits]
    split
    · rfl
    · split
      · rfl
      · exact ih _

/-- The digits of a number below the limit are read as that number. -/
theorem readDigits_toDigits (many : 1 < base) (small : base ≤ 16) {n : Nat} (below : n < limit) :
    readDigits base limit 0 (Nat.toDigits base n) = .ok n := by
  -- On the number of digits: all but the last are those of the quotient by the base.
  induction n using Nat.strong_induction_on with
  | _ n ih =>
    have one (start d : Nat) (digit : d < base) (fits : start * base + d < limit) :
        readDigits base limit start [Nat.digitChar d] = .ok (start * base + d) := by
      simp only [readDigits, digitValue_digitChar digit small, if_neg (Nat.not_le.mpr fits)]
    by_cases single : n < base
    · rw [Nat.toDigits_of_lt_base single]
      have read := one 0 n single (by omega)
      rwa [Nat.zero_mul, Nat.zero_add] at read
    · have fewer : n / base < n := Nat.div_lt_self (by omega) many
      have whole : n / base * base + n % base = n := Nat.div_add_mod' n base
      rw [Nat.toDigits_of_base_le many (by omega), readDigits_append, ih (n / base) fewer (by omega)]
      have read := one (n / base) (n % base) (Nat.mod_lt n (by omega)) (by omega)
      rwa [whole] at read

private theorem mem_toDigits (many : 1 < base) {n : Nat} {c : Char} (mem : c ∈ Nat.toDigits base n) :
    ∃ d < base, c = Nat.digitChar d := by
  induction n using Nat.strong_induction_on with
  | _ n ih =>
    rw [Nat.toDigits_eq_if many] at mem
    split at mem
    next single => exact ⟨n, single, List.mem_singleton.mp mem⟩
    next more =>
      rcases List.mem_append.mp mem with early | last
      · exact ih (n / base) (Nat.div_lt_self (by omega) many) early
      · exact ⟨n % base, Nat.mod_lt n (by omega), List.mem_singleton.mp last⟩

private theorem word?_toDigits (many : 1 < base) (small : base ≤ 16) (w : UInt32) :
    word? base (Nat.toDigits base w.toNat) = some w := by
  have some_digits : Nat.toDigits base w.toNat ≠ [] := by
    rw [Nat.toDigits_eq_if many]
    split <;> simp
  rw [word?, if_neg some_digits, readDigits_toDigits many small w.toNat_lt_size]
  exact congrArg some UInt32.ofNat_toNat

/-- Letters, digits and underscores: nothing that stands between the parts of a declaration. -/
def Clean (part : List Char) : Prop := ∀ c ∈ part, c.isAlphanum ∨ c = '_'

instance {part : List Char} : Decidable (Clean part) := List.decidableBAll _ part

private theorem Clean.not_mem {part : List Char} (clean : Clean part) {c : Char}
    (other : ¬ (c.isAlphanum ∨ c = '_')) : c ∉ part := fun mem => other (clean c mem)

private theorem clean_toDigits (many : 1 < base) (small : base ≤ 16) (n : Nat) : Clean (Nat.toDigits base n) := by
  intro c mem
  obtain ⟨d, digit, rfl⟩ := mem_toDigits many mem
  left
  have bound : d < 16 := by omega
  interval_cases d <;> rfl

/-- A numeral that can stand in a declaration, and its value. -/
structure Numeral (numeral : String) (value : UInt32) : Prop where
  clean : Clean numeral.toList
  value : literal? numeral.toList = some value

private theorem numeral_hexMarked (w : UInt32) : Numeral (Text.hexMarked w.toNat) w := by
  have digits : (Text.hexMarked w.toNat).toList = ['0', 'x'] ++ Nat.toDigits 16 w.toNat := by
    simp [Text.hexMarked, Text.hex]
  constructor
  · rw [digits]
    have mark : Clean ['0', 'x'] := by decide
    exact List.forall_mem_append.mpr ⟨mark, clean_toDigits (by decide) (by decide) _⟩
  · rw [digits, literal?, List.dropPrefix?_append_of_beq _ (by decide)]
    exact word?_toDigits (by decide) (by decide) w

private theorem numeral_decimal (w : UInt32) : Numeral (toString w.toNat) w := by
  have digits : (toString w.toNat).toList = Nat.toDigits 10 w.toNat := by
    rw [Nat.toString_eq_repr, Nat.repr_eq_ofList_toDigits, String.toList_ofList]
  have unmarked : (Nat.toDigits 10 w.toNat).dropPrefix? ['0', 'x'] = none := by
    rw [Option.eq_none_iff_forall_ne_some]
    intro rest found
    obtain ⟨mark, whole, same⟩ := List.dropPrefix?_eq_some_iff.mp found
    obtain rfl := eq_of_beq same
    have mem : 'x' ∈ Nat.toDigits 10 w.toNat := by simp [whole]
    exact absurd (Nat.isDigit_of_mem_toDigits (by decide) (by decide) mem) (by decide)
  constructor
  · rw [digits]
    exact clean_toDigits (by decide) (by decide) _
  · rw [digits, literal?, unmarked]
    exact word?_toDigits (by decide) (by decide) w

end Numerals

section Declarations

variable {numeral : String} {value : UInt32}

/-- A declaration without the end of its line. -/
private def lineOf (name numeral : String) : List Char :=
  "pub const ".toList ++ (name.toList ++ (": u32 = ".toList ++ (numeral.toList ++ [';'])))

private theorem toList_declaration (name numeral : String) :
    (declaration name numeral).toList = lineOf name numeral ++ ['\n'] := by
  have ending : ";\n".toList = [';'] ++ ['\n'] := by decide +kernel
  unfold declaration lineOf
  simp only [String.toList_append, ending, List.append_assoc]

private theorem takeWhile_clean {part : List Char} (clean : Clean part) {c : Char}
    (other : ¬ (c.isAlphanum ∨ c = '_')) (rest : List Char) :
    (part ++ c :: rest).takeWhile (· ≠ c) = part ∧ (part ++ c :: rest).dropWhile (· ≠ c) = c :: rest := by
  have before : ∀ d ∈ part, decide (d ≠ c) = true := by
    rintro d mem
    exact decide_eq_true fun same => clean.not_mem other (same ▸ mem)
  rw [List.takeWhile_append_of_pos before, List.dropWhile_append_of_pos before]
  simp

/-- What a declaration says. -/
private theorem constant?_lineOf (name : String) (clean : Clean name.toList) (stands : Numeral numeral value) :
    constant? (lineOf name numeral) = some (name.toList, value) := by
  have colon : ": u32 = ".toList = ':' :: " u32 = ".toList := by decide +kernel
  obtain ⟨front, back⟩ := takeWhile_clean clean (c := ':') (by decide)
    (" u32 = ".toList ++ (numeral.toList ++ [';']))
  obtain ⟨front', back'⟩ := takeWhile_clean stands.clean (c := ';') (by decide) []
  unfold constant? lineOf
  rw [List.dropPrefix?_append_of_beq _ (beq_self_eq_true _)]
  simp only [Option.bind_eq_bind, Option.bind_some]
  rw [colon, List.cons_append, front, back, ← List.cons_append, ← colon,
    List.dropPrefix?_append_of_beq _ (beq_self_eq_true _)]
  simp only [Option.bind_some]
  rw [front', back', stands.value]
  rfl

private theorem one_line {name : String} (clean : Clean name.toList) (stands : Numeral numeral value) :
    '\n' ∉ lineOf name numeral ∧ '\r' ∉ lineOf name numeral := by
  have apart {c : Char} (other : ¬ (c.isAlphanum ∨ c = '_'))
      (outside : c ∉ "pub const ".toList ∧ c ∉ ": u32 = ".toList ∧ c ≠ ';') : c ∉ lineOf name numeral := by
    unfold lineOf
    simp only [List.mem_append, List.mem_singleton, not_or]
    exact ⟨outside.1, clean.not_mem other, outside.2.1, stands.clean.not_mem other, outside.2.2⟩
  exact ⟨apart (by decide) (by decide +kernel), apart (by decide) (by decide +kernel)⟩

/-- A text that a configuration is written in is read as that configuration. -/
theorem configuration?_configurationText (c : Configuration) :
    configuration? (configurationText c).toList = some c := by
  have uart := numeral_hexMarked c.uart
  have baud := numeral_decimal c.baud
  have first := numeral_hexMarked c.window.first
  have last := numeral_hexMarked c.window.last
  have uartName : Clean "UART_ADDR".toList := by decide +kernel
  have baudName : Clean "BAUD".toList := by decide +kernel
  have firstName : Clean "LOAD_START".toList := by decide +kernel
  have lastName : Clean "LOAD_END".toList := by decide +kernel
  have lines := Loader.HexImage.lines_flatMap [lineOf "UART_ADDR" (Text.hexMarked c.uart.toNat),
      lineOf "BAUD" (toString c.baud.toNat), lineOf "LOAD_START" (Text.hexMarked c.window.first.toNat),
      lineOf "LOAD_END" (Text.hexMarked c.window.last.toNat)] (by
    simp only [List.forall_mem_cons]
    exact ⟨one_line uartName uart, one_line baudName baud, one_line firstName first, one_line lastName last,
      by simp⟩)
  simp only [List.flatMap_cons, List.flatMap_nil, ← toList_declaration, List.append_nil] at lines
  rw [configuration?, configurationText]
  simp only [String.toList_append, List.append_assoc, lines, List.mapM_cons, List.mapM_nil,
    constant?_lineOf _ uartName uart, constant?_lineOf _ baudName baud, constant?_lineOf _ firstName first,
    constant?_lineOf _ lastName last]
  rfl

/-- The text of bytes that spell one. -/
private theorem read?_bytes (text : String) : Text.Utf8.read? (Text.bytes text) = some text :=
  dif_pos text.isValidUTF8

/-- A file with a configuration in it is read as that configuration. -/
theorem ofFile?_configurationText (c : Configuration) :
    ofFile? (Text.bytes (configurationText c)) = some c := by
  rw [ofFile?, read?_bytes]
  exact configuration?_configurationText c

end Declarations

end BoardSupport.Firmware.Constants
