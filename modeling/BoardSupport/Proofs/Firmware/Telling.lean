import BoardSupport.Firmware.Bootloader
import BoardSupport.Proofs.Boot.Reception
import BoardSupport.Proofs.Program.Carrying
import Mathlib.Algebra.Group.Nat.Defs

/-! What a bootloader says, and when: it announces itself, loads, and then tells how that went. -/
namespace BoardSupport.Firmware.Bootloader

open Program Boot

/-- A text and the end of its line. -/
def line (text : String) : List UInt8 := Text.bytes text ++ [13, 10]

/-- What is said before any byte is taken. -/
def announcement : List UInt8 := line "Bootloader Ready!" ++ [xon]

/-- The lower-case hexadecimal digits of a word, most significant first. -/
structure Digits (digits : List UInt8) (word : UInt32) : Prop where
  length : digits.length = 8
  digit : ∀ i < 8, digits[i]? = (Text.bytes "0123456789abcdef")[word.toNat / 16 ^ (7 - i) % 16]?

/-- What is said of a transfer. -/
inductive Told : Except BootError Image → List UInt8 → Prop
  | loaded (image : Image) : Told (.ok image)
      (line "ETX Received!" ++ line "Bootloader Done, set SW15 back to 0 and reset!")
  | outside {address : UInt32} {digits : List UInt8} (shown : Digits digits address) :
      Told (.error (.outOfBounds address))
        (Text.bytes "Image outside load window at 0x" ++ digits ++ [13, 10])
  | overflow : Told (.error .addressOverflow) (line "Image runs past the end of memory!")

section Hex

private theorem toNat_nibble (word : UInt32) {k : Nat} (h : k < 8) :
    ((word >>> UInt32.ofNat (4 * k)) &&& 0xF).toNat = word.toNat / 16 ^ k % 16 := by
  have shift : (UInt32.ofNat (4 * k)).toNat % 32 = 4 * k := by
    rw [UInt32.toNat_ofNat_of_lt' (by simp [UInt32.size]; omega)]
    omega
  have mask : (0xF : UInt32).toNat = 2 ^ 4 - 1 := rfl
  rw [UInt32.toNat_and, UInt32.toNat_shiftRight, shift, mask, Nat.and_two_pow_sub_one_eq_mod,
    Nat.shiftRight_eq_div_pow, Nat.pow_mul]

private theorem hexDigit_eq {d : Nat} (h : d < 16) :
    some (UInt8.ofNat (Text.hexDigit d).toNat) = (Text.bytes "0123456789abcdef")[d]? := by
  decide +revert

private theorem hexWord_eq (word : UInt32) : hexWord word = (List.range 8).map fun i =>
    UInt8.ofNat (Text.hexDigit ((word >>> UInt32.ofNat (4 * (7 - i))) &&& 0xF).toNat).toNat := rfl

theorem digits_hexWord (word : UInt32) : Digits (hexWord word) word where
  length := rfl
  digit := by
    intro i inside
    rw [hexWord_eq, List.getElem?_map, List.getElem?_range inside, Option.map_some,
      toNat_nibble word (by omega)]
    exact hexDigit_eq (Nat.mod_lt _ (by decide))

end Hex

section Session

variable {course : List (Exchange Target)} {window : Window}

/-- These bytes go out over the link. -/
def spoken (bytes : List UInt8) : List (Exchange Target) := bytes.map fun b => ⟨.link (.send b), ()⟩

/-- What a bootloader does, in terms of what a receiver needs. -/
def session (window : Window) : Program Target Unit := do
  Target.overLink (Link.sendLine "Bootloader Ready!")
  let result ← receive window
  Target.overLink (Bootloader.verdict result)

private theorem overLink_interpret (u : Uart) {α : Type} (p : Program Link α) :
    (Target.overLink p).interpret (carry u) = onBus (u.runLink p) := by
  rw [Target.overLink, interpret_interpret, Uart.runLink, onBus, Machine.onBus, Bus.onNarrow,
    interpret_interpret, interpret_interpret]
  congr 1
  funext r
  exact (interpret_call (I := Target) (carry u) (.link r)).trans (interpret_interpret ..)

theorem load_eq (u : Uart) (window : Window) : load u window = (session window).interpret (carry u) := by
  simp only [load, session, interpret_bind, overLink_interpret]

private theorem follows_overLink {α : Type} {p : Program Link α} {a : α} :
    Follows (Target.overLink p) course a ↔
      ∃ below, Follows p below a ∧ course = below.map fun x => ⟨.link x.request, x.reply⟩ :=
  follows_renamed fun r _ _ => follows_call (I := Target) (r := .link r)

private theorem follows_sendAll {bytes : List UInt8} {below : List (Exchange Link)} {u : Unit} :
    Follows (Link.sendAll bytes) below u ↔ below = bytes.map fun b => ⟨.send b, ()⟩ := by
  induction bytes generalizing below with
  | nil =>
    change Follows (.done ()) below u ↔ _
    simp [follows_done]
  | cons b bytes ih =>
    change Follows (.ask (I := Link) (.send b) fun _ => Link.sendAll bytes) below u ↔ _
    simp only [follows_ask, ih]
    constructor
    · rintro ⟨_, _, rfl, rfl⟩
      rfl
    · rintro rfl
      exact ⟨(), _, rfl, rfl⟩

private theorem follows_spoken {bytes : List UInt8} {u : Unit} :
    Follows (Target.overLink (Link.sendAll bytes)) course u ↔ course = spoken bytes := by
  simp only [follows_overLink, follows_sendAll]
  constructor
  · rintro ⟨_, rfl, rfl⟩
    rw [List.map_map]
    rfl
  · rintro rfl
    refine ⟨_, rfl, ?_⟩
    rw [List.map_map]
    rfl

theorem spoken_append (first second : List UInt8) : spoken (first ++ second) = spoken first ++ spoken second :=
  List.map_append

private theorem overLink_bind {α β : Type} (p : Program Link α) (f : α → Program Link β) :
    Target.overLink (p >>= f) = Target.overLink p >>= fun a => Target.overLink (f a) := interpret_bind ..

/-- One text after another. -/
private theorem follows_spoken_bind {bytes more : List UInt8} {p : Program Link Unit} {u : Unit}
    (later : ∀ {course}, Follows (Target.overLink p) course u ↔ course = spoken more) :
    Follows (Target.overLink (Link.sendAll bytes >>= fun _ => p)) course u ↔
      course = spoken (bytes ++ more) := by
  simp only [overLink_bind, follows_bind, follows_spoken, later, spoken_append]
  constructor
  · rintro ⟨_, _, _, rfl, rfl, rfl⟩
    rfl
  · rintro rfl
    exact ⟨(), _, _, rfl, rfl, rfl⟩

private theorem follows_line {text : String} {u : Unit} :
    Follows (Target.overLink (Link.sendLine text)) course u ↔ course = spoken (line text) :=
  follows_spoken_bind follows_spoken

private theorem follows_verdict {result : Except BootError Image}
    (known : ∀ offset, result ≠ .error (.etxInPayload offset)) :
    ∃ told, Told result told ∧ ∀ course, Follows (Target.overLink (Bootloader.verdict result)) course () ↔
      course = spoken told := by
  rcases result with (address | _ | offset) | image
  · refine ⟨_, .outside (digits_hexWord address), ?_⟩
    rw [List.append_assoc]
    exact fun _ => follows_spoken_bind (follows_spoken_bind follows_line)
  · exact ⟨_, .overflow, fun _ => follows_line⟩
  · exact absurd rfl (known offset)
  · refine ⟨_, .loaded image, ?_⟩
    have both : Bootloader.verdict (.ok image) = Link.sendAll (Text.bytes "ETX Received!") >>= fun _ =>
        Link.sendAll Link.lineEnd >>= fun _ =>
          Link.sendLine "Bootloader Done, set SW15 back to 0 and reset!" := bind_assoc ..
    rw [both, line, List.append_assoc]
    exact fun _ => follows_spoken_bind (follows_spoken_bind follows_line)

/-- The announcement is all that goes out before the transfer, and what is told of it all that goes
out after it. -/
theorem follows_session (h : Follows (session window) course ()) :
    ∃ (loading : List (Exchange Target)) (polls : List (Option UInt8)) (o : Opening)
      (data : List UInt8) (last : UInt8) (result : Except BootError Image) (told : List UInt8),
      course = spoken announcement ++ [⟨.link .flush, ()⟩] ++ loading ++ spoken told ∧
      Target.Loads loading polls (placed o.start data) ∧ polls.reduceOption = o.bytes ++ data ++ [last] ∧
      Account window o.start data last (placed o.start data) result ∧ Told result told := by
  obtain ⟨_, ready, _, rfl, greeted, later⟩ := follows_bind.mp h
  obtain rfl := follows_line.mp greeted
  obtain ⟨result, receiving, closing, rfl, received, verdict⟩ := follows_bind.mp later
  obtain ⟨loading, polls, o, data, last, rfl, loads, bytes, account⟩ := follows_receive received
  obtain ⟨told, tells, telling⟩ := follows_verdict account.no_other
  obtain rfl := (telling _).mp verdict
  refine ⟨loading, polls, o, data, last, result, told, ?_, loads, bytes, account, tells⟩
  rw [announcement, spoken_append]
  simp only [List.append_assoc]
  rfl

/-- A transfer that ends makes a session that ends. -/
theorem session_of_receive {result : Except BootError Image} (h : Follows (receive window) course result) :
    ∃ told, Follows (session window) (spoken (line "Bootloader Ready!") ++ (course ++ spoken told)) () := by
  obtain ⟨loading, polls, o, data, last, -, -, -, account⟩ := follows_receive h
  obtain ⟨told, -, telling⟩ := follows_verdict account.no_other
  exact ⟨told, follows_bind.mpr ⟨(), _, _, rfl, follows_line.mpr rfl,
    follows_bind.mpr ⟨result, _, _, rfl, h, (telling _).mpr rfl⟩⟩⟩

end Session

end BoardSupport.Firmware.Bootloader
