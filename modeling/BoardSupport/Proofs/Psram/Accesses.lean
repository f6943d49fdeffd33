import BoardSupport.Proofs.Psram.Chip

/-! Each access to the memory is a frame of its own, or two for a reset, and does to the array of bytes
just what it says, whatever the frame before has left behind. -/
namespace BoardSupport.Psram

open Spi Program

def OnlyBytes (log : List (Exchange Channel)) : Prop :=
  ∀ x ∈ log, x.request = .read ∨ ∃ b, x.request = .write b

/-- From a select to a deselect, and a deselect before for good measure. -/
def IsFrame (log : List (Exchange Channel)) : Prop :=
  ∃ body, log = ⟨.deselect, ()⟩ :: ⟨.select, ()⟩ :: (body ++ [⟨.deselect, ()⟩]) ∧ OnlyBytes body

inductive Frames : Nat → List (Exchange Channel) → Prop
  | none : Frames 0 []
  | another {n : Nat} {frame log : List (Exchange Channel)} (first : IsFrame frame) (rest : Frames n log) :
      Frames (n + 1) (frame ++ log)

theorem OnlyBytes.append {first second : List (Exchange Channel)} (h : OnlyBytes first)
    (h' : OnlyBytes second) : OnlyBytes (first ++ second) := by
  intro x member
  exact (List.mem_append.mp member).elim (h x) (h' x)

theorem frames_one {frame : List (Exchange Channel)} (h : IsFrame frame) : Frames 1 frame := by
  have one := Frames.another h .none
  rwa [List.append_nil] at one

theorem Frames.append {n k : Nat} {log log' : List (Exchange Channel)} (h : Frames n log)
    (h' : Frames k log') : Frames (n + k) (log ++ log') := by
  induction h with
  | none => simpa using h'
  | another first _ ih =>
    rw [Nat.add_right_comm, List.append_assoc]
    exact .another first ih

section Bodies

variable {α β : Type} {phase mid phase' : Phase} {m m' : Contents}

/-- On a chip in one phase the program passes bytes and ends in the other. -/
def Moves (p : Program Channel α) (phase : Phase) (a : α) (phase' : Phase) : Prop :=
  ∀ chip, chip.Shows phase → ∃ log chip', Follows p log a ∧ Chip.device.Answers chip log chip' ∧
    OnlyBytes log ∧ chip'.Shows phase'

theorem moves_done (a : α) : Moves (done a) phase a phase := by
  intro chip shows
  exact ⟨[], chip, .done a, .nil chip, by simp [OnlyBytes], shows⟩

theorem Moves.bind {p : Program Channel α} {f : α → Program Channel β} {a : α} {b : β}
    (first : Moves p phase a mid) (rest : Moves (f a) mid b phase') : Moves (p >>= f) phase b phase' := by
  intro chip shows
  obtain ⟨log, chip, follows, answers, bytes, shows⟩ := first chip shows
  obtain ⟨log', chip', follows', answers', bytes', shows'⟩ := rest chip shows
  exact ⟨log ++ log', chip', follows_bind.mpr ⟨a, log, log', rfl, follows, follows'⟩,
    answers_append.mpr ⟨chip, answers, answers'⟩, bytes.append bytes', shows'⟩

theorem moves_write {position : Nat} (b : UInt8) :
    Moves (Channel.write b) (.writing m position) () (.writing (m.put position b) (position + 1)) := by
  intro chip shows
  obtain ⟨chip', wrote, shows'⟩ := Chip.write_writing shows b
  exact ⟨[⟨.write b, ()⟩], chip', follows_call.mpr rfl, .cons wrote (.nil _), by simp [OnlyBytes], shows'⟩

theorem moves_read {b : UInt8} (next : phase.next = some (b, phase')) :
    Moves Channel.read phase b phase' := by
  intro chip shows
  obtain ⟨chip', read, shows'⟩ := Chip.read_next shows next
  exact ⟨[⟨.read, b⟩], chip', follows_call.mpr rfl, .cons read (.nil _), by simp [OnlyBytes], shows'⟩

theorem moves_writeAll {position : Nat} (bytes : List UInt8) : Moves (Channel.writeAll bytes)
    (.writing m position) () (.writing (m.putAll position bytes) (position + bytes.length)) := by
  induction bytes generalizing m position with
  | nil => exact moves_done ()
  | cons b rest ih =>
    rw [List.length_cons, Nat.add_comm rest.length, ← Nat.add_assoc]
    exact (moves_write b).bind ih

private theorem moves_readAfter {n : Nat} {earlier bytes : List UInt8}
    (taken : phase.take n = some (bytes, phase')) :
    Moves (Channel.readAfter earlier n) phase (earlier.reverse ++ bytes) phase' := by
  induction n generalizing phase earlier bytes with
  | zero =>
    cases taken
    rw [List.append_nil]
    exact moves_done _
  | succ n ih =>
    obtain ⟨⟨b, mid⟩, next, taken⟩ := Option.bind_eq_some_iff.mp taken
    obtain ⟨⟨rest, last⟩, taken, same⟩ := Option.bind_eq_some_iff.mp taken
    cases same
    have shifted : earlier.reverse ++ b :: rest = (b :: earlier).reverse ++ rest := by simp
    rw [shifted]
    exact (moves_read next).bind (ih taken)

theorem moves_readAll {n : Nat} {bytes : List UInt8} (taken : phase.take n = some (bytes, phase')) :
    Moves (Channel.readAll n) phase bytes phase' :=
  moves_readAfter taken

theorem take_reading (m : Contents) (position n : Nat) :
    (Phase.reading m position).take n = some (m.slice position n, .reading m (position + n)) := by
  induction n generalizing position with
  | zero => rfl
  | succ n ih =>
    have first : m.slice position (n + 1) = m.get position :: m.slice (position + 1) n := by
      simp [Contents.slice, List.range_succ_eq_map, Function.comp_def, Nat.add_right_comm, Nat.add_assoc]
    rw [first, Nat.add_comm n, ← Nat.add_assoc]
    simp only [Phase.take, Phase.next, Nat.add_comm 1, ih, Option.bind_eq_bind, Option.bind_some]
    rfl

end Bodies

section Opening

variable {chip : Chip} {m : Contents} {command : UInt8} {address : UInt32} {phase : Phase}

/-- The phase that a command leads to. -/
inductive Starts (m : Contents) : UInt8 → UInt32 → Phase → Prop
  | writing (address : UInt32) : Starts m 0x02 address (.writing m address.toNat)
  | reading (address : UInt32) : Starts m 0x03 address (.reading m address.toNat)
  | identifying (address : UInt32) : Starts m 0x9F address (.identifying m Chip.idBytes)

def Chip.opened (chip : Chip) (command : UInt8) (address : UInt32) : Chip where
  cells := chip.cells
  selected := true
  header := opening command address
  cursor := address.toNat % 2 ^ 23
  id := if command = 0x9F then Chip.idBytes else []

private theorem opening_cursor (address : UInt32) :
    ((address &&& addressMask) >>> 16).toUInt8.toNat * 65536 +
      ((address &&& addressMask) >>> 8).toUInt8.toNat * 256 + (address &&& addressMask).toUInt8.toNat =
      address.toNat % 2 ^ 23 := by
  have masked : (address &&& addressMask).toNat = address.toNat % 2 ^ 23 := by
    rw [UInt32.toNat_and]
    exact Nat.and_two_pow_sub_one_eq_mod address.toNat 23
  have small : address.toNat % 2 ^ 23 < 2 ^ 23 := Nat.mod_lt _ (by decide)
  generalize address &&& addressMask = a at masked
  simp [masked, Nat.shiftRight_eq_div_pow]
  omega

theorem openFrame_opens (chip : Chip) (command : UInt8) (address : UInt32) :
    ∃ header, OnlyBytes header ∧
      Follows (openFrame command address) (⟨.deselect, ()⟩ :: ⟨.select, ()⟩ :: header) () ∧
      Chip.device.Answers chip (⟨.deselect, ()⟩ :: ⟨.select, ()⟩ :: header) (chip.opened command address) := by
  refine ⟨(opening command address).map fun b => ⟨.write b, ()⟩, by simp [OnlyBytes],
    .ask (.ask (.ask (.ask (.ask (.ask (.done ())))))), ?_⟩
  have arrived : chip.opened command address = { chip with
      selected := true
      header := opening command address
      cursor := _
      id := if command = 0x9F then Chip.idBytes else [] } :=
    congrArg (fun cursor => Chip.mk chip.cells true (opening command address) cursor
      (if command = 0x9F then Chip.idBytes else [])) (opening_cursor address).symm
  rw [arrived]
  exact .cons rfl (.cons rfl (.cons rfl (.cons rfl (.cons rfl (.cons rfl (.nil _))))))

theorem Starts.shows (starts : Starts m command address phase) (holds : chip.Holds m) :
    (chip.opened command address).Shows phase := by
  cases starts with
  | writing => exact ⟨⟨rfl, ⟨_, _, _, rfl⟩, holds⟩, rfl⟩
  | reading => exact ⟨⟨rfl, ⟨_, _, _, rfl⟩, holds⟩, rfl⟩
  | identifying => exact ⟨⟨rfl, ⟨_, _, _, rfl⟩, holds⟩, rfl⟩

end Opening

section Frames

variable {α β : Type} {phase mid phase' : Phase} {m m' m'' : Contents}

/-- On a chip in a phase the program passes bytes and closes the frame. -/
def Finishes (p : Program Channel α) (phase : Phase) (a : α) (m' : Contents) : Prop :=
  ∀ chip, chip.Shows phase → ∃ body chip', Follows p (body ++ [⟨.deselect, ()⟩]) a ∧
    Chip.device.Answers chip (body ++ [⟨.deselect, ()⟩]) chip' ∧ OnlyBytes body ∧
    chip'.selected = false ∧ chip'.Holds m'

theorem finishes_close (a : α) :
    Finishes (.ask .deselect fun _ => .done a) phase a phase.contents := by
  intro chip shows
  exact ⟨[], { chip with selected := false }, .ask (.done a), .cons rfl (.nil _), by simp [OnlyBytes], rfl,
    shows.holds⟩

theorem Moves.finishes {p : Program Channel α} {f : α → Program Channel β} {a : α} {b : β}
    (first : Moves p phase a mid) (rest : Finishes (f a) mid b m') : Finishes (p >>= f) phase b m' := by
  intro chip shows
  obtain ⟨log, chip, follows, answers, bytes, shows⟩ := first chip shows
  obtain ⟨body, chip', follows', answers', bytes', closed⟩ := rest chip shows
  refine ⟨log ++ body, chip', ?_, ?_, bytes.append bytes', closed⟩
  · rw [List.append_assoc]
    exact follows_bind.mpr ⟨a, log, _, rfl, follows, follows'⟩
  · rw [List.append_assoc]
    exact answers_append.mpr ⟨chip, answers, answers'⟩

/-- Whatever frames there were before, the program makes `n` of its own. It ends with `a` if the memory
held `m`, and then the memory holds `m'`. -/
def Access (p : Program Channel α) (n : Nat) (m : Contents) (a : α) (m' : Contents) : Prop :=
  ∀ chip, chip.Holds m → ∃ log chip', Follows p log a ∧ Chip.device.Answers chip log chip' ∧
    Frames n log ∧ chip'.selected = false ∧ chip'.Holds m'

theorem access_frame {p : Program Channel α} {a : α} {command : UInt8} {address : UInt32}
    (starts : Starts m command address phase) (finishes : Finishes p phase a m') :
    Access (openFrame command address >>= fun _ => p) 1 m a m' := by
  intro chip holds
  obtain ⟨header, bytes, follows, answers⟩ := openFrame_opens chip command address
  obtain ⟨body, chip', follows', answers', bytes', closed⟩ := finishes _ (starts.shows holds)
  exact ⟨_, chip', follows_bind.mpr ⟨(), _, _, rfl, follows, follows'⟩,
    answers_append.mpr ⟨_, answers, answers'⟩, frames_one ⟨header ++ body, by simp, bytes.append bytes'⟩, closed⟩

theorem Access.bind {p : Program Channel α} {f : α → Program Channel β} {a : α} {b : β} {n k : Nat}
    (first : Access p n m a m') (rest : Access (f a) k m' b m'') : Access (p >>= f) (n + k) m b m'' := by
  intro chip holds
  obtain ⟨log, chip, follows, answers, frames, -, holds⟩ := first chip holds
  obtain ⟨log', chip', follows', answers', frames', closed⟩ := rest chip holds
  exact ⟨log ++ log', chip', follows_bind.mpr ⟨a, log, log', rfl, follows, follows'⟩,
    answers_append.mpr ⟨chip, answers, answers'⟩, frames.append frames', closed⟩

end Frames

section Accesses

variable (m : Contents) (address : UInt32)

theorem access_write (bytes : List UInt8) :
    Access (write address bytes) 1 m () (m.putAll address.toNat bytes) :=
  access_frame (.writing address) ((moves_writeAll bytes).finishes (finishes_close ()))

theorem access_read (length : Nat) :
    Access (read address length) 1 m (m.slice address.toNat length) m :=
  access_frame (.reading address)
    ((moves_readAll (take_reading m address.toNat length)).finishes (finishes_close _))

private theorem next_reading (position : Nat) :
    (Phase.reading m position).next = some (m.get position, .reading m (position + 1)) := rfl

theorem access_readByte : Access (readByte address) 1 m (m.get address.toNat) m :=
  access_frame (.reading address) ((moves_read (next_reading m _)).finishes (finishes_close _))

theorem access_writeByte (b : UInt8) : Access (writeByte address b) 1 m () (m.put address.toNat b) :=
  access_write m address [b]

theorem access_readId : Access readId 1 m ⟨0x0d, 0x5d, [0x52, 0x00, 0x11, 0x22, 0x33, 0x44]⟩ m := by
  have manufacturer : (Phase.identifying m Chip.idBytes).next =
      some (0x0d, .identifying m (Chip.idBytes.drop 1)) := rfl
  have knownGood : (Phase.identifying m (Chip.idBytes.drop 1)).next =
      some (0x5d, .identifying m (Chip.idBytes.drop 2)) := rfl
  have extended : (Phase.identifying m (Chip.idBytes.drop 2)).take 6 =
      some ([0x52, 0x00, 0x11, 0x22, 0x33, 0x44], .identifying m []) := rfl
  exact access_frame (.identifying addressMask) ((moves_read manufacturer).finishes
    ((moves_read knownGood).finishes ((moves_readAll extended).finishes (finishes_close _))))

/-- The chip ignores a command that it does not get the address of. -/
private theorem access_single (command : UInt8) : Access (single command) 1 m () m := by
  intro chip holds
  refine ⟨[⟨.deselect, ()⟩, ⟨.select, ()⟩, ⟨.write command, ()⟩, ⟨.deselect, ()⟩], _,
    .ask (.ask (.ask (.ask (.done ())))), .cons rfl (.cons rfl (.cons rfl (.cons rfl (.nil _)))),
    frames_one ⟨[⟨.write command, ()⟩], rfl, by simp [OnlyBytes]⟩, rfl, holds⟩

theorem access_reset : Access reset 2 m () m := by
  change Access (single 0x66 >>= fun _ => single 0x99) (1 + 1) m () m
  exact (access_single m 0x66).bind (access_single m 0x99)

section Words

variable {index : Nat}

private theorem wordAddress_eq (inside : index < words) :
    wordAddress index = done (UInt32.ofNat (index * 4)) := by
  have bound : index < 2 ^ 21 := inside
  exact if_pos (by change _ < 2 ^ 64; omega)

private theorem toNat_wordAddress (inside : index < words) :
    (UInt32.ofNat (index * 4)).toNat = 4 * index := by
  have bound : index < 2 ^ 21 := inside
  rw [UInt32.toNat_ofNat', Nat.mod_eq_of_lt (by omega), Nat.mul_comm]

theorem access_readWord (inside : index < words) : Access (readWord index) 1 m (m.word index) m := by
  unfold readWord
  rw [wordAddress_eq inside]
  apply access_frame (.reading _)
  rw [toNat_wordAddress inside]
  exact (moves_read (next_reading m _)).finishes ((moves_read (next_reading m _)).finishes
    ((moves_read (next_reading m _)).finishes ((moves_read (next_reading m _)).finishes
      (finishes_close (m.word index)))))

theorem access_writeWord (inside : index < words) (value : UInt32) :
    Access (writeWord index value) 1 m () (m.putAll (4 * index) (Word.toLittleEndian value)) := by
  unfold writeWord
  rw [wordAddress_eq inside, ← toNat_wordAddress inside]
  exact access_write m _ _

end Words

end Accesses

end BoardSupport.Psram
