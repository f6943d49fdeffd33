import BoardSupport.PartitionTable
import BoardSupport.Proofs.Word.Bytes
import Mathlib.Data.Fintype.Basic
import Mathlib.Data.List.FinRange
import Mathlib.Tactic.FinCases

/-! Where a block holds its partition table. A writer that leaves all other bytes alone is what reading the
table undoes, and nothing else in the block matters to it. -/
namespace BoardSupport.PartitionTable

/-- Views are of what is there. -/
structure View.Faithful (v : View) : Prop where
  /-- As many bytes as some slots take up are viewed as slots with just these bytes, in order. -/
  slots : ∀ bytes : List UInt8, RawPartition.size ∣ bytes.length →
    ∃ raws, v.slots bytes = some raws ∧ raws.flatMap RawPartition.bytes = bytes
  /-- The least significant byte of a word comes first. -/
  word : ∀ b0 b1 b2 b3, v.word #v[b0, b1, b2, b3] = Word.ofLittleEndian b0 b1 b2 b3

/-- The last two bytes are the signature. -/
def Signed (block : Vector UInt8 512) : Prop := block.get 510 = 0x55 ∧ block.get 511 = 0xAA

instance (block : Vector UInt8 512) : Decidable (Signed block) := inferInstanceAs (Decidable (_ ∧ _))

/-- The sixteen bytes of a slot. The cylinder, head and sector fields may hold anything. -/
def slotBytes (p : Partition) : List (Option UInt8) :=
  [some p.status, none, none, none, some p.kind, none, none, none] ++
    (Word.toLittleEndian p.firstBlock ++ Word.toLittleEndian p.blocks).map some

/-- The byte that a signed block with this table has at `i`, unless it may be anything. -/
def required (table : Vector Partition 4) (i : Fin 512) : Option UInt8 :=
  if h : 446 ≤ i.val ∧ i.val < 510 then (slotBytes table[(i.val - 446) / 16])[(i.val - 446) % 16]?.join
  else if i = 510 then some 0x55
  else if i = 511 then some 0xAA
  else none

/-- A signed block with this table and otherwise the bytes of another. -/
def write (background : Vector UInt8 512) (table : Vector Partition 4) : Vector UInt8 512 :=
  Vector.ofFn fun i => (required table i).getD background[i]

/-- The places in a slot that hold its status, its kind and its two words. -/
def fields : List (Fin 16) := [0, 4, 8, 9, 10, 11, 12, 13, 14, 15]

/-- The word at an offset, least significant byte first. -/
def wordAt (block : Vector UInt8 512) (offset : Fin 509) : UInt32 :=
  Word.ofLittleEndian block[offset.val] block[offset.val + 1] block[offset.val + 2] block[offset.val + 3]

/-- What a block holds in slot `i`. -/
def slot (block : Vector UInt8 512) (i : Fin 4) : Partition where
  status := block[446 + 16 * i.val]
  kind := block[446 + 16 * i.val + 4]
  firstBlock := wordAt block ⟨446 + 16 * i.val + 8, by omega⟩
  blocks := wordAt block ⟨446 + 16 * i.val + 12, by omega⟩

variable {v : View} {block : Vector UInt8 512} {table : Vector Partition 4}

section Viewing

private theorem length_bytes (r : RawPartition) : r.bytes.length = RawPartition.size := by
  simp [RawPartition.bytes, RawPartition.size]

/-- Each slot takes up its share of the bytes. -/
private theorem getElem?_slots (raws : List RawPartition) {k : Nat} (inside : k < RawPartition.size) (i : Nat) :
    (raws.flatMap RawPartition.bytes)[RawPartition.size * i + k]? = raws[i]?.bind fun r => r.bytes[k]? := by
  induction raws generalizing i with
  | nil => rfl
  | cons r raws ih =>
    have size := length_bytes r
    rw [List.flatMap_cons]
    cases i with
    | zero =>
      rw [Nat.mul_zero, Nat.zero_add, List.getElem?_append_left (by omega)]
      rfl
    | succ i =>
      have later : RawPartition.size * (i + 1) + k = r.bytes.length + (RawPartition.size * i + k) := by
        rw [size, Nat.mul_succ]
        omega
      rw [later, List.getElem?_append_right (Nat.le_add_right ..), Nat.add_sub_cancel_left, ih,
        List.getElem?_cons_succ]

private theorem getElem?_tableBytes {n : Nat} (inside : n < tableSize) :
    (tableBytes block)[n]? = block[tableOffset + n]? := by
  rw [tableBytes, List.getElem?_take_of_lt inside, List.getElem?_drop]
  simp

private theorem length_tableBytes : (tableBytes block).length = tableSize := by
  simp [tableBytes, tableOffset, tableSize]

/-- Slots that are viewed as they are have the block's bytes, each at its place. -/
private theorem exists_slots (faithful : v.Faithful) (block : Vector UInt8 512) :
    ∃ raws, v.slots (tableBytes block) = some raws ∧ ∀ i : Fin 4, ∃ r, raws[i.val]? = some r ∧
      ∀ k : Fin 16, r.bytes[k.val]? = block[446 + 16 * i.val + k.val]? := by
  have whole : RawPartition.size ∣ (tableBytes block).length := by
    rw [length_tableBytes]
    decide
  obtain ⟨raws, viewed, same⟩ := faithful.slots _ whole
  refine ⟨raws, viewed, fun i => ?_⟩
  have byte (k : Fin 16) : (raws[i.val]?.bind fun r => r.bytes[k.val]?) = block[446 + 16 * i.val + k.val]? := by
    have inside : RawPartition.size * i.val + k.val < tableSize := by
      simp only [RawPartition.size, tableSize]
      omega
    rw [← getElem?_slots raws k.isLt, same, getElem?_tableBytes inside, ← Nat.add_assoc]
    rfl
  cases found : raws[i.val]? with
  | none =>
    have first := byte 0
    rw [found, Vector.getElem?_eq_getElem (by omega)] at first
    cases first
  | some r => exact ⟨r, rfl, fun k => by rw [← byte k, found]; rfl⟩

private theorem exists_bytes (word : Vector UInt8 4) : ∃ b0 b1 b2 b3, word = #v[b0, b1, b2, b3] := by
  obtain ⟨⟨bytes⟩, four⟩ := word
  obtain ⟨b0, b1, b2, b3, rfl⟩ := List.length_eq_four.mp four
  exact ⟨b0, b1, b2, b3, rfl⟩

/-- A slot with the bytes of slot `i` holds what that does. -/
private theorem partition_eq_slot (faithful : v.Faithful) {r : RawPartition} {i : Fin 4}
    (same : ∀ k : Fin 16, r.bytes[k.val]? = block[446 + 16 * i.val + k.val]?) : v.partition r = slot block i := by
  obtain ⟨status, ⟨⟨first⟩, three⟩, kind, ⟨⟨last⟩, three'⟩, firstBlock, blocks⟩ := r
  obtain ⟨f0, f1, f2, rfl⟩ := List.length_eq_three.mp three
  obtain ⟨l0, l1, l2, rfl⟩ := List.length_eq_three.mp three'
  obtain ⟨a0, a1, a2, a3, rfl⟩ := exists_bytes firstBlock
  obtain ⟨b0, b1, b2, b3, rfl⟩ := exists_bytes blocks
  have byte (k : Fin 16) {b : UInt8} (here : some b = block[446 + 16 * i.val + k.val]?) :
      block[446 + 16 * i.val + k.val] = b := (Vector.getElem?_eq_some_iff.mp here.symm).2
  have status_eq := byte 0 (same 0)
  have kind_eq := byte 4 (same 4)
  have first_eq : wordAt block ⟨446 + 16 * i.val + 8, by omega⟩ = Word.ofLittleEndian a0 a1 a2 a3 :=
    congr (congr (congr (congrArg _ (byte 8 (same 8))) (byte 9 (same 9))) (byte 10 (same 10))) (byte 11 (same 11))
  have blocks_eq : wordAt block ⟨446 + 16 * i.val + 12, by omega⟩ = Word.ofLittleEndian b0 b1 b2 b3 :=
    congr (congr (congr (congrArg _ (byte 12 (same 12))) (byte 13 (same 13))) (byte 14 (same 14)))
      (byte 15 (same 15))
  rw [slot, first_eq, blocks_eq, ← faithful.word, ← faithful.word]
  exact congr (congr (congr (congrArg Partition.mk status_eq.symm) kind_eq.symm) rfl) rfl

end Viewing

private theorem write_slot (background : Vector UInt8 512) (table : Vector Partition 4) (i : Fin 4) (k : Fin 16)
    {byte : UInt8} (here : (slotBytes table[i])[k.val]? = some (some byte)) :
    (write background table)[446 + 16 * i.val + k.val]? = some byte := by
  have place : 446 ≤ 446 + 16 * i.val + k.val ∧ 446 + 16 * i.val + k.val < 510 := by omega
  have slot : (446 + 16 * i.val + k.val - 446) / 16 = i.val := by omega
  have offset : (446 + 16 * i.val + k.val - 446) % 16 = k.val := by omega
  refine Vector.getElem?_eq_some_iff.mpr ⟨by omega, ?_⟩
  simp only [write, required, Vector.getElem_ofFn, dif_pos place, slot, offset]
  simp only [Fin.getElem_fin] at here
  rw [here]
  rfl

private theorem wordAt_of_bytes {offset : Fin 509} {b0 b1 b2 b3 : UInt8} (h0 : block[offset.val]? = some b0)
    (h1 : block[offset.val + 1]? = some b1) (h2 : block[offset.val + 2]? = some b2)
    (h3 : block[offset.val + 3]? = some b3) : wordAt block offset = Word.ofLittleEndian b0 b1 b2 b3 := by
  obtain ⟨_, rfl⟩ := Vector.getElem?_eq_some_iff.mp h0
  obtain ⟨_, rfl⟩ := Vector.getElem?_eq_some_iff.mp h1
  obtain ⟨_, rfl⟩ := Vector.getElem?_eq_some_iff.mp h2
  obtain ⟨_, rfl⟩ := Vector.getElem?_eq_some_iff.mp h3
  rfl

private theorem wordAt_eq {offset : Fin 509} {word : UInt32} (h0 : block[offset.val]? = some word.toUInt8)
    (h1 : block[offset.val + 1]? = some (word >>> 8).toUInt8)
    (h2 : block[offset.val + 2]? = some (word >>> 16).toUInt8)
    (h3 : block[offset.val + 3]? = some (word >>> 24).toUInt8) : wordAt block offset = word :=
  (wordAt_of_bytes h0 h1 h2 h3).trans (Word.ofLittleEndian_bytes word)

private theorem slot_write (background : Vector UInt8 512) (table : Vector Partition 4) (i : Fin 4) :
    slot (write background table) i = table[i] := by
  have at_ (k : Fin 16) {byte : UInt8} := @write_slot background table i k byte
  have status : (write background table)[446 + 16 * i.val] = table[i].status :=
    (Vector.getElem?_eq_some_iff.mp (at_ 0 rfl)).2
  have kind : (write background table)[446 + 16 * i.val + 4] = table[i].kind :=
    (Vector.getElem?_eq_some_iff.mp (at_ 4 rfl)).2
  have first : wordAt (write background table) ⟨446 + 16 * i.val + 8, by omega⟩ = table[i].firstBlock :=
    wordAt_eq (at_ 8 rfl) (at_ 9 rfl) (at_ 10 rfl) (at_ 11 rfl)
  have blocks : wordAt (write background table) ⟨446 + 16 * i.val + 12, by omega⟩ = table[i].blocks :=
    wordAt_eq (at_ 12 rfl) (at_ 13 rfl) (at_ 14 rfl) (at_ 15 rfl)
  rw [slot, status, kind, first, blocks]

theorem signed_write (background : Vector UInt8 512) (table : Vector Partition 4) :
    Signed (write background table) := by
  change (write background table)[510] = 0x55 ∧ (write background table)[511] = 0xAA
  simp [write, required]

theorem parse_of_signed (faithful : v.Faithful) (signed : Signed block) :
    parseWith v block = .ok (Vector.ofFn (slot block)) := by
  obtain ⟨raws, viewed, each⟩ := exists_slots faithful block
  have filled : fillSlots (Vector.replicate 4 .blank) (raws.map v.partition) = Vector.ofFn (slot block) := by
    ext i inside : 1
    obtain ⟨r, found, same⟩ := each ⟨i, inside⟩
    simp only [fillSlots, Vector.getElem_ofFn, List.getElem?_map, found, Option.map_some, Option.getD_some]
    exact partition_eq_slot faithful same
  refine (if_pos signed).trans ?_
  rw [viewed, ← filled]

theorem parse_of_not_signed (v : View) (unsigned : ¬ Signed block) : parseWith v block =
    .error (.badSignature ((block.get 510).toUInt16 <<< 8 ||| (block.get 511).toUInt16)) :=
  if_neg unsigned

/-- Reading a table undoes writing it. -/
theorem parse_write (faithful : v.Faithful) (background : Vector UInt8 512) (table : Vector Partition 4) :
    parseWith v (write background table) = .ok table := by
  rw [parse_of_signed faithful (signed_write background table)]
  congr 1
  ext i inside : 1
  rw [Vector.getElem_ofFn]
  exact slot_write background table ⟨i, inside⟩

private theorem slotBytes_free (p : Partition) {k : Fin 16} (free : k ∉ fields) :
    (slotBytes p)[k.val]?.join = none := by
  fin_cases k <;> simp [fields, slotBytes] at free ⊢

/-- Only the signature and the fields are ever written. -/
theorem write_elsewhere (background : Vector UInt8 512) (table : Vector Partition 4) {i : Fin 512}
    (unsigned : i.val < 510) (outside : ∀ (j : Fin 4), ∀ k ∈ fields, i.val ≠ 446 + 16 * j.val + k.val) :
    (write background table)[i] = background[i] := by
  have free : required table i = none := by
    unfold required
    split
    next place =>
      apply slotBytes_free _ (k := ⟨(i.val - 446) % 16, by omega⟩)
      intro field
      apply outside ⟨(i.val - 446) / 16, by omega⟩ _ field
      dsimp only
      omega
    next => rw [if_neg (by omega), if_neg (by omega)]
  simp [write, free]

private theorem getElem_congr {a b : Vector UInt8 512} {m : Nat} (inside : m < 512) (same : a[m]? = b[m]?) :
    a[m] = b[m] :=
  (Vector.getElem?_eq_some_iff.mp (same.trans (Vector.getElem?_eq_getElem inside))).2

private theorem wordAt_congr {a b : Vector UInt8 512} {offset : Fin 509} (h0 : a[offset.val]? = b[offset.val]?)
    (h1 : a[offset.val + 1]? = b[offset.val + 1]?) (h2 : a[offset.val + 2]? = b[offset.val + 2]?)
    (h3 : a[offset.val + 3]? = b[offset.val + 3]?) : wordAt a offset = wordAt b offset :=
  wordAt_of_bytes (h0.trans (Vector.getElem?_eq_getElem _)) (h1.trans (Vector.getElem?_eq_getElem _))
    (h2.trans (Vector.getElem?_eq_getElem _)) (h3.trans (Vector.getElem?_eq_getElem _))

private theorem slot_congr {a b : Vector UInt8 512} {i : Fin 4}
    (agree : ∀ k ∈ fields, a[446 + 16 * i.val + k.val]? = b[446 + 16 * i.val + k.val]?) :
    slot a i = slot b i := by
  have same (k : Fin 16) (field : k ∈ fields) := agree k field
  have status : a[446 + 16 * i.val] = b[446 + 16 * i.val] := getElem_congr (by omega) (same 0 (by decide))
  have kind : a[446 + 16 * i.val + 4] = b[446 + 16 * i.val + 4] := getElem_congr (by omega) (same 4 (by decide))
  have first : wordAt a ⟨446 + 16 * i.val + 8, by omega⟩ = wordAt b ⟨446 + 16 * i.val + 8, by omega⟩ :=
    wordAt_congr (same 8 (by decide)) (same 9 (by decide)) (same 10 (by decide)) (same 11 (by decide))
  have blocks : wordAt a ⟨446 + 16 * i.val + 12, by omega⟩ = wordAt b ⟨446 + 16 * i.val + 12, by omega⟩ :=
    wordAt_congr (same 12 (by decide)) (same 13 (by decide)) (same 14 (by decide)) (same 15 (by decide))
  rw [slot, status, kind, first, blocks, slot]

private theorem toNat_found (high low : UInt8) :
    (high.toUInt16 <<< 8 ||| low.toUInt16).toNat = 256 * high.toNat + low.toNat := by
  have small := low.toNat_lt
  have shift : (8 : UInt16).toNat % 16 = 8 := rfl
  have fits : high.toNat <<< 8 % 2 ^ 16 = high.toNat <<< 8 := by
    have := high.toNat_lt
    rw [Nat.shiftLeft_eq]
    omega
  rw [UInt16.toNat_or, UInt16.toNat_shiftLeft, UInt8.toNat_toUInt16, UInt8.toNat_toUInt16, shift, fits,
    ← Nat.shiftLeft_add_eq_or_of_lt small, Nat.shiftLeft_eq, Nat.mul_comm]

/-- The slots in use, in the order of the table. -/
theorem used_eq (table : Vector Partition 4) : ∃ slots : List (Fin 4), slots.Pairwise (· < ·) ∧
    (∀ i, i ∈ slots ↔ table[i].kind ≠ 0) ∧ used table = slots.map fun i => table[i] := by
  refine ⟨(List.finRange 4).filter fun i => table[i].isUsed, ?_, ?_, ?_⟩
  · exact (List.pairwise_lt_finRange 4).filter _
  · simp [Partition.isUsed]
  · have whole : table.toList = (List.finRange 4).map fun i => table[i] := by
      apply List.ext_getElem
      · simp
      · intro i _ _
        simp
    rw [used, whole, List.filter_map]
    rfl

/-- Through any view of what is there, a table is read from every block that is signed, and from no other:
then the two bytes found are reported. What is read is what was written, whatever else the block holds, and no
byte but the signature and the fields of the slots has any part in it. -/
theorem parse_undoes_write (v : View) (faithful : v.Faithful) :
    (∀ block, ((∃ table, parseWith v block = .ok table) ↔ Signed block) ∧
      (¬ Signed block → ∃ found, parseWith v block = .error (.badSignature found) ∧
        found.toNat = 256 * (block.get 510).toNat + (block.get 511).toNat)) ∧
    (∀ background table, parseWith v (write background table) = .ok table ∧ ∀ i : Fin 512, i.val < 510 →
      (∀ (j : Fin 4), ∀ k ∈ fields, i.val ≠ 446 + 16 * j.val + k.val) →
        (write background table)[i] = background[i]) ∧
    (∀ a b, Signed a → Signed b → (∀ (j : Fin 4), ∀ k ∈ fields,
      a[446 + 16 * j.val + k.val]? = b[446 + 16 * j.val + k.val]?) → parseWith v a = parseWith v b) ∧
    ∀ table, ∃ slots : List (Fin 4), slots.Pairwise (· < ·) ∧ (∀ i, i ∈ slots ↔ table[i].kind ≠ 0) ∧
      used table = slots.map fun i => table[i] := by
  refine ⟨fun block => ⟨?_, ?_⟩, fun background table => ⟨parse_write faithful background table, ?_⟩, ?_, used_eq⟩
  · constructor
    · rintro ⟨table, read⟩
      by_contra unsigned
      rw [parse_of_not_signed v unsigned] at read
      cases read
    · exact fun signed => ⟨_, parse_of_signed faithful signed⟩
  · intro unsigned
    exact ⟨_, parse_of_not_signed v unsigned, toNat_found _ _⟩
  · exact fun i unsigned outside => write_elsewhere background table unsigned outside
  · intro a b signed signed' agree
    have slots : slot a = slot b := funext fun j => slot_congr (agree j)
    rw [parse_of_signed faithful signed, parse_of_signed faithful signed', slots]

section Packed

private theorem packedSlots_bytes {bytes : List UInt8} (whole : RawPartition.size ∣ bytes.length) :
    ∃ raws, View.packedSlots bytes = some raws ∧ raws.flatMap RawPartition.bytes = bytes := by
  fun_induction View.packedSlots bytes with
  | case1 => exact ⟨[], rfl, rfl⟩
  | case2 status f0 f1 f2 kind l0 l1 l2 a0 a1 a2 a3 b0 b1 b2 b3 rest ih =>
    have fewer : RawPartition.size ∣ rest.length := by
      have size : RawPartition.size = 16 := rfl
      simp only [List.length_cons, size] at whole ⊢
      omega
    obtain ⟨raws, viewed, same⟩ := ih fewer
    refine ⟨_, congrArg (Option.map _) viewed, ?_⟩
    rw [List.flatMap_cons, same]
    rfl
  | case3 bytes more other =>
    -- As long as there are sixteen bytes they make up a slot, and some there are.
    have long : RawPartition.size ≤ bytes.length :=
      Nat.le_of_dvd (List.length_pos_iff.mpr more) whole
    iterate 16
      obtain ⟨_, bytes, rfl⟩ := List.exists_cons_of_length_pos (l := bytes) (by
        simp only [RawPartition.size, List.length_cons] at long
        omega)
    exact absurd rfl (other _ _ _ _ _ _ _ _ _ _ _ _ _ _ _ _ _)

theorem faithful_packed : View.packed.Faithful where
  slots _ whole := packedSlots_bytes whole
  word _ _ _ _ := rfl

end Packed

/-- A card with one partition to start from, in the third slot, on a block that is otherwise not blank. -/
theorem parse_undoes_write_packed :
    let p : Partition := ⟨0x80, 0x0C, 8192, 15523840⟩
    let table : Vector Partition 4 := #v[.blank, .blank, p, .blank]
    let block := write (Vector.replicate 512 0xE5) table
    View.packed.Faithful ∧ parse block = .ok table ∧ used table = [p] ∧ block.get 447 = 0xE5 := by
  intro p table block
  obtain ⟨-, reads, -, -⟩ := parse_undoes_write .packed faithful_packed
  obtain ⟨read, kept⟩ := reads (Vector.replicate 512 0xE5) table
  exact ⟨faithful_packed, read, by decide, kept 447 (by decide) (by decide)⟩

end BoardSupport.PartitionTable
